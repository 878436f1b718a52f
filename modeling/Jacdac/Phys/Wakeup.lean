import Jacdac.Phys.Handlers

/-! No handler loses a pending frame, and none leaves the device without a timer. -/

namespace Jacdac

namespace PhysState

/-- The fields that `tx_queue.c` and the UART own. -/
structure SameFrames (before after : PhysState) : Prop where
  txFrame : after.txFrame = before.txFrame
  sendQueue : after.sendQueue = before.sendQueue
  qSending : after.qSending = before.qSending
  rawFrame : after.rawFrame = before.rawFrame
  rawFrameSending : after.rawFrameSending = before.rawFrameSending
  transmitting : after.transmitting = before.transmitting

theorem SameFrames.refl (state : PhysState) : SameFrames state state := ⟨rfl, rfl, rfl, rfl, rfl, rfl⟩

theorem SameFrames.trans {first second third : PhysState} (early : SameFrames first second)
    (late : SameFrames second third) : SameFrames first third where
  txFrame := late.txFrame.trans early.txFrame
  sendQueue := late.sendQueue.trans early.sendQueue
  qSending := late.qSending.trans early.qSending
  rawFrame := late.rawFrame.trans early.rawFrame
  rawFrameSending := late.rawFrameSending.trans early.rawFrameSending
  transmitting := late.transmitting.trans early.transmitting

/-- `set_tick_timer` clears status bits and decides about the timer. -/
theorem setTickTimer_same (clearRx clearTx : Bool) (state : PhysState) :
    SameFrames state (state.setTickTimer clearRx clearTx) ∧
      (state.setTickTimer clearRx clearTx).txPending = state.txPending ∧
      (state.setTickTimer clearRx clearTx).txActive = (state.txActive && !clearTx) := by
  unfold setTickTimer
  dsimp only
  split
  · exact ⟨⟨rfl, rfl, rfl, rfl, rfl, rfl⟩, rfl, rfl⟩
  · split <;> exact ⟨⟨rfl, rfl, rfl, rfl, rfl, rfl⟩, rfl, rfl⟩

theorem setTickTimer_rxActive (clearTx : Bool) (state : PhysState) :
    (state.setTickTimer true clearTx).rxActive = false := by
  unfold setTickTimer
  dsimp only
  split
  · rename_i receiving
    exact absurd receiving (by simp)
  · split <;> simp

theorem jdPacketReady_same (state : PhysState) :
    SameFrames state state.jdPacketReady ∧ state.jdPacketReady.txPending = true := by
  unfold jdPacketReady
  dsimp only
  split
  · obtain ⟨same, pending, _⟩ := setTickTimer_same false false { state with txPending := true }
    exact ⟨⟨same.txFrame, same.sendQueue, same.qSending, same.rawFrame, same.rawFrameSending, same.transmitting⟩,
      pending⟩
  · exact ⟨⟨rfl, rfl, rfl, rfl, rfl, rfl⟩, rfl⟩

/-- After `poke_ready` a waiting frame is marked as pending. -/
theorem pokeReady_same (state : PhysState) :
    SameFrames state state.pokeReady ∧
      (state.rawFrame.isSome = true ∨ (jdQueueFront state.sendQueue).isSome = true →
        state.pokeReady.txPending = true) := by
  obtain ⟨first, ready⟩ := state.jdPacketReady_same
  unfold pokeReady
  dsimp only
  by_cases raw : state.rawFrame.isSome = true
  · rw [if_pos raw]
    obtain ⟨second, again⟩ := state.jdPacketReady.jdPacketReady_same
    split
    · exact ⟨first.trans second, fun _ => again⟩
    · exact ⟨first, fun _ => ready⟩
  · rw [if_neg raw]
    split
    · exact ⟨first, fun _ => ready⟩
    · rename_i empty
      exact ⟨.refl state, fun waiting => absurd waiting (not_or.mpr ⟨raw, empty⟩)⟩

/-- A timer is armed when nothing is received, and the transmitter is idle while
the timer waits to start it. -/
structure Armed (state : PhysState) : Prop where
  idle : state.rxActive = false → state.timer = some .tick ∨ state.timer = some .flushTxQueue
  flush : state.timer = some .flushTxQueue → state.rxActive = false ∧ state.txActive = false

theorem setTickTimer_armed (clearRx clearTx : Bool) {state : PhysState}
    (stale : clearRx = false → state.timer = some .flushTxQueue → state.rxActive = false) :
    (state.setTickTimer clearRx clearTx).Armed := by
  unfold setTickTimer
  dsimp only
  split
  · rename_i receiving
    refine ⟨fun idle => absurd receiving (by simpa using idle), fun flush => ?_⟩
    rw [Bool.and_eq_true_iff, Bool.not_eq_true'] at receiving
    exact absurd receiving.1 (by simp [stale receiving.2 flush])
  · rename_i idle
    split
    · rename_i waits
      rw [Bool.and_eq_true_iff, Bool.not_eq_true'] at waits
      exact ⟨fun _ => .inr rfl, fun _ => ⟨by simpa using idle, waits.2⟩⟩
    · exact ⟨fun _ => .inl rfl, fun flush => absurd flush (by simp)⟩

theorem Armed.packetReady {state : PhysState} (armed : state.Armed) : state.jdPacketReady.Armed := by
  unfold jdPacketReady
  dsimp only
  split
  · exact setTickTimer_armed false false fun _ flush => (armed.flush flush).1
  · exact ⟨armed.idle, armed.flush⟩

theorem Armed.pokeReady {state : PhysState} (armed : state.Armed) : state.pokeReady.Armed := by
  have perhaps : ∀ (ready : Bool) (state : PhysState), state.Armed → (if ready then state.jdPacketReady else state).Armed := by
    intro ready state armed
    cases ready with
    | true => exact armed.packetReady
    | false => exact armed
  exact perhaps _ _ (perhaps _ _ armed)

/-- `txFrame` is the frame that `tx_queue.c` has handed out. -/
structure Owned (state : PhysState) : Prop where
  small : state.sendQueue.size ≤ 65535
  holds : ∃ frames, Holds state.sendQueue frames ∧ (state.qSending = true → frames ≠ [])
  source : state.txFrame.isSome = true ↔ state.qSending = true ∨ state.rawFrameSending = true
  exclusive : ¬ (state.qSending = true ∧ state.rawFrameSending = true)
  wire : state.transmitting = true → state.txFrame.isSome = true

theorem Owned.of_same {state after : PhysState} (owned : state.Owned) (same : SameFrames state after) : after.Owned where
  small := by rw [same.sendQueue]; exact owned.small
  holds := by rw [same.sendQueue, same.qSending]; exact owned.holds
  source := by rw [same.txFrame, same.qSending, same.rawFrameSending]; exact owned.source
  exclusive := by rw [same.qSending, same.rawFrameSending]; exact owned.exclusive
  wire := by rw [same.transmitting, same.txFrame]; exact owned.wire

theorem front_isSome {queue : Queue} {frames : List QueuedFrame} (holds : Holds queue frames) :
    (jdQueueFront queue).isSome = true ↔ frames ≠ [] := by
  cases frames with
  | nil => simp [holds.front_nil]
  | cons record rest =>
    obtain ⟨offset, front, _⟩ := holds.front_cons
    simp [front]

/-- `jd_tx_get_frame` on an idle transmitter: no assertion fails, and it hands
out a frame unless there is none. -/
theorem Owned.getFrame {state : PhysState} (owned : state.Owned) (idle : state.txFrame = none) :
    (state.jdTxGetFrame = .ok (none, state) ∧ state.rawFrame = none ∧ jdQueueFront state.sendQueue = none) ∨
      ∃ frame after, state.jdTxGetFrame = .ok (some frame, after) ∧ { after with txFrame := some frame }.Owned ∧
        after.timer = state.timer ∧ after.txActive = state.txActive ∧ after.sendQueue = state.sendQueue := by
  have quiet : state.qSending = false ∧ state.rawFrameSending = false := by
    have none := mt owned.source.mpr (by simp [idle])
    simpa [not_or] using none
  obtain ⟨frames, holds, _⟩ := owned.holds
  unfold jdTxGetFrame
  cases raw : state.rawFrame with
  | some frame =>
    refine .inr ⟨_, _, rfl, ⟨owned.small, ⟨frames, holds, ?_⟩, ?_, ?_, fun _ => rfl⟩, rfl, rfl, rfl⟩
    · simp [quiet.1]
    · simp
    · simp [quiet.1]
  | none =>
    simp only [quiet.1, Bool.false_eq_true, if_false]
    cases front : jdQueueFront state.sendQueue with
    | none => exact .inl ⟨rfl, trivial, rfl⟩
    | some offset =>
      refine .inr ⟨_, _, rfl, ⟨owned.small, ⟨frames, holds, fun _ => ?_⟩, ?_, ?_, fun _ => rfl⟩, rfl, rfl, rfl⟩
      · exact (front_isSome holds).mp (by simp [front])
      · simp
      · simp [quiet.2]

/-- The report of a frame that was being sent: no assertion fails, and what
waits behind it is marked as pending. -/
theorem Owned.frameSent {state : PhysState} (owned : state.Owned) (armed : state.Armed)
    (busy : state.txFrame.isSome = true) :
    ∃ after, state.jdTxFrameSent = .ok after ∧ after.Armed ∧ after.qSending = false ∧ after.rawFrameSending = false ∧
      after.transmitting = state.transmitting ∧ after.sendQueue.size ≤ 65535 ∧
      (∃ frames, Holds after.sendQueue frames) ∧
      (after.rawFrame.isSome = true ∨ (jdQueueFront after.sendQueue).isSome = true → after.txPending = true) := by
  obtain ⟨frames, holds, sending⟩ := owned.holds
  unfold jdTxFrameSent
  by_cases raw : state.rawFrameSending = true
  · have quiet : state.qSending = false := by
      by_contra active
      exact owned.exclusive ⟨by simpa using active, raw⟩
    obtain ⟨same, waits⟩ := pokeReady_same { state with rawFrameSending := false }
    refine ⟨_, if_pos raw, Armed.pokeReady ⟨armed.idle, armed.flush⟩, same.qSending.trans quiet,
      same.rawFrameSending, same.transmitting, ?_, ⟨frames, ?_⟩, ?_⟩
    · rw [same.sendQueue]
      exact owned.small
    · rw [same.sendQueue]
      exact holds
    · rw [same.rawFrame, same.sendQueue]
      exact waits
  · have active : state.qSending = true := (owned.source.mp busy).resolve_right raw
    rw [if_neg raw, if_neg (by simp [active])]
    cases frames with
    | nil => exact absurd rfl (sending active)
    | cons record rest =>
      obtain ⟨queue, shifted, tail, size, _⟩ := holds.shift owned.small
      rw [shifted]
      obtain ⟨same, waits⟩ := pokeReady_same { state with sendQueue := queue, qSending := false }
      refine ⟨_, rfl, Armed.pokeReady ⟨armed.idle, armed.flush⟩, same.qSending,
        same.rawFrameSending.trans (by simpa using raw), same.transmitting, ?_, ⟨rest, ?_⟩, ?_⟩
      · rw [same.sendQueue, size]
        exact owned.small
      · rw [same.sendQueue]
        exact tail
      · rw [same.rawFrame, same.sendQueue]
        exact waits

/-- A frame waits to be sent; the flags are those of the run. -/
def Waiting (queued raw : Bool) (state : PhysState) : Prop :=
  state.txFrame.isSome = true ∨ (queued = true ∧ (jdQueueFront state.sendQueue).isSome = true) ∨
    (raw = true ∧ state.rawFrame.isSome = true)

/-- Everything the handlers keep. -/
structure Awake (queued raw : Bool) (state : PhysState) : Prop where
  owned : state.Owned
  armed : state.Armed
  wakes : state.Waiting queued raw → state.txPending = true ∨ state.txActive = true
  nonempty : queued = true → (jdQueueFront state.sendQueue).isSome = true
  posted : raw = true → state.rawFrame.isSome = true

theorem startTx_rawFrame (started : Bool) (state : PhysState) : (state.startTx started).rawFrame = state.rawFrame := by
  cases started with
  | true => exact (setTickTimer_same false false { state with transmitting := true }).1.rawFrame
  | false => exact (setTickTimer_same false true state).1.rawFrame

theorem startTx_awake {queued raw : Bool} {state : PhysState} (started : Bool) (owned : state.Owned)
    (busy : state.txFrame.isSome = true) (active : state.txActive = true) (fired : state.timer = none)
    (nonempty : queued = true → (jdQueueFront state.sendQueue).isSome = true)
    (posted : raw = true → state.rawFrame.isSome = true) : (state.startTx started).Awake queued raw := by
  have stale : false = false → state.timer = some .flushTxQueue → state.rxActive = false := by simp [fired]
  cases started with
  | true =>
    obtain ⟨same, _, still⟩ := setTickTimer_same false false { state with transmitting := true }
    have sending : { state with transmitting := true }.Owned :=
      ⟨owned.small, owned.holds, owned.source, owned.exclusive, fun _ => busy⟩
    refine ⟨sending.of_same same, setTickTimer_armed false false stale, fun _ => .inr ?_, ?_, ?_⟩
    · exact still.trans (by simp [active])
    · simpa [startTx, same.sendQueue] using nonempty
    · simpa [startTx, same.rawFrame] using posted
  | false =>
    obtain ⟨same, _⟩ := setTickTimer_same false true state
    have done := setTickTimer_armed false true stale
    have kept : { state.txDone with txPending := true }.Owned := (owned.of_same same).of_same ⟨rfl, rfl, rfl, rfl, rfl, rfl⟩
    refine ⟨kept, ⟨done.idle, done.flush⟩, fun _ => .inl rfl, ?_, ?_⟩
    · simpa [startTx, txDone, same.sendQueue] using nonempty
    · simpa [startTx, txDone, same.rawFrame] using posted

section Steps

variable {queued raw : Bool} {state : PhysState} (awake : state.Awake queued raw)

include awake

/-- Handlers that end in `set_tick_timer` and touch no frame. -/
theorem Awake.tickTimer (changed : PhysState) (same : SameFrames state changed)
    (pending : changed.txPending = state.txPending) (active : changed.txActive = state.txActive) (clearRx : Bool)
    (stale : clearRx = false → changed.timer = some .flushTxQueue → changed.rxActive = false) :
    (changed.setTickTimer clearRx false).Awake queued raw := by
  obtain ⟨frames, stillPending, stillActive⟩ := setTickTimer_same clearRx false changed
  have frames := same.trans frames
  refine ⟨awake.owned.of_same frames, setTickTimer_armed clearRx false stale, ?_, ?_, ?_⟩
  · rw [stillPending, stillActive, pending, active, Bool.not_false, Bool.and_true]
    intro waiting
    rw [Waiting, frames.txFrame, frames.sendQueue, frames.rawFrame] at waiting
    exact awake.wakes waiting
  · rw [frames.sendQueue]
    exact awake.nonempty
  · rw [frames.rawFrame]
    exact awake.posted

theorem Awake.push {frame : Frame} (lower : 1 ≤ frame.size) (upper : frame.size ≤ 240)
    {grown : Queue} (pushed : jdQueuePush state.sendQueue frame = .ok (ret, grown)) :
    { state with sendQueue := grown }.Awake queued raw := by
  obtain ⟨frames, holds, sending⟩ := awake.owned.holds
  obtain ⟨after, held, size, longer⟩ : ∃ after, Holds grown after ∧ grown.size = state.sendQueue.size ∧
      (frames ≠ [] → after ≠ []) := by
    rcases holds.push awake.owned.small lower upper with ⟨_, next, done, accepted⟩ | ⟨_, code, _, done, _⟩
    · obtain ⟨_, rfl⟩ := Prod.mk.inj (Except.ok.inj (pushed.symm.trans done))
      exact ⟨_, accepted.holds, accepted.size, fun _ => by simp⟩
    · obtain ⟨_, rfl⟩ := Prod.mk.inj (Except.ok.inj (pushed.symm.trans done))
      exact ⟨frames, holds, rfl, id⟩
  have owned := awake.owned
  have kept : queued = true → (jdQueueFront grown).isSome = true := fun ready =>
    (front_isSome held).mpr (longer ((front_isSome holds).mp (awake.nonempty ready)))
  refine ⟨⟨size ▸ owned.small, ⟨after, held, fun active => longer (sending active)⟩, owned.source, owned.exclusive,
    owned.wire⟩, ⟨awake.armed.idle, awake.armed.flush⟩, ?_, kept, awake.posted⟩
  rintro (busy | ⟨ready, _⟩ | posted)
  · exact awake.wakes (.inl busy)
  · exact awake.wakes (.inr (.inl ⟨ready, awake.nonempty ready⟩))
  · exact awake.wakes (.inr (.inr posted))

theorem Awake.postRaw (frame : Frame) : { state with rawFrame := some frame }.Awake queued raw := by
  have owned := awake.owned
  refine ⟨⟨owned.small, owned.holds, owned.source, owned.exclusive, owned.wire⟩,
    ⟨awake.armed.idle, awake.armed.flush⟩, ?_, awake.nonempty, fun _ => rfl⟩
  rintro (busy | ready | ⟨posted, _⟩)
  · exact awake.wakes (.inl busy)
  · exact awake.wakes (.inr (.inl ready))
  · exact awake.wakes (.inr (.inr ⟨posted, awake.posted posted⟩))

theorem Awake.packetReady :
    state.jdPacketReady.Awake (jdQueueFront state.sendQueue).isSome state.rawFrame.isSome := by
  obtain ⟨same, pending⟩ := state.jdPacketReady_same
  refine ⟨awake.owned.of_same same, awake.armed.packetReady, fun _ => .inl pending, ?_, ?_⟩
  · rw [same.sendQueue]
    exact id
  · rw [same.rawFrame]
    exact id

theorem Awake.tick (elapsed : Nat) (ticked : { state with timer := none }.tick elapsed = .ok next) :
    next.Awake queued raw := by
  unfold PhysState.tick at ticked
  split at ticked
  · exact absurd ticked nofun
  · obtain rfl := Except.ok.inj ticked
    exact awake.tickTimer { state with timer := none } ⟨rfl, rfl, rfl, rfl, rfl, rfl⟩ rfl rfl false fun _ => nofun

theorem Awake.setupRxTimeout (gotData : Bool) :
    ({ state with timer := none }.setupRxTimeout gotData).Awake queued raw := by
  unfold PhysState.setupRxTimeout
  split
  · rename_i receiving
    split
    · refine ⟨awake.owned.of_same ⟨rfl, rfl, rfl, rfl, rfl, rfl⟩, ⟨fun idle => ?_, nofun⟩, awake.wakes, awake.nonempty,
        awake.posted⟩
      exact absurd receiving (by simpa using idle)
    · exact awake.tickTimer { state with timer := none } ⟨rfl, rfl, rfl, rfl, rfl, rfl⟩ rfl rfl true nofun
  · exact awake.tickTimer { state with timer := none } ⟨rfl, rfl, rfl, rfl, rfl, rfl⟩ rfl rfl false fun _ => nofun

theorem Awake.lineFalling (outcome : LineOutcome) (fell : state.jdLineFalling outcome = .ok next) :
    next.Awake queued raw := by
  unfold PhysState.jdLineFalling at fell
  split at fell
  · exact absurd fell nofun
  · have done : ({ state with rxActive := true }.setTickTimer true false).Awake queued raw :=
      awake.tickTimer { state with rxActive := true } ⟨rfl, rfl, rfl, rfl, rfl, rfl⟩ rfl rfl true nofun
    cases outcome with
    | stuckLow =>
      obtain rfl := Except.ok.inj fell
      exact done
    | receiving =>
      obtain rfl := Except.ok.inj fell
      exact ⟨awake.owned.of_same ⟨rfl, rfl, rfl, rfl, rfl, rfl⟩, ⟨nofun, nofun⟩, awake.wakes, awake.nonempty,
        awake.posted⟩
    | completed =>
      simp only [jdRxCompleted, setTickTimer_rxActive, Bool.false_eq_true, if_false] at fell
      obtain rfl := Except.ok.inj fell
      exact done

/-- The report of a sent frame: no assertion fails. -/
theorem Awake.txCompleted (busy : state.transmitting = true) :
    ∃ after, state.jdTxCompleted = .ok after ∧
      after.Awake (jdQueueFront after.sendQueue).isSome after.rawFrame.isSome := by
  have owned := awake.owned
  have reporting : { state with transmitting := false }.Owned :=
    ⟨owned.small, owned.holds, owned.source, owned.exclusive, nofun⟩
  obtain ⟨sent, done, armed, noQueue, noRaw, idle, small, ⟨frames, holds⟩, waits⟩ :=
    reporting.frameSent ⟨awake.armed.idle, awake.armed.flush⟩ (owned.wire busy)
  obtain ⟨same, pending, _⟩ := setTickTimer_same false true { sent with txFrame := none }
  have released : { sent with txFrame := none }.Owned :=
    ⟨small, ⟨frames, holds, by simp [noQueue]⟩, by simp [noQueue, noRaw], by simp [noQueue], by simp [idle]⟩
  refine ⟨{ sent with txFrame := none }.txDone, by rw [jdTxCompleted, done], released.of_same same, ?_, ?_, id, id⟩
  · exact setTickTimer_armed false true fun _ flush => (armed.flush flush).1
  · intro waiting
    refine .inl (pending.trans (waits ?_))
    rw [Waiting, txDone, same.txFrame, same.sendQueue, same.rawFrame] at waiting
    rcases waiting with busy | ⟨_, queue⟩ | ⟨_, raw⟩
    · exact absurd busy nofun
    · exact .inr queue
    · exact .inl raw

omit awake in
theorem Owned.sendNext (owned : state.Owned) (active : state.txActive = true) (fired : state.timer = none)
    (nonempty : queued = true → (jdQueueFront state.sendQueue).isSome = true) (started : Bool) :
    ∃ after, state.sendNext started = .ok after ∧ after.Awake queued (raw && after.rawFrame.isSome) := by
  unfold PhysState.sendNext
  cases pointer : state.txFrame with
  | some frame =>
    refine ⟨_, rfl, startTx_awake started owned (by simp [pointer]) active fired nonempty ?_⟩
    rw [startTx_rawFrame, Bool.and_eq_true_iff]
    exact And.right
  | none =>
    rcases owned.getFrame pointer with ⟨got, noRaw, noQueue⟩ | ⟨frame, after, got, taken, timer, stillActive, queue⟩
    · obtain ⟨same, _⟩ := setTickTimer_same false true state
      have empty : queued = false := by
        by_contra ready
        simpa [noQueue] using nonempty (by simpa using ready)
      refine ⟨state.txDone, by rw [got], owned.of_same same, setTickTimer_armed false true ?_, ?_, ?_, ?_⟩
      · simp [fired]
      · intro waiting
        rw [Waiting, txDone, same.txFrame, same.sendQueue, same.rawFrame, pointer, noQueue, noRaw] at waiting
        simp at waiting
      · simp [empty]
      · rw [Bool.and_eq_true_iff]
        exact And.right
    · refine ⟨_, by rw [got], startTx_awake started taken rfl (stillActive.trans active) (timer.trans fired) ?_ ?_⟩
      · exact queue ▸ nonempty
      · rw [startTx_rawFrame, Bool.and_eq_true_iff]
        exact And.right

/-- The timer starts the transmitter: no assertion fails. -/
theorem Awake.flush (armed : state.timer = some .flushTxQueue) (started : Bool) :
    ∃ after, { state with timer := none }.flushTxQueue started = .ok after ∧
      after.Awake queued (raw && after.rawFrame.isSome) := by
  obtain ⟨notReceiving, notSending⟩ := awake.armed.flush armed
  unfold flushTxQueue
  rw [if_neg (by simp [notReceiving, notSending])]
  have claimed : { state with timer := none, txActive := true, txPending := false }.Owned :=
    awake.owned.of_same ⟨rfl, rfl, rfl, rfl, rfl, rfl⟩
  exact claimed.sendNext rfl rfl awake.nonempty started

end Steps

end PhysState

/-- The invariant holds along every run. -/
theorem PhysRun.awake (run : PhysRun sendSize state queued raw) : state.Awake queued raw := by
  induction run with
  | start =>
    refine ⟨⟨?_, ⟨[], .alloc sendSize, nofun⟩, ⟨nofun, ?_⟩, nofun, nofun⟩, ⟨fun _ => .inl rfl, nofun⟩, ?_, nofun, nofun⟩
    · show u16 sendSize ≤ 65535
      unfold u16
      omega
    · rintro (queue | raw)
      · exact absurd queue nofun
      · exact absurd raw nofun
    · rintro (busy | ⟨ready, _⟩ | ⟨posted, _⟩)
      · exact absurd busy nofun
      · exact absurd ready nofun
      · exact absurd posted nofun
  | push _ frame lower upper pushed ih => exact ih.push lower upper pushed
  | postRaw _ frame ih => exact ih.postRaw frame
  | packetReady _ ih => exact ih.packetReady
  | tick _ _ elapsed ticked ih => exact ih.tick elapsed ticked
  | flush _ armed started flushed ih =>
    obtain ⟨after, done, awake⟩ := ih.flush armed started
    obtain rfl := Except.ok.inj (flushed.symm.trans done)
    exact awake
  | setupRxTimeout _ _ gotData ih => exact ih.setupRxTimeout gotData
  | @rxTimeout state queued raw _ _ ih =>
    exact ih.tickTimer { state with timer := none } ⟨rfl, rfl, rfl, rfl, rfl, rfl⟩ rfl rfl true nofun
  | txCompleted _ busy completed ih =>
    obtain ⟨after, done, awake⟩ := ih.txCompleted busy
    obtain rfl := Except.ok.inj (completed.symm.trans done)
    exact awake
  | lineFalling _ outcome fell ih => exact ih.lineFalling outcome fell
  | rxCompleted _ ih => exact ih.tickTimer _ (.refl _) rfl rfl true nofun

/-- In every reachable state a pending frame is marked or being sent, a timer is
armed unless a frame is being received, `txFrame` is the frame handed out, and
the handlers fail none of the assertions of `tx_queue.c`. -/
theorem pending_frame_not_forgotten {sendSize : Nat} {state : PhysState} {queued raw : Bool}
    (run : PhysRun sendSize state queued raw) :
    (state.txFrame.isSome = true ∨ (queued = true ∧ (jdQueueFront state.sendQueue).isSome = true) ∨
        (raw = true ∧ state.rawFrame.isSome = true) → state.txPending = true ∨ state.txActive = true) ∧
    (state.rxActive = false → state.timer = some .tick ∨ state.timer = some .flushTxQueue) ∧
    (state.txFrame.isSome = true ↔ state.qSending = true ∨ state.rawFrameSending = true) ∧
    (state.timer = some .flushTxQueue → ∀ started, ∃ next,
      { state with timer := none }.flushTxQueue started = .ok next) ∧
    (state.transmitting = true → ∃ next, state.jdTxCompleted = .ok next) := by
  have awake := run.awake
  refine ⟨awake.wakes, awake.armed.idle, awake.owned.source, fun armed started => ?_, fun busy => ?_⟩
  · obtain ⟨next, done, _⟩ := awake.flush armed started
    exact ⟨next, done⟩
  · obtain ⟨next, done, _⟩ := awake.txCompleted busy
    exact ⟨next, done⟩

/-- A raw frame is posted, and `uart_start_tx` fails on it. -/
theorem pending_frame_not_forgotten_retry :
    ∃ state : PhysState, state.txFrame.isSome = true ∧ state.timer = some .tick ∧
      (state.txPending = true ∨ state.txActive = true) :=
  have posted : PhysRun 100 _ false true := .packetReady (.postRaw .start fun _ => 0)
  have run := PhysRun.flush posted rfl false rfl
  ⟨_, rfl, rfl, (pending_frame_not_forgotten run).1 (.inl rfl)⟩

end Jacdac
