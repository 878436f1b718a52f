import Jacdac.Link.Checked

/-! What holds in every run of the two devices: the reports that are still known
of lie, oldest first, with the handlers, in the receive queue and in the send
queue. -/

namespace Jacdac

def Stored (queue : Queue) : Prop := queue.size ≤ 65535 ∧ ∃ frames, Holds queue frames

theorem Stored.push {queue : Queue} (stored : Stored queue) (frame : Frame) (lower : 1 ≤ frame.size)
    (upper : frame.size ≤ 240) : ∃ ret next, jdQueuePush queue frame = .ok (ret, next) ∧ Stored next := by
  obtain ⟨small, frames, holds⟩ := stored
  rcases holds.push small lower upper with ⟨_, next, pushed, accepted⟩ | ⟨_, ret, _, pushed, _⟩
  · exact ⟨0, next, pushed, accepted.size ▸ small, _, accepted.holds⟩
  · exact ⟨ret, queue, pushed, small, frames, holds⟩

/-- A record of the send queue with every byte of an emitted frame. -/
structure SentCopy (config : TxConfig) (record : QueuedFrame) (emission : Emission) : Prop where
  checked : emission.Checked config
  whole : ∀ cell < emission.frame.frameSize, record.frame cell = emission.frame cell

/-- A record of the receive queue; `flags` may have changed. -/
structure ReceivedCopy (config : TxConfig) (record : QueuedFrame) (emission : Emission) : Prop where
  checked : emission.Checked config
  whole : ∀ cell < emission.frame.frameSize, cell ≠ 3 → record.frame cell = emission.frame cell

/-- What the handlers saw of a report: its packets, if the padding was clear. -/
def Understood (packets : List Packet) (emission : Emission) : Prop :=
  PaddingClear emission.buffer → packets = emission.packets

/-- The reports still known of, by the place where they are. -/
structure WireHolds (config : WireConfig) (state : Wire) (trace : WireTrace)
    (sending waiting delivered : List Emission) : Prop where
  built : Accumulates state.tx.txAccBuffer trace.pending
  plain : PlainFlags state.tx.txAccBuffer
  sent : trace.sent = trace.emitted.flatMap (·.packets) ++ trace.pending
  loopQueue : Stored state.tx.link.rxQueue
  sendQueue : ∃ frames, Transports config.sender.deviceId (SentCopy config.sender) 0 state.tx.link.sendQueue sending frames
  handedOut : ∀ offset, state.txFrame = some offset → jdQueueFront state.tx.link.sendQueue = some offset
  rxQueue : ∃ frames, Transports config.sender.deviceId (ReceivedCopy config.sender) (if state.processing then 1 else 0)
    state.rxQueue waiting frames
  handled : List.Forall₂ Understood trace.handled delivered
  kept : Kept trace.emitted (delivered ++ (waiting ++ sending)) trace.lost

theorem ReceivedCopy.ofFrame {config : TxConfig} {emission : Emission} {rxFrame : Frame}
    (checked : emission.Checked config) (whole : ∀ cell < emission.frame.frameSize, rxFrame cell = emission.frame cell)
    (upper : (received rxFrame false).size ≤ 240) : ReceivedCopy config (.ofFrame (received rxFrame false) upper) emission := by
  refine ⟨checked, fun cell inside other => ?_⟩
  have size : rxFrame.size = emission.frame.size := by
    refine congrArg UInt8.toNat (whole 2 ?_)
    unfold Frame.frameSize
    omega
  have padded : emission.frame.frameSize ≤ frmSize (received rxFrame false) := by
    have same : (received rxFrame false).frameSize = emission.frame.frameSize := congrArg (· + 12) size
    rw [frmSize, same]
    exact align_ge _
  rw [QueuedFrame.frame_ofFrame upper (by omega), ← whole cell inside]
  exact Memory.write_outside (by simp; omega)

theorem SentCopy.ofFrame {config : TxConfig} {emission : Emission} (checked : emission.Checked config)
    (upper : emission.frame.size ≤ 240) : SentCopy config (.ofFrame emission.frame upper) emission :=
  ⟨checked, fun _ inside => QueuedFrame.frame_ofFrame upper (Nat.lt_of_lt_of_le inside (align_ge _))⟩

theorem jdSendFrameRaw_queues {config : TxConfig} {link next : Link} {frame : Frame}
    (sent : jdSendFrameRaw config link frame = .ok (ret, after, next)) :
    pushSend config link.sendQueue frame = .ok (ret, next.sendQueue) ∧
      ((∃ code, jdQueuePush link.rxQueue (received frame true) = .ok (code, next.rxQueue)) ∨
        next.rxQueue = link.rxQueue) := by
  simp only [jdSendFrameRaw] at sent
  split at sent
  · cases sent
  · rename_i pushed
    split at sent
    · cases sent
    · rename_i looped
      cases sent
      refine ⟨pushed, ?_⟩
      simp only [jdRxFrameReceivedCore] at looped
      split at looped
      · split at looped
        · cases looped
        · rename_i done
          cases looped
          exact .inl ⟨_, done⟩
      · cases looped
        exact .inr rfl

/-- Neither queue refuses by an assertion. -/
theorem jdSendFrameRaw_total (config : TxConfig) {link : Link} (sendQueue : Stored link.sendQueue)
    (loopQueue : Stored link.rxQueue) {frame : Frame} (lower : 1 ≤ frame.size) (upper : frame.size ≤ 240) :
    ∃ ret after next, jdSendFrameRaw config link frame = .ok (ret, after, next) ∧ Stored next.rxQueue := by
  obtain ⟨code, queue, pushed, _⟩ := sendQueue.push frame lower upper
  obtain ⟨other, grown, looped, stored⟩ := loopQueue.push (received frame true) lower upper
  have sent : ∃ ret queue, pushSend config link.sendQueue frame = .ok (ret, queue) := by
    unfold pushSend
    split
    · exact ⟨_, _, pushed⟩
    · exact ⟨_, _, rfl⟩
  obtain ⟨ret, sendQueue, sent⟩ := sent
  unfold received at looped
  simp only [jdSendFrameRaw, sent, jdRxFrameReceivedCore]
  by_cases wanted : config.jdServicesNeedsFrame frame
  · rw [if_pos wanted, looped]
    exact ⟨_, _, _, rfl, stored⟩
  · rw [if_neg wanted]
    exact ⟨_, _, _, rfl, loopQueue⟩

theorem jdSendFrameRaw_loop {config : TxConfig} {link next : Link} {frame : Frame} (loopQueue : Stored link.rxQueue)
    (lower : 1 ≤ frame.size) (upper : frame.size ≤ 240)
    (sent : jdSendFrameRaw config link frame = .ok (ret, after, next)) : Stored next.rxQueue := by
  rcases (jdSendFrameRaw_queues sent).2 with ⟨code, pushed⟩ | same
  · obtain ⟨_, queue, done, stored⟩ := loopQueue.push (received frame true) lower upper
    obtain ⟨_, rfl⟩ := Prod.mk.inj (Except.ok.inj (pushed.symm.trans done))
    exact stored
  · exact same ▸ loopQueue

/-- A push to the send queue: reports come last, everything else is no report. -/
theorem Transports.pushSend {config : TxConfig} {like : QueuedFrame → Emission → Prop} {queue next : Queue}
    {emissions : List Emission} {frames : List QueuedFrame} {frame : Frame}
    (transports : Transports deviceId like 0 queue emissions frames) (lower : 1 ≤ frame.size) (upper : frame.size ≤ 240)
    (pushed : Jacdac.pushSend config queue frame = .ok (ret, next)) :
    (∀ offset, jdQueueFront queue = some offset → jdQueueFront next = some offset) ∧
    (frame.ReportsFrom deviceId → ∀ emission, like (.ofFrame frame upper) emission →
      ∃ frames, Transports deviceId like 0 next
        (if txTakes config queue frame then emissions ++ [emission] else emissions) frames) ∧
    (¬ frame.ReportsFrom deviceId → ∃ frames, Transports deviceId like 0 next emissions frames) := by
  unfold Jacdac.pushSend at pushed
  unfold txTakes
  split at pushed
  · rename_i needed
    rw [needed, Bool.true_and]
    refine ⟨?_, fun report emission same => ?_, fun other => (transports.pushOther frame lower upper other pushed).1⟩
    · rcases transports.pushed frame lower upper pushed with ⟨_, rfl⟩ | ⟨_, _, _, front⟩
      · exact fun _ => id
      · exact front
    · exact (transports.pushReport frame lower upper report same pushed).1
  · rename_i unwanted
    cases pushed
    rw [Bool.eq_false_iff.mpr unwanted, Bool.false_and]
    exact ⟨fun _ => id, fun _ _ _ => ⟨frames, transports⟩, fun _ => ⟨frames, transports⟩⟩

theorem Transports.receive {config : TxConfig} {like : QueuedFrame → Emission → Prop} {queue next : Queue}
    {emissions : List Emission} {frames : List QueuedFrame} {frame : Frame}
    (transports : Transports deviceId like skipped queue emissions frames) (lower : 1 ≤ frame.size)
    (upper : frame.size ≤ 240) (pushed : jdRxFrameReceivedCore config queue frame isLoop = .ok (ret, after, next)) :
    (frame.ReportsFrom deviceId → ∀ emission, like (.ofFrame (received frame isLoop) upper) emission →
      ∃ frames, Transports deviceId like skipped next
        (if rxTakes config queue frame then emissions ++ [emission] else emissions) frames) ∧
    (¬ frame.ReportsFrom deviceId → ∃ frames, Transports deviceId like skipped next emissions frames) := by
  unfold jdRxFrameReceivedCore at pushed
  unfold rxTakes
  split at pushed
  · rename_i needed
    dsimp only at pushed
    split at pushed
    · cases pushed
    · rename_i code grown done
      cases pushed
      change jdQueuePush queue (received frame isLoop) = .ok (ret, next) at done
      rw [needed, Bool.true_and]
      refine ⟨fun report emission same => ?_, fun other => ?_⟩
      · exact (transports.pushReport (received frame isLoop) lower upper
          ((reportsFrom_received frame isLoop).mpr report) same done).1
      · exact (transports.pushOther (received frame isLoop) lower upper
          (mt (reportsFrom_received frame isLoop).mp other) done).1
  · rename_i unwanted
    cases pushed
    rw [Bool.eq_false_iff.mpr unwanted, Bool.false_and]
    exact ⟨fun _ _ _ => ⟨frames, transports⟩, fun _ => ⟨frames, transports⟩⟩

namespace WireHolds

variable {config : WireConfig} {state : Wire} {trace : WireTrace} {sending waiting delivered : List Emission}

theorem boot (config : WireConfig) (sendSize loopSize rxSize : Nat) :
    WireHolds config (.boot sendSize loopSize rxSize) .empty [] [] [] where
  built := ⟨Nat.zero_le _, rfl, by simp [WireTrace.empty]⟩
  plain := .inl rfl
  sent := rfl
  loopQueue := ⟨Nat.le_of_lt_succ (Nat.mod_lt _ (by decide)), [], .alloc loopSize⟩
  sendQueue := ⟨[], .alloc _ _ sendSize⟩
  handedOut := fun _ none => nomatch none
  rxQueue := ⟨[], .alloc _ _ rxSize⟩
  handled := .nil
  kept := .nil

theorem append (holds : WireHolds config state trace sending waiting delivered) {packet : Packet}
    (size : packet.serviceSize ≤ 232)
    (appended : appendPacket state.tx.txAccBuffer packet.serviceIndex.toNat packet.serviceCommand packet.payload =
      .ok (some buffer)) :
    WireHolds config { state with tx.txAccBuffer := buffer } (trace.send packet) sending waiting delivered where
  built := holds.built.appended_of_ok size appended
  plain := by
    have flags : buffer.flags = state.tx.txAccBuffer.flags := appendPacket_header appended (by decide) (by decide)
    unfold PlainFlags
    rw [flags]
    exact holds.plain
  sent := by
    change trace.sent ++ [packet] = _ ++ (trace.pending ++ [packet])
    rw [holds.sent, List.append_assoc]
    rfl
  loopQueue := holds.loopQueue
  sendQueue := holds.sendQueue
  handedOut := holds.handedOut
  rxQueue := holds.rxQueue
  handled := holds.handled
  kept := holds.kept

/-- The frame that `emit` builds is a report the receiver would accept. -/
theorem checked (holds : WireHolds config state trace sending waiting delivered) (nonempty : trace.pending ≠ []) :
    Emission.Checked config.sender ⟨state.tx.txAccBuffer, withCrc config.sender state.tx.txAccBuffer, trace.pending⟩ :=
  withCrc_checked config.sender holds.built nonempty holds.plain

/-- Where the frames known of lie after a report was emitted. -/
theorem emit (holds : WireHolds config state trace sending waiting delivered) (nonempty : trace.pending ≠ [])
    (emitted : Jacdac.emit config.sender state.tx = .ok tx) :
    ∃ sending, WireHolds config { state with tx }
      (trace.emit state.tx.txAccBuffer (withCrc config.sender state.tx.txAccBuffer)
        (txTakes config.sender state.tx.link.sendQueue (withCrc config.sender state.tx.txAccBuffer)))
      sending waiting delivered := by
  have checked := holds.checked nonempty
  obtain ⟨lower, upper⟩ := checked.size
  dsimp only at lower upper
  generalize frame_eq : withCrc config.sender state.tx.txAccBuffer = frame at checked lower upper
  obtain ⟨frames, transports⟩ := holds.sendQueue
  simp only [Jacdac.emit, frame_eq] at emitted
  split at emitted
  · cases emitted
  · rename_i ret after link sent
    cases emitted
    have small : frame.size ≤ 240 := by omega
    obtain ⟨pushed, _⟩ := jdSendFrameRaw_queues sent
    obtain ⟨front, asReport, _⟩ := transports.pushSend (by omega) small pushed
    have queue := asReport checked.report _ (SentCopy.ofFrame checked small)
    refine ⟨_, ⟨.reset after, ?_, ?_, ?_, queue, ?_, holds.rxQueue, holds.handled, ?_⟩⟩
    · have flags : frame.flags = state.tx.txAccBuffer.flags := frame_eq ▸ withCrc_flags config.sender _
      have looped := (jdSendFrameRaw_outcome sent).1
      change (jdResetFrame after).flags = 0 ∨ (jdResetFrame after).flags = _
      have reset : (jdResetFrame after).flags = after.flags := rfl
      rw [reset]
      rcases holds.plain with zero | loopback <;> rcases looped with same | set
      · exact .inl (same.trans (flags.trans zero))
      · exact .inr (by rw [set, flags, zero]; decide)
      · exact .inr (same.trans (flags.trans loopback))
      · exact .inr (by rw [set, flags, loopback]; decide)
    · simp [WireTrace.emit, holds.sent]
    · exact jdSendFrameRaw_loop holds.loopQueue (by omega) small sent
    · exact fun offset handed => front offset (holds.handedOut offset handed)
    · have kept := holds.kept
      change Kept (trace.emitted ++ [_]) _ (trace.lost + _)
      cases txTakes config.sender state.tx.link.sendQueue frame with
      | true => simpa only [if_true, Nat.add_zero, ← List.append_assoc] using kept.send _
      | false => simpa only [Bool.false_eq_true, if_false] using kept.refuse _

theorem sendRaw (holds : WireHolds config state trace sending waiting delivered) {frame : Frame}
    (lower : 1 ≤ frame.size) (upper : frame.size ≤ 240) (other : ¬ frame.ReportsFrom config.sender.deviceId)
    (sent : jdSendFrameRaw config.sender state.tx.link frame = .ok (ret, after, link)) :
    WireHolds config { state with tx.link := link } trace sending waiting delivered := by
  obtain ⟨frames, transports⟩ := holds.sendQueue
  obtain ⟨pushed, _⟩ := jdSendFrameRaw_queues sent
  obtain ⟨front, _, asOther⟩ := transports.pushSend lower upper pushed
  exact ⟨holds.built, holds.plain, holds.sent, jdSendFrameRaw_loop holds.loopQueue lower upper sent, asOther other,
    fun offset handed => front offset (holds.handedOut offset handed), holds.rxQueue, holds.handled, holds.kept⟩

theorem frameSent (holds : WireHolds config state trace sending waiting delivered)
    (busy : state.txFrame = some offset) :
    ∃ next, state.jdTxFrameSent = .ok next ∧ next.tx.txAccBuffer = state.tx.txAccBuffer ∧
      next.tx.link.rxQueue = state.tx.link.rxQueue ∧ next.txFrame = none ∧ next.rxQueue = state.rxQueue ∧
      next.processing = state.processing ∧
      ∃ left, (∃ frames, Transports config.sender.deviceId (SentCopy config.sender) 0 next.tx.link.sendQueue left frames) ∧
        (((state.tx.link.sendQueue.frameAt offset).ReportsFrom config.sender.deviceId ∧
            ∃ emission : Emission, emission.Checked config.sender ∧ sending = emission :: left ∧
              ∀ cell < emission.frame.frameSize, state.tx.link.sendQueue.frameAt offset cell = emission.frame cell) ∨
          (¬ (state.tx.link.sendQueue.frameAt offset).ReportsFrom config.sender.deviceId ∧ sending = left)) := by
  obtain ⟨frames, transports⟩ := holds.sendQueue
  obtain ⟨lower, record, length, cells, left, taken, split⟩ := transports.front (holds.handedOut offset busy)
  obtain ⟨queue, shifted, rest⟩ := taken.shift
  refine ⟨{ state with tx.link.sendQueue := queue, txFrame := none }, by rw [Wire.jdTxFrameSent, shifted], rfl, rfl, rfl,
    rfl, rfl, left, rest, ?_⟩
  rcases split with ⟨report, emission, ⟨checked, whole⟩, same⟩ | other
  · refine .inl ⟨report, emission, checked, same, fun cell inside => ?_⟩
    have size : (state.tx.link.sendQueue.frameAt offset).size = emission.frame.size := by
      have long := record.length_pos
      have header : 2 < emission.frame.frameSize := by
        unfold Frame.frameSize
        omega
      exact congrArg UInt8.toNat ((cells 2 (by omega)).trans (whole 2 header))
    have padded : emission.frame.frameSize ≤ record.bytes.length := by
      have same : (state.tx.link.sendQueue.frameAt offset).frameSize = emission.frame.frameSize := congrArg (· + 12) size
      rw [length, frmSize, same]
      exact align_ge _
    exact (cells cell (by omega)).trans (whole cell inside)
  · exact .inr other

theorem jdRxCompleted_pos (done : jdRxCompleted frame dataLeft = .received) : 1 ≤ frame.size := by
  unfold jdRxCompleted at done
  split at done
  · cases done
  · omega

theorem arriveOther (holds : WireHolds config state trace sending waiting delivered) {rxFrame : Frame}
    (other : ¬ rxFrame.ReportsFrom config.sender.deviceId)
    (arrived : rxArrive config.receiver state.rxQueue rxFrame dataLeft = .ok grown) :
    WireHolds config { state with rxQueue := grown } trace sending waiting delivered := by
  obtain ⟨frames, transports⟩ := holds.rxQueue
  have queue : ∃ frames, Transports config.sender.deviceId (ReceivedCopy config.sender)
      (if state.processing then 1 else 0) grown waiting frames := by
    unfold rxArrive at arrived
    split at arrived
    · rename_i accepted
      split at arrived
      · cases arrived
      · rename_i pushed
        cases arrived
        exact (transports.receive (jdRxCompleted_pos accepted) (jdRxCompleted_size accepted) pushed).2 other
    · cases arrived
      exact ⟨frames, transports⟩
  exact ⟨holds.built, holds.plain, holds.sent, holds.loopQueue, holds.sendQueue, holds.handedOut, queue, holds.handled,
    holds.kept⟩

theorem lose (holds : WireHolds config state trace sending waiting delivered) (busy : state.txFrame = some offset)
    (sent : state.jdTxFrameSent = .ok next) :
    ∃ sending, WireHolds config next
      (trace.pass (decide ((state.tx.link.sendQueue.frameAt offset).ReportsFrom config.sender.deviceId)) false)
      sending waiting delivered := by
  obtain ⟨after, done, buffer, loop, idle, rx, processing, left, queue, split⟩ := holds.frameSent busy
  obtain rfl := Except.ok.inj (done.symm.trans sent)
  refine ⟨left, buffer ▸ holds.built, ?_, holds.sent, loop ▸ holds.loopQueue, queue, ?_, ?_, holds.handled, ?_⟩
  · rw [buffer]
    exact holds.plain
  · intro offset handed
    rw [idle] at handed
    cases handed
  · rw [rx, processing]
    exact holds.rxQueue
  · have kept := holds.kept
    change Kept trace.emitted _ (trace.lost + _)
    rcases split with ⟨report, emission, _, rfl, _⟩ | ⟨other, rfl⟩
    · rw [← List.append_assoc] at kept
      simpa [report] using kept.lose
    · simpa [other] using kept

theorem arrive (holds : WireHolds config state trace sending waiting delivered) (busy : state.txFrame = some offset)
    (whole : ∀ cell < (state.tx.link.sendQueue.frameAt offset).frameSize,
      rxFrame cell = state.tx.link.sendQueue.frameAt offset cell) {dataLeft : Int}
    (left : 0 ≤ dataLeft ∧ dataLeft + (state.tx.link.sendQueue.frameAt offset).frameSize ≤ frameStructSize)
    (arrived : rxArrive config.receiver state.rxQueue rxFrame dataLeft = .ok grown)
    (sent : { state with rxQueue := grown }.jdTxFrameSent = .ok next) :
    ∃ sending waiting, WireHolds config next
      (trace.pass (decide ((state.tx.link.sendQueue.frameAt offset).ReportsFrom config.sender.deviceId))
        (rxTakes config.receiver state.rxQueue rxFrame)) sending waiting delivered := by
  have header (cell : Nat) (inside : cell < 12) : rxFrame cell = state.tx.link.sendQueue.frameAt offset cell := by
    refine whole cell ?_
    unfold Frame.frameSize
    omega
  have same : rxFrame.ReportsFrom config.sender.deviceId ↔
      (state.tx.link.sendQueue.frameAt offset).ReportsFrom config.sender.deviceId :=
    reportsFrom_congr fun cell _ below => header cell below
  by_cases report : (state.tx.link.sendQueue.frameAt offset).ReportsFrom config.sender.deviceId
  · obtain ⟨after, done, buffer, loop, idle, rx, processing, rest, queue, split⟩ := holds.frameSent busy
    rcases split with ⟨_, emission, checked, rfl, content⟩ | ⟨other, _⟩
    swap
    · exact absurd report other
    have size : (state.tx.link.sendQueue.frameAt offset).frameSize = emission.frame.frameSize := by
      have inside : 2 < emission.frame.frameSize := by
        unfold Frame.frameSize
        omega
      exact congrArg (fun byte : UInt8 => byte.toNat + 12) (content 2 inside)
    have copy : ∀ cell < emission.frame.frameSize, rxFrame cell = emission.frame cell :=
      fun cell inside => (whole cell (size ▸ inside)).trans (content cell inside)
    have accepted := checked.accepted copy (size ▸ left)
    have lower := jdRxCompleted_pos accepted
    have upper := jdRxCompleted_size accepted
    obtain ⟨frames, transports⟩ := holds.rxQueue
    unfold rxArrive at arrived
    rw [if_pos accepted] at arrived
    split at arrived
    · cases arrived
    rename_i pushed
    cases arrived
    have received := (transports.receive lower upper pushed).1 (same.mpr report) emission (.ofFrame checked copy upper)
    -- The receive queue does not matter to `jd_tx_frame_sent`.
    have next_eq : next = { after with rxQueue := grown } := by
      unfold Wire.jdTxFrameSent at done sent
      dsimp only at sent
      split at done
      · cases done
      · rename_i shifted
        rw [shifted] at sent
        cases done
        cases sent
        rfl
    subst next_eq
    refine ⟨rest, _, buffer ▸ holds.built, ?_, holds.sent, loop ▸ holds.loopQueue, queue, ?_, processing ▸ received,
      holds.handled, ?_⟩
    · rw [buffer]
      exact holds.plain
    · intro place handed
      rw [idle] at handed
      cases handed
    · have kept := holds.kept
      change Kept trace.emitted _ (trace.lost + _)
      rw [decide_eq_true report]
      cases rxTakes config.receiver state.rxQueue rxFrame with
      | true => simpa using kept
      | false =>
        rw [← List.append_assoc] at kept
        simpa using kept.lose
  · have moved := holds.arriveOther (mt same.mp report) arrived
    obtain ⟨sending, after⟩ := moved.lose busy sent
    refine ⟨sending, waiting, ?_⟩
    simpa [WireTrace.pass, report] using after

theorem process (holds : WireHolds config state trace sending waiting delivered) (idle : state.processing = false)
    (front : jdQueueFront state.rxQueue = some offset) {touch : Frame → UInt8}
    (processed : state.processFrame touch 241 offset = some (packets, next)) :
    ∃ waiting delivered, WireHolds config next
      (trace.handle (decide ((state.rxQueue.frameAt offset).ReportsFrom config.sender.deviceId)) packets)
      sending waiting delivered := by
  obtain ⟨frames, transports⟩ := holds.rxQueue
  rw [idle] at transports
  obtain ⟨lower, record, length, cells, left, taken, split⟩ := transports.front front
  obtain ⟨seen, found, result⟩ := Option.map_eq_some_iff.mp processed
  cases result
  have edited := taken.edited front fun cell outside => processedFrame_outside touch 241 lower outside
  rcases split with ⟨report, emission, ⟨checked, whole⟩, rfl⟩ | ⟨other, rfl⟩
  · have size : (state.rxQueue.frameAt offset).frameSize = emission.frame.frameSize := by
      have long := record.length_pos
      have header : 2 < emission.frame.frameSize := by
        unfold Frame.frameSize
        omega
      have byte := (cells 2 (by omega)).trans (whole 2 header (by decide))
      exact congrArg (fun byte : UInt8 => byte.toNat + 12) byte
    have padded : emission.frame.frameSize ≤ record.bytes.length := by
      rw [length, frmSize, size]
      exact align_ge _
    have understood : Understood packets emission := fun clear =>
      checked.delivered (fun cell inside other => (cells cell (by omega)).trans (whole cell inside other)) clear touch found
    refine ⟨left, delivered ++ [emission], ?_⟩
    rw [WireTrace.handle, decide_eq_true report, if_pos rfl]
    refine ⟨holds.built, holds.plain, holds.sent, holds.loopQueue, holds.sendQueue, holds.handedOut, edited, ?_, ?_⟩
    · exact List.rel_append holds.handled (.cons understood .nil)
    · simpa using holds.kept
  · refine ⟨waiting, delivered, ?_⟩
    rw [WireTrace.handle, decide_eq_false other, if_neg (by decide)]
    exact ⟨holds.built, holds.plain, holds.sent, holds.loopQueue, holds.sendQueue, holds.handedOut, edited,
      holds.handled, holds.kept⟩

/-- The frame that was handled leaves the receive queue. -/
theorem release (holds : WireHolds config state trace sending waiting delivered) (busy : state.processing = true) :
    ∃ next, state.jdRxReleaseFrame = .ok next ∧ WireHolds config next trace sending waiting delivered := by
  obtain ⟨frames, transports⟩ := holds.rxQueue
  rw [busy, if_pos rfl] at transports
  obtain ⟨queue, shifted, rest⟩ := transports.shift
  refine ⟨{ state with rxQueue := queue, processing := false }, by rw [Wire.jdRxReleaseFrame, shifted], ?_⟩
  exact ⟨holds.built, holds.plain, holds.sent, holds.loopQueue, holds.sendQueue, holds.handedOut, rest, holds.handled,
    holds.kept⟩

end WireHolds

end Jacdac
