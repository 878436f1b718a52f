import Jacdac.Frame.Walk
import Jacdac.Tx.SendRun

/-! The transmitter's side of the double buffer: what `jd_tx_get_frame` hands out
between the calls of the main loop. -/

namespace Jacdac

theorem Accumulates.walk (held : Accumulates frame packets) : frame.walk 0 = packets :=
  held.laid.walk held.valid

/-- The size check of `jd_push_in_frame`, for sizes whose sum with the header does not overflow. -/
theorem Accumulates.size_of_ok (held : Accumulates frame packets)
    (size : payload.length < 4294967292)
    (pushed : appendPacket frame serviceNum serviceCmd payload = .ok (some next)) :
    payload.length ≤ 232 := by
  have bound := held.bound
  have limit : serialPayloadSize = 236 := rfl
  have left : u32 (serialPayloadSize + 4294967296 - frame.size) = serialPayloadSize - frame.size := by
    unfold u32; omega
  have need : u32 (payload.length + 4) = payload.length + 4 := u32_of_lt (by omega)
  by_cases full : payload.length + 4 > serialPayloadSize - frame.size
  · simp only [appendPacket, jdPushInFrame, left, need, if_pos full] at pushed
    by_cases num : serviceNum / 256 ≠ 0
    · simp [num] at pushed
    · by_cases cmd : serviceCmd / 65536 ≠ 0
      · simp [num, cmd] at pushed
      · simp [num, cmd] at pushed
  · omega

/-- The frame the transmitter holds: a raw frame, or one of the two slots as it
was when `jd_tx_get_frame` returned it. -/
inductive Flight where
  | none
  | raw
  | slot (slot : Bool) (frame : Frame)

/-- What `jd_tx_get_frame` returns a pointer to. -/
def DoubleState.flight (state : DoubleState) : Flight :=
  match state.rawFrame with
  | some _ => .raw
  | none =>
    if state.isSending = 1 then .slot (!state.bufferPtr) (state.sendFrame !state.bufferPtr) else .none

def Flight.frames : Flight → List Frame
  | .slot _ frame => [frame]
  | _ => []

/-- The flight is what `jd_tx_get_frame` returns: the raw frame, or else the frame of a slot. -/
theorem DoubleState.jdTxGetFrame_flight (state : DoubleState) :
    state.jdTxGetFrame.1 = (state.rawFrame <|> state.flight.frames.head?) := by
  unfold jdTxGetFrame flight
  cases state.rawFrame with
  | some frame => rfl
  | none =>
    by_cases ready : state.isSending = 1
    · simp only [ready, if_true]
      rfl
    · simp only [ready, if_false]
      rfl

/-- Runs of the main loop and the transmitter: the packets for which `jd_send`
returned 0, the frames out of the two slots that `jd_tx_get_frame` returned, and
the frame now on the wire. The transmitter asks for a frame when it has none and
reports each one it got. -/
inductive TransmitRun (config : TxConfig) : DoubleState → List Packet → List Frame → Flight → Prop where
  | boot : TransmitRun config .boot [] [] .none
  | rawFrame (run : TransmitRun config state sent returned flight) (frame : Frame) :
      TransmitRun config { state with rawFrame := some frame } sent returned flight
  | getFrame (run : TransmitRun config state sent returned .none) :
      TransmitRun config state.jdTxGetFrame.2 sent (returned ++ state.flight.frames) state.flight
  | frameSent (run : TransmitRun config state sent returned flight) (busy : flight ≠ .none)
      (done : state.jdTxFrameSent = some next) : TransmitRun config next sent returned .none
  | send (run : TransmitRun config state sent returned flight) (packet : Packet)
      (size : packet.serviceSize < 4294967292)
      (done : state.jdSend packet.serviceIndex.toNat packet.serviceCommand packet.payload =
        .ok (ret, next)) :
      TransmitRun config next (if ret = 0 then sent ++ [packet] else sent) returned flight
  | flush (run : TransmitRun config state sent returned flight) :
      TransmitRun config (state.jdTxFlush config).1 sent returned flight

/-- The writer and the transmitter use different slots; `ready` is what waits in
the transmitter's slot. -/
structure Separate (state : DoubleState) (sent : List Packet) (returned : List Frame) (flight : Flight)
    (ready pending : List Packet) : Prop where
  filling : Accumulates state.accBuffer pending
  raw : state.rawFrameSending = true ↔ flight = .raw
  idle : state.isSending = 0 → ready = [] ∧ ∀ slot frame, flight ≠ .slot slot frame
  waiting : state.isSending = 1 →
    Accumulates (state.sendFrame !state.bufferPtr) ready ∧ ∀ slot frame, flight ≠ .slot slot frame
  sending : state.isSending = 2 →
    ready = [] ∧ flight = .slot (!state.bufferPtr) (state.sendFrame !state.bufferPtr)
  status : state.isSending ≤ 2
  all : sent = returned.flatMap (Frame.walk · 0) ++ ready ++ pending

namespace Separate

variable {state : DoubleState} {flight : Flight}

/-- The accumulation buffer may change freely: the transmitter's slot is the other one. -/
theorem refill (separate : Separate state sent returned flight ready pending)
    (held : Accumulates frame others) :
    Separate (state.setSlot state.bufferPtr frame) (returned.flatMap (Frame.walk · 0) ++ ready ++ others)
      returned flight ready others := by
  have other : (state.setSlot state.bufferPtr frame).sendFrame (!state.bufferPtr) =
      state.sendFrame !state.bufferPtr := Function.update_of_ne (by simp) _ _
  have same : (state.setSlot state.bufferPtr frame).bufferPtr = state.bufferPtr := rfl
  refine ⟨?_, separate.raw, separate.idle, fun one => ?_, fun two => ?_, separate.status, rfl⟩
  · rw [DoubleState.setSlot_accBuffer]
    exact held
  · rw [same, other]
    exact separate.waiting one
  · rw [same, other]
    exact separate.sending two

theorem send (separate : Separate state sent returned flight ready pending) {packet : Packet}
    (size : packet.serviceSize < 4294967292)
    (done : state.jdSend packet.serviceIndex.toNat packet.serviceCommand packet.payload = .ok (ret, next)) :
    ∃ others, Separate next (if ret = 0 then sent ++ [packet] else sent) returned flight ready others := by
  simp only [DoubleState.jdSend] at done
  split at done
  · cases done
  · cases done
    exact ⟨pending, separate⟩
  · rename_i buffer pushed
    cases done
    have short := separate.filling.size_of_ok size pushed
    have held := separate.filling.appended_of_ok short pushed
    refine ⟨pending ++ [packet], ?_⟩
    rw [if_pos rfl, separate.all, List.append_assoc]
    exact separate.refill held

theorem flush (separate : Separate state sent returned flight ready pending) (config : TxConfig) :
    ∃ waiting others, Separate (state.jdTxFlush config).1 sent returned flight waiting others := by
  unfold DoubleState.jdTxFlush
  split
  · exact ⟨ready, pending, separate⟩
  · split
    · exact ⟨ready, pending, separate⟩
    · rename_i free
      have free : state.isSending = 0 := by omega
      obtain ⟨none, unused⟩ := separate.idle free
      have closed : Accumulates (withCrc config state.accBuffer) pending :=
        separate.filling.congr (withCrc_size ..) fun cell data => withCrc_data config _ data
      refine ⟨pending, [], ?_, separate.raw, fun zero => absurd zero (by decide : ¬ 1 = 0),
        fun _ => ⟨?_, unused⟩, fun two => absurd two (by decide : ¬ 1 = 2), (by decide : 1 ≤ 2), ?_⟩
      · dsimp only
        rw [DoubleState.setSlot_accBuffer]
        exact .reset _
      · -- the slot that was filled is now the transmitter's
        simpa [DoubleState.setSlot] using closed
      · rw [separate.all, none, List.append_nil, List.append_nil]

theorem getFrame (separate : Separate state sent returned .none ready pending) :
    ∃ waiting, Separate state.jdTxGetFrame.2 sent (returned ++ state.flight.frames) state.flight
      waiting pending := by
  unfold DoubleState.jdTxGetFrame DoubleState.flight
  cases raw : state.rawFrame with
  | some frame =>
    refine ⟨ready, separate.filling, by simp, fun zero => ⟨(separate.idle zero).1, by simp⟩,
      fun one => ⟨(separate.waiting one).1, by simp⟩, fun two => ?_, separate.status, ?_⟩
    · cases (separate.sending two).2
    · simpa [Flight.frames] using separate.all
  | none =>
    by_cases one : state.isSending = 1
    · simp only [if_pos one]
      obtain ⟨held, _⟩ := separate.waiting one
      have quiet : ¬ state.rawFrameSending = true := fun sending => by cases separate.raw.mp sending
      refine ⟨[], separate.filling, ?_, fun zero => absurd zero (by decide : ¬ 2 = 0),
        fun other => absurd other (by decide : ¬ 2 = 1), fun _ => ⟨rfl, rfl⟩, Nat.le_refl 2, ?_⟩
      · simpa using quiet
      · rw [separate.all]
        simp [Flight.frames, held.walk]
    · simp only [if_neg one]
      refine ⟨ready, ?_⟩
      simpa [Flight.frames] using separate

theorem on_wire (separate : Separate state sent returned (.slot slot frame) ready pending) :
    state.isSending = 2 := by
  have status := separate.status
  by_cases zero : state.isSending = 0
  · exact absurd rfl ((separate.idle zero).2 slot frame)
  · by_cases one : state.isSending = 1
    · exact absurd rfl ((separate.waiting one).2 slot frame)
    · omega

theorem frameSent (separate : Separate state sent returned flight ready pending) (busy : flight ≠ .none) :
    ∃ next, state.jdTxFrameSent = some next ∧ Separate next sent returned .none ready pending := by
  unfold DoubleState.jdTxFrameSent
  by_cases raw : state.rawFrameSending = true
  · have same := separate.raw.mp raw
    subst same
    refine ⟨_, if_pos raw, separate.filling, by simp, fun zero => ⟨(separate.idle zero).1, by simp⟩,
      fun one => ⟨(separate.waiting one).1, by simp⟩, fun two => ?_, separate.status, separate.all⟩
    cases (separate.sending two).2
  · have two : state.isSending = 2 := by
      cases flight with
      | none => exact absurd rfl busy
      | raw => exact absurd (separate.raw.mpr rfl) raw
      | slot slot frame => exact separate.on_wire
    obtain ⟨none, _⟩ := separate.sending two
    rw [if_neg raw, if_pos two]
    exact ⟨_, rfl, separate.filling, by simpa using raw, fun _ => ⟨none, by simp⟩,
      fun one => absurd one (by decide : ¬ 0 = 1), fun other => absurd other (by decide : ¬ 0 = 2),
      Nat.zero_le 2, separate.all⟩

end Separate

theorem TransmitRun.separate (run : TransmitRun config state sent returned flight) :
    ∃ ready pending, Separate state sent returned flight ready pending := by
  induction run with
  | boot =>
    exact ⟨[], [], ⟨Nat.zero_le _, rfl, by simp⟩, by simp [DoubleState.boot], fun _ => ⟨rfl, by simp⟩,
      fun one => absurd one (by decide), fun two => absurd two (by decide), Nat.zero_le 2, rfl⟩
  | rawFrame _ frame ih =>
    obtain ⟨ready, pending, separate⟩ := ih
    exact ⟨ready, pending, separate.filling, separate.raw, separate.idle, separate.waiting,
      separate.sending, separate.status, separate.all⟩
  | getFrame _ ih =>
    obtain ⟨ready, pending, separate⟩ := ih
    obtain ⟨waiting, after⟩ := separate.getFrame
    exact ⟨waiting, pending, after⟩
  | frameSent _ busy done ih =>
    obtain ⟨ready, pending, separate⟩ := ih
    obtain ⟨next, reported, after⟩ := separate.frameSent busy
    cases reported.symm.trans done
    exact ⟨ready, pending, after⟩
  | send _ packet size done ih =>
    obtain ⟨ready, pending, separate⟩ := ih
    obtain ⟨others, after⟩ := separate.send size done
    exact ⟨ready, others, after⟩
  | flush _ ih =>
    obtain ⟨ready, pending, separate⟩ := ih
    exact separate.flush _

/-- The frames out of the double buffer carry, in order and each once, the first
of the packets accepted by `jd_send`; a frame on the wire is as it was handed
out, in the slot that is not being filled; and reporting it never fails the
assertion of `jd_tx_frame_sent`. -/
theorem double_buffer_lossless (run : TransmitRun config state sent returned flight) :
    returned.flatMap (Frame.walk · 0) <+: sent ∧
      (∀ slot frame, flight = .slot slot frame →
        state.sendFrame slot = frame ∧ state.bufferPtr ≠ slot) ∧
      (flight ≠ .none → ∃ next, state.jdTxFrameSent = some next) := by
  obtain ⟨ready, pending, separate⟩ := run.separate
  refine ⟨⟨ready ++ pending, by rw [separate.all, List.append_assoc]⟩, ?_, ?_⟩
  · rintro slot frame rfl
    cases (separate.sending separate.on_wire).2
    exact ⟨rfl, by simp⟩
  · intro busy
    obtain ⟨next, reported, _⟩ := separate.frameSent busy
    exact ⟨next, reported⟩

/-- One packet sent, flushed and handed to the transmitter. -/
theorem double_buffer_lossless_one : ∃ (config : TxConfig) (state : DoubleState) (frame : Frame),
    TransmitRun config state [⟨1, 1, [7]⟩] [frame] (.slot false frame) ∧
      [frame].flatMap (Frame.walk · 0) <+: [⟨1, 1, [7]⟩] := by
  let config : TxConfig := ⟨[1, 0, 0, 0, 0, 0, 0, 0], rfl, fun _ => true, fun _ => true⟩
  have sent : TransmitRun config _ [⟨1, 1, [7]⟩] [] .none :=
    TransmitRun.boot.send ⟨1, 1, [7]⟩ (by decide) rfl
  have run := sent.flush.getFrame
  exact ⟨config, _, _, run, (double_buffer_lossless run).1⟩

end Jacdac
