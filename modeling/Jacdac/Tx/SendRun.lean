import Jacdac.Tx.DoubleBuffer

/-! Runs of `jd_send` and `jd_tx_flush`, with the packets each emitted frame
was built from, in both builds of `tx_queue.c`. -/

namespace Jacdac

/-- A frame that left the accumulation buffer: the buffer before the step, the
frame handed on, and the packets put into it since the last reset. -/
structure Emission where
  buffer : Frame
  frame : Frame
  packets : List Packet

/-- Runs of the build with `JD_SEND_FRAME`. The queues are drained by the
transmitter and the main loop at any time, so a run may replace them. -/
inductive SendRun (config : TxConfig) : TxState → List Packet → List Emission → Prop where
  | boot (sendSize rxSize : Nat) : SendRun config (.boot sendSize rxSize) [] []
  | drain (run : SendRun config state pending emitted) (link : Link) :
      SendRun config { state with link } pending emitted
  | send (run : SendRun config state pending emitted) (packet : Packet)
      (size : packet.serviceSize ≤ 232)
      (sent : jdSend config state packet.serviceIndex.toNat packet.serviceCommand packet.payload =
        .ok (next, none)) : SendRun config next (pending ++ [packet]) emitted
  | sendFull (run : SendRun config state pending emitted) (packet : Packet)
      (size : packet.serviceSize ≤ 232)
      (sent : jdSend config state packet.serviceIndex.toNat packet.serviceCommand packet.payload =
        .ok (next, some frame)) :
      SendRun config next [packet] (emitted ++ [⟨state.txAccBuffer, frame, pending⟩])
  | flushEmpty (run : SendRun config state pending emitted)
      (flushed : jdTxFlush config state = .ok (next, none)) : SendRun config next pending emitted
  | flush (run : SendRun config state pending emitted)
      (flushed : jdTxFlush config state = .ok (next, some frame)) :
      SendRun config next [] (emitted ++ [⟨state.txAccBuffer, frame, pending⟩])

/-- Runs of the build without `JD_SEND_FRAME`, where the transmitter takes
frames with `jd_tx_get_frame` and reports them with `jd_tx_frame_sent`. -/
inductive DoubleRun (config : TxConfig) : DoubleState → List Packet → List Emission → Prop where
  | boot : DoubleRun config .boot [] []
  | rawFrame (run : DoubleRun config state pending emitted) (frame : Frame) :
      DoubleRun config { state with rawFrame := some frame } pending emitted
  | getFrame (run : DoubleRun config state pending emitted) :
      DoubleRun config state.jdTxGetFrame.2 pending emitted
  | frameSent (run : DoubleRun config state pending emitted)
      (sent : state.jdTxFrameSent = some next) : DoubleRun config next pending emitted
  | send (run : DoubleRun config state pending emitted) (packet : Packet)
      (size : packet.serviceSize ≤ 232)
      (sent : state.jdSend packet.serviceIndex.toNat packet.serviceCommand packet.payload =
        .ok (0, next)) : DoubleRun config next (pending ++ [packet]) emitted
  | sendFull (run : DoubleRun config state pending emitted) (packet : Packet)
      (size : packet.serviceSize ≤ 232)
      (sent : state.jdSend packet.serviceIndex.toNat packet.serviceCommand packet.payload =
        .ok (-1, next)) : DoubleRun config next pending emitted
  | flushIdle (run : DoubleRun config state pending emitted)
      (flushed : state.jdTxFlush config = (next, none)) : DoubleRun config next pending emitted
  | flush (run : DoubleRun config state pending emitted)
      (flushed : state.jdTxFlush config = (next, some frame)) :
      DoubleRun config next [] (emitted ++ [⟨state.accBuffer, frame, pending⟩])

/-- What holds of every emitted frame: it carries the data of the buffer it
left, and the buffer held exactly the recorded packets, at least one. -/
structure Emission.Faithful (emission : Emission) : Prop where
  held : Accumulates emission.buffer emission.packets
  nonempty : emission.packets ≠ []
  size : emission.frame.size = emission.buffer.size
  data : ∀ cell, Frame.dataOffset ≤ cell → emission.frame cell = emission.buffer cell

theorem Emission.Faithful.process {emission : Emission} (faithful : emission.Faithful)
    (clear : PaddingClear emission.buffer) (touch : Frame → UInt8)
    (enough : emission.packets.length ≤ fuel) :
    jdServicesProcessFrame touch fuel emission.frame = some emission.packets := by
  have cell (index : Nat) : emission.frame.data index = emission.buffer.data index :=
    faithful.data _ (Nat.le_add_right ..)
  have front : emission.frame.frontSize = emission.buffer.frontSize := by
    rw [Frame.frontSize, cell, Frame.frontSize]
  refine (faithful.held.congr faithful.size faithful.data).process faithful.nonempty ?_ touch enough
  simpa only [PaddingClear, front, faithful.size, cell] using clear

theorem Accumulates.nonempty (held : Accumulates frame packets) (used : frame.size ≠ 0) :
    packets ≠ [] := by
  rintro rfl
  exact used (show 0 = frame.size from held.laid).symm

theorem withCrc_faithful (config : TxConfig) (held : Accumulates frame packets)
    (nonempty : packets ≠ []) : Emission.Faithful ⟨frame, withCrc config frame, packets⟩ :=
  ⟨held, nonempty, withCrc_size config frame, fun _ data => withCrc_data config frame data⟩

/-- An append refused for lack of room proves the frame in use. -/
theorem Accumulates.used_of_full (held : Accumulates frame packets) {packet : Packet}
    (size : packet.serviceSize ≤ 232)
    (pushed : appendPacket frame packet.serviceIndex.toNat packet.serviceCommand packet.payload =
      .ok none) : packets ≠ [] := by
  rcases held.append packet ⟨size, appendPacket_command pushed⟩ with ⟨_, beyond⟩ | ⟨other, done, _⟩
  · have payload : serialPayloadSize = 236 := rfl
    exact held.nonempty (by omega)
  · rw [pushed] at done
    cases done

theorem emit_reset (emitted : emit config state = .ok next) : Accumulates next.txAccBuffer [] := by
  simp only [emit] at emitted
  split at emitted
  · cases emitted
  · cases emitted
    exact .reset _

theorem jdSend_cases (sent : jdSend config state serviceNum serviceCmd payload = .ok (next, frame)) :
    (frame = none ∧ appendPacket state.txAccBuffer serviceNum serviceCmd payload =
      .ok (some next.txAccBuffer)) ∨
    (frame = some (withCrc config state.txAccBuffer) ∧
      appendPacket state.txAccBuffer serviceNum serviceCmd payload = .ok none ∧
      ∃ middle, emit config state = .ok middle ∧
        appendPacket middle.txAccBuffer serviceNum serviceCmd payload =
          .ok (some next.txAccBuffer)) := by
  simp only [jdSend] at sent
  split at sent
  · cases sent
  · rename_i buffer pushed
    cases sent
    exact .inl ⟨rfl, pushed⟩
  · rename_i full
    split at sent
    · cases sent
    · rename_i middle emitted
      split at sent
      · cases sent
      · cases sent
      · rename_i buffer pushed
        cases sent
        exact .inr ⟨rfl, full, middle, emitted, pushed⟩

theorem jdTxFlush_cases (flushed : jdTxFlush config state = .ok (next, frame)) :
    (frame = none ∧ next = state) ∨
    (frame = some (withCrc config state.txAccBuffer) ∧ state.txAccBuffer.size ≠ 0 ∧
      emit config state = .ok next) := by
  simp only [jdTxFlush] at flushed
  split at flushed
  · cases flushed
    exact .inl ⟨rfl, rfl⟩
  · rename_i used
    split at flushed
    · cases flushed
    · rename_i emitted
      cases flushed
      exact .inr ⟨rfl, used, emitted⟩

private theorem faithful_append {emitted : List Emission} {last : Emission}
    (earlier : ∀ emission ∈ emitted, emission.Faithful) (added : last.Faithful) :
    ∀ emission ∈ emitted ++ [last], emission.Faithful := by
  intro emission member
  rcases List.mem_append.mp member with old | fresh
  · exact earlier emission old
  · rw [List.mem_singleton.mp fresh]
    exact added

theorem SendRun.sound (run : SendRun config state pending emitted) :
    Accumulates state.txAccBuffer pending ∧ ∀ emission ∈ emitted, emission.Faithful := by
  induction run with
  | boot => exact ⟨⟨Nat.zero_le _, rfl, by simp⟩, by simp⟩
  | drain _ _ ih => exact ih
  | send _ packet size sent ih =>
    rcases jdSend_cases sent with ⟨_, pushed⟩ | ⟨impossible, _⟩
    · exact ⟨ih.1.appended_of_ok size pushed, ih.2⟩
    · cases impossible
  | sendFull _ packet size sent ih =>
    rcases jdSend_cases sent with ⟨impossible, _⟩ | ⟨same, full, middle, emitted, pushed⟩
    · cases impossible
    · cases same
      refine ⟨(emit_reset emitted).appended_of_ok size pushed, ?_⟩
      exact faithful_append ih.2 (withCrc_faithful _ ih.1 (ih.1.used_of_full size full))
  | flushEmpty _ flushed ih =>
    rcases jdTxFlush_cases flushed with ⟨_, same⟩ | ⟨impossible, _⟩
    · exact same ▸ ih
    · cases impossible
  | flush _ flushed ih =>
    rcases jdTxFlush_cases flushed with ⟨impossible, _⟩ | ⟨same, used, emitted⟩
    · cases impossible
    · cases same
      refine ⟨emit_reset emitted, ?_⟩
      exact faithful_append ih.2 (withCrc_faithful _ ih.1 (ih.1.nonempty used))

namespace DoubleState

theorem jdTxGetFrame_accBuffer (state : DoubleState) :
    state.jdTxGetFrame.2.accBuffer = state.accBuffer := by
  unfold jdTxGetFrame
  split
  · rfl
  · split <;> rfl

theorem jdTxFrameSent_accBuffer {state : DoubleState} (sent : state.jdTxFrameSent = some next) :
    next.accBuffer = state.accBuffer := by
  unfold jdTxFrameSent at sent
  split at sent
  · cases sent
    rfl
  · split at sent
    · cases sent
      rfl
    · cases sent

theorem setSlot_accBuffer (state : DoubleState) (frame : Frame) :
    (state.setSlot state.bufferPtr frame).accBuffer = frame := by
  simp [setSlot, accBuffer]

theorem jdSend_cases {state : DoubleState}
    (sent : state.jdSend serviceNum serviceCmd payload = .ok (ret, next)) :
    (ret = -1 ∧ next = state) ∨
    (ret = 0 ∧ appendPacket state.accBuffer serviceNum serviceCmd payload =
      .ok (some next.accBuffer)) := by
  simp only [jdSend] at sent
  split at sent
  · cases sent
  · cases sent
    exact .inl ⟨rfl, rfl⟩
  · rename_i pushed
    cases sent
    exact .inr ⟨rfl, by rw [setSlot_accBuffer]; exact pushed⟩

theorem jdTxFlush_cases {state : DoubleState} (flushed : state.jdTxFlush config = (next, frame)) :
    (frame = none ∧ next = state) ∨
    (frame = some (withCrc config state.accBuffer) ∧ state.accBuffer.size ≠ 0 ∧
      ∃ other, next.accBuffer = jdResetFrame other) := by
  simp only [jdTxFlush] at flushed
  split at flushed
  · cases flushed
    exact .inl ⟨rfl, rfl⟩
  · rename_i used
    split at flushed
    · cases flushed
      exact .inl ⟨rfl, rfl⟩
    · cases flushed
      exact .inr ⟨rfl, used, _, setSlot_accBuffer ..⟩

end DoubleState

theorem DoubleRun.sound (run : DoubleRun config state pending emitted) :
    Accumulates state.accBuffer pending ∧ ∀ emission ∈ emitted, emission.Faithful := by
  induction run with
  | boot => exact ⟨⟨Nat.zero_le _, rfl, by simp⟩, by simp⟩
  | rawFrame _ _ ih => exact ih
  | getFrame _ ih => exact ⟨by rw [DoubleState.jdTxGetFrame_accBuffer]; exact ih.1, ih.2⟩
  | frameSent _ sent ih => exact ⟨DoubleState.jdTxFrameSent_accBuffer sent ▸ ih.1, ih.2⟩
  | send _ packet size sent ih =>
    rcases DoubleState.jdSend_cases sent with ⟨impossible, _⟩ | ⟨_, pushed⟩
    · cases impossible
    · exact ⟨ih.1.appended_of_ok size pushed, ih.2⟩
  | sendFull _ packet size sent ih =>
    rcases DoubleState.jdSend_cases sent with ⟨_, same⟩ | ⟨impossible, _⟩
    · exact same ▸ ih
    · cases impossible
  | flushIdle _ flushed ih =>
    rcases DoubleState.jdTxFlush_cases flushed with ⟨_, same⟩ | ⟨impossible, _⟩
    · exact same ▸ ih
    · cases impossible
  | flush _ flushed ih =>
    rcases DoubleState.jdTxFlush_cases flushed with ⟨impossible, _⟩ | ⟨same, used, other, reset⟩
    · cases impossible
    · cases same
      refine ⟨reset ▸ .reset other, ?_⟩
      exact faithful_append ih.2 (withCrc_faithful _ ih.1 (ih.1.nonempty used))

/-- Every frame emitted by either build, from a buffer whose padding after the
first packet cannot be read as a resume marker, decodes on reception to exactly
the packets put into it, in order, whatever the handlers leave in
`service_index`. -/
theorem emitted_frame_delivers (config : TxConfig) :
    (∀ state pending emitted, SendRun config state pending emitted →
      ∀ emission ∈ emitted, PaddingClear emission.buffer →
        ∀ touch fuel, emission.packets.length ≤ fuel →
          jdServicesProcessFrame touch fuel emission.frame = some emission.packets) ∧
    (∀ state pending emitted, DoubleRun config state pending emitted →
      ∀ emission ∈ emitted, PaddingClear emission.buffer →
        ∀ touch fuel, emission.packets.length ≤ fuel →
          jdServicesProcessFrame touch fuel emission.frame = some emission.packets) := by
  constructor
  · intro state pending emitted run emission member clear touch fuel enough
    exact (run.sound.2 emission member).process clear touch enough
  · intro state pending emitted run emission member clear touch fuel enough
    exact (run.sound.2 emission member).process clear touch enough

private def wireConfig : TxConfig :=
  ⟨[1, 0, 0, 0, 0, 0, 0, 0], TxConfig.first_length, fun _ => true, fun _ => true⟩

/-- Two packets sent from a clean buffer come back out of the first frame. -/
theorem emitted_frame_delivers_first :
    ∃ frame, jdServicesProcessFrame (fun frame => frame.data 1) 2 frame =
      some [⟨1, 1, [7]⟩, ⟨2, 2, []⟩] := by
  have boot : SendRun wireConfig (TxState.boot 1024 2048) [] [] := .boot 1024 2048
  have first := boot.send ⟨1, 1, [7]⟩ (by decide) rfl
  have second := first.send ⟨2, 2, []⟩ (by decide) rfl
  have third := second.flush (by rfl)
  exact ⟨_, (emitted_frame_delivers wireConfig).1 _ _ _ third _ (List.mem_singleton.mpr rfl)
    (by decide +kernel) (fun frame => frame.data 1) 2 (by decide)⟩

/-- A first frame leaves `0xff` in the buffer where the next frame's one-byte
packet is padded; the receiver takes it for the marker and drops the second
packet. -/
theorem stale_padding_loses_packet :
    ∃ (config : TxConfig) (state : TxState) (pending : List Packet) (emitted : List Emission),
      SendRun config state pending emitted ∧ ∃ emission ∈ emitted,
        emission.packets = [⟨1, 1, [7]⟩, ⟨2, 2, []⟩] ∧
        jdServicesProcessFrame (fun frame => frame.data 1) 60 emission.frame =
          some [⟨1, 1, [7]⟩] := by
  have boot : SendRun wireConfig (TxState.boot 1024 2048) [] [] := .boot 1024 2048
  have first := boot.send ⟨1, 1, [0, 0xff, 0xff, 0]⟩ (by decide) rfl
  have second := first.flush (by rfl)
  have third := second.send ⟨1, 1, [7]⟩ (by decide) rfl
  have fourth := third.send ⟨2, 2, []⟩ (by decide) rfl
  have fifth := fourth.flush (by rfl)
  exact ⟨wireConfig, _, _, _, fifth, _, List.mem_append_right _ (List.mem_singleton.mpr rfl), rfl,
    by decide +kernel⟩

end Jacdac
