import Jacdac.Frame.RoundTrip
import Jacdac.Frame.Checksum

/-! One accumulation buffer between two resets: what `jd_push_in_frame` and the
payload copy of `jd_send` build, and when the receiver's walk gets it back. -/

namespace Jacdac

/-- `jd_push_in_frame` followed by the payload copy its callers make. -/
def appendPacket (frame : Frame) (serviceNum serviceCmd : Nat) (payload : List UInt8) :
    Except FrameFault (Option Frame) :=
  match jdPushInFrame frame serviceNum serviceCmd payload.length with
  | .error fault => .error fault
  | .ok none => .ok none
  | .ok (some (target, frame)) => .ok (some (frame.setData target payload))

/-- `frame` was reset and then filled with exactly `packets`. -/
structure Accumulates (frame : Frame) (packets : List Packet) : Prop where
  bound : frame.size ≤ serialPayloadSize
  laid : Laid frame 0 packets frame.size
  valid : ∀ packet ∈ packets, packet.Valid

theorem Accumulates.reset (frame : Frame) : Accumulates (jdResetFrame frame) [] where
  bound := Nat.zero_le _
  laid := rfl
  valid := by simp

/-- Header fields other than `size` may change freely. -/
theorem Accumulates.congr (held : Accumulates frame packets) (size : other.size = frame.size)
    (same : ∀ cell, Frame.dataOffset ≤ cell → other cell = frame cell) :
    Accumulates other packets where
  bound := size ▸ held.bound
  laid := by
    rw [size]
    exact held.laid.congr fun cell lower _ => same cell (by omega)
  valid := held.valid

theorem Accumulates.size_mod (held : Accumulates frame packets) : frame.size % 4 = 0 := by
  simpa using held.laid.mod

/-- The header that `jd_push_in_frame` stores for `packet`. -/
private def pushedHeader (packet : Packet) : List UInt8 :=
  [UInt8.ofNat packet.serviceSize, packet.serviceIndex, UInt8.ofNat packet.serviceCommand,
    UInt8.ofNat (packet.serviceCommand / 256)]

private def appended (frame : Frame) (packet : Packet) : Frame :=
  ((frame.setData frame.size (pushedHeader packet)).setSize (frame.size + packet.span)).setData
    (frame.size + 4) packet.payload

private theorem appended_outside {frame : Frame} {packet : Packet} {cell : Nat}
    (data : Frame.dataOffset ≤ cell) (below : cell < Frame.dataOffset + frame.size) :
    appended frame packet cell = frame cell := by
  have offset : Frame.dataOffset = 12 := rfl
  rw [appended, Frame.setData, Memory.write_outside (.inl (by omega)),
    Frame.setSize_outside (by omega), Frame.setData, Memory.write_outside (.inl below)]

private theorem appended_read (frame : Frame) (packet : Packet) :
    (appended frame packet).read (Frame.dataOffset + frame.size) (packet.serviceSize + 4) =
      packet.bytes := by
  have offset : Frame.dataOffset = 12 := rfl
  have payload : Memory.read (appended frame packet) (Frame.dataOffset + frame.size + 4)
      packet.serviceSize = packet.payload := Memory.read_write_block rfl
  have front : Memory.read (appended frame packet) (Frame.dataOffset + frame.size) 4 =
      pushedHeader packet := by
    rw [appended, Frame.setData, Memory.read_write_disjoint (.inl (by omega)), Frame.setSize,
      Memory.read_write_disjoint (.inr (by simp; omega))]
    exact Memory.read_write_block rfl
  rw [Nat.add_comm packet.serviceSize 4, Memory.read_append, front, payload]
  rfl

private theorem Accumulates.appended (held : Accumulates frame packets) {packet : Packet}
    (valid : packet.Valid) (room : frame.size + (packet.serviceSize + 4) ≤ serialPayloadSize) :
    Accumulates (appended frame packet) (packets ++ [packet]) := by
  have whole := held.size_mod
  have payload : serialPayloadSize = 236 := rfl
  have fits : frame.size + packet.span ≤ serialPayloadSize := by
    unfold Packet.span align; omega
  have size : (Jacdac.appended frame packet).size = frame.size + packet.span := by
    rw [Jacdac.appended, Frame.setData_size, Frame.setSize_size]
    omega
  have kept : Laid (Jacdac.appended frame packet) 0 packets frame.size :=
    held.laid.congr fun cell lower upper => appended_outside lower upper
  refine ⟨size ▸ fits, ?_, ?_⟩
  · rw [size]
    exact kept.append ⟨appended_read frame packet, rfl⟩
  · intro other member
    rcases List.mem_append.mp member with earlier | last
    · exact held.valid other earlier
    · rw [List.mem_singleton.mp last]
      exact valid

/-- Appending one packet, or finding that it does not fit. -/
theorem Accumulates.append (held : Accumulates frame packets) (packet : Packet)
    (valid : packet.Valid) :
    (appendPacket frame packet.serviceIndex.toNat packet.serviceCommand packet.payload = .ok none ∧
      serialPayloadSize < frame.size + (packet.serviceSize + 4)) ∨
    ∃ next, appendPacket frame packet.serviceIndex.toNat packet.serviceCommand packet.payload =
      .ok (some next) ∧ Accumulates next (packets ++ [packet]) := by
  have index := packet.serviceIndex.toNat_lt
  have size := valid.size
  have command := valid.command
  have bound := held.bound
  have payload : serialPayloadSize = 236 := rfl
  have length : packet.payload.length = packet.serviceSize := rfl
  have num : ¬ packet.serviceIndex.toNat / 256 ≠ 0 := by omega
  have cmd : ¬ packet.serviceCommand / 65536 ≠ 0 := by omega
  have left : u32 (serialPayloadSize + 4294967296 - frame.size) = serialPayloadSize - frame.size := by
    unfold u32; omega
  have need : u32 (packet.serviceSize + 4) = packet.serviceSize + 4 := u32_of_lt (by omega)
  simp only [appendPacket, jdPushInFrame, if_neg num, if_neg cmd, length, left, need]
  by_cases full : packet.serviceSize + 4 > serialPayloadSize - frame.size
  · exact .inl ⟨by rw [if_pos full], by omega⟩
  · refine .inr ⟨_, by rw [if_neg full], ?_⟩
    simpa [Jacdac.appended, pushedHeader, Packet.span] using held.appended valid (by omega)

/-- What an append that succeeded found and did. -/
theorem appendPacket_some (pushed : appendPacket frame serviceNum serviceCmd payload = .ok (some next)) :
    serviceNum < 256 ∧ serviceCmd < 65536 ∧
      ∃ header, header = [UInt8.ofNat payload.length, UInt8.ofNat serviceNum, UInt8.ofNat serviceCmd,
        UInt8.ofNat (serviceCmd / 256)] ∧
      next = ((frame.setData frame.size header).setSize
        ((frame.setData frame.size header).size + align (u32 (payload.length + 4)))).setData (frame.size + 4) payload := by
  simp only [appendPacket, jdPushInFrame] at pushed
  by_cases num : serviceNum / 256 ≠ 0
  · rw [if_pos num] at pushed
    cases pushed
  by_cases cmd : serviceCmd / 65536 ≠ 0
  · rw [if_neg num, if_pos cmd] at pushed
    cases pushed
  refine ⟨by omega, by omega, _, rfl, ?_⟩
  rw [if_neg num, if_neg cmd] at pushed
  split at pushed
  · cases pushed
  · cases pushed
  · rename_i stored
    split at stored
    · cases stored
    · cases stored
      cases pushed
      rfl

theorem appendPacket_command (pushed : appendPacket frame serviceNum serviceCmd payload = .ok result) :
    serviceCmd < 65536 := by
  by_cases large : serviceCmd / 65536 ≠ 0
  · by_cases num : serviceNum / 256 ≠ 0 <;> simp [appendPacket, jdPushInFrame, num, large] at pushed
  · omega

/-- The packet that was appended lies where the data ended. -/
theorem appendPacket_laid {packet : Packet} (fits : frame.size + (packet.serviceSize + 4) ≤ serialPayloadSize)
    (pushed : appendPacket frame packet.serviceIndex.toNat packet.serviceCommand packet.payload = .ok (some next)) :
    Laid next frame.size [packet] next.size ∧ packet.Valid := by
  have payload : serialPayloadSize = 236 := rfl
  obtain ⟨_, command, header, written, stored⟩ := appendPacket_some pushed
  have need : u32 (packet.payload.length + 4) = packet.serviceSize + 4 := u32_of_lt (by change packet.serviceSize + 4 < _; omega)
  have same : next = appended frame packet := by
    rw [stored, need, written, UInt8.ofNat_toNat, Frame.setData_size]
    rfl
  have span : packet.span ≤ packet.serviceSize + 4 + 3 := by
    unfold Packet.span align; omega
  have size : (appended frame packet).size = frame.size + packet.span := by
    rw [appended, Frame.setData_size, Frame.setSize_size]
    omega
  rw [same]
  exact ⟨⟨appended_read frame packet, size.symm⟩, by omega, command⟩

/-- An append that succeeded extends the recorded packets. -/
theorem Accumulates.appended_of_ok (held : Accumulates frame packets) {packet : Packet}
    (size : packet.serviceSize ≤ 232)
    (pushed : appendPacket frame packet.serviceIndex.toNat packet.serviceCommand packet.payload =
      .ok (some next)) : Accumulates next (packets ++ [packet]) := by
  rcases held.append packet ⟨size, appendPacket_command pushed⟩ with ⟨full, _⟩ | ⟨other, done, after⟩
  · rw [pushed] at full
    cases full
  · rw [pushed] at done
    cases done
    exact after

/-- Flags and device identifier stay as they are. -/
theorem appendPacket_header
    (pushed : appendPacket frame serviceNum serviceCmd payload = .ok (some next))
    (lower : 3 ≤ cell) (upper : cell < Frame.dataOffset) : next cell = frame cell := by
  have offset : Frame.dataOffset = 12 := rfl
  obtain ⟨_, _, header, _, rfl⟩ := appendPacket_some pushed
  rw [Frame.setData, Memory.write_outside (.inl (by omega)), Frame.setSize_outside lower,
    Frame.setData, Memory.write_outside (.inl (by omega))]

/-- A packet takes a word, and another one if it carries anything. -/
theorem Laid.words (laid : Laid frame offset packets stop) :
    offset + 4 * packets.length + 4 * (packets.filter (·.payload ≠ [])).length ≤ stop := by
  induction packets generalizing offset with
  | nil => exact Nat.le_of_eq laid
  | cons packet rest ih =>
    have later := ih laid.2
    have span := packet.span_ge
    have whole := packet.span_mod
    by_cases empty : packet.payload = []
    · rw [List.filter_cons_of_neg (by simpa using empty), List.length_cons]
      omega
    · have nonempty : 0 < packet.serviceSize := List.length_pos_of_ne_nil empty
      rw [List.filter_cons_of_pos (by simpa using empty), List.length_cons, List.length_cons]
      omega

theorem Laid.two_words (laid : Laid frame offset packets stop)
    (payloads : ∀ packet ∈ packets, packet.payload ≠ []) : offset + 8 * packets.length ≤ stop := by
  have words := laid.words
  have all : packets.filter (·.payload ≠ []) = packets :=
    List.filter_eq_self.mpr fun packet member => decide_eq_true (payloads packet member)
  rw [all] at words
  omega

theorem Accumulates.length_le (held : Accumulates frame packets)
    (payloads : ∀ packet ∈ packets, packet.payload ≠ []) : packets.length ≤ 29 := by
  have words := held.laid.two_words payloads
  have bound := held.bound
  have payload : serialPayloadSize = 236 := rfl
  omega

/-- The byte that follows the first packet cannot be mistaken for the resume
marker: the frame ends there, or the byte is not `0xff`, or what stands behind
it happens to be the right offset. When the first packet is padded this byte is
whatever an earlier frame left in the buffer. -/
def PaddingClear (frame : Frame) : Prop :=
  align frame.frontSize ≥ frame.size ∨ frame.data frame.frontSize ≠ 0xff ∨
    ((frame.data (frame.frontSize + 1)).toNat = align frame.frontSize ∧
      frame.frontSize < align frame.frontSize)

instance (frame : Frame) : Decidable (PaddingClear frame) :=
  inferInstanceAs (Decidable (_ ∨ _ ∨ _))

theorem Accumulates.process (held : Accumulates frame packets) (nonempty : packets ≠ [])
    (clear : PaddingClear frame) (touch : Frame → UInt8) (enough : packets.length ≤ fuel) :
    jdServicesProcessFrame touch fuel frame = some packets := by
  cases packets with
  | nil => exact absurd rfl nonempty
  | cons packet rest =>
    have valid := held.valid packet (by simp)
    have restLaid : Laid frame packet.span rest frame.size := by simpa using held.laid.2
    have front : frame.frontSize = packet.serviceSize + 4 := by
      rw [Frame.frontSize, held.laid.head_size valid]
    have span : align frame.frontSize = packet.span := by rw [front, Packet.span]
    have delivered : frame.packet = packet := Frame.packet_eq valid held.laid.1
    obtain ⟨fuel, rfl⟩ := Nat.exists_eq_succ_of_ne_zero (by
      simp only [List.length_cons] at enough; omega : fuel ≠ 0)
    by_cases single : align frame.frontSize ≥ frame.size
    · have ended : rest = [] := by
        cases rest with
        | nil => rfl
        | cons second others =>
          have := second.span_ge
          have := Laid.le restLaid.2
          omega
      rw [process_single single, delivered, ended]
    · have resumes : Resumes frame packet.span := by
        rcases clear with beyond | plain | ⟨pointer, after⟩
        · exact absurd beyond single
        · exact .inr ⟨plain, span⟩
        · by_cases marker : frame.data frame.frontSize = 0xff
          · exact .inl ⟨marker, pointer.trans span, span ▸ after⟩
          · exact .inr ⟨marker, span⟩
      have walked := resumes.process packet.span_mod restLaid
        (fun other member => held.valid other (by simp [member])) held.bound touch
        (Nat.lt_of_lt_of_le (Nat.lt_succ_self rest.length) enough)
      rw [walked, delivered]

end Jacdac
