import Jacdac.Frame.Packets

namespace Jacdac

/-- Word copies to lower addresses never read what they already overwrote, so
the loop is one block move. -/
theorem jdWordMove_eq (memory : Memory) (order : dst ≤ src) (words : Nat) :
    jdWordMove memory dst src words = memory.write dst (memory.read src (4 * words)) := by
  induction words generalizing memory dst src with
  | zero => simp [jdWordMove]
  | succ words ih =>
    have disjoint : dst + (memory.read src 4).length ≤ src + 4 := by simp; omega
    rw [jdWordMove, ih _ (by omega), Memory.read_write_disjoint (.inr disjoint)]
    have joined := memory.write_append dst (memory.read src 4) (memory.read (src + 4) (4 * words))
    rw [Memory.read_length] at joined
    rw [joined, ← Memory.read_append, Nat.mul_succ, Nat.add_comm]

/-- A packet that `jd_send` can encode: sizes and commands fit their fields. -/
structure Packet.Valid (packet : Packet) : Prop where
  size : packet.serviceSize ≤ 232
  command : packet.serviceCommand < 65536

/-- Bytes a packet takes in a frame, padding included. -/
def Packet.span (packet : Packet) : Nat := align (packet.serviceSize + 4)

/-- The packets lie one after the other in `data`, from `offset` to `stop`;
nothing is said about the padding between them. -/
def Laid (frame : Frame) : Nat → List Packet → Nat → Prop
  | offset, [], stop => offset = stop
  | offset, packet :: rest, stop =>
    frame.read (Frame.dataOffset + offset) (packet.serviceSize + 4) = packet.bytes ∧
      Laid frame (offset + packet.span) rest stop

theorem Packet.span_ge (packet : Packet) : packet.serviceSize + 4 ≤ packet.span := align_ge _

theorem Packet.span_mod (packet : Packet) : packet.span % 4 = 0 := align_mod _

theorem Laid.le (laid : Laid frame offset packets stop) : offset ≤ stop := by
  induction packets generalizing offset with
  | nil => exact Nat.le_of_eq laid
  | cons packet rest ih =>
    have := ih laid.2
    omega

theorem Laid.mod (laid : Laid frame offset packets stop) : stop % 4 = offset % 4 := by
  induction packets generalizing offset with
  | nil => rw [show offset = stop from laid]
  | cons packet rest ih =>
    have := ih laid.2
    have := packet.span_mod
    omega

/-- Only the cells between the two offsets matter. -/
theorem Laid.congr (laid : Laid frame offset packets stop)
    (same : ∀ cell, Frame.dataOffset + offset ≤ cell → cell < Frame.dataOffset + stop →
      other cell = frame cell) : Laid other offset packets stop := by
  induction packets generalizing offset with
  | nil => exact laid
  | cons packet rest ih =>
    have bound := Laid.le laid.2
    have := packet.span_ge
    refine ⟨?_, ih laid.2 fun cell lower upper => same cell (by omega) upper⟩
    rw [← laid.1]
    exact Memory.read_congr fun cell lower upper => same cell lower (by omega)

theorem Laid.append (first : Laid frame offset packets middle)
    (second : Laid frame middle others stop) : Laid frame offset (packets ++ others) stop := by
  induction packets generalizing offset with
  | nil =>
    rw [show offset = middle from first]
    exact second
  | cons packet rest ih => exact ⟨first.1, ih first.2⟩

theorem Frame.packet_eq {frame : Frame} {packet : Packet} (valid : packet.Valid)
    (content : frame.read Frame.dataOffset (packet.serviceSize + 4) = packet.bytes) :
    frame.packet = packet := by
  have byte (index : Nat) (inside : index < packet.serviceSize + 4) :
      some (frame.data index) = packet.bytes[index]? := by
    rw [← content, Memory.read_getElem? _ _ _ _ inside]
    rfl
  have size : (frame.data 0).toNat = packet.serviceSize := by
    have stored := Option.some.inj (byte 0 (by omega))
    have := valid.size
    rw [stored, UInt8.toNat_ofNat']
    omega
  have index : frame.data 1 = packet.serviceIndex := Option.some.inj (byte 1 (by omega))
  have command : (frame.data 2).toNat + 256 * (frame.data 3).toNat = packet.serviceCommand := by
    have low := Option.some.inj (byte 2 (by omega))
    have high := Option.some.inj (byte 3 (by omega))
    have := valid.command
    rw [low, high, UInt8.toNat_ofNat', UInt8.toNat_ofNat']
    omega
  have payload : frame.read (Frame.dataOffset + 4) packet.serviceSize = packet.payload := by
    rw [← Nat.add_sub_cancel packet.serviceSize 4, ← Memory.read_drop _ _ _ _ (by omega), content]
    rfl
  simp only [Frame.packet, size, index, command, payload]

/-- Size of the packet at the start of `data`, header included. -/
def Frame.frontSize (frame : Frame) : Nat := (frame.data 0).toNat + 4

/-- `jd_shift_frame` continues at `ptr`. -/
def Resumes (frame : Frame) (ptr : Nat) : Prop :=
  (frame.data frame.frontSize = 0xff ∧ (frame.data (frame.frontSize + 1)).toNat = ptr ∧
    frame.frontSize < ptr) ∨
  (frame.data frame.frontSize ≠ 0xff ∧ align frame.frontSize = ptr)

theorem Resumes.last (resumes : Resumes frame frame.size) : jdShiftFrame frame = (false, frame) := by
  have size : (frame.data 0).toNat + 4 = frame.frontSize := rfl
  simp only [jdShiftFrame, size]
  rcases resumes with ⟨marker, pointer, _⟩ | ⟨plain, aligned⟩
  · split
    · rfl
    · simp [marker, pointer]
  · rw [if_pos (by omega)]

/-- The frame `jd_shift_frame` leaves when it moves the packet at `ptr`. -/
def moved (frame : Frame) (ptr : Nat) : Frame :=
  let newsz := (frame.data ptr).toNat + 4
  let cleared := frame.setFlags (frame.flags &&& ~~~ Frame.flagAckRequested)
  let copied : Frame := cleared.write Frame.dataOffset
    (frame.read (Frame.dataOffset + ptr) (align newsz))
  (copied.setData newsz [0xff]).setData (newsz + 1) [UInt8.ofNat (ptr + align newsz)]

/-- One shift, once the next packet is known to lie inside the frame. -/
theorem Resumes.shift (resumes : Resumes frame ptr) (before : align frame.frontSize < frame.size)
    (fits : ptr + ((frame.data ptr).toNat + 4) ≤ frame.size) :
    jdShiftFrame frame = (true, moved frame ptr) := by
  have front : (frame.data 0).toNat + 4 = frame.frontSize := rfl
  have pointer : (if frame.data frame.frontSize = 0xff then
      (frame.data (frame.frontSize + 1)).toNat else align frame.frontSize) = ptr := by
    rcases resumes with ⟨marker, pointer, _⟩ | ⟨plain, aligned⟩
    · rw [if_pos marker, pointer]
    · rw [if_neg plain, aligned]
  have proceeds : ¬ (frame.data frame.frontSize = 0xff ∧
      (ptr ≥ frame.size ∨ ptr ≤ frame.frontSize)) := by
    rintro ⟨marker, stops⟩
    rcases resumes with ⟨_, _, after⟩ | ⟨plain, _⟩
    · omega
    · exact plain marker
  simp only [jdShiftFrame, front, pointer, if_neg (Nat.not_le.mpr before), if_neg proceeds,
    Frame.setFlags_data, if_neg (Nat.not_lt.mpr fits)]
  rw [jdWordMove_eq _ (by simp), ← Nat.mul_comm]
  have source : Memory.read (frame.setFlags (frame.flags &&& ~~~ Frame.flagAckRequested))
      (Frame.dataOffset + ptr) (align ((frame.data ptr).toNat + 4)) =
      frame.read (Frame.dataOffset + ptr) (align ((frame.data ptr).toNat + 4)) :=
    Memory.read_write_disjoint (by simp [Frame.dataOffset]; omega)
  rw [← align, source]
  rfl

theorem moved_size (frame : Frame) (ptr : Nat) : (moved frame ptr).size = frame.size := by
  simp only [moved, Frame.setData_size]
  rw [Frame.size, Memory.write_outside (.inl (by decide))]
  rfl

/-- The moved packet stands at the start of `data`. -/
theorem moved_front (frame : Frame) (ptr length : Nat)
    (inside : length ≤ (frame.data ptr).toNat + 4) :
    (moved frame ptr).read Frame.dataOffset length = frame.read (Frame.dataOffset + ptr) length := by
  have room := align_ge ((frame.data ptr).toNat + 4)
  simp only [moved, Frame.setData]
  rw [Memory.read_write_disjoint (by omega), Memory.read_write_disjoint (by omega)]
  rw [← Memory.read_take _ _ (align ((frame.data ptr).toNat + 4)) _ (by omega),
    Memory.read_write_block (by simp), Memory.read_take _ _ _ _ (by omega)]

/-- Nothing from the resume offset on is overwritten. -/
theorem moved_rest {frame : Frame} {ptr cell : Nat} (ahead : 2 ≤ ptr)
    (beyond : Frame.dataOffset + (ptr + align ((frame.data ptr).toNat + 4)) ≤ cell) :
    moved frame ptr cell = frame cell := by
  have room := align_ge ((frame.data ptr).toNat + 4)
  have apart : Frame.dataOffset = 12 := rfl
  simp only [moved, Frame.setData, Frame.setFlags]
  rw [Memory.write_outside (.inr (by simp; omega)), Memory.write_outside (.inr (by simp; omega)),
    Memory.write_outside (.inr (by simp; omega)), Memory.write_outside (.inr (by simp; omega))]

theorem moved_resumes (frame : Frame) (ptr : Nat) (ahead : 2 ≤ ptr)
    (small : ptr + align ((frame.data ptr).toNat + 4) < 256) :
    Resumes (moved frame ptr) (ptr + align ((frame.data ptr).toNat + 4)) := by
  have room := align_ge ((frame.data ptr).toNat + 4)
  have first : (moved frame ptr).data 0 = frame.data ptr := by
    have copied := moved_front frame ptr 1 (by omega)
    exact (List.cons.inj copied).1
  have front : (moved frame ptr).frontSize = (frame.data ptr).toNat + 4 := by
    rw [Frame.frontSize, first]
  refine .inl ⟨?_, ?_, by omega⟩
  · rw [front, moved, Frame.setData_outside (.inl (by omega)), Frame.setData_self]
  · rw [front, moved, Frame.setData_self, UInt8.toNat_ofNat']
    omega

theorem Resumes.ahead (resumes : Resumes frame ptr) : frame.frontSize ≤ ptr := by
  rcases resumes with ⟨_, _, after⟩ | ⟨_, aligned⟩
  · omega
  · exact aligned ▸ align_ge _

/-- A handler's write to `service_index` is invisible to the walk. -/
theorem Resumes.touched (resumes : Resumes frame ptr) (value : UInt8) :
    Resumes (frame.setData 1 [value]) ptr := by
  have same (index : Nat) (other : index ≠ 1) :
      (frame.setData 1 [value]).data index = frame.data index :=
    Frame.setData_outside (by simp; omega)
  have front : (frame.setData 1 [value]).frontSize = frame.frontSize := by
    rw [Frame.frontSize, same 0 (by decide), Frame.frontSize]
  have header : 4 ≤ frame.frontSize := Nat.le_add_left ..
  simp only [Resumes, front, same frame.frontSize (by omega), same (frame.frontSize + 1) (by omega)]
  exact resumes

theorem Laid.touched (laid : Laid frame ptr rest stop) (ahead : 2 ≤ ptr) (value : UInt8) :
    Laid (frame.setData 1 [value]) ptr rest stop :=
  laid.congr fun cell lower _ => Memory.write_outside (.inr (by simp; omega))

theorem Laid.head_size (laid : Laid frame ptr (packet :: rest) stop) (valid : packet.Valid) :
    (frame.data ptr).toNat = packet.serviceSize := by
  have byte := congrArg (·[0]?) laid.1
  simp only [Memory.read_getElem? _ _ _ _ (by omega : 0 < packet.serviceSize + 4)] at byte
  have stored : frame.data ptr = UInt8.ofNat packet.serviceSize := Option.some.inj byte
  have := valid.size
  rw [stored, UInt8.toNat_ofNat']
  omega

/-- The loop of `jd_services_process_frame` delivers the front packet and then
exactly the packets laid out from the resume offset to the frame's end. -/
theorem Resumes.process (resumes : Resumes frame ptr) (whole : ptr % 4 = 0)
    (laid : Laid frame ptr rest frame.size) (valid : ∀ packet ∈ rest, packet.Valid)
    (small : frame.size ≤ serialPayloadSize) (touch : Frame → UInt8) (enough : rest.length < fuel) :
    jdServicesProcessFrame touch fuel frame = some (frame.packet :: rest) := by
  induction rest generalizing frame ptr fuel with
  | nil =>
    obtain ⟨fuel, rfl⟩ := Nat.exists_eq_succ_of_ne_zero (by omega : fuel ≠ 0)
    have finished : ptr = frame.size := laid
    subst finished
    have stop : Resumes (frame.setData 1 [touch frame]) (frame.setData 1 [touch frame]).size := by
      rw [Frame.setData_size]
      exact resumes.touched _
    rw [jdServicesProcessFrame, stop.last]
  | cons packet rest ih =>
    obtain ⟨fuel, rfl⟩ := Nat.exists_eq_succ_of_ne_zero (by omega : fuel ≠ 0)
    have first := valid packet (by simp)
    have header : 4 ≤ frame.frontSize := Nat.le_add_left ..
    have ahead := resumes.ahead
    have fits := Laid.le laid.2
    have span := packet.span_ge
    have spanMod := packet.span_mod
    have payload : serialPayloadSize = 236 := rfl
    let touched := frame.setData 1 [touch frame]
    have resumed : Resumes touched ptr := resumes.touched _
    have laidTouched : Laid touched ptr (packet :: rest) frame.size := laid.touched (by omega) _
    have size : touched.size = frame.size := Frame.setData_size ..
    have head := laidTouched.head_size first
    have shifted : jdShiftFrame touched = (true, moved touched ptr) := by
      apply resumed.shift
      · have := resumed.ahead
        unfold align
        omega
      · omega
    have resumesNext : Resumes (moved touched ptr) (ptr + packet.span) := by
      have raw := moved_resumes touched ptr (by omega) (by rw [head]; unfold Packet.span at *; omega)
      rwa [head] at raw
    have laidNext : Laid (moved touched ptr) (ptr + packet.span) rest (moved touched ptr).size := by
      rw [moved_size, size]
      exact laidTouched.2.congr fun cell lower _ =>
        moved_rest (by omega) (by rw [head]; exact lower)
    have delivered : (moved touched ptr).packet = packet := by
      apply Frame.packet_eq first
      rw [moved_front _ _ _ (by omega), laidTouched.1]
    rw [jdServicesProcessFrame, shifted]
    simp only
    rw [ih resumesNext (by omega) laidNext (fun packet member => valid packet (by simp [member]))
      (by rw [moved_size, size]; exact small) (by simpa using enough), delivered]
    rfl

/-- A frame whose first packet reaches its end is one packet. -/
theorem process_single {frame : Frame} (single : align frame.frontSize ≥ frame.size) (touch : Frame → UInt8) (fuel : Nat) :
    jdServicesProcessFrame touch (fuel + 1) frame = some [frame.packet] := by
  have first : (frame.setData 1 [touch frame]).data 0 = frame.data 0 :=
    Frame.setData_outside (.inl (by decide))
  have stop : jdShiftFrame (frame.setData 1 [touch frame]) =
      (false, frame.setData 1 [touch frame]) := by
    simp only [jdShiftFrame, first, Frame.setData_size]
    exact if_pos single
  rw [jdServicesProcessFrame, stop]

end Jacdac
