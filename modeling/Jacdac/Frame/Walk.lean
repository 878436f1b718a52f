import Jacdac.Frame.RoundTrip

/-! The loop of `jd_services_process_frame` against a walk that leaves the frame
alone, for frames with arbitrary data. -/

namespace Jacdac

namespace Frame

variable {frame other : Frame}

/-- The packet that starts at an offset of `data`. -/
def packetAt (frame : Frame) (offset : Nat) : Packet where
  serviceIndex := frame.data (offset + 1)
  serviceCommand := (frame.data (offset + 2)).toNat + 256 * (frame.data (offset + 3)).toNat
  payload := frame.read (dataOffset + offset + 4) (frame.data offset).toNat

/-- The packets from an offset on, up to the frame's end or the first packet
that does not fit. -/
def walk (frame : Frame) (offset : Nat) : List Packet :=
  if offset ≥ frame.size ∨ offset + 4 + (frame.data offset).toNat > frame.size then []
  else frame.packetAt offset :: frame.walk (offset + align (4 + (frame.data offset).toNat))
termination_by frame.size - offset
decreasing_by
  have := align_ge (4 + (frame.data offset).toNat)
  omega

theorem walk_stop (stop : offset ≥ frame.size ∨ offset + 4 + (frame.data offset).toNat > frame.size) :
    frame.walk offset = [] := by
  rw [walk, if_pos stop]

theorem walk_next (inside : offset + 4 + (frame.data offset).toNat ≤ frame.size) :
    frame.walk offset =
      frame.packetAt offset :: frame.walk (offset + align ((frame.data offset).toNat + 4)) := by
  rw [walk, if_neg (by omega), Nat.add_comm 4]

theorem packetAt_congr (same : ∀ cell, dataOffset + offset ≤ cell → other cell = frame cell) :
    other.packetAt offset = frame.packetAt offset := by
  have byte (step : Nat) : other.data (offset + step) = frame.data (offset + step) :=
    same _ (by omega)
  have first : other.data offset = frame.data offset := byte 0
  have payload : other.read (dataOffset + offset + 4) (frame.data offset).toNat =
      frame.read (dataOffset + offset + 4) (frame.data offset).toNat :=
    Memory.read_congr fun cell lower _ => same cell (by omega)
  simp only [packetAt, byte, first, payload]

/-- The walk looks at nothing before its offset. -/
theorem walk_congr (size : other.size = frame.size)
    (same : ∀ cell, dataOffset + offset ≤ cell → other cell = frame cell) :
    other.walk offset = frame.walk offset := by
  fun_induction walk frame offset with
  | case1 offset stop =>
    have first : other.data offset = frame.data offset := same _ (Nat.le_refl _)
    exact walk_stop (by rwa [size, first])
  | case2 offset proceed ih =>
    have first : other.data offset = frame.data offset := same _ (Nat.le_refl _)
    rw [walk_next (by rw [size, first]; omega), packetAt_congr same, first, Nat.add_comm _ 4]
    exact congrArg _ (ih fun cell beyond => same cell (by omega))

end Frame

theorem packetAt_shifted (frame : Frame) (offset : Nat) :
    frame.packetAt offset = Frame.packet fun cell => frame (offset + cell) := by
  have cell (index : Nat) : frame.data (offset + index) =
      Frame.data (fun cell => frame (offset + cell)) index := by
    rw [Frame.data, Frame.data, Nat.add_left_comm]
  have size : frame.data offset = Frame.data (fun cell => frame (offset + cell)) 0 := cell 0
  have payload (length : Nat) : frame.read (Frame.dataOffset + offset + 4) length =
      Memory.read (fun cell => frame (offset + cell)) (Frame.dataOffset + 4) length := by
    refine Memory.read_eq_iff.mpr fun index _ => congrArg frame ?_
    omega
  simp only [Frame.packetAt, Frame.packet, cell, payload, ← size]

/-- A walk over packets laid out to the frame's end finds exactly them. -/
theorem Laid.walk (laid : Laid frame offset packets frame.size)
    (valid : ∀ packet ∈ packets, packet.Valid) : frame.walk offset = packets := by
  induction packets generalizing offset with
  | nil => exact Frame.walk_stop (.inl (Nat.le_of_eq (Eq.symm laid)))
  | cons packet rest ih =>
    have first := valid packet (by simp)
    have head := laid.head_size first
    have fits := Laid.le laid.2
    have span := packet.span_ge
    have read : frame.packetAt offset = packet := by
      rw [packetAt_shifted]
      refine Frame.packet_eq first ?_
      rw [← laid.1]
      refine Memory.read_eq_iff.mpr fun index _ => congrArg frame ?_
      omega
    rw [Frame.walk_next (by omega), read, head]
    exact congrArg _ (ih laid.2 fun other member => valid other (by simp [member]))

/-- The walk is untouched by what a handler leaves in `service_index`. -/
theorem walk_touched (frame : Frame) (ahead : 2 ≤ offset) (value : UInt8) :
    (frame.setData 1 [value]).walk offset = frame.walk offset :=
  Frame.walk_congr (Frame.setData_size ..) fun cell beyond =>
    Memory.write_outside (.inr (by simp; omega))

theorem moved_packet (frame : Frame) (ptr : Nat) : (moved frame ptr).packet = frame.packetAt ptr := by
  have copied (count : Nat) (inside : count < (frame.data ptr).toNat + 4) :
      (moved frame ptr).data count = frame.data (ptr + count) := by
    have cells := Memory.read_eq_iff.mp (moved_front frame ptr (count + 1) inside) count (Nat.lt_succ_self _)
    rwa [Nat.add_assoc] at cells
  have size : (moved frame ptr).data 0 = frame.data ptr := copied 0 (by omega)
  have payload : Memory.read (moved frame ptr) (Frame.dataOffset + 4) (frame.data ptr).toNat =
      frame.read (Frame.dataOffset + ptr + 4) (frame.data ptr).toNat := by
    apply Memory.read_eq_iff.mpr
    intro offset inside
    have cell := copied (4 + offset) (by omega)
    simpa only [Frame.data, Nat.add_assoc] using cell
  simp only [Frame.packet, Frame.packetAt, size, payload, copied 1 (by omega), copied 2 (by omega),
    copied 3 (by omega)]

/-- Nothing to move: the loop ends here. -/
theorem Resumes.stop (resumes : Resumes frame ptr)
    (stop : ptr ≥ frame.size ∨ ptr + 4 + (frame.data ptr).toNat > frame.size) :
    (jdShiftFrame frame).1 = false := by
  have size : (frame.data 0).toNat + 4 = frame.frontSize := rfl
  have beyond : ptr + ((frame.data ptr).toNat + 4) > frame.size := by omega
  simp only [jdShiftFrame, size]
  split
  · rfl
  · rcases resumes with ⟨marker, pointer, _⟩ | ⟨plain, aligned⟩
    · simp only [marker, pointer, if_true, true_and, Frame.setFlags_data, if_pos beyond]
      split <;> rfl
    · simp only [plain, if_false, false_and, aligned, Frame.setFlags_data, if_pos beyond]

/-- The loop delivers the front packet and then what the walk finds from the
resume offset on. -/
theorem Resumes.walks (resumes : Resumes frame ptr) (small : frame.size ≤ 240)
    (before : align frame.frontSize < frame.size) (touch : Frame → UInt8)
    (enough : frame.size - ptr < fuel) :
    jdServicesProcessFrame touch fuel frame = some (frame.packet :: frame.walk ptr) := by
  induction fuel generalizing frame ptr with
  | zero => omega
  | succ fuel ih =>
    have header : 4 ≤ frame.frontSize := Nat.le_add_left ..
    have ahead := resumes.ahead
    have resumed : Resumes (frame.setData 1 [touch frame]) ptr := resumes.touched _
    have walked := walk_touched frame (show 2 ≤ ptr by omega) (touch frame)
    have size : (frame.setData 1 [touch frame]).size = frame.size := Frame.setData_size ..
    have front : (frame.setData 1 [touch frame]).frontSize = frame.frontSize :=
      congrArg (fun byte : UInt8 => byte.toNat + 4) (Frame.setData_outside (.inl (by decide)))
    rw [jdServicesProcessFrame, ← walked]
    generalize frame.setData 1 [touch frame] = touched at resumed size front
    by_cases stop : ptr ≥ touched.size ∨ ptr + 4 + (touched.data ptr).toNat > touched.size
    · have ended := resumed.stop stop
      rw [Frame.walk_stop stop]
      generalize jdShiftFrame touched = shifted at ended
      obtain ⟨_, next⟩ := shifted
      cases ended
      rfl
    · have fits : ptr + ((touched.data ptr).toNat + 4) ≤ touched.size := by omega
      have room := align_ge ((touched.data ptr).toNat + 4)
      have close := align_lt ((touched.data ptr).toNat + 4)
      have next : Resumes (moved touched ptr) (ptr + align ((touched.data ptr).toNat + 4)) :=
        moved_resumes touched ptr (by omega) (by omega)
      have nextSize := moved_size touched ptr
      have nextFront : (moved touched ptr).frontSize = (touched.data ptr).toNat + 4 := by
        have packet := congrArg (fun packet : Packet => packet.payload.length) (moved_packet touched ptr)
        simpa [Frame.packet, Frame.packetAt, Frame.frontSize] using packet
      have earlier : align touched.frontSize < touched.size := by rw [front, size]; exact before
      have later : align (moved touched ptr).frontSize < (moved touched ptr).size := by
        rw [nextFront, nextSize]
        omega
      rw [resumed.shift earlier fits, Frame.walk_next (by omega)]
      have rest := ih next (by omega) later (by omega)
      have kept : (moved touched ptr).walk (ptr + align ((touched.data ptr).toNat + 4)) =
          touched.walk (ptr + align ((touched.data ptr).toNat + 4)) :=
        Frame.walk_congr nextSize fun cell beyond => moved_rest (by omega) beyond
      dsimp only
      rw [rest, kept, moved_packet]
      rfl

/-- A stored resume offset that leads back or out of the frame ends the loop. -/
theorem process_corrupt (marker : frame.data frame.frontSize = 0xff)
    (corrupt : (frame.data (frame.frontSize + 1)).toNat ≤ frame.frontSize) (touch : Frame → UInt8) (fuel : Nat) :
    jdServicesProcessFrame touch (fuel + 1) frame = some [frame.packet] := by
  have header : 4 ≤ frame.frontSize := Nat.le_add_left ..
  have same (index : Nat) (other : index ≠ 1) :
      (frame.setData 1 [touch frame]).data index = frame.data index :=
    Frame.setData_outside (by simp; omega)
  have front : ((frame.setData 1 [touch frame]).data 0).toNat + 4 = frame.frontSize := by
    rw [same 0 (by decide)]
    rfl
  have stop : jdShiftFrame (frame.setData 1 [touch frame]) =
      (false, frame.setData 1 [touch frame]) := by
    simp only [jdShiftFrame, front, same frame.frontSize (by omega),
      same (frame.frontSize + 1) (by omega), marker, if_true]
    split
    · rfl
    · exact if_pos ⟨trivial, .inr corrupt⟩
  rw [jdServicesProcessFrame, stop]

/-- Whatever the frame holds, the loop delivers its front packet and then a walk
from some offset, or nothing more. -/
theorem process_cases (frame : Frame) (small : frame.size ≤ 240) (touch : Frame → UInt8)
    (enough : frame.size < fuel) :
    jdServicesProcessFrame touch fuel frame = some [frame.packet] ∨
      ∃ ptr, jdServicesProcessFrame touch fuel frame = some (frame.packet :: frame.walk ptr) := by
  obtain ⟨fuel, rfl⟩ := Nat.exists_eq_succ_of_ne_zero (by omega : fuel ≠ 0)
  by_cases single : align frame.frontSize ≥ frame.size
  · exact .inl (process_single single touch fuel)
  · by_cases marker : frame.data frame.frontSize = 0xff
    · by_cases corrupt : (frame.data (frame.frontSize + 1)).toNat ≤ frame.frontSize
      · exact .inl (process_corrupt marker corrupt touch fuel)
      · have resumes : Resumes frame (frame.data (frame.frontSize + 1)).toNat :=
          .inl ⟨marker, rfl, by omega⟩
        exact .inr ⟨_, resumes.walks small (by omega) touch (by omega)⟩
    · have resumes : Resumes frame (align frame.frontSize) := .inr ⟨marker, rfl⟩
      exact .inr ⟨_, resumes.walks small (by omega) touch (by omega)⟩

/-- For every frame the loop of `jd_services_process_frame` ends, and unless the
byte after the first packet is `0xff` it delivers the first packet followed by
the packets of the plain walk. -/
theorem process_frame_walks (small : frame.size ≤ 240) (touch : Frame → UInt8)
    (enough : frame.size < fuel) :
    (jdServicesProcessFrame touch fuel frame).isSome ∧
      (frame.data frame.frontSize ≠ 0xff ∨ align frame.frontSize ≥ frame.size →
        jdServicesProcessFrame touch fuel frame =
          some (frame.packet :: frame.walk (align frame.frontSize))) := by
  constructor
  · rcases process_cases frame small touch enough with single | ⟨ptr, walked⟩
    · rw [single]
      rfl
    · rw [walked]
      rfl
  · intro plain
    by_cases single : align frame.frontSize ≥ frame.size
    · obtain ⟨fuel, rfl⟩ := Nat.exists_eq_succ_of_ne_zero (by omega : fuel ≠ 0)
      rw [process_single single, Frame.walk_stop (.inl single)]
    · have marker : frame.data frame.frontSize ≠ 0xff := plain.resolve_right single
      have resumes : Resumes frame (align frame.frontSize) := .inr ⟨marker, rfl⟩
      exact resumes.walks small (by omega) touch (by omega)

/-- Two packets without data, of services 1 and 2. -/
def twoPackets : Frame := fun cell => [0, 0, 8, 0, 0, 0, 0, 0, 0, 0, 0, 0, 0, 1, 1, 0, 0, 2, 2, 0].getD cell 0

theorem process_frame_walks_two :
    jdServicesProcessFrame Frame.flags 9 twoPackets = some (twoPackets.packet :: twoPackets.walk 4) :=
  (process_frame_walks (by decide) Frame.flags (by decide)).2 (.inl (by decide))

end Jacdac
