import Jacdac.Frame.RoundTrip

/-! The bytes and words of `data` that `jd_shift_frame` touches while a frame is
iterated. Words are accessed at word boundaries only on some processors. -/

namespace Jacdac

variable {frame : Frame}

/-- An access to `data`, by the index of its first byte. -/
inductive DataAccess where
  | readByte (index : Nat)
  | writeByte (index : Nat)
  | readWord (index : Nat)
  | writeWord (index : Nat)
  deriving DecidableEq, Repr

/-- Inside `data` up to the aligned size, and a word at a multiple of 4. -/
def DataAccess.Safe (size : Nat) : DataAccess → Prop
  | .readByte index | .writeByte index => index < align size
  | .readWord index | .writeWord index => index % 4 = 0 ∧ index + 4 ≤ align size

/-- The accesses of `jd_word_move` inside `data`; the last argument counts words. -/
def wordMoveAccesses (dst src : Nat) : Nat → List DataAccess
  | 0 => []
  | words + 1 => .readWord src :: .writeWord dst :: wordMoveAccesses (dst + 4) (src + 4) words

/-- `jd_shift_frame` with its accesses to `data`. -/
def jdShiftFrameTraced (frame : Frame) : (Bool × Frame) × List DataAccess :=
  let psize := frame.size
  let oldsz := (frame.data 0).toNat + 4
  let trace := [DataAccess.readByte 0]
  if align oldsz ≥ psize then ((false, frame), trace)
  else
    let marked := frame.data oldsz = 0xff
    let trace := trace ++ .readByte oldsz :: if marked then [.readByte (oldsz + 1)] else []
    let ptr := if marked then (frame.data (oldsz + 1)).toNat else align oldsz
    if marked ∧ (ptr ≥ psize ∨ ptr ≤ oldsz) then ((false, frame), trace)
    else
      let frame := frame.setFlags (frame.flags &&& ~~~ Frame.flagAckRequested)
      let trace := trace ++ [.readByte ptr]
      let newsz := (frame.data ptr).toNat + 4
      if ptr + newsz > psize then ((false, frame), trace)
      else
        let frame : Frame := jdWordMove frame Frame.dataOffset (Frame.dataOffset + ptr) ((newsz + 3) / 4)
        let trace := trace ++ wordMoveAccesses 0 ptr ((newsz + 3) / 4)
        let resume := ptr + align newsz
        ((true, (frame.setData newsz [0xff]).setData (newsz + 1) [UInt8.ofNat resume]),
          trace ++ [.writeByte newsz, .writeByte (newsz + 1)])

theorem jdShiftFrameTraced_fst (frame : Frame) : (jdShiftFrameTraced frame).1 = jdShiftFrame frame := by
  unfold jdShiftFrameTraced jdShiftFrame
  simp only [apply_ite Prod.fst]

/-- The accesses of the calls of `jd_shift_frame` in the loop of
`jd_services_process_frame`, whose handlers leave `touch` in `service_index`. -/
def iterationAccesses (touch : Frame → UInt8) : Nat → Frame → List DataAccess
  | 0, _ => []
  | fuel + 1, frame =>
    let shifted := jdShiftFrameTraced (frame.setData 1 [touch frame])
    shifted.2 ++ if shifted.1.1 then iterationAccesses touch fuel shifted.1.2 else []

/-- An offset in the frame that the first call of `jd_shift_frame` goes on from. -/
structure Followed (frame : Frame) : Prop where
  more : align frame.frontSize < frame.size
  marked : frame.data frame.frontSize = 0xff
  ahead : frame.frontSize < (frame.data (frame.frontSize + 1)).toNat
  fits : (frame.data (frame.frontSize + 1)).toNat +
    ((frame.data (frame.data (frame.frontSize + 1)).toNat).toNat + 4) ≤ frame.size

/-- Such an offset is a multiple of 4. -/
def WordOffset (frame : Frame) : Prop := Followed frame → (frame.data (frame.frontSize + 1)).toNat % 4 = 0

theorem wordMoveAccesses_safe {size dst src words : Nat} (sources : src % 4 = 0) (targets : dst % 4 = 0)
    (room : src + 4 * words ≤ align size) (before : dst + 4 * words ≤ align size) :
    ∀ access ∈ wordMoveAccesses dst src words, access.Safe size := by
  induction words generalizing dst src with
  | zero => exact nofun
  | succ words ih =>
    intro access member
    rcases List.mem_cons.mp member with rfl | later
    · exact ⟨sources, by omega⟩
    · rcases List.mem_cons.mp later with rfl | rest
      · exact ⟨targets, by omega⟩
      · exact ih (by omega) (by omega) (by omega) (by omega) access rest

/-- What a call does: it stops, or it moves the packet at an offset. -/
inductive ShiftCase (frame : Frame) : (Bool × Frame) × List DataAccess → Prop where
  | stops {after : Frame} {trace : List DataAccess} (safe : ∀ access ∈ trace, access.Safe frame.size) :
    ShiftCase frame ((false, after), trace)
  | moves {after : Frame} {trace : List DataAccess} {ptr : Nat} (resumes : Resumes frame ptr)
      (before : align frame.frontSize < frame.size) (fits : ptr + ((frame.data ptr).toNat + 4) ≤ frame.size)
      (safe : ∀ access ∈ trace, access.Safe frame.size) :
    ShiftCase frame ((true, after), trace ++ wordMoveAccesses 0 ptr (((frame.data ptr).toNat + 4 + 3) / 4) ++
      [.writeByte ((frame.data ptr).toNat + 4), .writeByte ((frame.data ptr).toNat + 4 + 1)])

theorem shiftCase (lower : 1 ≤ frame.size) : ShiftCase frame (jdShiftFrameTraced frame) := by
  have front : (frame.data 0).toNat + 4 = frame.frontSize := rfl
  have whole := align_ge frame.size
  have first : DataAccess.Safe frame.size (.readByte 0) := by
    change 0 < align frame.size
    omega
  simp only [jdShiftFrameTraced, front]
  by_cases single : align frame.frontSize ≥ frame.size
  · rw [if_pos single]
    exact .stops fun access member => List.mem_singleton.mp member ▸ first
  rw [if_neg single]
  have header := align_ge frame.frontSize
  have second : DataAccess.Safe frame.size (.readByte frame.frontSize) := by
    change frame.frontSize < align frame.size
    omega
  have third : DataAccess.Safe frame.size (.readByte (frame.frontSize + 1)) := by
    change frame.frontSize + 1 < align frame.size
    unfold align at single ⊢
    omega
  have reads : ∀ access ∈ [DataAccess.readByte 0] ++ .readByte frame.frontSize ::
      (if frame.data frame.frontSize = 0xff then [.readByte (frame.frontSize + 1)] else []), access.Safe frame.size := by
    intro access member
    rcases List.mem_cons.mp member with rfl | member
    · exact first
    rcases List.mem_cons.mp member with rfl | member
    · exact second
    split at member
    · exact List.mem_singleton.mp member ▸ third
    · cases member
  generalize ([DataAccess.readByte 0] ++ .readByte frame.frontSize ::
    (if frame.data frame.frontSize = 0xff then [.readByte (frame.frontSize + 1)] else [])) = trace at reads ⊢
  generalize chosen : (if frame.data frame.frontSize = 0xff then (frame.data (frame.frontSize + 1)).toNat
    else align frame.frontSize) = ptr
  by_cases corrupt : frame.data frame.frontSize = 0xff ∧ (ptr ≥ frame.size ∨ ptr ≤ frame.frontSize)
  · rw [if_pos corrupt]
    exact .stops reads
  rw [if_neg corrupt]
  have resumes : Resumes frame ptr := by
    by_cases marked : frame.data frame.frontSize = 0xff
    · rw [if_pos marked] at chosen
      have ahead : ¬ ptr ≤ frame.frontSize := fun back => corrupt ⟨marked, .inr back⟩
      exact .inl ⟨marked, chosen, by omega⟩
    · rw [if_neg marked] at chosen
      exact .inr ⟨marked, chosen⟩
  have inside : ptr < align frame.size := by
    rcases resumes with ⟨marked, _⟩ | ⟨_, aligned⟩
    · have below : ¬ ptr ≥ frame.size := fun beyond => corrupt ⟨marked, .inl beyond⟩
      omega
    · omega
  have more : ∀ access ∈ trace ++ [.readByte ptr], access.Safe frame.size := by
    intro access member
    rcases List.mem_append.mp member with old | new
    · exact reads access old
    · exact List.mem_singleton.mp new ▸ inside
  simp only [Frame.setFlags_data]
  by_cases beyond : ptr + ((frame.data ptr).toNat + 4) > frame.size
  · rw [if_pos beyond]
    exact .stops more
  · rw [if_neg beyond]
    exact .moves resumes (by omega) (by omega) more

/-- A call moves from word boundaries only, if the offset in the frame is one, and leaves such a frame. -/
theorem WordOffset.shift (word : WordOffset frame) (lower : 1 ≤ frame.size) (upper : frame.size ≤ 240) :
    (∀ access ∈ (jdShiftFrameTraced frame).2, access.Safe frame.size) ∧
      ((jdShiftFrameTraced frame).1.1 = true →
        WordOffset (jdShiftFrameTraced frame).1.2 ∧ (jdShiftFrameTraced frame).1.2.size = frame.size) := by
  have step := shiftCase lower
  have plain := jdShiftFrameTraced_fst frame
  generalize jdShiftFrameTraced frame = traced at step plain ⊢
  cases step with
  | stops safe => exact ⟨safe, nofun⟩
  | @moves after trace ptr resumes before fits safe =>
    have ahead := resumes.ahead
    have header : 4 ≤ frame.frontSize := Nat.le_add_left ..
    have aligned : ptr % 4 = 0 := by
      rcases resumes with ⟨marked, rfl, further⟩ | ⟨_, rfl⟩
      · exact word ⟨before, marked, further, fits⟩
      · exact align_mod _
    rw [resumes.shift before fits] at plain
    obtain rfl : after = moved frame ptr := congrArg Prod.snd plain
    have close := align_lt ((frame.data ptr).toNat + 4)
    have room : ptr + 4 * (((frame.data ptr).toNat + 4 + 3) / 4) ≤ align frame.size := by
      unfold align
      omega
    refine ⟨fun access member => ?_, fun _ => ⟨fun followed => ?_, moved_size frame ptr⟩⟩
    · have whole := align_ge frame.size
      rcases List.mem_append.mp member with earlier | marks
      · rcases List.mem_append.mp earlier with reads | words
        · exact safe access reads
        · exact wordMoveAccesses_safe aligned rfl room (by omega) access words
      · rcases List.mem_cons.mp marks with rfl | last
        · exact (by omega : (frame.data ptr).toNat + 4 < align frame.size)
        · obtain rfl := List.mem_singleton.mp last
          exact (by omega : (frame.data ptr).toNat + 4 + 1 < align frame.size)
    · rcases moved_resumes frame ptr (by omega) (by omega) with ⟨_, pointer, _⟩ | ⟨plain, _⟩
      · have step := align_mod ((frame.data ptr).toNat + 4)
        dsimp only
        rw [pointer]
        omega
      · exact absurd followed.marked plain

/-- A handler's write to `service_index` changes none of this. -/
theorem followed_touched (frame : Frame) (value : UInt8) :
    (Followed (frame.setData 1 [value]) ↔ Followed frame) ∧
      (WordOffset (frame.setData 1 [value]) ↔ WordOffset frame) := by
  have same (index : Nat) (other : index ≠ 1) : (frame.setData 1 [value]).data index = frame.data index :=
    Frame.setData_outside (by simp; omega)
  have front : (frame.setData 1 [value]).frontSize = frame.frontSize := by
    rw [Frame.frontSize, same 0 (by decide), Frame.frontSize]
  have header : 4 ≤ frame.frontSize := Nat.le_add_left ..
  have size : (frame.setData 1 [value]).size = frame.size := Frame.setData_size ..
  have offset := same (frame.frontSize + 1) (by omega)
  have followed : Followed (frame.setData 1 [value]) ↔ Followed frame := by
    constructor
    · rintro ⟨more, marked, ahead, fits⟩
      rw [front, size] at more
      rw [front, same frame.frontSize (by omega)] at marked
      rw [front, offset] at ahead
      rw [front, offset, same _ (by omega), size] at fits
      exact ⟨more, marked, ahead, fits⟩
    · rintro ⟨more, marked, ahead, fits⟩
      refine ⟨?_, ?_, ?_, ?_⟩
      · rwa [front, size]
      · rwa [front, same frame.frontSize (by omega)]
      · rwa [front, offset]
      · rwa [front, offset, same _ (by omega), size]
  refine ⟨followed, ?_⟩
  rw [WordOffset, WordOffset, followed, front, offset]

theorem iterated_safe (word : WordOffset frame) (lower : 1 ≤ frame.size) (upper : frame.size ≤ 240)
    (touch : Frame → UInt8) (fuel : Nat) : ∀ access ∈ iterationAccesses touch fuel frame, access.Safe frame.size := by
  induction fuel generalizing frame with
  | zero => exact nofun
  | succ fuel ih =>
    intro access member
    have size : (frame.setData 1 [touch frame]).size = frame.size := Frame.setData_size ..
    have touched := (followed_touched frame (touch frame)).2.mpr word
    obtain ⟨safe, next⟩ := touched.shift (by omega) (by omega)
    rw [size] at safe next
    rcases List.mem_append.mp member with here | later
    · exact safe access here
    · split at later
      · rename_i goesOn
        obtain ⟨word, whole⟩ := next goesOn
        have rest := ih word (by omega) (by omega) access later
        rwa [whole] at rest
      · cases later

/-- The first call reads a word at the offset that it goes on from. -/
theorem first_source (followed : Followed frame) (lower : 1 ≤ frame.size) :
    .readWord (frame.data (frame.frontSize + 1)).toNat ∈ (jdShiftFrameTraced frame).2 := by
  have step := shiftCase lower
  have plain := jdShiftFrameTraced_fst frame
  have resumes : Resumes frame (frame.data (frame.frontSize + 1)).toNat := .inl ⟨followed.marked, rfl, followed.ahead⟩
  rw [resumes.shift followed.more followed.fits] at plain
  generalize jdShiftFrameTraced frame = traced at step plain ⊢
  cases step with
  | stops safe => cases plain
  | @moves after trace ptr other before fits safe =>
    obtain rfl : (frame.data (frame.frontSize + 1)).toNat = ptr := by
      rcases other with ⟨_, same, _⟩ | ⟨unmarked, _⟩
      · exact same
      · exact absurd followed.marked unmarked
    refine List.mem_append_left _ (List.mem_append_right _ ?_)
    obtain ⟨words, count⟩ : ∃ words, ((frame.data (frame.data (frame.frontSize + 1)).toNat).toNat + 4 + 3) / 4 = words + 1 :=
      Nat.exists_eq_add_one_of_ne_zero (by omega)
    rw [count]
    exact List.mem_cons_self ..

/-- While a frame is iterated, `jd_shift_frame` stays inside it and moves words
from word boundaries, exactly if an offset that the frame brings along for the
first call is a multiple of 4 or is not used. -/
theorem shift_frame_aligned_iff (lower : 1 ≤ frame.size) (upper : frame.size ≤ 240) :
    (∀ touch fuel, ∀ access ∈ iterationAccesses touch fuel frame, access.Safe frame.size) ↔ WordOffset frame := by
  constructor
  · intro safe
    have size : (frame.setData 1 [frame.flags]).size = frame.size := Frame.setData_size ..
    refine (followed_touched frame frame.flags).2.mp fun followed => ?_
    have source := first_source followed (by omega)
    exact (safe Frame.flags 1 _ (List.mem_append_left _ source)).1
  · intro word touch fuel
    exact iterated_safe word lower upper touch fuel

/-- A packet of five bytes, the mark and the offset 7, and eight zeros. -/
def oddOffset : Frame := fun cell =>
  [0, 0, 15, 0, 0, 0, 0, 0, 0, 0, 0, 0, 1, 1, 1, 0, 0, 0xff, 7].getD cell 0

/-- Two packets without data. -/
def plainPackets : Frame := fun cell => [0, 0, 8, 0, 0, 0, 0, 0, 0, 0, 0, 0, 0, 1, 1, 0, 0, 2, 2, 0].getD cell 0

theorem shift_frame_aligned_iff_plain :
    WordOffset plainPackets ∧ ∀ touch fuel, ∀ access ∈ iterationAccesses touch fuel plainPackets, access.Safe 8 := by
  have word : WordOffset plainPackets := fun followed => absurd followed.marked (by decide)
  exact ⟨word, (shift_frame_aligned_iff (by decide) (by decide)).mpr word⟩

/-- The words of the packet at offset 7 are not at word boundaries. -/
theorem shift_frame_misaligned :
    ¬ ∀ frame : Frame, 1 ≤ frame.size → frame.size ≤ 240 →
      ∀ touch fuel, ∀ access ∈ iterationAccesses touch fuel frame, access.Safe frame.size := by
  intro holds
  have access : .readWord 7 ∈ iterationAccesses Frame.flags 1 oddOffset := by decide
  exact absurd (holds oddOffset (by decide) (by decide) Frame.flags 1 _ access).1 (by decide)

end Jacdac
