import Jacdac.Base.Rotate
import Jacdac.Led.Process

/-! The rotation commands: the swaps of `prog_rot` turn the pixels of the range. -/

namespace Jacdac

theorem storePixel_storePixel (px : Nat → UInt8) (one other : Nat) :
    storePixel (storePixel px one (px other)) other (px one) = swapped one other px := by
  funext address
  rw [swapped_apply]
  rfl

namespace LedState

/-- The loop exchanges the parts that are left. -/
theorem rotLoop_eq {last : Nat} (rotation : Rotation last) (px : Nat → UInt8) (start : rotation.first < rotation.middle)
    (order : rotation.middle ≤ rotation.next) (more : rotation.next < last) :
    rotLoop rotation px = turned rotation.first rotation.middle rotation.next last px := by
  fun_induction rotLoop rotation px with
  | case1 rotation px moving ih =>
    rw [storePixel_storePixel] at ih ⊢
    rw [← turned_swapped start order more]
    unfold Rotation.step at ih ⊢
    by_cases atEnd : rotation.next + 1 = last
    · simp only [dif_pos atEnd] at ih ⊢
      rw [atEnd, turned_last]
      by_cases met : rotation.first + 1 = rotation.middle
      · rw [rotLoop, dif_neg (not_not.mpr met), met, turned_done]
      · exact ih (by omega) (Nat.le_refl _) (by omega)
    · simp only [dif_neg atEnd] at ih ⊢
      by_cases passed : rotation.first + 1 = rotation.middle
      · simp only [dif_pos passed] at ih ⊢
        rw [ih (by omega) (Nat.le_refl _) (by omega), passed, turned_middle (by omega) (by omega)]
      · simp only [dif_neg passed] at ih ⊢
        exact ih (by omega) (by omega) (by omega)
  | case2 rotation px met => omega

/-- The pointers of the loop and the buffer, without the order of the pointers. -/
structure RotSwaps where
  first : Nat
  middle : Nat
  next : Nat
  px : Nat → UInt8

/-- A pass over the body of the loop. -/
def RotSwaps.pass (last : Nat) (swaps : RotSwaps) : Option (Pass RotSwaps (Nat → UInt8)) :=
  if swaps.first ≠ swaps.next then
    let px := storePixel (storePixel swaps.px swaps.first (swaps.px swaps.next)) swaps.next (swaps.px swaps.first)
    let first := swaps.first + 1
    let next := swaps.next + 1
    if next = last then some (.again ⟨first, swaps.middle, swaps.middle, px⟩)
    else if first = swaps.middle then some (.again ⟨first, next, next, px⟩)
    else some (.again ⟨first, swaps.middle, next, px⟩)
  else some (.leave swaps.px)

/-- The loop ends after at most one pass for each byte of the range. -/
theorem rotLoop_terminates {last : Nat} (rotation : Rotation last) (px : Nat → UInt8)
    (enough : last - rotation.first < fuel) :
    loop (RotSwaps.pass last) fuel ⟨rotation.first, rotation.middle, rotation.next, px⟩ = some (rotLoop rotation px) := by
  induction fuel generalizing rotation px with
  | zero => omega
  | succ fuel ih =>
    rw [loop, rotLoop]
    by_cases moving : rotation.first ≠ rotation.next
    · have ordered := rotation.ordered.resolve_left moving
      have first := rotation.step_first moving
      have rest := fun px => ih (rotation.step moving) px (by omega)
      simp only [RotSwaps.pass, dif_pos moving, if_pos moving]
      unfold Rotation.step at rest ⊢
      by_cases atEnd : rotation.next + 1 = last
      · simp only [dif_pos atEnd] at rest ⊢
        rw [if_pos atEnd]
        exact rest _
      · simp only [dif_neg atEnd] at rest ⊢
        by_cases passed : rotation.first + 1 = rotation.middle
        · simp only [dif_pos passed] at rest ⊢
          rw [if_neg atEnd, if_pos passed]
          exact rest _
        · simp only [dif_neg passed] at rest ⊢
          rw [if_neg atEnd, if_neg passed]
          exact rest _
    · simp only [RotSwaps.pass, dif_neg moving, if_neg moving]
      rfl

theorem progRot_rotated (shift : Nat) (state : LedState) (small : shift < state.rangeLen) :
    (state.progRot shift).pxbuffer =
      rotated (state.rangeStart * 3) (state.rangeLen * 3) (shift * 3) state.pxbuffer := by
  have begins := state.range_le
  have len := state.rangeLen_eq
  unfold progRot
  by_cases none_ : shift = 0
  · rw [dif_pos (.inl none_), none_]
    exact (rotated_full (Nat.dvd_zero _)).symm
  · rw [dif_neg (by omega)]
    dsimp only
    rw [rotLoop_eq _ _ (by dsimp only; omega) (Nat.le_refl _) (by dsimp only; omega)]
    dsimp only
    rw [turned_eq_rotated (by omega) (by omega)]
    congr 1 <;> omega

theorem reduceShift_eq (len shift : Nat) (positive : 0 < len) : reduceShift len shift positive = shift % len := by
  fun_induction reduceShift len shift positive with
  | case1 shift more ih => rw [ih, ← Nat.mod_eq_sub_mod more]
  | case2 shift small => exact (Nat.mod_eq_of_lt (by omega)).symm

/-- Rotations of whole pixels are the same for the same remainder. -/
theorem rotated_pixels_mod (first len shift : Nat) (px : Nat → UInt8) :
    rotated first (len * 3) (shift % len * 3) px = rotated first (len * 3) (shift * 3) px := by
  rw [← Nat.mul_mod_mul_right, rotated_mod]

/-- The shift towards the start of the strip that a rotation command comes to. -/
def backShift (cmd k len : Nat) : Nat := if cmd = lightProgRotateFwd then len - k % len else k

/-- Both commands turn the range. -/
theorem rotateCommand_rotated (cmd : Nat) (state : LedState) :
    (state.rotateCommand cmd).pxbuffer = rotated (state.rangeStart * 3) (state.rangeLen * 3)
      (backShift cmd (state.prog.fetchNum state.progPtr 1).1 state.rangeLen * 3) state.pxbuffer := by
  unfold rotateCommand backShift
  dsimp only
  by_cases empty : state.rangeLen = 0
  · have none_ : state.rangeLen * 3 = 0 := by omega
    rw [dif_pos empty, none_, rotated_empty]
  rw [dif_neg empty, reduceShift_eq]
  generalize (state.prog.fetchNum state.progPtr 1).1 = k
  have small : k % state.rangeLen < state.rangeLen := Nat.mod_lt _ (by omega)
  have turns : ∀ shift < state.rangeLen, ∀ ptr, ({ state with progPtr := ptr }.progRot shift).endCommand.pxbuffer =
      rotated (state.rangeStart * 3) (state.rangeLen * 3) (shift * 3) state.pxbuffer := fun shift less ptr =>
    progRot_rotated shift { state with progPtr := ptr } less
  by_cases forward : cmd = lightProgRotateFwd
  · rw [if_pos forward]
    by_cases none_ : k % state.rangeLen = 0
    · rw [if_neg (fun both => both.2 none_), turns _ small, none_, rotated_full (Nat.dvd_zero _), Nat.sub_zero,
        rotated_full (Nat.dvd_refl _)]
    · rw [if_pos ⟨forward, none_⟩, turns _ (by omega)]
  · rw [if_neg (fun both => forward both.1), if_neg forward, turns _ small, rotated_pixels_mod]

/-- A rotation moves the three bytes of a pixel together. -/
theorem rotated_pixel (start len shift : Nat) (px : Nat → UInt8) (inside : i < len) (channel : c < 3) :
    rotated (start * 3) (len * 3) (shift * 3) px ((start + i) * 3 + c) = px ((start + (i + shift) % len) * 3 + c) := by
  have moved : (i + shift) % len < len := Nat.mod_lt _ (by omega)
  have place : (i * 3 + c + shift * 3) % (len * 3) = (i + shift) % len * 3 + c := by
    have split : i * 3 + c + shift * 3 = (i + shift) % len * 3 + c + len * 3 * ((i + shift) / len) := by
      have whole := Nat.mod_add_div (i + shift) len
      have scaled : len * 3 * ((i + shift) / len) = 3 * (len * ((i + shift) / len)) := by
        rw [Nat.mul_comm len 3, Nat.mul_assoc]
      omega
    rw [split, Nat.add_mul_mod_self_left, Nat.mod_eq_of_lt (by omega)]
  have here : (start + i) * 3 + c = start * 3 + (i * 3 + c) := by omega
  rw [here, rotated_inside _ _ _ (by omega), place]
  congr 1
  omega

/-- The pixel that comes to place `i` when the range is turned forward. -/
theorem forward_index {i len : Nat} (inside : i < len) (k : Nat) :
    (i + (len - k % len)) % len = (((i : Int) - k) % len).toNat := by
  have small : k % len < len := Nat.mod_lt _ (by omega)
  have whole : ((k % len : Nat) : Int) + len * ((k / len : Nat) : Int) = k := by
    exact_mod_cast Nat.mod_add_div k len
  have shifted : ((i + (len - k % len) : Nat) : Int) = (i - k) + len * (1 + (k / len : Nat)) := by
    rw [Int.mul_add]
    omega
  have same : (((i + (len - k % len)) % len : Nat) : Int) = ((i : Int) - k) % len := by
    rw [Int.natCast_mod, shifted, Int.add_mul_emod_self_left]
  omega

/-- `ROTATE_BACK k` and `ROTATE_FWD k` move pixel `i + k` and pixel `i - k` of the
range to place `i`, modulo its length, with all three bytes, and leave the bytes
outside the range alone; the second followed by the first is the identity. The
loop of swaps ends for every shift. -/
theorem rotate_commands_rotate (state : LedState) (k : Nat) (operand : (state.prog.fetchNum state.progPtr 1).1 = k) :
    ∃ back forward, state.runCommand lightProgRotateBack = some back ∧
      state.runCommand lightProgRotateFwd = some forward ∧
      (∀ i < state.rangeLen, ∀ c < 3,
        back.pxbuffer ((state.rangeStart + i) * 3 + c) =
            state.pxbuffer ((state.rangeStart + (i + k) % state.rangeLen) * 3 + c) ∧
          forward.pxbuffer ((state.rangeStart + i) * 3 + c) =
            state.pxbuffer ((state.rangeStart + (((i : Int) - k) % state.rangeLen).toNat) * 3 + c)) ∧
      (∀ address, address < state.rangeStart * 3 ∨ state.rangeEnd * 3 ≤ address →
        back.pxbuffer address = state.pxbuffer address ∧ forward.pxbuffer address = state.pxbuffer address) ∧
      (∀ later : LedState, later.pxbuffer = forward.pxbuffer → later.rangeStart = state.rangeStart →
        later.rangeEnd = state.rangeEnd → (later.prog.fetchNum later.progPtr 1).1 = k →
        ∃ restored, later.runCommand lightProgRotateBack = some restored ∧ restored.pxbuffer = state.pxbuffer) ∧
      ∀ shift, 0 < shift → shift < state.rangeLen →
        loop (RotSwaps.pass (state.rangeEnd * 3)) (state.rangeLen * 3 + 1)
          ⟨state.rangeStart * 3, (state.rangeStart + shift) * 3, (state.rangeStart + shift) * 3, state.pxbuffer⟩ =
            some (state.progRot shift).pxbuffer := by
  have begins := state.range_le
  have len := state.rangeLen_eq
  have back : (state.rotateCommand lightProgRotateBack).pxbuffer = _ := state.rotateCommand_rotated lightProgRotateBack
  have forward : (state.rotateCommand lightProgRotateFwd).pxbuffer = _ := state.rotateCommand_rotated lightProgRotateFwd
  have backward : ∀ k len, backShift lightProgRotateBack k len = k := fun _ _ => rfl
  have onward : ∀ k len, backShift lightProgRotateFwd k len = len - k % len := fun _ _ => rfl
  rw [operand, backward] at back
  rw [operand, onward] at forward
  refine ⟨_, _, rfl, rfl, ?_, ?_, ?_, ?_⟩
  · intro i inside c channel
    rw [back, forward, rotated_pixel _ _ _ _ inside channel, rotated_pixel _ _ _ _ inside channel,
      forward_index inside]
    exact ⟨rfl, rfl⟩
  · intro address outside
    rw [back, forward, rotated_outside _ _ (by omega), rotated_outside _ _ (by omega)]
    exact ⟨rfl, rfl⟩
  · intro later same start ends again
    have length : later.rangeLen = state.rangeLen := by rw [later.rangeLen_eq, len, start, ends]
    refine ⟨_, rfl, ?_⟩
    rw [later.rotateCommand_rotated lightProgRotateBack, again, backward, same, start, length, forward,
      rotated_rotated]
    by_cases empty : state.rangeLen = 0
    · rw [empty, Nat.zero_mul, rotated_empty]
    · have small : k % state.rangeLen < state.rangeLen := Nat.mod_lt _ (by omega)
      have whole := Nat.mod_add_div k state.rangeLen
      have turns : k * 3 + (state.rangeLen - k % state.rangeLen) * 3 =
          state.rangeLen * 3 * (k / state.rangeLen + 1) := by
        rw [Nat.mul_right_comm, Nat.mul_add, Nat.mul_one]
        omega
      exact rotated_full ⟨_, turns⟩
  · intro shift positive small
    unfold progRot
    rw [dif_neg (by omega)]
    refine rotLoop_terminates ⟨state.rangeStart * 3, (state.rangeStart + shift) * 3, (state.rangeStart + shift) * 3,
      .inr ⟨by omega, Nat.le_refl _, by omega⟩⟩ state.pxbuffer ?_
    show state.rangeEnd * 3 - state.rangeStart * 3 < state.rangeLen * 3 + 1
    omega

/-- Four pixels, each byte with its address, and the command to turn them by one. -/
def fourPixels : LedState := { (init 4 (by decide)).handleRunCmd 0 [0xD4] (by decide) with pxbuffer := UInt8.ofNat }

/-- Turned back, the first of them comes last. -/
theorem rotate_commands_rotate_four : ∃ back, fourPixels.runCommand lightProgRotateBack = some back ∧
    back.pxbuffer 0 = 3 ∧ back.pxbuffer 9 = 0 ∧ back.pxbuffer 10 = 1 := by
  obtain ⟨back, _, ran, _, moved, _⟩ := rotate_commands_rotate fourPixels 1 (by decide)
  exact ⟨back, ran, (moved 0 (by decide) 0 (by decide)).1, (moved 3 (by decide) 0 (by decide)).1,
    (moved 3 (by decide) 1 (by decide)).1⟩

end LedState

end Jacdac
