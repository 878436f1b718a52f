import Mathlib.Logic.Function.Basic

/-! Rotating a segment of an indexed block, and the invariant of the loop that
does it in place: two neighbouring parts are exchanged by swapping single
elements, and what is still to be done is again such an exchange. -/

namespace Jacdac

variable {α : Type} {first middle next last length : Nat} {block : Nat → α}

/-- The block with the segment of `length` elements at `first` turned, so that
its element `shift` comes first. -/
def rotated (first length shift : Nat) (block : Nat → α) : Nat → α := fun index =>
  if first ≤ index ∧ index < first + length then block (first + (index - first + shift) % length) else block index

theorem rotated_inside (first shift : Nat) (block : Nat → α) (inside : offset < length) :
    rotated first length shift block (first + offset) = block (first + (offset + shift) % length) := by
  have within : first ≤ first + offset ∧ first + offset < first + length := by omega
  rw [rotated, if_pos within, Nat.add_sub_cancel_left]

theorem rotated_outside (shift : Nat) (block : Nat → α) (outside : index < first ∨ first + length ≤ index) :
    rotated first length shift block index = block index :=
  if_neg (by omega)

@[simp] theorem rotated_empty (first shift : Nat) (block : Nat → α) : rotated first 0 shift block = block := by
  funext index
  exact rotated_outside _ _ (by omega)

theorem rotated_rotated (first length : Nat) (shift other : Nat) (block : Nat → α) :
    rotated first length shift (rotated first length other block) = rotated first length (shift + other) block := by
  funext index
  by_cases inside : first ≤ index ∧ index < first + length
  · obtain ⟨offset, rfl⟩ := Nat.exists_eq_add_of_le inside.1
    have small : offset < length := by omega
    have moved : (offset + shift) % length < length := Nat.mod_lt _ (by omega)
    rw [rotated_inside _ _ _ small, rotated_inside _ _ _ moved, rotated_inside _ _ _ small, Nat.mod_add_mod,
      Nat.add_assoc]
  · rw [rotated_outside _ _ (by omega), rotated_outside _ _ (by omega), rotated_outside _ _ (by omega)]

theorem rotated_mod (first length shift : Nat) (block : Nat → α) :
    rotated first length (shift % length) block = rotated first length shift block := by
  unfold rotated
  simp only [Nat.add_mod_mod]

/-- A full turn changes nothing. -/
theorem rotated_full (turns : length ∣ shift) : rotated first length shift block = block := by
  funext index
  by_cases inside : first ≤ index ∧ index < first + length
  · obtain ⟨offset, rfl⟩ := Nat.exists_eq_add_of_le inside.1
    have small : offset < length := by omega
    obtain ⟨count, rfl⟩ := turns
    rw [rotated_inside _ _ _ small, Nat.add_mul_mod_self_left, Nat.mod_eq_of_lt small]
  · exact rotated_outside _ _ (by omega)

/-- The segment from `first` to `last` with its three parts, which end at
`middle`, `next` and `last`, in the opposite order. -/
def turned (first middle next last : Nat) (block : Nat → α) : Nat → α := fun index =>
  if index < first ∨ last ≤ index then block index
  else if index - first < last - next then block (next + (index - first))
  else if index - first < last - middle then block (middle + (index - first - (last - next)))
  else block (first + (index - first - (last - middle)))

/-- The block with two elements swapped. -/
def swapped (one other : Nat) (block : Nat → α) : Nat → α :=
  Function.update (Function.update block one (block other)) other (block one)

theorem swapped_apply (one other : Nat) (block : Nat → α) (index : Nat) :
    swapped one other block index =
      if index = other then block one else if index = one then block other else block index := by
  simp only [swapped, Function.update_apply]

/-- Swapping the first elements of the first and the last part puts one element in place. -/
theorem turned_swapped (start : first < middle) (order : middle ≤ next) (more : next < last) :
    turned (first + 1) middle (next + 1) last (swapped first next block) = turned first middle next last block := by
  funext index
  unfold turned
  simp only [swapped_apply]
  by_cases outside : index < first ∨ last ≤ index
  · rw [if_pos (by omega), if_neg (by omega), if_neg (by omega), if_pos outside]
  rw [if_neg outside]
  by_cases placed : index = first
  · rw [if_pos (by omega), if_neg (by omega), if_pos placed, if_pos (by omega)]
    congr 1
    omega
  rw [if_neg (by omega)]
  by_cases front : index - first < last - next
  · rw [if_pos (by omega), if_neg (by omega), if_neg (by omega), if_pos front]
    congr 1
    omega
  rw [if_neg (by omega), if_neg front]
  by_cases between : index - first < last - middle
  · rw [if_pos (by omega), if_pos between, if_neg (by omega), if_neg (by omega)]
    congr 1
    omega
  rw [if_neg between]
  by_cases edge : index - first = last - middle
  · rw [if_pos (by omega), if_pos (by omega)]
    congr 1
    omega
  · rw [if_neg (by omega), if_neg (by omega), if_neg (by omega)]
    congr 1
    omega

/-- With the last part used up, the part between takes its place. -/
theorem turned_last (first middle last : Nat) (block : Nat → α) :
    turned first middle last last block = turned first middle middle last block := by
  funext index
  unfold turned
  by_cases outside : index < first ∨ last ≤ index
  · rw [if_pos outside, if_pos outside]
  rw [if_neg outside, if_neg outside, if_neg (by omega)]
  by_cases front : index - first < last - middle
  · rw [if_pos front, if_pos front]
    congr 1
    omega
  · rw [if_neg front, if_neg front, if_neg front]

/-- With the first part used up, the part between takes its place. -/
theorem turned_middle (order : middle ≤ next) (within : next ≤ last) :
    turned middle middle next last block = turned middle next next last block := by
  funext index
  unfold turned
  by_cases outside : index < middle ∨ last ≤ index
  · rw [if_pos outside, if_pos outside]
  rw [if_neg outside, if_neg outside]
  by_cases front : index - middle < last - next
  · rw [if_pos front, if_pos front]
  · rw [if_neg front, if_neg front, if_neg front, if_pos (by omega)]

theorem turned_done (first last : Nat) (block : Nat → α) : turned first first first last block = block := by
  funext index
  unfold turned
  by_cases outside : index < first ∨ last ≤ index
  · rw [if_pos outside]
  rw [if_neg outside, if_pos (by omega)]
  congr 1
  omega

/-- Two parts in the opposite order are a rotation. -/
theorem turned_eq_rotated (order : first ≤ middle) (within : middle < last) :
    turned first middle middle last block = rotated first (last - first) (middle - first) block := by
  funext index
  unfold turned
  by_cases outside : index < first ∨ last ≤ index
  · rw [if_pos outside, rotated_outside _ _ (by omega)]
  obtain ⟨offset, rfl⟩ := Nat.exists_eq_add_of_le (show first ≤ index by omega)
  rw [if_neg outside, rotated_inside _ _ _ (by omega), Nat.add_sub_cancel_left]
  by_cases front : offset < last - middle
  · rw [if_pos front, Nat.mod_eq_of_lt (by omega)]
    congr 1
    omega
  · have wrapped : (offset + (middle - first)) % (last - first) = offset - (last - middle) := by
      rw [Nat.mod_eq_sub_mod (by omega), Nat.mod_eq_of_lt (by omega)]
      omega
    rw [if_neg front, if_neg front, wrapped]

end Jacdac
