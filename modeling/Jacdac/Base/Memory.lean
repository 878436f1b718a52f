import Mathlib.Algebra.Ring.Nat
import Mathlib.Data.List.Basic
import Mathlib.Data.List.Infix
import Mathlib.Tactic.Common

/-! Byte-addressed memory as a total function, with block reads and writes.
Bounds are never implicit here: a client that must stay inside an object says
so about the addresses it uses. -/

namespace Jacdac

abbrev Memory := Nat → UInt8

namespace Memory

/-- `length` consecutive bytes starting at `address`. -/
def read (memory : Memory) (address length : Nat) : List UInt8 :=
  (List.range length).map fun offset => memory (address + offset)

/-- Store `bytes` at `address`; every other cell keeps its value. -/
def write (memory : Memory) (address : Nat) (bytes : List UInt8) : Memory :=
  fun cell => if address ≤ cell then bytes.getD (cell - address) (memory cell) else memory cell

@[simp] theorem read_length (memory : Memory) (address length : Nat) :
    (memory.read address length).length = length := by
  simp [read]

@[simp] theorem read_zero (memory : Memory) (address : Nat) : memory.read address 0 = [] := rfl

theorem read_getElem (memory : Memory) (address length : Nat) (offset : Nat)
    (inside : offset < (memory.read address length).length) :
    (memory.read address length)[offset] = memory (address + offset) := by
  simp [read]

theorem read_getElem? (memory : Memory) (address length offset : Nat) (inside : offset < length) :
    (memory.read address length)[offset]? = some (memory (address + offset)) := by
  rw [List.getElem?_eq_getElem (by simpa using inside), read_getElem]

/-- Two reads agree exactly when the cells they cover agree. -/
theorem read_eq_iff {first second : Memory} {start other length : Nat} :
    first.read start length = second.read other length ↔
      ∀ offset < length, first (start + offset) = second (other + offset) := by
  simp [read]

/-- Equal blocks have equal parts. -/
theorem read_part {first second : Memory} {start other length : Nat}
    (same : first.read start length = second.read other length) {offset count : Nat}
    (inside : offset + count ≤ length) :
    first.read (start + offset) count = second.read (other + offset) count := by
  rw [read_eq_iff] at *
  intro place below
  have here := same (offset + place) (by omega)
  rwa [← Nat.add_assoc, ← Nat.add_assoc] at here

theorem read_congr {first second : Memory} {start length : Nat}
    (same : ∀ cell, start ≤ cell → cell < start + length → first cell = second cell) :
    first.read start length = second.read start length :=
  read_eq_iff.mpr fun offset inside => same _ (by omega) (by omega)

theorem read_append (memory : Memory) (address first second : Nat) :
    memory.read address (first + second) =
      memory.read address first ++ memory.read (address + first) second := by
  simp [read, List.range_add, Nat.add_assoc]

theorem read_succ (memory : Memory) (address length : Nat) :
    memory.read address (length + 1) = memory address :: memory.read (address + 1) length := by
  rw [Nat.add_comm length 1, read_append]
  rfl

theorem read_take (memory : Memory) (address length count : Nat) (bound : count ≤ length) :
    (memory.read address length).take count = memory.read address count := by
  obtain ⟨rest, rfl⟩ := Nat.exists_eq_add_of_le bound
  rw [read_append, List.take_left' (by simp)]

theorem read_drop (memory : Memory) (address length count : Nat) (bound : count ≤ length) :
    (memory.read address length).drop count = memory.read (address + count) (length - count) := by
  obtain ⟨rest, rfl⟩ := Nat.exists_eq_add_of_le bound
  rw [read_append, List.drop_left' (by simp), Nat.add_sub_cancel_left]

theorem write_outside {memory : Memory} {address cell : Nat} {bytes : List UInt8}
    (outside : cell < address ∨ address + bytes.length ≤ cell) :
    memory.write address bytes cell = memory cell := by
  unfold write
  split
  · rw [List.getD_eq_getElem?_getD, List.getElem?_eq_none (by omega), Option.getD_none]
  · rfl

theorem write_inside {memory : Memory} {address offset : Nat} {bytes : List UInt8}
    (inside : offset < bytes.length) :
    memory.write address bytes (address + offset) = bytes[offset] := by
  simp [write, inside]

@[simp] theorem write_byte (memory : Memory) (address : Nat) (byte : UInt8) :
    memory.write address [byte] address = byte := by
  simp [write]

/-- A copied block holds the cells it was copied from. -/
theorem write_read_inside {memory source : Memory} {address start length offset : Nat}
    (inside : offset < length) :
    memory.write address (source.read start length) (address + offset) = source (start + offset) := by
  rw [write_inside (by simpa using inside), read_getElem]

@[simp] theorem write_nil (memory : Memory) (address : Nat) : memory.write address [] = memory := by
  funext cell
  simp [write]

/-- A block reads back as it was stored. -/
@[simp] theorem read_write_self (memory : Memory) (address : Nat) (bytes : List UInt8) :
    (memory.write address bytes).read address bytes.length = bytes := by
  apply List.ext_getElem (by simp)
  intro offset _ inside
  rw [read_getElem, write_inside inside]

theorem read_write_block {memory : Memory} {address length : Nat} {bytes : List UInt8}
    (whole : bytes.length = length) : (memory.write address bytes).read address length = bytes := by
  subst whole
  exact read_write_self memory address bytes

/-- A store leaves every block that does not overlap it unchanged. -/
theorem read_write_disjoint {memory : Memory} {address start length : Nat} {bytes : List UInt8}
    (disjoint : start + length ≤ address ∨ address + bytes.length ≤ start) :
    (memory.write address bytes).read start length = memory.read start length := by
  apply read_congr
  intro cell lower upper
  exact write_outside (by omega)

/-- Two adjacent stores are one. -/
theorem write_append (memory : Memory) (address : Nat) (first second : List UInt8) :
    (memory.write address first).write (address + first.length) second =
      memory.write address (first ++ second) := by
  funext cell
  by_cases before : cell < address + first.length
  · rw [write_outside (.inl before)]
    by_cases above : address ≤ cell
    · obtain ⟨offset, rfl⟩ := Nat.exists_eq_add_of_le above
      have inside : offset < first.length := by omega
      rw [write_inside inside, write_inside (by simp; omega), List.getElem_append_left inside]
    · rw [write_outside (.inl (by omega)), write_outside (.inl (by omega))]
  · by_cases inside : cell < address + first.length + second.length
    · obtain ⟨offset, rfl⟩ := Nat.exists_eq_add_of_le (Nat.le_of_not_lt before)
      rw [write_inside (by omega), Nat.add_assoc, write_inside (by simp; omega),
        List.getElem_append_right (by omega)]
      simp
    · rw [write_outside (.inr (by omega)), write_outside (.inr (by omega)),
        write_outside (.inr (by simp; omega))]

/-- A store over another one that is no longer. -/
theorem write_again (memory : Memory) (address : Nat) {first second : List UInt8} (longer : first.length ≤ second.length) :
    (memory.write address first).write address second = memory.write address second := by
  funext cell
  by_cases inside : address ≤ cell ∧ cell < address + second.length
  · obtain ⟨offset, rfl⟩ := Nat.exists_eq_add_of_le inside.1
    rw [write_inside (by omega), write_inside (by omega)]
  · rw [write_outside (by omega), write_outside (by omega), write_outside (by omega)]

/-- The next string starts at the last byte of the one before it. -/
theorem write_extend (memory : Memory) (address : Nat) (first : List UInt8) (last : UInt8) {second : List UInt8}
    (some : second ≠ []) :
    (memory.write address (first ++ [last])).write (address + first.length) second = memory.write address (first ++ second) := by
  have longer : [last].length ≤ second.length := List.length_pos_of_ne_nil some
  rw [← write_append, write_again _ _ longer, write_append]

/-- Part of a stored block. -/
theorem read_write_part (memory : Memory) (address : Nat) (before part after : List UInt8) :
    (memory.write address (before ++ part ++ after)).read (address + before.length) part.length = part := by
  rw [← write_append, ← write_append, List.length_append, ← Nat.add_assoc,
    read_write_disjoint (.inl (Nat.le_refl _)), read_write_self]

end Memory

end Jacdac
