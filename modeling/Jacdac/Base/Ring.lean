import Mathlib.Data.List.Induction
import Mathlib.Data.Nat.ModEq

/-! Slots that are written round and round. -/

namespace Jacdac

/-- The slots, and the one that is written next. -/
structure Ring (Item : Type) where
  next : Nat
  slots : Nat → Item

namespace Ring

variable {Item : Type} {ring : Ring Item} {count : Nat}

/-- Write one item into a ring of `count` slots. -/
def put (count : Nat) (ring : Ring Item) (item : Item) : Ring Item where
  next := if ring.next + 1 ≥ count then 0 else ring.next + 1
  slots slot := if slot = ring.next then item else ring.slots slot

theorem put_next (inside : ring.next < count) (item : Item) : (ring.put count item).next = (ring.next + 1) % count := by
  change (if ring.next + 1 ≥ count then 0 else ring.next + 1) = _
  split
  · have last : ring.next + 1 = count := by omega
    rw [last, Nat.mod_self]
  · exact (Nat.mod_eq_of_lt (by omega)).symm

/-- Write some items. -/
def puts (count : Nat) (ring : Ring Item) (items : List Item) : Ring Item := items.foldl (put count) ring

theorem puts_append (ring : Ring Item) (first second : List Item) :
    ring.puts count (first ++ second) = (ring.puts count first).puts count second :=
  List.foldl_append

theorem puts_next (inside : ring.next < count) (items : List Item) :
    (ring.puts count items).next = (ring.next + items.length) % count := by
  induction items using List.reverseRecOn with
  | nil => exact (Nat.mod_eq_of_lt inside).symm
  | append_singleton items item ih =>
    have below : (ring.puts count items).next < count := ih ▸ Nat.mod_lt _ (by omega)
    rw [puts_append]
    refine (put_next below item).trans ?_
    rw [ih, Nat.mod_add_mod, List.length_append, List.length_singleton, Nat.add_assoc]

theorem puts_inside (inside : ring.next < count) (items : List Item) : (ring.puts count items).next < count := by
  rw [puts_next inside]
  exact Nat.mod_lt _ (by omega)

/-- Steps of a ring that are less than a round apart reach different slots. -/
theorem slot_ne {early late : Nat} (before : early < late) (near : late < early + count) (start : Nat) :
    (start + early) % count ≠ (start + late) % count := by
  intro same
  have divides : count ∣ start + late - (start + early) := (Nat.modEq_iff_dvd' (by omega)).mp same
  have far := Nat.le_of_dvd (by omega) divides
  omega

/-- An item stays until a round later. -/
theorem puts_slots (inside : ring.next < count) (items : List Item) {index : Nat} (within : index < items.length)
    (recent : items.length ≤ index + count) :
    (ring.puts count items).slots ((ring.next + index) % count) = items[index] := by
  induction items using List.reverseRecOn with
  | nil => cases within
  | append_singleton items item ih =>
    have last := puts_next inside items
    rw [List.length_append, List.length_singleton] at within recent
    rw [puts_append]
    change (if _ = (ring.puts count items).next then item else _) = _
    rw [last]
    by_cases newest : index = items.length
    · subst newest
      rw [if_pos rfl, List.getElem_concat_length rfl]
    · rw [if_neg (slot_ne (by omega) (by omega) _), List.getElem_append_left (by omega)]
      exact ih (by omega) (by omega)

end Ring

end Jacdac
