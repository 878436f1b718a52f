import Mathlib.Data.List.Basic
import Mathlib.Data.List.Infix

/-! What a lossy channel keeps: the values still known of, in the order in which
they were sent, and how many are gone. -/

namespace Jacdac

/-- `kept` is what is left of `sent` after `lost` values were dropped. -/
structure Kept (sent kept : List α) (lost : Nat) : Prop where
  order : kept.Sublist sent
  count : kept.length + lost = sent.length

namespace Kept

variable {sent kept : List α} {lost : Nat}

theorem nil : Kept ([] : List α) [] 0 := ⟨.refl _, rfl⟩

theorem send (known : Kept sent kept lost) (value : α) : Kept (sent ++ [value]) (kept ++ [value]) lost where
  order := known.order.append (.refl _)
  count := by
    have count := known.count
    simp only [List.length_append, List.length_singleton]
    omega

/-- A value that is dropped at once. -/
theorem refuse (known : Kept sent kept lost) (value : α) : Kept (sent ++ [value]) kept (lost + 1) where
  order := known.order.trans (List.sublist_append_left _ _)
  count := by
    have count := known.count
    simp only [List.length_append, List.length_singleton]
    omega

/-- A value that is dropped on the way. -/
theorem lose {before after : List α} {value : α} (known : Kept sent (before ++ value :: after) lost) :
    Kept sent (before ++ after) (lost + 1) where
  order := (List.Sublist.append_left (List.sublist_cons_self _ _) _).trans known.order
  count := by
    have count := known.count
    simp only [List.length_append, List.length_cons] at count ⊢
    omega

/-- Without a loss everything is still there. -/
theorem all (known : Kept sent kept 0) : kept = sent := known.order.eq_of_length known.count

end Kept

end Jacdac
