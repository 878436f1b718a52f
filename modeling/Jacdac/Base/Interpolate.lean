import Mathlib.Algebra.Order.Ring.Int
import Mathlib.Data.List.Chain
import Mathlib.Tactic.Linarith

/-! Tables of points that rise in both coordinates, the integers between which they interpolate, rounded
down, and up to where the interpolated value stays within a limit. -/

namespace Jacdac

/-- The second point is right of the first one and above it. -/
structure Rises (first second : Int × Int) : Prop where
  right : first.1 < second.1
  above : first.2 < second.2

instance : IsTrans (Int × Int) Rises where
  trans _ _ _ one two := ⟨one.right.trans two.right, one.above.trans two.above⟩

/-- The value on the line between two points. -/
def between (first second : Int × Int) (x : Int) : Int :=
  (x - first.1) * (second.2 - first.2) / (second.1 - first.1) + first.2

/-- The value behind a point. -/
def interpolateFrom (point : Int × Int) : List (Int × Int) → Int → Int
  | [], _ => point.2
  | next :: rest, x => if x ≤ next.1 then between point next x else interpolateFrom next rest x

/-- The value of the table, which has the first and the last value outside. -/
def interpolate (first : Int × Int) (rest : List (Int × Int)) (x : Int) : Int :=
  if x < first.1 then first.2 else interpolateFrom first rest x

/-- The last place where the value is within a limit, if it ever leaves it. -/
def lastWithin (point : Int × Int) : List (Int × Int) → Int → Option Int
  | [], _ => none
  | next :: rest, limit =>
    if limit < next.2 then
      some (point.1 + ((next.1 - point.1) * (limit - point.2 + 1) - 1) / (next.2 - point.2))
    else lastWithin next rest limit

/-- The value is between those of the neighbours in the table. -/
structure Interpolates (points : List (Int × Int)) (x value : Int) : Prop where
  left : ∀ point ∈ points, point.1 ≤ x → point.2 ≤ value
  right : ∀ point ∈ points, x ≤ point.1 → value ≤ point.2
  lower : ∃ point ∈ points, point.2 ≤ value
  upper : ∃ point ∈ points, value ≤ point.2

section Between

variable {first second : Int × Int} {x limit : Int}

theorem between_lower (rises : Rises first second) (behind : first.1 ≤ x) : first.2 ≤ between first second x := by
  obtain ⟨right, above⟩ := rises
  have quotient := Int.ediv_nonneg (mul_nonneg (by omega : 0 ≤ x - first.1) (by omega : 0 ≤ second.2 - first.2))
    (by omega : 0 ≤ second.1 - first.1)
  unfold between
  omega

theorem between_upper (rises : Rises first second) (before : x ≤ second.1) : between first second x ≤ second.2 := by
  obtain ⟨right, above⟩ := rises
  have product : (x - first.1) * (second.2 - first.2) ≤ (second.2 - first.2) * (second.1 - first.1) := by
    rw [mul_comm]
    exact mul_le_mul_of_nonneg_left (by omega) (by omega)
  have quotient := Int.ediv_le_of_le_mul (by omega : 0 < second.1 - first.1) product
  unfold between
  omega

theorem between_start : between first second first.1 = first.2 := by
  rw [between, Int.sub_self, zero_mul, Int.zero_ediv, zero_add]

theorem between_end (rises : Rises first second) : between first second second.1 = second.2 := by
  have right := rises.right
  rw [between, Int.mul_ediv_cancel_left _ (by omega)]
  omega

/-- A value on the line is within a limit up to where `lastWithin` says. -/
theorem between_le_iff (rises : Rises first second) :
    between first second x ≤ limit ↔
      x ≤ first.1 + ((second.1 - first.1) * (limit - first.2 + 1) - 1) / (second.2 - first.2) := by
  obtain ⟨right, above⟩ := rises
  have up : between first second x ≤ limit ↔
      (x - first.1) * (second.2 - first.2) < (limit - first.2 + 1) * (second.1 - first.1) := by
    rw [← Int.ediv_lt_iff_lt_mul (by omega : 0 < second.1 - first.1)]
    unfold between
    omega
  have along : x ≤ first.1 + ((second.1 - first.1) * (limit - first.2 + 1) - 1) / (second.2 - first.2) ↔
      (x - first.1) * (second.2 - first.2) ≤ (second.1 - first.1) * (limit - first.2 + 1) - 1 := by
    rw [← Int.le_ediv_iff_mul_le (by omega : 0 < second.2 - first.2)]
    omega
  rw [up, along, mul_comm (limit - first.2 + 1)]
  omega

end Between

section Table

variable {point : Int × Int} {rest : List (Int × Int)} {x limit : Int}

theorem interpolateFrom_lower (rising : (point :: rest).IsChain Rises) (behind : point.1 ≤ x) :
    point.2 ≤ interpolateFrom point rest x := by
  induction rest generalizing point with
  | nil => exact le_refl _
  | cons next rest ih =>
    obtain ⟨rises, rising⟩ := List.isChain_cons_cons.mp rising
    rw [interpolateFrom]
    split
    · exact between_lower rises behind
    · rename_i passed
      exact rises.above.le.trans (ih rising (by omega))

/-- Where the value leaves a limit that it is within at a point is behind that point. -/
theorem lastWithin_ge (rising : (point :: rest).IsChain Rises) (within : point.2 ≤ limit) :
    ∀ last ∈ lastWithin point rest limit, point.1 ≤ last := by
  induction rest generalizing point with
  | nil => exact nofun
  | cons next rest ih =>
    obtain ⟨rises, rising⟩ := List.isChain_cons_cons.mp rising
    rw [lastWithin]
    split
    · rintro last ⟨⟩
      have right := rises.right
      have above := rises.above
      have positive : 0 ≤ ((next.1 - point.1) * (limit - point.2 + 1) - 1) / (next.2 - point.2) := by
        refine Int.ediv_nonneg ?_ (by omega)
        have := mul_pos (by omega : 0 < next.1 - point.1) (by omega : 0 < limit - point.2 + 1)
        omega
      omega
    · rename_i reached
      intro last member
      exact rises.right.le.trans (ih rising (by omega) last member)

/-- The value of a table is within a limit up to where `lastWithin` says, and no further. -/
theorem interpolateFrom_le_iff (rising : (point :: rest).IsChain Rises) (within : point.2 ≤ limit) (behind : point.1 ≤ x) :
    interpolateFrom point rest x ≤ limit ↔ ∀ last ∈ lastWithin point rest limit, x ≤ last := by
  induction rest generalizing point with
  | nil => exact iff_of_true within nofun
  | cons next rest ih =>
    obtain ⟨rises, rising⟩ := List.isChain_cons_cons.mp rising
    rw [interpolateFrom, lastWithin]
    by_cases here : x ≤ next.1
    · rw [if_pos here]
      split
      · rw [between_le_iff rises]
        simp
      · rename_i reached
        have low := between_upper rises here
        refine iff_of_true (by omega) fun last member => ?_
        exact here.trans (lastWithin_ge rising (by omega) last member)
    · rw [if_neg here]
      split
      · rename_i beyond
        have high := interpolateFrom_lower rising (by omega : next.1 ≤ x)
        -- the limit is already left between the points
        have left : ¬ between point next next.1 ≤ limit := by
          rw [between_end rises]
          omega
        rw [between_le_iff rises] at left
        refine iff_of_false (by omega) fun all => ?_
        have := all _ rfl
        omega
      · rename_i reached
        exact ih rising (by omega) (by omega)

theorem interpolate_le_iff (rising : (point :: rest).IsChain Rises) (within : point.2 ≤ limit) :
    interpolate point rest x ≤ limit ↔ ∀ last ∈ lastWithin point rest limit, x ≤ last := by
  unfold interpolate
  split
  · rename_i before
    refine iff_of_true within fun last member => ?_
    exact before.le.trans (lastWithin_ge rising within last member)
  · rename_i behind
    exact interpolateFrom_le_iff rising within (by omega)

theorem rises_of_mem (rising : (point :: rest).IsChain Rises) {other : Int × Int} (member : other ∈ rest) : Rises point other :=
  (List.pairwise_cons.mp (List.isChain_iff_pairwise.mp rising)).1 other member

theorem interpolateFrom_interpolates (rising : (point :: rest).IsChain Rises) (behind : point.1 ≤ x) :
    Interpolates (point :: rest) x (interpolateFrom point rest x) := by
  induction rest generalizing point with
  | nil =>
    have only {other : Int × Int} (member : other ∈ [point]) : other = point := List.mem_singleton.mp member
    exact ⟨fun _ member _ => (only member) ▸ le_refl _, fun _ member _ => (only member) ▸ le_refl _,
      ⟨point, List.mem_cons_self, le_refl _⟩, ⟨point, List.mem_cons_self, le_refl _⟩⟩
  | cons next rest ih =>
    obtain ⟨rises, chain⟩ := List.isChain_cons_cons.mp rising
    have right := rises.right
    rw [interpolateFrom]
    split
    · rename_i here
      constructor
      case left =>
        intro other member passed
        rcases List.mem_cons.mp member with rfl | later
        · exact between_lower rises behind
        · rcases List.mem_cons.mp later with rfl | beyond
          · rw [show x = other.1 by omega, between_end rises]
          · have := (rises_of_mem chain beyond).right
            omega
      case right =>
        intro other member before
        rcases List.mem_cons.mp member with rfl | later
        · rw [show x = other.1 by omega, between_start]
        · refine (between_upper rises here).trans ?_
          rcases List.mem_cons.mp later with rfl | beyond
          · exact le_refl _
          · exact (rises_of_mem chain beyond).above.le
      case lower => exact ⟨point, List.mem_cons_self, between_lower rises behind⟩
      case upper => exact ⟨next, List.mem_cons_of_mem _ List.mem_cons_self, between_upper rises here⟩
    · rename_i passed
      have low := interpolateFrom_lower chain (by omega : next.1 ≤ x)
      obtain ⟨left, above, ⟨lower, within, below⟩, upper, inside, over_⟩ := ih chain (by omega)
      constructor
      case left =>
        intro other member reached
        rcases List.mem_cons.mp member with rfl | later
        · exact rises.above.le.trans low
        · exact left other later reached
      case right =>
        intro other member before
        rcases List.mem_cons.mp member with rfl | later
        · omega
        · exact above other later before
      case lower => exact ⟨lower, List.mem_cons_of_mem _ within, below⟩
      case upper => exact ⟨upper, List.mem_cons_of_mem _ inside, over_⟩

/-- The value of a table is between those of the neighbours. -/
theorem interpolate_interpolates (rising : (point :: rest).IsChain Rises) (x : Int) :
    Interpolates (point :: rest) x (interpolate point rest x) := by
  unfold interpolate
  split
  · rename_i before
    constructor
    case left =>
      intro other member passed
      rcases List.mem_cons.mp member with rfl | later
      · exact le_refl _
      · have := (rises_of_mem rising later).right
        omega
    case right =>
      intro other member _
      rcases List.mem_cons.mp member with rfl | later
      · exact le_refl _
      · exact (rises_of_mem rising later).above.le
    case lower => exact ⟨point, List.mem_cons_self, le_refl _⟩
    case upper => exact ⟨point, List.mem_cons_self, le_refl _⟩
  · rename_i behind
    exact interpolateFrom_interpolates rising (by omega)

end Table

end Jacdac
