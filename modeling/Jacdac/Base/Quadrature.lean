import Mathlib.Algebra.Order.Group.Unbundled.Int
import Mathlib.Data.List.Chain
import Mathlib.Tactic.IntervalCases

/-! Quadrature: a shaft drives two switches that change one at a time, a quarter
step apart, and are looked at now and then. -/

namespace Jacdac

namespace Quadrature

/-- The place of the shaft within a cycle. -/
def phase (shaft : Int) : Nat := (shaft % 4).toNat

/-- The first switch, at this place. -/
def first (phase : Nat) : Bool := phase == 2 || phase == 3

/-- The second switch, a quarter step ahead. -/
def second (phase : Nat) : Bool := phase == 1 || phase == 2

theorem phase_lt (shaft : Int) : phase shaft < 4 := by
  unfold phase
  omega

/-- How far the shaft has turned from the first look to the last. -/
def travelled (looks : List Int) : Int := looks.getLast?.getD 0 - looks.head?.getD 0

/-- Never more than a quarter step between two looks. -/
def Slow (looks : List Int) : Prop := looks.IsChain fun last look => last - 1 ≤ look ∧ look ≤ last + 1

variable {looks : List Int} {last look : Int}

theorem travelled_concat (final : looks.getLast? = some last) (look : Int) :
    travelled (looks ++ [look]) = travelled looks + (look - last) := by
  cases looks with
  | nil => cases final
  | cons start rest =>
    unfold travelled
    rw [final, List.getLast?_concat, List.cons_append, List.head?_cons, List.head?_cons]
    simp only [Option.getD_some]
    omega

theorem Slow.init (slow : Slow (looks ++ [look])) (final : looks.getLast? = some last) :
    Slow looks ∧ last - 1 ≤ look ∧ look ≤ last + 1 := by
  unfold Slow at slow
  rw [List.isChain_append] at slow
  exact ⟨slow.1, slow.2.2 last final look rfl⟩

/-- What a decoder adds for the way between two places: right modulo a cycle, and right
when they are next to each other. -/
structure Decodes (count : Nat → Nat → Int) : Prop where
  cycle : ∀ early < 4, ∀ late < 4, (count early late - (late - early)) % 4 = 0
  same : ∀ place < 4, count place place = 0
  forward : ∀ place < 4, count place ((place + 1) % 4) = 1
  backward : ∀ place < 4, count ((place + 1) % 4) place = -1

theorem Decodes.modulo {count : Nat → Nat → Int} (decodes : Decodes count) (last look : Int) :
    4 ∣ count (phase last) (phase look) - (look - last) := by
  have cycle := decodes.cycle _ (phase_lt last) _ (phase_lt look)
  have early : ((phase last : Nat) : Int) = last % 4 := by
    unfold phase
    omega
  have late : ((phase look : Nat) : Int) = look % 4 := by
    unfold phase
    omega
  omega

theorem Decodes.adjacent {count : Nat → Nat → Int} (decodes : Decodes count)
    (near : last - 1 ≤ look ∧ look ≤ last + 1) : count (phase last) (phase look) = look - last := by
  obtain rfl | rfl | rfl : look = last ∨ look = last + 1 ∨ last = look + 1 := by omega
  · rw [decodes.same _ (phase_lt look)]
    omega
  · have next : phase (last + 1) = (phase last + 1) % 4 := by
      unfold phase
      omega
    rw [next, decodes.forward _ (phase_lt last)]
    omega
  · have next : phase (look + 1) = (phase look + 1) % 4 := by
      unfold phase
      omega
    rw [next, decodes.backward _ (phase_lt look)]
    omega

end Quadrature

end Jacdac
