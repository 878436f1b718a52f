import Mathlib.Data.Set.Finite.Basic
import Mathlib.Data.Fintype.Pigeonhole
import Mathlib.Logic.Relation

/-! Loops without a bound of their own, and when they end. The body of a loop
may fail; what decides the next pass is a control state with its own successor
function. -/

namespace Jacdac

/-- How a pass over a loop's body ends. -/
inductive Pass (State Result : Type) where
  | again (state : State)
  | leave (result : Result)
  deriving DecidableEq, Repr

/-- At most that many passes; `none` also when the body fails. -/
def loop {State Result : Type} (body : State → Option (Pass State Result)) : Nat → State → Option Result
  | 0, _ => none
  | fuel + 1, state => (body state).bind fun
    | .again next => loop body fuel next
    | .leave result => some result

section Control

variable {Control : Type} (next : Control → Option Control)

/-- The control states a run passes through. -/
def Leads : Control → Control → Prop := Relation.ReflTransGen fun control successor => next control = some successor

/-- The run from a control state comes to an end. -/
def Halts : Control → Prop := Acc fun successor control => next control = some successor

variable {next}

theorem Halts.of_leads {control other : Control} (halts : Halts next control) (leads : Leads next control other) :
    Halts next other := by
  induction leads with
  | refl => exact halts
  | tail _ step ih => exact ih.inv step

/-- A halting run does not come back to a state it has left. -/
theorem Halts.no_return {control successor : Control} (halts : Halts next control)
    (step : next control = some successor) : ¬ Leads next successor control := by
  induction halts generalizing successor with
  | intro control _ ih =>
    intro back
    rcases Relation.ReflTransGen.cases_head back with same | ⟨second, stepSecond, rest⟩
    · subst same
      exact ih successor step step .refl
    · exact ih successor step stepSecond (rest.trans (.single step))

private theorem exists_orbit {control : Control} (endless : ¬ Halts next control) :
    ∃ orbit : Nat → Control, orbit 0 = control ∧ ∀ index, next (orbit index) = some (orbit (index + 1)) := by
  have step : ∀ state : { state : Control // ¬ Halts next state },
      ∃ successor : { state : Control // ¬ Halts next state }, next state.1 = some successor.1 := by
    intro ⟨state, stuck⟩
    by_contra none
    refine stuck (Acc.intro state fun successor found => ?_)
    by_contra further
    exact none ⟨⟨successor, further⟩, found⟩
  choose follow found using step
  refine ⟨fun index => (follow^[index] ⟨control, endless⟩).1, rfl, fun index => ?_⟩
  show next (follow^[index] ⟨control, endless⟩).1 = some (follow^[index + 1] ⟨control, endless⟩).1
  rw [Function.iterate_succ_apply', found]

private theorem orbit_leads {orbit : Nat → Control} (steps : ∀ index, next (orbit index) = some (orbit (index + 1)))
    {first last : Nat} (before : first ≤ last) : Leads next (orbit first) (orbit last) := by
  induction before with
  | refl => exact .refl
  | step _ ih => exact ih.tail (steps _)

/-- A loop over finitely many control states halts unless it comes back to a
state from which it stepped without advancing. -/
theorem halts_iff_no_cycle {space : Set Control} (finite : space.Finite)
    (inside : ∀ {control successor}, next control = some successor → control ∈ space)
    (rank : Control → Nat) (control : Control) :
    Halts next control ↔ ∀ state successor, Leads next control state → next state = some successor →
      rank successor ≤ rank state → ¬ Leads next successor state := by
  constructor
  · intro halts state successor leads step _
    exact (halts.of_leads leads).no_return step
  · intro acyclic
    by_contra endless
    obtain ⟨orbit, start, steps⟩ := exists_orbit endless
    -- the orbit visits some state twice, and cannot have advanced at every step in between
    obtain ⟨first, last, before, same⟩ : ∃ first last, first < last ∧ orbit first = orbit last := by
      have := finite.to_subtype
      obtain ⟨first, last, distinct, same⟩ :=
        Finite.exists_ne_map_eq_of_infinite fun index => (⟨orbit index, inside (steps index)⟩ : space)
      have same : orbit first = orbit last := congrArg Subtype.val same
      rcases Nat.lt_or_gt_of_ne distinct with before | before
      · exact ⟨first, last, before, same⟩
      · exact ⟨last, first, before, same.symm⟩
    have advances : ∀ index, first ≤ index → index < last → rank (orbit index) < rank (orbit (index + 1)) := by
      intro index lower upper
      by_contra stays
      refine acyclic (orbit index) (orbit (index + 1)) ?_ (steps index) (Nat.not_lt.mp stays) ?_
      · exact start ▸ orbit_leads steps (Nat.zero_le index)
      · exact (orbit_leads steps upper).trans (same ▸ orbit_leads steps lower)
    have climbs : ∀ index, first < index → index ≤ last → rank (orbit first) < rank (orbit index) := by
      intro index lower upper
      induction index, lower using Nat.le_induction with
      | base => exact advances first (Nat.le_refl _) before
      | succ index lower ih =>
        exact (ih (by omega)).trans (advances index (by omega) (by omega))
    exact Nat.lt_irrefl _ (same ▸ climbs last before (Nat.le_refl _))

end Control

section Simulation

variable {State Result Control : Type} {body : State → Option (Pass State Result)} {next : Control → Option Control}
  {control : State → Control} {faulty : Control → Prop} {Holds : State → Prop}

/-- What a pass does to the control state. -/
inductive PassControls (next : Control → Option Control) (control : State → Control) (faulty : Control → Prop)
    (Holds : State → Prop) (state : State) : Option (Pass State Result) → Prop where
  | fails (bad : faulty (control state)) : PassControls next control faulty Holds state none
  | again (fine : ¬ faulty (control state)) (step : next (control state) = some (control after))
      (kept : Holds after) : PassControls next control faulty Holds state (some (.again after))
  | leave (fine : ¬ faulty (control state)) (ends : next (control state) = none) :
    PassControls next control faulty Holds state (some (.leave result))

private theorem loop_fine (controls : ∀ state, Holds state → PassControls next control faulty Holds state (body state))
    {fuel : Nat} {state : State} (holds : Holds state) (returned : loop body fuel state = some result) :
    Halts next (control state) ∧ ∀ other, Leads next (control state) other → ¬ faulty other := by
  induction fuel generalizing state with
  | zero => simp [loop] at returned
  | succ fuel ih =>
    have pass := controls state holds
    rw [loop] at returned
    generalize body state = outcome at pass returned
    cases pass with
    | fails bad => simp at returned
    | again fine step kept =>
      obtain ⟨halts, clean⟩ := ih kept (by simpa using returned)
      constructor
      · refine Acc.intro _ fun successor found => ?_
        rw [step] at found
        exact Option.some.inj found ▸ halts
      · intro other leads
        rcases Relation.ReflTransGen.cases_head leads with same | ⟨second, stepSecond, rest⟩
        · exact same ▸ fine
        · rw [step] at stepSecond
          exact clean other (Option.some.inj stepSecond ▸ rest)
    | leave fine ends =>
      constructor
      · exact Acc.intro _ fun successor found => by simp [ends] at found
      · intro other leads
        rcases Relation.ReflTransGen.cases_head leads with same | ⟨second, stepSecond, _⟩
        · exact same ▸ fine
        · simp [ends] at stepSecond

private theorem loop_returns (controls : ∀ state, Holds state → PassControls next control faulty Holds state (body state))
    {start : Control} (halts : Halts next start) {state : State} (holds : Holds state) (same : control state = start)
    (clean : ∀ other, Leads next start other → ¬ faulty other) : ∃ fuel result, loop body fuel state = some result := by
  induction halts generalizing state with
  | intro start _ ih =>
    subst same
    have pass := controls state holds
    generalize outcome : body state = passed at pass
    cases pass with
    | fails bad => exact absurd bad (clean _ .refl)
    | @again after fine step kept =>
      obtain ⟨fuel, result, returned⟩ :=
        ih (control after) step kept rfl fun other leads => clean other (.head step leads)
      exact ⟨fuel + 1, result, by simpa [loop, outcome] using returned⟩
    | @leave result fine ends => exact ⟨1, result, by simp [loop, outcome]⟩

theorem loop_returns_iff (controls : ∀ state, Holds state → PassControls next control faulty Holds state (body state))
    {state : State} (holds : Holds state) :
    (∃ fuel result, loop body fuel state = some result) ↔
      Halts next (control state) ∧ ∀ other, Leads next (control state) other → ¬ faulty other := by
  constructor
  · rintro ⟨fuel, result, returned⟩
    exact loop_fine controls holds returned
  · rintro ⟨halts, clean⟩
    exact loop_returns controls halts holds rfl clean

end Simulation

end Jacdac
