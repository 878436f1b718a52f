import Mathlib.Logic.Function.Iterate

/-! Iterations that reach a set of states in a number of steps given by a measure, and stay there. -/

namespace Jacdac

/-- A step that keeps an invariant and brings each state closer to the end, or there. -/
structure Progress {State : Type} (step : State → State) (Good Done : State → Prop) (measure : State → Nat) : Prop where
  kept : ∀ {state}, Good state → Good (step state)
  stays : ∀ {state}, Done state → Done (step state)
  closer : ∀ {state}, Good state → Done (step state) ∨ measure (step state) < measure state

namespace Progress

variable {State : Type} {step : State → State} {Good Done : State → Prop} {measure : State → Nat} {state : State}

theorem iterate_good (progress : Progress step Good Done measure) (good : Good state) (count : Nat) :
    Good (step^[count] state) := by
  induction count generalizing state with
  | zero => exact good
  | succ count ih => exact ih (progress.kept good)

theorem iterate_stays (progress : Progress step Good Done measure) (done : Done state) (count : Nat) :
    Done (step^[count] state) := by
  induction count generalizing state with
  | zero => exact done
  | succ count ih => exact ih (progress.stays done)

theorem iterate_done (progress : Progress step Good Done measure) (good : Good state) {count : Nat}
    (enough : measure state < count) : Done (step^[count] state) := by
  induction count generalizing state with
  | zero => exact absurd enough (Nat.not_lt_zero _)
  | succ count ih =>
    rw [Function.iterate_succ_apply]
    rcases progress.closer good with done | less
    · exact progress.iterate_stays done count
    · exact ih (progress.kept good) (Nat.lt_of_lt_of_le less (Nat.le_of_lt_succ enough))

end Progress

end Jacdac
