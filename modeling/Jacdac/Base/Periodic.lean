import Mathlib.Algebra.Ring.Int.Defs
import Mathlib.Data.List.Basic
import Mathlib.Data.List.Chain
import Mathlib.Tactic.Linarith
import Mathlib.Tactic.Ring

/-! Periodic deadlines in unbounded time. A deadline that has passed fires once and
moves on by one period, or to one period from now if that has passed as well. -/

namespace Jacdac

namespace Deadline

/-- The deadline after a look at it. -/
def next (period deadline time : Int) : Int :=
  if deadline < time then if time ≤ deadline + period then deadline + period else time + period
  else deadline

/-- The times at which the deadline is found to have passed. -/
def fired (period : Int) : Int → List Int → List Int
  | _, [] => []
  | deadline, time :: rest =>
    let later := fired period (next period deadline time) rest
    if deadline < time then time :: later else later

variable {period deadline time first last : Int} {times : List Int} {count : Nat}

theorem next_of_le (waits : time ≤ deadline) : next period deadline time = deadline :=
  if_neg (by omega)

/-- A deadline that fires moves on by a period at least, and is then between now and a
period from now. -/
theorem next_of_lt (nonneg : 0 ≤ period) (passed : deadline < time) :
    deadline + period ≤ next period deadline time ∧ time ≤ next period deadline time ∧
      next period deadline time ≤ time + period := by
  unfold next
  rw [if_pos passed]
  split <;> omega

theorem fired_of_le (waits : time ≤ deadline) :
    fired period deadline (time :: times) = fired period deadline times := by
  rw [fired, next_of_le waits]
  exact if_neg (by omega)

theorem fired_of_lt (passed : deadline < time) :
    fired period deadline (time :: times) = time :: fired period (next period deadline time) times :=
  if_pos passed

theorem fired_until (nonneg : 0 ≤ period)
    (often : (fired period deadline times).countP (· ≤ last) = count + 1) :
    deadline + count * period < last := by
  induction times generalizing deadline count with
  | nil => cases often
  | cons time rest ih =>
    by_cases passed : deadline < time
    · obtain ⟨further, _, _⟩ := next_of_lt nonneg passed
      rw [fired_of_lt passed] at often
      by_cases inside : time ≤ last
      · rw [List.countP_cons_of_pos (by simpa using inside)] at often
        cases count with
        | zero =>
          rw [Nat.cast_zero, zero_mul, add_zero]
          exact lt_of_lt_of_le passed inside
        | succ count =>
          have later := ih (Nat.succ.inj often)
          rw [Nat.cast_succ, add_mul, one_mul]
          linarith
      · rw [List.countP_cons_of_neg (by simpa using inside)] at often
        linarith [ih often]
    · rw [fired_of_le (not_lt.mp passed)] at often
      exact ih often

/-- In any interval a deadline fires less than twice more often than the period fits. -/
theorem fired_rate (positive : 0 < period) (ordered : first ≤ last) :
    ((fired period deadline times).countP (fun time => first ≤ time ∧ time ≤ last) : Int) * period <
      last - first + 2 * period := by
  induction times generalizing deadline with
  | nil =>
    rw [fired, List.countP_nil, Nat.cast_zero, zero_mul]
    linarith
  | cons time rest ih =>
    by_cases passed : deadline < time
    · rw [fired_of_lt passed]
      by_cases inside : first ≤ time ∧ time ≤ last
      · rw [List.countP_cons_of_pos (by simpa using inside)]
        -- the firings behind this one are counted up to the end of the interval
        obtain ⟨_, moved, _⟩ := next_of_lt positive.le passed
        have fewer : (fired period (next period deadline time) rest).countP
            (fun time => first ≤ time ∧ time ≤ last) ≤
              (fired period (next period deadline time) rest).countP (· ≤ last) :=
          List.countP_mono_left fun other _ within => by simp_all
        cases counted : (fired period (next period deadline time) rest).countP (· ≤ last) with
        | zero =>
          rw [counted] at fewer
          rw [Nat.le_zero.mp fewer, zero_add, Nat.cast_one, one_mul]
          linarith
        | succ count =>
          have spread := fired_until positive.le counted
          rw [counted] at fewer
          have scaled := mul_le_mul_of_nonneg_right (Int.ofNat_le.mpr fewer) positive.le
          rw [Nat.cast_succ, add_mul, one_mul] at scaled ⊢
          linarith
      · rw [List.countP_cons_of_neg (by simpa using inside)]
        exact ih
    · rw [fired_of_le (not_lt.mp passed)]
      exact ih

theorem fired_cons_length (period deadline time : Int) (times : List Int) :
    (fired period deadline (time :: times)).length =
      (if deadline < time then 1 else 0) + (fired period (next period deadline time) times).length := by
  rw [fired]
  split
  · exact Nat.add_comm _ _
  · exact (Nat.zero_add _).symm

theorem fired_sublist (period deadline : Int) (times : List Int) : (fired period deadline times).Sublist times := by
  induction times generalizing deadline with
  | nil => exact .slnil
  | cons time rest ih =>
    rw [fired]
    split
    · exact .cons_cons time (ih _)
    · exact .cons time (ih _)

/-- Of looks until `last`, each firing but the first needs a period. -/
theorem fired_length (nonneg : 0 ≤ period) (within : ∀ time ∈ times, time ≤ last)
    (often : count + 1 ≤ (fired period deadline times).length) : deadline + count * period < last := by
  obtain ⟨more, same⟩ := Nat.exists_eq_add_of_le often
  have counted : (fired period deadline times).countP (· ≤ last) = (count + more) + 1 := by
    rw [List.countP_eq_length.mpr fun time member => by
      simpa using within time ((fired_sublist period deadline times).subset member), same]
    omega
  have spread := fired_until nonneg counted
  have further : (0 : Int) ≤ more * period := mul_nonneg (Int.natCast_nonneg more) nonneg
  rw [Nat.cast_add, add_mul] at spread
  linarith

/-- Looks at most a period apart, none of them overdue at first: the deadline keeps to its
grid, and fires as often as it takes to be ahead of the last look. -/
theorem fired_prompt {before : Int} (ahead : before ≤ deadline)
    (prompt : (before :: times).IsChain fun time later => time ≤ later ∧ later ≤ time + period) :
    (before :: times).getLast (List.cons_ne_nil _ _) ≤ deadline + (fired period deadline times).length * period := by
  induction times generalizing before deadline with
  | nil => simpa [fired] using ahead
  | cons time rest ih =>
    obtain ⟨⟨onward, soon⟩, later⟩ := List.isChain_cons_cons.mp prompt
    rw [List.getLast_cons (List.cons_ne_nil _ _)]
    by_cases passed : deadline < time
    · have grid : next period deadline time = deadline + period := by
        unfold next
        rw [if_pos passed, if_pos (by omega)]
      have done := ih (show time ≤ deadline + period by omega) later
      rw [fired_of_lt passed, grid, List.length_cons, Nat.cast_succ, add_mul, one_mul]
      linarith
    · rw [fired_of_le (not_lt.mp passed)]
      exact ih (not_lt.mp passed) later

end Deadline

end Jacdac
