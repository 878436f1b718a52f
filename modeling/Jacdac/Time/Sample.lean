import Jacdac.Base.Periodic
import Jacdac.Pipe.Output

/-! Periodic sampling: `jd_should_sample` of `jd_util.c` on 32-bit times, against
a deadline in unbounded time. -/

namespace Jacdac

/-- `jd_should_sample`, with the new `*sample`. -/
def jdShouldSample (now period sample : Nat) : Bool × Nat :=
  if inFuture now sample then (false, sample)
  else
    let sample := u32 (sample + period)
    -- the second branch has lost some samples
    if inFuture now sample then (true, sample) else (true, u32 (now + period))

/-- A call of `jd_should_sample` at a time that is not truncated. -/
structure SampleCall where
  time : Nat
  returned : Bool
  sample : Nat
  deriving DecidableEq, Repr

/-- The calls at these times, on the same `sample`. -/
def sampleCalls (period : Nat) : Nat → List Nat → List SampleCall
  | _, [] => []
  | sample, time :: rest =>
    let result := jdShouldSample (u32 time) period sample
    ⟨time, result.1, result.2⟩ :: sampleCalls period result.2 rest

/-- Calls that do not go back in time, and are less than 2^30 apart. -/
def Timely (times : List Nat) : Prop := times.IsChain fun time later => time ≤ later ∧ later < time + 2 ^ 30

/-- The sample time that a call leaves: the first time from the call on that the stored
value stands for. -/
def SampleCall.sampleTime (call : SampleCall) : Int := call.time + u32 (call.sample + 4294967296 - u32 call.time)

def storedTime (start : Int) (calls : List SampleCall) : Int :=
  ((calls.filter SampleCall.returned).getLast?.map SampleCall.sampleTime).getD start

/-- The value stands for the deadline, which is not far from the time. -/
structure StandsFor (deadline : Int) (time : Nat) (sample : Nat) : Prop where
  value : (sample : Int) = deadline % 4294967296
  lower : time - 2 ^ 30 ≤ deadline
  upper : deadline ≤ time + 2 ^ 30

namespace StandsFor

variable {deadline : Int} {period time later sample : Nat}

theorem inFuture_iff (stands : StandsFor deadline time sample) :
    inFuture (u32 time) sample = true ↔ time ≤ deadline := by
  obtain ⟨value, lower, upper⟩ := stands
  simp only [inFuture, inPast, u32, beq_iff_eq]
  omega

theorem call (stands : StandsFor deadline time sample) (positive : 0 < period) (small : period < 2 ^ 30) :
    jdShouldSample (u32 time) period sample =
      (decide (deadline < time), (Deadline.next period deadline time % 4294967296).toNat) := by
  obtain ⟨value, lower, upper⟩ := stands
  unfold jdShouldSample
  by_cases passed : deadline < time
  · have late : ¬ inFuture (u32 time) sample = true := by
      rw [inFuture_iff ⟨value, lower, upper⟩]
      omega
    have moved : StandsFor (deadline + period) time (u32 (sample + period)) := by
      refine ⟨?_, by omega, by omega⟩
      unfold u32
      omega
    rw [if_neg late, decide_eq_true passed]
    dsimp only
    unfold Deadline.next
    rw [if_pos passed]
    by_cases again : (time : Int) ≤ deadline + period
    · rw [if_pos (moved.inFuture_iff.mpr again), if_pos again, ← moved.value, Int.toNat_natCast]
    · rw [if_neg (fun future => again (moved.inFuture_iff.mp future)), if_neg again]
      congr 1
      unfold u32
      omega
  · have waits : inFuture (u32 time) sample = true := by
      rw [inFuture_iff ⟨value, lower, upper⟩]
      omega
    rw [if_pos waits, decide_eq_false passed, Deadline.next_of_le (not_lt.mp passed), ← value, Int.toNat_natCast]

/-- The new deadline is near to every time at which the next call may come. -/
theorem next (stands : StandsFor deadline time sample) (positive : 0 < period) (small : period < 2 ^ 30)
    (onward : time ≤ later) (soon : later < time + 2 ^ 30) :
    StandsFor (Deadline.next period deadline time) later (Deadline.next period deadline time % 4294967296).toNat := by
  obtain ⟨value, lower, upper⟩ := stands
  have bounds : (time : Int) ≤ Deadline.next period deadline time ∧
      Deadline.next period deadline time ≤ time + 2 ^ 30 := by
    by_cases passed : deadline < time
    · obtain ⟨_, behind, ahead⟩ := Deadline.next_of_lt (Int.natCast_nonneg period) passed
      omega
    · rw [Deadline.next_of_le (not_lt.mp passed)]
      omega
  refine ⟨?_, by omega, by omega⟩
  omega

end StandsFor

@[simp] theorem storedTime_nil (start : Int) : storedTime start [] = start := rfl

theorem storedTime_cons (start : Int) (call : SampleCall) (calls : List SampleCall) :
    storedTime start (call :: calls) = storedTime (if call.returned then call.sampleTime else start) calls := by
  unfold storedTime
  cases returned : call.returned with
  | false => rw [List.filter_cons_of_neg (by simp [returned]), if_neg Bool.false_ne_true]
  | true =>
    rw [List.filter_cons_of_pos returned, if_pos rfl]
    cases filtered : calls.filter SampleCall.returned with
    | nil => rfl
    | cons other rest =>
      rw [List.getLast?_cons_cons, List.getLast?_eq_some_getLast (List.cons_ne_nil other rest)]
      rfl

/-- Whatever comes between the call and the next one, its deadline is near to this time. -/
structure Ready (deadline : Int) (sample : Nat) (times : List Nat) : Prop where
  value : (sample : Int) = deadline % 4294967296
  near : ∀ time ∈ times.head?, StandsFor deadline time sample
  timely : Timely times

namespace Ready

variable {deadline start : Int} {period sample time : Nat} {times : List Nat}

theorem after (ready : Ready deadline sample (time :: times)) (positive : 0 < period) (small : period < 2 ^ 30) :
    Ready (Deadline.next period deadline time) (Deadline.next period deadline time % 4294967296).toNat times := by
  have stands := ready.near time rfl
  refine ⟨by omega, ?_, ?_⟩
  · cases times with
    | nil => intro later none; cases none
    | cons second rest =>
      intro later first
      cases first
      obtain ⟨onward, soon⟩ := (List.isChain_cons_cons.mp ready.timely).1
      exact stands.next positive small onward soon
  · exact List.IsChain.of_cons ready.timely

theorem calls_cons (ready : Ready deadline sample (time :: times)) (positive : 0 < period) (small : period < 2 ^ 30) :
    sampleCalls period sample (time :: times) =
      ⟨time, decide (deadline < time), (Deadline.next period deadline time % 4294967296).toNat⟩ ::
        sampleCalls period (Deadline.next period deadline time % 4294967296).toNat times := by
  rw [sampleCalls, (ready.near time rfl).call positive small]

theorem fired (ready : Ready deadline sample times) (positive : 0 < period) (small : period < 2 ^ 30)
    (counted : Int → Bool) :
    (sampleCalls period sample times).countP (fun call => call.returned && counted call.time) =
      (Deadline.fired period deadline (times.map Nat.cast)).countP counted := by
  induction times generalizing deadline sample with
  | nil => rfl
  | cons time rest ih =>
    have later := ih (ready.after positive small)
    rw [ready.calls_cons positive small, List.map_cons]
    by_cases passed : deadline < time
    · rw [Deadline.fired_of_lt passed, List.countP_cons, List.countP_cons, later]
      simp [passed]
    · rw [Deadline.fired_of_le (not_lt.mp passed), List.countP_cons, later,
        Deadline.next_of_le (not_lt.mp passed)]
      simp [passed]

/-- What a call that returns true stores stands for the new deadline. -/
theorem sampleTime (small : period < 2 ^ 30) (passed : deadline < time) :
    SampleCall.sampleTime ⟨time, true, (Deadline.next period deadline time % 4294967296).toNat⟩ =
      Deadline.next period deadline time := by
  obtain ⟨_, behind, ahead⟩ := Deadline.next_of_lt (Int.natCast_nonneg period) passed
  unfold SampleCall.sampleTime u32
  dsimp only
  omega

theorem between (ready : Ready deadline sample times) (positive : 0 < period) (small : period < 2 ^ 30)
    (member : call ∈ sampleCalls period sample times) (returned : call.returned = true) :
    ∃ moment : Int, call.time ≤ moment ∧ moment ≤ call.time + period ∧ (call.sample : Int) = moment % 4294967296 := by
  induction times generalizing deadline sample with
  | nil => cases member
  | cons time rest ih =>
    rw [ready.calls_cons positive small] at member
    rcases List.mem_cons.mp member with rfl | later
    · obtain ⟨_, behind, ahead⟩ := Deadline.next_of_lt (Int.natCast_nonneg period) (of_decide_eq_true returned)
      refine ⟨_, behind, ahead, ?_⟩
      dsimp only
      omega
    · exact ih (ready.after positive small) later

theorem decides (ready : Ready deadline sample times) (positive : 0 < period) (small : period < 2 ^ 30)
    (split : sampleCalls period sample times = early ++ call :: late) :
    call.returned = decide (storedTime deadline early < call.time) := by
  induction times generalizing deadline sample early with
  | nil => cases early <;> cases split
  | cons time rest ih =>
    rw [ready.calls_cons positive small] at split
    cases early with
    | nil =>
      rw [List.nil_append] at split
      obtain ⟨rfl, _⟩ := List.cons.inj split
      rfl
    | cons first early =>
      obtain ⟨rfl, tail⟩ := List.cons.inj split
      rw [storedTime_cons, ih (ready.after positive small) tail]
      by_cases passed : deadline < time
      · dsimp only
        rw [decide_eq_true passed, if_pos rfl, sampleTime small passed]
      · dsimp only
        rw [decide_eq_false passed, if_neg Bool.false_ne_true, Deadline.next_of_le (not_lt.mp passed)]

end Ready

/-- Sampling with a period of less than 2^30, at times that are less than 2^30 apart, from a
sample time that is near to the first call: in any interval there are fewer than its length over the
period, plus 2, calls that return true; after each of them the sample time is at most a period ahead;
and a call later than the stored sample time returns true. -/
theorem jd_should_sample_rate {period : Nat} (positive : 0 < period) (small : period < 2 ^ 30)
    {start : Int} {sample : Nat} (value : (sample : Int) = start % 4294967296) {times : List Nat}
    (timely : Timely times)
    (near : ∀ first ∈ times.head?, (first : Int) - 2 ^ 30 ≤ start ∧ start ≤ first + 2 ^ 30) :
    let calls := sampleCalls period sample times
    (∀ first last : Int, first ≤ last →
      (calls.countP fun call => call.returned && decide (first ≤ call.time ∧ call.time ≤ last) : Int) * period <
        last - first + 2 * period) ∧
    (∀ call ∈ calls, call.returned = true →
      ∃ moment : Int, call.time ≤ moment ∧ moment ≤ call.time + period ∧ (call.sample : Int) = moment % 4294967296) ∧
    (∀ early call late, calls = early ++ call :: late → storedTime start early < call.time → call.returned = true) := by
  have ready : Ready start sample times :=
    ⟨value, fun first head => ⟨value, (near first head).1, (near first head).2⟩, timely⟩
  refine ⟨fun first last ordered => ?_, fun call member returned => ready.between positive small member returned,
    fun early call late split passed => ?_⟩
  · rw [ready.fired positive small fun time => decide (first ≤ time ∧ time ≤ last)]
    exact Deadline.fired_rate (by omega) ordered
  · rw [ready.decides positive small split]
    exact decide_eq_true passed

/-- Calls on both sides of a wrap of the 32-bit time. -/
theorem jd_should_sample_rate_wrap :
    (sampleCalls 1000 4294967290 [4294967295, 4294968290, 4294970000]).map SampleCall.returned = [true, false, true] ∧
    ∀ first last : Int, first ≤ last →
      ((sampleCalls 1000 4294967290 [4294967295, 4294968290, 4294970000]).countP fun call =>
        call.returned && decide (first ≤ call.time ∧ call.time ≤ last) : Int) * (1000 : Nat) <
          last - first + 2 * (1000 : Nat) :=
  ⟨by decide, (jd_should_sample_rate (by decide) (by decide)
    (by decide : ((4294967290 : Nat) : Int) = 4294967290 % 4294967296) (by simp [Timely]) (by simp)).1⟩

end Jacdac
