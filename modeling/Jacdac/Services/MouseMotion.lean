import Jacdac.Base.Latest
import Jacdac.Services.Mouse
import Mathlib.Algebra.Ring.Int.Defs

/-! What the mouse reports over runs: nothing is lost or added, and whether the rest is reported in
the end depends on the last move. -/

namespace Jacdac

namespace Axis

variable {ax : Axis} {d : Int16} {time : UInt16}

/-- The step leads to the target. -/
structure Aligned (ax : Axis) : Prop where
  up : 0 < ax.step → 0 ≤ ax.target
  down : ax.step < 0 → ax.target ≤ 0

/-- There is nothing left, or there is a step. -/
def Ready (ax : Axis) : Prop := ax.target = 0 ∨ ax.step ≠ 0

/-- With this sum left after a move in this time, there is nothing to report or at least one unit a
report. -/
def Suffices (left : Int) (time : UInt16) : Prop := left = 0 ∨ max time.toNat 1 ≤ stepMs * left.natAbs

/-- The step before it is clamped. -/
theorem quotient_cases (left : Int) (divisor : Nat) (positive : 0 < divisor) :
    (0 < left.tdiv divisor → 0 < left) ∧ (left.tdiv divisor < 0 → left < 0) ∧
      (left.tdiv divisor = 0 ↔ left.natAbs < divisor) := by
  have size : (left.tdiv divisor).natAbs = left.natAbs / divisor := Int.natAbs_tdiv left divisor
  have zero : left.tdiv divisor = 0 ↔ left.natAbs < divisor := by
    rw [← Int.natAbs_eq_zero, size, Nat.div_eq_zero_iff]
    omega
  refine ⟨fun up => ?_, fun down => ?_, zero⟩
  · by_contra below
    have nonpos : (-left).tdiv divisor ≥ 0 := Int.tdiv_nonneg (by omega) (Int.natCast_nonneg _)
    rw [Int.neg_tdiv] at nonpos
    omega
  · by_contra above
    have nonneg : left.tdiv divisor ≥ 0 := Int.tdiv_nonneg (by omega) (Int.natCast_nonneg _)
    omega

theorem limitStep_pos (perStep : Int) : 0 < limitStep perStep ↔ 0 < perStep := by
  unfold limitStep
  split <;> omega

theorem limitStep_neg (perStep : Int) : limitStep perStep < 0 ↔ perStep < 0 := by
  unfold limitStep
  split <;> omega

theorem divisor_eq (time : UInt16) : (if time = 0 then 1 else time.toNat) = max time.toNat 1 := by
  split
  · rename_i zero
    rw [zero]
    rfl
  · rename_i nonzero
    have positive : time.toNat ≠ 0 := fun zero => nonzero (UInt16.toNat_inj.mp zero)
    omega

/-- Without overflow. -/
theorem computeStep_eq (time : UInt16) (small : (ax.target + d.toInt).natAbs < 33554432) :
    ax.computeStep d time = ⟨ax.target + d.toInt,
      limitStep ((stepMs * (ax.target + d.toInt) : Int).tdiv (max time.toNat 1 : Nat))⟩ := by
  have fits : (stepMs * (ax.target + d.toInt) : Int).natAbs < 2147483648 := by
    unfold stepMs
    omega
  unfold computeStep
  dsimp only
  rw [divisor_eq, @i32_eq (ax.target + d.toInt) (by omega), i32_eq fits]

theorem computeStep_target (time : UInt16) (small : (ax.target + d.toInt).natAbs < 33554432) :
    (ax.computeStep d time).target = ax.target + d.toInt := by rw [computeStep_eq time small]

theorem computeStep_aligned (time : UInt16) (small : (ax.target + d.toInt).natAbs < 33554432) :
    (ax.computeStep d time).Aligned := by
  have positive : 0 < max time.toNat 1 := by omega
  obtain ⟨up, down, _⟩ := quotient_cases (stepMs * (ax.target + d.toInt)) (max time.toNat 1) positive
  rw [computeStep_eq time small]
  unfold stepMs at *
  constructor
  · intro rises
    have := up ((limitStep_pos _).mp rises)
    dsimp only
    omega
  · intro falls
    have := down ((limitStep_neg _).mp falls)
    dsimp only
    omega

theorem computeStep_ready (time : UInt16) (small : (ax.target + d.toInt).natAbs < 33554432) :
    (ax.computeStep d time).Ready ↔ Suffices (ax.target + d.toInt) time := by
  have positive : 0 < max time.toNat 1 := by omega
  obtain ⟨_, _, zero⟩ := quotient_cases (stepMs * (ax.target + d.toInt)) (max time.toNat 1) positive
  have rises := limitStep_pos ((stepMs * (ax.target + d.toInt) : Int).tdiv (max time.toNat 1 : Nat))
  have falls := limitStep_neg ((stepMs * (ax.target + d.toInt) : Int).tdiv (max time.toNat 1 : Nat))
  rw [computeStep_eq time small, Ready, Suffices]
  dsimp only
  have size : (stepMs * (ax.target + d.toInt) : Int).natAbs = stepMs * (ax.target + d.toInt).natAbs := Int.natAbs_mul _ _
  rw [size] at zero
  omega

/-- A step is between zero and what is left. -/
theorem currentStep_between (aligned : ax.Aligned) :
    0 ≤ ax.currentStep ∧ ax.currentStep ≤ ax.target ∨ ax.target ≤ ax.currentStep ∧ ax.currentStep ≤ 0 := by
  obtain ⟨up, down⟩ := aligned
  unfold currentStep
  split <;> omega

theorem afterStep_aligned (aligned : ax.Aligned) : ax.afterStep.Aligned := by
  have between := currentStep_between aligned
  obtain ⟨up, down⟩ := aligned
  constructor
  · intro rises
    have := up rises
    show 0 ≤ ax.target - ax.currentStep
    omega
  · intro falls
    have := down falls
    show ax.target - ax.currentStep ≤ 0
    omega

theorem afterStep_ready : ax.afterStep.Ready ↔ ax.Ready := by
  have target : ax.afterStep.target = ax.target - ax.currentStep := rfl
  have step : ax.afterStep.step = ax.step := rfl
  rw [Ready, Ready, target, step, currentStep]
  split <;> omega

/-- An axis that is ready is empty after a number of reports. -/
theorem progress : Progress afterStep (fun ax => ax.Aligned ∧ ax.Ready) (fun ax => ax.target = 0)
    fun ax => ax.target.natAbs where
  kept good := ⟨afterStep_aligned good.1, afterStep_ready.mpr good.2⟩
  stays {ax} done := by
    have target : ax.afterStep.target = ax.target - ax.currentStep := rfl
    rw [target, currentStep, done]
    split <;> omega
  closer {ax} good := by
    obtain ⟨aligned, ready⟩ := good
    have target : ax.afterStep.target = ax.target - ax.currentStep := rfl
    obtain ⟨up, down⟩ := aligned
    rw [target]
    unfold Ready at ready
    unfold currentStep
    split <;> omega

/-- An axis that is not ready stays as it is. -/
theorem afterStep_stuck (stuck : ¬ ax.Ready) : ax.afterStep = ax := by
  obtain ⟨target, step⟩ := ax
  have still : step = 0 := by
    by_contra moving
    exact stuck (.inr moving)
  subst still
  have nothing : currentStep ⟨target, 0⟩ = 0 := by
    unfold currentStep
    split
    · rename_i below
      exact absurd below (Nat.not_lt_zero _)
    · rfl
  rw [afterStep, nothing, Int.sub_zero]

end Axis

/-- The delta that an event asks of an axis. -/
def MouseSpec.requested (spec : MouseSpec) (i : Fin 4) (event : MouseEvent) : Int :=
  ((spec.request i event).map fun move => move.1.toInt).getD 0

/-- The sum of what is asked of an axis. -/
def MouseSpec.requestedSum (spec : MouseSpec) (i : Fin 4) (events : List MouseEvent) : Int :=
  (events.map (spec.requested i)).sum

def reportedSum (i : Fin 4) (reports : List MouseReport) : Int := (reports.map fun r => r.axis i).sum

/-- What an event does to an axis. -/
inductive AxisStep (i : Fin 4) (request : Option (Int16 × UInt16)) (ticks : Bool) (before after : Axis)
    (reported : Int) : Prop where
  | move (d : Int16) (time : UInt16) (asks : request = some (d, time)) (quiet : ticks = false)
    (moved : after = before.computeStep d time) (silent : reported = 0)
  | tick (asks : request = none) (due : ticks = true) (stepped : after = before.afterStep)
    (reports : reported = before.currentStep)
  | none (asks : request = none) (quiet : ticks = false) (same : after = before) (silent : reported = 0)

namespace MouseState

variable {spec : MouseSpec} {state : MouseState}

theorem processSampled_axis (sampled : Bool × Nat) (i : Fin 4) :
    AxisStep i none sampled.1 (state.axis i) ((state.processSampled sampled).1.axis i)
      (reportedSum i (state.processSampled sampled).2) := by
  obtain ⟨samples, sample⟩ := sampled
  unfold processSampled
  cases samples with
  | false => exact .none rfl rfl rfl rfl
  | true =>
    have same : { state with nextTick := sample }.report = state.report := rfl
    dsimp only
    rw [if_neg (not_not.mpr rfl), same]
    split
    · rename_i zero
      have nothing : (state.axis i).currentStep = 0 := (of_decide_eq_true zero.1).2 i
      exact .tick rfl rfl rfl nothing.symm
    · exact .tick rfl rfl rfl (Int.add_zero _)

theorem moveAxis_axis (j i : Fin 4) (d : Int16) (time : UInt16) : (state.moveAxis j d time).axis i =
    if i = j then (state.axis i).computeStep d time else state.axis i := by
  show Function.update state.axis j _ i = _
  rw [Function.update_apply]
  split
  · rename_i same
    rw [same]
  · rfl

theorem move_axis (d : MouseMove) (i : Fin 4) :
    AxisStep i (if i = 0 then some (d.dx, d.time) else if i = 1 then some (d.dy, d.time) else none) false (state.axis i)
      (((state.moveAxis 0 d.dx d.time).moveAxis 1 d.dy d.time).axis i) 0 := by
  rw [moveAxis_axis, moveAxis_axis]
  by_cases first : i = 0
  · have other : i ≠ 1 := fun second => absurd (first.symm.trans second) (by decide)
    rw [if_pos first, if_neg other, if_pos first]
    exact .move d.dx d.time rfl rfl rfl rfl
  · rw [if_neg first, if_neg first]
    by_cases second : i = 1
    · rw [if_pos second, if_pos second]
      exact .move d.dy d.time rfl rfl rfl rfl
    · rw [if_neg second, if_neg second]
      exact .none rfl rfl rfl rfl

theorem wheel_axis (d : MouseWheel) (i : Fin 4) :
    AxisStep i (if i = 2 then some (d.dy, d.time) else none) false (state.axis i)
      ((state.moveAxis 2 d.dy d.time).axis i) 0 := by
  rw [moveAxis_axis]
  by_cases wheel : i = 2
  · rw [if_pos wheel, if_pos wheel]
    exact .move d.dy d.time rfl rfl rfl rfl
  · rw [if_neg wheel, if_neg wheel]
    exact .none rfl rfl rfl rfl

theorem handlePacket_axis (pkt : ServiceRequest) (behind : UInt8) (i : Fin 4) :
    AxisStep i (spec.request i (.packet pkt behind)) false (state.axis i)
      ((state.handlePacket spec pkt behind).axis i) 0 := by
  rw [MouseSpec.request, handlePacket]
  by_cases move : pkt.serviceCommand = spec.cmdMove
  · rw [if_pos move, if_pos move]
    cases spec.move pkt.data with
    | none => exact .none rfl rfl rfl rfl
    | some d => exact move_axis d i
  · rw [if_neg move, if_neg move]
    by_cases wheel : pkt.serviceCommand = spec.cmdWheel
    · rw [if_pos wheel, if_pos wheel]
      cases spec.wheel pkt.data with
      | none => exact .none rfl rfl rfl rfl
      | some d => exact wheel_axis d i
    · rw [if_neg wheel, if_neg wheel]
      split
      · cases spec.setButton pkt.data behind with
        | none => exact .none rfl rfl rfl rfl
        | some d => exact .none rfl rfl rfl rfl
      · exact .none rfl rfl rfl rfl

theorem step_process (now : Nat) : (hidMouse spec).step state (.process now) =
    state.processSampled (jdShouldSampleDelay (u32 now) (stepMs * 1000) state.nextTick) := by
  rw [hidMouse]
  dsimp only
  rw [process]

theorem jdShouldSampleDelay_fst (now period sample : Nat) : (jdShouldSampleDelay now period sample).1 = !inFuture now sample := by
  unfold jdShouldSampleDelay
  generalize inFuture now sample = future
  generalize u32 (now + period) = next
  cases future <;> rfl

theorem step_axis (event : MouseEvent) (i : Fin 4) :
    AxisStep i (spec.request i event) (state.ticks event) (state.axis i) (((hidMouse spec).step state event).1.axis i)
      (reportedSum i ((hidMouse spec).step state event).2) := by
  cases event with
  | packet pkt behind => exact handlePacket_axis pkt behind i
  | process now =>
    have unasked : spec.request i (.process now) = none := rfl
    have due : state.ticks (.process now) = !inFuture (u32 now) state.nextTick := rfl
    rw [step_process, unasked, due, ← jdShouldSampleDelay_fst (u32 now) (stepMs * 1000)]
    generalize jdShouldSampleDelay (u32 now) (stepMs * 1000) state.nextTick = sampled
    exact processSampled_axis sampled i

end MouseState

/-- The sums that are asked of an axis from this one on. -/
def InTotals (spec : MouseSpec) (i : Fin 4) (total : Int) (events : List MouseEvent) : Prop :=
  ∀ early late, events = early ++ late → (total + spec.requestedSum i early).natAbs < 16777216

section Totals

variable {spec : MouseSpec} {i : Fin 4} {total : Int} {event : MouseEvent} {events : List MouseEvent}

theorem InTotals.start (totals : InTotals spec i total events) : total.natAbs < 16777216 := by
  have first := totals [] events rfl
  rw [MouseSpec.requestedSum, List.map_nil, List.sum_nil, Int.add_zero] at first
  exact first

theorem InTotals.tail (totals : InTotals spec i total (event :: events)) : InTotals spec i (total + spec.requested i event) events := by
  intro early late split
  have sum := totals (event :: early) late (by rw [split]; rfl)
  rw [MouseSpec.requestedSum, List.map_cons, List.sum_cons, ← Int.add_assoc] at sum
  exact sum

end Totals

/-- What is asked of the axis from here on stays within the totals, and so did what was reported. -/
structure AxisTracked (spec : MouseSpec) (i : Fin 4) (state : MouseState) (events : List MouseEvent) : Prop where
  aligned : (state.axis i).Aligned
  bounded : ∃ total, (total - (state.axis i).target).natAbs < 16777216 ∧ InTotals spec i total events

namespace AxisTracked

variable {spec : MouseSpec} {i : Fin 4} {state : MouseState} {event : MouseEvent} {events : List MouseEvent}

theorem small (tracked : AxisTracked spec i state (event :: events)) {d : Int16} {time : UInt16}
    (asks : spec.request i event = some (d, time)) : ((state.axis i).target + d.toInt).natAbs < 33554432 := by
  obtain ⟨total, near, totals⟩ := tracked.bounded
  have next := totals.tail.start
  rw [MouseSpec.requested, asks] at next
  change (total + d.toInt).natAbs < 16777216 at next
  omega

theorem step (tracked : AxisTracked spec i state (event :: events)) : AxisTracked spec i ((hidMouse spec).step state event).1 events := by
  obtain ⟨total, near, totals⟩ := tracked.bounded
  have start := totals.start
  have next := totals.tail
  rw [MouseSpec.requested] at next
  cases @MouseState.step_axis spec state event i with
  | move d time asks quiet moved silent =>
    have small := tracked.small asks
    rw [asks] at next
    refine ⟨moved ▸ Axis.computeStep_aligned time small, _, ?_, next⟩
    rw [moved, Axis.computeStep_target time small]
    change (total + d.toInt - ((state.axis i).target + d.toInt)).natAbs < 16777216
    omega
  | tick asks due stepped reports =>
    have between := Axis.currentStep_between tracked.aligned
    rw [asks] at next
    refine ⟨stepped ▸ Axis.afterStep_aligned tracked.aligned, _, ?_, next⟩
    rw [stepped]
    change (total + 0 - ((state.axis i).target - (state.axis i).currentStep)).natAbs < 16777216
    omega
  | none asks quiet same silent =>
    rw [asks] at next
    refine ⟨same ▸ tracked.aligned, _, ?_, next⟩
    rw [same]
    change (total + 0 - (state.axis i).target).natAbs < 16777216
    omega

/-- No step loses or adds motion. -/
theorem balanced (tracked : AxisTracked spec i state (event :: events)) :
    reportedSum i ((hidMouse spec).step state event).2 + (((hidMouse spec).step state event).1.axis i).target =
      (state.axis i).target + spec.requested i event := by
  rw [MouseSpec.requested]
  cases @MouseState.step_axis spec state event i with
  | move d time asks quiet moved silent =>
    rw [asks, moved, silent, Axis.computeStep_target time (tracked.small asks)]
    exact Int.zero_add _
  | tick asks due stepped reports =>
    rw [asks, stepped, reports]
    change (state.axis i).currentStep + ((state.axis i).target - (state.axis i).currentStep) = (state.axis i).target + 0
    omega
  | none asks quiet same silent =>
    rw [asks, same, silent]
    exact Int.add_comm 0 _

theorem init (totals : ∀ early late, events = early ++ late → (spec.requestedSum i early).natAbs < 16777216) :
    AxisTracked spec i .init events where
  aligned := ⟨fun _ => le_refl 0, fun _ => le_refl 0⟩
  bounded := ⟨0, Nat.zero_lt_succ _, fun early late split => by rw [Int.zero_add]; exact totals early late split⟩

end AxisTracked

/-- The number of reports that are due among calls of `hidmouse_process` at these times. -/
def MouseState.tickCount (spec : MouseSpec) : MouseState → List Nat → Nat
  | _, [] => 0
  | state, now :: times =>
    (if state.ticks (.process now) then 1 else 0) + tickCount spec ((hidMouse spec).step state (.process now)).1 times

namespace MouseState

variable {spec : MouseSpec} {state : MouseState}

/-- An axis goes through its steps, whatever else happens. -/
theorem after_times (times : List Nat) (i : Fin 4) :
    ((hidMouse spec).after state (times.map .process)).axis i =
      Axis.afterStep^[state.tickCount spec times] (state.axis i) := by
  induction times generalizing state with
  | nil => rfl
  | cons now times ih =>
    rw [List.map_cons, Machine.after_cons, ih, tickCount]
    cases @MouseState.step_axis spec state (.process now) i with
    | move d time asks quiet moved silent => cases asks
    | tick asks due stepped reports => rw [stepped, due, if_pos rfl, Nat.add_comm, Function.iterate_succ_apply]
    | none asks quiet same silent => rw [same, quiet, if_neg Bool.false_ne_true, Nat.zero_add]

theorem ticks_behind (state : MouseState) : state.ticks (.process (state.nextTick + 1)) = true := by
  have due : state.ticks (.process (state.nextTick + 1)) = !inFuture (u32 (state.nextTick + 1)) state.nextTick := rfl
  rw [due]
  generalize state.nextTick = next
  simp only [inFuture, inPast, u32, Bool.not_eq_true', beq_eq_false_iff_ne]
  omega

/-- Reports can be due any number of times. -/
theorem exists_times (spec : MouseSpec) (count : Nat) (state : MouseState) : ∃ times, state.tickCount spec times = count := by
  induction count generalizing state with
  | zero => exact ⟨[], rfl⟩
  | succ count ih =>
    obtain ⟨times, same⟩ := ih ((hidMouse spec).step state (.process (state.nextTick + 1))).1
    refine ⟨(state.nextTick + 1) :: times, ?_⟩
    rw [tickCount, state.ticks_behind, if_pos rfl, same, Nat.add_comm]

/-- An axis runs empty exactly if it is ready. -/
theorem drains_iff (aligned : (state.axis i).Aligned) :
    (∃ count, ∀ times, count ≤ state.tickCount spec times →
      (((hidMouse spec).after state (times.map .process)).axis i).target = 0) ↔ (state.axis i).Ready := by
  simp only [after_times]
  constructor
  · rintro ⟨count, drains⟩
    by_contra stuck
    obtain ⟨times, same⟩ := state.exists_times spec count
    have empty := drains times same.ge
    rw [Function.iterate_fixed (Axis.afterStep_stuck stuck)] at empty
    exact stuck (.inl empty)
  · intro ready
    exact ⟨(state.axis i).target.natAbs + 1, fun times enough =>
      Axis.progress.iterate_done ⟨aligned, ready⟩ (Nat.lt_of_succ_le enough)⟩

end MouseState

section Runs

variable {spec : MouseSpec} {i : Fin 4} {events : List MouseEvent}

theorem ready_iff (totals : ∀ early late, events = early ++ late → (spec.requestedSum i early).natAbs < 16777216) :
    (((hidMouse spec).after .init events).axis i).Ready ↔
      AtLast (spec.request i) (fun early move =>
        Axis.Suffices ((((hidMouse spec).after .init early).axis i).target + move.1.toInt) move.2) events := by
  induction events using List.reverseRecOn with
  | nil => exact iff_of_true (.inl rfl) .nil
  | append_singleton events event ih =>
    have before := ih fun early late split => totals early (late ++ [event]) (by rw [split, List.append_assoc])
    have tracked : AxisTracked spec i ((hidMouse spec).after .init events) [event] :=
      Machine.after_kept (fun state event events tracked => tracked.step) (.init totals)
    rw [Machine.after_concat]
    cases @MouseState.step_axis spec ((hidMouse spec).after .init events) event i with
    | move d time asks quiet moved silent =>
      rw [moved, atLast_concat_some asks]
      exact Axis.computeStep_ready time (tracked.small asks)
    | tick asks due stepped reports => rw [stepped, Axis.afterStep_ready, before, atLast_concat_none asks]
    | none asks quiet same silent => rw [same, before, atLast_concat_none asks]

/-- What was reported and what is left are what was asked for. -/
theorem mouse_account (totals : ∀ early late, events = early ++ late → (spec.requestedSum i early).natAbs < 16777216) :
    reportedSum i ((hidMouse spec).emitted .init events) + (((hidMouse spec).after .init events).axis i).target =
      spec.requestedSum i events := by
  have kept : ∀ state event events, AxisTracked spec i state (event :: events) →
      AxisTracked spec i ((hidMouse spec).step state event).1 events := fun _ _ _ tracked => tracked.step
  have account := Machine.account (fun state => (state.axis i).target) (fun r => r.axis i) (spec.requested i) kept
    (fun _ _ _ tracked => tracked.balanced) (.init totals)
  exact account.trans (Int.zero_add _)

theorem requestedSum_process (spec : MouseSpec) (i : Fin 4) (events : List MouseEvent) (times : List Nat) :
    spec.requestedSum i (events ++ times.map .process) = spec.requestedSum i events := by
  rw [MouseSpec.requestedSum, List.map_append, List.sum_append, List.map_map]
  have nothing : (times.map (spec.requested i ∘ .process)).sum = 0 := List.sum_eq_zero (by simp [MouseSpec.requested, MouseSpec.request])
  rw [nothing]
  exact Int.add_zero _

theorem totals_process (totals : ∀ early late, events = early ++ late → (spec.requestedSum i early).natAbs < 16777216)
    (times : List Nat) (early late : List MouseEvent) (split : events ++ times.map .process = early ++ late) :
    (spec.requestedSum i early).natAbs < 16777216 := by
  rcases List.append_eq_append_iff.mp split with ⟨rest, rfl, tail⟩ | ⟨rest, same, _⟩
  · obtain ⟨before, _, _, rfl, _⟩ := List.map_eq_append_iff.mp tail
    rw [requestedSum_process]
    exact totals events [] (List.append_nil events).symm
  · exact totals early rest same

end Runs

/-- With totals below `2 ^ 24`: what was reported and what is left are what was asked for at every
moment, and after enough further reports nothing is left, exactly if the last move left no target or
one of at least a unit a report. -/
theorem mouse_motion_iff (spec : MouseSpec) (i : Fin 4) (events : List MouseEvent)
    (totals : ∀ early late, events = early ++ late → (spec.requestedSum i early).natAbs < 16777216) :
    ((∀ early late, events = early ++ late →
        reportedSum i ((hidMouse spec).emitted .init early) + (((hidMouse spec).after .init early).axis i).target =
          spec.requestedSum i early) ∧
      ∃ count, ∀ times, count ≤ ((hidMouse spec).after .init events).tickCount spec times →
        (((hidMouse spec).after .init (events ++ times.map .process)).axis i).target = 0 ∧
          reportedSum i ((hidMouse spec).emitted .init (events ++ times.map .process)) = spec.requestedSum i events) ↔
    ∀ early event late d time, events = early ++ event :: late → spec.request i event = some (d, time) →
      (∀ other ∈ late, spec.request i other = none) →
        (((hidMouse spec).after .init early).axis i).target + d.toInt = 0 ∨
          max time.toNat 1 ≤ stepMs * ((((hidMouse spec).after .init early).axis i).target + d.toInt).natAbs := by
  have account : ∀ early late, events = early ++ late →
      reportedSum i ((hidMouse spec).emitted .init early) + (((hidMouse spec).after .init early).axis i).target =
        spec.requestedSum i early := by
    intro early late split
    exact mouse_account fun first rest inner => totals first (rest ++ late) (by rw [split, inner, List.append_assoc])
  have tracked : AxisTracked spec i ((hidMouse spec).after .init events) [] := by
    rw [← List.append_nil events] at totals
    exact Machine.after_kept (fun state event events tracked => tracked.step) (.init totals)
  have reported (times : List Nat) : reportedSum i ((hidMouse spec).emitted .init (events ++ times.map .process)) +
      (((hidMouse spec).after .init (events ++ times.map .process)).axis i).target = spec.requestedSum i events := by
    rw [← requestedSum_process spec i events times]
    exact mouse_account (totals_process totals times)
  have last : AtLast (spec.request i) (fun early move =>
      Axis.Suffices ((((hidMouse spec).after .init early).axis i).target + move.1.toInt) move.2) events ↔
      ∀ early event late d time, events = early ++ event :: late → spec.request i event = some (d, time) →
        (∀ other ∈ late, spec.request i other = none) →
          Axis.Suffices ((((hidMouse spec).after .init early).axis i).target + d.toInt) time :=
    ⟨fun atLast early event late d time => atLast early event late (d, time),
      fun enough early event late move => enough early event late move.1 move.2⟩
  refine Iff.trans ?_ last
  rw [← ready_iff totals, ← MouseState.drains_iff tracked.aligned]
  constructor
  · rintro ⟨_, count, drains⟩
    refine ⟨count, fun times enough => ?_⟩
    rw [← Machine.after_append]
    exact (drains times enough).1
  · rintro ⟨count, drains⟩
    refine ⟨account, count, fun times enough => ?_⟩
    have empty := drains times enough
    have sum := reported times
    rw [Machine.after_append] at sum ⊢
    rw [empty, Int.add_zero] at sum
    exact ⟨empty, sum⟩

/-- A specification whose structures are read byte by byte. -/
def sampleMouseSpec : MouseSpec where
  cmdMove := 0x81
  cmdWheel := 0x82
  cmdSetButton := 0x80
  move
    | [x, x', y, y', t, t'] => some ⟨.ofNat (x.toNat + 256 * x'.toNat), .ofNat (y.toNat + 256 * y'.toNat),
        .ofNat (t.toNat + 256 * t'.toNat)⟩
    | _ => none
  wheel
    | [y, y', t, t'] => some ⟨.ofNat (y.toNat + 256 * y'.toNat), .ofNat (t.toNat + 256 * t'.toNat)⟩
    | _ => none
  setButton
    | [b, b'], behind => some ⟨.ofNat (b.toNat + 256 * b'.toNat), behind⟩
    | b :: b' :: ev :: _, _ => some ⟨.ofNat (b.toNat + 256 * b'.toNat), ev⟩
    | _, _ => none
  buttonEventUp := 1
  buttonEventDown := 2
  buttonEventClick := 3
  buttonEventDoubleClick := 4

/-- A move by 300 in 100 ms, and one by 1 in 21 ms. -/
def longMove : ServiceRequest := ⟨0, 0x81, false, 0, [44, 1, 0, 0, 100, 0], by decide⟩
def shortMove : ServiceRequest := ⟨0, 0x81, false, 0, [1, 0, 0, 0, 21, 0], by decide⟩

theorem mouse_motion_iff_long :
    ∃ count, ∀ times, count ≤ ((hidMouse sampleMouseSpec).after .init [.packet longMove 0]).tickCount sampleMouseSpec times →
      reportedSum 0 ((hidMouse sampleMouseSpec).emitted .init ([.packet longMove 0] ++ times.map .process)) = 300 := by
  have asks : sampleMouseSpec.request 0 (.packet longMove 0) = some (300, 100) := by decide
  have sum : sampleMouseSpec.requestedSum 0 [.packet longMove 0] = 300 := by decide
  have totals : ∀ early late, [.packet longMove 0] = early ++ late →
      (sampleMouseSpec.requestedSum 0 early).natAbs < 16777216 := by
    intro early late split
    rcases List.append_eq_singleton_iff.mp split.symm with ⟨rfl, _⟩ | ⟨rfl, _⟩
    · decide
    · rw [sum]
      decide
  have drains := ((mouse_motion_iff sampleMouseSpec 0 [.packet longMove 0] totals).mpr ?_).2
  · rw [sum] at drains
    exact drains.imp fun count enough times reached => (enough times reached).2
  · intro early event late d time split found _
    rcases List.append_eq_singleton_iff.mp split.symm with ⟨rfl, same⟩ | ⟨_, none⟩
    · rw [(List.cons.inj same).1, asks] at found
      cases found
      exact .inr (by decide)
    · cases none

/-- The step of the short move is zero: however long the mouse runs, its unit is not reported. -/
theorem mouse_motion_stuck :
    ¬ ∃ count, ∀ times, count ≤ ((hidMouse sampleMouseSpec).after .init [.packet shortMove 0]).tickCount sampleMouseSpec times →
      (((hidMouse sampleMouseSpec).after .init ([.packet shortMove 0] ++ times.map .process)).axis 0).target = 0 := by
  have moved : ((hidMouse sampleMouseSpec).after .init [.packet shortMove 0]).axis 0 = ⟨1, 0⟩ := by decide
  have stays : Axis.afterStep ⟨1, 0⟩ = ⟨1, 0⟩ := by decide
  rintro ⟨count, drains⟩
  obtain ⟨times, same⟩ := MouseState.exists_times sampleMouseSpec count
    ((hidMouse sampleMouseSpec).after .init [.packet shortMove 0])
  have empty := drains times same.ge
  rw [Machine.after_append, MouseState.after_times, moved, Function.iterate_fixed stays] at empty
  exact absurd empty (by decide)

end Jacdac
