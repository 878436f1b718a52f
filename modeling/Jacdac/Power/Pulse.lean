import Jacdac.Power.Limiter

/-! The keep-on pulse of `power.c`. Nothing else in the service reads or writes the
fields and the pin that it uses. -/

namespace Jacdac

/-- The fields of `srv_state` for the pulse, and the level of `pin_pulse`. -/
structure PulseState where
  pulseDuration : Nat
  pulsePeriod : Nat
  lastPulse : Nat
  pinPulse : Bool
  deriving DecidableEq, Repr

namespace PulseState

/-- `power_init`; without a pulse pin nothing is driven. -/
def init (hasPin : Bool) (now : Nat) : PulseState :=
  if hasPin then
    { pulseDuration := 600
      pulsePeriod := 20000
      lastPulse := u32 (now + 4294967296 - 600 * 1000)
      pinPulse := true }
  else { pulseDuration := 0, pulsePeriod := 0, lastPulse := 0, pinPulse := false }

/-- The limits that `power_handle_packet` enforces after a write. -/
def limitDuty (state : PulseState) : PulseState :=
  if state.pulsePeriod ≠ 0 ∧ state.pulseDuration ≠ 0 then
    let pulseDuration := if state.pulseDuration > 1000 then 1000 else state.pulseDuration
    { state with
      pulseDuration
      pulsePeriod := if state.pulsePeriod < pulseDuration * 10 then pulseDuration * 10 else state.pulsePeriod }
  else state

/-- A write of `KEEP_ON_PULSE_DURATION`; both registers are blocked without a pulse pin. -/
def setDuration (hasPin : Bool) (value : Nat) (state : PulseState) : PulseState :=
  if hasPin then { state with pulseDuration := u16 value }.limitDuty else state

/-- A write of `KEEP_ON_PULSE_PERIOD`. -/
def setPeriod (hasPin : Bool) (value : Nat) (state : PulseState) : PulseState :=
  if hasPin then { state with pulsePeriod := u32 value }.limitDuty else state

/-- What `pulse_delta` is compared with: the on-window and the period, in 32-bit arithmetic. -/
def onWindow (state : PulseState) : Nat := u32 (state.pulseDuration * 1000)

def fullPeriod (state : PulseState) : Nat := u32 (state.pulsePeriod * 1000)

/-- The initial `pulse_delta`. -/
def elapsed (now : Nat) (state : PulseState) : Nat := u32 (now + 4294967296 - state.lastPulse)

/-- The pulse in `power_process`. -/
def process (now : Nat) (state : PulseState) : PulseState :=
  if state.pulsePeriod ≠ 0 ∧ state.pulseDuration ≠ 0 then
    if state.elapsed now > state.fullPeriod then
      { state with lastPulse := now, pinPulse := 0 < state.onWindow }
    else { state with pinPulse := state.elapsed now < state.onWindow }
  else state

end PulseState

inductive PulseStep where
  | duration (value : Nat)
  | period (value : Nat)
  | process (now : Nat)
  deriving DecidableEq, Repr

/-- The service under observation, with times that are not truncated: that of the
last call of `power_process`, and since when the pin has been high. -/
structure PulseWatch where
  state : PulseState
  clock : Nat
  since : Nat
  deriving DecidableEq, Repr

namespace PulseWatch

def init (hasPin : Bool) (start : Nat) : PulseWatch :=
  { state := .init hasPin (u32 start), clock := start, since := start }

def step (hasPin : Bool) (watch : PulseWatch) : PulseStep → PulseWatch
  | .duration value => { watch with state := watch.state.setDuration hasPin value }
  | .period value => { watch with state := watch.state.setPeriod hasPin value }
  | .process now =>
    { state := watch.state.process (u32 now)
      clock := now
      since := if watch.state.pinPulse then watch.since else now }

/-- `power_process` is called at least once per 10 ms. -/
def Timely (watch : PulseWatch) : PulseStep → Prop
  | .process now => watch.clock ≤ now ∧ now ≤ watch.clock + 10000
  | _ => True

/-- Where both registers are set, the on-window that is compared is at most a tenth of the period
that is compared. -/
def InDuty (state : PulseState) : Prop :=
  state.pulsePeriod ≠ 0 → state.pulseDuration ≠ 0 → state.onWindow * 10 ≤ state.fullPeriod

/-- Up to the next call the pin is high for at most 1 second and the interval between the calls. -/
def Short (watch : PulseWatch) : Prop :=
  ∀ now, watch.Timely (.process now) → watch.state.pinPulse = true →
    now - watch.since ≤ 1000000 + (now - watch.clock)

end PulseWatch

/-- Runs of steps that are permitted where they are taken. -/
inductive PulseRun (hasPin : Bool) (permitted : PulseWatch → PulseStep → Prop) : PulseWatch → Prop where
  | init (start : Nat) : PulseRun hasPin permitted (.init hasPin start)
  | step (run : PulseRun hasPin permitted watch) (step : PulseStep) (timely : watch.Timely step)
      (allowed : permitted watch step) : PulseRun hasPin permitted (watch.step hasPin step)

/-- The period in microseconds is not just above a multiple of 2^32, where it wraps to less than ten
times the on-window. -/
def Unwrapped (duration period : Nat) : Prop :=
  duration = 0 ∨ ∀ wraps > 0, period * 1000 < wraps * 4294967296 ∨
    wraps * 4294967296 + min duration 1000 * 10000 ≤ period * 1000

/-- The steps that keep the pulse in its limits: no register value makes the period wrap, and no call
finds the pin high with a register at zero, or with the period over. -/
def KeepsDuty (watch : PulseWatch) : PulseStep → Prop
  | .duration value => Unwrapped (u16 value) watch.state.pulsePeriod
  | .period value => Unwrapped watch.state.pulseDuration (u32 value)
  | .process now => watch.state.pinPulse = true →
    watch.state.pulsePeriod ≠ 0 ∧ watch.state.pulseDuration ≠ 0 ∧
      watch.state.elapsed (u32 now) ≤ watch.state.fullPeriod

namespace PulseState

variable {state : PulseState} {now : Nat}

@[simp] theorem limitDuty_lastPulse (state : PulseState) : state.limitDuty.lastPulse = state.lastPulse := by
  unfold limitDuty
  split <;> rfl

@[simp] theorem limitDuty_pinPulse (state : PulseState) : state.limitDuty.pinPulse = state.pinPulse := by
  unfold limitDuty
  split <;> rfl

theorem limitDuty_le (period : state.limitDuty.pulsePeriod ≠ 0) (duration : state.limitDuty.pulseDuration ≠ 0) :
    state.limitDuty.pulseDuration ≤ 1000 := by
  unfold limitDuty at *
  split
  · dsimp only
    split <;> omega
  · rename_i zero
    rw [if_neg zero] at period duration
    exact absurd ⟨period, duration⟩ zero

/-- Raising the period to ten times the on-window keeps the duty exactly where the period itself
does not wrap to less. -/
theorem duty_iff_unwrapped {window period : Nat} (some_ : 0 < window) (small : window ≤ 1000) :
    u32 (window * 1000) * 10 ≤ u32 ((if period < window * 10 then window * 10 else period) * 1000) ↔
      ∀ wraps > 0, period * 1000 < wraps * 4294967296 ∨ wraps * 4294967296 + window * 10000 ≤ period * 1000 := by
  unfold u32
  rw [Nat.mod_eq_of_lt (by omega)]
  split
  · rw [Nat.mod_eq_of_lt (by omega)]
    refine iff_of_true (by omega) fun wraps positive => ?_
    omega
  · constructor
    · intro duty wraps positive
      rcases Nat.lt_or_ge (period * 1000) (wraps * 4294967296) with less | more
      · exact .inl less
      · have least : wraps ≤ period * 1000 / 4294967296 := (Nat.le_div_iff_mul_le (by decide)).mpr more
        omega
    · intro unwrapped
      -- the number of wraps of the period itself
      have whole := unwrapped (period * 1000 / 4294967296)
      omega

theorem inDuty_limitDuty_iff (state : PulseState) :
    PulseWatch.InDuty state.limitDuty ↔ Unwrapped state.pulseDuration state.pulsePeriod := by
  unfold PulseWatch.InDuty Unwrapped limitDuty
  split
  · rename_i set
    obtain ⟨period, duration⟩ := set
    have window : (if state.pulseDuration > 1000 then 1000 else state.pulseDuration) =
        min state.pulseDuration 1000 := by
      split <;> omega
    simp only [window, onWindow, fullPeriod]
    rw [← duty_iff_unwrapped (by omega) (Nat.min_le_right _ _)]
    constructor
    · intro duty
      exact .inr (duty (by split <;> omega) (by omega))
    · rintro (none | duty) _ _
      · exact absurd none duration
      · exact duty
  · rename_i zero
    constructor
    · intro _
      by_cases duration : state.pulseDuration = 0
      · exact .inl duration
      · right
        intro wraps some_
        have period : state.pulsePeriod = 0 := by
          by_contra period
          exact zero ⟨period, duration⟩
        omega
    · intro _ period duration
      exact absurd ⟨period, duration⟩ zero

theorem elapsed_self (last : state.lastPulse = u32 now) : state.elapsed (u32 now) = 0 := by
  rw [elapsed, last]
  unfold u32
  omega

theorem elapsed_congr {other : PulseState} (last : other.lastPulse = state.lastPulse) :
    other.elapsed now = state.elapsed now := by
  rw [elapsed, elapsed, last]

/-- As long as the last pulse is not far back, the time since then grows with the time. -/
theorem elapsed_later {clock : Nat} (stored : state.lastPulse < 4294967296) (near : state.elapsed (u32 clock) < 1000000)
    (onward : clock ≤ now) (soon : now ≤ clock + 10000) :
    state.elapsed (u32 now) = state.elapsed (u32 clock) + (now - clock) := by
  unfold elapsed u32 at *
  omega

theorem onWindow_le (limited : state.pulseDuration ≤ 1000) : state.onWindow ≤ 1000000 := by
  unfold onWindow u32
  rw [Nat.mod_eq_of_lt (by omega)]
  omega

/-- A call leaves a register at zero alone, starts a pulse, or continues one. -/
theorem process_cases (now : Nat) (state : PulseState) :
    ((state.pulsePeriod = 0 ∨ state.pulseDuration = 0) ∧ state.process now = state) ∨
      (state.pulsePeriod ≠ 0 ∧ state.pulseDuration ≠ 0 ∧
        ((state.fullPeriod < state.elapsed now ∧
            state.process now = { state with lastPulse := now, pinPulse := 0 < state.onWindow }) ∨
          (state.elapsed now ≤ state.fullPeriod ∧ ∃ pinPulse, (pinPulse = true ↔ state.elapsed now < state.onWindow) ∧
            state.process now = { state with pinPulse }))) := by
  unfold process
  by_cases set : state.pulsePeriod ≠ 0 ∧ state.pulseDuration ≠ 0
  · right
    refine ⟨set.1, set.2, ?_⟩
    rw [if_pos set]
    by_cases late : state.elapsed now > state.fullPeriod
    · exact .inl ⟨late, if_pos late⟩
    · exact .inr ⟨Nat.le_of_not_gt late, _, decide_eq_true_iff, if_neg late⟩
  · left
    refine ⟨?_, if_neg set⟩
    by_contra neither
    exact set (not_or.mp neither)

end PulseState

namespace PulseWatch

variable {hasPin : Bool} {watch : PulseWatch}

/-- The duty is one of the registers alone. -/
theorem InDuty.congr {state other : PulseState} (duty : InDuty state)
    (duration : other.pulseDuration = state.pulseDuration) (period : other.pulsePeriod = state.pulsePeriod) :
    InDuty other := by
  unfold InDuty PulseState.onWindow PulseState.fullPeriod
  rw [duration, period]
  exact duty

/-- What the steps that keep the duty keep true. The pin has not been high for longer than
`pulse_delta` was at the last call. -/
structure Within (watch : PulseWatch) : Prop where
  duty : InDuty watch.state
  limited : watch.state.pulsePeriod ≠ 0 → watch.state.pulseDuration ≠ 0 → watch.state.pulseDuration ≤ 1000
  stored : watch.state.lastPulse < 4294967296
  high : watch.state.pinPulse = true → watch.since ≤ watch.clock ∧
    watch.clock - watch.since ≤ watch.state.elapsed (u32 watch.clock) ∧
      watch.state.elapsed (u32 watch.clock) < 1000000

theorem Within.init (hasPin : Bool) (start : Nat) : (PulseWatch.init hasPin start).Within := by
  cases hasPin with
  | false =>
    refine ⟨fun period => absurd rfl period, fun period => absurd rfl period, Nat.zero_lt_succ _, fun high => ?_⟩
    cases high
  | true =>
    refine ⟨fun _ _ => ?_, fun _ _ => ?_, ?_, fun _ => ⟨Nat.le_refl _, ?_⟩⟩
    · show u32 (600 * 1000) * 10 ≤ u32 (20000 * 1000)
      decide
    · show 600 ≤ 1000
      decide
    · simp only [PulseWatch.init, PulseState.init, if_true, u32]
      omega
    · simp only [PulseWatch.init, PulseState.init, if_true, PulseState.elapsed, u32]
      omega

/-- A write touches neither the pin nor the time of the last pulse. -/
theorem Within.limitDuty (within : watch.Within) {state : PulseState}
    (last : state.lastPulse = watch.state.lastPulse) (pin : state.pinPulse = watch.state.pinPulse)
    (unwrapped : Unwrapped state.pulseDuration state.pulsePeriod) :
    ({ watch with state := state.limitDuty } : PulseWatch).Within := by
  refine ⟨state.inDuty_limitDuty_iff.mpr unwrapped, PulseState.limitDuty_le, ?_, fun high => ?_⟩
  · rw [PulseState.limitDuty_lastPulse, last]
    exact within.stored
  · rw [PulseState.limitDuty_pinPulse, pin] at high
    simpa [PulseState.elapsed, last] using within.high high

theorem Within.process (within : watch.Within) {now : Nat} (timely : watch.Timely (.process now))
    (keeps : KeepsDuty watch (.process now)) : (watch.step hasPin (.process now)).Within := by
  obtain ⟨onward, soon⟩ := timely
  rcases watch.state.process_cases (u32 now) with
    ⟨zero, same⟩ | ⟨period, duration, ⟨late, starts⟩ | ⟨_, pinPulse, inside, goes⟩⟩
  · -- the pin is low here, and stays so
    rw [PulseWatch.step, same]
    refine ⟨within.duty, within.limited, within.stored, fun up => ?_⟩
    obtain ⟨period, duration, _⟩ := keeps up
    exact absurd zero (not_or.mpr ⟨period, duration⟩)
  · -- the pin is low here, so that the pulse is a new one
    have low : watch.state.pinPulse ≠ true := fun up => Nat.not_lt.mpr (keeps up).2.2 late
    rw [PulseWatch.step, starts, if_neg low]
    refine ⟨within.duty.congr rfl rfl, within.limited, Nat.mod_lt _ (Nat.zero_lt_succ _), fun _ => ⟨Nat.le_refl _, ?_⟩⟩
    rw [PulseState.elapsed_self rfl, Nat.sub_self]
    exact ⟨Nat.le_refl _, Nat.zero_lt_succ _⟩
  · rw [PulseWatch.step, goes]
    refine ⟨within.duty.congr rfl rfl, within.limited, within.stored, fun up => ?_⟩
    have small := inside.mp up
    have window := PulseState.onWindow_le (within.limited period duration)
    have same : ({ watch.state with pinPulse } : PulseState).elapsed (u32 now) = watch.state.elapsed (u32 now) :=
      PulseState.elapsed_congr rfl
    dsimp only
    rw [same]
    by_cases before : watch.state.pinPulse = true
    · obtain ⟨ordered, behind, near⟩ := within.high before
      have later := PulseState.elapsed_later within.stored near onward soon
      rw [if_pos before]
      omega
    · rw [if_neg before]
      omega

theorem Within.step (within : watch.Within) (step : PulseStep) (timely : watch.Timely step)
    (keeps : KeepsDuty watch step) : (watch.step hasPin step).Within := by
  cases step with
  | duration value =>
    cases hasPin with
    | false => exact within
    | true => exact within.limitDuty rfl rfl keeps
  | period value =>
    cases hasPin with
    | false => exact within
    | true => exact within.limitDuty rfl rfl keeps
  | process now => exact within.process timely keeps

theorem Within.short (within : watch.Within) : watch.Short := by
  intro now timely high
  obtain ⟨onward, soon⟩ := timely
  obtain ⟨ordered, behind, small⟩ := within.high high
  omega

end PulseWatch

theorem PulseRun.within {hasPin : Bool} (run : PulseRun hasPin KeepsDuty watch) : watch.Within := by
  induction run with
  | init start => exact .init hasPin start
  | step run step timely allowed ih => exact ih.step step timely allowed

/-- In a run whose steps all keep the duty, the pin is never high for longer than 1 second and the
interval between two calls, and the on-window that is compared is at most a tenth of the period. -/
theorem keep_on_pulse_bounded {hasPin : Bool} {watch : PulseWatch} (run : PulseRun hasPin KeepsDuty watch) :
    watch.Short ∧ PulseWatch.InDuty watch.state :=
  ⟨run.within.short, run.within.duty⟩

theorem keep_on_pulse_bounded_first :
    PulseRun true KeepsDuty ((PulseWatch.init true 0).step true (.process 10000)) ∧
    ((PulseWatch.init true 0).step true (.process 10000)).Short := by
  have run : PulseRun true KeepsDuty ((PulseWatch.init true 0).step true (.process 10000)) :=
    .step (.init 0) (.process 10000) ⟨by decide, by decide⟩ fun _ => by decide
  exact ⟨run, (keep_on_pulse_bounded run).1⟩

/-- Runs of any steps. -/
abbrev AnyPulseRun : PulseWatch → Prop := PulseRun true fun _ _ => True

/-- A register written to zero during a pulse leaves the pin high for ever. -/
theorem pulse_left_on (calls : Nat) :
    AnyPulseRun
      { state := { (PulseState.init true 0) with pulsePeriod := 0 }, clock := calls * 10000, since := 0 } := by
  induction calls with
  | zero => exact .step (.init 0) (.period 0) trivial trivial
  | succ calls ih =>
    have next := PulseRun.step ih (.process ((calls + 1) * 10000)) (by simp only [PulseWatch.Timely]; omega) trivial
    exact next

/-- Right after the start of a 1 ms pulse with a period of 10 ms. -/
def shortPulse (clock : Nat) : PulseWatch where
  state := { pulseDuration := 1, pulsePeriod := 10, lastPulse := u32 clock, pinPulse := true }
  clock := clock
  since := 0

/-- A call just before the end of the pulse, and one that comes 10 ms later. -/
theorem shortPulse_turn (clock : Nat) :
    (shortPulse clock).step true (.process (clock + 500)) = { shortPulse clock with clock := clock + 500 } ∧
      ({ shortPulse clock with clock := clock + 500 } : PulseWatch).step true (.process (clock + 10500)) =
        shortPulse (clock + 10500) := by
  have early : (shortPulse clock).state.elapsed (u32 (clock + 500)) = 500 := by
    unfold PulseState.elapsed shortPulse u32
    dsimp only
    omega
  have late : (shortPulse clock).state.elapsed (u32 (clock + 10500)) = 10500 := by
    unfold PulseState.elapsed shortPulse u32
    dsimp only
    omega
  have period : (shortPulse clock).state.fullPeriod = 10000 := by
    show u32 (10 * 1000) = 10000
    decide
  have window : (shortPulse clock).state.onWindow = 1000 := by
    show u32 (1 * 1000) = 1000
    decide
  constructor
  · rw [PulseWatch.step, PulseState.process, early, period, window]
    rfl
  · rw [PulseWatch.step, PulseState.process, late, period, window]
    rfl

/-- Such turns keep the pin high for ever. -/
theorem pulse_restarted (turns : Nat) : AnyPulseRun (shortPulse (10000 + turns * 10500)) := by
  induction turns with
  | zero =>
    have registers : AnyPulseRun (((PulseWatch.init true 0).step true (.duration 1)).step true (.period 10)) :=
      .step (.step (.init 0) (.duration 1) trivial trivial) (.period 10) trivial trivial
    have started := PulseRun.step registers (.process 10000) ⟨by decide, by decide⟩ trivial
    rwa [show (((PulseWatch.init true 0).step true (.duration 1)).step true (.period 10)).step true
      (.process 10000) = shortPulse (10000 + 0 * 10500) by decide] at started
  | succ turns ih =>
    obtain ⟨early, late⟩ := shortPulse_turn (10000 + turns * 10500)
    have middle := PulseRun.step ih (.process (10000 + turns * 10500 + 500))
      (by simp only [PulseWatch.Timely, shortPulse]; omega) trivial
    rw [early] at middle
    have again := PulseRun.step middle (.process (10000 + turns * 10500 + 10500))
      (by simp only [PulseWatch.Timely]; omega) trivial
    rw [late] at again
    rwa [Nat.succ_mul, ← Nat.add_assoc]

/-- A period that wraps, a register at zero, and an early end of a short period. -/
theorem keep_on_pulse_unbounded :
    (∃ watch, AnyPulseRun watch ∧ ¬ PulseWatch.InDuty watch.state) ∧
    (∃ watch, AnyPulseRun watch ∧ watch.state.pulsePeriod = 0 ∧ ¬ watch.Short) ∧
    ∃ watch, AnyPulseRun watch ∧ watch.state.pulsePeriod ≠ 0 ∧ PulseWatch.InDuty watch.state ∧ ¬ watch.Short := by
  refine ⟨⟨_, .step (.init 0) (.period 4294968) trivial trivial, by unfold PulseWatch.InDuty; decide⟩,
    ⟨_, pulse_left_on 101, rfl, ?_⟩, ⟨_, pulse_restarted 100, by decide, by unfold PulseWatch.InDuty; decide, ?_⟩⟩
  · intro short
    have bound := short 1010000 ⟨Nat.le_refl _, Nat.le_add_right _ _⟩ rfl
    exact absurd bound (by decide)
  · intro short
    have bound := short 1060000 ⟨Nat.le_refl _, Nat.le_add_right _ _⟩ rfl
    exact absurd bound (by decide)

end Jacdac
