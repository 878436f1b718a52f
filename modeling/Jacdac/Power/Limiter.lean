import Jacdac.Pipe.Output

/-! The power service of `power.c`: the status machine and the current limiter.
The LED, the keep-on pulse and the watchdog's own pulse drive other outputs and
are left out. -/

namespace Jacdac

/-- The `JD_POWER_POWER_STATUS_*` values. -/
inductive PowerStatus where
  | disallowed
  | powering
  | overload
  | overprovision
  deriving DecidableEq, Repr

/-- The used fields of `power_config_t`; `zeroStatus` is the status whose code is 0. -/
structure PowerConfig where
  enActiveHigh : Nat
  faultIgnoreMs : Nat
  zeroStatus : PowerStatus

structure PowerState where
  allowed : Nat
  powerStatus : PowerStatus
  prevPowerStatus : PowerStatus
  nextShutdown : Nat
  powerSwitchTime : Nat
  powerOnComplete : Nat
  reEnable : Nat
  /-- What the last `set_limiter` switched to. -/
  limiter : Bool
  /-- The level of `pin_en`. -/
  pinEn : Bool
  deriving DecidableEq, Repr

/-- What a call reads from outside: the time, the pins in the order they are
read, and what `jd_random_around` returns for `re_enable` and `next_shutdown`. -/
structure PowerInputs where
  now : Nat
  hasPower : Bool
  watchdogFault : Bool
  pinFault : Bool
  enableRandom : Nat
  shutdownRandom : Nat

/-- `HW_WATCHDOG()`. -/
def PowerConfig.hwWatchdog (config : PowerConfig) : Bool := config.enActiveHigh == 3

/-- The time `MS` of that many milliseconds. -/
def powerMs (milliseconds : Nat) : Nat := milliseconds * 1024

namespace PowerState

def setLimiter (config : PowerConfig) (state : PowerState) : PowerState :=
  let onoff : Bool := state.powerStatus = .powering
  if config.hwWatchdog then state
  else if config.enActiveHigh = 2 then { state with limiter := onoff, pinEn := !onoff }
  else { state with limiter := onoff, pinEn := if config.enActiveHigh ≠ 0 then onoff else !onoff }

/-- The check of the detect pin at the top of `power_process`. -/
def detect (hasPower : Bool) (state : PowerState) : PowerState :=
  if !hasPower then
    if state.powerStatus = .powering then { state with powerStatus := .disallowed } else state
  else if state.allowed ≠ 0 ∧ state.powerStatus = .disallowed then { state with powerStatus := .powering }
  else state

/-- The middle of `power_process`; the flag says that it returns here. -/
def switch (config : PowerConfig) (inputs : PowerInputs) (state : PowerState) : Bool × PowerState :=
  if state.powerStatus = .powering then
    if state.prevPowerStatus = .powering then
      if !inputs.pinFault then
        (false, { state with
          powerStatus := .overload
          reEnable := u32 (inputs.now + inputs.enableRandom) }.setLimiter config)
      else (false, state)
    else if state.powerOnComplete = 0 then
      let ramp := u32 (inputs.now + powerMs (if config.faultIgnoreMs ≠ 0 then config.faultIgnoreMs else 16))
      (true, { state.setLimiter config with powerOnComplete := if ramp = 0 then 1 else ramp })
    else (inFuture inputs.now state.powerOnComplete, state)
  else if state.prevPowerStatus ≠ state.powerStatus then (false, state.setLimiter config)
  else (false, state)

/-- The end of `power_process`, from the reset of `power_on_complete` on. -/
def settle (inputs : PowerInputs) (state : PowerState) : PowerState :=
  let state := { state with powerOnComplete := 0, prevPowerStatus := state.powerStatus }
  if inPast inputs.now state.nextShutdown then
    { state with nextShutdown := u32 (inputs.now + inputs.shutdownRandom) }
  else if state.allowed = 0 then state
  else if (state.powerStatus ≠ .powering ∧ inPast inputs.now state.reEnable) ∨
      (state.powerStatus = .overprovision ∧ inPast inputs.now state.powerSwitchTime) then
    { state with
      reEnable := u32 (inputs.now + powerMs (128 * 1024))
      powerStatus := .powering
      nextShutdown := inputs.now }
  else state

def powerProcess (config : PowerConfig) (inputs : PowerInputs) (state : PowerState) : PowerState :=
  let state := state.detect inputs.hasPower
  let state :=
    if config.hwWatchdog ∧ state.powerStatus = .overload ∧ inputs.watchdogFault then
      { state with powerStatus := .powering }
    else state
  let (returned, state) := state.switch config inputs
  if returned then state else state.settle inputs

/-- A write of the `ALLOWED` register. -/
def setAllowed (allowed : Nat) (state : PowerState) : PowerState :=
  { state with allowed, powerStatus := if allowed ≠ 0 then .powering else .disallowed }

/-- A `SHUTDOWN` command; `pending` is `shutdown_pending`. -/
def shutdown (now : Nat) (loopback pending : Bool) (switchRandom enableRandom : Nat) (state : PowerState) :
    PowerState :=
  if loopback then state
  else
    let state :=
      if (state.powerStatus = .powering ∨ state.powerStatus = .overload) ∧ !pending ∧
          state.powerOnComplete = 0 then
        { state with powerStatus := .overprovision, powerSwitchTime := u32 (now + switchRandom) }
      else state
    { state with reEnable := u32 (now + powerMs 1024 + enableRandom) }

/-- `power_init` on a zeroed state. -/
def init (config : PowerConfig) (now random : Nat) : PowerState :=
  let state : PowerState :=
    { allowed := 0, powerStatus := .powering, prevPowerStatus := config.zeroStatus, nextShutdown := 0,
      powerSwitchTime := 0, powerOnComplete := 0, reEnable := 0, limiter := false, pinEn := false }
  { state.setLimiter config with nextShutdown := u32 (now + random), allowed := 1 }

end PowerState

/-- Runs of the power service, with whether `power_process` was called yet and
the condition that its calls met. -/
inductive PowerRun (config : PowerConfig) : PowerState → Bool → Prop → Prop where
  | init (now random : Nat) : PowerRun config (.init config now random) false True
  | allowed (run : PowerRun config state started met) (value : Nat) :
    PowerRun config (state.setAllowed value) started met
  | shutdown (run : PowerRun config state started met) (now : Nat) (loopback pending : Bool)
      (switchRandom enableRandom : Nat) :
    PowerRun config (state.shutdown now loopback pending switchRandom enableRandom) started met
  | process (run : PowerRun config state started met) (inputs : PowerInputs) :
    PowerRun config (state.powerProcess config inputs) true
      (met ∧ ¬ ((started = false ∨ state.powerOnComplete ≠ 0) ∧
        (state.detect inputs.hasPower).powerStatus ≠ .powering ∧
        (state.detect inputs.hasPower).powerStatus = state.prevPowerStatus))

namespace PowerState

/-- The limiter is on for one of the reasons the code keeps track of. -/
def Tracked (started : Bool) (state : PowerState) : Prop :=
  state.limiter = true → state.prevPowerStatus = .powering ∨ state.powerOnComplete ≠ 0 ∨ started = false

/-- The limiter is on only while the status is powering. -/
def Agrees (state : PowerState) : Prop := state.limiter = true → state.powerStatus = .powering

variable {config : PowerConfig} {state : PowerState}

/-- The guard against a ramp-up that would end at time 0. -/
private theorem rampEnd_ne_zero (ramp : Nat) : (if ramp = 0 then 1 else ramp) ≠ 0 := by
  split
  · exact Nat.one_ne_zero
  · assumption

theorem hwWatchdog_of_le (bound : config.enActiveHigh ≤ 2) : config.hwWatchdog = false := by
  simp only [PowerConfig.hwWatchdog, beq_eq_false_iff_ne, ne_eq]
  omega

theorem setLimiter_limiter (bound : config.enActiveHigh ≤ 2) (state : PowerState) :
    (state.setLimiter config).limiter = decide (state.powerStatus = .powering) := by
  simp only [setLimiter, hwWatchdog_of_le bound, Bool.false_eq_true, if_false]
  split <;> rfl

@[simp] theorem setLimiter_powerStatus (config : PowerConfig) (state : PowerState) :
    (state.setLimiter config).powerStatus = state.powerStatus := by
  unfold setLimiter
  split
  · rfl
  · split <;> rfl

@[simp] theorem detect_prevPowerStatus (hasPower : Bool) (state : PowerState) :
    (state.detect hasPower).prevPowerStatus = state.prevPowerStatus := by
  unfold detect
  split <;> split <;> rfl

@[simp] theorem detect_powerOnComplete (hasPower : Bool) (state : PowerState) :
    (state.detect hasPower).powerOnComplete = state.powerOnComplete := by
  unfold detect
  split <;> split <;> rfl

@[simp] theorem detect_limiter (hasPower : Bool) (state : PowerState) :
    (state.detect hasPower).limiter = state.limiter := by
  unfold detect
  split <;> split <;> rfl

@[simp] theorem settle_limiter (inputs : PowerInputs) (state : PowerState) :
    (state.settle inputs).limiter = state.limiter := by
  simp only [settle]
  split
  · rfl
  · split
    · rfl
    · split <;> rfl

@[simp] theorem settle_prevPowerStatus (inputs : PowerInputs) (state : PowerState) :
    (state.settle inputs).prevPowerStatus = state.powerStatus := by
  simp only [settle]
  split
  · rfl
  · split
    · rfl
    · split <;> rfl

/-- The end of a call either keeps the status or switches it to powering. -/
theorem settle_powerStatus (inputs : PowerInputs) (state : PowerState) :
    (state.settle inputs).powerStatus = state.powerStatus ∨ (state.settle inputs).powerStatus = .powering := by
  simp only [settle]
  split
  · exact .inl rfl
  · split
    · exact .inl rfl
    · split
      · exact .inr rfl
      · exact .inl rfl

/-- A settled state has its previous status, so both properties follow from
the agreement before it. -/
theorem Agrees.settle (agrees : state.Agrees) (inputs : PowerInputs) :
    (state.settle inputs).Agrees ∧ (state.settle inputs).Tracked true := by
  constructor
  · intro on
    rw [settle_limiter] at on
    rcases settle_powerStatus inputs state with kept | powering
    · rw [kept, agrees on]
    · exact powering
  · intro on
    rw [settle_limiter] at on
    exact .inl (by rw [settle_prevPowerStatus, agrees on])

/-- What the middle of a call leaves: either it goes on to the end with the
limiter agreeing, or it returns in a ramp-up with the status powering. -/
theorem switch_agrees (bound : config.enActiveHigh ≤ 2) (inputs : PowerInputs)
    (tracked : state.limiter = true → state.powerStatus ≠ .powering → state.powerStatus ≠ state.prevPowerStatus) :
    (state.switch config inputs).2.Agrees ∧
      ((state.switch config inputs).1 = true → (state.switch config inputs).2.powerOnComplete ≠ 0) := by
  unfold switch
  by_cases powering : state.powerStatus = .powering
  · rw [if_pos powering]
    by_cases steady : state.prevPowerStatus = .powering
    · rw [if_pos steady]
      split
      · refine ⟨fun on => ?_, by simp⟩
        simp [setLimiter_limiter bound] at on
      · exact ⟨fun _ => powering, by simp⟩
    · rw [if_neg steady]
      by_cases fresh : state.powerOnComplete = 0
      · rw [if_pos fresh]
        refine ⟨fun _ => by simpa using powering, fun _ => ?_⟩
        exact rampEnd_ne_zero _
      · rw [if_neg fresh]
        exact ⟨fun _ => powering, fun _ => fresh⟩
  · rw [if_neg powering]
    by_cases changed : state.prevPowerStatus ≠ state.powerStatus
    · rw [if_pos changed]
      refine ⟨fun on => ?_, by simp⟩
      simp [setLimiter_limiter bound, powering] at on
    · rw [if_neg changed]
      -- nothing is switched here: the limiter was off already
      refine ⟨fun on => absurd (not_not.mp changed).symm (tracked on powering), by simp⟩

theorem Tracked.powerProcess (bound : config.enActiveHigh ≤ 2) {started : Bool} (tracked : state.Tracked started)
    (inputs : PowerInputs)
    (seen : ¬ ((started = false ∨ state.powerOnComplete ≠ 0) ∧
      (state.detect inputs.hasPower).powerStatus ≠ .powering ∧
      (state.detect inputs.hasPower).powerStatus = state.prevPowerStatus)) :
    (state.powerProcess config inputs).Agrees ∧ (state.powerProcess config inputs).Tracked true := by
  have noticed : (state.detect inputs.hasPower).limiter = true → (state.detect inputs.hasPower).powerStatus ≠ .powering →
      (state.detect inputs.hasPower).powerStatus ≠ (state.detect inputs.hasPower).prevPowerStatus := by
    intro on idle unchanged
    rw [detect_prevPowerStatus] at unchanged
    rw [detect_limiter] at on
    rcases tracked on with powering | ramping | first
    · exact idle (unchanged.trans powering)
    · exact seen ⟨.inr ramping, idle, unchanged⟩
    · exact seen ⟨.inl first, idle, unchanged⟩
  have middle := switch_agrees bound inputs noticed
  unfold PowerState.powerProcess
  simp only [hwWatchdog_of_le bound, Bool.false_eq_true, false_and, if_false]
  split
  · rename_i returned
    exact ⟨middle.1, fun _ => .inr (.inl (middle.2 returned))⟩
  · exact middle.1.settle inputs

theorem Tracked.of_frame {other : PowerState} {started : Bool} (tracked : state.Tracked started)
    (limiter : other.limiter = state.limiter) (previous : other.prevPowerStatus = state.prevPowerStatus)
    (complete : other.powerOnComplete = state.powerOnComplete) : other.Tracked started := by
  intro on
  rw [previous, complete]
  exact tracked (limiter ▸ on)

end PowerState

/-- The bookkeeping holds along every run whose calls met the condition. -/
theorem PowerRun.tracked {config : PowerConfig} (bound : config.enActiveHigh ≤ 2)
    (run : PowerRun config state started met) (good : met) : state.Tracked started := by
  induction run with
  | init now random => exact fun _ => .inr (.inr rfl)
  | allowed run value ih => exact (ih good).of_frame rfl rfl rfl
  | shutdown run now loopback pending switchRandom enableRandom ih =>
    apply (ih good).of_frame <;>
    · unfold PowerState.shutdown
      split
      · rfl
      · dsimp only
        split <;> rfl
  | process run inputs ih => exact ((ih good.1).powerProcess bound inputs good.2).2

/-- In a run whose calls of `power_process` never find, during a ramp-up, the
status back at the previous one, the limiter is on after a call only if the
status is powering. -/
theorem limiter_follows_status {config : PowerConfig} (bound : config.enActiveHigh ≤ 2)
    {state : PowerState} {started : Bool} {met : Prop} (run : PowerRun config state started met) (good : met)
    (inputs : PowerInputs)
    (seen : ¬ ((started = false ∨ state.powerOnComplete ≠ 0) ∧
      (state.detect inputs.hasPower).powerStatus ≠ .powering ∧
      (state.detect inputs.hasPower).powerStatus = state.prevPowerStatus)) :
    (state.powerProcess config inputs).limiter = true →
      (state.powerProcess config inputs).powerStatus = .powering :=
  ((run.tracked bound good).powerProcess bound inputs seen).1

def activeHigh : PowerConfig := { enActiveHigh := 1, faultIgnoreMs := 16, zeroStatus := .disallowed }

/-- A call that finds the power present and no fault. -/
def quiet (now : Nat) : PowerInputs :=
  { now, hasPower := true, watchdogFault := false, pinFault := true, enableRandom := 7000000, shutdownRandom := 500000 }

/-- Power comes up, a fault turns it off, and after the overload it is turned on again. -/
theorem limiter_follows_status_first :
    let up := ((PowerState.init activeHigh 0 100000).powerProcess activeHigh (quiet 1)).powerProcess
      activeHigh (quiet 20000)
    let fault := up.powerProcess activeHigh { quiet 20001 with pinFault := false }
    let overload := (fault.powerProcess activeHigh (quiet 8000000)).powerProcess activeHigh (quiet 8000001)
    up.limiter = true ∧ fault.limiter = false ∧ fault.powerStatus = .overload ∧
      (overload.powerProcess activeHigh (quiet 8000002)).limiter = true ∧
      (overload.powerProcess activeHigh (quiet 8000002)).powerStatus = .powering := by
  intro up fault overload
  have run := PowerRun.process (.process (.process (.process (.process
    (PowerRun.init 0 100000 : PowerRun activeHigh _ _ _) (quiet 1)) (quiet 20000))
    { quiet 20001 with pinFault := false }) (quiet 8000000)) (quiet 8000001)
  have on : (overload.powerProcess activeHigh (quiet 8000002)).limiter = true := by decide
  exact ⟨by decide, by decide, by decide, on, limiter_follows_status (by decide) run
    ⟨⟨⟨⟨⟨trivial, by decide⟩, by decide⟩, by decide⟩, by decide⟩, by decide⟩ (quiet 8000002) (by decide) on⟩

/-- Power is up, forbidden, allowed again and forbidden during the ramp-up: the
status is back at the previous one and the limiter stays on. -/
theorem limiter_left_on :
    let up := ((PowerState.init activeHigh 0 100000).powerProcess activeHigh (quiet 1)).powerProcess
      activeHigh (quiet 20000)
    let down := (up.setAllowed 0).powerProcess activeHigh (quiet 20001)
    let ramping := (down.setAllowed 1).powerProcess activeHigh (quiet 20002)
    let last := (ramping.setAllowed 0).powerProcess activeHigh (quiet 20003)
    (∃ met, PowerRun activeHigh last true met) ∧ down.limiter = false ∧ ramping.limiter = true ∧
      last.limiter = true ∧ last.powerStatus = .disallowed := by
  intro up down ramping last
  have run := PowerRun.process (.allowed (.process (.allowed (.process (.allowed (.process (.process
    (PowerRun.init 0 100000 : PowerRun activeHigh _ _ _) (quiet 1)) (quiet 20000)) 0) (quiet 20001)) 1) (quiet 20002)) 0)
    (quiet 20003)
  exact ⟨⟨_, run⟩, by decide, by decide, by decide, by decide⟩

end Jacdac
