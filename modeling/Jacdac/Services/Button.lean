import Mathlib.Data.List.Chain
import Jacdac.Time.Sample

/-! The button of `button.c`: its events over whole runs, against the presses of
the sampled line. The backlight is left out, and so are the readings that the
sensor code streams. -/

namespace Jacdac

inductive ButtonEvent where
  | down
  /-- With the milliseconds of the press, as the next one. -/
  | up (presslen : Nat)
  | hold (presslen : Nat)
  deriving DecidableEq, Repr

/-- A call of `button_process`: the time, and what `update` would read, from `is_active` as far as a
`uint8_t` holds it or from the pin. -/
structure ButtonSample where
  time : Nat
  active : UInt8
  deriving DecidableEq, Repr

structure ButtonState where
  pressed : UInt8
  prevPressed : UInt8
  nextHold : Nat
  pressTime : Nat
  nextSample : Nat
  deriving DecidableEq, Repr

namespace ButtonState

def alloc : ButtonState :=
  { pressed := 0, prevPressed := 0, nextHold := 0, pressTime := 0, nextSample := 0 }

/-- The first half of `update`: the line has changed. -/
def updateEdge (now : Nat) (state : ButtonState) : ButtonState × List ButtonEvent :=
  if state.pressed ≠ state.prevPressed then
    let state := { state with prevPressed := state.pressed }
    if state.pressed ≠ 0 then ({ state with pressTime := now, nextHold := 500000 }, [.down])
    else (state, [.up (u32 (now + 4294967296 - state.pressTime) / 1000)])
  else (state, [])

/-- The second half of `update`. -/
def updateHold (now : Nat) (state : ButtonState) : ButtonState × List ButtonEvent :=
  let presslen := u32 (now + 4294967296 - state.pressTime)
  if state.pressed ≠ 0 ∧ presslen ≥ state.nextHold then
    ({ state with nextHold := u32 (state.nextHold + 500000) }, [.hold (presslen / 1000)])
  else (state, [])

/-- `update`, with `is_active` or the pin read into the sample. -/
def update (sample : ButtonSample) (state : ButtonState) : ButtonState × List ButtonEvent :=
  let (state, edge) := { state with pressed := sample.active }.updateEdge (u32 sample.time)
  let (state, held) := state.updateHold (u32 sample.time)
  (state, edge ++ held)

/-- `button_process`; the flag is whether it calls `update`. -/
def process (sample : ButtonSample) (state : ButtonState) : Bool × ButtonState × List ButtonEvent :=
  let sampled := jdShouldSample (u32 sample.time) 9000 state.nextSample
  let state := { state with nextSample := sampled.2 }
  if sampled.1 then (true, state.update sample) else (false, state, [])

end ButtonState

/-- A press: the time of its first sample, the value read since then, and the `HOLD`s so far. -/
structure Press where
  start : Nat
  level : UInt8
  holds : Nat
  deriving DecidableEq, Repr

/-- Since when the samples have shown the same value, if it is not 0. -/
def heldSince (samples : List ButtonSample) : Option (Nat × UInt8) :=
  samples.foldl (fun held sample =>
    if sample.active = 0 then none
    else if held.map (·.2) = some sample.active then held
    else some (sample.time, sample.active)) none

theorem heldSince_concat (samples : List ButtonSample) (sample : ButtonSample) :
    heldSince (samples ++ [sample]) =
      if sample.active = 0 then none
      else if (heldSince samples).map (·.2) = some sample.active then heldSince samples
      else some (sample.time, sample.active) := by
  rw [heldSince, List.foldl_append]
  rfl

/-- When the next `HOLD` comes after so many. -/
@[irreducible] def halfSeconds (count : Nat) : Nat := 500000 * count

theorem halfSeconds_zero : halfSeconds 0 = 0 := by
  unfold halfSeconds
  rfl

theorem halfSeconds_succ (count : Nat) : halfSeconds (count + 1) = halfSeconds count + 500000 := by
  unfold halfSeconds
  exact Nat.mul_succ 500000 count

theorem halfSeconds_next (below : halfSeconds count < halfSeconds bound) : halfSeconds (count + 1) ≤ halfSeconds bound := by
  unfold halfSeconds at *
  omega

theorem halfSeconds_div (lower : halfSeconds count ≤ length) (upper : length < halfSeconds (count + 1)) :
    length / 500000 = count := by
  unfold halfSeconds at *
  omega

/-- From here on the next step of this ladder would leave `uint32_t`. -/
def longestPress : Nat := halfSeconds 8589

theorem longestPress_lt : longestPress + 400000 < 4294967296 := by
  unfold longestPress halfSeconds
  decide

/-- Runs of `button_init` and `button_process`: the samples that `update` saw,
and the events sent. Time does not go back, and no press is longer than
`longestPress` microseconds. -/
inductive ButtonRun : ButtonState → List ButtonSample → List ButtonEvent → Prop where
  | init (sample : ButtonSample) :
    ButtonRun (ButtonState.alloc.update sample).1 [sample] (ButtonState.alloc.update sample).2
  | idle (run : ButtonRun state samples events) (sample : ButtonSample)
      (processed : state.process sample = (false, next, sent)) : ButtonRun next samples (events ++ sent)
  | update (run : ButtonRun state samples events) (sample : ButtonSample)
      (onward : ∀ last, samples.getLast? = some last → last.time ≤ sample.time)
      (short : ∀ held, heldSince samples = some held → sample.time < held.1 + longestPress)
      (processed : state.process sample = (true, next, sent)) :
    ButtonRun next (samples ++ [sample]) (events ++ sent)

/-- The events that the samples call for, and the press that is open behind them: a `DOWN` at the first
sample of a press, a `HOLD` at the first one another half second later, an `UP` at the first one that
reads 0, where `HOLD` and `UP` tell the milliseconds since the first sample. A press also ends without
`UP` where the next sample reads another value than 0 or its own. -/
inductive ButtonLog : List ButtonSample → Option Press → List ButtonEvent → Prop where
  | nil : ButtonLog [] none []
  | idle (log : ButtonLog samples none events) (released : sample.active = 0) :
    ButtonLog (samples ++ [sample]) none events
  | down (log : ButtonLog samples press events) (pressed : sample.active ≠ 0)
      (changed : press.map (·.level) ≠ some sample.active) :
    ButtonLog (samples ++ [sample]) (some ⟨sample.time, sample.active, 0⟩) (events ++ [.down])
  | held (log : ButtonLog samples (some press) events) (same : sample.active = press.level)
      (early : sample.time < press.start + halfSeconds (press.holds + 1)) :
    ButtonLog (samples ++ [sample]) (some press) events
  | hold (log : ButtonLog samples (some press) events) (same : sample.active = press.level)
      (late : press.start + halfSeconds (press.holds + 1) ≤ sample.time) :
    ButtonLog (samples ++ [sample]) (some { press with holds := press.holds + 1 })
      (events ++ [.hold ((sample.time - press.start) / 1000)])
  | up (log : ButtonLog samples (some press) events) (released : sample.active = 0) :
    ButtonLog (samples ++ [sample]) none (events ++ [.up ((sample.time - press.start) / 1000)])

theorem ButtonLog.level (log : ButtonLog samples press events) : ∀ one, press = some one → one.level ≠ 0 := by
  induction log with
  | nil => exact nofun
  | idle => exact nofun
  | down log pressed =>
    rintro one ⟨⟩
    exact pressed
  | held log same early ih => exact ih
  | @hold _ press _ _ log same late ih =>
    rintro one ⟨⟩
    exact ih press rfl
  | up => exact nofun

/-- The open press is the one that the samples show. -/
theorem ButtonLog.heldSince_eq (log : ButtonLog samples press events) :
    heldSince samples = press.map fun press => (press.start, press.level) := by
  have shown (press : Option Press) :
      (press.map fun press => (press.start, press.level)).map (·.2) = press.map (·.level) := Option.map_map ..
  induction log with
  | nil => rfl
  | idle log released ih => rw [heldSince_concat, if_pos released]; rfl
  | down log pressed changed ih =>
    rw [heldSince_concat, if_neg pressed, ih, shown, if_neg changed]
    rfl
  | @held _ press _ sample log same early ih =>
    have still : (some press).map (·.level) = some sample.active := congrArg some same.symm
    rw [heldSince_concat, if_neg (same ▸ log.level _ rfl), ih, shown, if_pos still]
  | @hold _ press _ sample log same late ih =>
    have still : (some press).map (·.level) = some sample.active := congrArg some same.symm
    rw [heldSince_concat, if_neg (same ▸ log.level _ rfl), ih, shown, if_pos still]
    rfl
  | up log released ih => rw [heldSince_concat, if_pos released]; rfl

/-- Samples less than half a second apart. -/
def Prompt (samples : List ButtonSample) : Prop :=
  samples.IsChain fun sample later => later.time < sample.time + 500000

theorem Prompt.init {samples : List ButtonSample} {sample : ButtonSample} (prompt : Prompt (samples ++ [sample])) :
    Prompt samples ∧ ∀ last, samples.getLast? = some last → sample.time < last.time + 500000 := by
  unfold Prompt at prompt
  rw [List.isChain_append] at prompt
  exact ⟨prompt.1, fun last final => prompt.2.2 last final sample rfl⟩

/-- What `update` keeps: `press_time` and `next_hold` stand for the present press
and its `HOLD` events so far. -/
structure ButtonHolds (state : ButtonState) (samples : List ButtonSample) (events : List ButtonEvent)
    (press : Option Press) : Prop where
  log : ButtonLog samples press events
  shown : state.pressed = (press.map (·.level)).getD 0 ∧ state.prevPressed = state.pressed
  since : ∀ one, press = some one → state.pressTime = u32 one.start ∧
    state.nextHold = halfSeconds (one.holds + 1) ∧ halfSeconds (one.holds + 1) ≤ longestPress
  seen : ∀ one last, press = some one → samples.getLast? = some last → one.start + halfSeconds one.holds ≤ last.time
  prompt : Prompt samples → ∀ one last, press = some one → samples.getLast? = some last →
    last.time < one.start + halfSeconds (one.holds + 1)
  begun : samples ≠ []

namespace ButtonState

variable {state : ButtonState} {sample : ButtonSample} {since : Nat}

/-- A released button that stays so. -/
theorem update_quiet (quiet : sample.active = 0) (released : state.prevPressed = 0) :
    state.update sample = ({ state with pressed := 0 }, []) := by
  simp [update, updateEdge, updateHold, quiet, released]

/-- The first half second of a press is not over yet. -/
theorem update_down (active : sample.active ≠ 0) (changed : sample.active ≠ state.prevPressed) :
    state.update sample = ({ state with
      pressed := sample.active, prevPressed := sample.active, pressTime := u32 sample.time, nextHold := 500000 },
      [.down]) := by
  have none : u32 4294967296 = 0 := rfl
  simp [update, updateEdge, updateHold, active, changed, none]

theorem update_up (quiet : sample.active = 0) (held : state.prevPressed ≠ 0) (start : state.pressTime = u32 since)
    (onward : since ≤ sample.time) (short : sample.time < since + longestPress) :
    state.update sample = ({ state with pressed := 0, prevPressed := 0 }, [.up ((sample.time - since) / 1000)]) := by
  have length : u32 (u32 sample.time + 4294967296 - u32 since) = sample.time - since := by
    have bound := longestPress_lt
    unfold u32
    omega
  simp [update, updateEdge, updateHold, quiet, held.symm, start, length]

theorem update_held (active : sample.active ≠ 0) (held : state.prevPressed = sample.active)
    (start : state.pressTime = u32 since) (onward : since ≤ sample.time) (short : sample.time < since + longestPress) :
    state.update sample =
      if since + state.nextHold ≤ sample.time then
        ({ state with pressed := sample.active, nextHold := u32 (state.nextHold + 500000) },
          [.hold ((sample.time - since) / 1000)])
      else ({ state with pressed := sample.active }, []) := by
  have length : u32 (u32 sample.time + 4294967296 - u32 since) = sample.time - since := by
    have bound := longestPress_lt
    unfold u32
    omega
  have reached : state.nextHold ≤ sample.time - since ↔ since + state.nextHold ≤ sample.time := by omega
  by_cases late : since + state.nextHold ≤ sample.time
  · simp [update, updateEdge, updateHold, active, held, start, length, reached, late]
  · simp [update, updateEdge, updateHold, active, held, start, length, reached, late]

end ButtonState

namespace ButtonHolds

variable {state : ButtonState} {samples : List ButtonSample} {events : List ButtonEvent} {press : Option Press}
  {sample : ButtonSample}

theorem down (log : ButtonLog samples press events) (active : sample.active ≠ 0)
    (shown : state.prevPressed = (press.map (·.level)).getD 0) (changed : press.map (·.level) ≠ some sample.active) :
    ButtonHolds (state.update sample).1 (samples ++ [sample]) (events ++ (state.update sample).2)
      (some ⟨sample.time, sample.active, 0⟩) := by
  have other : sample.active ≠ state.prevPressed := by
    rw [shown]
    cases press with
    | none => exact active
    | some one => exact fun same => changed (congrArg some same.symm)
  have first : halfSeconds 1 = 500000 := by rw [halfSeconds_succ, halfSeconds_zero]
  rw [ButtonState.update_down active other]
  refine ⟨.down log active changed, ⟨rfl, rfl⟩, ?_, ?_, ?_, by simp⟩
  · rintro one ⟨⟩
    exact ⟨rfl, first.symm, halfSeconds_next (by rw [halfSeconds_zero]; decide +kernel)⟩
  · rintro one last ⟨⟩ final
    obtain rfl : sample = last := by simpa using final
    exact Nat.le_of_eq (congrArg (sample.time + ·) halfSeconds_zero)
  · rintro _ one last ⟨⟩ final
    obtain rfl : sample = last := by simpa using final
    change sample.time < sample.time + halfSeconds 1
    omega

theorem quiet (log : ButtonLog (samples ++ [sample]) none events) (shown : state.pressed = 0 ∧ state.prevPressed = 0) :
    ButtonHolds state (samples ++ [sample]) events none where
  log := log
  shown := ⟨shown.1, shown.2.trans shown.1.symm⟩
  since := nofun
  seen := nofun
  prompt := nofun
  begun := by simp

theorem init (sample : ButtonSample) :
    ∃ press, ButtonHolds (ButtonState.alloc.update sample).1 [sample] (ButtonState.alloc.update sample).2 press := by
  by_cases active : sample.active = 0
  · rw [ButtonState.update_quiet active rfl]
    exact ⟨none, quiet (.idle .nil active) ⟨rfl, rfl⟩⟩
  · exact ⟨_, down .nil active rfl nofun⟩

theorem update (kept : ButtonHolds state samples events press)
    (onward : ∀ last, samples.getLast? = some last → last.time ≤ sample.time)
    (short : ∀ held, heldSince samples = some held → sample.time < held.1 + longestPress) :
    ∃ press, ButtonHolds (state.update sample).1 (samples ++ [sample]) (events ++ (state.update sample).2) press := by
  obtain ⟨last, final⟩ : ∃ last, samples.getLast? = some last := by
    cases atEnd : samples.getLast? with
    | none => exact absurd (List.getLast?_eq_none_iff.mp atEnd) kept.begun
    | some last => exact ⟨last, rfl⟩
  have later := onward last final
  have log := kept.log
  have level : state.prevPressed = (press.map (·.level)).getD 0 := kept.shown.2.trans kept.shown.1
  rw [log.heldSince_eq] at short
  cases press with
  | none =>
    by_cases active : sample.active = 0
    · rw [ButtonState.update_quiet active level, List.append_nil]
      exact ⟨none, quiet (.idle log active) ⟨rfl, level⟩⟩
    · exact ⟨_, down log active level nofun⟩
  | some press =>
    obtain ⟨pressTime, nextHold, few⟩ := kept.since press rfl
    have seen := kept.seen press last rfl final
    have brief : sample.time < press.start + longestPress := short _ rfl
    have level : state.prevPressed = press.level := level
    have done : press.start ≤ sample.time := by omega
    by_cases released : sample.active = 0
    · rw [ButtonState.update_up released (level ▸ log.level press rfl) pressTime done brief]
      exact ⟨none, quiet (.up log released) ⟨rfl, rfl⟩⟩
    by_cases same : sample.active = press.level
    · rw [ButtonState.update_held released (level.trans same.symm) pressTime done brief, nextHold]
      by_cases late : press.start + halfSeconds (press.holds + 1) ≤ sample.time
      · rw [if_pos late]
        have below : halfSeconds (press.holds + 1) < longestPress :=
          Nat.lt_of_add_lt_add_left (Nat.lt_of_le_of_lt late brief)
        have next : halfSeconds (press.holds + 1 + 1) ≤ longestPress := halfSeconds_next below
        have rung := halfSeconds_succ (press.holds + 1)
        refine ⟨_, .hold log same late, ⟨same, level.trans same.symm⟩, ?_, ?_, ?_, by simp⟩
        · rintro one ⟨⟩
          have bound := longestPress_lt
          have fits : halfSeconds (press.holds + 1) + 500000 < 4294967296 := by omega
          exact ⟨pressTime, (u32_of_lt fits).trans rung.symm, next⟩
        · rintro one final' ⟨⟩ atEnd
          obtain rfl : sample = final' := by simpa using atEnd
          exact late
        · rintro prompt one final' ⟨⟩ atEnd
          obtain rfl : sample = final' := by simpa using atEnd
          obtain ⟨earlier, gap⟩ := prompt.init
          have bound := kept.prompt earlier press last rfl final
          have near := gap last final
          show sample.time < press.start + halfSeconds (press.holds + 1 + 1)
          omega
      · rw [if_neg late, List.append_nil]
        refine ⟨some press, .held log same (by omega), ⟨same, level.trans same.symm⟩, ?_, ?_, ?_, by simp⟩
        · rintro one ⟨⟩
          exact ⟨pressTime, rfl, few⟩
        · rintro one final' ⟨⟩ atEnd
          obtain rfl : sample = final' := by simpa using atEnd
          omega
        · rintro _ one final' ⟨⟩ atEnd
          obtain rfl : sample = final' := by simpa using atEnd
          omega
    · exact ⟨_, down log released level fun other => same (Option.some.inj other).symm⟩

end ButtonHolds

theorem ButtonState.process_cases {state : ButtonState} (sample : ButtonSample) :
    ∃ sampled, sampled = { state with nextSample := (jdShouldSample (u32 sample.time) 9000 state.nextSample).2 } ∧
      (state.process sample = (true, sampled.update sample) ∨ state.process sample = (false, sampled, [])) := by
  refine ⟨_, rfl, ?_⟩
  unfold ButtonState.process
  dsimp only
  split
  · exact .inl rfl
  · exact .inr rfl

theorem ButtonRun.holds (run : ButtonRun state samples events) : ∃ press, ButtonHolds state samples events press := by
  induction run with
  | init sample => exact ButtonHolds.init sample
  | @idle state samples events next sent _ sample processed ih =>
    obtain ⟨press, kept⟩ := ih
    obtain ⟨sampled, rfl, updated | skipped⟩ := state.process_cases sample
    · cases updated.symm.trans processed
    · cases skipped.symm.trans processed
      rw [List.append_nil]
      exact ⟨press, kept.log, kept.shown, kept.since, kept.seen, kept.prompt, kept.begun⟩
  | @update state samples events next sent _ sample onward short processed ih =>
    obtain ⟨press, kept⟩ := ih
    obtain ⟨sampled, rfl, updated | skipped⟩ := state.process_cases sample
    · have result := updated.symm.trans processed
      cases result
      have sampled : ButtonHolds
          { state with nextSample := (jdShouldSample (u32 sample.time) 9000 state.nextSample).2 } samples events press :=
        ⟨kept.log, kept.shown, kept.since, kept.seen, kept.prompt, kept.begun⟩
      exact sampled.update onward short
    · cases skipped.symm.trans processed

/-- The events of every run are those that the samples call for, with the milliseconds since the first sample of the
press; what is open now is the press that the samples show. If the samples are less than half a second apart, no `HOLD`
is missing. -/
theorem button_events (run : ButtonRun state samples events) :
    ∃ press, ButtonLog samples press events ∧
      heldSince samples = press.map (fun press => (press.start, press.level)) ∧
      state.pressed = (press.map (·.level)).getD 0 ∧
      (Prompt samples → ∀ one last, press = some one → samples.getLast? = some last →
        one.holds = (last.time - one.start) / 500000) := by
  obtain ⟨press, kept⟩ := run.holds
  refine ⟨press, kept.log, kept.log.heldSince_eq, kept.shown.1, fun prompt one last since final => ?_⟩
  have lower := kept.seen one last since final
  have upper := kept.prompt prompt one last since final
  exact (halfSeconds_div (by omega) (by omega)).symm

/-- Half a second into a press: one `HOLD`. -/
theorem button_events_hold :
    ∃ (state : ButtonState) (press : Press),
      ButtonLog [⟨0, 0⟩, ⟨10000, 1⟩, ⟨510000, 1⟩] (some press) [.down, .hold 500] ∧ press.start = 10000 ∧
        state.pressed = press.level := by
  have start : ButtonRun .alloc [⟨0, 0⟩] [] := .init ⟨0, 0⟩
  have pressed : ButtonRun ⟨1, 1, 500000, 10000, 19000⟩ [⟨0, 0⟩, ⟨10000, 1⟩] [.down] :=
    start.update ⟨10000, 1⟩ (by simp) (by simp [heldSince]) (by decide)
  have brief (held : Nat × UInt8) (same : some (10000, 1) = some held) : 510000 < held.1 + longestPress := by
    obtain rfl := Option.some.inj same
    decide +kernel
  have held := pressed.update ⟨510000, 1⟩ (by simp) brief
    (show _ = (true, ⟨1, 1, 1000000, 10000, 519000⟩, [.hold 500]) by decide)
  obtain ⟨press, log, since, shown, _⟩ := button_events held
  cases press with
  | none => cases since
  | some press => exact ⟨_, press, log, (Prod.mk.inj (Option.some.inj since)).1.symm, shown⟩

end Jacdac
