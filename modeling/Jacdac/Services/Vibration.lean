import Jacdac.Base.Machine
import Jacdac.Services.ReplySizes
import Jacdac.Time.Sample

/-! The vibration motor of `vibrationmotor.c`: a sequence of steps, each of which may take several
calls of the motor. -/

namespace Jacdac

/-- `jd_vibration_motor_vibrate_t`. -/
structure VibrateStep where
  duration : UInt8
  intensity : UInt8
  deriving DecidableEq

/-- The parts of `vibration_motor_api_t` and of the specification that the service uses. -/
structure VibrationSpec extends ServiceSpec where
  cmdVibrate : Nat
  maxDuration : Int

/-- What the service calls; `write_amplitude` with its result. -/
inductive VibrationCall where
  | writeAmplitude (amplitude : UInt8) (durationMs : Nat) (result : Int)
  | jdSend (packet : Packet)
  deriving DecidableEq

/-- The number of slots in `sequence`. -/
def vibrationSlots : Nat := 118

/-- `srv_state`; from slot 118 on `sequence` is the memory behind it. -/
structure VibrationState where
  nextSample : Nat
  idx : UInt8
  sequence : Nat → VibrateStep

namespace VibrationState

/-- The longest duration of a call. -/
def playable (spec : VibrationSpec) (curr : VibrateStep) : Nat :=
  let maxdur := spec.maxDuration.tdiv 8
  let dur : Int := curr.duration.toNat
  (if dur > maxdur then maxdur else dur).toNat

/-- The next step of the sequence in `vibration_process`; `result` is what `write_amplitude` returns
where it is called. -/
def play (spec : VibrationSpec) (now : Nat) (result : Int) (state : VibrationState) :
    VibrationState × List VibrationCall :=
  let curr := state.sequence state.idx.toNat
  if curr.duration = 0 then (state, []) -- end-of-seq
  else if curr.intensity = 0 then
    -- just a pause
    ({ state with nextSample := u32 (now + curr.duration.toNat * 8000), idx := state.idx + 1 }, [])
  else
    let dur := playable spec curr
    let calls := [.writeAmplitude curr.intensity (dur * 8) result]
    if result = -1 then ({ state with nextSample := u32 (now + 16 * 1024) }, calls)
    else
      let nextSample := u32 (now + dur * 8000)
      if curr.duration.toNat = dur then ({ state with nextSample, idx := state.idx + 1 }, calls)
      else
        let curr := { curr with duration := curr.duration - UInt8.ofNat dur }
        ({ state with nextSample, sequence := Function.update state.sequence state.idx.toNat curr }, calls)

/-- `vibration_process`, where `jd_should_sample` returned and stored this. -/
def processSampled (spec : VibrationSpec) (now : Nat) (result : Int) (sampled : Bool × Nat) (state : VibrationState) :
    VibrationState × List VibrationCall :=
  let state := { state with nextSample := sampled.2 }
  if ¬ sampled.1 then (state, []) else state.play spec now result

/-- `vibration_process`. -/
def process (spec : VibrationSpec) (now : Nat) (result : Int) (state : VibrationState) :
    VibrationState × List VibrationCall :=
  state.processSampled spec now result (jdShouldSample now 10000 state.nextSample)

end VibrationState

/-- The steps in a payload, with zeros behind it. -/
def vibrateSteps (data : List UInt8) (slot : Nat) : VibrateStep := ⟨data.getD (2 * slot) 0, data.getD (2 * slot + 1) 0⟩

namespace VibrationState

def handleVibrateCmd (pkt : ServiceRequest) (state : VibrationState) : VibrationState :=
  { state with
    sequence := fun slot => if slot < vibrationSlots then vibrateSteps pkt.data slot else state.sequence slot
    idx := 0 }

/-- `vibration_handle_packet`. -/
def handlePacket (spec : VibrationSpec) (pkt : ServiceRequest) (state : VibrationState) :
    VibrationState × List VibrationCall :=
  if pkt.serviceCommand = spec.cmdVibrate then (state.handleVibrateCmd pkt, [])
  else (state, (pkt.jdSendNotImplemented spec.toServiceSpec).map .jdSend)

end VibrationState

inductive VibrationEvent where
  | packet (pkt : ServiceRequest)
  /-- A call of `vibration_process`, with the result of `write_amplitude`. -/
  | process (now : Nat) (result : Int)

/-- The service over runs. -/
def vibrationService (spec : VibrationSpec) : Machine VibrationState VibrationEvent VibrationCall where
  step state
    | .packet pkt => state.handlePacket spec pkt
    | .process now result => state.process spec (u32 now) result

/-- A call of `write_amplitude` that succeeds. -/
def VibrationCall.played : VibrationCall → Option (UInt8 × Nat)
  | .writeAmplitude amplitude durationMs result => if result = -1 then none else some (amplitude, durationMs)
  | .jdSend _ => none

/-- The calls that succeed, in order. -/
def playedCalls (calls : List VibrationCall) : List (UInt8 × Nat) := calls.filterMap VibrationCall.played

/-- Calls for a step: all with its intensity, and for this time in all; a pause takes none. -/
structure PlaysStep (step : VibrateStep) (time : Nat) (calls : List (UInt8 × Nat)) : Prop where
  intensity : ∀ call ∈ calls, call.1 = step.intensity
  time : step.intensity ≠ 0 → (calls.map Prod.snd).sum = time
  pause : step.intensity = 0 → calls = []

/-- Calls for steps one after another, each in full. -/
inductive PlaysSteps : List VibrateStep → List (UInt8 × Nat) → Prop where
  | nil : PlaysSteps [] []
  | step {steps calls step chunk} (before : PlaysSteps steps calls) (full : PlaysStep step (step.duration.toNat * 8) chunk) :
    PlaysSteps (steps ++ [step]) (calls ++ chunk)

/-- Calls for a step of which this duration is left. -/
structure PartPlayed (step : VibrateStep) (left : UInt8) (calls : List (UInt8 × Nat)) : Prop where
  le : left.toNat ≤ step.duration.toNat
  ends : left = 0 → step.duration = 0
  plays : PlaysStep step ((step.duration.toNat - left.toNat) * 8) calls

section Steps

variable {step : VibrateStep} {left : UInt8} {calls : List (UInt8 × Nat)} {time dur : Nat}

theorem PlaysStep.concat (plays : PlaysStep step time calls) (sounds : step.intensity ≠ 0) (dur : Nat) :
    PlaysStep step (time + dur * 8) (calls ++ [(step.intensity, dur * 8)]) where
  intensity call member := by
    rcases List.mem_append.mp member with earlier | last
    · exact plays.intensity call earlier
    · rw [List.mem_singleton.mp last]
  time _ := by
    rw [List.map_append, List.sum_append, plays.time sounds]
    exact congrArg (time + ·) (Nat.add_zero (dur * 8))
  pause silent := absurd silent sounds

theorem PartPlayed.start (step : VibrateStep) : PartPlayed step step.duration [] where
  le := Nat.le_refl _
  ends := id
  plays := by
    constructor
    case intensity => exact nofun
    case time =>
      intro _
      rw [Nat.sub_self]
      rfl
    case pause => exact fun _ => rfl

theorem PartPlayed.more (part : PartPlayed step left calls) (sounds : step.intensity ≠ 0) (short : dur < left.toNat) :
    PartPlayed step (left - UInt8.ofNat dur) (calls ++ [(step.intensity, dur * 8)]) := by
  have le := part.le
  have small := left.toNat_lt
  have less : (left - UInt8.ofNat dur).toNat = left.toNat - dur := by
    rw [UInt8.toNat_sub, UInt8.toNat_ofNat']
    omega
  constructor
  case le => omega
  case ends =>
    intro zero
    rw [zero] at less
    change 0 = left.toNat - dur at less
    omega
  case plays =>
    have sum : (step.duration.toNat - (left.toNat - dur)) * 8 = (step.duration.toNat - left.toNat) * 8 + dur * 8 := by omega
    rw [less, sum]
    exact part.plays.concat sounds dur

theorem PartPlayed.full (part : PartPlayed step left calls) (sounds : step.intensity ≠ 0) :
    PlaysStep step (step.duration.toNat * 8) (calls ++ [(step.intensity, left.toNat * 8)]) := by
  have le := part.le
  have sum : step.duration.toNat * 8 = (step.duration.toNat - left.toNat) * 8 + left.toNat * 8 := by omega
  rw [sum]
  exact part.plays.concat sounds left.toNat

theorem PartPlayed.pause (part : PartPlayed step left calls) (silent : step.intensity = 0) :
    PlaysStep step (step.duration.toNat * 8) calls where
  intensity := part.plays.intensity
  time sounds := absurd silent sounds
  pause := part.plays.pause

end Steps

/-- The calls up to here are those for the steps before this one in full, and those for the part of
this one that its slot lacks. -/
structure Playing (steps : Nat → VibrateStep) (state : VibrationState) (calls : List (UInt8 × Nat)) : Prop where
  inside : state.idx.toNat < vibrationSlots
  onward : ∀ slot, state.idx.toNat < slot → slot < vibrationSlots → state.sequence slot = steps slot
  reached : ∀ slot < state.idx.toNat, (steps slot).duration ≠ 0
  played : ∃ full part left, calls = full ++ part ∧ PlaysSteps ((List.range state.idx.toNat).map steps) full ∧
    state.sequence state.idx.toNat = ⟨left, (steps state.idx.toNat).intensity⟩ ∧
    PartPlayed (steps state.idx.toNat) left part

namespace Playing

variable {steps : Nat → VibrateStep} {state : VibrationState} {calls : List (UInt8 × Nat)}

theorem setNextSample (playing : Playing steps state calls) (nextSample : Nat) :
    Playing steps { state with nextSample } (calls ++ []) := by
  rw [List.append_nil]
  exact ⟨playing.inside, playing.onward, playing.reached, playing.played⟩

theorem advance (playing : Playing steps state calls) (ends : ∃ slot < vibrationSlots, (steps slot).duration = 0)
    (going : (steps state.idx.toNat).duration ≠ 0) (nextSample : Nat) {more : List (UInt8 × Nat)}
    (full : ∀ full part left, calls = full ++ part → PartPlayed (steps state.idx.toNat) left part →
      state.sequence state.idx.toNat = ⟨left, (steps state.idx.toNat).intensity⟩ →
      PlaysStep (steps state.idx.toNat) ((steps state.idx.toNat).duration.toNat * 8) (part ++ more)) :
    Playing steps { state with nextSample, idx := state.idx + 1 } (calls ++ more) := by
  obtain ⟨last, inside, zero⟩ := ends
  have behind : state.idx.toNat < last := by
    by_contra passed
    rcases Nat.lt_or_eq_of_le (Nat.le_of_not_lt passed) with earlier | same
    · exact playing.reached last earlier zero
    · rw [same] at zero
      exact going zero
  have next : (state.idx + 1).toNat = state.idx.toNat + 1 := by
    rw [UInt8.toNat_add]
    unfold vibrationSlots at inside
    exact Nat.mod_eq_of_lt (by change state.idx.toNat + 1 < 256; omega)
  obtain ⟨before, part, left, split, plays, current, partial_⟩ := playing.played
  have chunk := full before part left split partial_ current
  constructor
  case inside =>
    change (state.idx + 1).toNat < vibrationSlots
    omega
  case onward =>
    intro slot after within
    change (state.idx + 1).toNat < slot at after
    exact playing.onward slot (by omega) within
  case reached =>
    intro slot before
    change slot < (state.idx + 1).toNat at before
    rcases Nat.lt_or_eq_of_le (Nat.le_of_lt_succ (next ▸ before)) with earlier | same
    · exact playing.reached slot earlier
    · rw [same]
      exact going
  case played =>
    refine ⟨before ++ (part ++ more), [], (steps (state.idx.toNat + 1)).duration, ?_, ?_, ?_, ?_⟩
    · rw [split, List.append_nil, List.append_assoc]
    · change PlaysSteps ((List.range (state.idx + 1).toNat).map steps) _
      rw [next, List.range_succ, List.map_append]
      exact plays.step chunk
    · change state.sequence (state.idx + 1).toNat = ⟨_, (steps (state.idx + 1).toNat).intensity⟩
      rw [next, playing.onward _ (Nat.lt_succ_self _) (by omega)]
    · change PartPlayed (steps (state.idx + 1).toNat) _ _
      rw [next]
      exact .start _

/-- A call for part of what is left of a step. -/
theorem shorten (playing : Playing steps state calls) (nextSample : Nat) {dur : Nat}
    (sounds : (state.sequence state.idx.toNat).intensity ≠ 0) (short : dur < (state.sequence state.idx.toNat).duration.toNat) :
    Playing steps
      { state with
        nextSample
        sequence := Function.update state.sequence state.idx.toNat
          { state.sequence state.idx.toNat with
            duration := (state.sequence state.idx.toNat).duration - UInt8.ofNat dur } }
      (calls ++ [((state.sequence state.idx.toNat).intensity, dur * 8)]) where
  inside := playing.inside
  onward slot after within := by
    dsimp only at after ⊢
    rw [Function.update_of_ne (Nat.ne_of_gt after)]
    exact playing.onward slot after within
  reached := playing.reached
  played := by
    obtain ⟨full, part, left, split, plays, current, partial_⟩ := playing.played
    rw [current] at sounds short
    refine ⟨full, part ++ [((steps state.idx.toNat).intensity, dur * 8)], left - UInt8.ofNat dur, ?_, plays, ?_,
      partial_.more sounds short⟩
    · rw [current, split, List.append_assoc]
    · dsimp only
      rw [Function.update_self, current]

theorem playable_bounds {spec : VibrationSpec} (long : 8 ≤ spec.maxDuration) {curr : VibrateStep} (going : curr.duration ≠ 0) :
    0 < VibrationState.playable spec curr ∧ VibrationState.playable spec curr ≤ curr.duration.toNat := by
  have positive : curr.duration.toNat ≠ 0 := fun zero => going (UInt8.toNat_inj.mp zero)
  have quotient : spec.maxDuration.tdiv 8 = spec.maxDuration / 8 := Int.tdiv_eq_ediv_of_nonneg (by omega)
  unfold VibrationState.playable
  rw [quotient]
  dsimp only
  split <;> omega

theorem play (playing : Playing steps state calls) (ends : ∃ slot < vibrationSlots, (steps slot).duration = 0)
    {spec : VibrationSpec} (long : 8 ≤ spec.maxDuration) (now : Nat) (result : Int) :
    Playing steps (state.play spec now result).1 (calls ++ playedCalls (state.play spec now result).2) := by
  have same : Playing steps state (calls ++ []) := by
    rw [List.append_nil]
    exact playing
  obtain ⟨_, _, left, _, _, current, part⟩ := playing.played
  unfold VibrationState.play
  dsimp only
  split
  · exact same
  · rename_i left_ne
    have going : (steps state.idx.toNat).duration ≠ 0 := by
      rw [current] at left_ne
      intro zero
      have le := part.le
      rw [zero] at le
      exact left_ne (UInt8.toNat_inj.mp (Nat.le_zero.mp le))
    obtain ⟨positive, bound⟩ := playable_bounds long left_ne
    split
    · rename_i silent
      rw [current] at silent
      refine playing.advance ends going _ fun _ part _ _ partial_ _ => ?_
      change PlaysStep _ _ (part ++ [])
      rw [List.append_nil]
      exact partial_.pause silent
    · rename_i sounds
      split
      · rename_i busy
        have nothing : playedCalls [.writeAmplitude (state.sequence state.idx.toNat).intensity
            (VibrationState.playable spec (state.sequence state.idx.toNat) * 8) result] = [] := by
          rw [busy]
          rfl
        rw [nothing]
        exact playing.setNextSample _
      · rename_i accepted
        have one : playedCalls [.writeAmplitude (state.sequence state.idx.toNat).intensity
            (VibrationState.playable spec (state.sequence state.idx.toNat) * 8) result] =
            [((state.sequence state.idx.toNat).intensity, VibrationState.playable spec (state.sequence state.idx.toNat) * 8)] := by
          simp only [playedCalls, List.filterMap_cons, VibrationCall.played, if_neg accepted, List.filterMap_nil]
        split
        · rename_i last
          rw [one, ← last]
          refine playing.advance ends going _ fun _ part left _ partial_ same => ?_
          rw [same]
          rw [same] at sounds
          exact partial_.full sounds
        · rename_i rest
          rw [one]
          exact playing.shorten _ sounds (by omega)

theorem process (playing : Playing steps state calls) (ends : ∃ slot < vibrationSlots, (steps slot).duration = 0)
    {spec : VibrationSpec} (long : 8 ≤ spec.maxDuration) (now : Nat) (result : Int) :
    Playing steps ((vibrationService spec).step state (.process now result)).1
      (calls ++ playedCalls ((vibrationService spec).step state (.process now result)).2) := by
  rw [vibrationService]
  dsimp only
  rw [VibrationState.process]
  generalize jdShouldSample (u32 now) 10000 state.nextSample = sampled
  generalize u32 now = now
  obtain ⟨samples, sample⟩ := sampled
  unfold VibrationState.processSampled
  have stored := playing.setNextSample sample
  cases samples with
  | false => exact stored
  | true =>
    rw [List.append_nil] at stored
    exact stored.play ends long now result

/-- After a command. -/
theorem start (pkt : ServiceRequest) (state : VibrationState) :
    Playing (vibrateSteps pkt.data) (state.handleVibrateCmd pkt) [] where
  inside := Nat.zero_lt_succ 117
  onward _ _ within := if_pos within
  reached _ before := absurd before (Nat.not_lt_zero _)
  played := ⟨[], [], _, rfl, .nil, rfl, .start _⟩

end Playing

theorem Playing.run {steps : Nat → VibrateStep} {state : VibrationState} {calls : List (UInt8 × Nat)}
    (playing : Playing steps state calls) (ends : ∃ slot < vibrationSlots, (steps slot).duration = 0)
    {spec : VibrationSpec} (long : 8 ≤ spec.maxDuration) (times : List (Nat × Int)) :
    Playing steps ((vibrationService spec).after state (times.map fun time => .process time.1 time.2))
      (calls ++ playedCalls ((vibrationService spec).emitted state (times.map fun time => .process time.1 time.2))) := by
  induction times generalizing state calls with
  | nil =>
    rw [List.map_nil, Machine.emitted_nil]
    exact (List.append_nil calls).symm ▸ playing
  | cons time times ih =>
    have next := ih (playing.process ends long time.1 time.2)
    rw [List.map_cons, Machine.after_cons, Machine.emitted_cons, playedCalls, List.filterMap_append, ← List.append_assoc]
    exact next

/-- After a command with an end among its 118 steps, at every moment: `idx` is below 118, and the calls
of `write_amplitude` that succeeded are those for the steps before `idx`, in order and each in full,
and those for what the current step lacks. A pause takes no call. -/
theorem vibration_plays (spec : VibrationSpec) (long : 8 ≤ spec.maxDuration) (state : VibrationState) (pkt : ServiceRequest)
    (vibrate : pkt.serviceCommand = spec.cmdVibrate)
    (ends : ∃ slot < vibrationSlots, (vibrateSteps pkt.data slot).duration = 0) (times : List (Nat × Int)) :
    let events := .packet pkt :: times.map fun time => .process time.1 time.2
    let now := (vibrationService spec).after state events
    now.idx.toNat < vibrationSlots ∧
      ∃ full part, playedCalls ((vibrationService spec).emitted state events) = full ++ part ∧
        PlaysSteps ((List.range now.idx.toNat).map (vibrateSteps pkt.data)) full ∧
        PlaysStep (vibrateSteps pkt.data now.idx.toNat)
          (((vibrateSteps pkt.data now.idx.toNat).duration.toNat - (now.sequence now.idx.toNat).duration.toNat) * 8) part := by
  intro events now
  have first : (vibrationService spec).step state (.packet pkt) = (state.handleVibrateCmd pkt, []) := if_pos vibrate
  have playing := (Playing.start pkt state).run ends long times
  have after : (vibrationService spec).after state events =
      (vibrationService spec).after (state.handleVibrateCmd pkt) (times.map fun time => .process time.1 time.2) := by
    rw [Machine.after_cons, first]
  rw [Machine.emitted_cons, first, List.nil_append]
  rw [← after] at playing
  obtain ⟨full, part, left, split, plays, current, partial_⟩ := playing.played
  refine ⟨playing.inside, full, part, split, plays, ?_⟩
  rw [current]
  exact partial_.plays

def sampleVibrationSpec : VibrationSpec where
  toServiceSpec := sampleSpec
  cmdVibrate := 0x80
  maxDuration := 17

/-- A step of five units, and a pause of one unit. -/
def buzzOnly : ServiceRequest := ⟨0, 0x80, false, 0, [5, 200], by decide⟩
def pauseOnly : ServiceRequest := ⟨0, 0x80, false, 0, [1, 0], by decide⟩

def VibrationState.init : VibrationState where
  nextSample := 0
  idx := 0
  sequence _ := ⟨0, 0⟩

/-- The step takes three calls; the motor is busy once. -/
def buzzTimes : List (Nat × Int) := [(1, 0), (20000, -1), (40000, 0), (60000, 0), (80000, 0)]

theorem vibration_plays_buzz :
    let events := .packet buzzOnly :: buzzTimes.map fun time => .process time.1 time.2
    playedCalls ((vibrationService sampleVibrationSpec).emitted .init events) = [(200, 16), (200, 16), (200, 8)] ∧
      ((vibrationService sampleVibrationSpec).after .init events).idx.toNat < vibrationSlots :=
  ⟨by decide +kernel, (vibration_plays sampleVibrationSpec (by decide) .init buzzOnly rfl ⟨1, by decide, rfl⟩ buzzTimes).1⟩

/-- A pause has a duration, and no call. -/
theorem vibration_pauses :
    let events := [.packet pauseOnly, .process 1 0]
    ((vibrationService sampleVibrationSpec).after .init events).idx = 1 ∧
      (vibrateSteps pauseOnly.data 0).duration = 1 ∧
      playedCalls ((vibrationService sampleVibrationSpec).emitted .init events) = [] := by decide +kernel

end Jacdac
