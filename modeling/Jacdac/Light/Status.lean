import Jacdac.Base.Machine
import Jacdac.Light.Channel
import Jacdac.Services.Replies
import Jacdac.Time.Sample

/-! The status light of `jd_status_light.c`: blinks, which are queued, over a glow. What
`rgbled_show` does with the colors depends on the hardware and is left out. -/

namespace Jacdac

-- the instances under the numbers of the channels, the blinks and the glows
local instance threeSlots : NeZero 3 := ⟨by decide⟩

local instance fourSlots : NeZero 4 := ⟨by decide⟩

/-- What the status light does. -/
inductive StatusOutput where
  /-- `rgbled_show` with this override and these channels. -/
  | show_ (colorOverride : UInt8) (values : Fin 3 → UInt16)
  /-- `jd_blink` puts the pattern into `queued_blinks`. -/
  | accepted (encoded : UInt8)
  /-- The pattern leaves `queued_blinks`. -/
  | finished (encoded : UInt8)

/-- `_JD_BLINK_REPETITIONS`. -/
def blinkRepetitions (encoded : UInt8) : Nat := encoded.toNat / 8 % 8
/-- `_JD_BLINK_DURATION`. -/
def blinkDuration (encoded : UInt8) : Nat := encoded.toNat / 64 % 4
/-- `_JD_GLOW_COLOR`. -/
def glowColor (glow : UInt8) : Nat := glow.toNat % 8
/-- `_JD_GLOW_SPEED`. -/
def glowSpeed (glow : UInt8) : Nat := glow.toNat / 8 % 8

/-- `JD_GLOW_PROTECT`. -/
def glowProtect : UInt8 := 7

/-- `struct glow_desc`. -/
structure GlowDesc where
  speed : UInt8
  timeOn : Nat
  timeOff : Nat

/-- `speeds`. -/
def glowSpeeds : List GlowDesc :=
  [⟨1, 1000, 1000000⟩, ⟨50, 1000000, 1000⟩, ⟨100, 1000000, 1000000⟩, ⟨150, 500000, 500000⟩, ⟨150, 250000, 250000⟩,
    ⟨150, 250000, 1750000⟩, ⟨0, 500000, 500000⟩, ⟨0, 250000, 250000⟩]

/-- `status_ctx_t`. -/
structure StatusState where
  stepSample : Nat
  glowStep : Nat
  blinkStep : Nat
  glow : UInt8
  glowCh : Fin 4 → UInt8
  glowPhase : Nat
  blinkRep : Nat
  colorOverride : UInt8
  queuedBlinks : Fin 3 → UInt8
  channels : Fin 3 → Channel

namespace StatusState

/-- `jd_status_set`. -/
def set (anim : StatusLight) (state : StatusState) : StatusState :=
  { state with channels := fun i => (state.channels i).animate (anim.color i) anim.speed }

/-- The highest glow channel that is on, or the first one. -/
def topGlow (state : StatusState) : UInt8 :=
  (((List.finRange 4).reverse.find? fun i => state.glowCh i ≠ 0).map state.glowCh).getD (state.glowCh 0)

def reGlow (now : Nat) (state : StatusState) : StatusState :=
  if state.glow = glowProtect then state
  else
    let state :=
      if state.glow ≠ state.topGlow then { state with glow := state.topGlow, glowPhase := 0, glowStep := now }
      else state
    -- without a glow the light fades out
    if state.glow = 0 then state.set ⟨fun _ => 0, 100⟩ else state

def show_ (state : StatusState) : StatusOutput := .show_ state.colorOverride fun i => (state.channels i).value

def setBlinkColor (encoded : UInt8) (state : StatusState) : StatusState × List StatusOutput :=
  let state := { state with colorOverride := encoded &&& 7 }
  (state, [state.show_])

/-- The next step of a pattern in `jd_status_process`; `ledSetRgb` is a build for which `LED_SET_RGB`
is defined. -/
def stepBlink (ledSetRgb : Bool) (now : Nat) (encoded : UInt8) (state : StatusState) :
    StatusState × List StatusOutput :=
  if blinkDuration encoded = 0 then
    andThen (if ledSetRgb then (state, []) else andThen (state.setBlinkColor encoded) (setBlinkColor 0)) fun state =>
      ({ state with blinkRep := u8 (state.blinkRep + 2) }, [])
  else if state.blinkRep % 2 = 1 then
    andThen (state.setBlinkColor 0) fun state => ({ state with blinkRep := u8 (state.blinkRep + 1) }, [])
  else
    andThen (state.setBlinkColor encoded) fun state =>
      ({ state with
          blinkStep := u32 (now + blinkDuration encoded * (8 * 1024))
          blinkRep := u8 (state.blinkRep + 1) }, [])

/-- The end of a pattern: the others move up. -/
def endBlink (now : Nat) (state : StatusState) : StatusState :=
  { state with
    queuedBlinks := fun i => if i = 0 then state.queuedBlinks 1 else state.queuedBlinks 2
    blinkStep := u32 (now + 256 * 1024) }

/-- The blinks in `jd_status_process`, where `jd_should_sample` returned and stored this. -/
def blinkSampled (ledSetRgb : Bool) (now : Nat) (sampled : Bool × Nat) (state : StatusState) :
    StatusState × List StatusOutput :=
  let encoded := state.queuedBlinks 0
  let state := { state with blinkStep := sampled.2 }
  if ¬ sampled.1 then (state, [])
  else
    let shown := state.stepBlink ledSetRgb now encoded
    if shown.1.blinkRep / 2 ≥ blinkRepetitions encoded then (shown.1.endBlink now, shown.2 ++ [.finished encoded])
    else shown

def processBlink (ledSetRgb : Bool) (now : Nat) (state : StatusState) : StatusState × List StatusOutput :=
  if state.queuedBlinks 0 = 0 then (state, [])
  else state.blinkSampled ledSetRgb now (jdShouldSample now (128 * 1024) state.blinkStep)

/-- The color of a glow in its next phase. -/
def glowLight (on : Bool) (glow : UInt8) : StatusLight where
  color i := if on ∧ glowColor glow / 2 ^ i.val % 2 = 1 then 8 else 0
  speed := ((glowSpeeds[glowSpeed glow]?).map GlowDesc.speed).getD 0

/-- The glow in `jd_status_process`. -/
def processGlow (now : Nat) (state : StatusState) : StatusState :=
  if state.glow ≠ 0 ∧ inPast now state.glowStep then
    if state.glow = glowProtect then { state with glow := 0 }.reGlow now
    else
      let desc := (glowSpeeds[glowSpeed state.glow]?).getD ⟨0, 0, 0⟩
      let on := state.glowPhase ≠ 0
      let state :=
        if on then { state with glowStep := u32 (now + desc.timeOn), glowPhase := 0 }
        else { state with glowStep := u32 (now + desc.timeOff), glowPhase := 1 }
      state.set (glowLight on state.glow)
  else state

/-- The loop over the channels in `jd_status_process`. -/
def channelLoop (channels : Fin 3 → Channel) : Fin 3 → Channel := fun i => (channels i).advance

/-- The second half of `jd_status_process`, where `jd_should_sample` returned and stored this. -/
def frameSampled (now : Nat) (sampled : Bool × Nat) (state : StatusState) : StatusState × List StatusOutput :=
  let state := { state with stepSample := sampled.2 }
  if ¬ sampled.1 then (state, [])
  else
    let state := state.processGlow now
    let channels := channelLoop state.channels
    let chg := decide (∃ i, (state.channels i).value ≠ (channels i).value)
    let state := { state with channels }
    (state, if chg then [state.show_] else [])

def processFrame (now : Nat) (state : StatusState) : StatusState × List StatusOutput :=
  state.frameSampled now (jdShouldSample now 65536 state.stepSample)

/-- `jd_status_process`. -/
def process (ledSetRgb : Bool) (now : Nat) (state : StatusState) : StatusState × List StatusOutput :=
  andThen (state.processBlink ledSetRgb now) (processFrame now)

/-- The `SET_STATUS_LIGHT` case of `jd_status_handle_packet`. -/
def handleSet (now : Nat) (anim : StatusLight) (state : StatusState) : StatusState :=
  { state with glow := glowProtect, glowStep := u32 (now + 2 * 1048576) }.set anim

/-- The loop of `jd_blink`, over the slots that are left. -/
def blinkLoop (now : Nat) (encoded : UInt8) : List (Fin 3) → StatusState → StatusState × List StatusOutput
  | [], state => (state, [])
  | i :: slots, state =>
    if state.queuedBlinks i = encoded then (state, [])
    else if state.queuedBlinks i = 0 then
      if blinkDuration encoded ≠ 0 ∨ i = 0 then
        let state := if i = 0 then { state with blinkStep := now, blinkRep := 0 } else state
        ({ state with queuedBlinks := Function.update state.queuedBlinks i encoded }, [.accepted encoded])
      else (state, [])
    else blinkLoop now encoded slots state

def jdBlink (now : Nat) (encoded : UInt8) (state : StatusState) : StatusState × List StatusOutput :=
  blinkLoop now encoded (List.finRange 3) state

/-- `jd_glow` for a channel. -/
def jdGlow (now : Nat) (ch : Fin 4) (v : UInt8) (state : StatusState) : StatusState :=
  if state.glowCh ch = v then state
  else { state with glowCh := Function.update state.glowCh ch v }.reGlow now

end StatusState

/-- A call of the status light. -/
inductive StatusEvent where
  | blink (now : Nat) (encoded : UInt8)
  | glow (now : Nat) (ch : Fin 4) (v : UInt8)
  | set (now : Nat) (anim : StatusLight)
  | process (now : Nat)

/-- The status light over runs, at times that are not truncated. -/
def statusLight (ledSetRgb : Bool) : Machine StatusState StatusEvent StatusOutput where
  step state
    | .blink now encoded => state.jdBlink (u32 now) encoded
    | .glow now ch v => (state.jdGlow (u32 now) ch v, [])
    | .set now anim => (state.handleSet (u32 now) anim, [])
    | .process now => state.process ledSetRgb (u32 now)

end Jacdac
