import Jacdac.Base.Machine
import Jacdac.Light.Channel
import Jacdac.Services.Replies
import Jacdac.Time.Sample

/-! The LED of `ledsingle.c`. Its registers are constants of the device, next to the
fields that are modelled here. -/

namespace Jacdac

/-- The codes of the service, and `jd_control_set_status_light_t` over a payload that is long enough. -/
structure LedSpec where
  cmdAnimate : Nat
  regColor : RegCode
  anim : List UInt8 → Option StatusLight

/-- What the service asks of the device. -/
inductive LedSingleCall where
  | pinSet (pin : UInt8) (level : Bool)
  | jdPwmEnable (pwm : UInt8) (on : Bool)
  | jdPwmSetDuty (pwm : UInt8) (duty : Nat)
  | pwrEnterTim
  | pwrLeaveTim
  | jdSend (packet : Packet)
  deriving DecidableEq

/-- `srv_state`, with the fields of `params` that are used after the start. -/
structure LedSingleState where
  pwmPeriod : Nat
  activeHigh : Bool
  numch : Nat
  /-- `RGB_IN_TIM` -/
  inTim : Bool
  stepSample : Nat
  channels : Fin 3 → Channel

namespace LedSingleState

def frameUs : Nat := 65536

/-- The level of a channel in `led_show`. -/
def level (channel : Channel) : Nat := channel.value.toNat * channel.mult.toNat / 32768

def showChannel (state : LedSingleState) (channel : Channel) : List LedSingleCall :=
  let c := level channel
  if c = 0 then [.pinSet channel.pin !state.activeHigh, .jdPwmEnable channel.pwm false]
  else
    let duty :=
      if state.activeHigh then if c ≥ state.pwmPeriod then state.pwmPeriod - 1 else c
      else state.pwmPeriod - c
    [.jdPwmSetDuty channel.pwm duty, .jdPwmEnable channel.pwm true]

/-- The mean that a single channel stands for, with double green. -/
def mean (state : LedSingleState) : UInt16 :=
  UInt16.ofNat (((state.channels 0).value.toNat + 2 * (state.channels 1).value.toNat +
    (state.channels 2).value.toNat) / 4)

/-- The channels in the course of `led_show`. -/
def meanwhile (state : LedSingleState) : Fin 3 → Channel :=
  if state.numch = 1 then Function.update state.channels 0 { state.channels 0 with value := state.mean }
  else state.channels

/-- `led_show`. -/
def show_ (state : LedSingleState) : LedSingleState × List LedSingleCall :=
  let prevR := (state.channels 0).value
  let shown := state.meanwhile
  let lit := (List.finRange 3).take state.numch
  let sum := (lit.map fun i => level (shown i)).sum
  let calls := lit.flatMap fun i => state.showChannel (shown i)
  let state := { state with channels := Function.update shown 0 { shown 0 with value := prevR } }
  if sum = 0 ∧ state.inTim then ({ state with inTim := false }, calls ++ [.pwrLeaveTim])
  else if sum ≠ 0 ∧ ¬ state.inTim then ({ state with inTim := true }, calls ++ [.pwrEnterTim])
  else (state, calls)

/-- `led_animate`. -/
def animate (anim : StatusLight) (state : LedSingleState) : LedSingleState :=
  { state with channels := fun i => (state.channels i).animate (anim.color i) anim.speed }

/-- `led_process`, where `jd_should_sample` returned and stored this. -/
def processSampled (sampled : Bool × Nat) (state : LedSingleState) : LedSingleState × List LedSingleCall :=
  let state := { state with stepSample := sampled.2 }
  if ¬ sampled.1 then (state, [])
  else
    let channels := fun i => (state.channels i).advance
    let chg := decide (∃ i, (state.channels i).value ≠ (channels i).value)
    let state := { state with channels }
    if chg then state.show_ else (state, [])

def process (now : Nat) (state : LedSingleState) : LedSingleState × List LedSingleCall :=
  state.processSampled (jdShouldSample now frameUs state.stepSample)

/-- `led_handle_packet`, without the registers. -/
def handlePacket (spec : LedSpec) (pkt : ServiceRequest) (state : LedSingleState) : LedSingleState × List LedSingleCall :=
  if pkt.serviceCommand = jdGet spec.regColor then
    (state, [.jdSend (pkt.respond ((List.finRange 3).map fun i => UInt8.ofNat ((state.channels i).value.toNat / 256)))])
  else if pkt.serviceCommand = spec.cmdAnimate then
    match spec.anim pkt.data with
    | none => (state, [])
    | some anim => (state.animate anim, [])
  else (state, [])

end LedSingleState

inductive LedSingleEvent where
  | packet (pkt : ServiceRequest)
  | process (now : Nat)

/-- The service over runs, at times that are not truncated. -/
def ledService (spec : LedSpec) : Machine LedSingleState LedSingleEvent LedSingleCall where
  step state
    | .packet pkt => state.handlePacket spec pkt
    | .process now => state.process (u32 now)

namespace LedSingleState

variable {state : LedSingleState}

theorem meanwhile_restored :
    Function.update state.meanwhile 0 { state.meanwhile 0 with value := (state.channels 0).value } = state.channels := by
  unfold meanwhile
  split
  · rw [Function.update_self, Function.update_idem]
    exact Function.update_eq_self 0 state.channels
  · exact Function.update_eq_self 0 state.channels

/-- Nothing of what is shown is kept. -/
theorem show_channels : state.show_.1.channels = state.channels ∧ state.show_.1.stepSample = state.stepSample := by
  unfold show_
  dsimp only
  rw [meanwhile_restored]
  split
  · exact ⟨rfl, rfl⟩
  · split <;> exact ⟨rfl, rfl⟩

/-- A call of `led_process` is a frame if it samples. -/
theorem processSampled_channels (sampled : Bool × Nat) :
    (state.processSampled sampled).1.stepSample = sampled.2 ∧
      (state.processSampled sampled).1.channels =
        if sampled.1 then fun i => (state.channels i).advance else state.channels := by
  obtain ⟨samples, sample⟩ := sampled
  unfold processSampled
  cases samples with
  | false => exact ⟨rfl, rfl⟩
  | true =>
    dsimp only
    rw [if_neg (not_not.mpr rfl), if_pos rfl]
    split
    · rw [show_channels.1, show_channels.2]
      exact ⟨rfl, rfl⟩
    · exact ⟨rfl, rfl⟩

end LedSingleState

end Jacdac
