import Jacdac.Base.Machine
import Jacdac.Base.Progress
import Jacdac.Base.Signed
import Jacdac.Pipe.Output
import Jacdac.Services.Replies

/-! The HID mouse of `hidmouse.c`: moves that are spread over reports, and clicks. -/

namespace Jacdac

/-- `jd_should_sample_delay`, with the new `*sample`. -/
def jdShouldSampleDelay (now period sample : Nat) : Bool × Nat :=
  if inFuture now sample then (false, sample) else (true, u32 (now + period))

/-- `jd_hid_mouse_move_t`. -/
structure MouseMove where
  dx : Int16
  dy : Int16
  time : UInt16

/-- `jd_hid_mouse_wheel_t`. -/
structure MouseWheel where
  dy : Int16
  time : UInt16

/-- `jd_hid_mouse_set_button_t`. -/
structure MouseSetButton where
  buttons : UInt16
  ev : UInt8

/-- The codes of the service, and its structures over a payload that is long enough. That of
`SET_BUTTON` may be a byte short: then the byte behind the payload is the event. -/
structure MouseSpec where
  cmdMove : Nat
  cmdWheel : Nat
  cmdSetButton : Nat
  move : List UInt8 → Option MouseMove
  wheel : List UInt8 → Option MouseWheel
  setButton : List UInt8 → UInt8 → Option MouseSetButton
  buttonEventUp : Nat
  buttonEventDown : Nat
  buttonEventClick : Nat
  buttonEventDoubleClick : Nat

def stepMs : Nat := 20

def btnOff : UInt8 := 0
def btnClickBeg : UInt8 := 1
def btnClickOff : UInt8 := 6
def btnDblClickBeg : UInt8 := 50
def btnDblClickPause : UInt8 := 55
def btnDblClickPauseEnd : UInt8 := 62
def btnDblClickEnd : UInt8 := 67
def btnOn : UInt8 := 0xff

/-- `state_map`; what is not listed below its last entry is zero. -/
def MouseSpec.stateMap (spec : MouseSpec) (ev : Nat) : Option UInt8 :=
  let last := max (max spec.buttonEventUp spec.buttonEventDown) (max spec.buttonEventClick spec.buttonEventDoubleClick)
  if ev ≤ last then
    some (if ev = spec.buttonEventUp then btnOff
      else if ev = spec.buttonEventDown then btnOn
      else if ev = spec.buttonEventClick then btnClickBeg
      else if ev = spec.buttonEventDoubleClick then btnDblClickBeg
      else 0)
  else none

def isBtnOn (b : UInt8) : Bool := b ≠ btnOff ∧ ¬ (btnDblClickPause ≤ b ∧ b < btnDblClickPauseEnd)

def isBtnFinal (b : UInt8) : Bool := b = btnClickOff ∨ b = btnDblClickEnd ∨ b = btnOff

def nextBtnState (b : UInt8) : UInt8 :=
  if isBtnFinal b then btnOff
  else if b = btnOn then b
  else b + 1

/-- `axis_t`. -/
structure Axis where
  target : Int
  step : Int
  deriving DecidableEq

namespace Axis

/-- The limits of a step in `compute_step`. -/
def limitStep (perStep : Int) : Int :=
  if perStep < -127 then -127
  else if perStep > 127 then 127
  else perStep

def computeStep (d : Int16) (time : UInt16) (ax : Axis) : Axis :=
  let target := i32 (ax.target + d.toInt)
  let time := if time = 0 then 1 else time.toNat
  { target, step := limitStep ((i32 (stepMs * target)).tdiv time) }

/-- The step that `current_step` returns. -/
def currentStep (ax : Axis) : Int := if ax.target.natAbs < ax.step.natAbs then ax.target else ax.step

/-- What `current_step` leaves. -/
def afterStep (ax : Axis) : Axis := { ax with target := ax.target - ax.currentStep }

end Axis

/-- `jd_hid_mouse_report_t`, with `x`, `y`, `wheel` and `pan` as one. -/
structure MouseReport where
  buttons : Nat
  axis : Fin 4 → Int

/-- `is_zero_report`. -/
def MouseReport.isZero (r : MouseReport) : Bool := r.buttons = 0 ∧ ∀ i, r.axis i = 0

/-- `srv_state`. -/
structure MouseState where
  axis : Fin 4 → Axis
  buttons : Fin 3 → UInt8
  lastZero : Bool
  nextTick : Nat

namespace MouseState

/-- After `hidmouse_init`. -/
def init : MouseState where
  axis _ := ⟨0, 0⟩
  buttons _ := btnOff
  lastZero := false
  nextTick := 0

def report (state : MouseState) : MouseReport where
  buttons := ((List.finRange 3).map fun i => if isBtnOn (state.buttons i) then 2 ^ i.val else 0).sum
  axis i := (state.axis i).currentStep

/-- `hidmouse_process`, where `jd_should_sample_delay` returned and stored this. -/
def processSampled (sampled : Bool × Nat) (state : MouseState) : MouseState × List MouseReport :=
  let state := { state with nextTick := sampled.2 }
  if ¬ sampled.1 then (state, [])
  else
    let r := state.report
    let state := { state with
      buttons := fun i => nextBtnState (state.buttons i)
      axis := fun i => (state.axis i).afterStep }
    let isZero := r.isZero
    if isZero ∧ state.lastZero then (state, [])
    else ({ state with lastZero := isZero }, [r])

/-- `hidmouse_process`. -/
def process (now : Nat) (state : MouseState) : MouseState × List MouseReport :=
  state.processSampled (jdShouldSampleDelay now (stepMs * 1000) state.nextTick)

/-- `compute_step` for an axis. -/
def moveAxis (i : Fin 4) (d : Int16) (time : UInt16) (state : MouseState) : MouseState :=
  { state with axis := Function.update state.axis i ((state.axis i).computeStep d time) }

/-- The `SET_BUTTON` case of `hidmouse_handle_packet`. -/
def setButtons (spec : MouseSpec) (d : MouseSetButton) (state : MouseState) : MouseState :=
  { state with buttons := fun i =>
      if d.buttons.toNat / 2 ^ i.val % 2 = 1 then (spec.stateMap d.ev.toNat).getD (state.buttons i)
      else state.buttons i }

/-- `hidmouse_handle_packet`; the registers of the service are those of all services. -/
def handlePacket (spec : MouseSpec) (pkt : ServiceRequest) (behind : UInt8) (state : MouseState) : MouseState :=
  if pkt.serviceCommand = spec.cmdMove then
    match spec.move pkt.data with
    | none => state
    | some d => (state.moveAxis 0 d.dx d.time).moveAxis 1 d.dy d.time
  else if pkt.serviceCommand = spec.cmdWheel then
    match spec.wheel pkt.data with
    | none => state
    | some d => state.moveAxis 2 d.dy d.time
  else if pkt.serviceCommand = spec.cmdSetButton then
    match spec.setButton pkt.data behind with
    | none => state
    | some d => state.setButtons spec d
  else state

end MouseState

/-- A packet, with the byte behind its payload, or a call of `hidmouse_process`. -/
inductive MouseEvent where
  | packet (pkt : ServiceRequest) (behind : UInt8)
  | process (now : Nat)

/-- The mouse over runs; its outputs are the reports of `jd_hid_mouse_move`. -/
def hidMouse (spec : MouseSpec) : Machine MouseState MouseEvent MouseReport where
  step state
    | .packet pkt behind => (state.handlePacket spec pkt behind, [])
    | .process now => state.process (u32 now)

/-- `dx` and `time` of a move that this event asks of an axis. -/
def MouseSpec.request (spec : MouseSpec) (i : Fin 4) : MouseEvent → Option (Int16 × UInt16)
  | .packet pkt _ =>
    if pkt.serviceCommand = spec.cmdMove then
      (spec.move pkt.data).bind fun d =>
        if i = 0 then some (d.dx, d.time) else if i = 1 then some (d.dy, d.time) else none
    else if pkt.serviceCommand = spec.cmdWheel then
      (spec.wheel pkt.data).bind fun d => if i = 2 then some (d.dy, d.time) else none
    else none
  | .process _ => none

/-- Whether this event is a call of `hidmouse_process` that has a report to make. -/
def MouseState.ticks (state : MouseState) : MouseEvent → Bool
  | .packet .. => false
  | .process now => !inFuture (u32 now) state.nextTick

end Jacdac
