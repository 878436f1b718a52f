import Jacdac.Base.Machine
import Jacdac.Pipe.Output
import Jacdac.Services.Replies

/-! The control service of `jd_control.c`: its flood ping with the sleep lock, the
watchdog of the bus, and the commands that reset. The others neither read nor write
these fields. -/

namespace Jacdac

/-- The register of the watchdog, next to what the other services take. Command codes have
16 bits, and the labels of a `switch` are different. -/
structure ControlSpec extends ServiceSpec where
  cmdReset : Nat
  cmdStandby : Nat
  resetIn : RegCode
  ping_lt : cmdFloodPing < 65536
  labels : [cmdReset, cmdStandby, cmdFloodPing, jdGet resetIn, jdSet resetIn].Nodup

namespace ControlSpec

theorem get_ne_set (spec : ControlSpec) : jdSet spec.resetIn ≠ jdGet spec.resetIn := by
  unfold jdSet jdGet
  omega

theorem ping_ne (spec : ControlSpec) :
    spec.cmdFloodPing ≠ jdGet spec.resetIn ∧ spec.cmdFloodPing ≠ jdSet spec.resetIn := by
  have labels := spec.labels
  simp only [List.nodup_cons, List.mem_cons, List.not_mem_nil, or_false, not_or] at labels
  exact labels.2.2.1

/-- The commands that touch the fields do not reset. -/
theorem not_reset (spec : ControlSpec)
    (touches : cmd = spec.cmdFloodPing ∨ cmd = jdGet spec.resetIn ∨ cmd = jdSet spec.resetIn) :
    cmd ≠ spec.cmdReset ∧ cmd ≠ spec.cmdStandby := by
  have labels := spec.labels
  simp only [List.nodup_cons, List.mem_cons, List.not_mem_nil, or_false, not_or] at labels
  obtain ⟨⟨_, ping, get, set⟩, ⟨pingStandby, getStandby, setStandby⟩, _⟩ := labels
  rcases touches with rfl | rfl | rfl
  · exact ⟨Ne.symm ping, Ne.symm pingStandby⟩
  · exact ⟨Ne.symm get, Ne.symm getStandby⟩
  · exact ⟨Ne.symm set, Ne.symm setStandby⟩

end ControlSpec

/-- `srv_state`, with all of its optional fields. -/
structure CtrlState extends ControlState where
  watchdog : Nat

/-- What the service calls. -/
inductive CtrlCall where
  | pwrEnterNoSleep
  | pwrLeaveNoSleep
  | targetReset
  | jdSend (packet : Packet)
  deriving DecidableEq

namespace CtrlCall

def report : CtrlCall → Option Packet
  | .jdSend packet => some packet
  | _ => none

def lock : CtrlCall → Int
  | .pwrEnterNoSleep => 1
  | .pwrLeaveNoSleep => -1
  | _ => 0

end CtrlCall

namespace CtrlState

def setFlood (num : Nat) (state : CtrlState) : CtrlState × List CtrlCall :=
  ({ state with floodRemaining := num },
    if state.floodRemaining = 0 ∧ num ≠ 0 then [.pwrEnterNoSleep]
    -- the call at the end of a flood is the same one
    else if state.floodRemaining ≠ 0 ∧ num = 0 then [.pwrEnterNoSleep]
    else [])

/-- The payload of the next report. -/
def pingPayload (state : CtrlState) : List UInt8 :=
  littleEndian 4 state.floodCounter ++ (List.range state.floodSize).map UInt8.ofNat

def processFlood (spec : ControlSpec) (jdTxIsIdle : Bool) (state : CtrlState) : CtrlState × List CtrlCall :=
  if state.floodRemaining ≠ 0 ∧ jdTxIsIdle then
    let tmp := state.pingPayload
    let flooded := setFlood (state.floodRemaining - 1) { state with floodCounter := u32 (state.floodCounter + 1) }
    (flooded.1, flooded.2 ++ [.jdSend ⟨0, spec.cmdFloodPing, tmp⟩])
  else (state, [])

/-- The watchdog in `jd_ctrl_process`. -/
def checkWatchdog (now : Nat) (state : CtrlState) : List CtrlCall :=
  if state.watchdog ≠ 0 ∧ inPast now state.watchdog then [.targetReset] else []

/-- `jd_ctrl_process`. -/
def process (spec : ControlSpec) (now : Nat) (jdTxIsIdle : Bool) (state : CtrlState) : CtrlState × List CtrlCall :=
  let flooded := state.processFlood spec jdTxIsIdle
  (flooded.1, flooded.2 ++ flooded.1.checkWatchdog now)

/-- The weak `target_standby`. -/
def targetStandby : List CtrlCall := [.targetReset]

/-- `jd_ctrl_handle_packet`, where it touches the fields or resets. -/
def handlePacket (spec : ControlSpec) (now : Nat) (pkt : ServiceRequest) (state : CtrlState) :
    CtrlState × List CtrlCall :=
  if pkt.serviceCommand = spec.cmdReset then (state, [.targetReset])
  else if pkt.serviceCommand = spec.cmdStandby then (state, targetStandby)
  else if pkt.serviceCommand = spec.cmdFloodPing then
    match spec.floodPing pkt.data with
    | none => (state, [])
    | some arg =>
      setFlood (u32 arg.numResponses) { state with floodCounter := u32 arg.startCounter, floodSize := u8 arg.size }
  else if pkt.serviceCommand = jdGet spec.resetIn then
    let d := if state.watchdog ≠ 0 then u32 (state.watchdog + 4294967296 - now) else state.watchdog
    (state, [.jdSend (pkt.respond (littleEndian 4 d))])
  else if pkt.serviceCommand = jdSet spec.resetIn then
    if pkt.data.length = 4 then
      let delta := fromLittle pkt.data
      ({ state with watchdog := if delta ≠ 0 then u32 (now + delta) else 0 }, [])
    else (state, [])
  else (state, [])

/-- The flood fields change as in the service without its watchdog and its locks. -/
theorem handlePacket_flood (spec : ControlSpec) (now : Nat) (pkt : ServiceRequest) (state : CtrlState) :
    (state.handlePacket spec now pkt).1.toControlState =
      state.toControlState.handlePacket spec.toServiceSpec pkt := by
  unfold handlePacket ControlState.handlePacket
  by_cases ping : pkt.serviceCommand = spec.cmdFloodPing
  · obtain ⟨reset, standby⟩ := spec.not_reset (.inl ping)
    rw [if_neg reset, if_neg standby, if_pos ping, if_pos ping]
    cases spec.floodPing pkt.data with
    | none => rfl
    | some arg => rfl
  · rw [if_neg ping, if_neg ping]
    split_ifs <;> rfl

theorem processFlood_flood (spec : ControlSpec) (idle : Bool) (state : CtrlState) :
    ((state.processFlood spec idle).1.toControlState, (state.processFlood spec idle).2.filterMap CtrlCall.report) =
      state.toControlState.processFlood spec.toServiceSpec idle := by
  unfold processFlood ControlState.processFlood
  split
  · simp only [setFlood]
    split
    · rfl
    · split <;> rfl
  · rfl

end CtrlState

/-- A packet for the service or a call of `jd_ctrl_process`, at a time that is not truncated. -/
inductive CtrlEvent where
  | packet (now : Nat) (pkt : ServiceRequest)
  | process (now : Nat) (jdTxIsIdle : Bool)

namespace CtrlEvent

def time : CtrlEvent → Nat
  | .packet now _ => now
  | .process now _ => now

/-- It is a call that sees an idle bus. -/
def idleTick : CtrlEvent → Bool
  | .packet _ _ => false
  | .process _ idle => idle

end CtrlEvent

/-- The service over runs. -/
def ctrlService (spec : ControlSpec) : Machine CtrlState CtrlEvent CtrlCall where
  step state
    | .packet now pkt => state.handlePacket spec (u32 now) pkt
    | .process now idle => state.process spec (u32 now) idle

/-- The service as `jd_ctrl_init` leaves it. -/
def CtrlState.init : CtrlState := { floodSize := 0, floodCounter := 0, floodRemaining := 0, watchdog := 0 }

end Jacdac
