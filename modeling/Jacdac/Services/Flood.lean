import Jacdac.Pipe.TableInvariant
import Jacdac.Services.Control
import Jacdac.Services.ReplySizes
import Mathlib.Algebra.Ring.Int.Defs

/-! Flood pings: the sleep lock that is held for them, and their reports. -/

namespace Jacdac

/-- The arguments of an event that is a flood ping. -/
def ControlSpec.command (spec : ControlSpec) : CtrlEvent → Option FloodPing
  | .packet _ pkt => if pkt.serviceCommand = spec.cmdFloodPing then spec.floodPing pkt.data else none
  | .process _ _ => none

/-- The reports among these calls. -/
def ControlSpec.pings (spec : ControlSpec) (calls : List CtrlCall) : List Packet :=
  (calls.filterMap CtrlCall.report).filter fun packet => packet.serviceCommand = spec.cmdFloodPing

/-- The report with this number that a command asks for. -/
def ControlSpec.report (spec : ControlSpec) (arg : FloodPing) (index : Nat) : Packet :=
  ⟨0, spec.cmdFloodPing,
    littleEndian 4 (u32 (arg.startCounter + index)) ++ (List.range (u8 arg.size)).map UInt8.ofNat⟩

def locksHeld (calls : List CtrlCall) : Int := (calls.map CtrlCall.lock).sum

/-- `jd_send` takes the packet when the bus is idle, so that the accumulated frame is empty. -/
def Packet.Taken (config : TxConfig) (packet : Packet) : Prop :=
  ∀ tx : TxState, tx.txAccBuffer.size = 0 →
    ∃ result, jdSend config tx packet.serviceIndex.toNat packet.serviceCommand packet.payload = .ok result

namespace CtrlState

def lockDue (state : CtrlState) : Int := if state.floodRemaining ≠ 0 then 1 else 0

/-- The event sends the last report of a flood, or stops it. -/
def EndsFlood (spec : ControlSpec) (state : CtrlState) (event : CtrlEvent) : Prop :=
  (state.floodRemaining = 1 ∧ event.idleTick = true) ∨
    (state.floodRemaining ≠ 0 ∧ ∃ arg, spec.command event = some arg ∧ u32 arg.numResponses = 0)

/-- A report that the event sends fits a frame. -/
def ReportFits (state : CtrlState) (event : CtrlEvent) : Prop :=
  event.idleTick = true → state.floodRemaining ≠ 0 → state.floodSize ≤ 228

end CtrlState

section Step

variable {spec : ControlSpec} {state : CtrlState} {event : CtrlEvent}

theorem ControlSpec.pings_append (first second : List CtrlCall) :
    spec.pings (first ++ second) = spec.pings first ++ spec.pings second := by
  rw [pings, List.filterMap_append, List.filter_append]
  rfl

@[simp] theorem ControlSpec.pings_setFlood (num : Nat) : spec.pings (state.setFlood num).2 = [] := by
  unfold CtrlState.setFlood
  dsimp only
  split
  · rfl
  · split <;> rfl

@[simp] theorem ControlSpec.pings_checkWatchdog (now : Nat) : spec.pings (state.checkWatchdog now) = [] := by
  unfold CtrlState.checkWatchdog
  split <;> rfl

/-- A reply to another command is no report. -/
theorem ControlSpec.pings_respond {pkt : ServiceRequest} (different : pkt.serviceCommand ≠ spec.cmdFloodPing)
    (payload : List UInt8) : spec.pings [.jdSend (pkt.respond payload)] = [] :=
  List.filter_cons_of_neg (fun same => different (of_decide_eq_true same))

@[simp] theorem locksHeld_checkWatchdog (now : Nat) : locksHeld (state.checkWatchdog now) = 0 := by
  unfold CtrlState.checkWatchdog
  split <;> rfl

theorem locksHeld_append (first second : List CtrlCall) :
    locksHeld (first ++ second) = locksHeld first + locksHeld second := by
  rw [locksHeld, List.map_append, List.sum_append]
  rfl

/-- The lock is taken at the start and once more at the end. -/
theorem CtrlState.setFlood_locks (num : Nat) :
    locksHeld (state.setFlood num).2 + state.lockDue = (state.setFlood num).1.lockDue ↔
      ¬ (state.floodRemaining ≠ 0 ∧ num = 0) := by
  unfold setFlood lockDue locksHeld
  by_cases idle : state.floodRemaining = 0 <;> by_cases none : num = 0 <;> simp [idle, none, CtrlCall.lock]

/-- What a call of `jd_ctrl_process` does for a flood. -/
theorem CtrlState.process_floods (spec : ControlSpec) (now : Nat) (floods : state.floodRemaining ≠ 0) :
    (state.process spec now true).1 =
        { state with floodCounter := u32 (state.floodCounter + 1), floodRemaining := state.floodRemaining - 1 } ∧
      spec.pings (state.process spec now true).2 = [⟨0, spec.cmdFloodPing, state.pingPayload⟩] := by
  unfold process processFlood
  rw [if_pos ⟨floods, rfl⟩]
  refine ⟨rfl, ?_⟩
  dsimp only
  rw [ControlSpec.pings_append, ControlSpec.pings_append, ControlSpec.pings_setFlood, ControlSpec.pings_checkWatchdog,
    List.nil_append, List.append_nil]
  simp [ControlSpec.pings, CtrlCall.report]

theorem CtrlState.process_rests (now : Nat) (idle : Bool) (rests : ¬ (state.floodRemaining ≠ 0 ∧ idle = true)) :
    state.process spec now idle = (state, state.checkWatchdog now) := by
  unfold process processFlood
  rw [if_neg rests]
  rfl

/-- Without a command or a report the flood and the lock stay as they are. -/
theorem ctrl_step_rests (other : spec.command event = none) (rests : ¬ (state.floodRemaining ≠ 0 ∧ event.idleTick = true)) :
    ((ctrlService spec).step state event).1.toControlState = state.toControlState ∧
      spec.pings ((ctrlService spec).step state event).2 = [] ∧
      locksHeld ((ctrlService spec).step state event).2 = 0 := by
  cases event with
  | process now idle =>
    show (state.process spec (u32 now) idle).1.toControlState = _ ∧ spec.pings (state.process spec (u32 now) idle).2 = [] ∧
      locksHeld (state.process spec (u32 now) idle).2 = 0
    rw [CtrlState.process_rests (u32 now) idle rests]
    exact ⟨rfl, ControlSpec.pings_checkWatchdog (u32 now), locksHeld_checkWatchdog (u32 now)⟩
  | packet now pkt =>
    show (state.handlePacket spec (u32 now) pkt).1.toControlState = _ ∧
      spec.pings (state.handlePacket spec (u32 now) pkt).2 = [] ∧ locksHeld (state.handlePacket spec (u32 now) pkt).2 = 0
    unfold CtrlState.handlePacket
    by_cases reset : pkt.serviceCommand = spec.cmdReset
    · rw [if_pos reset]
      exact ⟨rfl, rfl, rfl⟩
    rw [if_neg reset]
    by_cases standby : pkt.serviceCommand = spec.cmdStandby
    · rw [if_pos standby]
      exact ⟨rfl, rfl, rfl⟩
    rw [if_neg standby]
    split
    · rename_i ping
      have decoded : spec.floodPing pkt.data = none := (if_pos ping).symm.trans other
      rw [decoded]
      exact ⟨rfl, rfl, rfl⟩
    · rename_i different
      split
      · exact ⟨rfl, ControlSpec.pings_respond different _, rfl⟩
      · split
        · split <;> exact ⟨rfl, rfl, rfl⟩
        · exact ⟨rfl, rfl, rfl⟩

theorem ctrl_step_command (found : spec.command event = some arg) :
    (ctrlService spec).step state event = CtrlState.setFlood (u32 arg.numResponses)
      { state with floodCounter := u32 arg.startCounter, floodSize := u8 arg.size } := by
  cases event with
  | process now idle => cases found
  | packet now pkt =>
    obtain ⟨ping, decoded⟩ := Option.ite_none_right_eq_some.mp found
    show state.handlePacket spec (u32 now) pkt = _
    obtain ⟨reset, standby⟩ := spec.not_reset (.inl ping)
    rw [CtrlState.handlePacket, if_neg reset, if_neg standby, if_pos ping, decoded]

theorem ControlSpec.command_idleTick (found : spec.command event = some arg) : event.idleTick = false := by
  cases event with
  | process now idle => cases found
  | packet now pkt => rfl

theorem ctrl_step_locks :
    locksHeld ((ctrlService spec).step state event).2 + state.lockDue = ((ctrlService spec).step state event).1.lockDue ↔
      ¬ state.EndsFlood spec event := by
  cases found : spec.command event with
  | some arg =>
    have quiet := ControlSpec.command_idleTick found
    rw [ctrl_step_command found, CtrlState.EndsFlood, quiet]
    refine (CtrlState.setFlood_locks (u32 arg.numResponses)).trans (not_congr ?_)
    simp [found]
  | none =>
    by_cases floods : state.floodRemaining ≠ 0 ∧ event.idleTick = true
    · cases event with
      | packet now pkt => cases floods.2
      | process now idle =>
        obtain ⟨running, rfl⟩ := floods
        have locks : locksHeld (state.process spec (u32 now) true).2 =
            locksHeld (CtrlState.setFlood (state.floodRemaining - 1)
              { state with floodCounter := u32 (state.floodCounter + 1) }).2 := by
          unfold CtrlState.process CtrlState.processFlood
          rw [if_pos ⟨running, rfl⟩]
          dsimp only
          rw [locksHeld_append, locksHeld_append, locksHeld_checkWatchdog, add_zero]
          exact add_zero _
        show locksHeld (state.process spec (u32 now) true).2 + state.lockDue = (state.process spec (u32 now) true).1.lockDue ↔ _
        rw [locks, (CtrlState.process_floods spec (u32 now) running).1]
        refine (CtrlState.setFlood_locks (state.floodRemaining - 1)).trans (not_congr ?_)
        simp only [CtrlState.EndsFlood, found, CtrlEvent.idleTick, and_true, reduceCtorEq, false_and, exists_false,
          and_false, or_false]
        omega
    · obtain ⟨same, _, locks⟩ := ctrl_step_rests found floods
      rw [locks, CtrlState.lockDue, CtrlState.lockDue, congrArg ControlState.floodRemaining same, zero_add]
      refine iff_of_true rfl ?_
      rintro (⟨last, tick⟩ | ⟨_, arg, command, _⟩)
      · exact floods ⟨by omega, tick⟩
      · rw [found] at command
        cases command

end Step

theorem appendPacket_empty (packet : Packet) (cmd : packet.serviceCommand < 65536) {frame : Frame} (empty : frame.size = 0)
    (large : 232 < packet.serviceSize) (short : packet.serviceSize < 4294967292) :
    appendPacket frame packet.serviceIndex.toNat packet.serviceCommand packet.payload = .ok none := by
  have index := packet.serviceIndex.toNat_lt
  have need : u32 (packet.payload.length + 4) = packet.payload.length + 4 := u32_of_lt (Nat.add_lt_of_lt_sub short)
  have room : u32 (serialPayloadSize + 4294967296 - frame.size) = 236 := by rw [empty]; rfl
  have full : packet.payload.length + 4 > 236 := Nat.add_lt_add_right large 4
  simp only [appendPacket, jdPushInFrame, need, room]
  rw [if_neg (by omega), if_neg (by omega), if_pos full]

/-- A packet beyond the size of a frame ends in the assertion of `jd_send`, or before. -/
theorem Packet.taken_iff (config : TxConfig) {packet : Packet} (cmd : packet.serviceCommand < 65536)
    (short : packet.serviceSize < 4294967292) : packet.Taken config ↔ packet.serviceSize ≤ 232 := by
  constructor
  · intro taken
    by_contra large
    obtain ⟨result, sent⟩ := taken (.boot 512 512) rfl
    have first := appendPacket_empty packet cmd (rfl : (TxState.boot 512 512).txAccBuffer.size = 0)
      (Nat.lt_of_not_le large) short
    unfold jdSend at sent
    rw [first] at sent
    dsimp only at sent
    split at sent
    · cases sent
    · rename_i next emitted
      have empty : next.txAccBuffer.size = 0 := (emit_reset emitted).laid.symm
      rw [appendPacket_empty packet cmd empty (Nat.lt_of_not_le large) short] at sent
      cases sent
  · intro fits tx empty
    have room : tx.txAccBuffer.size + 4 + packet.payload.length ≤ serialPayloadSize := by
      have limit : serialPayloadSize = 236 := rfl
      unfold serviceSize at fits
      omega
    obtain ⟨next, appended, _⟩ := appendPacket_fits packet.serviceIndex.toNat_lt cmd room
    unfold jdSend
    rw [appended]
    exact ⟨_, rfl⟩

section Run

variable {spec : ControlSpec} {state : CtrlState} {event : CtrlEvent} {events : List CtrlEvent} {arg : FloodPing}

/-- In the course of the flood: this many reports are out. -/
structure CtrlState.Floods (state : CtrlState) (arg : FloodPing) (sent : Nat) : Prop where
  counter : state.floodCounter = u32 (arg.startCounter + sent)
  size : state.floodSize = u8 arg.size
  remaining : state.floodRemaining = u32 arg.numResponses - sent

theorem CtrlState.Floods.start (state : CtrlState) (found : spec.command event = some arg) :
    ((ctrlService spec).step state event).1.Floods arg 0 := by
  rw [ctrl_step_command found]
  exact ⟨rfl, rfl, rfl⟩

theorem CtrlState.Floods.step (floods : state.Floods arg sent) (other : spec.command event = none) :
    if state.floodRemaining ≠ 0 ∧ event.idleTick = true then
      ((ctrlService spec).step state event).1.Floods arg (sent + 1) ∧
        spec.pings ((ctrlService spec).step state event).2 = [spec.report arg sent]
    else
      ((ctrlService spec).step state event).1.Floods arg sent ∧ spec.pings ((ctrlService spec).step state event).2 = [] := by
  obtain ⟨counter, size, remaining⟩ := floods
  split
  · rename_i sends
    cases event with
    | packet now pkt => cases sends.2
    | process now idle =>
      obtain ⟨running, rfl⟩ := sends
      obtain ⟨next, pings⟩ := CtrlState.process_floods spec (u32 now) running
      show (state.process spec (u32 now) true).1.Floods arg (sent + 1) ∧ spec.pings (state.process spec (u32 now) true).2 = _
      rw [next, pings, pingPayload, counter, size]
      refine ⟨⟨?_, rfl, ?_⟩, rfl⟩
      · dsimp only
        unfold u32
        omega
      · dsimp only
        rw [remaining, Nat.sub_sub]
  · rename_i rests
    obtain ⟨same, pings, _⟩ := ctrl_step_rests other rests
    rw [pings]
    refine ⟨⟨?_, ?_, ?_⟩, rfl⟩
    · rw [same, counter]
    · rw [same, size]
    · rw [same, remaining]

/-- Until the next command the reports are those that it asks for, one at each look at an idle bus. -/
theorem CtrlState.Floods.run (floods : state.Floods arg sent) (others : ∀ event ∈ events, spec.command event = none) :
    spec.pings ((ctrlService spec).emitted state events) =
      (List.range (min (u32 arg.numResponses - sent) (events.countP CtrlEvent.idleTick))).map fun index =>
        spec.report arg (sent + index) := by
  induction events generalizing state sent with
  | nil =>
    rw [List.countP_nil, Nat.min_zero]
    rfl
  | cons event events ih =>
    have remaining := floods.remaining
    have step := floods.step (others event List.mem_cons_self)
    have later := fun other member => others other (List.mem_cons_of_mem event member)
    rw [Machine.emitted_cons, ControlSpec.pings_append]
    split at step
    · rename_i sends
      obtain ⟨next, pings⟩ := step
      rw [ih next later, pings, List.countP_cons_of_pos sends.2]
      have more : min (u32 arg.numResponses - sent) (events.countP CtrlEvent.idleTick + 1) =
          min (u32 arg.numResponses - (sent + 1)) (events.countP CtrlEvent.idleTick) + 1 := by
        have := sends.1
        omega
      rw [more, List.range_succ_eq_map, List.map_cons, List.map_map, List.singleton_append, Nat.add_zero]
      refine congrArg (spec.report arg sent :: ·) (List.map_congr_left fun index _ => ?_)
      rw [Function.comp_apply, Nat.succ_eq_add_one, Nat.add_right_comm, Nat.add_assoc]
    · rename_i rests
      obtain ⟨next, pings⟩ := step
      rw [ih next later, pings, List.nil_append]
      congr 2
      by_cases tick : event.idleTick = true
      · have done : state.floodRemaining = 0 := by
          by_contra running
          exact rests ⟨running, tick⟩
        rw [done] at remaining
        rw [← remaining, Nat.zero_min, Nat.zero_min]
      · rw [List.countP_cons_of_neg tick]

theorem ctrl_step_size (small : state.floodSize < 256) : ((ctrlService spec).step state event).1.floodSize < 256 := by
  cases found : spec.command event with
  | some arg =>
    rw [ctrl_step_command found]
    exact Nat.mod_lt _ (Nat.zero_lt_succ _)
  | none =>
    by_cases sends : state.floodRemaining ≠ 0 ∧ event.idleTick = true
    · cases event with
      | packet now pkt => cases sends.2
      | process now idle =>
        obtain ⟨running, rfl⟩ := sends
        show (state.process spec (u32 now) true).1.floodSize < 256
        rw [(CtrlState.process_floods spec (u32 now) running).1]
        exact small
    · rw [(ctrl_step_rests found sends).1]
      exact small

theorem ctrl_step_taken {config : TxConfig} (small : state.floodSize < 256) :
    (∀ packet ∈ spec.pings ((ctrlService spec).step state event).2, packet.Taken config) ↔ state.ReportFits event := by
  by_cases sends : state.floodRemaining ≠ 0 ∧ event.idleTick = true
  · cases event with
    | packet now pkt => cases sends.2
    | process now idle =>
      obtain ⟨running, rfl⟩ := sends
      have size : (⟨0, spec.cmdFloodPing, state.pingPayload⟩ : Packet).serviceSize = 4 + state.floodSize := by
        simp [Packet.serviceSize, CtrlState.pingPayload]
      have taken : Packet.Taken config ⟨0, spec.cmdFloodPing, state.pingPayload⟩ ↔ _ :=
        Packet.taken_iff config spec.ping_lt (by omega)
      show (∀ packet ∈ spec.pings (state.process spec (u32 now) true).2, packet.Taken config) ↔ _
      rw [(CtrlState.process_floods spec (u32 now) running).2]
      rw [size] at taken
      simp only [List.mem_singleton, forall_eq, taken, CtrlState.ReportFits, CtrlEvent.idleTick, forall_const]
      omega
  · have none : spec.pings ((ctrlService spec).step state event).2 = [] := by
      cases found : spec.command event with
      | some arg =>
        rw [ctrl_step_command found]
        exact ControlSpec.pings_setFlood _
      | none => exact (ctrl_step_rests found sends).2.1
    rw [none]
    exact iff_of_true (List.forall_mem_nil _) fun tick running => absurd ⟨running, tick⟩ sends

theorem ControlSpec.mem_pings {packet : Packet} {calls : List CtrlCall} :
    packet ∈ spec.pings calls ↔ .jdSend packet ∈ calls ∧ packet.serviceCommand = spec.cmdFloodPing := by
  have named : ∀ call : CtrlCall, call.report = some packet ↔ call = .jdSend packet := by
    intro call
    cases call <;> simp [CtrlCall.report]
  rw [pings, List.mem_filter, List.mem_filterMap, decide_eq_true_iff]
  simp [named]

theorem CtrlState.init_size (events : List CtrlEvent) : ((ctrlService spec).after .init events).floodSize < 256 := by
  have kept : ∀ state event, state.floodSize < 256 → True → ((ctrlService spec).step state event).1.floodSize < 256 :=
    fun _ _ small _ => ctrl_step_size small
  exact Machine.after_holds kept (Nat.zero_lt_succ 255) fun _ _ => trivial

end Run

/-- From the start on, in every run: there is one sleep lock more taken than released exactly while a
flood is going on, every command is followed by the reports that it asks for until the next one, and
`jd_send` takes every report, exactly if no step ends a flood and every report fits a frame. -/
theorem flood_ping_iff (spec : ControlSpec) (config : TxConfig) (events : List CtrlEvent) :
    ((∀ early late, events = early ++ late →
        locksHeld ((ctrlService spec).emitted .init early) =
          if ((ctrlService spec).after .init early).floodRemaining ≠ 0 then 1 else 0) ∧
      (∀ early event middle late arg, events = early ++ event :: (middle ++ late) → spec.command event = some arg →
        (∀ other ∈ middle, spec.command other = none) →
          spec.pings ((ctrlService spec).emitted ((ctrlService spec).after .init (early ++ [event])) middle) =
            (List.range (min (u32 arg.numResponses) (middle.countP CtrlEvent.idleTick))).map (spec.report arg)) ∧
      ∀ packet ∈ spec.pings ((ctrlService spec).emitted .init events), packet.Taken config) ↔
    ∀ early event late, events = early ++ event :: late →
      ¬ ((ctrlService spec).after .init early).EndsFlood spec event ∧
        ((ctrlService spec).after .init early).ReportFits event := by
  have locks : (∀ early late, events = early ++ late →
      locksHeld ((ctrlService spec).emitted .init early) = ((ctrlService spec).after .init early).lockDue) ↔
      ∀ early event late, events = early ++ event :: late →
        ¬ ((ctrlService spec).after .init early).EndsFlood spec event := by
    have tracks := (ctrlService spec).tracks_iff .init events CtrlCall.lock CtrlState.lockDue
    have free : CtrlState.init.lockDue = 0 := rfl
    have sum : ∀ calls, (calls.map CtrlCall.lock).sum = locksHeld calls := fun _ => rfl
    simp only [sum, free, add_zero, ctrl_step_locks] at tracks
    exact tracks
  have reports : ∀ early event middle late arg, events = early ++ event :: (middle ++ late) →
      spec.command event = some arg → (∀ other ∈ middle, spec.command other = none) →
        spec.pings ((ctrlService spec).emitted ((ctrlService spec).after .init (early ++ [event])) middle) =
          (List.range (min (u32 arg.numResponses) (middle.countP CtrlEvent.idleTick))).map (spec.report arg) := by
    intro early event middle late arg _ found others
    rw [Machine.after_concat]
    have run := (CtrlState.Floods.start ((ctrlService spec).after .init early) found).run others
    simpa using run
  have taken : (∀ packet ∈ spec.pings ((ctrlService spec).emitted .init events), packet.Taken config) ↔
      ∀ early event late, events = early ++ event :: late → ((ctrlService spec).after .init early).ReportFits event := by
    have each : ∀ early event, (∀ packet ∈ spec.pings ((ctrlService spec).step
        ((ctrlService spec).after .init early) event).2, packet.Taken config) ↔
          ((ctrlService spec).after .init early).ReportFits event :=
      fun early event => ctrl_step_taken (CtrlState.init_size early)
    constructor
    · intro all early event late split
      refine (each early event).mp fun packet member => all packet ?_
      obtain ⟨called, ping⟩ := ControlSpec.mem_pings.mp member
      exact ControlSpec.mem_pings.mpr ⟨Machine.mem_emitted.mpr ⟨early, event, late, split, called⟩, ping⟩
    · intro fits packet member
      obtain ⟨called, ping⟩ := ControlSpec.mem_pings.mp member
      obtain ⟨early, event, late, split, now⟩ := Machine.mem_emitted.mp called
      exact (each early event).mpr (fits early event late split) packet
        (ControlSpec.mem_pings.mpr ⟨now, ping⟩)
  constructor
  · rintro ⟨held, _, out⟩ early event late split
    exact ⟨locks.mp held early event late split, taken.mp out early event late split⟩
  · intro steps
    exact ⟨locks.mpr fun early event late split => (steps early event late split).1, reports,
      taken.mpr fun early event late split => (steps early event late split).2⟩

/-- Codes like those of the specification. -/
def sampleControlSpec : ControlSpec where
  toServiceSpec := sampleSpec
  cmdReset := 0x82
  cmdStandby := 0x85
  resetIn := ⟨0x80, by decide⟩
  ping_lt := by decide
  labels := by decide

/-- The command that asks for one flood ping with two bytes, from counter 5 on. -/
def onePing : ServiceRequest := ⟨0, 0x83, false, 0, [1, 0, 0, 0, 5, 0, 0, 0, 2], by decide⟩

/-- After the only report of a flood there are two locks. -/
theorem flood_ping_unbalanced :
    let events := [.packet 0 onePing, .process 0 true]
    ((ctrlService sampleControlSpec).after .init events).floodRemaining = 0 ∧
      locksHeld ((ctrlService sampleControlSpec).emitted .init events) = 2 := by
  decide +kernel

end Jacdac
