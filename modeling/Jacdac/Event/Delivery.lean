import Jacdac.Event.QueueInvariant
import Jacdac.Event.Client

/-! Events from `jd_send_event_ext` to the client: every transmission carries the
number of its event, which the code never sees. -/

namespace Jacdac

structure EventWorld where
  info : EventInfo
  /-- All events raised so far. -/
  raised : List Packet
  /-- How many of them have left the queue. -/
  gone : Nat
  /-- Transmissions on the bus, oldest first. -/
  bus : List (Nat × Packet)
  device : ClientDevice
  /-- Events emitted by the client as `JD_CLIENT_EV_SERVICE_PACKET`. -/
  emitted : List (Nat × Packet)
  /-- No transmission was lost so far. -/
  lossless : Bool

namespace EventWorld

/-- A raised event; `accepted` is whether its first `jd_send` returned 0. -/
def raise (world : EventWorld) (packet : Packet) (info : EventInfo) (left : Nat) (accepted : Bool) :
    EventWorld :=
  { world with
    info
    raised := world.raised ++ [packet]
    gone := world.gone + left
    bus := world.bus ++ if accepted then [(world.raised.length, packet)] else []
    lossless := world.lossless && accepted }

def repeated (world : EventWorld) (pass : EventInfo.Pass) : EventWorld :=
  { world with
    info := pass.info
    gone := world.gone + pass.left
    bus := world.bus ++ pass.sent.map fun entry => (world.gone + entry.1, entry.2) }

def received (world : EventWorld) (item : Nat × Packet) (rest : List (Nat × Packet))
    (device : ClientDevice) (events : List ClientEvent) : EventWorld :=
  { world with
    bus := rest
    device
    emitted := world.emitted ++ if .servicePacket ∈ events then [item] else [] }

end EventWorld

/-- Runs of a server with `numServices` services and a client that has it
registered, over a bus that keeps order. -/
inductive EventRun (steady numServices : Nat) : EventWorld → Prop where
  | boot (services : numServices ≤ 32) (announceFlags : Nat) :
      EventRun steady numServices
        ⟨.boot, [], 0, [], ⟨numServices, announceFlags, 0xff⟩, [], true⟩
  | raise (run : EventRun steady numServices world) (now : Nat) (serviceIndex : UInt8)
      (eventId : Nat) (data : List UInt8) (registered : serviceIndex.toNat < numServices)
      (short : data.length ≤ 120)
      (raised : world.info.jdSendEventExt now serviceIndex eventId data = .ok (packet, next, left))
      (accepted : Bool) : EventRun steady numServices (world.raise packet next left accepted)
  | process {pass : EventInfo.Pass} (run : EventRun steady numServices world) (now : Nat) (accept : Nat → Bool)
      (fuel : Nat) (processed : world.info.doProcessEventQueue now accept fuel = some pass) :
      EventRun steady numServices (world.repeated pass)
  | lose (run : EventRun steady numServices world) (bus : world.bus = before ++ item :: after) :
      EventRun steady numServices { world with bus := before ++ after, lossless := false }
  | receive (run : EventRun steady numServices world) (bus : world.bus = item :: rest)
      (handled : jdClientHandlePacket steady (some world.device) 0 item.2 = (some device, events)) :
      EventRun steady numServices (world.received item rest device events)

/-- Scanning transmissions from the one for event `next` on: each one is the
next event for the first time, or an earlier event again; `stop` comes after them. -/
def InTurn : Nat → List (Nat × Packet) → Nat → Prop
  | next, [], stop => next = stop
  | next, item :: rest, stop =>
    (item.1 = next ∧ InTurn (next + 1) rest stop) ∨ (item.1 < next ∧ InTurn next rest stop)

theorem InTurn.append (first : InTurn next items middle) (second : InTurn middle more stop) :
    InTurn next (items ++ more) stop := by
  induction items generalizing next with
  | nil =>
    rw [show next = middle from first]
    exact second
  | cons item rest ih =>
    rcases first with ⟨same, tail⟩ | ⟨old, tail⟩
    · exact .inl ⟨same, ih tail⟩
    · exact .inr ⟨old, ih tail⟩

theorem InTurn.of_old (old : ∀ item ∈ items, item.1 < stop) : InTurn stop items stop := by
  induction items with
  | nil => rfl
  | cons item rest ih => exact .inr ⟨old item (by simp), ih fun other member => old other (by simp [member])⟩

/-- A repetition is never more than 16 events behind anything sent before it. -/
def Near (earlier later : Nat × Packet) : Prop := earlier.1 ≤ later.1 + 16

structure EventWorld.Invariant (numServices : Nat) (world : EventWorld) : Prop where
  services : numServices ≤ 32
  device : world.device.numServices = numServices
  holds : world.info.Holds (world.raised.drop world.gone)
  gone : world.gone ≤ world.raised.length
  counter : world.info.counter = world.raised.length % 256
  events : ∀ number packet, world.raised[number]? = some packet →
    jdIsEvent 0 packet = true ∧ packet.serviceIndex.toNat < numServices ∧
      eventCounterOf packet = (number + 1) % 128
  known : ∀ item ∈ world.emitted ++ world.bus, world.raised[item.1]? = some item.2
  near : (world.emitted ++ world.bus).Pairwise Near
  increasing : world.emitted.Pairwise fun first second => first.1 < second.1
  last : (world.emitted = [] ∧ world.device.eventCounter = 0xff) ∨
    ∃ earlier last, world.emitted = earlier ++ [last] ∧
      world.device.eventCounter = (last.1 + 1) % 128
  complete : world.lossless = true → InTurn world.emitted.length world.bus world.raised.length ∧
    world.emitted.map Prod.fst = List.range world.emitted.length

theorem lt_length_of_known {raised : List Packet} {number : Nat} (known : raised[number]? = some packet) :
    number < raised.length :=
  (List.getElem?_eq_some_iff.mp known).1

theorem known_append {raised : List Packet} {number : Nat} (known : raised[number]? = some packet)
    (more : List Packet) : (raised ++ more)[number]? = some packet := by
  rwa [List.getElem?_append_left (lt_length_of_known known)]

/-- A raised packet is an event of its service with the next counter value. -/
theorem raised_event (services : numServices ≤ 32) (registered : serviceIndex.toNat < numServices)
    (counter : count = number % 256) (eventId : Nat) (data : List UInt8) :
    jdIsEvent 0 ⟨serviceIndex, cmdEventMk (count + 1) eventId, data⟩ = true ∧
      eventCounterOf ⟨serviceIndex, cmdEventMk (count + 1) eventId, data⟩ = (number + 1) % 128 := by
  have normal : serviceIndex ≤ serviceIndexMaxNormal := by
    rw [UInt8.le_iff_toNat_le]
    exact Nat.le_trans (Nat.le_of_lt registered) (Nat.le_trans services (by decide))
  constructor
  · simp only [jdIsEvent, decide_eq_true_eq]
    refine ⟨by decide, normal, ?_⟩
    unfold cmdEventMk
    omega
  · simp only [eventCounterOf, cmdEventMk]
    omega

/-- New transmissions of recent events go on the bus. -/
theorem near_append {items more : List (Nat × Packet)} (near : items.Pairwise Near)
    (below : ∀ item ∈ items ++ more, item.1 < stop) (recent : ∀ item ∈ more, stop ≤ item.1 + 17) :
    (items ++ more).Pairwise Near := by
  have close : ∀ first ∈ items ++ more, ∀ second ∈ more, Near first second := by
    intro first member second later
    have := below first member
    have := recent second later
    unfold Near
    omega
  refine List.pairwise_append.mpr ⟨near, ?_, fun first member => close first (by simp [member])⟩
  exact List.pairwise_of_forall_mem_list fun first member => close first (by simp [member])

theorem EventWorld.Invariant.raise {world : EventWorld} (invariant : world.Invariant numServices)
    (registered : serviceIndex.toNat < numServices) (short : data.length ≤ 120)
    (raised : world.info.jdSendEventExt now serviceIndex eventId data = .ok (packet, next, left))
    (accepted : Bool) : (world.raise packet next left accepted).Invariant numServices := by
  have normal : serviceIndex < 0x80 := by
    have services := invariant.services
    rw [UInt8.lt_iff_toNat_lt]
    exact Nat.lt_of_lt_of_le registered (Nat.le_trans services (by decide))
  obtain ⟨rfl, counter, within, held⟩ := invariant.holds.raise normal short raised
  have gone := invariant.gone
  rw [List.length_drop] at within
  have event := raised_event invariant.services registered invariant.counter eventId data
  exact
    { services := invariant.services
      device := invariant.device
      holds := by
        rw [List.drop_drop] at held
        simp only [EventWorld.raise]
        rwa [List.drop_append_of_le_length (by omega)]
      gone := by simp only [EventWorld.raise, List.length_append, List.length_singleton]; omega
      counter := by
        have counted := invariant.counter
        simp only [EventWorld.raise, List.length_append, List.length_singleton]
        omega
      events := by
        intro number packet known
        simp only [EventWorld.raise] at known
        by_cases earlier : number < world.raised.length
        · rw [List.getElem?_append_left earlier] at known
          exact invariant.events number packet known
        · have bound := lt_length_of_known known
          have latest : number = world.raised.length := by
            simp only [List.length_append, List.length_singleton] at bound
            omega
          subst latest
          rw [List.getElem?_concat_length] at known
          cases known
          exact ⟨event.1, registered, event.2⟩
      known := by
        intro item member
        simp only [EventWorld.raise, ← List.append_assoc] at member ⊢
        rcases List.mem_append.mp member with old | new
        · exact known_append (invariant.known item old) _
        · split at new
          · rw [List.mem_singleton.mp new]
            exact List.getElem?_concat_length ..
          · cases new
      near := by
        simp only [EventWorld.raise, ← List.append_assoc]
        refine @near_append (world.raised.length + 1) _ _ invariant.near ?_ ?_
        · intro item member
          rcases List.mem_append.mp member with old | new
          · exact Nat.lt_succ_of_lt (lt_length_of_known (invariant.known item old))
          · split at new
            · rw [List.mem_singleton.mp new]
              exact Nat.lt_succ_self _
            · cases new
        · intro item new
          split at new
          · rw [List.mem_singleton.mp new]
            exact Nat.add_le_add_left (by decide) _
          · cases new
      increasing := invariant.increasing
      last := invariant.last
      complete := by
        intro lossless
        obtain ⟨before, rfl⟩ := Bool.and_eq_true_iff.mp lossless
        obtain ⟨turn, order⟩ := invariant.complete before
        refine ⟨?_, order⟩
        simp only [EventWorld.raise, ↓reduceIte, List.length_append, List.length_singleton]
        exact turn.append (.inl ⟨rfl, rfl⟩) }

/-- Queue repetitions are known, recent events. -/
theorem EventWorld.Invariant.repeated {world : EventWorld} {pass : EventInfo.Pass} (invariant : world.Invariant numServices)
    (processed : world.info.doProcessEventQueue now accept fuel = some pass) :
    (world.repeated pass).Invariant numServices := by
  obtain ⟨held, within, sent, counter⟩ := invariant.holds.process processed
  have short := invariant.holds.length_le
  have gone := invariant.gone
  rw [List.length_drop] at within short
  have again : ∀ item ∈ pass.sent.map fun entry => (world.gone + entry.1, entry.2),
      world.raised[item.1]? = some item.2 ∧ world.gone ≤ item.1 := by
    intro item member
    obtain ⟨entry, listed, rfl⟩ := List.mem_map.mp member
    have known := sent entry listed
    rw [List.getElem?_drop] at known
    exact ⟨known, Nat.le_add_right ..⟩
  have known : ∀ item ∈ world.emitted ++ (world.repeated pass).bus,
      world.raised[item.1]? = some item.2 := by
    intro item member
    simp only [EventWorld.repeated, ← List.append_assoc] at member
    rcases List.mem_append.mp member with old | new
    · exact invariant.known item old
    · exact (again item new).1
  exact
    { invariant with
      holds := by
        rw [List.drop_drop] at held
        exact held
      gone := by simp only [EventWorld.repeated]; omega
      counter := counter.trans invariant.counter
      known := known
      near := by
        simp only [EventWorld.repeated, ← List.append_assoc] at known ⊢
        refine near_append invariant.near (fun item member => lt_length_of_known (known item member)) ?_
        intro item new
        have := (again item new).2
        omega
      complete := by
        intro lossless
        obtain ⟨turn, order⟩ := invariant.complete lossless
        refine ⟨turn.append (.of_old ?_), order⟩
        intro item new
        exact lt_length_of_known (again item new).1 }

theorem EventWorld.Invariant.lose {world : EventWorld} (invariant : world.Invariant numServices)
    (bus : world.bus = before ++ item :: after) :
    Invariant numServices { world with bus := before ++ after, lossless := false } := by
  have lost : (world.emitted ++ (before ++ after)).Sublist (world.emitted ++ world.bus) := by
    rw [bus]
    exact ((List.sublist_cons_self item after).append_left before).append_left world.emitted
  exact
    { invariant with
      known := fun other member => invariant.known other (lost.subset member)
      near := invariant.near.sublist lost
      complete := by simp }

/-- In a run without loss the last emitted event is as late as events were emitted. -/
theorem last_of_range {earlier : List (Nat × Packet)}
    (order : (earlier ++ [last]).map Prod.fst = List.range (earlier ++ [last]).length) :
    last.1 + 1 = (earlier ++ [last]).length := by
  rw [List.length_append, List.length_singleton, List.range_succ, List.map_append] at order
  have tail := (List.append_inj' order rfl).2
  rw [List.length_append, List.length_singleton, ← List.singleton_inj.mp tail]

/-- The client emits an event only if it comes after all emitted ones. -/
theorem EventWorld.Invariant.later {world : EventWorld} (invariant : world.Invariant numServices)
    (bus : world.bus = item :: rest) (counter : eventCounterOf item.2 = (item.1 + 1) % 128)
    (accepted : acceptsEvent world.device.eventCounter (eventCounterOf item.2) = true) :
    ∀ earlier ∈ world.emitted, earlier.1 < item.1 := by
  rcases invariant.last with ⟨none, _⟩ | ⟨before, last, split, current⟩
  · simp [none]
  · have near : Near last item := by
      have near := invariant.near
      rw [split, bus, List.append_assoc] at near
      exact (List.pairwise_cons.mp (List.pairwise_append.mp near).2.1).1 item (by simp)
    have after : last.1 < item.1 := by
      by_contra old
      rw [current, counter, acceptsEvent_old (Nat.not_lt.mp old) (Nat.le_trans near (by omega))]
        at accepted
      cases accepted
    intro earlier member
    rw [split] at member
    rcases List.mem_append.mp member with old | same
    · have order := invariant.increasing
      rw [split] at order
      exact Nat.lt_trans ((List.pairwise_append.mp order).2.2 earlier old last (by simp)) after
    · rw [List.mem_singleton.mp same]
      exact after

/-- Without loss, the next event is always emitted. -/
theorem EventWorld.Invariant.accepts_next {world : EventWorld}
    (invariant : world.Invariant numServices) (lossless : world.lossless = true)
    (counter : eventCounterOf packet = (world.emitted.length + 1) % 128) :
    acceptsEvent world.device.eventCounter (eventCounterOf packet) = true := by
  rcases invariant.last with ⟨_, fresh⟩ | ⟨before, last, split, current⟩
  · rw [fresh]
    exact acceptsEvent_first _
  · have order := (invariant.complete lossless).2
    rw [split] at order
    rw [current, counter, split, ← last_of_range order]
    exact acceptsEvent_next _

theorem EventWorld.Invariant.received {world : EventWorld} (invariant : world.Invariant numServices)
    (bus : world.bus = item :: rest)
    (handled : jdClientHandlePacket steady (some world.device) 0 item.2 = (some after, codes)) :
    (world.received item rest after codes).Invariant numServices := by
  have known := invariant.known item (by simp [bus])
  obtain ⟨event, named, counter⟩ := invariant.events item.1 item.2 known
  rw [jdClientHandlePacket_event event (invariant.device ▸ named)] at handled
  split at handled
  · rename_i accepted
    cases handled
    have later := invariant.later bus counter accepted
    have emitted : (world.received item rest { world.device with eventCounter := eventCounterOf item.2 }
        [.servicePacket]).emitted = world.emitted ++ [item] := by simp [EventWorld.received]
    have regroup : world.emitted ++ [item] ++ rest = world.emitted ++ world.bus := by simp [bus]
    exact
      { invariant with
        known := by
          rw [emitted]
          simpa only [EventWorld.received, regroup] using invariant.known
        near := by
          rw [emitted]
          simpa only [EventWorld.received, regroup] using invariant.near
        increasing := by
          rw [emitted]
          refine List.pairwise_append.mpr ⟨invariant.increasing, List.pairwise_singleton .., ?_⟩
          intro earlier member last same
          rw [List.mem_singleton.mp same]
          exact later earlier member
        last := by
          rw [emitted]
          exact .inr ⟨world.emitted, item, rfl, counter⟩
        complete := by
          intro lossless
          obtain ⟨turn, order⟩ := invariant.complete lossless
          rw [bus] at turn
          rw [emitted, List.length_append, List.length_singleton, List.map_append, List.range_succ, order]
          rcases turn with ⟨next, tail⟩ | ⟨old, _⟩
          · exact ⟨tail, by simp [next]⟩
          · rcases invariant.last with ⟨none, _⟩ | ⟨before, last, split, _⟩
            · simp [none] at old
            · have after := later last (by simp [split])
              rw [split] at order old
              have := last_of_range order
              omega }
  · rename_i rejected
    cases handled
    have emitted : (world.received item rest world.device [.repeatedEventPacket]).emitted =
        world.emitted := by simp [EventWorld.received]
    have tail : (world.emitted ++ rest).Sublist (world.emitted ++ world.bus) := by
      rw [bus]
      exact (List.sublist_cons_self item rest).append_left world.emitted
    exact
      { invariant with
        known := by
          rw [emitted]
          exact fun other member => invariant.known other (tail.subset member)
        near := by
          rw [emitted]
          exact invariant.near.sublist tail
        increasing := by
          rw [emitted]
          exact invariant.increasing
        last := by
          rw [emitted]
          exact invariant.last
        complete := by
          intro lossless
          obtain ⟨turn, order⟩ := invariant.complete lossless
          rw [emitted]
          rw [bus] at turn
          rcases turn with ⟨next, _⟩ | ⟨_, tail⟩
          · rw [next] at counter
            exact absurd (invariant.accepts_next lossless counter) rejected
          · exact ⟨tail, order⟩ }

theorem EventRun.invariant (run : EventRun steady numServices world) :
    world.Invariant numServices := by
  induction run with
  | boot services announceFlags =>
    exact
      { services := services
        device := rfl
        holds := .boot
        gone := Nat.zero_le _
        counter := rfl
        events := by simp
        known := by simp
        near := .nil
        increasing := .nil
        last := .inl ⟨rfl, rfl⟩
        complete := fun _ => ⟨rfl, rfl⟩ }
  | raise _ now serviceIndex eventId data registered short raised accepted ih =>
    exact ih.raise registered short raised accepted
  | process _ now accept fuel processed ih => exact ih.repeated processed
  | lose _ bus ih => exact ih.lose bus
  | receive _ bus handled ih => exact ih.received bus handled

/-- In every run the emitted events are raised events in strictly increasing
order; once the bus of a run without loss is empty, each event was emitted. -/
theorem events_in_order (steady numServices : Nat) (run : EventRun steady numServices world) :
    (world.emitted.map Prod.fst).Pairwise (· < ·) ∧
    (∀ item ∈ world.emitted, world.raised[item.1]? = some item.2) ∧
    (world.lossless = true → world.bus = [] →
      world.emitted.map Prod.fst = List.range world.raised.length) := by
  have invariant := run.invariant
  refine ⟨List.pairwise_map.mpr invariant.increasing,
    fun item member => invariant.known item (by simp [member]), ?_⟩
  intro lossless drained
  obtain ⟨turn, order⟩ := invariant.complete lossless
  rw [drained] at turn
  rw [order, show world.emitted.length = world.raised.length from turn]

/-- One event, sent twice by the time it is received, is emitted once. -/
theorem events_in_order_repeated :
    ∃ world : EventWorld, world.raised.length = 1 ∧ world.emitted.map Prod.fst = [0] := by
  have boot : EventRun 15 2 _ := .boot (by decide) 0
  have raised := boot.raise 0 1 3 [5] (by decide) (by decide) rfl true
  have again := raised.process 30000 (fun _ => true) 4 rfl
  have first := again.receive rfl rfl
  have second := first.receive rfl rfl
  exact ⟨_, rfl, (events_in_order 15 2 second).2.2 rfl rfl⟩

end Jacdac
