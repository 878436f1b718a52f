import Jacdac.Event.Retransmission
import Mathlib.Data.List.Count

/-! Runs of the event queue: events are raised and the queue is processed at
times that do not go back, while `jd_send` may fail at any time. -/

namespace Jacdac

/-- The queue with an account of its events, which the code does not keep. Times
do not wrap here. -/
structure QueueWorld where
  info : EventInfo
  time : Nat
  /-- The events put into the queue so far, with their times. -/
  events : List (Packet × Nat)
  /-- How many of them have left it. -/
  gone : Nat
  /-- The transmissions from the queue, with the number of the event. -/
  sent : List (Nat × Packet)
  /-- The events that made room for a new one. -/
  evicted : List Nat

namespace QueueWorld

def boot : QueueWorld := ⟨.boot, 0, [], 0, [], []⟩

/-- An event was raised; one that is too long is not queued. -/
def raise (world : QueueWorld) (time : Nat) (packet : Packet) (info : EventInfo) (left : Nat) : QueueWorld where
  info := info
  time := time
  events := world.events ++ if packet.payload.length + 8 > eventQueueSize then [] else [(packet, time)]
  gone := world.gone + left
  sent := world.sent
  evicted := world.evicted ++ List.range' world.gone left

/-- `do_process_event_queue` returned. -/
def process (world : QueueWorld) (time : Nat) (pass : EventInfo.Pass) : QueueWorld where
  info := pass.info
  time := time
  events := world.events
  gone := world.gone + pass.left
  sent := world.sent ++ pass.sent.map fun entry => (world.gone + entry.1, entry.2)
  evicted := world.evicted

/-- No event is in the queue for half the range of the clock. -/
def Timely (world : QueueWorld) (time : Nat) : Prop :=
  ∀ event ∈ world.events.drop world.gone, time < event.2 + 2147483648

end QueueWorld

/-- The runs of the queue of a device with `numServices` services. -/
inductive EventQueueRun (numServices : Nat) : QueueWorld → Prop where
  | boot (services : numServices ≤ 32) : EventQueueRun numServices .boot
  | raise {world : QueueWorld} (run : EventQueueRun numServices world) (time : Nat) (later : world.time ≤ time)
      (serviceIndex : UInt8) (registered : serviceIndex.toNat < numServices) (eventId : Nat) (data : List UInt8)
      (raised : world.info.jdSendEventExt (u32 time) serviceIndex eventId data = .ok (packet, next, left)) :
      EventQueueRun numServices (world.raise time packet next left)
  | process {world : QueueWorld} {pass : EventInfo.Pass} (run : EventQueueRun numServices world) (time : Nat)
      (later : world.time ≤ time) (timely : world.Timely time) (accept : Nat → Bool) (fuel : Nat)
      (processed : world.info.doProcessEventQueue (u32 time) accept fuel = some pass) :
      EventQueueRun numServices (world.process time pass)

namespace EventInfo

theorem processFrom_more {pass result : Pass} (ran : processFrom now accept fuel pass index ev = some result) (more : Nat) :
    processFrom now accept (fuel + more) pass index ev = some result := by
  induction fuel generalizing pass index ev with
  | zero => cases ran
  | succ fuel ih =>
    rw [Nat.succ_add, Nat.succ_eq_add_one]
    unfold processFrom at ran ⊢
    dsimp only at ran ⊢
    split at ran
    · rename_i inside
      rw [if_pos inside]
      split at ran
      · rename_i marked
        rw [if_pos marked]
        split at ran
        · rename_i head
          rw [if_pos head]
          exact ih ran
        · rename_i behind
          rw [if_neg behind]
          exact ih ran
      · rename_i live
        rw [if_neg live]
        split at ran
        · rename_i due
          rw [if_pos due]
          split at ran
          · rename_i refused
            rwa [if_pos refused]
          · rename_i accepted
            rw [if_neg accepted]
            split at ran
            · rename_i second
              rw [if_pos second]
              split at ran
              · rename_i head
                rw [if_pos head]
                exact ih ran
              · rename_i behind
                rw [if_neg behind]
                exact ih ran
            · rename_i first
              rw [if_neg first]
              exact ih ran
        · rename_i early
          rw [if_neg early]
          exact ih ran
    · rename_i ended
      rwa [if_neg ended]

end EventInfo

theorem sendsOf_shift (sent : List (Nat × Packet)) (base number : Nat) :
    sendsOf (sent.map fun entry => (base + entry.1, entry.2)) (base + number) = sendsOf sent number := by
  unfold sendsOf
  rw [List.map_map]
  have shifted : sent.map (Prod.fst ∘ fun entry => (base + entry.1, entry.2)) =
      (sent.map Prod.fst).map (base + ·) := by
    rw [List.map_map]
    rfl
  rw [shifted]
  exact List.count_map_of_injective _ _ (fun _ _ same => Nat.add_left_cancel same) number

theorem sendsOf_eq_zero {sent : List (Nat × Packet)} (absent : ∀ entry ∈ sent, entry.1 ≠ number) :
    sendsOf sent number = 0 := by
  apply List.count_eq_zero.mpr
  intro member
  obtain ⟨entry, inside, same⟩ := List.mem_map.mp member
  exact absent entry inside same

/-- Numbers before the shift do not occur. -/
theorem sendsOf_before (sent : List (Nat × Packet)) (before : number < base) :
    sendsOf (sent.map fun entry => (base + entry.1, entry.2)) number = 0 := by
  apply sendsOf_eq_zero
  intro entry member
  obtain ⟨first, _, rfl⟩ := List.mem_map.mp member
  dsimp only
  omega

namespace QueueWorld

/-- What holds of the queue between two calls; `pending` are the events in it. -/
structure Sound (numServices : Nat) (world : QueueWorld) (pending : List PendingEvent) : Prop where
  services : numServices ≤ 32
  queued : Queued world.info.buffer 0 (pending.map PendingEvent.record) world.info.qptr
  bound : world.info.qptr ≤ eventQueueSize
  scheduled : pending.Pairwise PendingEvent.Before
  events : pending.map (fun event => (event.packet, event.raisedAt)) = world.events.drop world.gone
  gone : world.gone ≤ world.events.length
  raised : ∀ event ∈ pending, event.raisedAt ≤ world.time ∧ event.packet.serviceIndex.toNat < numServices
  sends : ∀ offset event, pending[offset]? = some event → sendsOf world.sent (world.gone + offset) = event.sends
  left : ∀ number < world.gone, sendsOf world.sent number = 2 ∨
    number ∈ world.evicted ∧ sendsOf world.sent number ≤ 1
  sent : ∀ entry ∈ world.sent, ∃ event, world.events[entry.1]? = some event ∧ event.1 = entry.2

namespace Sound

variable {numServices time left fuel : Nat} {world : QueueWorld} {pending after : List PendingEvent}
  {sent : List (Nat × Packet)}

theorem start (services : numServices ≤ 32) : Sound numServices .boot [] where
  services := services
  queued := rfl
  bound := Nat.zero_le _
  scheduled := List.Pairwise.nil
  events := rfl
  gone := Nat.le_refl _
  raised := fun _ member => nomatch member
  sends := nofun
  left := fun _ none_ => absurd none_ (Nat.not_lt_zero _)
  sent := fun _ member => nomatch member

theorem length (sound : Sound numServices world pending) : world.gone + pending.length = world.events.length := by
  have length := congrArg List.length sound.events
  have gone := sound.gone
  rw [List.length_map, List.length_drop] at length
  omega

/-- The event at some place in the queue. -/
theorem event_at (sound : Sound numServices world pending) (found : pending[offset]? = some event) :
    world.events[world.gone + offset]? = some (event.packet, event.raisedAt) := by
  rw [← List.getElem?_drop, ← sound.events, List.getElem?_map, found]
  rfl

/-- What was not raised yet was not sent. -/
theorem unsent (sound : Sound numServices world pending) (beyond : world.events.length ≤ number) :
    sendsOf world.sent number = 0 := by
  apply sendsOf_eq_zero
  intro entry member same
  obtain ⟨event, known, _⟩ := sound.sent entry member
  have inside := (List.getElem?_eq_some_iff.mp known).1
  omega

theorem walking (sound : Sound numServices world pending) (time : Nat) : Walking time [] pending where
  scheduled := sound.scheduled
  waiting := fun _ member => nomatch member
  head := fun none_ => absurd rfl none_

theorem timely (sound : Sound numServices world pending) (later : world.time ≤ time) (timely : world.Timely time) :
    ∀ event ∈ pending, event.Timely time := by
  intro event member
  obtain ⟨raised, index⟩ := sound.raised event member
  have services := sound.services
  have held : (event.packet, event.raisedAt) ∈ world.events.drop world.gone := by
    rw [← sound.events]
    exact List.mem_map.mpr ⟨event, member, rfl⟩
  exact ⟨by omega, by omega, timely _ held⟩

/-- The queue can be processed at any time: the loop ends, and marks nothing. -/
theorem processes (sound : Sound numServices world pending) (later : world.time ≤ time) (timely : world.Timely time)
    (accept : Nat → Bool) (enough : pending.length < fuel) :
    let visited := visit time accept [] pending [] 0
    world.info.marks (u32 time) accept fuel = false ∧
    ∃ pass, world.info.doProcessEventQueue (u32 time) accept fuel = some pass ∧
      pass.sent = visited.sent ∧ pass.left = visited.left ∧ pass.info.counter = world.info.counter ∧
      EventInfo.Packed pass visited.pending [] pass.info.qptr := by
  have packed : EventInfo.Packed ⟨world.info, [], 0⟩ [] pending 0 := ⟨rfl, sound.queued, sound.bound⟩
  exact EventInfo.processFrom_visit time accept pending packed (sound.walking time) (sound.timely later timely) enough

/-- What the account says of a call. -/
theorem tallied (sound : Sound numServices world pending) (scheduled : after.Pairwise PendingEvent.Before)
    (tally : Tally pending after [] sent left) (later : world.time ≤ time) {pass : EventInfo.Pass}
    (sends : pass.sent = sent) (leaves : pass.left = left)
    (packed : EventInfo.Packed pass after [] pass.info.qptr) :
    Sound numServices (world.process time pass) after := by
  subst sends leaves
  have total := tally.length
  have length := sound.length
  rw [List.length_nil] at total
  have number : ∀ offset, world.gone + pass.left + offset = world.gone + (pass.left + offset) := Nat.add_assoc _ _
  exact
    { services := sound.services
      queued := packed.done
      bound := packed.bound
      scheduled := scheduled
      events := by
        apply List.ext_getElem?
        intro offset
        show _ = (world.events.drop (world.gone + pass.left))[offset]?
        rw [List.getElem?_map, List.getElem?_drop, number]
        cases found : after[offset]? with
        | some event =>
          obtain ⟨old, place, packet, raised, _⟩ := tally.origin_of_left found
          rw [sound.event_at place, Option.map_some, packet, raised]
        | none =>
          have beyond := List.getElem?_eq_none_iff.mp found
          exact (List.getElem?_eq_none (by omega)).symm
      gone := by
        show world.gone + pass.left ≤ world.events.length
        omega
      raised := by
        intro event member
        obtain ⟨offset, found⟩ := List.mem_iff_getElem?.mp member
        obtain ⟨old, place, packet, raised, _⟩ := tally.origin_of_left found
        obtain ⟨earlier, index⟩ := sound.raised old (List.mem_of_getElem? place)
        rw [packet, raised]
        exact ⟨earlier.trans later, index⟩
      sends := by
        intro offset event found
        obtain ⟨old, place, _, _, count⟩ := tally.origin_of_left found
        show sendsOf (world.sent ++ _) (world.gone + pass.left + offset) = _
        rw [sendsOf_append, number, sendsOf_shift, sound.sends _ old place, count]
      left := by
        intro number less
        show sendsOf (world.sent ++ _) number = 2 ∨ _ ∧ sendsOf (world.sent ++ _) number ≤ 1
        rw [sendsOf_append]
        by_cases before : number < world.gone
        · rw [sendsOf_before pass.sent before, Nat.add_zero]
          exact sound.left number before
        · obtain ⟨offset, rfl⟩ := Nat.exists_eq_add_of_le (Nat.le_of_not_lt before)
          have less : world.gone + offset < world.gone + pass.left := less
          obtain ⟨old, place, twice⟩ := tally.gone offset (by omega)
          rw [sendsOf_shift, sound.sends offset old place]
          exact .inl twice
      sent := by
        intro entry member
        rcases List.mem_append.mp member with earlier | here
        · exact sound.sent entry earlier
        · obtain ⟨first, inside, rfl⟩ := List.mem_map.mp here
          obtain ⟨old, place, packet⟩ := tally.sent first inside
          exact ⟨_, sound.event_at place, packet⟩ }

theorem process (sound : Sound numServices world pending) (later : world.time ≤ time) (timely : world.Timely time)
    {pass : EventInfo.Pass} (processed : world.info.doProcessEventQueue (u32 time) accept fuel = some pass) :
    ∃ after, Sound numServices (world.process time pass) after := by
  obtain ⟨_, result, ran, sends, leaves, _, packed⟩ := sound.processes later timely accept
    (show pending.length < fuel + (pending.length + 1) by omega)
  have same := EventInfo.processFrom_more processed (pending.length + 1)
  obtain rfl := Option.some.inj (ran.symm.trans same)
  obtain ⟨scheduled, tally⟩ := visit_spec accept pending (sound.walking time) (Tally.start pending)
  exact ⟨_, sound.tallied scheduled tally later sends leaves packed⟩

theorem unqueued (sound : Sound numServices world pending) (later : world.time ≤ time) {packet : Packet}
    (long : eventQueueSize < packet.payload.length + 8) (counter : Nat) :
    Sound numServices (world.raise time packet { world.info with counter } 0) pending where
  services := sound.services
  queued := sound.queued
  bound := sound.bound
  scheduled := sound.scheduled
  events := by
    show _ = (world.events ++ if packet.payload.length + 8 > eventQueueSize then [] else [(packet, time)]).drop world.gone
    rw [if_pos long, List.append_nil]
    exact sound.events
  gone := by
    show world.gone ≤ (world.events ++ _).length
    have gone := sound.gone
    rw [List.length_append]
    omega
  raised := by
    intro event member
    obtain ⟨earlier, index⟩ := sound.raised event member
    exact ⟨earlier.trans later, index⟩
  sends := sound.sends
  left := by
    intro number less
    refine (sound.left number less).imp id fun evicted => ⟨List.mem_append_left _ evicted.1, evicted.2⟩
  sent := by
    intro entry member
    obtain ⟨event, found, packet⟩ := sound.sent entry member
    exact ⟨event, List.getElem?_append_left (List.getElem?_eq_some_iff.mp found).1 ▸ found, packet⟩

/-- An event that is put into the queue, after room was made for it. -/
theorem queues (sound : Sound numServices world pending) (later : world.time ≤ time) {packet : Packet} {info : EventInfo}
    (short : packet.payload.length + 8 ≤ eventQueueSize) (registered : packet.serviceIndex.toNat < numServices)
    (within : left ≤ pending.length) (bound : info.qptr ≤ eventQueueSize)
    (queued : Queued info.buffer 0 ((pending.drop left ++ [PendingEvent.mk packet time false]).map PendingEvent.record)
      info.qptr) :
    Sound numServices (world.raise time packet info left) (pending.drop left ++ [PendingEvent.mk packet time false]) := by
  have length := sound.length
  have number : ∀ offset, world.gone + left + offset = world.gone + (left + offset) := Nat.add_assoc _ _
  have longer : (world.raise time packet info left).events = world.events ++ [(packet, time)] := by
    show world.events ++ (if _ then _ else _) = _
    rw [if_neg (Nat.not_lt.mpr short)]
  exact
    { services := sound.services
      queued := queued
      bound := bound
      scheduled := by
        refine List.pairwise_append.mpr ⟨sound.scheduled.sublist (List.drop_sublist left pending),
          List.pairwise_singleton _ _, fun event member new here => ?_⟩
        rw [List.mem_singleton.mp here]
        have earlier := (sound.raised event (List.mem_of_mem_drop member)).1
        exact ⟨earlier.trans later, nofun⟩
      events := by
        show _ = (world.raise time packet info left).events.drop (world.gone + left)
        rw [longer, List.drop_append_of_le_length (by omega), ← List.drop_drop, ← sound.events, List.map_append,
          List.map_drop]
        rfl
      gone := by
        rw [longer, List.length_append, List.length_singleton]
        show world.gone + left ≤ _
        omega
      raised := by
        intro event member
        rcases List.mem_append.mp member with kept | here
        · obtain ⟨earlier, index⟩ := sound.raised event (List.mem_of_mem_drop kept)
          exact ⟨earlier.trans later, index⟩
        · rw [List.mem_singleton.mp here]
          exact ⟨Nat.le_refl _, registered⟩
      sends := by
        intro offset event found
        show sendsOf world.sent (world.gone + left + offset) = _
        by_cases kept : offset < (pending.drop left).length
        · rw [List.getElem?_append_left kept, List.getElem?_drop] at found
          rw [number, sound.sends _ event found]
        · have last := (List.getElem?_eq_some_iff.mp found).1
          rw [List.length_append, List.length_singleton] at last
          have place : offset = (pending.drop left).length := by omega
          rw [place, List.getElem?_concat_length] at found
          rw [← Option.some.inj found]
          rw [List.length_drop] at place
          exact sound.unsent (by omega)
      left := by
        intro number less
        have less : number < world.gone + left := less
        by_cases before : number < world.gone
        · exact (sound.left number before).imp id fun evicted => ⟨List.mem_append_left _ evicted.1, evicted.2⟩
        · obtain ⟨offset, rfl⟩ := Nat.exists_eq_add_of_le (Nat.le_of_not_lt before)
          obtain ⟨event, found⟩ : ∃ event, pending[offset]? = some event :=
            ⟨_, List.getElem?_eq_getElem (by omega)⟩
          have sends := sound.sends offset event found
          have most := event.sends_le_one
          refine .inr ⟨List.mem_append_right _ (List.mem_range'_1.mpr ⟨by omega, by omega⟩), ?_⟩
          show sendsOf world.sent (world.gone + offset) ≤ 1
          omega
      sent := by
        intro entry member
        obtain ⟨event, found, same⟩ := sound.sent entry member
        refine ⟨event, ?_, same⟩
        rw [longer, List.getElem?_append_left (List.getElem?_eq_some_iff.mp found).1, found] }

theorem raise (sound : Sound numServices world pending) (later : world.time ≤ time)
    (registered : serviceIndex.toNat < numServices) {packet : Packet} {next : EventInfo}
    (raised : world.info.jdSendEventExt (u32 time) serviceIndex eventId data = .ok (packet, next, left)) :
    ∃ after, Sound numServices (world.raise time packet next left) after := by
  obtain ⟨rfl, outcome⟩ := EventInfo.jdSendEventExt_cases raised
  rcases outcome with ⟨long, rfl, rfl⟩ | ⟨short, rfl, rfl⟩
  · exact ⟨pending, sound.unqueued later long _⟩
  · have limit : eventQueueSize = 128 := rfl
    have services := sound.services
    have length : (pending.map PendingEvent.record).length = pending.length := List.length_map ..
    obtain ⟨queued, within, room, _⟩ := @EventInfo.makeRoom_queued _ _ _ { world.info with counter := (world.info.counter + 1) % 256 }
      sound.queued sound.bound short (Nat.le_refl _)
    have queueable : EventInfo.Queueable ⟨serviceIndex, cmdEventMk (world.info.counter + 1) eventId, data⟩ :=
      ⟨show data.length ≤ 120 by omega, UInt8.lt_iff_toNat_lt.mpr (show serviceIndex.toNat < 128 by omega),
        EventInfo.cmdEventMk_lt _ _⟩
    obtain ⟨longer, bound⟩ := EventInfo.enqueue_queued queued queueable room (u32 time)
    have record (packet : Packet) :
        EventInfo.freshRecord (u32 time) packet = PendingEvent.record ⟨packet, time, false⟩ := by
      have wrapped : u32 (u32 time + firstDelay) = u32 (time + firstDelay) := by
        unfold u32
        omega
      simp only [EventInfo.freshRecord, wrapped, PendingEvent.record, PendingEvent.due, Bool.false_eq_true, if_false,
        Nat.add_zero]
    rw [record, ← List.map_drop] at longer
    refine ⟨_, sound.queues later short registered (length ▸ within) bound ?_⟩
    rw [List.map_append]
    exact longer

/-- At most sixteen events fit into the buffer. -/
theorem pending_length (sound : Sound numServices world pending) : pending.length ≤ 16 := by
  have limit : eventQueueSize = 128 := rfl
  have bound := sound.bound
  have whole := sound.queued.bound
  rw [List.length_map] at whole
  omega

/-- The records of the queue are those of the events that did not leave it. -/
theorem records (sound : Sound numServices world pending) :
    List.Forall₂ (fun (record : EventRecord) (event : Packet × Nat) =>
      record.serviceIndex &&& 0x7f = event.1.serviceIndex ∧ record.serviceCommand = event.1.serviceCommand ∧
        record.payload = event.1.payload)
      (pending.map PendingEvent.record) (world.events.drop world.gone) := by
  rw [← sound.events, List.forall₂_map_left_iff, List.forall₂_map_right_iff, List.forall₂_same]
  intro event member
  have services := sound.services
  obtain ⟨_, index⟩ := sound.raised event member
  exact ⟨(event.record_index (by omega)).2.1, rfl, rfl⟩

theorem sends_le (sound : Sound numServices world pending) (number : Nat) : sendsOf world.sent number ≤ 2 := by
  by_cases before : number < world.gone
  · rcases sound.left number before with twice | ⟨_, once⟩ <;> omega
  · obtain ⟨offset, rfl⟩ := Nat.exists_eq_add_of_le (Nat.le_of_not_lt before)
    cases found : pending[offset]? with
    | some event =>
      rw [sound.sends offset event found]
      exact event.sends_le_one.trans (by decide)
    | none =>
      have beyond := List.getElem?_eq_none_iff.mp found
      have length := sound.length
      rw [sound.unsent (by omega)]
      exact Nat.zero_le 2

end Sound

theorem run_sound (run : EventQueueRun numServices world) : ∃ pending, Sound numServices world pending := by
  induction run with
  | boot services => exact ⟨[], .start services⟩
  | raise _ time later serviceIndex registered eventId data raised ih =>
    obtain ⟨pending, sound⟩ := ih
    exact sound.raise later registered raised
  | process _ time later timely accept fuel processed ih =>
    obtain ⟨pending, sound⟩ := ih
    exact sound.process later timely processed

/-- In every run the buffer is a list of whole records of the events still queued, an event is sent from the queue
at most twice and leaves after the second time or to make room, and the next call of `do_process_event_queue` ends
without marking a record behind the head. -/
theorem event_queue_invariant (run : EventQueueRun numServices world) :
    world.info.qptr ≤ eventQueueSize ∧ world.info.qptr % 4 = 0 ∧
    (∃ records, Queued world.info.buffer 0 records world.info.qptr ∧
      List.Forall₂ (fun (record : EventRecord) (event : Packet × Nat) =>
        record.serviceIndex &&& 0x7f = event.1.serviceIndex ∧ record.serviceCommand = event.1.serviceCommand ∧
          record.payload = event.1.payload) records (world.events.drop world.gone)) ∧
    (∀ number, sendsOf world.sent number ≤ 2) ∧
    (∀ entry ∈ world.sent, ∃ event, world.events[entry.1]? = some event ∧ event.1 = entry.2) ∧
    (∀ number < world.gone, sendsOf world.sent number = 2 ∨ number ∈ world.evicted) ∧
    ∀ time, world.time ≤ time → world.Timely time → ∀ accept fuel, 16 < fuel →
      world.info.marks (u32 time) accept fuel = false ∧
      ∃ pass, world.info.doProcessEventQueue (u32 time) accept fuel = some pass := by
  obtain ⟨pending, sound⟩ := run_sound run
  have length := sound.pending_length
  refine ⟨sound.bound, sound.queued.mod, ⟨_, sound.queued, sound.records⟩, sound.sends_le, sound.sent, ?_, ?_⟩
  · intro number before
    exact (sound.left number before).imp id And.left
  · intro time later timely accept fuel enough
    obtain ⟨quiet, pass, ran, _⟩ := sound.processes later timely accept (by omega : pending.length < fuel)
    exact ⟨quiet, pass, ran⟩

/-- An event of the control service, raised just before the clock of the device wraps, is sent twice and leaves. -/
theorem event_queue_invariant_twice : ∃ world : QueueWorld, EventQueueRun 1 world ∧ world.gone = 1 ∧
    sendsOf world.sent 0 = 2 ∧ world.info.qptr ≤ eventQueueSize ∧ world.info.qptr % 4 = 0 := by
  let packet : Packet := ⟨0, 33025, [7]⟩
  let raisedInfo := EventInfo.enqueue (u32 4294967290) ⟨fun _ => 0, 0, 1⟩ packet
  have raised : EventInfo.boot.jdSendEventExt (u32 4294967290) 0 1 [7] = .ok (packet, raisedInfo, 0) := rfl
  have booted : EventQueueRun 1 .boot := .boot (by decide)
  have first := booted.raise 4294967290 (Nat.zero_le _) 0 (by decide) 1 [7] raised
  have ran : ((raisedInfo.doProcessEventQueue (u32 4294987290) (fun _ => true) 17).bind fun once =>
      (once.info.doProcessEventQueue (u32 4295037290) (fun _ => true) 17).map fun twice =>
        (once.left, once.sent.map Prod.fst, twice.left, twice.sent.map Prod.fst)) = some (0, [0], 1, [0]) := by
    decide +kernel
  obtain ⟨once, processed, again⟩ := Option.bind_eq_some_iff.mp ran
  obtain ⟨twice, finished, same⟩ := Option.map_eq_some_iff.mp again
  simp only [Prod.mk.injEq] at same
  obtain ⟨stays, sentOnce, leaves, sentTwice⟩ := same
  have second := first.process 4294987290 (by decide) (by
    intro event member
    obtain rfl : event = (packet, 4294967290) := List.mem_singleton.mp member
    decide) (fun _ => true) 17 processed
  have third := second.process 4295037290 (show 4294987290 ≤ 4295037290 by decide) (by
    intro event member
    obtain rfl : event = (packet, 4294967290) := List.mem_singleton.mp (List.mem_of_mem_drop member)
    decide) (fun _ => true) 17 finished
  obtain ⟨bound, whole, _⟩ := event_queue_invariant third
  refine ⟨_, third, ?_, ?_, bound, whole⟩
  · show 0 + 0 + once.left + twice.left = 1
    rw [stays, leaves]
  · show sendsOf (once.sent.map _ ++ twice.sent.map fun entry => (0 + 0 + once.left + entry.1, entry.2)) 0 = 2
    rw [stays, sendsOf_append]
    have one : sendsOf once.sent 0 = 1 := congrArg (List.count 0) sentOnce
    have another : sendsOf twice.sent 0 = 1 := congrArg (List.count 0) sentTwice
    have here := sendsOf_shift once.sent 0 0
    have there := sendsOf_shift twice.sent 0 0
    rw [Nat.add_zero] at here there ⊢
    exact congrArg₂ (· + ·) (here.trans one) (there.trans another)

end QueueWorld

end Jacdac
