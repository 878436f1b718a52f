import Jacdac.Event.QueueInvariant
import Jacdac.Event.Schedule

/-! The packed buffer of `event_queue.c` holds the events of the schedule, and its
loop does what the walk over the schedule does. -/

namespace Jacdac

namespace PendingEvent

/-- The `ev_t` of an event. -/
def record (event : PendingEvent) : EventRecord where
  timestamp := u32 event.due
  serviceIndex := if event.repeated then event.packet.serviceIndex ||| 0x80 else event.packet.serviceIndex
  serviceCommand := event.packet.serviceCommand
  payload := event.packet.payload

/-- The service has a normal index, and the event waits for less than half the
range of the clock. -/
structure Timely (time : Nat) (event : PendingEvent) : Prop where
  index : event.packet.serviceIndex.toNat < 32
  raised : event.raisedAt ≤ time
  pending : time < event.raisedAt + 2147483648

private theorem index_table : ∀ index : Fin 32, (UInt8.ofNat index ||| 0x80) ≠ 0xff ∧
    (UInt8.ofNat index ||| 0x80) &&& 0x7f = UInt8.ofNat index ∧ (UInt8.ofNat index ||| 0x80) &&& 0x80 ≠ 0 ∧
    UInt8.ofNat index ≠ 0xff ∧ UInt8.ofNat index &&& 0x7f = UInt8.ofNat index ∧ UInt8.ofNat index &&& 0x80 = 0 := by
  decide +kernel

/-- The index of a record tells whether the event was repeated, and is not the mark. -/
theorem record_index (event : PendingEvent) (normal : event.packet.serviceIndex.toNat < 32) :
    event.record.serviceIndex ≠ 0xff ∧ event.record.serviceIndex &&& 0x7f = event.packet.serviceIndex ∧
      (event.record.serviceIndex &&& 0x80 ≠ 0 ↔ event.repeated = true) := by
  have row := index_table ⟨event.packet.serviceIndex.toNat, normal⟩
  rw [UInt8.ofNat_toNat] at row
  obtain ⟨live, low, high, fresh, same, clear⟩ := row
  unfold record
  cases event.repeated with
  | true => exact ⟨live, low, fun _ => rfl, fun _ => high⟩
  | false => exact ⟨fresh, same, fun set => absurd clear set, nofun⟩

/-- `in_past` of the record's timestamp. -/
theorem inPast_due (event : PendingEvent) (timely : Timely time event) :
    inPast (u32 time) (u32 event.due) = decide (event.due ≤ time) := by
  have raised := timely.raised
  have pending := timely.pending
  have close : event.raisedAt ≤ event.due ∧ event.due ≤ event.raisedAt + 70000 := by
    unfold due firstDelay secondDelay
    split <;> omega
  generalize event.due = due at close
  unfold inPast u32
  by_cases late : due ≤ time
  · have past : (time % 4294967296 + 4294967296 - due % 4294967296) % 4294967296 / 2147483648 = 0 := by omega
    rw [past, decide_eq_true late]
    rfl
  · have future : (time % 4294967296 + 4294967296 - due % 4294967296) % 4294967296 / 2147483648 = 1 := by omega
    rw [future, decide_eq_false late]
    rfl

end PendingEvent

namespace EventInfo

/-- One turn of the loop of `do_process_event_queue`: the pass, the record and the
offset of the next turn, or `none` where the loop ends. -/
def turn (now : Nat) (accept : Nat → Bool) (pass : Pass) (index ev : Nat) : Option (Pass × Nat × Nat) :=
  let info := pass.info
  let next := info.nextEv ev
  if ev < info.qptr then
    if info.serviceIndexAt ev = 0xff then
      if ev = 0 then some ({ pass with info := info.evShift, left := pass.left + 1 }, index, ev)
      else some (pass, index + 1, next)
    else if inPast now (info.timestampAt ev) then
      if accept pass.sent.length = false then none
      else
        let pass := { pass with sent := pass.sent ++ [(pass.left + index, info.packetAt ev)] }
        if info.serviceIndexAt ev &&& 0x80 ≠ 0 then
          if ev = 0 then some ({ pass with info := info.evShift, left := pass.left + 1 }, index, ev)
          else
            let info := info.setServiceIndex ev 0xff
            some ({ pass with info }, index + 1, info.nextEv ev)
        else
          let info := info.setTimestamp ev (u32 (info.timestampAt ev + secondDelay))
          let info := info.setServiceIndex ev (info.serviceIndexAt ev ||| 0x80)
          some ({ pass with info }, index + 1, info.nextEv ev)
    else some (pass, index + 1, next)
  else none

/-- The turn sends a record behind the head for the second time, and marks it. -/
def marksHere (now : Nat) (accept : Nat → Bool) (pass : Pass) (ev : Nat) : Bool :=
  decide (ev < pass.info.qptr ∧ pass.info.serviceIndexAt ev ≠ 0xff) && inPast now (pass.info.timestampAt ev) &&
    accept pass.sent.length && decide (pass.info.serviceIndexAt ev &&& 0x80 ≠ 0 ∧ ev ≠ 0)

/-- Whether the loop of `do_process_event_queue` comes to the branch that marks a
record behind the head. -/
def marksFrom (now : Nat) (accept : Nat → Bool) : Nat → Pass → Nat → Nat → Bool
  | 0, _, _, _ => false
  | fuel + 1, pass, index, ev =>
    let info := pass.info
    if ev < info.qptr then
      if info.serviceIndexAt ev = 0xff then
        if ev = 0 then
          marksFrom now accept fuel { pass with info := info.evShift, left := pass.left + 1 } index ev
        else marksFrom now accept fuel pass (index + 1) (info.nextEv ev)
      else if inPast now (info.timestampAt ev) then
        if accept pass.sent.length = false then false
        else
          let pass := { pass with sent := pass.sent ++ [(pass.left + index, info.packetAt ev)] }
          if info.serviceIndexAt ev &&& 0x80 ≠ 0 then
            if ev = 0 then
              marksFrom now accept fuel { pass with info := info.evShift, left := pass.left + 1 } index ev
            else true
          else
            let info := info.setTimestamp ev (u32 (info.timestampAt ev + secondDelay))
            let info := info.setServiceIndex ev (info.serviceIndexAt ev ||| 0x80)
            marksFrom now accept fuel { pass with info } (index + 1) (info.nextEv ev)
      else marksFrom now accept fuel pass (index + 1) (info.nextEv ev)
    else false

def marks (now : Nat) (accept : Nat → Bool) (fuel : Nat) (info : EventInfo) : Bool :=
  marksFrom now accept fuel { info, sent := [], left := 0 } 0 0

/-- The loop is its turns. -/
theorem processFrom_turn (now : Nat) (accept : Nat → Bool) (fuel : Nat) (pass : Pass) (index ev : Nat) :
    processFrom now accept (fuel + 1) pass index ev =
      match turn now accept pass index ev with
      | none => some pass
      | some (next, index, ev) => processFrom now accept fuel next index ev := by
  rw [processFrom]
  unfold turn
  dsimp only
  generalize inPast now (pass.info.timestampAt ev) = past
  cases past <;> split_ifs <;> rfl

/-- A turn that marks writes the mark to its record and goes on. -/
theorem turn_marks {pass : Pass} (here : marksHere now accept pass ev = true) :
    ∃ next, turn now accept pass index ev = some (next, index + 1, next.info.nextEv ev) ∧
      next.info = pass.info.setServiceIndex ev 0xff := by
  unfold marksHere at here
  unfold turn
  dsimp only
  generalize inPast now (pass.info.timestampAt ev) = past at here ⊢
  cases past with
  | false => simp at here
  | true =>
    simp only [Bool.and_true, Bool.and_eq_true, decide_eq_true_eq] at here
    obtain ⟨⟨⟨inside, live⟩, accepted⟩, again, behind⟩ := here
    rw [if_pos inside, if_neg live, if_pos rfl, if_neg (by simp [accepted]), if_pos again, if_neg behind]
    exact ⟨_, rfl, rfl⟩

theorem marksFrom_turn (now : Nat) (accept : Nat → Bool) (fuel : Nat) (pass : Pass) (index ev : Nat) :
    marksFrom now accept (fuel + 1) pass index ev =
      (marksHere now accept pass ev ||
        match turn now accept pass index ev with
        | none => false
        | some (next, index, ev) => marksFrom now accept fuel next index ev) := by
  rw [marksFrom]
  unfold turn marksHere
  dsimp only
  generalize inPast now (pass.info.timestampAt ev) = past
  by_cases inside : ev < pass.info.qptr
  · rw [if_pos inside, if_pos inside]
    cases past <;> split_ifs <;> simp_all
  · rw [if_neg inside, if_neg inside, decide_eq_false fun more => inside more.1]
    rfl

/-- The buffer, in the middle of a pass that has visited `before`. -/
structure Packed (pass : Pass) (before after : List PendingEvent) (ev : Nat) : Prop where
  done : Queued pass.info.buffer 0 (before.map PendingEvent.record) ev
  todo : Queued pass.info.buffer ev (after.map PendingEvent.record) pass.info.qptr
  bound : pass.info.qptr ≤ eventQueueSize

namespace Packed

variable {pass : Pass} {before rest : List PendingEvent} {event : PendingEvent} {ev : Nat}

theorem stored (packed : Packed pass before (event :: rest) ev) : event.record.Stored pass.info.buffer ev :=
  packed.todo.1

theorem inside (packed : Packed pass before (event :: rest) ev) : ev < pass.info.qptr := by
  have bound := packed.todo.bound
  simp only [List.map_cons, List.length_cons] at bound
  omega

theorem skip (packed : Packed pass before (event :: rest) ev) :
    Packed pass (before ++ [event]) rest (ev + event.record.span) where
  done := by
    rw [List.map_append]
    exact packed.done.append ⟨packed.stored, rfl⟩
  todo := packed.todo.2
  bound := packed.bound

theorem start (packed : Packed pass before after 0) : before = [] := by
  have none_ := packed.done.eq_nil
  exact List.map_eq_nil_iff.mp none_

theorem shift (packed : Packed pass [] (event :: rest) 0) (sent : List (Nat × Packet)) (left : Nat) :
    Packed ⟨pass.info.evShift, sent, left⟩ [] rest 0 ∧ pass.info.evShift.counter = pass.info.counter := by
  have size : eventQueueSize = 128 := rfl
  have bound := packed.bound
  obtain ⟨queued, shorter, counter⟩ := evShift_queued packed.todo (by omega)
  exact ⟨⟨rfl, queued, by dsimp only; omega⟩, counter⟩

/-- The first repetition stores the record of the repeated event. -/
theorem repeats (packed : Packed pass before (event :: rest) ev) (fresh : event.repeated = false)
    (sent : List (Nat × Packet)) :
    Packed { pass with
      sent
      info := (pass.info.setTimestamp ev (u32 (pass.info.timestampAt ev + secondDelay))).setServiceIndex ev
        ((pass.info.setTimestamp ev (u32 (pass.info.timestampAt ev + secondDelay))).serviceIndexAt ev ||| 0x80) }
      before (event.again :: rest) ev := by
  have stored := packed.stored
  have room := event.record.span_ge
  have later := setTimestamp_stored stored (show u32 (pass.info.timestampAt ev + secondDelay) < 4294967296 from
    Nat.mod_lt _ (by decide))
  have index : (pass.info.setTimestamp ev (u32 (pass.info.timestampAt ev + secondDelay))).serviceIndexAt ev =
      event.record.serviceIndex := later.index
  have timestamp : u32 (pass.info.timestampAt ev + secondDelay) = event.again.record.timestamp := by
    have before : pass.info.timestampAt ev = u32 event.due := stored.timestamp
    rw [before]
    simp only [PendingEvent.record, PendingEvent.due, PendingEvent.again, fresh, u32]
    simp only [Bool.false_eq_true, if_false, if_true]
    omega
  have again := setServiceIndex_stored later (event.record.serviceIndex ||| 0x80)
  have same : ({ { event.record with timestamp := u32 (pass.info.timestampAt ev + secondDelay) } with
      serviceIndex := event.record.serviceIndex ||| 0x80 } : EventRecord) = event.again.record := by
    rw [timestamp]
    simp [PendingEvent.record, PendingEvent.again, fresh]
  rw [same] at again
  have outside : ∀ cell, cell < ev ∨ ev + event.record.span ≤ cell →
      ((pass.info.setTimestamp ev (u32 (pass.info.timestampAt ev + secondDelay))).setServiceIndex ev
        (event.record.serviceIndex ||| 0x80)).buffer cell = pass.info.buffer cell := by
    intro cell apart
    exact (setServiceIndex_outside _ (by omega)).trans (setTimestamp_outside _ (by omega))
  have others := packed.todo.2.congr fun cell lower _ => outside cell (.inr lower)
  rw [index]
  refine ⟨packed.done.congr fun cell _ upper => outside cell (.inl upper), ?_, packed.bound⟩
  have span : event.again.record.span = event.record.span := by
    simp only [EventRecord.span, PendingEvent.record, PendingEvent.again]
  rw [List.map_cons, Queued, span]
  refine ⟨again, ?_⟩
  exact others

end Packed

/-- The loop over the buffer is the walk over the schedule; it ends, and marks nothing. -/
theorem processFrom_visit (time : Nat) (accept : Nat → Bool) (after : List PendingEvent) {pass : Pass}
    (packed : Packed pass before after ev) (walking : Walking time before after)
    (timely : ∀ event ∈ after, event.Timely time) (enough : after.length < fuel) :
    let visited := visit time accept before after pass.sent pass.left
    marksFrom (u32 time) accept fuel pass before.length ev = false ∧
    ∃ result, processFrom (u32 time) accept fuel pass before.length ev = some result ∧
      result.sent = visited.sent ∧ result.left = visited.left ∧ result.info.counter = pass.info.counter ∧
      Packed result visited.pending [] result.info.qptr := by
  induction after generalizing before ev pass fuel with
  | nil =>
    obtain ⟨fuel, rfl⟩ := Nat.exists_eq_add_one_of_ne_zero (show fuel ≠ 0 by omega)
    have ended : ev = pass.info.qptr := packed.todo
    unfold marksFrom processFrom
    rw [if_neg (by omega), if_neg (by omega)]
    exact ⟨rfl, pass, rfl, rfl, rfl, rfl, ended ▸ packed.done, rfl, packed.bound⟩
  | cons event rest ih =>
    obtain ⟨fuel, rfl⟩ := Nat.exists_eq_add_one_of_ne_zero (show fuel ≠ 0 by omega)
    rw [List.length_cons] at enough
    have here := timely event (List.mem_cons_self ..)
    have others : ∀ other ∈ rest, other.Timely time := fun other member => timely other (List.mem_cons_of_mem _ member)
    have stored := packed.stored
    obtain ⟨live, low, high⟩ := event.record_index here.index
    have index : pass.info.serviceIndexAt ev = event.record.serviceIndex := stored.index
    have timestamp : pass.info.timestampAt ev = u32 event.due := stored.timestamp
    have packet : pass.info.packetAt ev = event.packet := by
      rw [packetAt_stored stored, low]
      rfl
    have next := nextEv_stored stored
    have past := event.inPast_due here
    unfold marksFrom processFrom visit
    rw [if_pos packed.inside, if_pos packed.inside, index, if_neg live, if_neg live, timestamp, past]
    by_cases late : event.due ≤ time
    · have due : decide (event.due ≤ time) = true := decide_eq_true late
      rw [if_pos due, if_pos due, if_pos late]
      by_cases refused : accept pass.sent.length = false
      · rw [if_pos refused, if_pos refused, if_pos refused]
        refine ⟨rfl, pass, rfl, rfl, rfl, rfl, ?_, rfl, packed.bound⟩
        rw [List.map_append]
        exact packed.done.append packed.todo
      rw [if_neg refused, if_neg refused, if_neg refused]
      dsimp only
      rw [packet]
      by_cases repeated : event.repeated = true
      · obtain rfl := walking.nothing_before late repeated
        obtain rfl : 0 = ev := packed.done
        obtain ⟨shifted, counter⟩ := packed.shift (pass.sent ++ [(pass.left + 0, event.packet)]) (pass.left + 1)
        rw [if_pos (high.mpr repeated), if_pos (high.mpr repeated), if_pos rfl, if_pos rfl, if_pos repeated]
        obtain ⟨quiet, result, ran, sent, left, same, held⟩ := ih shifted walking.leaves others
          (by omega : rest.length < fuel)
        exact ⟨quiet, result, ran, sent, left, same.trans counter, held⟩
      · have fresh : event.repeated = false := Bool.eq_false_iff.mpr repeated
        have again := packed.repeats fresh (pass.sent ++ [(pass.left + before.length, event.packet)])
        have following := nextEv_stored again.stored
        have once := mt high.mp repeated
        rw [if_neg once, if_neg once, if_neg repeated]
        simp only [timestamp] at again following ⊢
        rw [following]
        have advanced := ih again.skip (walking.repeats late fresh) others (by omega : rest.length < fuel)
        rw [List.length_append, List.length_singleton] at advanced
        exact advanced
    · have early : ¬ decide (event.due ≤ time) = true := by simpa using late
      rw [if_neg early, if_neg early, if_neg late, next]
      have advanced := ih packed.skip (walking.skip (Nat.lt_of_not_le late)) others (by omega : rest.length < fuel)
      rw [List.length_append, List.length_singleton] at advanced
      exact advanced

end EventInfo

end Jacdac
