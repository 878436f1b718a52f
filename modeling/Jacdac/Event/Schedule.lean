import Jacdac.Event.Queue

/-! The event queue without its buffer: a list of events that are repeated twice.
Events are raised one after the other, so the ones repeated once come first, and
an event leaves only from the head. -/

namespace Jacdac

/-- An event in the queue, raised at that time, with no wrapping. -/
structure PendingEvent where
  packet : Packet
  raisedAt : Nat
  /-- It was sent again once. -/
  repeated : Bool

namespace PendingEvent

/-- When it is to be sent again. -/
def due (event : PendingEvent) : Nat := event.raisedAt + firstDelay + if event.repeated then secondDelay else 0

/-- How often it was sent from the queue. -/
def sends (event : PendingEvent) : Nat := if event.repeated then 1 else 0

theorem sends_le_one (event : PendingEvent) : event.sends ≤ 1 := by
  unfold sends
  split
  · exact Nat.le_refl 1
  · exact Nat.zero_le 1

/-- The event after the first time. -/
def again (event : PendingEvent) : PendingEvent := { event with repeated := true }

/-- An event behind another one is raised no earlier and repeated no sooner. -/
structure Before (earlier later : PendingEvent) : Prop where
  raised : earlier.raisedAt ≤ later.raisedAt
  repeated : later.repeated = true → earlier.repeated = true

theorem Before.due_le (before : Before earlier later) (same : earlier.repeated = later.repeated) :
    earlier.due ≤ later.due := by
  have raised := before.raised
  unfold due
  rw [same]
  omega

end PendingEvent

/-- The result of a call: the events still in the queue, the transmissions with
the number of the event counted from the old head, and how many events left. -/
structure Visit where
  pending : List PendingEvent
  sent : List (Nat × Packet)
  left : Nat

/-- The walk over the queue. An event that is sent for the second time leaves. -/
def visit (time : Nat) (accept : Nat → Bool) :
    List PendingEvent → List PendingEvent → List (Nat × Packet) → Nat → Visit
  | before, [], sent, left => ⟨before, sent, left⟩
  | before, event :: rest, sent, left =>
    if event.due ≤ time then
      if accept sent.length = false then ⟨before ++ event :: rest, sent, left⟩
      else if event.repeated then
        visit time accept before rest (sent ++ [(left + before.length, event.packet)]) (left + 1)
      else
        visit time accept (before ++ [event.again]) rest (sent ++ [(left + before.length, event.packet)]) left
    else visit time accept (before ++ [event]) rest sent left

/-- The events in order, in the middle of a walk: nothing before was due for the
first time, and what is still to come leaves only as the head. -/
structure Walking (time : Nat) (before after : List PendingEvent) : Prop where
  scheduled : (before ++ after).Pairwise PendingEvent.Before
  waiting : ∀ event ∈ before, event.repeated = false → time < event.due
  head : before ≠ [] → ∀ event ∈ after, event.repeated = true → time < event.due

namespace Walking

variable {time : Nat} {event : PendingEvent} {before rest : List PendingEvent}

theorem behind (walking : Walking time before (event :: rest)) : ∀ later ∈ rest, PendingEvent.Before event later := by
  have order := (List.pairwise_append.mp walking.scheduled).2.1
  exact (List.pairwise_cons.mp order).1

theorem ahead (walking : Walking time before (event :: rest)) : ∀ earlier ∈ before, PendingEvent.Before earlier event :=
  fun earlier member => (List.pairwise_append.mp walking.scheduled).2.2 earlier member event (List.mem_cons_self ..)

theorem skip (walking : Walking time before (event :: rest)) (early : time < event.due) :
    Walking time (before ++ [event]) rest where
  scheduled := by simpa using walking.scheduled
  waiting := by
    intro other member fresh
    rcases List.mem_append.mp member with earlier | here
    · exact walking.waiting other earlier fresh
    · rw [List.mem_singleton.mp here]
      exact early
  head := by
    intro _ later member repeated
    have order := walking.behind later member
    have same : event.repeated = later.repeated := (order.repeated repeated).trans repeated.symm
    exact early.trans_le (order.due_le same)

theorem repeats (walking : Walking time before (event :: rest)) (late : event.due ≤ time)
    (fresh : event.repeated = false) : Walking time (before ++ [event.again]) rest where
  scheduled := by
    rw [List.append_assoc, List.singleton_append, List.pairwise_append, List.pairwise_cons]
    have all := List.pairwise_append.mp walking.scheduled
    refine ⟨all.1, ⟨fun later member => ⟨(walking.behind later member).raised, fun _ => rfl⟩,
      (List.pairwise_cons.mp all.2.1).2⟩, ?_⟩
    intro earlier member other place
    rcases List.mem_cons.mp place with rfl | later
    · refine ⟨(walking.ahead earlier member).raised, fun _ => ?_⟩
      by_contra unsent
      have unsent : earlier.repeated = false := Bool.eq_false_iff.mpr unsent
      have early := walking.waiting earlier member unsent
      have order := (walking.ahead earlier member).due_le (unsent.trans fresh.symm)
      omega
    · exact all.2.2 earlier member other (List.mem_cons_of_mem _ later)
  waiting := by
    intro other member unsent
    rcases List.mem_append.mp member with earlier | here
    · exact walking.waiting other earlier unsent
    · rw [List.mem_singleton.mp here] at unsent
      cases unsent
  head := by
    intro _ later member repeated
    have sent := (walking.behind later member).repeated repeated
    rw [fresh] at sent
    cases sent

theorem nothing_before (walking : Walking time before (event :: rest)) (late : event.due ≤ time)
    (repeated : event.repeated = true) : before = [] := by
  by_contra some_
  have early := walking.head some_ event (List.mem_cons_self ..) repeated
  omega

theorem leaves (walking : Walking time [] (event :: rest)) : Walking time [] rest where
  scheduled := (List.pairwise_cons.mp walking.scheduled).2
  waiting := fun _ member => nomatch member
  head := fun none_ => absurd rfl none_

end Walking

/-- How often the number occurs among the transmissions. -/
def sendsOf (sent : List (Nat × Packet)) (number : Nat) : Nat := (sent.map Prod.fst).count number

theorem sendsOf_append (first second : List (Nat × Packet)) (number : Nat) :
    sendsOf (first ++ second) number = sendsOf first number + sendsOf second number := by
  rw [sendsOf, List.map_append, List.count_append]
  rfl

theorem sendsOf_single (place number : Nat) (packet : Packet) :
    sendsOf [(place, packet)] number = if place = number then 1 else 0 := by
  simp [sendsOf, List.count_cons]

/-- The account of a walk over `origin`: what left was sent for the second time,
and the others are as they were but for one transmission. -/
structure Tally (origin before after : List PendingEvent) (sent : List (Nat × Packet)) (left : Nat) : Prop where
  gone : ∀ number < left, ∃ event, origin[number]? = some event ∧ event.sends + sendsOf sent number = 2
  kept : ∀ offset event, origin[left + offset]? = some event → ∃ now, (before ++ after)[offset]? = some now ∧
    now.packet = event.packet ∧ now.raisedAt = event.raisedAt ∧ now.sends = event.sends + sendsOf sent (left + offset)
  length : left + (before.length + after.length) = origin.length
  sent : ∀ entry ∈ sent, ∃ event, origin[entry.1]? = some event ∧ event.packet = entry.2

namespace Tally

variable {origin before rest : List PendingEvent} {event : PendingEvent} {sent : List (Nat × Packet)} {left : Nat}

theorem start (origin : List PendingEvent) : Tally origin [] origin [] 0 where
  gone := fun _ none_ => absurd none_ (Nat.not_lt_zero _)
  kept := by
    intro offset event found
    rw [Nat.zero_add] at found ⊢
    exact ⟨event, found, rfl, rfl, rfl⟩
  length := by simp
  sent := fun _ member => nomatch member

theorem skip (tally : Tally origin before (event :: rest) sent left) :
    Tally origin (before ++ [event]) rest sent left where
  gone := tally.gone
  kept := by
    rw [List.append_assoc]
    exact tally.kept
  length := by
    have length := tally.length
    simp only [List.length_append, List.length_cons, List.length_nil] at length ⊢
    omega
  sent := tally.sent

theorem stop (tally : Tally origin before after sent left) : Tally origin (before ++ after) [] sent left where
  gone := tally.gone
  kept := by
    rw [List.append_nil]
    exact tally.kept
  length := by
    have length := tally.length
    rw [List.length_append, List.length_nil]
    omega
  sent := tally.sent

/-- The event that the walk is at, in the list it started from. -/
theorem current (tally : Tally origin before (event :: rest) sent left) :
    ∃ old, origin[left + before.length]? = some old ∧ event.packet = old.packet ∧ event.raisedAt = old.raisedAt ∧
      event.sends = old.sends + sendsOf sent (left + before.length) := by
  have length := tally.length
  rw [List.length_cons] at length
  obtain ⟨old, found⟩ : ∃ old, origin[left + before.length]? = some old :=
    ⟨_, List.getElem?_eq_getElem (by omega)⟩
  obtain ⟨now, place, packet, raised, sends⟩ := tally.kept _ old found
  rw [List.getElem?_append_right (Nat.le_refl _), Nat.sub_self, List.getElem?_cons_zero] at place
  obtain rfl := Option.some.inj place
  exact ⟨old, found, packet, raised, sends⟩

theorem sends (tally : Tally origin before (event :: rest) sent left) :
    ∀ entry ∈ sent ++ [(left + before.length, event.packet)],
      ∃ old, origin[entry.1]? = some old ∧ old.packet = entry.2 := by
  intro entry member
  rcases List.mem_append.mp member with earlier | here
  · exact tally.sent entry earlier
  · obtain ⟨old, found, packet, _⟩ := tally.current
    rw [List.mem_singleton.mp here]
    exact ⟨old, found, packet.symm⟩

/-- One more transmission of another event does not count. -/
theorem sendsOf_other (other : place ≠ number) (packet : Packet) :
    sendsOf (sent ++ [(place, packet)]) number = sendsOf sent number := by
  rw [sendsOf_append, sendsOf_single, if_neg other, Nat.add_zero]

theorem sendsOf_here (place : Nat) (packet : Packet) :
    sendsOf (sent ++ [(place, packet)]) place = sendsOf sent place + 1 := by
  rw [sendsOf_append, sendsOf_single, if_pos rfl]

theorem repeats (tally : Tally origin before (event :: rest) sent left) (fresh : event.repeated = false) :
    Tally origin (before ++ [event.again]) rest (sent ++ [(left + before.length, event.packet)]) left where
  gone := by
    intro number less
    obtain ⟨old, found, twice⟩ := tally.gone number less
    exact ⟨old, found, by rw [sendsOf_other (by omega), twice]⟩
  kept := by
    intro offset old found
    rw [List.append_assoc, List.singleton_append]
    by_cases here : offset = before.length
    · subst here
      obtain ⟨same, place, packet, raised, sends⟩ := tally.current
      obtain rfl := Option.some.inj (found.symm.trans place)
      refine ⟨event.again, ?_, packet, raised, ?_⟩
      · rw [List.getElem?_append_right (Nat.le_refl _), Nat.sub_self, List.getElem?_cons_zero]
      · have unsent : event.sends = 0 := if_neg (by rw [fresh]; decide)
        have once : event.again.sends = 1 := if_pos rfl
        rw [sendsOf_here]
        omega
    · obtain ⟨now, place, packet, raised, sends⟩ := tally.kept offset old found
      refine ⟨now, ?_, packet, raised, ?_⟩
      · by_cases earlier : offset < before.length
        · rwa [List.getElem?_append_left earlier] at place ⊢
        · obtain ⟨more, further⟩ := Nat.exists_eq_add_of_lt (show before.length < offset by omega)
          rw [List.getElem?_append_right (by omega)] at place ⊢
          have step : offset - before.length = more + 1 := by omega
          rwa [step, List.getElem?_cons_succ] at place ⊢
      · rw [sendsOf_other (by omega), sends]
  length := by
    have length := tally.length
    simp only [List.length_append, List.length_cons, List.length_nil] at length ⊢
    omega
  sent := tally.sends

theorem leaves (tally : Tally origin [] (event :: rest) sent left) (repeated : event.repeated = true) :
    Tally origin [] rest (sent ++ [(left, event.packet)]) (left + 1) where
  gone := by
    intro number less
    by_cases here : number = left
    · subst here
      obtain ⟨old, found, _, _, sends⟩ := tally.current
      have once : event.sends = 1 := if_pos repeated
      refine ⟨old, found, ?_⟩
      rw [sendsOf_here]
      simp only [List.length_nil, Nat.add_zero] at sends
      omega
    · obtain ⟨old, found, twice⟩ := tally.gone number (by omega)
      exact ⟨old, found, by rw [sendsOf_other (by omega), twice]⟩
  kept := by
    intro offset old found
    have next : left + 1 + offset = left + (offset + 1) := by omega
    rw [next] at found ⊢
    obtain ⟨now, place, packet, raised, sends⟩ := tally.kept (offset + 1) old found
    refine ⟨now, place, packet, raised, ?_⟩
    rw [sendsOf_other (by omega), sends]
  length := by
    have length := tally.length
    simp only [List.length_cons, List.length_nil] at length ⊢
    omega
  sent := tally.sends

/-- An event that is still there after the walk, in the list it started from. -/
theorem origin_of_left {after : List PendingEvent} (tally : Tally origin after [] sent left)
    (found : after[offset]? = some event) :
    ∃ old, origin[left + offset]? = some old ∧ event.packet = old.packet ∧ event.raisedAt = old.raisedAt ∧
      event.sends = old.sends + sendsOf sent (left + offset) := by
  have inside := (List.getElem?_eq_some_iff.mp found).1
  have total := tally.length
  rw [List.length_nil] at total
  obtain ⟨old, place⟩ : ∃ old, origin[left + offset]? = some old := ⟨_, List.getElem?_eq_getElem (by omega)⟩
  obtain ⟨now, same, packet, raised, sends⟩ := tally.kept offset old place
  rw [List.append_nil] at same
  obtain rfl := Option.some.inj (found.symm.trans same)
  exact ⟨old, place, packet, raised, sends⟩

end Tally

/-- A walk keeps the order and the account. -/
theorem visit_spec (accept : Nat → Bool) (after : List PendingEvent) (walking : Walking time before after)
    (tally : Tally origin before after sent left) :
    (visit time accept before after sent left).pending.Pairwise PendingEvent.Before ∧
      Tally origin (visit time accept before after sent left).pending []
        (visit time accept before after sent left).sent (visit time accept before after sent left).left := by
  induction after generalizing before sent left with
  | nil =>
    have scheduled := walking.scheduled
    rw [List.append_nil] at scheduled
    exact ⟨scheduled, tally⟩
  | cons event rest ih =>
    unfold visit
    split
    · rename_i late
      split
      · exact ⟨walking.scheduled, tally.stop⟩
      split
      · rename_i repeated
        obtain rfl := walking.nothing_before late repeated
        exact ih walking.leaves (tally.leaves repeated)
      · rename_i fresh
        have fresh : event.repeated = false := Bool.eq_false_iff.mpr fresh
        exact ih (walking.repeats late fresh) (tally.repeats fresh)
    · rename_i early
      exact ih (walking.skip (Nat.lt_of_not_le early)) tally.skip

end Jacdac
