import Mathlib.Algebra.BigOperators.Group.List.Basic
import Mathlib.Algebra.Group.Basic
import Mathlib.Data.List.Basic
import Mathlib.Data.List.Induction

/-! Components that answer each event with a new state and some outputs, over
whole runs: invariants, and accounts of what went in, what came out and what is still held. -/

namespace Jacdac

/-- One part of a step after another, with the outputs of both. -/
def andThen {State Output : Type} (first : State × List Output) (second : State → State × List Output) :
    State × List Output :=
  ((second first.1).1, first.2 ++ (second first.1).2)

section Parts

variable {State Output : Type} (first : State × List Output) (second : State → State × List Output)

@[simp] theorem andThen_fst : (andThen first second).1 = (second first.1).1 := rfl

@[simp] theorem andThen_snd : (andThen first second).2 = first.2 ++ (second first.1).2 := rfl

end Parts

structure Machine (State Event Output : Type) where
  step : State → Event → State × List Output

namespace Machine

variable {State Event Output : Type} (machine : Machine State Event Output)

def after (state : State) (events : List Event) : State :=
  events.foldl (fun state event => (machine.step state event).1) state

/-- All outputs of the run. -/
def emitted : State → List Event → List Output
  | _, [] => []
  | state, event :: events => (machine.step state event).2 ++ emitted (machine.step state event).1 events

/-- What is seen of the run in the states before and after each step. -/
def observed {Seen : Type} (see : State → State → List Seen) : State → List Event → List Seen
  | _, [] => []
  | state, event :: events =>
    see state (machine.step state event).1 ++ observed see (machine.step state event).1 events

/-- Every step of the run is allowed in the state before it. -/
def Along (Allowed : State → Event → Prop) : State → List Event → Prop
  | _, [] => True
  | state, event :: events => Allowed state event ∧ Along Allowed (machine.step state event).1 events

instance decidableAlong (Allowed : State → Event → Prop) [∀ state event, Decidable (Allowed state event)]
    (state : State) (events : List Event) : Decidable (machine.Along Allowed state events) :=
  match events with
  | [] => inferInstanceAs (Decidable True)
  | event :: events =>
    have := decidableAlong Allowed (machine.step state event).1 events
    inferInstanceAs (Decidable (Allowed state event ∧ machine.Along Allowed (machine.step state event).1 events))

variable {machine} {state : State} {event : Event} {events later : List Event}

theorem Along.left {Allowed : State → Event → Prop} (along : machine.Along Allowed state (events ++ later)) :
    machine.Along Allowed state events := by
  induction events generalizing state with
  | nil => trivial
  | cons event events ih => exact ⟨along.1, ih along.2⟩

@[simp] theorem after_nil : machine.after state [] = state := rfl

@[simp] theorem after_cons :
    machine.after state (event :: events) = machine.after (machine.step state event).1 events := rfl

theorem after_append : machine.after state (events ++ later) = machine.after (machine.after state events) later :=
  List.foldl_append

theorem after_concat : machine.after state (events ++ [event]) = (machine.step (machine.after state events) event).1 := by
  rw [after_append, after_cons, after_nil]

@[simp] theorem emitted_nil : machine.emitted state [] = [] := rfl

@[simp] theorem emitted_cons : machine.emitted state (event :: events) =
    (machine.step state event).2 ++ machine.emitted (machine.step state event).1 events := rfl

@[simp] theorem observed_nil {Seen : Type} (see : State → State → List Seen) : machine.observed see state [] = [] := rfl

@[simp] theorem observed_cons {Seen : Type} (see : State → State → List Seen) :
    machine.observed see state (event :: events) =
      see state (machine.step state event).1 ++ machine.observed see (machine.step state event).1 events := rfl

theorem emitted_append : machine.emitted state (events ++ later) =
    machine.emitted state events ++ machine.emitted (machine.after state events) later := by
  induction events generalizing state with
  | nil => rfl
  | cons event events ih => rw [List.cons_append, emitted_cons, ih, emitted_cons, after_cons, List.append_assoc]

theorem emitted_concat : machine.emitted state (events ++ [event]) =
    machine.emitted state events ++ (machine.step (machine.after state events) event).2 := by
  rw [emitted_append, emitted_cons, emitted_nil, List.append_nil]

theorem after_holds {Holds : State → Prop} {Allowed : Event → Prop}
    (kept : ∀ state event, Holds state → Allowed event → Holds (machine.step state event).1)
    (start : Holds state) (allowed : ∀ event ∈ events, Allowed event) : Holds (machine.after state events) := by
  induction events generalizing state with
  | nil => exact start
  | cons event events ih =>
    exact ih (kept state event start (allowed event List.mem_cons_self))
      fun other member => allowed other (List.mem_cons_of_mem event member)

theorem after_kept {Holds : State → List Event → Prop}
    (kept : ∀ state event events, Holds state (event :: events) → Holds (machine.step state event).1 events)
    (start : Holds state (events ++ later)) : Holds (machine.after state events) later := by
  induction events generalizing state with
  | nil => exact start
  | cons event events ih => exact ih (kept state event (events ++ later) start)

/-- If no step loses or adds anything, what is held and what came out are what was held at first and
what went in. -/
theorem account {Amount : Type} [AddCommMonoid Amount] (held : State → Amount) (paid : Output → Amount)
    (received : Event → Amount) {Holds : State → List Event → Prop}
    (kept : ∀ state event events, Holds state (event :: events) → Holds (machine.step state event).1 events)
    (balanced : ∀ state event events, Holds state (event :: events) →
      ((machine.step state event).2.map paid).sum + held (machine.step state event).1 = held state + received event)
    (start : Holds state events) :
    ((machine.emitted state events).map paid).sum + held (machine.after state events) =
      held state + (events.map received).sum := by
  induction events generalizing state with
  | nil => rw [emitted_nil, after_nil, List.map_nil, List.map_nil, List.sum_nil, zero_add, add_zero]
  | cons event events ih =>
    rw [emitted_cons, after_cons, List.map_append, List.sum_append, add_assoc, ih (kept state event events start),
      ← add_assoc, balanced state event events start, List.map_cons, List.sum_cons, add_assoc]

theorem mem_emitted {output : Output} : output ∈ machine.emitted state events ↔
    ∃ early event late, events = early ++ event :: late ∧ output ∈ (machine.step (machine.after state early) event).2 := by
  induction events generalizing state with
  | nil => simp
  | cons event events ih =>
    rw [emitted_cons, List.mem_append, ih]
    constructor
    · rintro (now | ⟨early, next, late, rfl, member⟩)
      · exact ⟨[], event, events, rfl, now⟩
      · exact ⟨event :: early, next, late, rfl, member⟩
    · rintro ⟨early, next, late, split, member⟩
      cases early with
      | nil =>
        obtain ⟨rfl, rfl⟩ := List.cons.inj split
        exact .inl member
      | cons first early =>
        obtain ⟨rfl, rfl⟩ := List.cons.inj split
        exact .inr ⟨early, next, late, rfl, member⟩

/-- The outputs account for what is held all along exactly if they do in every step. -/
theorem tracks_iff {Amount : Type} [AddCommGroup Amount] (machine : Machine State Event Output) (state : State)
    (events : List Event) (paid : Output → Amount) (held : State → Amount) :
    (∀ early late, events = early ++ late →
        ((machine.emitted state early).map paid).sum + held state = held (machine.after state early)) ↔
      ∀ early event late, events = early ++ event :: late →
        ((machine.step (machine.after state early) event).2.map paid).sum + held (machine.after state early) =
          held (machine.step (machine.after state early) event).1 := by
  constructor
  · intro tracks early event late split
    have before := tracks early (event :: late) split
    have behind := tracks (early ++ [event]) late (by rw [split, List.append_assoc]; rfl)
    rw [emitted_concat, after_concat, List.map_append, List.sum_append, add_comm (List.sum _), add_assoc, before] at behind
    exact behind
  · intro steps early
    induction early using List.reverseRecOn with
    | nil =>
      intro _ _
      exact zero_add _
    | append_singleton early event ih =>
      intro late split
      rw [List.append_assoc] at split
      rw [emitted_concat, after_concat, List.map_append, List.sum_append, add_comm (List.sum _), add_assoc, ih _ split]
      exact steps early event late split

end Machine

end Jacdac
