import Jacdac.Services.Scheduler

/-! What sleeping inside `process()` cannot break: frames are handled one at a
time and in order, the services take turns, and no `process()` is entered while
another one runs. -/

namespace Jacdac

/-- `curr_service_process` outside of sleeps. -/
def CorePlace.curr : CorePlace → Nat
  | .process index _ => index
  | _ => 0

def CorePlace.turn (numServices : Nat) : CorePlace → Nat
  | .getFrame | .processFrame _ | .ctrlProcess _ => 0
  | .process index _ => index
  | .tickRest _ | .appProcess _ => numServices

def CorePlace.IsProcess : CorePlace → Prop
  | .process _ _ => True
  | _ => False

/-- The stacks that occur: a sleep is always that of a regular service, and
inside it no other `process()` of one runs. -/
inductive Nesting (numServices : Nat) : Nat → List Activation → Nat → Prop where
  | init : Nesting numServices inServInit [] 0
  | idle : Nesting numServices 0 [] 0
  | outer (place : CorePlace) (regular : ∀ index hadFrame, place = .process index hadFrame → 1 ≤ index ∧ index < numServices) :
    Nesting numServices place.curr [.core place] (place.turn numServices)
  | sleeping (index endTime : Nat) (hadFrame : Bool) (regular : 1 ≤ index ∧ index < numServices) :
    Nesting numServices inServSleep [.sleep index endTime, .core (.process index hadFrame)] index
  | inner (place : CorePlace) (index endTime : Nat) (hadFrame : Bool) (regular : 1 ≤ index ∧ index < numServices)
      (other : ¬ place.IsProcess) :
    Nesting numServices inServSleep [.core place, .sleep index endTime, .core (.process index hadFrame)] index

theorem Nesting.turn_empty (nesting : Nesting numServices curr [] turn) : turn = 0 := by
  cases nesting <;> rfl

/-- Complete rounds over all services. -/
def rounds (numServices count : Nat) : List Nat := (List.replicate count (List.range numServices)).flatten

theorem rounds_succ (numServices count : Nat) :
    rounds numServices (count + 1) = rounds numServices count ++ List.range numServices := by
  rw [rounds, List.replicate_succ', List.flatten_append, List.flatten_singleton, rounds]

/-- Some rounds and the first services of the next one. -/
def TakesTurns (numServices : Nat) (turns : List Nat) (turn : Nat) : Prop :=
  ∃ count, turns = rounds numServices count ++ List.range turn

theorem TakesTurns.next (takes : TakesTurns numServices turns turn) :
    TakesTurns numServices (turns ++ [turn]) (turn + 1) := by
  obtain ⟨count, rfl⟩ := takes
  exact ⟨count, by rw [List.range_succ, List.append_assoc]⟩

theorem TakesTurns.round (takes : TakesTurns numServices turns numServices) : TakesTurns numServices turns 0 := by
  obtain ⟨count, rfl⟩ := takes
  exact ⟨count + 1, by rw [rounds_succ, List.range_zero, List.append_nil]⟩

/-- What every step keeps. -/
structure SchedulerHolds (numServices : Nat) (state : Scheduler) (trace : SchedulerTrace) : Prop where
  nesting : ∃ turn, Nesting numServices state.curr state.stack turn ∧ TakesTurns numServices trace.turns turn
  front : ∀ frame, .core (.processFrame frame) ∈ state.stack → state.rxQueue.head? = some frame
  fifo : trace.handled ++ state.rxQueue = trace.received

theorem nesting_runServices (state : Scheduler) (hadFrame : Bool) (positive : 1 ≤ index) (within : index ≤ numServices) :
    Nesting numServices (state.runServices numServices index hadFrame []).curr
      (state.runServices numServices index hadFrame []).stack index := by
  unfold Scheduler.runServices
  split
  · rename_i regular
    refine .outer (.process index hadFrame) fun other flag same => ?_
    cases same
    exact ⟨positive, regular⟩
  · obtain rfl : index = numServices := by omega
    exact .outer (.tickRest hadFrame) nofun

theorem runServices_rest (numServices index : Nat) (state : Scheduler) (hadFrame : Bool) (below : List Activation) :
    (state.runServices numServices index hadFrame below).rxQueue = state.rxQueue ∧
      ∀ frame, .core (.processFrame frame) ∈ (state.runServices numServices index hadFrame below).stack →
        Activation.core (.processFrame frame) ∈ below := by
  unfold Scheduler.runServices
  split <;> simp

namespace SchedulerHolds

variable {numServices : Nat} {state : Scheduler} {trace : SchedulerTrace}

theorem initial (numServices : Nat) :
    SchedulerHolds numServices .initial { received := [], handled := [], turns := [], nested := [] } where
  nesting := ⟨0, .init, 0, rfl⟩
  front := by simp [Scheduler.initial]
  fifo := rfl

theorem initDone (holds : SchedulerHolds numServices state trace) (init : state.stack = [] ∧ state.curr = inServInit) :
    SchedulerHolds numServices state.initDone trace := by
  obtain ⟨⟨turn, nesting, turns⟩, front, fifo⟩ := holds
  obtain ⟨curr, stack, rxQueue, panicked⟩ := state
  obtain ⟨rfl : stack = [], _⟩ := init
  obtain rfl : turn = 0 := nesting.turn_empty
  exact ⟨⟨0, .idle, turns⟩, front, fifo⟩

theorem everything (holds : SchedulerHolds numServices state trace) (idle : state.stack = [] ∧ state.curr ≠ inServInit) :
    SchedulerHolds numServices state.enterCore trace := by
  obtain ⟨⟨turn, nesting, turns⟩, _, fifo⟩ := holds
  obtain ⟨curr, stack, rxQueue, panicked⟩ := state
  obtain ⟨rfl : stack = [], started⟩ := idle
  cases nesting with
  | init => exact absurd rfl started
  | idle => exact ⟨⟨0, .outer .getFrame nofun, turns⟩, by simp [Scheduler.enterCore], fifo⟩

theorem receive (holds : SchedulerHolds numServices state trace) (frame : Frame) :
    SchedulerHolds numServices { state with rxQueue := state.rxQueue ++ [frame] }
      { trace with received := trace.received ++ [frame] } where
  nesting := holds.nesting
  front := by
    intro other handling
    have head := holds.front other handling
    change (state.rxQueue ++ [frame]).head? = _
    rw [List.head?_append, head]
    rfl
  fifo := by
    change trace.handled ++ (state.rxQueue ++ [frame]) = trace.received ++ [frame]
    rw [← List.append_assoc, holds.fifo]

/-- The innermost call returns, outside of any sleep. -/
theorem nextOuter (place : CorePlace) (now : Nat) (ctrl : 1 ≤ numServices)
    (regular : ∀ index hadFrame, place = .process index hadFrame → 1 ≤ index ∧ index < numServices)
    (holds : SchedulerHolds numServices ⟨place.curr, [.core place], rxQueue, panicked⟩ trace)
    (turns : TakesTurns numServices trace.turns (place.turn numServices)) :
    SchedulerHolds numServices (Scheduler.next numServices now ⟨place.curr, [.core place], rxQueue, panicked⟩)
      (trace.next [.core place]) := by
  obtain ⟨_, front, fifo⟩ := holds
  cases place with
  | getFrame =>
    cases rxQueue with
    | nil => exact ⟨⟨0, .outer (.ctrlProcess false) nofun, turns⟩, by simp [Scheduler.next], fifo⟩
    | cons frame rest => exact ⟨⟨0, .outer (.processFrame frame) nofun, turns⟩, by simp [Scheduler.next], fifo⟩
  | processFrame frame =>
    have head : rxQueue.head? = some frame := front frame (by simp)
    obtain ⟨rest, rfl⟩ := List.head?_eq_some_iff.mp head
    refine ⟨⟨0, .outer (.ctrlProcess true) nofun, turns⟩, by simp [Scheduler.next], ?_⟩
    change (trace.handled ++ [frame]) ++ rest = trace.received
    rw [List.append_assoc]
    exact fifo
  | ctrlProcess hadFrame =>
    have awake : (CorePlace.ctrlProcess hadFrame).curr ≠ inServSleep := show 0 ≠ 0xfe by decide
    simp only [Scheduler.next, if_pos awake]
    obtain ⟨queue, noFrame⟩ := runServices_rest numServices 1
      ⟨(CorePlace.ctrlProcess hadFrame).curr, [.core (.ctrlProcess hadFrame)], rxQueue, panicked⟩ hadFrame []
    refine ⟨⟨1, nesting_runServices _ hadFrame (Nat.le_refl 1) ctrl, turns.next⟩, fun frame member => ?_, queue ▸ fifo⟩
    exact absurd (noFrame frame member) (by simp)
  | process index hadFrame =>
    obtain ⟨positive, within⟩ := regular index hadFrame rfl
    simp only [Scheduler.next]
    obtain ⟨queue, noFrame⟩ := runServices_rest numServices (index + 1)
      ⟨(CorePlace.process index hadFrame).curr, [.core (.process index hadFrame)], rxQueue, panicked⟩ hadFrame []
    refine ⟨⟨index + 1, nesting_runServices _ hadFrame (by omega) within, turns.next⟩, fun frame member => ?_,
      queue ▸ fifo⟩
    exact absurd (noFrame frame member) (by simp)
  | tickRest hadFrame => exact ⟨⟨numServices, .outer (.appProcess hadFrame) nofun, turns⟩, by simp [Scheduler.next], fifo⟩
  | appProcess hadFrame =>
    cases hadFrame with
    | true => exact ⟨⟨0, .outer .getFrame nofun, turns.round⟩, by simp [Scheduler.next], fifo⟩
    | false => exact ⟨⟨0, .idle, turns.round⟩, by simp [Scheduler.next], fifo⟩

/-- The innermost call returns, while a service sleeps. -/
theorem nextInner (place : CorePlace) (now : Nat) (regular : 1 ≤ index ∧ index < numServices) (other : ¬ place.IsProcess)
    (holds : SchedulerHolds numServices
      ⟨inServSleep, [.core place, .sleep index endTime, .core (.process index hadFrame)], rxQueue, panicked⟩ trace)
    (turns : TakesTurns numServices trace.turns index) :
    SchedulerHolds numServices
      (Scheduler.next numServices now
        ⟨inServSleep, [.core place, .sleep index endTime, .core (.process index hadFrame)], rxQueue, panicked⟩)
      (trace.next [.core place, .sleep index endTime, .core (.process index hadFrame)]) := by
  obtain ⟨_, front, fifo⟩ := holds
  have inner (place : CorePlace) (other : ¬ place.IsProcess) : Nesting numServices inServSleep
      [.core place, .sleep index endTime, .core (.process index hadFrame)] index :=
    .inner place index endTime hadFrame regular other
  cases place with
  | getFrame =>
    cases rxQueue with
    | nil => exact ⟨⟨index, inner (.ctrlProcess false) id, turns⟩, by simp [Scheduler.next], fifo⟩
    | cons frame rest => exact ⟨⟨index, inner (.processFrame frame) id, turns⟩, by simp [Scheduler.next], fifo⟩
  | processFrame frame =>
    have head : rxQueue.head? = some frame := front frame (by simp)
    obtain ⟨rest, rfl⟩ := List.head?_eq_some_iff.mp head
    refine ⟨⟨index, inner (.ctrlProcess true) id, turns⟩, by simp [Scheduler.next], ?_⟩
    change (trace.handled ++ [frame]) ++ rest = trace.received
    rw [List.append_assoc]
    exact fifo
  | ctrlProcess flag => exact ⟨⟨index, inner (.tickRest flag) id, turns⟩, by simp [Scheduler.next], fifo⟩
  | process nested flag => exact absurd trivial other
  | tickRest flag => exact ⟨⟨index, inner (.appProcess flag) id, turns⟩, by simp [Scheduler.next], fifo⟩
  | appProcess flag =>
    cases flag with
    | true => exact ⟨⟨index, inner .getFrame id, turns⟩, by simp [Scheduler.next], fifo⟩
    | false => exact ⟨⟨index, .sleeping index endTime hadFrame regular, turns⟩, by simp [Scheduler.next], fifo⟩

theorem next (holds : SchedulerHolds numServices state trace) (ctrl : 1 ≤ numServices) (now : Nat) :
    SchedulerHolds numServices (state.next numServices now) (trace.next state.stack) := by
  obtain ⟨turn, nesting, turns⟩ := holds.nesting
  obtain ⟨curr, stack, rxQueue, panicked⟩ := state
  cases nesting with
  | init => exact holds
  | idle => exact holds
  | outer place regular => exact holds.nextOuter place now ctrl regular turns
  | sleeping index endTime hadFrame regular =>
    obtain ⟨_, front, fifo⟩ := holds
    by_cases waits : inFuture now endTime
    · simp only [Scheduler.next, if_pos waits]
      exact ⟨⟨turn, .inner .getFrame turn endTime hadFrame regular id, turns⟩, by simp [Scheduler.enterCore], fifo⟩
    · simp only [Scheduler.next, if_neg waits]
      refine ⟨⟨turn, .outer (.process turn hadFrame) fun other flag same => ?_, turns⟩, by simp, fifo⟩
      cases same
      exact regular
  | inner place index endTime hadFrame regular other => exact holds.nextInner place now regular other turns

/-- A callback sleeps. Only the `process()` of a regular service can do so for
long, and not while another one sleeps. -/
theorem sleep (holds : SchedulerHolds numServices state trace) (callback : state.InCallback) (delta now : Nat) :
    SchedulerHolds numServices (state.sleepUs delta now) trace := by
  obtain ⟨⟨turn, nesting, turns⟩, front, fifo⟩ := holds
  obtain ⟨curr, stack, rxQueue, panicked⟩ := state
  unfold Scheduler.sleepUs
  split
  · exact ⟨⟨turn, nesting, turns⟩, front, fifo⟩
  split
  · exact ⟨⟨turn, nesting, turns⟩, front, fifo⟩
  rename_i started
  split
  · exact ⟨⟨turn, nesting, turns⟩, front, fifo⟩
  rename_i allowed
  cases nesting with
  | init => exact absurd (.inr rfl) started
  | idle => exact absurd (.inl rfl) allowed
  | sleeping index endTime hadFrame regular => exact absurd (.inr rfl) allowed
  | inner place index endTime hadFrame regular other => exact absurd (.inr rfl) allowed
  | outer place regular =>
    cases place with
    | process index hadFrame =>
      exact ⟨⟨index, .sleeping index _ hadFrame (regular index hadFrame rfl), turns⟩, by simp, fifo⟩
    | getFrame => exact absurd callback id
    | processFrame frame => exact absurd (.inl rfl) allowed
    | ctrlProcess hadFrame => exact absurd (.inl rfl) allowed
    | tickRest hadFrame => exact absurd (.inl rfl) allowed
    | appProcess hadFrame => exact absurd (.inl rfl) allowed

end SchedulerHolds

theorem SchedulerRun.holds (run : SchedulerRun numServices state trace) (ctrl : 1 ≤ numServices) :
    SchedulerHolds numServices state trace := by
  induction run with
  | initial => exact .initial numServices
  | initDone _ init ih => exact ih.initDone init
  | receive _ frame ih => exact ih.receive frame
  | everything _ idle _ ih => exact ih.everything idle
  | next _ _ now ih => exact ih.next ctrl now
  | sleep _ _ callback delta now ih => exact ih.sleep callback delta now

/-- Inside a sleep only the control service's `process()` is called. -/
theorem SchedulerRun.nested (run : SchedulerRun numServices state trace) (ctrl : 1 ≤ numServices) :
    ∀ index ∈ trace.nested, index = 0 := by
  induction run with
  | initial => exact nofun
  | initDone _ _ ih => exact ih
  | receive _ _ ih => exact ih
  | everything _ _ _ ih => exact ih
  | sleep _ _ _ _ _ ih => exact ih
  | @next state trace run _ now ih =>
    obtain ⟨turn, nesting, _⟩ := (run.holds ctrl).nesting
    obtain ⟨curr, stack, rxQueue, panicked⟩ := state
    cases nesting with
    | init => exact ih
    | idle => exact ih
    | sleeping => exact ih
    | outer place regular => cases place <;> exact ih
    | inner place index endTime hadFrame regular other =>
      cases place with
      | process => exact absurd trivial other
      | ctrlProcess =>
        intro index member
        rcases List.mem_append.mp member with before | last
        · exact ih index before
        · exact List.mem_singleton.mp last
      | getFrame => exact ih
      | processFrame => exact ih
      | tickRest => exact ih
      | appProcess => exact ih

/-- The activation is inside the `process()` of a regular service. -/
def Activation.inProcess : Activation → Bool
  | .core (.process _ _) => true
  | _ => false

/-- The activation is inside `jd_services_process_frame`. -/
def Activation.inFrame : Activation → Bool
  | .core (.processFrame _) => true
  | _ => false

/-- Sleeping for 50 microseconds or more is left to the `process()` of regular
services, and to initialisation. -/
def MaySleep (state : Scheduler) : Prop :=
  state.curr = inServInit ∨ ∃ index hadFrame, state.stack = [.core (.process index hadFrame)]

theorem sleepUs_refused (state : Scheduler) (long : 50 ≤ delta) (now : Nat)
    (nobody : state.curr = 0 ∨ state.curr = inServSleep) : (state.sleepUs delta now).panicked = true := by
  have started : ¬ (delta < 50 ∨ state.curr = inServInit) := by
    have init : inServInit = 255 := rfl
    have sleep : inServSleep = 254 := rfl
    omega
  unfold Scheduler.sleepUs
  rw [if_neg (by omega), if_neg started, if_pos nobody]

theorem Nesting.mayPanic {state : Scheduler} (nesting : Nesting numServices state.curr state.stack turn)
    (small : numServices ≤ inServSleep) (callback : state.InCallback) (alive : state.panicked = false)
    (long : 50 ≤ delta) (now : Nat) : (state.sleepUs delta now).panicked = true ↔ ¬ MaySleep state := by
  obtain ⟨curr, stack, rxQueue, panicked⟩ := state
  obtain rfl : panicked = false := alive
  have refused (curr : Nat) (stack : List Activation) (nobody : curr = 0 ∨ curr = inServSleep)
      (other : ∀ index hadFrame, stack ≠ [.core (.process index hadFrame)]) :
      (Scheduler.sleepUs delta now ⟨curr, stack, rxQueue, false⟩).panicked = true ↔
        ¬ MaySleep ⟨curr, stack, rxQueue, false⟩ := by
    refine iff_of_true (sleepUs_refused _ long now nobody) ?_
    rintro (init | ⟨index, hadFrame, same⟩)
    · have value : inServInit = 255 := rfl
      have sleep : inServSleep = 254 := rfl
      change curr = inServInit at init
      omega
    · exact other index hadFrame same
  cases nesting with
  | init =>
    refine iff_of_false ?_ (not_not.mpr (.inl rfl))
    have init : delta < 50 ∨ inServInit = inServInit := .inr rfl
    have plain : (Scheduler.sleepUs delta now ⟨inServInit, [], rxQueue, false⟩).panicked = false := by
      unfold Scheduler.sleepUs
      rw [if_neg (by omega), if_pos init]
    exact Bool.eq_false_iff.mp plain
  | idle => exact refused 0 [] (.inl rfl) (by simp)
  | sleeping index endTime hadFrame regular => exact refused _ _ (.inr rfl) (by simp)
  | inner place index endTime hadFrame regular other => exact refused _ _ (.inr rfl) (by simp)
  | outer place regular =>
    cases place with
    | process index hadFrame =>
      obtain ⟨positive, within⟩ := regular index hadFrame rfl
      refine iff_of_false ?_ (not_not.mpr (.inr ⟨index, hadFrame, rfl⟩))
      have named : ¬ (index = 0 ∨ index = inServSleep) := by omega
      have plain : (Scheduler.sleepUs delta now
          ⟨index, [.core (.process index hadFrame)], rxQueue, false⟩).panicked = false := by
        unfold Scheduler.sleepUs
        split
        · rfl
        split
        · rfl
        rfl
      simpa using plain
    | getFrame => exact absurd callback id
    | processFrame frame => exact refused 0 _ (.inl rfl) (by simp)
    | ctrlProcess hadFrame => exact refused 0 _ (.inl rfl) (by simp)
    | tickRest hadFrame => exact refused 0 _ (.inl rfl) (by simp)
    | appProcess hadFrame => exact refused 0 _ (.inl rfl) (by simp)

theorem Nesting.turn_le (nesting : Nesting numServices curr stack turn) : turn ≤ numServices := by
  cases nesting with
  | init => exact Nat.zero_le _
  | idle => exact Nat.zero_le _
  | sleeping index endTime hadFrame regular => exact Nat.le_of_lt regular.2
  | inner place index endTime hadFrame regular other => exact Nat.le_of_lt regular.2
  | outer place regular =>
    cases place with
    | process index hadFrame => exact Nat.le_of_lt (regular index hadFrame rfl).2
    | getFrame => exact Nat.zero_le _
    | processFrame frame => exact Nat.zero_le _
    | ctrlProcess hadFrame => exact Nat.zero_le _
    | tickRest hadFrame => exact Nat.le_refl _
    | appProcess hadFrame => exact Nat.le_refl _

theorem Nesting.once (nesting : Nesting numServices curr stack turn) :
    stack.countP Activation.inProcess ≤ 1 ∧ stack.countP Activation.inFrame ≤ 1 ∧ stack.length ≤ 3 := by
  cases nesting with
  | init => simp
  | idle => simp
  | outer place regular => exact ⟨List.countP_le_length, List.countP_le_length, by simp⟩
  | sleeping index endTime hadFrame regular => simp [Activation.inProcess, Activation.inFrame]
  | inner place index endTime hadFrame regular other =>
    cases place with
    | process nested flag => exact absurd trivial other
    | getFrame => simp [Activation.inProcess, Activation.inFrame]
    | processFrame frame => exact ⟨Nat.le_refl 1, Nat.le_refl 1, Nat.le_refl 3⟩
    | ctrlProcess flag => simp [Activation.inProcess, Activation.inFrame]
    | tickRest flag => simp [Activation.inProcess, Activation.inFrame]
    | appProcess flag => simp [Activation.inProcess, Activation.inFrame]

theorem Nesting.current (nesting : Nesting numServices curr (.core (.process index hadFrame) :: below) turn) :
    curr = index := by
  cases nesting with
  | outer _ regular => rfl
  | inner _ _ _ _ regular other => exact absurd trivial other

/-- In every run: outside of sleeps the services take turns by index, one round after the other,
and inside of them only the control service is called; frames are released in the order of their arrival, each once and only after it
was handled; at most one `process()` of a regular service and at most one frame
are under way however often callbacks sleep, and no more than one sleep; the
service recorded in `curr_service_process` is the one that runs; and a long
sleep panics exactly where it is not allowed. -/
theorem services_take_turns (ctrl : 1 ≤ numServices) (small : numServices ≤ inServSleep)
    (run : SchedulerRun numServices state trace) :
    (∃ count turn, turn ≤ numServices ∧ trace.turns = rounds numServices count ++ List.range turn) ∧
    (∀ index ∈ trace.nested, index = 0) ∧
    trace.handled ++ state.rxQueue = trace.received ∧
    (∀ frame, .core (.processFrame frame) ∈ state.stack → state.rxQueue.head? = some frame) ∧
    state.stack.countP Activation.inProcess ≤ 1 ∧ state.stack.countP Activation.inFrame ≤ 1 ∧ state.stack.length ≤ 3 ∧
    (∀ index hadFrame below, state.stack = .core (.process index hadFrame) :: below → state.curr = index) ∧
    (state.InCallback → state.panicked = false → ∀ delta now, 50 ≤ delta →
      ((state.sleepUs delta now).panicked = true ↔ ¬ MaySleep state)) := by
  have holds := run.holds ctrl
  obtain ⟨turn, nesting, count, turns⟩ := holds.nesting
  obtain ⟨processes, frames, depth⟩ := nesting.once
  refine ⟨⟨count, turn, nesting.turn_le, turns⟩, run.nested ctrl, holds.fifo, holds.front, processes, frames, depth, ?_, ?_⟩
  · intro index hadFrame below same
    rw [same] at nesting
    exact nesting.current
  · exact fun callback alive delta now long => nesting.mayPanic small callback alive long now

/-- Two services; the second sleeps, and in the nested main loop the control
service must not. -/
theorem services_take_turns_nested :
    ∃ state : Scheduler, state.curr = inServSleep ∧
      state.stack.countP Activation.inProcess ≤ 1 ∧ (state.sleepUs 1000 0).panicked = true := by
  have start : SchedulerRun 2 .initial _ := .initial
  have booted := start.initDone ⟨rfl, rfl⟩
  have first := booted.everything ⟨rfl, by decide⟩ rfl
  have ticking := (first.next rfl 0).next rfl 0
  have sleeping := ticking.sleep rfl trivial 7000 0
  have nested := (sleeping.next rfl 0).next rfl 0
  obtain ⟨_, _, _, _, once, _, _, _, panics⟩ := services_take_turns (by decide) (by decide) nested
  refine ⟨_, ?_, once, (panics trivial rfl 1000 0 (by decide)).mpr ?_⟩
  · rfl
  rintro (init | ⟨index, hadFrame, same⟩)
  · exact absurd init (by decide)
  · have lengths : 3 = 1 := congrArg List.length same
    omega

end Jacdac
