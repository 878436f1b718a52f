import Jacdac.Frame.Layout
import Jacdac.Pipe.Output

/-! `jd_services_tick`, `jd_process_everything_core` and `jd_services_sleep_us`.
A `process()` callback that sleeps runs the main loop again inside itself, so
the state keeps the activations of the two functions on a stack. What the
callbacks do besides sleeping is left out. -/

namespace Jacdac

def inServInit : Nat := 0xff
/-- `IN_SERV_SLEEP`. -/
def inServSleep : Nat := 0xfe

/-- The call an activation of `jd_process_everything_core` is at; the flag is
`fr != NULL`. -/
inductive CorePlace where
  | getFrame
  | processFrame (frame : Frame)
  /-- `services[0]->vt->process`. -/
  | ctrlProcess (hadFrame : Bool)
  | process (index : Nat) (hadFrame : Bool)
  /-- From `jd_process_event_queue` to the end of the tick. -/
  | tickRest (hadFrame : Bool)
  | appProcess (hadFrame : Bool)

inductive Activation where
  | core (place : CorePlace)
  /-- `jd_services_sleep_us`, with `curr_serv` and `end_time`. -/
  | sleep (saved endTime : Nat)

structure Scheduler where
  /-- `curr_service_process`. -/
  curr : Nat
  /-- Innermost first. -/
  stack : List Activation
  rxQueue : List Frame
  panicked : Bool

namespace Scheduler

/-- While the services are allocated. -/
def initial : Scheduler := { curr := inServInit, stack := [], rxQueue := [], panicked := false }

/-- The end of `jd_services_init`. -/
def initDone (state : Scheduler) : Scheduler := { state with curr := 0 }

/-- `jd_process_everything_core` is called. -/
def enterCore (state : Scheduler) : Scheduler := { state with stack := .core .getFrame :: state.stack }

/-- The loop over the regular services, from an index on. -/
def runServices (numServices index : Nat) (hadFrame : Bool) (below : List Activation) (state : Scheduler) : Scheduler :=
  if index < numServices then { state with curr := index, stack := .core (.process index hadFrame) :: below }
  else { state with curr := 0, stack := .core (.tickRest hadFrame) :: below }

/-- The call that the innermost activation is at returns. -/
def next (numServices now : Nat) (state : Scheduler) : Scheduler :=
  match state.stack with
  | [] => state
  | .sleep saved endTime :: below =>
    if inFuture now endTime then state.enterCore else { state with curr := saved, stack := below }
  | .core .getFrame :: below =>
    match state.rxQueue with
    | [] => { state with stack := .core (.ctrlProcess false) :: below }
    | frame :: _ => { state with stack := .core (.processFrame frame) :: below }
  | .core (.processFrame _) :: below =>
    { state with rxQueue := state.rxQueue.tail, stack := .core (.ctrlProcess true) :: below }
  | .core (.ctrlProcess hadFrame) :: below =>
    if state.curr ≠ inServSleep then state.runServices numServices 1 hadFrame below
    else { state with stack := .core (.tickRest hadFrame) :: below }
  | .core (.process index hadFrame) :: below => state.runServices numServices (index + 1) hadFrame below
  | .core (.tickRest hadFrame) :: below => { state with stack := .core (.appProcess hadFrame) :: below }
  | .core (.appProcess hadFrame) :: below =>
    { state with stack := if hadFrame then .core .getFrame :: below else below }

/-- `jd_services_sleep_us`, up to its loop. -/
def sleepUs (delta now : Nat) (state : Scheduler) : Scheduler :=
  if delta ≤ 1 then state
  else if delta < 50 ∨ state.curr = inServInit then state
  else if state.curr = 0 ∨ state.curr = inServSleep then { state with panicked := true }
  else { state with curr := inServSleep, stack := .sleep state.curr (u32 (now + delta)) :: state.stack }

/-- Some callback runs: one of an activation, or one of `jd_services_init`. -/
def InCallback (state : Scheduler) : Prop :=
  match state.stack with
  | [] => state.curr = inServInit
  | .sleep _ _ :: _ | .core .getFrame :: _ => False
  | .core _ :: _ => True

end Scheduler

/-- What happened so far: the frames received, the frames that were released,
and the services whose `process()` has returned, outside of sleeps and inside of them. -/
structure SchedulerTrace where
  received : List Frame
  handled : List Frame
  turns : List Nat
  nested : List Nat

/-- What the return of the innermost call adds. -/
def SchedulerTrace.next (trace : SchedulerTrace) (stack : List Activation) : SchedulerTrace :=
  match stack with
  | .core (.processFrame frame) :: _ => { trace with handled := trace.handled ++ [frame] }
  | [.core (.ctrlProcess _)] => { trace with turns := trace.turns ++ [0] }
  | .core (.ctrlProcess _) :: _ => { trace with nested := trace.nested ++ [0] }
  | [.core (.process index _)] => { trace with turns := trace.turns ++ [index] }
  | .core (.process index _) :: _ => { trace with nested := trace.nested ++ [index] }
  | _ => trace

/-- Callbacks sleep and return, frames arrive, and the main program calls
`jd_process_everything` again and again, all at any time. -/
inductive SchedulerRun (numServices : Nat) : Scheduler → SchedulerTrace → Prop where
  | initial : SchedulerRun numServices .initial { received := [], handled := [], turns := [], nested := [] }
  | initDone (run : SchedulerRun numServices state trace) (init : state.stack = [] ∧ state.curr = inServInit) :
    SchedulerRun numServices state.initDone trace
  | receive (run : SchedulerRun numServices state trace) (frame : Frame) :
    SchedulerRun numServices { state with rxQueue := state.rxQueue ++ [frame] }
      { trace with received := trace.received ++ [frame] }
  | everything (run : SchedulerRun numServices state trace) (idle : state.stack = [] ∧ state.curr ≠ inServInit)
      (alive : state.panicked = false) : SchedulerRun numServices state.enterCore trace
  | next (run : SchedulerRun numServices state trace) (alive : state.panicked = false) (now : Nat) :
    SchedulerRun numServices (state.next numServices now) (trace.next state.stack)
  | sleep (run : SchedulerRun numServices state trace) (alive : state.panicked = false) (callback : state.InCallback)
      (delta now : Nat) : SchedulerRun numServices (state.sleepUs delta now) trace

end Jacdac
