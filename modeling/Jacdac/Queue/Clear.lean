import Jacdac.Queue.Fifo

/-! `jd_queue_clear` against a new queue. It leaves `curr_size` as it was, and a
wrapped queue has one that is not `size`. -/

namespace Jacdac

open QueuedFrame

variable {capacity : Nat} {queue other fresh next : Queue} {frames : List QueuedFrame}

def jdQueueClear (queue : Queue) : Queue := { queue with front := 0, back := 0 }

inductive QueueCall where
  | push (frame : Frame) (lower : 1 ≤ frame.size) (upper : frame.size ≤ 240)
  | front
  | shift
  | willFit (size : Nat)

/-- What a caller gets; of the front frame, its bytes. -/
inductive QueueAnswer where
  | pushed (ret : Int)
  | front (record : Option (List UInt8))
  | shifted
  | fits (answer : Bool)
  deriving DecidableEq

/-- The bytes behind the pointer of `jd_queue_front`. -/
def frontBytes (queue : Queue) : Option (List UInt8) :=
  (jdQueueFront queue).map fun offset => queue.data.read offset (frmSize (queue.frameAt offset))

def QueueCall.run (queue : Queue) : QueueCall → Except QueueFault (QueueAnswer × Queue)
  | .push frame _ _ => (jdQueuePush queue frame).map fun (ret, next) => (.pushed ret, next)
  | .front => .ok (.front (frontBytes queue), queue)
  | .shift => (jdQueueShift queue).map fun next => (.shifted, next)
  | .willFit size => .ok (.fits (jdQueueWillFit queue size), queue)

/-- The results of a sequence of calls, up to the first assertion that fails. -/
def answers : List QueueCall → Queue → List (Except QueueFault QueueAnswer)
  | [], _ => []
  | call :: rest, queue =>
    match call.run queue with
    | .error fault => [.error fault]
    | .ok (answer, next) => .ok answer :: answers rest next

/-- Every sequence of calls has the same results as on a new queue, and the only
assertion that may fail is that of a shift of an empty queue. -/
def ActsAsNew (queue : Queue) : Prop :=
  ∀ calls, answers calls queue = answers calls (jdQueueAlloc queue.size) ∧
    ∀ fault, .error fault ∈ answers calls queue → fault = .shiftEmpty

def Queue.indices (queue : Queue) : Nat × Nat × Nat × Nat := (queue.front, queue.back, queue.size, queue.currSize)

structure Alike (queue other : Queue) (frames : List QueuedFrame) : Prop where
  left : Holds queue frames
  right : Holds other frames
  indices : queue.indices = other.indices
  small : queue.size ≤ 65535

/-- One call on two queues: both fail to shift nothing, or both give the same. -/
def SameCall (relation : Queue → Queue → Prop) (queue other : Queue) (call : QueueCall) : Prop :=
  (call.run queue = .error .shiftEmpty ∧ call.run other = .error .shiftEmpty) ∨
    ∃ answer next after, call.run queue = .ok (answer, next) ∧ call.run other = .ok (answer, after) ∧ relation next after

/-- If every call keeps the relation, related queues give the same results. -/
theorem answers_of_related {relation : Queue → Queue → Prop}
    (step : ∀ queue other call, relation queue other → SameCall relation queue other call)
    (related : relation queue other) (calls : List QueueCall) :
    answers calls queue = answers calls other ∧
      ∀ fault, .error fault ∈ answers calls queue → fault = .shiftEmpty := by
  induction calls generalizing queue other with
  | nil => exact ⟨rfl, nofun⟩
  | cons call rest ih =>
    rcases step queue other call related with ⟨left, right⟩ | ⟨answer, next, after, left, right, related⟩
    · rw [answers, answers, left, right]
      refine ⟨rfl, fun fault failed => ?_⟩
      cases List.mem_singleton.mp failed
      rfl
    · obtain ⟨same, only⟩ := ih related
      rw [answers, answers, left, right]
      refine ⟨congrArg _ same, fun fault failed => ?_⟩
      rcases List.mem_cons.mp failed with first | later
      · cases first
      · exact only fault later

theorem Holds.frontBytes (holds : Holds queue frames) : frontBytes queue = frames.head?.map bytes := by
  rw [Jacdac.frontBytes]
  cases frames with
  | nil => rw [holds.front_nil]; rfl
  | cons record rest =>
    obtain ⟨offset, front, content, _⟩ := holds.front_cons
    rw [front, Option.map_some, frameAt_size content, content]
    rfl

theorem push_indices (same : queue.indices = other.indices) (size : Nat) :
    (reserve queue size).1 = (reserve other size).1 ∧ (reserve queue size).2.indices = (reserve other size).2.indices := by
  obtain ⟨front, back, size, curr, data⟩ := queue
  obtain ⟨front, back, size, curr, data⟩ := other
  simp only [Queue.indices, Prod.mk.injEq] at same
  obtain ⟨rfl, rfl, rfl, rfl⟩ := same
  unfold reserve
  dsimp only
  split
  · split
    · exact ⟨rfl, rfl⟩
    · split <;> exact ⟨rfl, rfl⟩
  · split <;> exact ⟨rfl, rfl⟩

/-- The result of a push that passes its assertions. -/
def stored (queue : Queue) (frame : Frame) : Int × Queue :=
  let moved := (reserve queue (frmSize frame)).2
  ((reserve queue (frmSize frame)).1,
    if (reserve queue (frmSize frame)).1 = 0 then
      { moved with data := moved.data.write (moved.back - frmSize frame) (frame.read 0 (frmSize frame)) }
    else moved)

/-- The indices stay inside the queue. -/
structure Queue.Within (queue : Queue) : Prop where
  small : queue.size ≤ 65535
  front : queue.front ≤ queue.size
  back : queue.back ≤ queue.size
  currSize : queue.currSize ≤ queue.size

theorem Holds.within (holds : Holds queue frames) (small : queue.size ≤ 65535) : queue.Within := by
  cases holds with
  | linear order inside unmoved _ => exact ⟨small, by omega, inside, by omega⟩
  | wrapped order inside bound _ _ _ _ => exact ⟨small, by omega, by omega, bound⟩

theorem Queue.Within.reserve (within : queue.Within) (size : Nat) : (reserve queue size).2.Within := by
  obtain ⟨small, front, back, curr⟩ := within
  unfold Jacdac.reserve
  split
  · split
    · rw [u16_of_lt (by omega)]
      exact ⟨small, front, by assumption, curr⟩
    · split
      · rw [u16_of_lt (by omega)]
        exact ⟨small, front, (by omega : size ≤ queue.size), back⟩
      · exact ⟨small, front, back, curr⟩
  · split
    · rw [u16_of_lt (by omega)]
      exact ⟨small, front, (by omega : queue.back + size ≤ queue.size), curr⟩
    · exact ⟨small, front, back, curr⟩

theorem push_stored (within : queue.Within) {frame : Frame} (lower : 1 ≤ frame.size) :
    jdQueuePush queue frame = .ok (stored queue frame) := by
  have positive : ¬ frame.size = 0 := by omega
  obtain ⟨_, front, back, curr⟩ := within.reserve (frmSize frame)
  unfold stored
  by_cases code : (reserve queue (frmSize frame)).1 = 0
  · simp [jdQueuePush, positive, code, front, back, curr, pure, Except.pure]
  · simp [jdQueuePush, positive, code, front, back, curr, pure, Except.pure]

theorem stored_indices (same : queue.indices = other.indices) (frame : Frame) :
    (stored queue frame).1 = (stored other frame).1 ∧ (stored queue frame).2.indices = (stored other frame).2.indices := by
  obtain ⟨code, moved⟩ := push_indices same (frmSize frame)
  refine ⟨code, ?_⟩
  unfold stored
  dsimp only
  rw [code]
  split
  · exact moved
  · exact moved

/-- A push appends the frame or changes nothing, as `jd_queue_will_fit` says. -/
theorem Holds.stored (holds : Holds queue frames) (small : queue.size ≤ 65535) {frame : Frame} (lower : 1 ≤ frame.size)
    (upper : frame.size ≤ 240) :
    Holds (stored queue frame).2 (if (stored queue frame).1 = 0 then frames ++ [.ofFrame frame upper] else frames) := by
  have pushed := push_stored (holds.within small) lower
  rcases holds.push small lower upper with ⟨_, next, done, accepted⟩ | ⟨_, ret, code, done, _⟩
  · rw [Except.ok.inj (pushed.symm.trans done), if_pos rfl]
    exact accepted.holds
  · rw [Except.ok.inj (pushed.symm.trans done), if_neg code]
    exact holds

theorem stored_size (queue : Queue) (frame : Frame) : (stored queue frame).2.size = queue.size := by
  have reserved : (reserve queue (frmSize frame)).2.size = queue.size := by
    unfold reserve
    split
    · split
      · rfl
      · split <;> rfl
    · split <;> rfl
  unfold stored
  dsimp only
  split <;> exact reserved

theorem indices_iff : queue.indices = other.indices ↔ queue.front = other.front ∧ queue.back = other.back ∧
    queue.size = other.size ∧ queue.currSize = other.currSize := by
  simp only [Queue.indices, Prod.mk.injEq]

theorem front_none : jdQueueFront queue = none ↔ queue.front = queue.back := by
  unfold jdQueueFront
  split
  · rename_i apart
    refine iff_of_false ?_ apart
    split <;> exact nofun
  · rename_i same
    exact iff_of_true rfl (not_not.mp same)

theorem front_indices (same : queue.indices = other.indices) : jdQueueFront queue = jdQueueFront other := by
  obtain ⟨front, back, _, curr⟩ := indices_iff.mp same
  rw [jdQueueFront, jdQueueFront, front, back, curr]

theorem shift_indices {offset : Nat} (front : jdQueueFront queue = some offset) (done : jdQueueShift queue = .ok next) :
    next.indices =
      if queue.front ≥ queue.currSize then
        (u16 (frmSize (queue.frameAt offset)), queue.back, queue.size, queue.size)
      else (u16 (queue.front + frmSize (queue.frameAt offset)), queue.back, queue.size, queue.currSize) := by
  simp only [jdQueueShift, front] at done
  split at done
  · rename_i beyond
    rw [if_pos beyond]
    split at done
    · cases done
    · cases done
      rfl
  · rename_i before
    rw [if_neg before]
    cases done
    rfl

theorem Alike.shift {record : QueuedFrame} {rest : List QueuedFrame} (alike : Alike queue other (record :: rest)) :
    ∃ next after, jdQueueShift queue = .ok next ∧ jdQueueShift other = .ok after ∧ Alike next after rest := by
  obtain ⟨left, right, same, small⟩ := alike
  obtain ⟨front, back, size, curr⟩ := indices_iff.mp same
  obtain ⟨next, done, holds, whole, _⟩ := left.shift small
  obtain ⟨after, did, keeps, _⟩ := right.shift (size ▸ small)
  obtain ⟨offset, found, content, _⟩ := left.front_cons
  obtain ⟨place, found', content', _⟩ := right.front_cons
  obtain rfl : offset = place := Option.some.inj (found.symm.trans ((front_indices same).trans found'))
  refine ⟨next, after, done, did, holds, keeps, ?_, whole ▸ small⟩
  rw [shift_indices found done, shift_indices found' did, frameAt_size content, frameAt_size content', front, back, size,
    curr]

/-- Two queues with the same frames at the same indices answer every call alike. -/
theorem Alike.call (alike : Alike queue other frames) (call : QueueCall) :
    SameCall (fun next after => ∃ frames, Alike next after frames) queue other call := by
  obtain ⟨left, right, same, small⟩ := alike
  have size := (indices_iff.mp same).2.2.1
  cases call with
  | push frame lower upper =>
    obtain ⟨code, moved⟩ := stored_indices same frame
    have one := left.stored small lower upper
    have two := right.stored (size ▸ small) lower upper
    rw [← code] at two
    refine .inr ⟨.pushed (stored queue frame).1, (stored queue frame).2, (stored other frame).2, ?_, ?_,
      _, one, two, moved, (stored_size queue frame) ▸ small⟩
    · rw [QueueCall.run, push_stored (left.within small) lower]
      rfl
    · rw [QueueCall.run, push_stored (right.within (size ▸ small)) lower, code]
      rfl
  | front =>
    refine .inr ⟨_, _, _, rfl, ?_, frames, left, right, same, small⟩
    rw [QueueCall.run, left.frontBytes, right.frontBytes]
  | shift =>
    cases frames with
    | nil =>
      refine .inl ⟨?_, ?_⟩
      · rw [QueueCall.run, jdQueueShift, left.front_nil]
        rfl
      · rw [QueueCall.run, jdQueueShift, right.front_nil]
        rfl
    | cons record rest =>
      obtain ⟨next, after, done, did, alike⟩ := Alike.shift ⟨left, right, same, small⟩
      refine .inr ⟨.shifted, next, after, ?_, ?_, rest, alike⟩
      · rw [QueueCall.run, done]
        rfl
      · rw [QueueCall.run, did]
        rfl
  | willFit amount =>
    obtain ⟨front, back, size, _⟩ := indices_iff.mp same
    refine .inr ⟨_, _, _, rfl, ?_, frames, left, right, same, small⟩
    rw [QueueCall.run, jdQueueWillFit, jdQueueWillFit, front, back, size]

/-- The queue with another `curr_size`. -/
def Queue.ending (queue : Queue) (currSize : Nat) : Queue := { queue with currSize }

/-- A queue in one run, whose frames are too long for one to start behind `stale`. -/
structure Unreached (queue : Queue) (stale : Nat) (frames : List QueuedFrame) : Prop where
  holds : Holds queue frames
  order : queue.front ≤ queue.back
  long : ∀ record ∈ frames, 16 ≤ record.bytes.length
  small : queue.size ≤ 65535
  bound : stale ≤ queue.size
  near : queue.size < stale + 16

theorem Unreached.head_fits {record : QueuedFrame} {rest : List QueuedFrame}
    (unreached : Unreached queue stale (record :: rest)) :
    queue.front + record.bytes.length ≤ queue.back ∧ queue.front < stale ∧ queue.front < queue.currSize := by
  have long := unreached.long record (List.mem_cons_self ..)
  have near := unreached.near
  have order := unreached.order
  generalize same : record :: rest = frames at unreached
  cases unreached.holds with
  | linear _ inside unmoved content =>
    have total := congrArg List.length content
    rw [Memory.read_length, ← same, joined_cons, List.length_append] at total
    omega
  | wrapped back => omega

/-- While the end is not reached, the queue reads as if it had no stale end. -/
theorem Unreached.front_eq (unreached : Unreached queue stale frames) :
    jdQueueFront (queue.ending stale) = jdQueueFront queue := by
  cases frames with
  | nil =>
    have empty := unreached.holds.front_nil
    have ended : queue.front = queue.back := front_none.mp empty
    rw [empty]
    exact front_none.mpr ended
  | cons record rest =>
    obtain ⟨_, before, inside⟩ := unreached.head_fits
    simp only [jdQueueFront, Queue.ending, ge_iff_le, Nat.not_le.mpr before, Nat.not_le.mpr inside, if_false]

/-- A push replaces a stale end when it wraps, and keeps it otherwise. -/
theorem stored_ending (order : queue.front ≤ queue.back) (small : queue.size ≤ 65535) (stale : Nat) (frame : Frame) :
    stored (queue.ending stale) frame = stored queue frame ∨
      (stored (queue.ending stale) frame = ((stored queue frame).1, (stored queue frame).2.ending stale) ∧
        (stored queue frame).2.front ≤ (stored queue frame).2.back) := by
  have ends : (queue.ending stale).front ≤ (queue.ending stale).back := order
  by_cases room : queue.back + frmSize frame ≤ queue.size
  · right
    have stays : (queue.ending stale).back + frmSize frame ≤ (queue.ending stale).size := room
    simp only [stored, reserve, if_pos order, if_pos room, if_pos ends, if_pos stays, if_true]
    refine ⟨rfl, ?_⟩
    rw [u16_of_lt (by omega)]
    omega
  · have full : ¬ (queue.ending stale).back + frmSize frame ≤ (queue.ending stale).size := room
    by_cases wraps : queue.front > frmSize frame
    · left
      have wrapped : (queue.ending stale).front > frmSize frame := wraps
      simp only [stored, reserve, if_pos order, if_neg room, if_pos wraps, if_pos ends, if_neg full, if_pos wrapped]
      rfl
    · right
      have refused : ¬ (queue.ending stale).front > frmSize frame := wraps
      have code : (-1 : Int) ≠ 0 := by decide
      simp only [stored, reserve, if_pos order, if_neg room, if_neg wraps, if_pos ends, if_neg full, if_neg refused,
        if_neg code, true_and]
      exact order

theorem Unreached.push (unreached : Unreached queue stale frames) {frame : Frame} (lower : 1 ≤ frame.size)
    (upper : frame.size ≤ 240) (order : (stored queue frame).2.front ≤ (stored queue frame).2.back) :
    ∃ frames, Unreached (stored queue frame).2 stale frames := by
  have size := stored_size queue frame
  refine ⟨_, unreached.holds.stored unreached.small lower upper, order, ?_, size ▸ unreached.small,
    size ▸ unreached.bound, size ▸ unreached.near⟩
  have length : (QueuedFrame.ofFrame frame upper).bytes.length = align (frame.size + 12) := Memory.read_length ..
  have whole : 16 ≤ align (frame.size + 12) := by
    unfold align
    omega
  intro record member
  split at member
  · rcases List.mem_append.mp member with old | new
    · exact unreached.long record old
    · rw [List.mem_singleton.mp new, length]
      exact whole
  · exact unreached.long record member

theorem Unreached.shift {record : QueuedFrame} {rest : List QueuedFrame}
    (unreached : Unreached queue stale (record :: rest)) :
    ∃ next, jdQueueShift queue = .ok next ∧ jdQueueShift (queue.ending stale) = .ok (next.ending stale) ∧
      Unreached next stale rest := by
  obtain ⟨fits, before, inside⟩ := unreached.head_fits
  obtain ⟨next, done, holds, size, _⟩ := unreached.holds.shift unreached.small
  obtain ⟨offset, found, content, _⟩ := unreached.holds.front_cons
  have ended : jdQueueFront (queue.ending stale) = some offset := unreached.front_eq.trans found
  have curr : ¬ queue.front ≥ queue.currSize := Nat.not_le.mpr inside
  have whole := (unreached.holds.within unreached.small).back
  have small := unreached.small
  have ending : ¬ (queue.ending stale).front ≥ (queue.ending stale).currSize := Nat.not_le.mpr before
  simp only [jdQueueShift, found, if_neg curr] at done
  obtain rfl := Except.ok.inj done
  refine ⟨_, ?_, ?_, holds, ?_, fun other member => unreached.long other (List.mem_cons_of_mem _ member), unreached.small,
    unreached.bound, unreached.near⟩
  · simp only [jdQueueShift, found, if_neg curr]
    rfl
  · simp only [jdQueueShift, ended, if_neg ending]
    rfl
  · rw [frameAt_size content, u16_of_lt (by omega)]
    exact fits

/-- A queue behind a stale end that is not reached, or the same queue. -/
def Stale (queue other : Queue) : Prop :=
  (∃ stale frames, queue = other.ending stale ∧ Unreached other stale frames) ∨ ∃ frames, Alike queue other frames

theorem Stale.call (related : Stale queue other) (call : QueueCall) : SameCall Stale queue other call := by
  rcases related with ⟨stale, frames, rfl, unreached⟩ | ⟨frames, alike⟩
  · cases call with
    | push frame lower upper =>
      have within := unreached.holds.within unreached.small
      have ended : (other.ending stale).Within := ⟨within.small, within.front, within.back, unreached.bound⟩
      have size := stored_size other frame
      rw [SameCall, QueueCall.run, QueueCall.run, push_stored within lower, push_stored ended lower]
      rcases stored_ending unreached.order unreached.small stale frame with same | ⟨kept, order⟩
      · have holds := unreached.holds.stored unreached.small lower upper
        rw [same]
        exact .inr ⟨_, _, _, rfl, rfl, .inr ⟨_, holds, holds, rfl, size ▸ unreached.small⟩⟩
      · obtain ⟨frames, unreached⟩ := unreached.push lower upper order
        rw [kept]
        exact .inr ⟨_, _, _, rfl, rfl, .inl ⟨stale, frames, rfl, unreached⟩⟩
    | front =>
      refine .inr ⟨_, _, _, rfl, ?_, .inl ⟨stale, frames, rfl, unreached⟩⟩
      rw [QueueCall.run, frontBytes, frontBytes, unreached.front_eq]
      rfl
    | shift =>
      cases frames with
      | nil =>
        have empty := unreached.holds.front_nil
        have ended := unreached.front_eq.trans empty
        refine .inl ⟨?_, ?_⟩
        · rw [QueueCall.run, jdQueueShift, ended]
          rfl
        · rw [QueueCall.run, jdQueueShift, empty]
          rfl
      | cons record rest =>
        obtain ⟨next, done, ended, unreached⟩ := unreached.shift
        refine .inr ⟨.shifted, _, next, ?_, ?_, .inl ⟨stale, rest, rfl, unreached⟩⟩
        · rw [QueueCall.run, ended]
          rfl
        · rw [QueueCall.run, done]
          rfl
    | willFit amount => exact .inr ⟨_, _, _, rfl, rfl, .inl ⟨stale, frames, rfl, unreached⟩⟩
  · rcases alike.call call with failed | ⟨answer, next, after, left, right, alike⟩
    · exact .inl failed
    · exact .inr ⟨answer, next, after, left, right, .inr alike⟩

theorem clear_acts_as_new (small : queue.size ≤ 65535) (bound : queue.currSize ≤ queue.size)
    (near : queue.size < queue.currSize + 16) : ActsAsNew (jdQueueClear queue) := by
  intro calls
  -- The cleared queue, with the end that `jd_queue_alloc` would set.
  let reset := (jdQueueClear queue).ending queue.size
  have holds : Holds reset [] := .linear (Nat.le_refl 0) (Nat.zero_le _) rfl rfl
  have unreached : Unreached reset queue.currSize [] := ⟨holds, Nat.le_refl 0, nofun, small, bound, near⟩
  obtain ⟨first, only⟩ := answers_of_related (fun _ _ call related => Stale.call related call)
    (.inl ⟨_, _, rfl, unreached⟩ : Stale (jdQueueClear queue) reset) calls
  have alike : Alike reset (jdQueueAlloc queue.size) [] := by
    refine ⟨holds, .alloc _, ?_, small⟩
    have size : u16 queue.size = queue.size := u16_of_lt small
    exact indices_iff.mpr ⟨rfl, rfl, size.symm, size.symm⟩
  have second := (answers_of_related (fun _ _ call related => Stale.call related call) (.inr ⟨_, alike⟩) calls).1
  exact ⟨first.trans second, only⟩

end Jacdac
