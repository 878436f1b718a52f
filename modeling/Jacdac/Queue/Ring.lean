import Jacdac.Frame.Packets

/-! The frame queue of `jd_queue.c`: variable-size records in a ring whose
logical end `curr_size` moves when a push wraps before the physical end. -/

namespace Jacdac

structure Queue where
  front : Nat
  back : Nat
  size : Nat
  currSize : Nat
  data : Memory

/-- The `ASSERT` and `JD_PANIC` sites of `jd_queue.c`. -/
inductive QueueFault where
  | emptyFrame
  | frontBound
  | backBound
  | currSizeBound
  | shiftEmpty
  | shiftFront
  deriving DecidableEq, Repr

/-- Store into a `uint8_t` field. -/
def u8 (value : Nat) : Nat := value % 256

/-- Store into a `uint16_t` field. -/
def u16 (value : Nat) : Nat := value % 65536

theorem u16_of_lt {value : Nat} (small : value ≤ 65535) : u16 value = value := by
  unfold u16; omega

def frmSize (frame : Frame) : Nat := align frame.frameSize

def jdQueueAlloc (size : Nat) : Queue :=
  { front := 0, back := 0, size := u16 size, currSize := u16 size, data := fun _ => 0 }

def jdQueueWillFit (queue : Queue) (size : Nat) : Bool :=
  if queue.front ≤ queue.back then
    decide (u32 (queue.back + size) ≤ queue.size ∨ queue.front > size)
  else
    decide (u32 (queue.back + size) < queue.front)

/-- The index update of `jd_queue_push`: the return code and the moved fields. -/
def reserve (queue : Queue) (size : Nat) : Int × Queue :=
  if queue.front ≤ queue.back then
    if queue.back + size ≤ queue.size then
      (0, { queue with back := u16 (queue.back + size) })
    else if queue.front > size then
      (0, { queue with currSize := queue.back, back := u16 size })
    else (-1, queue)
  else if queue.back + size < queue.front then
    (0, { queue with back := u16 (queue.back + size) })
  else (-2, queue)

def jdQueuePush (queue : Queue) (frame : Frame) : Except QueueFault (Int × Queue) := do
  if frame.size = 0 then throw .emptyFrame
  let size := frmSize frame
  let (ret, queue) := reserve queue size
  let queue :=
    if ret = 0 then
      { queue with data := queue.data.write (queue.back - size) (frame.read 0 size) }
    else queue
  if ¬ queue.front ≤ queue.size then throw .frontBound
  if ¬ queue.back ≤ queue.size then throw .backBound
  if ¬ queue.currSize ≤ queue.size then throw .currSizeBound
  return (ret, queue)

/-- The queue returns a pointer into `data`; `none` is `NULL`. -/
def jdQueueFront (queue : Queue) : Option Nat :=
  if queue.front ≠ queue.back then
    if queue.front ≥ queue.currSize then some 0 else some queue.front
  else none

/-- The frame at an offset of the queue's `data`. -/
def Queue.frameAt (queue : Queue) (offset : Nat) : Frame := fun cell => queue.data (offset + cell)

def jdQueueShift (queue : Queue) : Except QueueFault Queue := do
  match jdQueueFront queue with
  | none => throw .shiftEmpty
  | some offset =>
    let size := frmSize (queue.frameAt offset)
    if queue.front ≥ queue.currSize then
      if queue.front ≠ queue.currSize then throw .shiftFront
      return { queue with front := u16 size, currSize := queue.size }
    else
      return { queue with front := u16 (queue.front + size) }

end Jacdac
