import Jacdac.Queue.Ring

/-! The byte queue of `jd_bqueue.c`. Its operations run with interrupts off, so
each is one step. -/

namespace Jacdac

structure ByteQueue where
  front : Nat
  back : Nat
  size : Nat
  filled : Nat
  data : Memory

/-- The functions of `jd_bqueue.c` that assert. -/
inductive ByteQueueFault where
  | validate
  | availableContData
  | popAtomic
  deriving DecidableEq, Repr

def jdBqueueAlloc (size : Nat) : ByteQueue :=
  { front := 0, back := 0, size := u16 size, filled := 0, data := fun _ => 0 }

namespace ByteQueue

def occupiedBytes (queue : ByteQueue) : Nat := queue.filled

def freeBytes (queue : ByteQueue) : Nat := queue.size - queue.filled - 1

def validate (queue : ByteQueue) : Except ByteQueueFault Unit :=
  if (if queue.front ≤ queue.back then queue.filled = queue.back - queue.front
      else queue.filled = queue.back + queue.size - queue.front) ∧
      queue.front < queue.size ∧ queue.back < queue.size ∧ queue.filled < queue.size then .ok ()
  else .error .validate

/-- The copy of `jd_bqueue_push`, once the data is known to fit. -/
def store (queue : ByteQueue) (bytes : List UInt8) : ByteQueue :=
  let n := min (queue.size - queue.back) bytes.length
  let data := queue.data.write queue.back (bytes.take n)
  let filled := u16 (queue.filled + bytes.length)
  if n < bytes.length then
    { queue with data := data.write 0 (bytes.drop n), filled, back := u16 (bytes.length - n) }
  else
    let back := u16 (queue.back + n)
    { queue with data, filled, back := if back = queue.size then 0 else back }

def push (queue : ByteQueue) (bytes : List UInt8) : Except ByteQueueFault (Int × ByteQueue) := do
  if bytes.length = 0 then return (0, queue)
  queue.validate
  let (ret, queue) :=
    if bytes.length ≤ queue.freeBytes then ((0 : Int), queue.store bytes) else (-1, queue)
  queue.validate
  return (ret, queue)

def availableContData (queue : ByteQueue) : Except ByteQueueFault Nat :=
  let ret := if queue.front ≤ queue.back then queue.back - queue.front else queue.size - queue.front
  if ret ≤ queue.filled then .ok ret else .error .availableContData

def contDataAdvance (queue : ByteQueue) (sz : Nat) : Except ByteQueueFault ByteQueue := do
  let front := u16 (queue.front + sz)
  let queue := { queue with
    front := if front = queue.size then 0 else front
    filled := u16 (queue.filled + 65536 - sz) }
  queue.validate
  return queue

/-- The bytes copied to `dst` and the queue left. -/
def popAtMost (queue : ByteQueue) (maxsize : Nat) :
    Except ByteQueueFault (List UInt8 × ByteQueue) := do
  let sz := min (← queue.availableContData) maxsize
  let dst := queue.data.read queue.front sz
  let queue ← queue.contDataAdvance sz
  if maxsize - sz > 0 then
    let n := min (← queue.availableContData) (maxsize - sz)
    let dst := dst ++ queue.data.read queue.front n
    let queue ← queue.contDataAdvance n
    return (dst, queue)
  else return (dst, queue)

def popAtomic (queue : ByteQueue) (size : Nat) :
    Except ByteQueueFault (Int × List UInt8 × ByteQueue) := do
  if queue.filled ≥ size then
    let (dst, queue) ← queue.popAtMost size
    if dst.length ≠ size then throw .popAtomic
    return (0, dst, queue)
  else return (-1, [], queue)

def popByte (queue : ByteQueue) : Except ByteQueueFault (Int × ByteQueue) := do
  if queue.filled ≠ 0 then
    let r := queue.data queue.front
    let queue ← queue.contDataAdvance 1
    return (r.toNat, queue)
  else return (-1, queue)

def clear (queue : ByteQueue) : ByteQueue := { queue with front := 0, back := 0, filled := 0 }

end ByteQueue

end Jacdac
