import Jacdac.Base.Memory

/-! The log ring of `jd_dmesg.c`. -/

namespace Jacdac

/-- `codalLogStore`, with the size of its buffer. -/
structure DmesgLog where
  bufferSize : Nat
  ptr : Nat
  buffer : Memory

/-- The part of a message that `jd_dmesg_write` puts before the physical end, and
the rest of it, for the start of the buffer. -/
def DmesgLog.split (log : DmesgLog) (msg : List UInt8) : DmesgLog × List UInt8 :=
  let space := log.bufferSize - log.ptr
  if space < msg.length + 1 then
    let rest := msg.drop space
    ({ log with ptr := 0, buffer := log.buffer.write log.ptr (msg.take space) },
      if rest.length + 2 > log.bufferSize then rest.take 1 else rest)
  else (log, msg)

def jdDmesgWrite (log : DmesgLog) (msg : List UInt8) : DmesgLog :=
  let (log, msg) := log.split msg
  let ptr := log.ptr + msg.length
  { log with ptr, buffer := (log.buffer.write log.ptr msg).write ptr [0] }

/-- `jd_dmesg_read`: the bytes for `dst`, whose number is returned, and the moved `*state`. -/
def jdDmesgRead (log : DmesgLog) (space state : Nat) : List UInt8 × Nat :=
  let state := if state ≥ log.bufferSize then 0 else state
  let currPtr := if log.ptr < state then log.bufferSize else log.ptr
  let towrite := currPtr - state
  if towrite > 0 then
    let towrite := if towrite > space then space else towrite
    (log.buffer.read state towrite, state + towrite)
  else ([], state)

end Jacdac
