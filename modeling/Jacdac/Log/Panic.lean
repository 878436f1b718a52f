import Jacdac.Base.Signed
import Jacdac.Log.StoreRun

/-! The emergency path of `lstore.c`, which writes the log of a panic. The card answers, and its sector
writes succeed. -/

namespace Jacdac

/-- An assertion on the way, or a store behind the data area of the block. -/
inductive PanicFault where
  | log (fault : LogFault)
  | outside
  deriving DecidableEq, Repr

/-- `JD_LSTORE_TYPE_PANIC_LOG`. -/
def typePanicLog : Nat := 5

namespace LogFile

/-- `flush_to_disk_core`, which leaves the header of the file alone in a panic. -/
def flushCoreInPanic (file : LogFile) (disk : LogDisk) : Except LogFault (LogFile × LogDisk × List Block) :=
  (file.flushToDiskCore disk).map fun (next, after) => (next, { after with header := disk.header }, [file.flushedBlock])

/-- The first and the last step of `flush_to_disk_in_panic`. -/
def drainInPanic (file : LogFile) (disk : LogDisk) : Except LogFault (LogFile × LogDisk × List Block) :=
  if file.needsFlushing ≠ 0 then file.flushCoreInPanic disk else .ok (file, disk, [])

/-- The step between them. -/
def handOver (file : LogFile) : Except LogFault LogFile :=
  if file.dataPtr ≠ 0 ∧ file.needsFlushing = 0 then file.requestFlush.map (·.2) else .ok file

/-- The current block gets its time and generation. -/
def stamped (file : LogFile) (now : Nat) : LogFile :=
  { file with block := { file.block with timestamp := now, generation := file.blockGeneration } }

/-- `flush_to_disk_in_panic`, with the blocks that it wrote. -/
def flushToDiskInPanic (now : Nat) (file : LogFile) (disk : LogDisk) :
    Except LogFault (LogFile × LogDisk × List Block) := do
  let (file, disk, first) ← file.drainInPanic disk
  let file ← file.handOver
  let (file, disk, second) ← file.drainInPanic disk
  .ok (file.stamped now, disk, first ++ second)

/-- A store through `block_curr_ptr`. -/
def storeCurr (offset : Nat) (bytes : List UInt8) (file : LogFile) : Except PanicFault LogFile :=
  if file.dataPtr + offset + bytes.length ≤ file.blockDataSize then
    .ok { file with block := { file.block with data := file.block.data.write (file.dataPtr + offset) bytes } }
  else .error .outside

end LogFile

/-- A result of a step that does not belong to the panic. -/
def liftLog {Result : Type} : Except LogFault Result → Except PanicFault Result
  | .ok result => .ok result
  | .error fault => .error (.log fault)

/-- `jd_lstore_ctx_t` in a panic. -/
structure PanicContext extends LogContext where
  panicMode : Nat
  panicCharPtr : Nat
  panicMaxCharPtr : Nat

namespace PanicContext

/-- `flush_to_disk_in_panic` for one of the files. -/
def flushFile (now index : Nat) (context : PanicContext) : Except PanicFault (PanicContext × List (Nat × Block)) := do
  let (file, disk, blocks) ← liftLog ((context.logs index).flushToDiskInPanic now (context.disks index))
  .ok ({ context with
      toLogContext := context.store index file disk
      panicCharPtr := 0
      panicMaxCharPtr := 0 }, blocks.map (index, ·))

def setFirst (context : PanicContext) (file : LogFile) : PanicContext :=
  { context with toLogContext := context.store 0 file (context.disks 0) }

/-- The end of the pending entry in `jd_lstore_panic_print_char`. -/
def closeEntry (context : PanicContext) : Except PanicFault PanicContext :=
  if context.panicMaxCharPtr > 0 then do
    let header := LogFile.entryBytes typePanicLog context.panicCharPtr 0 []
    let file ← (context.logs 0).storeCurr 0 header
    .ok (context.setFirst { file with dataPtr := u32 (file.dataPtr + entryHeaderSize + context.panicCharPtr) })
  else .ok context

/-- The budget of the next entry, after a flush where the room is short. -/
def openEntry (now : Nat) (context : PanicContext) : Except PanicFault (PanicContext × List (Nat × Block)) := do
  let f := context.logs 0
  let left := i32 ((f.blockDataSize : Int) - f.dataPtr - entryHeaderSize - 8)
  let minDataLen : Int := (f.blockSize / 32 : Nat)
  let (context, blocks) ← if left < minDataLen then context.flushFile now 0 else .ok (context, [])
  let left := if left < minDataLen then 0xff else left
  .ok ({ context with
      panicCharPtr := 0
      panicMaxCharPtr := u8 (if left > 0xf0 then 0xf0 else left).toNat }, blocks)

/-- `jd_lstore_panic_print_char` where the panic mode is 1, for a character other than `\r`. -/
def printActive (now : Nat) (ch : UInt8) (context : PanicContext) :
    Except PanicFault (PanicContext × List (Nat × Block)) := do
  let isEndline := ch = 10 ∧ context.panicCharPtr > 0
  let needsFlush := context.panicCharPtr ≥ context.panicMaxCharPtr
  let (context, blocks) ←
    if needsFlush ∨ isEndline then do
      let context ← context.closeEntry
      context.openEntry now
    else .ok (context, [])
  if isEndline then .ok (context, blocks)
  else do
    let file ← (context.logs 0).storeCurr (entryHeaderSize + context.panicCharPtr) [ch]
    .ok ({ context.setFirst file with panicCharPtr := u8 (context.panicCharPtr + 1) }, blocks)

/-- `jd_lstore_panic_flush`; the first file ends its pending entry. -/
def jdLstorePanicFlush (now : Nat) (context : PanicContext) : Except PanicFault (PanicContext × List (Nat × Block)) :=
  if context.panicMode ≠ 1 then .ok (context, [])
  else do
    let (context, first) ← if context.panicMaxCharPtr > 0 then context.printActive now 10 else .ok (context, [])
    let (context, second) ← context.flushFile now 0
    let (context, third) ← context.flushFile now 1
    .ok (context, first ++ second ++ third)

/-- `jd_lstore_panic_print_char`; `ready` is whether the card answers when the panic mode starts. -/
def jdLstorePanicPrintChar (ready : Bool) (now : Nat) (ch : UInt8) (context : PanicContext) :
    Except PanicFault (PanicContext × List (Nat × Block)) :=
  if context.panicMode > 1 ∨ ch = 13 then .ok (context, [])
  else if context.panicMode = 0 then
    if ¬ ready then .ok ({ context with panicMode := 2 }, [])
    else do
      let (context, first) ← jdLstorePanicFlush now { context with panicMode := 1 }
      let (context, second) ← context.printActive now ch
      .ok (context, first ++ second)
  else context.printActive now ch

/-- Characters, each at its time. -/
def printAll (ready : Bool) : List (Nat × UInt8) → PanicContext → Except PanicFault (PanicContext × List (Nat × Block))
  | [], context => .ok (context, [])
  | (now, ch) :: rest, context => do
    let (context, first) ← context.jdLstorePanicPrintChar ready now ch
    let (context, more) ← context.printAll ready rest
    .ok (context, first ++ more)

end PanicContext

end Jacdac
