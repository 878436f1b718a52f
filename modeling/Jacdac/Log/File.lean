import Jacdac.Base.Result
import Jacdac.Log.Block
import Jacdac.Pipe.Output

/-! Log files of `lstore.c`: mounting, the two block buffers and appending. A
sector address is the block it belongs to; the emergency path of a panic stands
apart. -/

namespace Jacdac

/-- The checked fields of `jd_lstore_main_header_t`. -/
structure MainHeader where
  magic0 : Nat
  magic1 : Nat
  version : Nat
  sectorSize : Nat
  sectorsPerBlock : Nat
  headerBlocks : Nat
  numBlocks : Nat
  numRewrites : Nat
  blockMagic0 : Nat
  blockMagic1 : Nat

/-- What the file holds: the header sector and the data blocks. -/
structure LogDisk where
  header : MainHeader
  slots : Nat → Block

/-- `jd_lstore_file_t`. -/
structure LogFile where
  size : Nat
  block : Block
  blockAlt : Block
  headerBlocks : Nat
  dataBlocks : Nat
  blockShift : Nat
  needsFlushing : Nat
  blockMagic0 : Nat
  blockMagic1 : Nat
  blockGeneration : Nat
  blockPtr : Nat
  dataPtr : Nat

/-- The assertions and the panic on the way. -/
inductive LogFault where
  | badHeader
  | readIndex
  | writeIndex
  | generation
  | flushEmpty
  | flushBusy
  | entryType
  | entrySize
  deriving DecidableEq, Repr

def sectorShift : Nat := 9

/-- `JD_LSTORE_ENTRY_HEADER_SIZE`. -/
def entryHeaderSize : Nat := 4

/-- Truncation of a `uint64_t` result. -/
def u64 (value : Nat) : Nat := value % 18446744073709551616

/-- The smallest shift that reaches `sectors`, where the loop of `validate_header` ends
(up to `2 ^ 31`, see `shiftLoop_eq`). -/
def shiftFor (sectors : Nat) : Nat := ((List.range 33).find? fun shift => sectors ≤ 2 ^ shift).getD 33

/-- `validate_header`, where its loop ends; the result is the block shift. -/
def validateHeader (size : Nat) (header : MainHeader) : Option Nat :=
  if header.magic0 = 0x0a4c444a ∧ header.magic1 = 0xb5d1841e then
    if header.version ≠ 5 then none
    else if header.sectorSize ≠ 512 then none
    else if u32 (header.sectorsPerBlock * header.numBlocks) > size / 512 then none
    else
      let shift := shiftFor header.sectorsPerBlock
      if header.sectorsPerBlock > 8 ∨ 2 ^ shift ≠ header.sectorsPerBlock then none
      else some (shift + sectorShift)
  else none

namespace LogFile

def blockSize (file : LogFile) : Nat := 2 ^ file.blockShift

def blockDataSize (file : LogFile) : Nat := file.blockSize - blockOverhead

def blockValid (file : LogFile) (block : Block) : Bool :=
  block.magic0 = file.blockMagic0 ∧ block.magic1 = file.blockMagic1 ∧
    jdCrc32 (block.covered file.blockDataSize) = block.crc32

/-- `read_block`: the slot's block, with a zero header if it is not valid. -/
def readBlock (file : LogFile) (disk : LogDisk) (index : Nat) : Block :=
  let block := disk.slots index
  if file.blockValid block then block
  else { block with magic0 := 0, generation := 0, timestamp := 0 }

/-- The loop of `find_boundry`; `newer` compares the first block with the one at
an index. -/
def searchBoundry (newer : Nat → Bool) (l r : Nat) : Nat :=
  if l < r then
    let m := (l + r) / 2 + 1
    if newer m then searchBoundry newer m r else searchBoundry newer l (m - 1)
  else l
termination_by r - l

/-- `find_boundry`. All indices read stay below `data_blocks` once the first does. -/
def findBoundry (file : LogFile) (disk : LogDisk) : Except LogFault LogFile :=
  if file.dataBlocks = 0 then .error .readIndex
  else
    let start := file.readBlock disk 0
    if start.magic0 = 0 then .ok { file with blockGeneration := 1, blockPtr := 0 }
    else
      let l := searchBoundry (fun m => start.lt (file.readBlock disk m)) 0 (file.dataBlocks - 1)
      let blockGeneration := u32 ((file.readBlock disk l).generation + 1)
      if blockGeneration < 0xffffffff then
        .ok { file with blockGeneration, blockPtr := if l + 1 = file.blockPtr then 0 else l + 1 }
      else .error .generation

/-- A buffer as `mount_log` prepares it: only the magic numbers are set. -/
def emptyBlock (file : LogFile) : Block :=
  { magic0 := file.blockMagic0, generation := 0, timestamp := 0, data := fun _ => 0,
    magic1 := file.blockMagic1, crc32 := 0 }

/-- The header that `mount_log` writes into a file without a valid one. -/
def newHeader (size blShift random0 random1 : Nat) : MainHeader where
  magic0 := 0x0a4c444a
  magic1 := 0xb5d1841e
  version := 5
  sectorSize := 512
  sectorsPerBlock := 2 ^ blShift
  headerBlocks := 1
  numBlocks := size / 2 ^ (blShift + sectorShift)
  numRewrites := 0
  blockMagic0 := random0
  blockMagic1 := random1

def unmounted (size : Nat) : LogFile :=
  let zero : Block := ⟨0, 0, 0, fun _ => 0, 0, 0⟩
  { size, block := zero, blockAlt := zero, headerBlocks := 0, dataBlocks := 0, blockShift := 0,
    needsFlushing := 0, blockMagic0 := 0, blockMagic1 := 0, blockGeneration := 0, blockPtr := 0,
    dataPtr := 0 }

/-- The file with the properties its header gives it. -/
def opened (size blockShift : Nat) (header : MainHeader) : LogFile :=
  { unmounted size with
    blockShift
    headerBlocks := header.headerBlocks
    dataBlocks := u32 (header.numBlocks + 4294967296 - header.headerBlocks)
    blockMagic0 := header.blockMagic0
    blockMagic1 := header.blockMagic1 }

/-- The second half of `mount_log`, once the header is known. -/
def mountWith (size blockShift : Nat) (disk : LogDisk) : Except LogFault LogFile :=
  ((opened size blockShift disk.header).findBoundry disk).map fun file =>
    { file with block := file.emptyBlock, blockAlt := file.emptyBlock }

/-- `mount_log`; `random0` and `random1` are what `random_magic` would return. -/
def mountLog (size blShift random0 random1 : Nat) (disk : LogDisk) :
    Except LogFault (LogFile × LogDisk) :=
  match validateHeader size disk.header with
  | some blockShift => (mountWith size blockShift disk).map (·, disk)
  | none =>
    let disk := { disk with header := newHeader size blShift random0 random1 }
    match validateHeader size disk.header with
    | none => .error .badHeader
    | some blockShift => (mountWith size blockShift disk).map (·, disk)

def requestFlush (file : LogFile) : Except LogFault (Int × LogFile) :=
  if file.dataPtr = 0 then .error .flushEmpty
  else if file.needsFlushing ≠ 0 then .ok (-1, file)
  else
    .ok (0, { file with block := file.blockAlt, blockAlt := file.block, needsFlushing := 1, dataPtr := 0 })

/-- The block as `flush_to_disk_core` writes it. -/
def flushedBlock (file : LogFile) : Block := file.blockAlt.withCrc file.blockDataSize

/-- `flush_to_disk_core`: the slot written and the file and disk afterwards. -/
def flushToDiskCore (file : LogFile) (disk : LogDisk) : Except LogFault (LogFile × LogDisk) :=
  if file.blockPtr < file.dataBlocks then
    let block := file.flushedBlock
    let slots := fun slot => if slot = file.blockPtr then block else disk.slots slot
    let cleared := { block with data := block.data.write 0 (List.replicate file.blockDataSize 0) }
    let file := { file with blockAlt := cleared, blockPtr := file.blockPtr + 1, needsFlushing := 0 }
    if file.blockPtr ≥ file.dataBlocks then
      .ok ({ file with blockPtr := 0 },
        { disk with header := { disk.header with numRewrites := u32 (disk.header.numRewrites + 1) }, slots })
    else .ok (file, { disk with slots })
  else .error .writeIndex

/-- `flush_to_disk`, with the block it wrote. -/
def flushToDisk (file : LogFile) (disk : LogDisk) :
    Except LogFault (LogFile × LogDisk × List Block) :=
  let requested :=
    if file.dataPtr ≠ 0 ∧ file.needsFlushing = 0 then (requestFlush file).map (·.2) else .ok file
  match requested with
  | .error fault => .error fault
  | .ok file =>
    if file.needsFlushing ≠ 0 then
      if file.needsFlushing ≠ 1 then .error .flushBusy
      else
        let file := { file with needsFlushing := 2 }
        match file.flushToDiskCore disk with
        | .error fault => .error fault
        | .ok (next, disk) => .ok (next, disk, [file.flushedBlock])
    else .ok (file, disk, [])

def entryBytes (type size tdelta : Nat) (data : List UInt8) : List UInt8 :=
  [UInt8.ofNat type, UInt8.ofNat size] ++ littleEndian 2 tdelta ++ data

/-- The difference of two times as `jd_lstore_append` computes it, a 64-bit pattern. -/
def elapsed (now timestamp : Nat) : Nat := u64 (now + 18446744073709551616 - timestamp)

/-- The pattern is negative as an `int64_t`. -/
def wentBack (delta : Nat) : Bool := 9223372036854775808 ≤ delta

/-- The file at the top of the loop of `jd_lstore_append`: an empty block gets
its time and generation first. -/
def begun (file : LogFile) (now : Nat) : LogFile :=
  if file.dataPtr = 0 then
    { file with block := { file.block with timestamp := now, generation := file.blockGeneration } }
  else file

/-- One turn of the loop of `jd_lstore_append`: the result so far, the file, and
whether the loop goes on. -/
def appendTurn (now type : Nat) (data : List UInt8) (file : LogFile) :
    Except LogFault (Int × LogFile × Bool) :=
  let file := file.begun now
  let delta := elapsed now file.block.timestamp
  let newDataPtr := u32 (file.dataPtr + entryHeaderSize + data.length)
  if ¬ wentBack delta ∧ ¬ (delta > 0xffff ∨ newDataPtr > file.blockDataSize) then
    let bytes := entryBytes type data.length delta data
    .ok (0, { file with
      block := { file.block with data := file.block.data.write file.dataPtr bytes }
      dataPtr := newDataPtr }, false)
  else
    let file :=
      if wentBack delta then { file with blockGeneration := u32 (file.blockGeneration + 1) } else file
    file.requestFlush.map fun (res, file) => (res, file, res == 0)

/-- The loop of `jd_lstore_append`; `none` means that more than `turns` turns are needed. -/
def appendLoop (now type : Nat) (data : List UInt8) :
    Nat → LogFile → Except LogFault (Option (Int × LogFile))
  | 0, _ => .ok none
  | turns + 1, file =>
    (file.appendTurn now type data).bind fun (res, file, again) =>
      if again then appendLoop now type data turns file else .ok (some (res, file))

/-- `jd_lstore_append` on a mounted file; the header structure holds 8-bit type and size. -/
def jdLstoreAppend (now type : Nat) (data : List UInt8) (turns : Nat) (file : LogFile) :
    Except LogFault (Option (Int × LogFile)) :=
  if type % 256 ≠ type then .error .entryType
  else if data.length % 256 ≠ data.length then .error .entrySize
  else appendLoop now type data turns file

end LogFile

/-- `JD_LSTORE_NUM_FILES`. -/
def lstoreNumFiles : Nat := 2

/-- `JD_LSTORE_FLUSH_SECONDS`, in milliseconds. -/
def lstoreFlushMs : Nat := 10000

/-- `jd_should_sample_ms`: the result and the next sample time. -/
def jdShouldSampleMs (nowMs sample period : Nat) : Bool × Nat :=
  if inPast sample nowMs then (false, sample)
  else
    let next := u32 (sample + period)
    (true, if inPast next nowMs then next else u32 (nowMs + period))

/-- `jd_lstore_ctx_t` with the content of its files. -/
structure LogContext where
  flushTimer : Nat
  logs : Nat → LogFile
  disks : Nat → LogDisk

namespace LogContext

def store (context : LogContext) (index : Nat) (file : LogFile) (disk : LogDisk) : LogContext :=
  { context with
    logs := fun other => if other = index then file else context.logs other
    disks := fun other => if other = index then disk else context.disks other }

/-- Flush the chosen ones of the listed files, with the blocks written. -/
def flushEach (chosen : LogFile → Bool) :
    List Nat → LogContext → Except LogFault (LogContext × List (Nat × Block))
  | [], context => .ok (context, [])
  | index :: rest, context =>
    if chosen (context.logs index) then
      ((context.logs index).flushToDisk (context.disks index)).bind fun (file, disk, blocks) =>
        (flushEach chosen rest (context.store index file disk)).map fun (context, more) =>
          (context, blocks.map (index, ·) ++ more)
    else flushEach chosen rest context

/-- The loop of `jd_lstore_process`, after the flush timer was looked at. -/
def flushDue (force : Bool) (flushTimer : Nat) (context : LogContext) :
    Except LogFault (LogContext × List (Nat × Block)) :=
  flushEach (fun file => file.needsFlushing ≠ 0 || force) (List.range lstoreNumFiles)
    { context with flushTimer }

def jdLstoreProcess (nowMs : Nat) (context : LogContext) :
    Except LogFault (LogContext × List (Nat × Block)) :=
  let sample := jdShouldSampleMs nowMs context.flushTimer lstoreFlushMs
  context.flushDue sample.1 sample.2

def jdLstoreForceFlush (context : LogContext) : Except LogFault (LogContext × List (Nat × Block)) :=
  flushEach (fun _ => true) (List.range lstoreNumFiles ++ List.range lstoreNumFiles) context

end LogContext

end Jacdac
