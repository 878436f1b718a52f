import Jacdac.Log.Append

/-! Runs of the log store: appends, the periodic flush and the forced flush on
two mounted files. -/

namespace Jacdac

namespace LogFile

variable {file : LogFile}

/-- The file after its waiting block was written. -/
def drained (file : LogFile) (blockPtr : Nat) : LogFile :=
  { file with
    blockAlt := { file.flushedBlock with
      data := file.flushedBlock.data.write 0 (List.replicate file.blockDataSize 0) }
    blockPtr
    needsFlushing := 0 }

theorem flushToDiskCore_drained (file : LogFile) (disk : LogDisk) :
    file.flushToDiskCore disk = .error .writeIndex ∨
      ∃ blockPtr after, file.flushToDiskCore disk = .ok (file.drained blockPtr, after) := by
  unfold flushToDiskCore
  split
  · dsimp only
    split
    · exact .inr ⟨0, _, rfl⟩
    · exact .inr ⟨file.blockPtr + 1, _, rfl⟩
  · exact .inl rfl

theorem Orderly.drained (orderly : file.Orderly) (blockPtr : Nat) : (file.drained blockPtr).Orderly where
  size := orderly.size
  small := orderly.small
  current := orderly.current
  alternate := by
    have clear : (file.flushedBlock.data.write 0 (List.replicate file.blockDataSize 0)).read 0
        file.blockDataSize = List.replicate file.blockDataSize 0 :=
      Memory.read_write_block (by simp)
    exact .inl ⟨rfl, Holding.empty clear⟩
  time := orderly.time

/-- A written block leaves memory and joins the blocks on disk. -/
theorem drained_contents (waiting : file.needsFlushing ≠ 0) (blockPtr : Nat) (written : List Block) :
    (file.drained blockPtr).contents (written ++ [file.flushedBlock]) = file.contents written := by
  have later : (file.drained blockPtr).unflushed = [file.block] := rfl
  have now : file.unflushed = [file.blockAlt, file.block] := by rw [unflushed, if_pos waiting]; rfl
  have size : (file.drained blockPtr).blockDataSize = file.blockDataSize := rfl
  have same : file.flushedBlock.entries file.blockDataSize = file.blockAlt.entries file.blockDataSize := rfl
  rw [contents, contents, later, now, size]
  simp [same]

/-- What `flush_to_disk` does to a mounted file when the block pointer is inside the file. -/
structure Flushed (file next : LogFile) (blocks : List Block) : Prop where
  orderly : next.Orderly
  size : next.blockDataSize = file.blockDataSize
  contents : ∀ written, next.contents (written ++ blocks) = file.contents written

theorem Orderly.flush_waiting (orderly : file.Orderly) (waiting : file.needsFlushing = 1) (disk : LogDisk) :
    file.flushToDisk disk = .error .writeIndex ∨
      ∃ next after blocks, file.flushToDisk disk = .ok (next, after, blocks) ∧ file.Flushed next blocks := by
  have busy : file.needsFlushing ≠ 0 := by omega
  rw [flushToDisk, if_neg (by omega)]
  dsimp only
  rw [if_pos busy, if_neg (by omega)]
  rcases flushToDiskCore_drained { file with needsFlushing := 2 } disk with failed | ⟨blockPtr, after, done⟩
  · left
    rw [failed]
  · right
    rw [done]
    refine ⟨file.drained blockPtr, after, _, rfl, ?_⟩
    exact ⟨orderly.drained blockPtr, rfl, drained_contents busy blockPtr⟩

theorem Orderly.flush (orderly : file.Orderly) (disk : LogDisk) :
    file.flushToDisk disk = .error .writeIndex ∨
      ∃ next after blocks, file.flushToDisk disk = .ok (next, after, blocks) ∧ file.Flushed next blocks := by
  rcases orderly.alternate with ⟨free, _⟩ | ⟨waiting, _⟩
  · by_cases empty : file.dataPtr = 0
    · right
      refine ⟨file, disk, [], ?_, orderly, rfl, fun written => by rw [List.append_nil]⟩
      rw [flushToDisk, if_neg (by omega)]
      dsimp only
      rw [if_neg (by omega)]
    · -- the current block is handed over first
      have renewed := orderly.swapped free
      have unfolded : file.flushToDisk disk = file.swapped.flushToDisk disk := by
        rw [flushToDisk, if_pos ⟨empty, free⟩, requestFlush_free empty free, flushToDisk,
          if_neg (fun both => both.1 rfl)]
        rfl
      rw [unfolded]
      rcases renewed.flush_waiting rfl disk with failed | ⟨next, after, blocks, done, flushed⟩
      · exact .inl failed
      · refine .inr ⟨next, after, blocks, done, flushed.orderly, flushed.size, fun written => ?_⟩
        rw [flushed.contents, orderly.swapped_contents free]
  · exact orderly.flush_waiting waiting disk

end LogFile

/-- The blocks written for one file, out of those a call wrote. -/
def blocksOf (index : Nat) (blocks : List (Nat × Block)) : List Block :=
  blocks.filterMap fun (other, block) => if other = index then some block else none

theorem blocksOf_append (index : Nat) (first second : List (Nat × Block)) :
    blocksOf index (first ++ second) = blocksOf index first ++ blocksOf index second :=
  List.filterMap_append

theorem blocksOf_map (index other : Nat) (blocks : List Block) :
    blocksOf index (blocks.map (other, ·)) = if other = index then blocks else [] := by
  induction blocks with
  | nil => split <;> rfl
  | cons block rest ih =>
    rw [List.map_cons, blocksOf, List.filterMap_cons]
    split at ih
    · rename_i same
      simp only [if_pos same]
      exact congrArg (block :: ·) ih
    · rename_i other
      simp only [if_neg other]
      exact ih

namespace LogContext

variable {context next : LogContext}

def Orderly (context : LogContext) : Prop := ∀ index, index < lstoreNumFiles → (context.logs index).Orderly

/-- A call that changes the files only by writing these blocks. -/
def Flushes (context next : LogContext) (blocks : List (Nat × Block)) : Prop :=
  ∀ index, index < lstoreNumFiles →
    (context.logs index).Flushed (next.logs index) (blocksOf index blocks)

theorem store_logs (context : LogContext) (index other : Nat) (file : LogFile) (disk : LogDisk) :
    (context.store index file disk).logs other = if other = index then file else context.logs other := rfl

theorem Flushes.store (orderly : context.Orderly)
    (flushed : (context.logs index).Flushed file blocks) (disk : LogDisk) :
    context.Flushes (context.store index file disk) (blocks.map (index, ·)) := by
  intro other inside
  rw [store_logs, blocksOf_map]
  by_cases same : other = index
  · rw [if_pos same, if_pos same.symm, same]
    exact flushed
  · rw [if_neg same, if_neg (Ne.symm same)]
    exact ⟨orderly other inside, rfl, fun written => by rw [List.append_nil]⟩

theorem Flushes.trans (first : context.Flushes middle before) (second : middle.Flushes next after) :
    context.Flushes next (before ++ after) := by
  intro index inside
  have one := first index inside
  have two := second index inside
  refine ⟨two.orderly, two.size.trans one.size, fun written => ?_⟩
  rw [blocksOf_append, ← List.append_assoc, two.contents, one.contents]

theorem Flushes.orderly (flushes : context.Flushes next blocks) : next.Orderly :=
  fun index inside => (flushes index inside).orderly

/-- The flush loops: no assertion of `request_flush` or `flush_to_disk` fails. -/
theorem Orderly.flushEach (orderly : context.Orderly) (chosen : LogFile → Bool)
    (inside : ∀ index ∈ indices, index < lstoreNumFiles) :
    flushEach chosen indices context = .error .writeIndex ∨
      ∃ next blocks, flushEach chosen indices context = .ok (next, blocks) ∧ context.Flushes next blocks := by
  induction indices generalizing context with
  | nil =>
    refine .inr ⟨context, [], rfl, fun index inside => ?_⟩
    exact ⟨orderly index inside, rfl, fun written => by rw [blocksOf, List.filterMap_nil, List.append_nil]⟩
  | cons index rest ih =>
    have here : index < lstoreNumFiles := inside index (by simp)
    have later : ∀ index ∈ rest, index < lstoreNumFiles := fun other member => inside other (by simp [member])
    rw [LogContext.flushEach]
    split
    · rcases (orderly index here).flush (context.disks index) with failed | ⟨file, disk, blocks, done, flushed⟩
      · rw [failed]
        exact .inl rfl
      · have first := Flushes.store orderly flushed disk
        rw [done, Except.bind]
        dsimp only
        rcases ih first.orderly later with failed | ⟨next, more, done, second⟩
        · rw [failed]
          exact .inl rfl
        · rw [done]
          exact .inr ⟨next, _, rfl, first.trans second⟩
    · exact ih orderly later

theorem Orderly.flushDue (orderly : context.Orderly) (force : Bool) (flushTimer : Nat) :
    context.flushDue force flushTimer = .error .writeIndex ∨
      ∃ next blocks, context.flushDue force flushTimer = .ok (next, blocks) ∧
        context.Flushes next blocks := by
  have same : ({ context with flushTimer } : LogContext).Orderly := orderly
  exact same.flushEach _ (fun index member => List.mem_range.mp member)

theorem Orderly.process (orderly : context.Orderly) (nowMs : Nat) :
    context.jdLstoreProcess nowMs = .error .writeIndex ∨
      ∃ next blocks, context.jdLstoreProcess nowMs = .ok (next, blocks) ∧ context.Flushes next blocks :=
  orderly.flushDue _ _

theorem Orderly.forceFlush (orderly : context.Orderly) :
    context.jdLstoreForceFlush = .error .writeIndex ∨
      ∃ next blocks, context.jdLstoreForceFlush = .ok (next, blocks) ∧ context.Flushes next blocks := by
  refine orderly.flushEach _ (fun index member => ?_)
  rcases List.mem_append.mp member with once | twice
  · exact List.mem_range.mp once
  · exact List.mem_range.mp twice

end LogContext

/-- Runs of the store, with the blocks written to each file since it was mounted
and the entries whose append returned 0. -/
inductive StoreRun : LogContext → (Nat → List Block) → (Nat → List LogEntry) → Prop where
  | mounted (mounts : ∀ index, index < lstoreNumFiles → ∃ size blShift random0 random1 disk,
      LogFile.mountLog size blShift random0 random1 disk = .ok (context.logs index, context.disks index)) :
    StoreRun context (fun _ => []) (fun _ => [])
  | append (run : StoreRun context written entries) (inside : index < lstoreNumFiles)
      (typed : 1 ≤ type ∧ type < 256) (short : data.length < 256) (clock : now < 18446744073709551616)
      (done : (context.logs index).jdLstoreAppend now type data turns = .ok (some (res, file))) :
    StoreRun (context.store index file (context.disks index)) written
      (fun other => entries other ++ if other = index ∧ res = 0 then [⟨type, now, data⟩] else [])
  | process (run : StoreRun context written entries)
      (done : context.jdLstoreProcess nowMs = .ok (next, blocks)) :
    StoreRun next (fun index => written index ++ blocksOf index blocks) entries
  | forceFlush (run : StoreRun context written entries)
      (done : context.jdLstoreForceFlush = .ok (next, blocks)) :
    StoreRun next (fun index => written index ++ blocksOf index blocks) entries

theorem validateHeader_shift (valid : validateHeader size header = some blockShift) :
    9 ≤ blockShift ∧ blockShift ≤ 12 := by
  unfold validateHeader at valid
  split at valid
  · split at valid
    · cases valid
    · split at valid
      · cases valid
      · split at valid
        · cases valid
        · dsimp only at valid
          split at valid
          · cases valid
          · rename_i _ _ _ _ power
            cases valid
            have few : 2 ^ shiftFor header.sectorsPerBlock ≤ 2 ^ 3 := by omega
            have small := (Nat.pow_le_pow_iff_right (by decide)).mp few
            simp only [sectorShift]
            omega
  · cases valid

theorem findBoundry_fields {file next : LogFile} (found : file.findBoundry disk = .ok next) :
    ∃ blockGeneration blockPtr, blockGeneration < 4294967296 ∧ next = { file with blockGeneration, blockPtr } := by
  unfold LogFile.findBoundry at found
  split at found
  · cases found
  · dsimp only at found
    split at found
    · cases found
      exact ⟨1, 0, by decide, rfl⟩
    · split at found
      · cases found
        exact ⟨_, _, Nat.mod_lt _ (by decide), rfl⟩
      · cases found

theorem mountWith_fields {file : LogFile} (mounted : LogFile.mountWith size blockShift disk = .ok file) :
    ∃ blockGeneration blockPtr, blockGeneration < 4294967296 ∧
      file =
        let found : LogFile := { LogFile.opened size blockShift disk.header with blockGeneration, blockPtr }
        { found with block := found.emptyBlock, blockAlt := found.emptyBlock } := by
  obtain ⟨base, found, same⟩ := ok_of_map mounted
  obtain ⟨blockGeneration, blockPtr, width, rfl⟩ := findBoundry_fields found
  exact ⟨blockGeneration, blockPtr, width, same.symm⟩

/-- Two cleared buffers. -/
theorem fresh_orderly {file : LogFile} (shift : 9 ≤ file.blockShift ∧ file.blockShift ≤ 12)
    (block : file.block.data = fun _ => 0) (blockAlt : file.blockAlt.data = fun _ => 0)
    (start : file.dataPtr = 0) (free : file.needsFlushing = 0) :
    file.Orderly ∧ file.contents [] = [] := by
  have low : 2 ^ 9 ≤ 2 ^ file.blockShift := Nat.pow_le_pow_right (by decide) shift.1
  have high : 2 ^ file.blockShift ≤ 2 ^ 12 := Nat.pow_le_pow_right (by decide) shift.2
  have size : file.blockDataSize = 2 ^ file.blockShift - 24 := rfl
  have clear {data : Memory} (zero : data = fun _ => 0) : Holding data file.blockDataSize 0 [] := by
    refine Holding.empty ?_
    rw [zero, Memory.read, List.map_const', List.length_range]
  refine ⟨⟨by omega, by omega, ⟨[], by rw [start]; exact clear block⟩, .inl ⟨free, clear blockAlt⟩,
    fun used => absurd start used⟩, ?_⟩
  rw [LogFile.contents, LogFile.unflushed, if_neg (by omega)]
  exact (List.append_nil _).trans (LogFile.entries_empty (clear block))

theorem mountWith_orderly {file : LogFile} (shift : 9 ≤ blockShift ∧ blockShift ≤ 12)
    (mounted : LogFile.mountWith size blockShift disk = .ok file) :
    file.Orderly ∧ file.contents [] = [] := by
  obtain ⟨blockGeneration, blockPtr, _, rfl⟩ := mountWith_fields mounted
  exact fresh_orderly shift rfl rfl rfl rfl

/-- Mounting ends in its second half, with the header found or with a new one. -/
theorem mountLog_mountWith {file : LogFile}
    (mounted : LogFile.mountLog size blShift random0 random1 disk = .ok (file, after)) :
    ∃ blockShift start, (9 ≤ blockShift ∧ blockShift ≤ 12) ∧
      LogFile.mountWith size blockShift start = .ok file := by
  unfold LogFile.mountLog at mounted
  split at mounted
  · rename_i blockShift valid
    obtain ⟨_, done, same⟩ := ok_of_map mounted
    cases same
    exact ⟨blockShift, disk, validateHeader_shift valid, done⟩
  · dsimp only at mounted
    split at mounted
    · cases mounted
    · rename_i blockShift valid
      obtain ⟨_, done, same⟩ := ok_of_map mounted
      cases same
      exact ⟨blockShift, _, validateHeader_shift valid, done⟩

theorem mountLog_orderly {file : LogFile}
    (mounted : LogFile.mountLog size blShift random0 random1 disk = .ok (file, after)) :
    file.Orderly ∧ file.contents [] = [] := by
  obtain ⟨blockShift, start, shift, done⟩ := mountLog_mountWith mounted
  exact mountWith_orderly shift done

/-- Every file reads back as the entries appended to it. -/
theorem StoreRun.faithful (run : StoreRun context written entries) :
    context.Orderly ∧ ∀ index, index < lstoreNumFiles →
      (context.logs index).contents (written index) = entries index := by
  induction run with
  | mounted mounts =>
    constructor
    · intro index inside
      obtain ⟨size, blShift, random0, random1, disk, mounted⟩ := mounts index inside
      exact (mountLog_orderly mounted).1
    · intro index inside
      obtain ⟨size, blShift, random0, random1, disk, mounted⟩ := mounts index inside
      exact (mountLog_orderly mounted).2
  | append _ inside typed short clock done ih =>
    rename_i context written entries index type now data turns res file run
    obtain ⟨orderly, same⟩ := ih
    have appended := (orderly index inside).appended typed short clock done
    constructor
    · intro other below
      rw [LogContext.store_logs]
      split
      · exact appended.orderly
      · exact orderly other below
    · intro other below
      dsimp only
      rw [LogContext.store_logs]
      by_cases here : other = index
      · rw [if_pos here, here, appended.contents, same index inside]
        simp only [true_and]
      · rw [if_neg here, if_neg (fun both => here both.1), List.append_nil]
        exact same other below
  | process _ done ih =>
    obtain ⟨orderly, same⟩ := ih
    rcases orderly.process _ with failed | ⟨next, blocks, flushed, flushes⟩
    · rw [failed] at done
      cases done
    · rw [flushed] at done
      cases done
      exact ⟨flushes.orderly, fun index inside => by
        rw [(flushes index inside).contents, same index inside]⟩
  | forceFlush _ done ih =>
    obtain ⟨orderly, same⟩ := ih
    rcases orderly.forceFlush with failed | ⟨next, blocks, flushed, flushes⟩
    · rw [failed] at done
      cases done
    · rw [flushed] at done
      cases done
      exact ⟨flushes.orderly, fun index inside => by
        rw [(flushes index inside).contents, same index inside]⟩

/-- Four sectors of zeros. -/
def newDisk : LogDisk where
  header := ⟨0, 0, 0, 0, 0, 0, 0, 0, 0, 0⟩
  slots := fun _ => ⟨0, 0, 0, fun _ => 0, 0, 0⟩

/-- What mounting makes of them. -/
def newFile : LogFile :=
  { LogFile.opened 2048 9 (LogFile.newHeader 2048 0 7 7) with
    block := ⟨7, 0, 0, fun _ => 0, 7, 0⟩
    blockAlt := ⟨7, 0, 0, fun _ => 0, 7, 0⟩
    blockGeneration := 1 }

theorem newFile_mounts : LogFile.mountLog 2048 0 7 7 newDisk =
    .ok (newFile, { newDisk with header := LogFile.newHeader 2048 0 7 7 }) := by
  rfl

def newContext : LogContext where
  flushTimer := 0
  logs := fun _ => newFile
  disks := fun _ => { newDisk with header := LogFile.newHeader 2048 0 7 7 }

end Jacdac
