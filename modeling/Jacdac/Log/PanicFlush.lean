import Jacdac.Base.Ring
import Jacdac.Log.Pending

/-! Flushing one file in a panic. -/

namespace Jacdac

/-- A step that works where sectors can be written; elsewhere it may fail at the index of a block. -/
def Proceeds (writable : Prop) (result : Except Fault Result) (failure : Fault) (after : Result → Prop) : Prop :=
  (result = .error failure ∧ ¬ writable) ∨ ∃ value, result = .ok value ∧ after value

section Proceeds

variable {Fault First Second : Type} {writable : Prop} {failure : Fault}

theorem Proceeds.done {after : First → Prop} {value : First} (fine : after value) :
    Proceeds writable (Except.ok value) failure after :=
  .inr ⟨value, rfl, fine⟩

/-- One step after the other. -/
theorem Proceeds.bind {first : Except Fault First} {rest : First → Except Fault Second} {middle : First → Prop}
    {after : Second → Prop} (start : Proceeds writable first failure middle)
    (later : ∀ value, middle value → Proceeds writable (rest value) failure after) :
    Proceeds writable (first >>= rest) failure after := by
  rcases start with ⟨failed, blocked⟩ | ⟨value, done, fine⟩
  · refine .inl ⟨?_, blocked⟩
    rw [failed]
    rfl
  · rw [done]
    exact later value fine

theorem Proceeds.weaken {other : Prop} {result : Except Fault First} {middle after : First → Prop}
    (start : Proceeds other result failure middle) (still : writable → other) (fine : ∀ value, middle value → after value) :
    Proceeds writable result failure after := by
  rcases start with ⟨failed, blocked⟩ | ⟨value, done, holds⟩
  · exact .inl ⟨failed, fun able => blocked (still able)⟩
  · exact .inr ⟨value, done, fine value holds⟩

end Proceeds

namespace LogFile

variable {file next later : LogFile} {disk after : LogDisk}

/-- A mounted file in a panic, with the bytes of the pending entry. -/
structure Ready (file : LogFile) (pending : List UInt8) : Prop where
  size : 259 ≤ file.blockDataSize
  small : file.blockDataSize < 65536
  current : ∃ raws, Pending file.block.data file.blockDataSize file.dataPtr raws pending
  alternate : file.needsFlushing = 0 → Holding file.blockAlt.data file.blockDataSize 0 []

theorem Orderly.ready (orderly : file.Orderly) : file.Ready [] where
  size := orderly.size
  small := orderly.small
  current := by
    obtain ⟨raws, holding⟩ := orderly.current
    exact ⟨raws, holding.toPending⟩
  alternate := orderly.free

/-- The file with another cursor in its current block. -/
def withPtr (file : LogFile) (dataPtr : Nat) : LogFile := { file with dataPtr }

/-- The data blocks as they are written round. -/
def ring (file : LogFile) (disk : LogDisk) : Ring Block := ⟨file.blockPtr, disk.slots⟩

/-- What a step of the panic does to a file and its disk: the blocks that it writes, and the entries that a reader
finds in addition. -/
structure Advances (file : LogFile) (disk : LogDisk) (next : LogFile) (after : LogDisk) (blocks : List Block)
    (entries : List LogEntry) : Prop where
  shift : next.blockShift = file.blockShift
  dataBlocks : next.dataBlocks = file.dataBlocks
  ring : next.ring after = (file.ring disk).puts file.dataBlocks blocks
  contents : ∀ written, next.contents (written ++ blocks) = file.contents written ++ entries

theorem Advances.refl (file : LogFile) (disk : LogDisk) : file.Advances disk file disk [] [] where
  shift := rfl
  dataBlocks := rfl
  ring := rfl
  contents written := by rw [List.append_nil, List.append_nil]

theorem Advances.trans {last : LogDisk} (first : file.Advances disk next after blocks entries)
    (second : next.Advances after later last more found) :
    file.Advances disk later last (blocks ++ more) (entries ++ found) where
  shift := second.shift.trans first.shift
  dataBlocks := second.dataBlocks.trans first.dataBlocks
  ring := by rw [second.ring, first.ring, first.dataBlocks, Ring.puts_append]
  contents written := by rw [← List.append_assoc, second.contents, first.contents, List.append_assoc]

/-- A step inside the current block. -/
theorem Advances.current {block : Block} (dataPtr : Nat)
    (grown : block.entries file.blockDataSize = file.block.entries file.blockDataSize ++ entries) (disk : LogDisk) :
    file.Advances disk { file with block, dataPtr } disk [] entries where
  shift := rfl
  dataBlocks := rfl
  ring := rfl
  contents written := by rw [List.append_nil, contents_grown dataPtr grown]

theorem Advances.inside (advances : file.Advances disk next after blocks entries) (inside : file.blockPtr < file.dataBlocks) :
    next.blockPtr < next.dataBlocks := by
  have kept := @Ring.puts_inside _ (file.ring disk) _ inside blocks
  rw [← advances.ring, ← advances.dataBlocks] at kept
  exact kept

theorem flushCoreInPanic_inside (inside : file.blockPtr < file.dataBlocks) (disk : LogDisk) :
    ∃ blockPtr after, file.flushCoreInPanic disk = .ok (file.drained blockPtr, after, [file.flushedBlock]) ∧
      (file.drained blockPtr).ring after = (file.ring disk).put file.dataBlocks file.flushedBlock := by
  rw [flushCoreInPanic, flushToDiskCore, if_pos inside]
  by_cases last : file.blockPtr + 1 ≥ file.dataBlocks
  · refine ⟨0, _, congrArg _ (if_pos last), ?_⟩
    rw [Ring.put, ring, ring, if_pos last]
    rfl
  · refine ⟨file.blockPtr + 1, _, congrArg _ (if_neg last), ?_⟩
    rw [Ring.put, ring, ring, if_neg last]
    rfl

theorem Ready.drained (ready : file.Ready pending) (blockPtr : Nat) : (file.drained blockPtr).Ready pending where
  size := ready.size
  small := ready.small
  current := ready.current
  alternate _ := by
    have clear : (file.flushedBlock.data.write 0 (List.replicate file.blockDataSize 0)).read 0 file.blockDataSize =
        List.replicate file.blockDataSize 0 := Memory.read_write_block List.length_replicate
    exact Holding.empty clear

theorem Ready.drainInPanic (ready : file.Ready pending) (disk : LogDisk) :
    Proceeds (file.blockPtr < file.dataBlocks) (file.drainInPanic disk) .writeIndex fun (next, after, blocks) =>
      next.Ready pending ∧ file.Advances disk next after blocks [] ∧ next.needsFlushing = 0 ∧
        next.dataPtr = file.dataPtr := by
  rw [LogFile.drainInPanic]
  by_cases waiting : file.needsFlushing ≠ 0
  · rw [if_pos waiting]
    by_cases inside : file.blockPtr < file.dataBlocks
    · obtain ⟨blockPtr, after, done, put⟩ := flushCoreInPanic_inside inside disk
      rw [done]
      refine .done ⟨ready.drained blockPtr, ⟨rfl, rfl, put, fun written => ?_⟩, rfl, rfl⟩
      rw [drained_contents waiting, List.append_nil]
    · refine .inl ⟨?_, inside⟩
      rw [flushCoreInPanic, flushToDiskCore, if_neg inside]
      rfl
  · rw [if_neg waiting]
    exact .done ⟨ready, .refl file disk, by omega, rfl⟩

theorem Ready.entries_nil (ready : file.Ready pending) (empty : file.dataPtr = 0) :
    file.block.entries file.blockDataSize = [] := by
  obtain ⟨raws, blocks⟩ := ready.current
  rw [empty] at blocks
  rw [Block.entries, blocks.parse, blocks.eq_nil]
  rfl

/-- The current block becomes the waiting one. -/
theorem Ready.handOver (ready : file.Ready []) (free : file.needsFlushing = 0) (disk : LogDisk) :
    ∃ next, file.handOver = .ok next ∧ next.Ready [] ∧ file.Advances disk next disk [] [] ∧ next.dataPtr = 0 := by
  rw [LogFile.handOver]
  by_cases empty : file.dataPtr = 0
  · rw [if_neg (fun both => both.1 empty)]
    exact ⟨file, rfl, ready, .refl file disk, empty⟩
  · have clear := ready.alternate free
    rw [if_pos ⟨empty, free⟩, requestFlush_free empty free]
    refine ⟨file.swapped, rfl, ⟨ready.size, ready.small, ⟨[], clear.toPending⟩, fun never => ?_⟩, ?_, rfl⟩
    · cases never
    · refine ⟨rfl, rfl, rfl, fun written => ?_⟩
      rw [List.append_nil, List.append_nil]
      exact contents_swapped free (entries_empty clear) written

theorem Ready.stamped (ready : file.Ready []) (empty : file.dataPtr = 0) (now : Nat) (disk : LogDisk) :
    (file.stamped now).Ready [] ∧ file.Advances disk (file.stamped now) disk [] [] := by
  have later : (file.stamped now).Ready [] := ⟨ready.size, ready.small, ready.current, ready.alternate⟩
  have before := ready.entries_nil empty
  have after : (file.stamped now).block.entries file.blockDataSize = [] := later.entries_nil empty
  exact ⟨later, .current file.dataPtr (after.trans (by rw [before, List.append_nil])) disk⟩

/-- Nothing of the file is left in memory. -/
def Settled (file : LogFile) : Prop := file.needsFlushing = 0 ∧ file.dataPtr = 0

theorem Ready.flushToDiskInPanic (ready : file.Ready []) (now : Nat) (disk : LogDisk) :
    Proceeds (file.blockPtr < file.dataBlocks) (file.flushToDiskInPanic now disk) .writeIndex
      fun (next, after, blocks) => next.Ready [] ∧ file.Advances disk next after blocks [] ∧ next.Settled := by
  refine (ready.drainInPanic disk).bind ?_
  rintro ⟨first, disk, blocks⟩ ⟨ready, one, free, _⟩
  obtain ⟨second, done, ready, two, empty⟩ := ready.handOver free disk
  dsimp only
  rw [done]
  refine ((ready.drainInPanic disk).weaken (one.trans two).inside (fun _ fine => fine)).bind ?_
  rintro ⟨third, disk, more⟩ ⟨ready, three, free, same⟩
  obtain ⟨ready, four⟩ := ready.stamped (same.trans empty) now disk
  refine .done ⟨ready, ?_, ⟨free, same.trans empty⟩⟩
  have whole := ((one.trans two).trans three).trans four
  rwa [List.append_nil, List.append_nil] at whole

theorem Ready.store (ready : file.Ready pending) (ch : UInt8)
    (room : file.dataPtr + entryHeaderSize + pending.length < file.blockDataSize) (disk : LogDisk) :
    ∃ next, file.storeCurr (entryHeaderSize + pending.length) [ch] = .ok next ∧ next.Ready (pending ++ [ch]) ∧
      file.Advances disk next disk [] [] ∧ next.dataPtr = file.dataPtr := by
  obtain ⟨raws, blocks⟩ := ready.current
  have later := blocks.store ch
  have inside : file.dataPtr + (entryHeaderSize + pending.length) + [ch].length ≤ file.blockDataSize := by
    rw [List.length_singleton]
    omega
  rw [storeCurr, if_pos inside]
  refine ⟨_, rfl, ⟨ready.size, ready.small, ⟨raws, later⟩, ready.alternate⟩, .current file.dataPtr ?_ disk, rfl⟩
  rw [List.append_nil, Block.entries, Block.entries, blocks.parse]
  exact congrArg (List.map _) later.parse

theorem Ready.close (ready : file.Ready pending) (some : pending ≠ []) (short : pending.length < 256)
    (room : file.dataPtr + entryHeaderSize + pending.length ≤ file.blockDataSize) (disk : LogDisk) :
    ∃ next, file.storeCurr 0 (entryBytes typePanicLog pending.length 0 []) = .ok next ∧
      next.dataPtr = file.dataPtr ∧
      (next.withPtr (file.dataPtr + entryHeaderSize + pending.length)).Ready [] ∧
      file.Advances disk (next.withPtr (file.dataPtr + entryHeaderSize + pending.length)) disk []
        [RawEntry.entry file.block.timestamp ⟨typePanicLog, 0, pending⟩] := by
  obtain ⟨raws, blocks⟩ := ready.current
  have later := blocks.close some short room
  have inside : file.dataPtr + 0 + (entryBytes typePanicLog pending.length 0 []).length ≤ file.blockDataSize := by
    have header : (entryBytes typePanicLog pending.length 0 []).length = entryHeaderSize := rfl
    omega
  rw [storeCurr, if_pos inside]
  refine ⟨_, rfl, rfl, ⟨ready.size, ready.small, ⟨_, later⟩, ready.alternate⟩, .current _ ?_ disk⟩
  rw [Block.entries, Block.entries, blocks.parse]
  exact (congrArg (List.map _) later.parse).trans List.map_append

end LogFile

end Jacdac
