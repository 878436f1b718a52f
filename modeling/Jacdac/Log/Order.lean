import Jacdac.Log.StoreRun

/-! The order in which blocks reach the disk. `find_boundry` searches for the
place where generation and timestamp stop growing. -/

namespace Jacdac

theorem Block.not_lt_trans {first second third : Block} (one : second.lt first = false)
    (two : third.lt second = false) : third.lt first = false := by
  rw [Bool.eq_false_iff, ne_eq, lt_iff] at *
  omega

/-- No block is smaller than an earlier one. -/
def WrittenInOrder (written : List Block) : Prop :=
  written.Pairwise fun earlier later => later.lt earlier = false

namespace LogFile

variable {file next : LogFile} {written : List Block}

/-- The clock of an append to this file. An append that starts a block on an
empty buffer is not earlier than the block before, unless the generation was
raised in between. One that finds its clock behind the current block either
sees a negative difference and raises the generation without a wrap, or cannot
start a block now. -/
structure Steady (file : LogFile) (now : Nat) : Prop where
  start : file.dataPtr = 0 →
    file.blockAlt.timestamp ≤ now ∨ file.blockAlt.generation < file.blockGeneration
  wrap : file.dataPtr ≠ 0 → wentBack (elapsed now file.block.timestamp) = true →
    file.blockGeneration ≠ 0xffffffff
  back : file.dataPtr ≠ 0 → now < file.block.timestamp →
    wentBack (elapsed now file.block.timestamp) = true ∨
      file.block.generation < file.blockGeneration ∨ file.needsFlushing ≠ 0

/-- The written blocks, then the block that was closed last, then the current
block. The header of the closed block stays in `block_alt` when it is written. -/
structure Sequenced (file : LogFile) (written : List Block) : Prop where
  sorted : WrittenInOrder written
  last : ∀ block ∈ written, file.blockAlt.lt block = false
  raised : file.blockAlt.generation ≤ file.blockGeneration
  current : file.dataPtr ≠ 0 →
    file.block.lt file.blockAlt = false ∧ file.block.generation ≤ file.blockGeneration
  width : file.blockGeneration < 4294967296

namespace Sequenced

theorem swapped (sequenced : file.Sequenced written) (used : file.dataPtr ≠ 0) :
    file.swapped.Sequenced written where
  sorted := sequenced.sorted
  last := fun block member => Block.not_lt_trans (sequenced.last block member) (sequenced.current used).1
  raised := (sequenced.current used).2
  current := fun used => absurd rfl used
  width := sequenced.width

theorem drained (sequenced : file.Sequenced written) (blockPtr : Nat) :
    (file.drained blockPtr).Sequenced (written ++ [file.flushedBlock]) where
  sorted := by
    refine List.pairwise_append.mpr ⟨sequenced.sorted, List.pairwise_singleton .., ?_⟩
    intro earlier member later new
    rw [List.mem_singleton.mp new]
    exact sequenced.last earlier member
  last := by
    intro block member
    rcases List.mem_append.mp member with old | new
    · exact sequenced.last block old
    · rw [List.mem_singleton.mp new, Bool.eq_false_iff, ne_eq, Block.lt_iff]
      exact fun less => by rcases less with less | ⟨_, less⟩ <;> exact absurd less (Nat.lt_irrefl _)
  raised := sequenced.raised
  current := sequenced.current
  width := sequenced.width

/-- A larger generation for the blocks to come. -/
theorem regenerated (sequenced : file.Sequenced written) {blockGeneration : Nat}
    (raise : file.blockGeneration ≤ blockGeneration) (width : blockGeneration < 4294967296) : (file.regenerated blockGeneration).Sequenced written where
  sorted := sequenced.sorted
  last := sequenced.last
  raised := Nat.le_trans sequenced.raised raise
  current := fun used => ⟨(sequenced.current used).1, Nat.le_trans (sequenced.current used).2 raise⟩
  width := width

end Sequenced

theorem flushToDisk_cases (done : file.flushToDisk disk = .ok (next, after, blocks)) :
    ∃ middle : LogFile, (middle = file ∨ (file.dataPtr ≠ 0 ∧ middle = file.swapped)) ∧
      ((next = middle ∧ blocks = []) ∨
        ∃ blockPtr, next = middle.drained blockPtr ∧ blocks = [middle.flushedBlock]) := by
  unfold flushToDisk at done
  dsimp only at done
  split at done
  · cases done
  · rename_i middle requested
    have choice : middle = file ∨ (file.dataPtr ≠ 0 ∧ middle = file.swapped) := by
      split at requested
      · rename_i free
        rw [requestFlush_free free.1 free.2] at requested
        cases requested
        exact .inr ⟨free.1, rfl⟩
      · cases requested
        exact .inl rfl
    refine ⟨middle, choice, ?_⟩
    split at done
    · split at done
      · cases done
      · rcases flushToDiskCore_drained { middle with needsFlushing := 2 } disk with
          failed | ⟨blockPtr, other, core⟩
        · rw [failed] at done
          cases done
        · rw [core] at done
          cases done
          exact .inr ⟨blockPtr, rfl, rfl⟩
    · cases done
      exact .inl ⟨rfl, rfl⟩

theorem Sequenced.flush (sequenced : file.Sequenced written)
    (done : file.flushToDisk disk = .ok (next, after, blocks)) : next.Sequenced (written ++ blocks) := by
  obtain ⟨middle, choice, result⟩ := flushToDisk_cases done
  have ready : middle.Sequenced written := by
    rcases choice with rfl | ⟨used, rfl⟩
    · exact sequenced
    · exact sequenced.swapped used
  rcases result with ⟨rfl, rfl⟩ | ⟨blockPtr, rfl, rfl⟩
  · rw [List.append_nil]
    exact ready
  · exact ready.drained blockPtr

/-- What one turn of the loop of `jd_lstore_append` can do. -/
theorem appendTurn_cases (turn : file.appendTurn now type data = .ok (res, next, again)) :
    (∃ memory dataPtr, again = false ∧
      next = { file.begun now with block := { (file.begun now).block with data := memory }, dataPtr }) ∨
    (file.dataPtr ≠ 0 ∧
      ∃ blockGeneration, ((wentBack (elapsed now file.block.timestamp) = true ∧
          blockGeneration = u32 (file.blockGeneration + 1)) ∨
        (wentBack (elapsed now file.block.timestamp) = false ∧ blockGeneration = file.blockGeneration)) ∧
      ((again = false ∧ next = file.regenerated blockGeneration) ∨
        (again = true ∧ file.needsFlushing = 0 ∧ next = (file.regenerated blockGeneration).swapped))) := by
  unfold appendTurn at turn
  dsimp only at turn
  split at turn
  · cases turn
    exact .inl ⟨_, _, rfl, rfl⟩
  · by_cases used : file.dataPtr = 0
    · -- a flush of an empty block is an assertion failure
      have refused (generation : Nat) : ((file.begun now).regenerated generation).requestFlush =
          .error .flushEmpty := by
        rw [requestFlush, if_pos (by rw [LogFile.regenerated, begun_dataPtr, used])]
      split at turn
      · rw [← LogFile.regenerated, refused] at turn
        cases turn
      · rw [show file.begun now = (file.begun now).regenerated (file.begun now).blockGeneration from rfl,
          refused] at turn
        cases turn
    · rw [begun_used used] at turn
      obtain ⟨blockGeneration, raised, same⟩ : ∃ blockGeneration,
          ((wentBack (elapsed now file.block.timestamp) = true ∧
              blockGeneration = u32 (file.blockGeneration + 1)) ∨
            (wentBack (elapsed now file.block.timestamp) = false ∧
              blockGeneration = file.blockGeneration)) ∧
          (if wentBack (elapsed now file.block.timestamp) = true then
            { file with blockGeneration := u32 (file.blockGeneration + 1) } else file) =
            file.regenerated blockGeneration := by
        cases back : wentBack (elapsed now file.block.timestamp) with
        | true => exact ⟨_, .inl ⟨rfl, rfl⟩, rfl⟩
        | false => exact ⟨_, .inr ⟨rfl, rfl⟩, rfl⟩
      rw [same] at turn
      refine .inr ⟨used, blockGeneration, raised, ?_⟩
      by_cases free : file.needsFlushing = 0
      · have done : (file.regenerated blockGeneration).requestFlush =
            .ok (0, (file.regenerated blockGeneration).swapped) := requestFlush_free used free
        rw [done] at turn
        cases turn
        exact .inr ⟨rfl, free, rfl⟩
      · have done : (file.regenerated blockGeneration).requestFlush =
            .ok (-1, file.regenerated blockGeneration) := requestFlush_busy used free
        rw [done] at turn
        cases turn
        exact .inl ⟨rfl, rfl⟩

/-- Storing an entry: a block that starts here follows the block before it. -/
theorem Sequenced.stores (sequenced : file.Sequenced written) (steady : file.Steady now)
    (memory : Memory) (dataPtr : Nat) :
    { file.begun now with
      block := { (file.begun now).block with data := memory }, dataPtr }.Sequenced written := by
  unfold begun
  split
  · rename_i empty
    refine ⟨sequenced.sorted, sequenced.last, sequenced.raised, fun _ => ⟨?_, Nat.le_refl _⟩,
      sequenced.width⟩
    have start := steady.start empty
    have raised := sequenced.raised
    rw [Bool.eq_false_iff, ne_eq, Block.lt_iff]
    dsimp only
    omega
  · rename_i used
    exact ⟨sequenced.sorted, sequenced.last, sequenced.raised, fun _ => sequenced.current used,
      sequenced.width⟩

/-- One turn keeps the order, and a turn that swaps the buffers leaves a file
whose next block may start now. -/
theorem Sequenced.turn (sequenced : file.Sequenced written) (steady : file.Steady now)
    (turn : file.appendTurn now type data = .ok (res, next, again)) :
    next.Sequenced written ∧ (again = true → next.Steady now) := by
  rcases appendTurn_cases turn with ⟨memory, dataPtr, rfl, rfl⟩ | ⟨used, blockGeneration, raised, result⟩
  · exact ⟨sequenced.stores steady memory dataPtr, fun again => nomatch again⟩
  · have width := sequenced.width
    have higher : file.blockGeneration ≤ blockGeneration ∧ blockGeneration < 4294967296 := by
      rcases raised with ⟨back, rfl⟩ | ⟨_, rfl⟩
      · have small := steady.wrap used back
        simp only [u32]
        omega
      · exact ⟨Nat.le_refl _, width⟩
    have renewed := sequenced.regenerated higher.1 higher.2
    rcases result with ⟨rfl, rfl⟩ | ⟨rfl, free, rfl⟩
    · exact ⟨renewed, fun again => nomatch again⟩
    · refine ⟨renewed.swapped used, fun _ => ⟨fun _ => ?_, fun used => absurd rfl used,
        fun used => absurd rfl used⟩⟩
      have current := (sequenced.current used).2
      change file.block.timestamp ≤ now ∨ file.block.generation < blockGeneration
      rcases raised with ⟨back, rfl⟩ | ⟨forward, rfl⟩
      · have small := steady.wrap used back
        simp only [u32]
        omega
      · by_cases behind : now < file.block.timestamp
        · rcases steady.back used behind with back | larger | busy
          · rw [forward] at back
            cases back
          · exact .inr larger
          · exact absurd free busy
        · exact .inl (Nat.le_of_not_lt behind)

theorem Sequenced.loop (sequenced : file.Sequenced written) (steady : file.Steady now)
    (done : appendLoop now type data turns file = .ok (some (res, next))) : next.Sequenced written := by
  induction turns generalizing file with
  | zero => cases done
  | succ turns ih =>
    rw [appendLoop] at done
    obtain ⟨⟨first, middle, again⟩, turn, rest⟩ := ok_of_bind done
    have kept := sequenced.turn steady turn
    cases again with
    | false =>
      cases rest
      exact kept.1
    | true => exact ih kept.1 (kept.2 rfl) rest

theorem Sequenced.append (sequenced : file.Sequenced written) (steady : file.Steady now)
    (done : file.jdLstoreAppend now type data turns = .ok (some (res, next))) :
    next.Sequenced written := by
  unfold jdLstoreAppend at done
  split at done
  · cases done
  · split at done
    · cases done
    · exact sequenced.loop steady done

end LogFile

/-- A mounted file has written nothing and closed nothing. -/
theorem mountWith_sequenced {file : LogFile}
    (mounted : LogFile.mountWith size blockShift disk = .ok file) : file.Sequenced [] := by
  obtain ⟨blockGeneration, blockPtr, width, rfl⟩ := mountWith_fields mounted
  exact ⟨List.Pairwise.nil, fun block member => (nomatch member), Nat.zero_le _,
    fun used => absurd rfl used, width⟩

theorem mountLog_sequenced {file : LogFile}
    (mounted : LogFile.mountLog size blShift random0 random1 disk = .ok (file, after)) :
    file.Sequenced [] := by
  obtain ⟨blockShift, start, _, done⟩ := mountLog_mountWith mounted
  exact mountWith_sequenced done

namespace LogContext

/-- The files below the limit, each with the blocks written to it. -/
def Sequenced (context : LogContext) (written : Nat → List Block) : Prop :=
  ∀ index, index < lstoreNumFiles → (context.logs index).Sequenced (written index)

theorem Sequenced.flushEach (sequenced : Sequenced context written)
    (done : flushEach chosen indices context = .ok (next, blocks)) :
    Sequenced next (fun index => written index ++ blocksOf index blocks) := by
  induction indices generalizing context written blocks with
  | nil =>
    cases done
    intro index inside
    dsimp only
    rw [blocksOf, List.filterMap_nil, List.append_nil]
    exact sequenced index inside
  | cons index rest ih =>
    rw [LogContext.flushEach] at done
    split at done
    · obtain ⟨⟨file, disk, new⟩, flushed, last⟩ := ok_of_bind done
      obtain ⟨⟨final, more⟩, after, same⟩ := ok_of_map last
      cases same
      have stored : Sequenced (context.store index file disk)
          (fun other => written other ++ blocksOf other (new.map (index, ·))) := by
        intro other inside
        dsimp only
        rw [store_logs, blocksOf_map]
        by_cases same : other = index
        · rw [if_pos same, if_pos same.symm, same]
          exact (sequenced index (same ▸ inside)).flush flushed
        · rw [if_neg same, if_neg (Ne.symm same), List.append_nil]
          exact sequenced other inside
      intro other inside
      have both := ih stored after other inside
      dsimp only at both ⊢
      rw [blocksOf_append, ← List.append_assoc]
      exact both
    · exact ih sequenced done

theorem Sequenced.flushDue {flushTimer : Nat} (sequenced : Sequenced context written)
    (done : flushDue force flushTimer context = .ok (next, blocks)) :
    Sequenced next (fun index => written index ++ blocksOf index blocks) := by
  have same : Sequenced { context with flushTimer } written := sequenced
  rw [LogContext.flushDue] at done
  exact same.flushEach done

end LogContext

/-- Sessions of the store: appends whose clock is admitted, the periodic flush
and the forced flush, with the blocks written to each file since the mount. -/
inductive Session (admits : LogFile → Nat → Prop) : LogContext → (Nat → List Block) → Prop where
  | mounted (mounts : ∀ index, index < lstoreNumFiles → ∃ size blShift random0 random1 disk,
      LogFile.mountLog size blShift random0 random1 disk = .ok (context.logs index, context.disks index)) :
    Session admits context (fun _ => [])
  | append (session : Session admits context written) (inside : index < lstoreNumFiles)
      (admitted : admits (context.logs index) now)
      (done : (context.logs index).jdLstoreAppend now type data turns = .ok (some (res, file))) :
    Session admits (context.store index file (context.disks index)) written
  | process (session : Session admits context written)
      (done : context.jdLstoreProcess nowMs = .ok (next, blocks)) :
    Session admits next (fun index => written index ++ blocksOf index blocks)
  | forceFlush (session : Session admits context written)
      (done : context.jdLstoreForceFlush = .ok (next, blocks)) :
    Session admits next (fun index => written index ++ blocksOf index blocks)

theorem Session.sequenced (session : Session LogFile.Steady context written) :
    context.Sequenced written := by
  induction session with
  | mounted mounts =>
    intro index inside
    obtain ⟨size, blShift, random0, random1, disk, mounted⟩ := mounts index inside
    exact mountLog_sequenced mounted
  | append _ inside steady done ih =>
    intro other below
    rw [LogContext.store_logs]
    split
    · rename_i same
      rw [same]
      exact (ih _ inside).append steady done
    · exact ih other below
  | process _ done ih =>
    rw [LogContext.jdLstoreProcess] at done
    exact ih.flushDue done
  | forceFlush _ done ih => exact ih.flushEach done

/-- In every session whose appends keep the clock steady, blocks reach the disk
in the order of `block_lt`. -/
theorem blocks_written_in_order (session : Session LogFile.Steady context written)
    (inside : index < lstoreNumFiles) : WrittenInOrder (written index) :=
  (session.sequenced index inside).sorted

/-- The new file after an append at 1000 ms. -/
def startedFile : LogFile := (newFile.begun 1000).stored ⟨1, 0, []⟩

/-- The same file when its block is on disk. -/
def flushedFile : LogFile := startedFile.swapped.drained 1

private theorem newContext_session (admits : LogFile → Nat → Prop) :
    Session admits newContext (fun _ => []) :=
  .mounted fun _ _ => ⟨2048, 0, 7, 7, newDisk, newFile_mounts⟩

private theorem startedFile_appended : newFile.jdLstoreAppend 1000 1 [] 2 = .ok (some (0, startedFile)) := by
  rfl

private theorem flushedFile_appended (now : Nat) :
    flushedFile.jdLstoreAppend now 1 [] 2 =
      .ok (some (0, (flushedFile.begun now).stored ⟨1, flushedFile.delta now, []⟩)) := by
  have fresh := (mountLog_orderly newFile_mounts).1
  have started : startedFile.Orderly :=
    (fresh.stores (by decide) (by decide) (by decide) (fresh.fits_empty rfl 1000 (by decide)) []).1
  have flushed : flushedFile.Orderly := (started.swapped rfl).drained 1
  have turn := flushed.appendTurn_fits (show [].length < 256 by decide) (flushed.fits_empty rfl now (by decide)) 1
  rw [LogFile.jdLstoreAppend, if_neg (by decide), if_neg (by decide)]
  exact LogFile.appendLoop_done turn 1

theorem blocks_written_in_order_later :
    ∃ context written, Session LogFile.Steady context written ∧ (written 0).length = 2 ∧
      WrittenInOrder (written 0) := by
  have steady : (newContext.logs 0).Steady 1000 :=
    ⟨fun _ => .inl (Nat.zero_le _), fun used => absurd rfl used, fun used => absurd rfl used⟩
  have again : flushedFile.Steady 2000 :=
    ⟨fun _ => .inl (by decide), fun used => absurd rfl used, fun used => absurd rfl used⟩
  have first := Session.append (newContext_session _) (show 0 < lstoreNumFiles by decide) steady
    startedFile_appended
  have flushed := Session.forceFlush first (show _ = Except.ok (_, _) from rfl)
  have second := Session.append flushed (show 0 < lstoreNumFiles by decide) again
    (flushedFile_appended 2000)
  have both := Session.forceFlush second (show _ = Except.ok (_, _) from rfl)
  exact ⟨_, _, both, rfl, blocks_written_in_order both (show 0 < lstoreNumFiles by decide)⟩

/-- An append at 1000 ms, a flush, an append at 0 ms and a flush: the second block
has the generation of the first and an earlier timestamp. -/
theorem clock_set_back_after_flush :
    ¬ ∀ context written, Session (fun _ now => now < 18446744073709551616) context written →
      ∀ index, index < lstoreNumFiles → WrittenInOrder (written index) := by
  intro ordered
  have first := Session.append (newContext_session fun _ now => now < 18446744073709551616)
    (show 0 < lstoreNumFiles by decide) (by decide) startedFile_appended
  have flushed := Session.forceFlush first (show _ = Except.ok (_, _) from rfl)
  have second := Session.append flushed (show 0 < lstoreNumFiles by decide) (by decide)
    (flushedFile_appended 0)
  have both := Session.forceFlush second (show _ = Except.ok (_, _) from rfl)
  have pair : WrittenInOrder [_, _] := ordered _ _ both 0 (by decide)
  have notLess := List.rel_of_pairwise_cons pair (List.mem_singleton.mpr rfl)
  exact absurd notLess (by decide +kernel)

end Jacdac
