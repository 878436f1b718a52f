import Jacdac.Log.Contents

/-! What appending and flushing do to the contents of a log file. -/

namespace Jacdac

namespace LogFile

variable {file : LogFile}

/-- The time of an append relative to the block it goes to. -/
def delta (file : LogFile) (now : Nat) : Nat := elapsed now (file.begun now).block.timestamp

theorem delta_eq (file : LogFile) (now : Nat) :
    file.delta now = elapsed now (file.begun now).block.timestamp := rfl

/-- The normal path of `jd_lstore_append`. -/
def Fits (file : LogFile) (now size : Nat) : Prop :=
  file.delta now ≤ 0xffff ∧ file.dataPtr + 4 + size ≤ file.blockDataSize

def regenerated (file : LogFile) (blockGeneration : Nat) : LogFile := { file with blockGeneration }

@[simp] theorem begun_dataPtr (file : LogFile) (now : Nat) : (file.begun now).dataPtr = file.dataPtr := by
  unfold begun
  split <;> rfl

@[simp] theorem begun_blockDataSize (file : LogFile) (now : Nat) :
    (file.begun now).blockDataSize = file.blockDataSize := by
  unfold begun
  split <;> rfl

theorem begun_used (used : file.dataPtr ≠ 0) : file.begun now = file := by
  rw [begun, if_neg used]

theorem Orderly.dataPtr_le (orderly : file.Orderly) : file.dataPtr ≤ file.blockDataSize := by
  obtain ⟨raws, holding⟩ := orderly.current
  exact holding.bound

theorem Orderly.newDataPtr (orderly : file.Orderly) (short : length < 256) :
    u32 (file.dataPtr + entryHeaderSize + length) = file.dataPtr + 4 + length := by
  have bound := orderly.dataPtr_le
  have small := orderly.small
  exact Nat.mod_eq_of_lt (by simp only [entryHeaderSize]; omega)

/-- An empty block takes any entry. -/
theorem Orderly.fits_empty (orderly : file.Orderly) (empty : file.dataPtr = 0) (now : Nat)
    (short : length < 256) : file.Fits now length := by
  have room := orderly.size
  have start : (file.begun now).block.timestamp = now := by rw [LogFile.begun, if_pos empty]
  refine ⟨?_, by omega⟩
  rw [delta, start, elapsed, Nat.add_sub_cancel_left]
  decide

theorem Orderly.appendTurn_fits (orderly : file.Orderly) (short : data.length < 256)
    (fits : file.Fits now data.length) (type : Nat) :
    file.appendTurn now type data =
      .ok (0, (file.begun now).stored ⟨type, file.delta now, data⟩, false) := by
  obtain ⟨soon, room⟩ := fits
  have forward : ¬ wentBack (file.delta now) := by
    rw [wentBack, decide_eq_true_eq]
    omega
  have next := orderly.newDataPtr short
  have length : (⟨type, file.delta now, data⟩ : RawEntry).bytes.length = 4 + data.length :=
    RawEntry.bytes_length _
  unfold appendTurn
  simp only [begun_dataPtr, begun_blockDataSize, next, ← delta_eq]
  rw [if_pos ⟨forward, by omega⟩, LogFile.stored, length, begun_dataPtr, Nat.add_assoc]
  simp only [RawEntry.bytes]

/-- Without room in the current block the buffers are swapped or the append fails. -/
theorem Orderly.appendTurn_full (orderly : file.Orderly) (short : data.length < 256)
    (full : ¬ file.Fits now data.length) (type : Nat) :
    file.dataPtr ≠ 0 ∧ ∃ blockGeneration,
      file.appendTurn now type data =
        if file.needsFlushing = 0 then .ok (0, (file.regenerated blockGeneration).swapped, true)
        else .ok (-1, file.regenerated blockGeneration, false) := by
  have used : file.dataPtr ≠ 0 := fun empty => full (orderly.fits_empty empty now short)
  have skipped : ¬ (¬ wentBack (file.delta now) ∧
      ¬ (file.delta now > 0xffff ∨ file.dataPtr + 4 + data.length > file.blockDataSize)) := by
    intro taken
    exact full ⟨by omega, by omega⟩
  have next := orderly.newDataPtr short
  have generation : ∃ blockGeneration, (if wentBack (file.delta now) then
      { file with blockGeneration := u32 (file.blockGeneration + 1) } else file) =
      file.regenerated blockGeneration := by
    split
    · exact ⟨_, rfl⟩
    · exact ⟨file.blockGeneration, rfl⟩
  obtain ⟨blockGeneration, generation⟩ := generation
  refine ⟨used, blockGeneration, ?_⟩
  unfold appendTurn
  simp only [begun_dataPtr, begun_blockDataSize, next, ← delta_eq]
  rw [if_neg skipped, begun_used used, generation]
  by_cases free : file.needsFlushing = 0
  · have done : (file.regenerated blockGeneration).requestFlush =
        .ok (0, (file.regenerated blockGeneration).swapped) := requestFlush_free used free
    rw [done, if_pos free]
    rfl
  · have done : (file.regenerated blockGeneration).requestFlush =
        .ok (-1, file.regenerated blockGeneration) := requestFlush_busy used free
    rw [done, if_neg free]
    rfl

theorem Orderly.regenerated (orderly : file.Orderly) (blockGeneration : Nat) :
    (file.regenerated blockGeneration).Orderly :=
  ⟨orderly.size, orderly.small, orderly.current, orderly.alternate, orderly.time⟩

/-- The stored difference gives the time of the append back. -/
theorem elapsed_add (clock : now < 18446744073709551616) (stamp : timestamp < 18446744073709551616) :
    u64 (timestamp + elapsed now timestamp) = now := by
  simp only [elapsed, u64]
  omega

/-- An entry that fits is the new last entry. -/
theorem Orderly.stores (orderly : file.Orderly) (typed : 1 ≤ type ∧ type < 256) (short : data.length < 256)
    (clock : now < 18446744073709551616) (fits : file.Fits now data.length) (written : List Block) :
    ((file.begun now).stored ⟨type, file.delta now, data⟩).Orderly ∧
      ((file.begun now).stored ⟨type, file.delta now, data⟩).contents written =
        file.contents written ++ [⟨type, now, data⟩] := by
  obtain ⟨soon, room⟩ := fits
  obtain ⟨started, stamp⟩ := orderly.begun clock
  have valid : RawEntry.Valid ⟨type, file.delta now, data⟩ := ⟨typed, by dsimp only; omega, short⟩
  have enough : (file.begun now).dataPtr + (⟨type, file.delta now, data⟩ : RawEntry).bytes.length ≤
      (file.begun now).blockDataSize := by
    rw [RawEntry.bytes_length, begun_dataPtr, begun_blockDataSize]
    exact Nat.add_assoc .. ▸ room
  refine ⟨started.stored valid enough stamp, ?_⟩
  rw [started.stored_contents valid enough, orderly.begun_contents, RawEntry.entry, delta,
    elapsed_add clock stamp]

@[simp] theorem stored_blockDataSize (file : LogFile) (raw : RawEntry) :
    (file.stored raw).blockDataSize = file.blockDataSize := rfl

@[simp] theorem swapped_blockDataSize (file : LogFile) : file.swapped.blockDataSize = file.blockDataSize := rfl

@[simp] theorem regenerated_blockDataSize (file : LogFile) (blockGeneration : Nat) :
    (file.regenerated blockGeneration).blockDataSize = file.blockDataSize := rfl

theorem appendLoop_done (turn : file.appendTurn now type data = .ok (res, next, false)) (turns : Nat) :
    appendLoop now type data (turns + 1) file = .ok (some (res, next)) := by
  rw [appendLoop, turn]
  rfl

theorem appendLoop_again (turn : file.appendTurn now type data = .ok (res, next, true)) (turns : Nat) :
    appendLoop now type data (turns + 1) file = appendLoop now type data turns next := by
  rw [appendLoop, turn]
  rfl

/-- What `jd_lstore_append` does to a mounted file, in at most two turns. -/
structure Appended (file : LogFile) (entry : LogEntry) (res : Int) (next : LogFile) : Prop where
  orderly : next.Orderly
  size : next.blockDataSize = file.blockDataSize
  contents : ∀ written, next.contents written = file.contents written ++ if res = 0 then [entry] else []
  failed : res ≠ 0 → next = file.regenerated next.blockGeneration

theorem Orderly.appendLoop_two (orderly : file.Orderly) (typed : 1 ≤ type ∧ type < 256)
    (short : data.length < 256) (clock : now < 18446744073709551616) :
    ∃ res next, appendLoop now type data 2 file = .ok (some (res, next)) ∧
      file.Appended ⟨type, now, data⟩ res next := by
  by_cases fits : file.Fits now data.length
  · refine ⟨0, _, appendLoop_done (orderly.appendTurn_fits short fits type) 1, ?_⟩
    exact {
      orderly := (orderly.stores typed short clock fits []).1
      size := by rw [stored_blockDataSize, begun_blockDataSize]
      contents := fun written => (orderly.stores typed short clock fits written).2
      failed := fun nonzero => absurd rfl nonzero }
  · obtain ⟨used, blockGeneration, turn⟩ := orderly.appendTurn_full short fits type
    by_cases free : file.needsFlushing = 0
    · -- the other buffer is empty, so the second turn stores the entry there
      rw [if_pos free] at turn
      have renewed := (orderly.regenerated blockGeneration).swapped free
      have second := renewed.fits_empty rfl now short
      have contents (written : List Block) :=
        (orderly.regenerated blockGeneration).swapped_contents free written
      refine ⟨0, _, (appendLoop_again turn 1).trans
        (appendLoop_done (renewed.appendTurn_fits short second type) 0), ?_⟩
      exact {
        orderly := (renewed.stores typed short clock second []).1
        size := by
          rw [stored_blockDataSize, begun_blockDataSize, swapped_blockDataSize, regenerated_blockDataSize]
        contents := fun written => by
          rw [(renewed.stores typed short clock second written).2, contents]
          rfl
        failed := fun nonzero => absurd rfl nonzero }
    · rw [if_neg free] at turn
      refine ⟨-1, _, appendLoop_done turn 1, ?_⟩
      exact {
        orderly := orderly.regenerated blockGeneration
        size := regenerated_blockDataSize file blockGeneration
        contents := fun written => (List.append_nil _).symm
        failed := fun _ => rfl }

theorem appendLoop_more (done : appendLoop now type data turns file = .ok (some result)) (more : Nat) :
    appendLoop now type data (turns + more) file = .ok (some result) := by
  induction turns generalizing file with
  | zero => cases done
  | succ turns ih =>
    rw [Nat.succ_add]
    rw [appendLoop] at done
    obtain ⟨⟨res, next, again⟩, turn, rest⟩ := ok_of_bind done
    cases again with
    | false =>
      rw [appendLoop_done turn]
      exact rest
    | true =>
      rw [appendLoop_again turn]
      exact ih rest

theorem Orderly.append (orderly : file.Orderly) (typed : 1 ≤ type ∧ type < 256) (short : data.length < 256)
    (clock : now < 18446744073709551616) :
    ∃ res next, jdLstoreAppend now type data 2 file = .ok (some (res, next)) ∧
      file.Appended ⟨type, now, data⟩ res next := by
  rw [jdLstoreAppend, if_neg (by omega), if_neg (by omega)]
  exact orderly.appendLoop_two typed short clock

/-- More turns change nothing. -/
theorem Orderly.appended (orderly : file.Orderly) (typed : 1 ≤ type ∧ type < 256)
    (short : data.length < 256) (clock : now < 18446744073709551616)
    (done : jdLstoreAppend now type data turns file = .ok (some (res, next))) :
    file.Appended ⟨type, now, data⟩ res next := by
  rw [jdLstoreAppend, if_neg (by omega), if_neg (by omega)] at done
  obtain ⟨first, other, two, appended⟩ := orderly.appendLoop_two typed short clock
  have same := (appendLoop_more done 2).symm.trans (Nat.add_comm 2 turns ▸ appendLoop_more two turns)
  cases same
  exact appended

end LogFile

end Jacdac
