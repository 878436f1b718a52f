import Jacdac.Log.Mount
import Jacdac.Log.StoreRun

/-! The search of `find_boundry`: which blocks it reads, and where it ends. -/

namespace Jacdac

namespace LogFile

/-- The values of `l` and `r` in the turns of the loop. -/
def searchWindows (newer : Nat → Bool) (l r : Nat) : List (Nat × Nat) :=
  if l < r then
    let m := (l + r) / 2 + 1
    (l, r) :: if newer m then searchWindows newer m r else searchWindows newer l (m - 1)
  else []
termination_by r - l

/-- The block that is read in a turn. -/
def probe (window : Nat × Nat) : Nat := (window.1 + window.2) / 2 + 1

/-- `block_lt` of the first block and another one, as `find_boundry` reads them. -/
def newer (file : LogFile) (disk : LogDisk) (index : Nat) : Bool :=
  (file.readBlock disk 0).lt (file.readBlock disk index)

/-- The indices of all blocks that `find_boundry` reads when the first one is valid. -/
def boundryReads (file : LogFile) (disk : LogDisk) : List Nat :=
  0 :: (searchWindows (file.newer disk) 0 (file.dataBlocks - 1)).map probe ++
    [searchBoundry (file.newer disk) 0 (file.dataBlocks - 1)]

/-- Every turn keeps its window inside the first one. -/
theorem searchWindows_inside (newer : Nat → Bool) (l r : Nat) :
    ∀ window ∈ searchWindows newer l r, l ≤ window.1 ∧ window.1 < window.2 ∧ window.2 ≤ r := by
  fun_induction searchWindows newer l r with
  | case1 l r more m ih ih' =>
    intro window member
    rcases List.mem_cons.mp member with rfl | later
    · exact ⟨Nat.le_refl _, more, Nat.le_refl _⟩
    · split at later
      · obtain ⟨low, open_, high⟩ := ih window later
        exact ⟨by omega, open_, high⟩
      · obtain ⟨low, open_, high⟩ := ih' window later
        exact ⟨low, open_, by omega⟩
  | case2 l r done =>
    intro window never
    cases never

/-- The search looks at nothing but the probes of its turns. -/
theorem searchBoundry_congr {newer other : Nat → Bool} (l r : Nat)
    (same : ∀ window ∈ searchWindows newer l r, other (probe window) = newer (probe window)) :
    searchBoundry other l r = searchBoundry newer l r := by
  fun_induction searchWindows newer l r with
  | case1 l r more m ih ih' =>
    have here : other m = newer m := same (l, r) List.mem_cons_self
    rw [searchBoundry, searchBoundry.eq_def newer l r, if_pos more, if_pos more]
    change (if other m = true then searchBoundry other m r else searchBoundry other l (m - 1)) =
      if newer m = true then searchBoundry newer m r else searchBoundry newer l (m - 1)
    rw [here]
    cases value : newer m with
    | true => exact ih fun window member => same window (List.mem_cons_of_mem _ (by rwa [value]))
    | false => exact ih' fun window member => same window (List.mem_cons_of_mem _ (by rwa [value]))
  | case2 l r done => rw [searchBoundry, searchBoundry.eq_def newer l r, if_neg done, if_neg done]

/-- What `find_boundry` does depends on the blocks at these indices only. -/
theorem findBoundry_congr {file : LogFile} {disk other : LogDisk}
    (same : ∀ index ∈ file.boundryReads disk, file.readBlock other index = file.readBlock disk index) :
    file.findBoundry other = file.findBoundry disk := by
  have start := same 0 (List.mem_cons_self ..)
  have search : searchBoundry (file.newer other) 0 (file.dataBlocks - 1) =
      searchBoundry (file.newer disk) 0 (file.dataBlocks - 1) := by
    refine searchBoundry_congr _ _ fun window member => ?_
    have probed := same (probe window)
      (List.mem_append_left _ (List.mem_cons_of_mem _ (List.mem_map.mpr ⟨window, member, rfl⟩)))
    rw [newer, newer, start, probed]
  have last := same _ (List.mem_append_right _ (List.mem_singleton.mpr rfl))
  rw [← search] at last
  unfold newer at search last
  rw [findBoundry, findBoundry, start]
  rw [start] at search last
  simp only [search] at last ⊢
  rw [last]

/-- The block read in a turn lies in its window. -/
theorem probe_inside {window : Nat × Nat} (open_ : window.1 < window.2) : window.1 < probe window ∧ probe window ≤ window.2 := by
  unfold probe
  omega

end LogFile

/-- The blocks newer than the first one are those up to `boundary`, which is what the search is for. -/
structure LogFile.Bounded (file : LogFile) (disk : LogDisk) (boundary : Nat) : Prop where
  valid : (file.readBlock disk 0).magic0 ≠ 0
  inside : boundary < file.dataBlocks
  order : ∀ index, index < file.dataBlocks → (file.newer disk index = true ↔ 1 ≤ index ∧ index ≤ boundary)

theorem LogFile.Bounded.search {file : LogFile} {disk : LogDisk} (bounded : file.Bounded disk boundary) :
    searchBoundry (file.newer disk) 0 (file.dataBlocks - 1) = boundary := by
  have inside := bounded.inside
  refine searchBoundry_eq _ (Nat.zero_le _) (by omega) ?_ ?_
  · intro index positive below
    exact (bounded.order index (by omega)).mpr ⟨positive, below⟩
  · intro index above below
    exact Bool.eq_false_iff.mpr fun newer => by
      have limit := ((bounded.order index (by omega)).mp newer).2
      omega

theorem LogFile.Bounded.findBoundry {file : LogFile} {disk : LogDisk} (bounded : file.Bounded disk boundary) :
    file.findBoundry disk =
      if u32 ((file.readBlock disk boundary).generation + 1) < 0xffffffff then
        .ok { file with
          blockGeneration := u32 ((file.readBlock disk boundary).generation + 1)
          blockPtr := if boundary + 1 = file.blockPtr then 0 else boundary + 1 }
      else .error .generation := by
  have inside := bounded.inside
  have found : searchBoundry (fun index => (file.readBlock disk 0).lt (file.readBlock disk index)) 0
      (file.dataBlocks - 1) = boundary := bounded.search
  rw [LogFile.findBoundry, if_neg (by omega)]
  simp only [if_neg bounded.valid, found]

/-- The search ends at the last block newer than the first, for every number of blocks and every boundary; it reads only
blocks of the file, and no sum of its two indices reaches twice the number of blocks. The next generation is one above
the generation there, unless the assertion on it fails. -/
theorem boundary_search {file : LogFile} {disk : LogDisk} (bounded : file.Bounded disk boundary) :
    LogFile.searchBoundry (file.newer disk) 0 (file.dataBlocks - 1) = boundary ∧
      (∀ index ∈ file.boundryReads disk, index < file.dataBlocks) ∧
      (∀ window ∈ LogFile.searchWindows (file.newer disk) 0 (file.dataBlocks - 1),
        window.1 < window.2 ∧ window.2 < file.dataBlocks ∧ window.1 + window.2 < 2 * file.dataBlocks) ∧
      ((file.readBlock disk boundary).generation < 0xfffffffe → ∃ next, file.findBoundry disk = .ok next ∧
        next.blockGeneration = (file.readBlock disk boundary).generation + 1 ∧
        next.blockPtr = if boundary + 1 = file.blockPtr then 0 else boundary + 1) ∧
      ((file.readBlock disk boundary).generation = 0xfffffffe → file.findBoundry disk = .error .generation) := by
  have inside := bounded.inside
  have windows : ∀ window ∈ LogFile.searchWindows (file.newer disk) 0 (file.dataBlocks - 1),
      window.1 < window.2 ∧ window.2 < file.dataBlocks ∧ window.1 + window.2 < 2 * file.dataBlocks := by
    intro window member
    obtain ⟨_, open_, high⟩ := LogFile.searchWindows_inside _ 0 (file.dataBlocks - 1) window member
    exact ⟨open_, by omega, by omega⟩
  refine ⟨bounded.search, ?_, windows, ?_, ?_⟩
  · intro index read
    rw [LogFile.boundryReads, bounded.search] at read
    rcases List.mem_append.mp read with early | last
    · rcases List.mem_cons.mp early with rfl | turn
      · omega
      · obtain ⟨window, member, rfl⟩ := List.mem_map.mp turn
        obtain ⟨open_, high, _⟩ := windows window member
        have reached := (LogFile.probe_inside open_).2
        omega
    · rw [List.mem_singleton.mp last]
      exact inside
  · intro small
    have next : u32 ((file.readBlock disk boundary).generation + 1) = (file.readBlock disk boundary).generation + 1 :=
      Nat.mod_eq_of_lt (by omega)
    rw [bounded.findBoundry, next, if_pos (by omega)]
    exact ⟨_, rfl, rfl, rfl⟩
  · intro last
    rw [bounded.findBoundry, last]
    rfl

/-- A block of the newest generation that there is. -/
def lastBlock : Block := (⟨7, 0xfffffffe, 0, fun _ => 0, 7, 0⟩ : Block).withCrc newFile.blockDataSize

/-- A disk full of such blocks. -/
def lastDisk : LogDisk where
  header := LogFile.newHeader 2048 0 7 7
  slots _ := lastBlock

private theorem lastDisk_read (index : Nat) : newFile.readBlock lastDisk index = lastBlock :=
  LogFile.readBlock_valid (LogFile.withCrc_valid rfl rfl)

private theorem lastDisk_bounded : newFile.Bounded lastDisk 0 where
  valid := by
    rw [lastDisk_read]
    decide
  inside := by decide
  order index _ := by
    rw [LogFile.newer, lastDisk_read, lastDisk_read]
    have never : lastBlock.lt lastBlock = false := by decide
    rw [never]
    constructor
    · intro impossible
      cases impossible
    · intro both
      omega

/-- The new file as `mount_log` has it before the search. -/
def openedFile : LogFile := LogFile.opened 2048 9 (LogFile.newHeader 2048 0 7 7)

def timedDisk (timestamp : Nat → Nat) : LogDisk where
  header := LogFile.newHeader 2048 0 7 7
  slots slot := (⟨7, 1, timestamp slot, fun _ => 0, 7, 0⟩ : Block).withCrc openedFile.blockDataSize

theorem timedDisk_bounded {timestamp : Nat → Nat} (inside : boundary < 3)
    (order : ∀ index, index < 3 → (timestamp 0 < timestamp index ↔ 1 ≤ index ∧ index ≤ boundary)) :
    openedFile.Bounded (timedDisk timestamp) boundary := by
  have read (index : Nat) : openedFile.readBlock (timedDisk timestamp) index = (timedDisk timestamp).slots index :=
    LogFile.readBlock_valid (LogFile.withCrc_valid rfl rfl)
  refine ⟨?_, inside, fun index within => ?_⟩
  · rw [read]
    exact nofun
  · rw [← order index within, LogFile.newer, read, read]
    simp [Block.lt, timedDisk, Block.withCrc]

/-- Three blocks, of which the second is the newest. -/
theorem boundary_search_first :
    LogFile.searchBoundry (openedFile.newer (timedDisk fun slot => [5, 6, 4].getD slot 0)) 0 2 = 1 ∧
      ∀ index ∈ openedFile.boundryReads (timedDisk fun slot => [5, 6, 4].getD slot 0), index < 3 := by
  have bounded : openedFile.Bounded (timedDisk fun slot => [5, 6, 4].getD slot 0) 1 :=
    timedDisk_bounded (by decide) (by decide)
  exact ⟨(boundary_search bounded).1, (boundary_search bounded).2.1⟩

/-- There the next generation fails the assertion. -/
theorem boundary_generation_refused :
    ¬ ∀ (file : LogFile) disk boundary, file.Bounded disk boundary → ∃ next, file.findBoundry disk = .ok next ∧
      next.blockGeneration = (file.readBlock disk boundary).generation + 1 := by
  intro becomes
  obtain ⟨next, found, _⟩ := becomes newFile lastDisk 0 lastDisk_bounded
  rw [lastDisk_bounded.findBoundry, lastDisk_read] at found
  cases found

end Jacdac
