import Jacdac.Log.File
import Mathlib.Tactic.IntervalCases

/-! Sessions on one log file, and where the next mount resumes. -/

namespace Jacdac

/-- A file that `mount_log` formatted: its size, the block shift asked for and
what `random_magic` returned. It has room for at least one data block. -/
structure LogConfig where
  size : Nat
  blShift : Nat
  random0 : Nat
  random1 : Nat
  small : size < 4294967296
  shift : blShift ≤ 3
  room : 2 ≤ size / 2 ^ (blShift + sectorShift)
  magic : random0 ≠ 0

namespace LogConfig

variable (config : LogConfig)

def dataBlocks : Nat := config.size / 2 ^ (config.blShift + sectorShift) - 1

/-- The header as first written. -/
def header : MainHeader :=
  LogFile.newHeader config.size config.blShift config.random0 config.random1

/-- `block_valid` under the file's magic numbers. -/
def valid (block : Block) : Bool :=
  (LogFile.opened config.size (config.blShift + sectorShift) config.header).blockValid block

def mount (disk : LogDisk) : Except LogFault (LogFile × LogDisk) :=
  LogFile.mountLog config.size config.blShift config.random0 config.random1 disk

end LogConfig

/-- A file over its sessions: the mounted file, if any, the slot and content of
the block completed last, and the block written last in this session. -/
structure LogState where
  disk : LogDisk
  file : Option LogFile
  last : Option (Nat × Block)
  recent : Option Block

/-- `disk` with one data block replaced. -/
def LogDisk.store (disk : LogDisk) (slot : Nat) (block : Block) : LogDisk :=
  { disk with slots := fun other => if other = slot then block else disk.slots other }

/-- The flush buffer as `jd_lstore_append` filled it. -/
def LogFile.filled (file : LogFile) (generation timestamp : Nat) (data : Memory) : LogFile :=
  { file with blockAlt := { file.blockAlt with generation, timestamp, data } }

/-- Within a session timestamps increase, and generations do not decrease. -/
def Follows (file : LogFile) (recent : Option Block) (generation timestamp : Nat) : Prop :=
  match recent with
  | none => file.blockGeneration ≤ generation
  | some block => block.generation ≤ generation ∧ block.timestamp < timestamp

/-- The next mount can tell where to resume: no block is valid, or the block
completed last is not in the last slot and its generation can still grow. -/
def Resumable (config : LogConfig) (state : LogState) : Prop :=
  (∀ slot < config.dataBlocks, config.valid (state.disk.slots slot) = false) ∨
  ∃ slot block, state.last = some (slot, block) ∧ slot + 1 < config.dataBlocks ∧
    block.generation + 1 < 0xffffffff

def nextSlot (count : Nat) : Option (Nat × Block) → Nat
  | none => 0
  | some (slot, _) => (slot + 1) % count

/-- What a mount should leave: the slot after the block completed last, and a
generation above every valid block. -/
def MountResumes (config : LogConfig) (state : LogState) : Prop :=
  ∃ file disk, config.mount state.disk = .ok (file, disk) ∧ file.blockPtr < config.dataBlocks ∧
    file.blockPtr = nextSlot config.dataBlocks state.last ∧
    ∀ slot < config.dataBlocks, config.valid (state.disk.slots slot) = true →
      (state.disk.slots slot).generation < file.blockGeneration

/-- Any number of sessions. Every mount after the first finds a resumable file. -/
inductive LogRun (config : LogConfig) : LogState → Prop where
  | format (blank : validateHeader config.size disk.header = none)
      (unused : ∀ slot, config.valid (disk.slots slot) = false)
      (mounted : config.mount disk = .ok (file, next)) :
      LogRun config ⟨next, some file, none, none⟩
  | write (run : LogRun config ⟨disk, some file, last, recent⟩) (generation timestamp : Nat)
      (data : Memory) (follows : Follows file recent generation timestamp)
      (written : (file.filled generation timestamp data).flushToDiskCore disk = .ok (after, next)) :
      LogRun config ⟨next, some after,
        some (file.blockPtr, (file.filled generation timestamp data).flushedBlock),
        some (file.filled generation timestamp data).flushedBlock⟩
  | tear (run : LogRun config ⟨disk, some file, last, recent⟩) (torn : Block)
      (inside : file.blockPtr < file.dataBlocks) (invalid : config.valid torn = false) :
      LogRun config ⟨disk.store file.blockPtr torn, none, last, none⟩
  | off (run : LogRun config ⟨disk, file, last, recent⟩) : LogRun config ⟨disk, none, last, none⟩
  | mount (run : LogRun config ⟨disk, none, last, none⟩)
      (resumable : Resumable config ⟨disk, none, last, none⟩)
      (mounted : config.mount disk = .ok (file, next)) :
      LogRun config ⟨next, some file, last, none⟩

/-- The search stops at the last index that is still newer than the first block. -/
theorem LogFile.searchBoundry_eq (newer : Nat → Bool) {l r boundary : Nat} (lower : l ≤ boundary)
    (upper : boundary ≤ r) (before : ∀ m, 0 < m → m ≤ boundary → newer m = true)
    (after : ∀ m, boundary < m → m ≤ r → newer m = false) :
    searchBoundry newer l r = boundary := by
  fun_induction searchBoundry newer l r with
  | case1 l r more m found ih =>
    have inside : m ≤ boundary := by
      by_contra outside
      rw [after m (by omega) (by omega)] at found
      cases found
    exact ih inside upper after
  | case2 l r more m missed ih =>
    have outside : boundary < m := by
      by_contra inside
      exact missed (before m (by omega) (by omega))
    exact ih lower (by omega) fun other above below => after other above (by omega)
  | case3 l r done => omega

theorem shiftFor_pow (small : shift ≤ 3) : shiftFor (2 ^ shift) = shift := by
  interval_cases shift <;> decide

namespace LogConfig

variable {config : LogConfig}

def Formatted (config : LogConfig) (disk : LogDisk) : Prop :=
  ∃ count, disk.header = { config.header with numRewrites := count }

theorem dataBlocks_pos (config : LogConfig) : 0 < config.dataBlocks := by
  have room := config.room
  unfold dataBlocks
  omega

theorem Formatted.validates (formatted : config.Formatted disk) :
    validateHeader config.size disk.header = some (config.blShift + sectorShift) := by
  obtain ⟨count, header⟩ := formatted
  have small := config.small
  have eight : 2 ^ config.blShift ≤ 8 := Nat.pow_le_pow_right (by decide) config.shift
  have sectors : 2 ^ config.blShift * (config.size / 2 ^ (config.blShift + sectorShift)) ≤ config.size / 512 := by
    rw [Nat.add_comm, Nat.pow_add, ← Nat.div_div_eq_div_mul]
    exact Nat.mul_div_le _ _
  have fits : ¬ u32 (2 ^ config.blShift * (config.size / 2 ^ (config.blShift + sectorShift))) > config.size / 512 := by
    rw [u32_of_lt (by omega)]
    omega
  rw [header]
  simp only [validateHeader, LogConfig.header, LogFile.newHeader, and_self, ↓reduceIte, ne_eq,
    not_true_eq_false, fits, shiftFor_pow config.shift, or_self, Nat.not_lt.mpr eight]

/-- The file with the properties from a formatted header. -/
def base (config : LogConfig) (disk : LogDisk) : LogFile :=
  LogFile.opened config.size (config.blShift + sectorShift) disk.header

theorem mount_eq (formatted : config.Formatted disk) :
    config.mount disk = (LogFile.mountWith config.size (config.blShift + sectorShift) disk).map (·, disk) := by
  rw [mount, LogFile.mountLog, formatted.validates]

theorem Formatted.base_dataBlocks (formatted : config.Formatted disk) :
    (config.base disk).dataBlocks = config.dataBlocks := by
  obtain ⟨count, header⟩ := formatted
  have small := config.small
  have room := config.room
  have bound : config.size / 2 ^ (config.blShift + sectorShift) ≤ config.size := Nat.div_le_self ..
  simp only [base, header, LogFile.opened, LogConfig.header, LogFile.newHeader, u32, dataBlocks]
  omega

theorem Formatted.base_valid (formatted : config.Formatted disk) (block : Block) :
    (config.base disk).blockValid block = config.valid block := by
  obtain ⟨count, header⟩ := formatted
  rw [base, header]
  rfl

end LogConfig

/-- The block completed last is in slot `newest`: slots up to there are valid in
order, and what is valid beyond is older than the first block. -/
structure Filled (valid : Block → Bool) (slots : Nat → Block) (count newest : Nat) : Prop where
  inside : newest < count
  good : ∀ slot ≤ newest, valid (slots slot) = true
  increasing : ∀ first second, first < second → second ≤ newest →
    (slots first).lt (slots second) = true
  older : ∀ slot, newest < slot → slot < count → valid (slots slot) = true →
    (slots slot).lt (slots 0) = true

theorem Filled.newest_ge {valid : Block → Bool} {slots : Nat → Block} {slot : Nat}
    (filled : Filled valid slots count newest) (inside : slot < count)
    (good : valid (slots slot) = true) :
    slot = newest ∨ (slots slot).lt (slots newest) = true := by
  rcases Nat.lt_trichotomy slot newest with before | same | after
  · exact .inr (filled.increasing slot newest before (Nat.le_refl _))
  · exact .inl same
  · have older := filled.older slot after inside good
    by_cases first : newest = 0
    · subst first
      exact .inr older
    · exact .inr (Block.lt_trans older (filled.increasing 0 newest (by omega) (Nat.le_refl _)))

theorem LogFile.readBlock_valid {file : LogFile} (good : file.blockValid (disk.slots slot) = true) :
    file.readBlock disk slot = disk.slots slot :=
  if_pos good

theorem LogFile.withCrc_valid {file : LogFile} {block : Block} (magic0 : block.magic0 = file.blockMagic0)
    (magic1 : block.magic1 = file.blockMagic1) : file.blockValid (block.withCrc file.blockDataSize) = true := by
  rw [blockValid, decide_eq_true_eq]
  exact ⟨magic0, magic1, rfl⟩

theorem LogFile.readBlock_invalid {file : LogFile} (bad : file.blockValid (disk.slots slot) = false) :
    file.readBlock disk slot =
      { disk.slots slot with magic0 := 0, generation := 0, timestamp := 0 } :=
  if_neg (by simp [bad])

/-- Nothing is newer than a zero header. -/
theorem Block.lt_zero (block other : Block) :
    block.lt { other with magic0 := 0, generation := 0, timestamp := 0 } = false := by
  simp [Block.lt]

section Search

variable {file : LogFile} {disk : LogDisk}

theorem LogFile.findBoundry_new (some : file.dataBlocks ≠ 0)
    (bad : file.blockValid (disk.slots 0) = false) :
    file.findBoundry disk = .ok { file with blockGeneration := 1, blockPtr := 0 } := by
  rw [findBoundry, if_neg some, readBlock_invalid bad, if_pos rfl]

theorem LogFile.findBoundry_filled (magic : file.blockMagic0 ≠ 0) (start : file.blockPtr = 0)
    (filled : Filled file.blockValid disk.slots file.dataBlocks newest) :
    file.findBoundry disk =
      if u32 ((disk.slots newest).generation + 1) < 0xffffffff then
        .ok { file with
          blockGeneration := u32 ((disk.slots newest).generation + 1)
          blockPtr := newest + 1 }
      else .error .generation := by
  have inside := filled.inside
  have first := filled.good 0 (Nat.zero_le _)
  have nonzero : (disk.slots 0).magic0 ≠ 0 := by
    have parts := first
    simp only [blockValid, decide_eq_true_eq] at parts
    rwa [parts.1]
  have boundary : searchBoundry (fun m => (disk.slots 0).lt (file.readBlock disk m)) 0
      (file.dataBlocks - 1) = newest := by
    refine searchBoundry_eq _ (Nat.zero_le _) (by omega) ?_ ?_
    · intro m positive below
      simp only [readBlock_valid (filled.good m below)]
      exact filled.increasing 0 m positive below
    · intro m above below
      by_cases good : file.blockValid (disk.slots m) = true
      · simp only [readBlock_valid good]
        exact Block.lt_asymm (filled.older m above (by omega) good)
      · simp only [readBlock_invalid (Bool.eq_false_iff.mpr good), Block.lt_zero]
  rw [findBoundry, if_neg (by omega)]
  simp only [readBlock_valid first, if_neg nonzero, boundary,
    readBlock_valid (filled.good newest (Nat.le_refl _)), start, Nat.add_one_ne_zero, ↓reduceIte]

end Search

end Jacdac
