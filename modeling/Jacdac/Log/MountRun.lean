import Jacdac.Log.Mount

namespace Jacdac

section

variable {config : LogConfig}

/-- The mounted file in terms of what the search found. -/
def LogConfig.mountedAt (config : LogConfig) (disk : LogDisk) (blockGeneration blockPtr : Nat) :
    LogFile :=
  let file := { config.base disk with blockGeneration, blockPtr }
  { file with block := file.emptyBlock, blockAlt := file.emptyBlock }

/-- What every mounted file takes from its header. -/
structure Shaped (config : LogConfig) (file : LogFile) : Prop where
  dataBlocks : file.dataBlocks = config.dataBlocks
  shift : file.blockShift = config.blShift + sectorShift
  magic0 : file.blockAlt.magic0 = config.random0
  magic1 : file.blockAlt.magic1 = config.random1

theorem mountedAt_shaped (formatted : config.Formatted disk) :
    Shaped config (config.mountedAt disk generation ptr) := by
  have blocks := formatted.base_dataBlocks
  obtain ⟨count, header⟩ := formatted
  refine ⟨blocks, rfl, ?_, ?_⟩
  · simp only [LogConfig.mountedAt, LogFile.emptyBlock, LogConfig.base, LogFile.opened, header]
    rfl
  · simp only [LogConfig.mountedAt, LogFile.emptyBlock, LogConfig.base, LogFile.opened, header]
    rfl

theorem base_magic (formatted : config.Formatted disk) : (config.base disk).blockMagic0 ≠ 0 := by
  obtain ⟨count, header⟩ := formatted
  rw [LogConfig.base, header]
  exact config.magic

theorem mount_new (formatted : config.Formatted disk) (bad : config.valid (disk.slots 0) = false) :
    config.mount disk = .ok (config.mountedAt disk 1 0, disk) := by
  have blocks := formatted.base_dataBlocks
  have some := config.dataBlocks_pos
  rw [LogConfig.mount_eq formatted, LogFile.mountWith, ← LogConfig.base,
    LogFile.findBoundry_new (by omega) (formatted.base_valid _ ▸ bad)]
  rfl

theorem mount_filled (formatted : config.Formatted disk)
    (filled : Filled config.valid disk.slots config.dataBlocks newest) :
    config.mount disk =
      if u32 ((disk.slots newest).generation + 1) < 0xffffffff then
        .ok (config.mountedAt disk (u32 ((disk.slots newest).generation + 1)) (newest + 1), disk)
      else .error .generation := by
  have same : (config.base disk).blockValid = config.valid := funext formatted.base_valid
  have blocks := formatted.base_dataBlocks
  rw [← same, ← blocks] at filled
  rw [LogConfig.mount_eq formatted, LogFile.mountWith, ← LogConfig.base,
    LogFile.findBoundry_filled (base_magic formatted) rfl filled]
  split
  · rfl
  · rfl

/-- No data block is valid. -/
def Blank (config : LogConfig) (slots : Nat → Block) : Prop :=
  ∀ slot < config.dataBlocks, config.valid (slots slot) = false

/-- The block completed last, for a file without a valid block. -/
def Unknown (config : LogConfig) (last : Option (Nat × Block)) : Prop :=
  last = none ∨ config.dataBlocks = 1 ∧ ∃ block, last = some (0, block)

/-- Every valid block comes from a session, and sessions start with generation 1. -/
def Positive (config : LogConfig) (slots : Nat → Block) : Prop :=
  ∀ slot < config.dataBlocks, config.valid (slots slot) = true → 1 ≤ (slots slot).generation

/-- The next block of the session will be newer than all there are. -/
def Above (config : LogConfig) (slots : Nat → Block) (file : LogFile) : Option Block → Prop
  | none => 1 ≤ file.blockGeneration ∧ ∀ slot < config.dataBlocks, config.valid (slots slot) = true →
      (slots slot).generation < file.blockGeneration
  | some block => 1 ≤ block.generation ∧ ∀ slot < config.dataBlocks,
      config.valid (slots slot) = true → slots slot = block ∨ (slots slot).lt block = true

/-- A mounted file. -/
structure Up (config : LogConfig) (disk : LogDisk) (file : LogFile) (last : Option (Nat × Block))
    (recent : Option Block) : Prop where
  formatted : config.Formatted disk
  shaped : Shaped config file
  place : (Blank config disk.slots ∧ file.blockPtr = 0 ∧ Unknown config last) ∨
    ∃ newest, Filled config.valid disk.slots config.dataBlocks newest ∧
      file.blockPtr = (newest + 1) % config.dataBlocks ∧ last = some (newest, disk.slots newest)
  positive : Positive config disk.slots
  above : Above config disk.slots file recent

/-- What a power loss leaves; in the last case the first block is torn. -/
inductive Down (config : LogConfig) (disk : LogDisk) (last : Option (Nat × Block)) : Prop where
  | blank (blank : Blank config disk.slots) (unknown : Unknown config last)
  | filled (newest : Nat) (filled : Filled config.valid disk.slots config.dataBlocks newest)
      (same : last = some (newest, disk.slots newest))
  | torn (block : Block) (more : 1 < config.dataBlocks) (first : config.valid (disk.slots 0) = false)
      (second : config.valid (disk.slots 1) = true) (same : last = some (config.dataBlocks - 1, block))

def LogState.Sound (config : LogConfig) (state : LogState) : Prop :=
  match state.file with
  | some file => Up config state.disk file state.last state.recent
  | none => config.Formatted state.disk ∧ Positive config state.disk.slots ∧
      Down config state.disk state.last

theorem Up.blockPtr_lt (up : Up config disk file last recent) : file.blockPtr < file.dataBlocks := by
  have some := config.dataBlocks_pos
  rw [up.shaped.dataBlocks]
  rcases up.place with ⟨_, start, _⟩ | ⟨newest, _, next, _⟩
  · omega
  · rw [next]
    exact Nat.mod_lt _ some

theorem Up.down (up : Up config disk file last recent) : Down config disk last := by
  rcases up.place with ⟨blank, _, unknown⟩ | ⟨newest, filled, _, same⟩
  · exact .blank blank unknown
  · exact .filled newest filled same

@[simp] theorem flushedBlock_generation (file : LogFile) (generation timestamp : Nat) (data : Memory) :
    (file.filled generation timestamp data).flushedBlock.generation = generation := rfl

@[simp] theorem flushedBlock_timestamp (file : LogFile) (generation timestamp : Nat) (data : Memory) :
    (file.filled generation timestamp data).flushedBlock.timestamp = timestamp := rfl

/-- A block written by the session is valid. -/
theorem flushedBlock_valid (shaped : Shaped config file) (generation timestamp : Nat) (data : Memory) :
    config.valid (file.filled generation timestamp data).flushedBlock = true := by
  have size : (LogFile.opened config.size (config.blShift + sectorShift) config.header).blockDataSize =
      (file.filled generation timestamp data).blockDataSize := by
    simp only [LogFile.blockDataSize, LogFile.blockSize, LogFile.filled, LogFile.opened, shaped.shift]
  rw [LogConfig.valid, LogFile.flushedBlock, ← size]
  exact LogFile.withCrc_valid shaped.magic0 shaped.magic1

theorem Up.newer (up : Up config disk file last recent)
    (follows : Follows file recent generation timestamp) (data : Memory) (inside : slot < config.dataBlocks)
    (good : config.valid (disk.slots slot) = true) :
    (disk.slots slot).lt (file.filled generation timestamp data).flushedBlock = true := by
  have above := up.above
  cases recent with
  | none =>
    have grows := above.2 slot inside good
    simp only [Follows] at follows
    rw [Block.lt_iff, flushedBlock_generation]
    omega
  | some block =>
    have step : block.lt (file.filled generation timestamp data).flushedBlock = true := by
      simp only [Follows] at follows
      rw [Block.lt_iff, flushedBlock_generation, flushedBlock_timestamp]
      omega
    rcases above.2 slot inside good with same | older
    · rw [same]
      exact step
    · exact Block.lt_trans older step

/-- One slot more, or the first one again. -/
theorem Filled.step {valid : Block → Bool} {slots : Nat → Block}
    (filled : Filled valid slots count newest) (good : valid block = true)
    (newer : ∀ slot < count, valid (slots slot) = true → (slots slot).lt block = true) :
    Filled valid (fun slot => if slot = (newest + 1) % count then block else slots slot) count
      ((newest + 1) % count) := by
  have inside := filled.inside
  by_cases last : newest + 1 = count
  · rw [last, Nat.mod_self]
    exact
      { inside := by omega
        good := by
          intro slot first
          rw [if_pos (by omega)]
          exact good
        increasing := by
          intro first second before after
          omega
        older := by
          intro slot above below valid
          rw [if_neg (by omega)] at valid ⊢
          exact newer slot below valid }
  · rw [Nat.mod_eq_of_lt (by omega)]
    exact
      { inside := by omega
        good := by
          intro slot below
          split
          · exact good
          · exact filled.good slot (by omega)
        increasing := by
          intro first second before after
          rw [if_neg (by omega)]
          split
          · exact newer first (by omega) (filled.good first (by omega))
          · exact filled.increasing first second before (by omega)
        older := by
          intro slot above below valid
          rw [if_neg (by omega)] at valid ⊢
          exact filled.older slot (by omega) below valid }

theorem Blank.step {slots : Nat → Block} (blank : Blank config slots) (good : config.valid block = true) :
    Filled config.valid (fun slot => if slot = 0 then block else slots slot) config.dataBlocks 0 where
  inside := config.dataBlocks_pos
  good := by
    intro slot first
    rw [if_pos (by omega)]
    exact good
  increasing := by
    intro first second before after
    omega
  older := by
    intro slot above below valid
    rw [if_neg (by omega), blank slot below] at valid
    cases valid

theorem flushToDiskCore_cases (shaped : Shaped config file)
    (written : (file.filled generation timestamp data).flushToDiskCore disk = .ok (after, next)) :
    after.blockPtr = (file.blockPtr + 1) % config.dataBlocks ∧
    next.slots = (disk.store file.blockPtr (file.filled generation timestamp data).flushedBlock).slots ∧
    (∃ count, next.header = { disk.header with numRewrites := count }) ∧ Shaped config after := by
  have blocks := shaped.dataBlocks
  have same : (file.filled generation timestamp data).blockPtr = file.blockPtr := rfl
  have sameBlocks : (file.filled generation timestamp data).dataBlocks = file.dataBlocks := rfl
  simp only [LogFile.flushToDiskCore, same, sameBlocks] at written
  split at written
  · rename_i inside
    split at written
    · cases written
      have last : file.blockPtr + 1 = config.dataBlocks := by omega
      exact ⟨by rw [last, Nat.mod_self], rfl, ⟨_, rfl⟩, blocks, shaped.shift, shaped.magic0, shaped.magic1⟩
    · cases written
      have more : file.blockPtr + 1 < config.dataBlocks := by omega
      exact ⟨(Nat.mod_eq_of_lt more).symm, rfl, ⟨disk.header.numRewrites, rfl⟩, blocks, shaped.shift,
        shaped.magic0, shaped.magic1⟩
  · cases written

theorem Up.write (up : Up config disk file last recent)
    (follows : Follows file recent generation timestamp)
    (written : (file.filled generation timestamp data).flushToDiskCore disk = .ok (after, next)) :
    Up config next after (some (file.blockPtr, (file.filled generation timestamp data).flushedBlock))
      (some (file.filled generation timestamp data).flushedBlock) := by
  obtain ⟨ptr, slots, ⟨rewrites, header⟩, shaped⟩ := flushToDiskCore_cases up.shaped written
  have good := flushedBlock_valid up.shaped generation timestamp data
  have inside := up.blockPtr_lt
  rw [up.shaped.dataBlocks] at inside
  have newer (slot : Nat) (below : slot < config.dataBlocks)
      (valid : config.valid (disk.slots slot) = true) := up.newer follows data below valid
  have atLeast : 1 ≤ generation := by
    have above := up.above
    cases recent with
    | none => exact Nat.le_trans above.1 follows
    | some block => exact Nat.le_trans above.1 follows.1
  obtain ⟨count, formatted⟩ := up.formatted
  refine ⟨⟨rewrites, by rw [header, formatted]⟩, shaped, .inr ⟨file.blockPtr, ?_, ptr, ?_⟩, ?_, ?_⟩
  · rw [slots]
    rcases up.place with ⟨blank, start, _⟩ | ⟨newest, filled, next, _⟩
    · rw [start]
      exact blank.step good
    · rw [next]
      exact filled.step good newer
  · rw [slots, LogDisk.store]
    simp only [↓reduceIte]
  · intro slot below valid
    rw [slots, LogDisk.store] at valid ⊢
    simp only at valid ⊢
    split
    · exact atLeast
    · rename_i other
      rw [if_neg other] at valid
      exact up.positive slot below valid
  · refine ⟨atLeast, ?_⟩
    intro slot below valid
    rw [slots, LogDisk.store] at valid ⊢
    simp only at valid ⊢
    split
    · exact .inl rfl
    · rename_i other
      rw [if_neg other] at valid
      exact .inr (newer slot below valid)

/-- Power is lost while a block is written. -/
theorem Up.tear (up : Up config disk file last recent) (invalid : config.valid torn = false) :
    Positive config (disk.store file.blockPtr torn).slots ∧
      Down config (disk.store file.blockPtr torn) last := by
  constructor
  · intro slot below valid
    simp only [LogDisk.store] at valid ⊢
    split
    · rename_i same
      rw [if_pos same, invalid] at valid
      cases valid
    · rename_i other
      rw [if_neg other] at valid
      exact up.positive slot below valid
  · rcases up.place with ⟨blank, _, unknown⟩ | ⟨newest, filled, next, same⟩
    · refine .blank ?_ unknown
      intro slot below
      simp only [LogDisk.store]
      split
      · exact invalid
      · exact blank slot below
    · have inside := filled.inside
      by_cases wrapped : newest + 1 = config.dataBlocks
      · rw [wrapped, Nat.mod_self] at next
        by_cases single : config.dataBlocks = 1
        · refine .blank ?_ (.inr ⟨single, disk.slots newest, ?_⟩)
          · intro slot below
            simp only [LogDisk.store]
            rw [if_pos (by omega)]
            exact invalid
          · rw [same, show newest = 0 by omega]
        · refine .torn (disk.slots newest) (by omega) ?_ ?_ ?_
          · simp only [LogDisk.store, next, ↓reduceIte]
            exact invalid
          · simp only [LogDisk.store, next, Nat.one_ne_zero, ↓reduceIte]
            exact filled.good 1 (by omega)
          · rw [same, ← wrapped, Nat.add_sub_cancel]
      · rw [Nat.mod_eq_of_lt (by omega)] at next
        have kept (slot : Nat) (other : slot ≠ newest + 1) :
            (disk.store file.blockPtr torn).slots slot = disk.slots slot := if_neg (by omega)
        refine .filled newest ?_ (by rw [same, kept newest (by omega)])
        exact
          { inside := inside
            good := by
              intro slot below
              rw [kept slot (by omega)]
              exact filled.good slot below
            increasing := by
              intro first second before after
              rw [kept first (by omega), kept second (by omega)]
              exact filled.increasing first second before after
            older := by
              intro slot above below valid
              by_cases here : slot = newest + 1
              · rw [here, show (disk.store file.blockPtr torn).slots (newest + 1) = torn from
                  if_pos next.symm, invalid] at valid
                cases valid
              · rw [kept slot here] at valid ⊢
                rw [kept 0 (by omega)]
                exact filled.older slot above below valid }

/-- A mount of a file without a valid block. -/
theorem Up.fresh (formatted : config.Formatted disk) (blank : Blank config disk.slots)
    (unknown : Unknown config last) : Up config disk (config.mountedAt disk 1 0) last none where
  formatted := formatted
  shaped := mountedAt_shaped formatted
  place := .inl ⟨blank, rfl, unknown⟩
  positive := by
    intro slot below valid
    rw [blank slot below] at valid
    cases valid
  above := by
    refine ⟨Nat.le_refl 1, ?_⟩
    intro slot below valid
    rw [blank slot below] at valid
    cases valid

/-- No valid block has a higher generation than the one completed last. -/
theorem Filled.generation_le {slots : Nat → Block}
    (filled : Filled config.valid slots config.dataBlocks newest)
    (below : slot < config.dataBlocks) (valid : config.valid (slots slot) = true) :
    (slots slot).generation ≤ (slots newest).generation := by
  rcases filled.newest_ge below valid with rfl | older
  · exact Nat.le_refl _
  · rw [Block.lt_iff] at older
    omega

/-- A mount after the last completed block. -/
theorem Up.resumed (formatted : config.Formatted disk) (positive : Positive config disk.slots)
    (filled : Filled config.valid disk.slots config.dataBlocks newest)
    (more : newest + 1 < config.dataBlocks) (grows : (disk.slots newest).generation + 1 < 0xffffffff) :
    config.mount disk =
      .ok (config.mountedAt disk ((disk.slots newest).generation + 1) (newest + 1), disk) ∧
    Up config disk (config.mountedAt disk ((disk.slots newest).generation + 1) (newest + 1))
      (some (newest, disk.slots newest)) none := by
  have small : u32 ((disk.slots newest).generation + 1) = (disk.slots newest).generation + 1 :=
    u32_of_lt (by omega)
  constructor
  · rw [mount_filled formatted filled, small, if_pos grows]
  · exact
      { formatted := formatted
        shaped := mountedAt_shaped formatted
        place := .inr ⟨newest, filled, (Nat.mod_eq_of_lt more).symm, rfl⟩
        positive := positive
        above := ⟨Nat.le_add_left .., fun slot below valid =>
          Nat.lt_succ_of_le (filled.generation_le below valid)⟩ }

/-- The first mount writes the header. -/
theorem mount_formats (blank : validateHeader config.size disk.header = none) :
    config.mount disk = config.mount { disk with header := config.header } := by
  have formatted : config.Formatted { disk with header := config.header } := ⟨0, rfl⟩
  have written := formatted.validates
  rw [LogConfig.mount_eq formatted, LogConfig.mount, LogFile.mountLog, blank]
  simp only
  rw [show LogFile.newHeader config.size config.blShift config.random0 config.random1 = config.header from rfl,
    written]

theorem Unknown.next (unknown : Unknown config last) : 0 = nextSlot config.dataBlocks last := by
  rcases unknown with rfl | ⟨single, block, rfl⟩
  · rfl
  · rw [nextSlot, single]

theorem Resumable.up (formatted : config.Formatted disk) (positive : Positive config disk.slots)
    (down : Down config disk last) (resumable : Resumable config ⟨disk, none, last, none⟩) :
    ∃ file, config.mount disk = .ok (file, disk) ∧ Up config disk file last none ∧
      file.blockPtr = nextSlot config.dataBlocks last := by
  cases down with
  | blank blank unknown =>
    exact ⟨_, mount_new formatted (blank 0 config.dataBlocks_pos), .fresh formatted blank unknown,
      unknown.next⟩
  | filled newest filled same =>
    rcases resumable with none | ⟨slot, block, last, more, grows⟩
    · have bad := none 0 config.dataBlocks_pos
      rw [filled.good 0 (Nat.zero_le _)] at bad
      cases bad
    · have last := last.symm.trans same
      cases last
      obtain ⟨mounted, up⟩ := Up.resumed formatted positive filled more grows
      subst same
      exact ⟨_, mounted, up, (Nat.mod_eq_of_lt more).symm⟩
  | torn block more first second same =>
    rcases resumable with none | ⟨slot, block, last, below, _⟩
    · have bad := none 1 more
      rw [second] at bad
      cases bad
    · have last := last.symm.trans same
      cases last
      omega

/-- Everywhere else the mount goes wrong. -/
theorem Resumable.of_resumes (formatted : config.Formatted disk) (positive : Positive config disk.slots)
    (down : Down config disk last) (resumes : MountResumes config ⟨disk, none, last, none⟩) :
    Resumable config ⟨disk, none, last, none⟩ := by
  obtain ⟨file, after, mounted, inside, _, above⟩ := resumes
  cases down with
  | blank blank _ => exact .inl blank
  | filled newest filled same =>
    have bound := filled.inside
    simp only [mount_filled formatted filled] at mounted
    split at mounted
    · rename_i grows
      cases mounted
      have more : newest + 1 < config.dataBlocks := inside
      have higher := above newest (by omega) (filled.good newest (Nat.le_refl _))
      have small : (disk.slots newest).generation < u32 ((disk.slots newest).generation + 1) := higher
      refine .inr ⟨newest, _, same, more, ?_⟩
      unfold u32 at small grows
      omega
    · cases mounted
  | torn block more first second same =>
    simp only [mount_new formatted first] at mounted
    cases mounted
    have higher : (disk.slots 1).generation < 1 := above 1 more second
    have := positive 1 more second
    omega

theorem LogRun.sound (run : LogRun config state) : state.Sound config := by
  induction run with
  | @format disk file next blank unused mounted =>
    have formatted : config.Formatted { disk with header := config.header } := ⟨0, rfl⟩
    have bad : Blank config disk.slots := fun slot _ => unused slot
    rw [mount_formats blank, mount_new formatted (unused 0)] at mounted
    cases mounted
    exact .fresh formatted bad (.inl rfl)
  | write _ generation timestamp data follows written ih => exact Up.write ih follows written
  | @tear disk file last recent _ torn inside invalid ih =>
    obtain ⟨count, header⟩ := Up.formatted ih
    obtain ⟨positive, down⟩ := Up.tear ih invalid
    exact ⟨⟨count, header⟩, positive, down⟩
  | @off disk file last recent _ ih =>
    cases file with
    | none => exact ih
    | some file => exact ⟨Up.formatted ih, Up.positive ih, Up.down ih⟩
  | mount _ resumable mounted ih =>
    obtain ⟨formatted, positive, down⟩ := ih
    obtain ⟨_, same, up, _⟩ := resumable.up formatted positive down
    rw [same] at mounted
    cases mounted
    exact up

end

/-- In every run whose mounts all found a resumable file, the next mount leaves
the right slot and generation exactly when the file is resumable once more, and
the assertion in `write_block` holds for every block of a session. -/
theorem mount_resumes_iff (config : LogConfig) (run : LogRun config state) :
    (state.file = none → (MountResumes config state ↔ Resumable config state)) ∧
    ∀ file, state.file = some file → file.blockPtr < file.dataBlocks := by
  have sound := run.sound
  obtain ⟨disk, file, last, recent⟩ := state
  constructor
  · rintro rfl
    obtain ⟨formatted, positive, down⟩ := sound
    constructor
    · exact Resumable.of_resumes formatted positive down
    · intro resumable
      obtain ⟨file, mounted, up, next⟩ := resumable.up formatted positive down
      have inside := up.blockPtr_lt
      rw [up.shaped.dataBlocks] at inside
      exact ⟨file, disk, mounted, inside, next, up.above.2⟩
  · rintro file rfl
    exact Up.blockPtr_lt sound

/-- A file of zeros. -/
private def zeroDisk : LogDisk := ⟨⟨0, 0, 0, 0, 0, 0, 0, 0, 0, 0⟩, fun _ => ⟨0, 0, 0, fun _ => 0, 0, 0⟩⟩

private theorem zeroDisk_unused (config : LogConfig) (slot : Nat) :
    config.valid (zeroDisk.slots slot) = false := by
  simp only [LogConfig.valid, LogFile.blockValid, decide_eq_false_iff_not]
  rintro ⟨magic, _⟩
  exact config.magic magic.symm

private theorem flushToDiskCore_ok {file : LogFile} (inside : file.blockPtr < file.dataBlocks)
    (disk : LogDisk) : ∃ after next, file.flushToDiskCore disk = .ok (after, next) := by
  simp only [LogFile.flushToDiskCore]
  rw [if_pos inside]
  split
  · exact ⟨_, _, rfl⟩
  · exact ⟨_, _, rfl⟩

/-- The first mount of a file of zeros, after as many blocks as wanted. -/
private theorem LogRun.fill (config : LogConfig) (count : Nat) :
    ∃ disk file last recent, LogRun config ⟨disk, some file, last, recent⟩ ∧
      (count ≠ 0 → ∃ block, last = some ((count - 1) % config.dataBlocks, block) ∧ block.generation = 1) ∧
      file.blockPtr = count % config.dataBlocks ∧ Follows file recent 1 count := by
  induction count with
  | zero =>
    have mounted : config.mount zeroDisk = .ok (config.mountedAt _ 1 0, _) :=
      (mount_formats rfl).trans (mount_new ⟨0, rfl⟩ (zeroDisk_unused config 0))
    exact ⟨_, _, _, _, .format rfl (zeroDisk_unused config) mounted, fun none => absurd rfl none,
      (Nat.zero_mod _).symm, Nat.le_refl 1⟩
  | succ count ih =>
    obtain ⟨disk, file, last, recent, run, _, ptr, follows⟩ := ih
    have up : Up config disk file last recent := run.sound
    have inside : (file.filled 1 count fun _ => 0).blockPtr < (file.filled 1 count fun _ => 0).dataBlocks :=
      up.blockPtr_lt
    obtain ⟨after, next, written⟩ := flushToDiskCore_ok inside disk
    obtain ⟨place, _⟩ := flushToDiskCore_cases up.shaped written
    refine ⟨_, _, _, _, run.write 1 count (fun _ => 0) follows written, fun _ => ?_, ?_,
      Nat.le_refl _, Nat.lt_succ_self count⟩
    · exact ⟨(file.filled 1 count fun _ => 0).flushedBlock, by rw [ptr, Nat.add_sub_cancel], rfl⟩
    · rw [place, ptr, Nat.mod_add_mod]

/-- The second log of the default build, formatted with magic number 1. -/
private def dataLog : LogConfig where
  size := 65 * 1024 * 1024
  blShift := 0
  random0 := 1
  random1 := 1
  small := by decide
  shift := by decide
  room := by decide
  magic := by decide

/-- After one block the next mount resumes in the second slot. -/
theorem mount_resumes_second :
    ∃ state : LogState, MountResumes dataLog state ∧ ∃ block, state.last = some (0, block) := by
  obtain ⟨disk, file, last, recent, run, place, _⟩ := LogRun.fill dataLog 1
  obtain ⟨block, rfl, generation⟩ := place (by decide)
  have resumable : Resumable dataLog ⟨disk, none, some ((1 - 1) % dataLog.dataBlocks, block), none⟩ :=
    .inr ⟨_, block, rfl, by decide, by rw [generation]; decide⟩
  exact ⟨_, ((mount_resumes_iff dataLog run.off).1 rfl).mpr resumable, block, rfl⟩

/-- After the last slot was written, the next mount is wrong: it leaves
`block_ptr` equal to `data_blocks`. -/
theorem mount_after_last_slot :
    ∃ (config : LogConfig) (state : LogState), LogRun config state ∧ state.file = none ∧
      ¬ MountResumes config state := by
  obtain ⟨disk, file, last, recent, run, place, _⟩ := LogRun.fill dataLog dataLog.dataBlocks
  obtain ⟨block, rfl, _⟩ := place (by decide)
  refine ⟨dataLog, _, run.off, rfl, ?_⟩
  intro resumes
  obtain ⟨formatted, positive, down⟩ := run.off.sound
  rcases Resumable.of_resumes formatted positive down resumes with none | ⟨slot, other, same, more, _⟩
  · have bad := none 0 (by decide)
    cases down with
    | blank _ unknown =>
      rcases unknown with missing | ⟨single, _⟩
      · cases missing
      · exact absurd single (by decide)
    | filled newest filled _ =>
      rw [filled.good 0 (Nat.zero_le _)] at bad
      cases bad
    | torn _ more _ second _ =>
      have bad := none 1 more
      rw [second] at bad
      cases bad
  · cases same
    exact absurd more (by decide)

end Jacdac
