import Jacdac.Log.StoreRun

/-! Headers of log files from removable media: which contents `validate_header`
settles rightly. -/

namespace Jacdac

/-- The header in the first sector of a file. -/
def MainHeader.ofSector (sector : Memory) : MainHeader where
  magic0 := sector.number 0 4
  magic1 := sector.number 4 4
  version := sector.number 8 4
  sectorSize := sector.number 12 4
  sectorsPerBlock := sector.number 16 4
  headerBlocks := sector.number 20 4
  numBlocks := sector.number 24 4
  numRewrites := sector.number 28 4
  blockMagic0 := sector.number 32 4
  blockMagic1 := sector.number 36 4

/-- `1U << sh` on a machine. From 32 on the language leaves the result open; a
processor gives zero, or shifts by less, so at most the highest bit is set. -/
structure Shifter where
  shl : Nat → Nat
  defined : ∀ sh, sh < 32 → shl sh = 2 ^ sh
  single : ∀ sh, shl sh ≤ 2 ^ 31

variable {machine : Shifter} {header : MainHeader} {disk after : LogDisk} {file : LogFile} {size sectors sh fuel : Nat}

/-- The loop of `validate_header` from `sh` on; `none` means that it still runs
after that many turns. -/
def shiftLoop (machine : Shifter) (sectors : Nat) : Nat → Nat → Option Nat
  | 0, _ => none
  | fuel + 1, sh => if machine.shl sh < sectors then shiftLoop machine sectors fuel (sh + 1) else some sh

/-- `validate_header` with its loop. -/
def validateHeaderLoop (machine : Shifter) (fuel size : Nat) (header : MainHeader) : Option (Option Nat) :=
  if header.magic0 = 0x0a4c444a ∧ header.magic1 = 0xb5d1841e then
    if header.version ≠ 5 then some none
    else if header.sectorSize ≠ 512 then some none
    else if u32 (header.sectorsPerBlock * header.numBlocks) > size / 512 then some none
    else
      (shiftLoop machine header.sectorsPerBlock fuel 0).map fun sh =>
        if header.sectorsPerBlock > 8 ∨ machine.shl sh ≠ header.sectorsPerBlock then none
        else some (sh + sectorShift)
  else some none

/-- The header passes all checks in front of the loop. -/
structure MainHeader.Candidate (size : Nat) (header : MainHeader) : Prop where
  magic0 : header.magic0 = 0x0a4c444a
  magic1 : header.magic1 = 0xb5d1841e
  version : header.version = 5
  sectorSize : header.sectorSize = 512
  product : u32 (header.sectorsPerBlock * header.numBlocks) ≤ size / 512

theorem validateHeaderLoop_candidate (candidate : header.Candidate size) (fuel : Nat) :
    validateHeaderLoop machine fuel size header =
      (shiftLoop machine header.sectorsPerBlock fuel 0).map fun sh =>
        if header.sectorsPerBlock > 8 ∨ machine.shl sh ≠ header.sectorsPerBlock then none
        else some (sh + sectorShift) := by
  obtain ⟨magic0, magic1, version, sectorSize, product⟩ := candidate
  rw [validateHeaderLoop, if_pos ⟨magic0, magic1⟩, if_neg (not_not.mpr version), if_neg (not_not.mpr sectorSize),
    if_neg (Nat.not_lt.mpr product)]

/-- Any other header is turned down without the loop. -/
theorem validateHeaderLoop_rejects (other : ¬ header.Candidate size) (fuel : Nat) :
    validateHeaderLoop machine fuel size header = some none := by
  unfold validateHeaderLoop
  split
  · rename_i magic
    split
    · rfl
    · rename_i version
      split
      · rfl
      · rename_i sectorSize
        split
        · rfl
        · rename_i product
          exact absurd ⟨magic.1, magic.2, not_not.mp version, not_not.mp sectorSize, Nat.not_lt.mp product⟩ other
  · rfl

/-- No shift reaches more than the highest bit. -/
theorem shiftLoop_endless (large : 2 ^ 31 < sectors) (fuel sh : Nat) : shiftLoop machine sectors fuel sh = none := by
  induction fuel generalizing sh with
  | zero => rfl
  | succ fuel ih =>
    have below := machine.single sh
    rw [shiftLoop, if_pos (by omega), ih]

/-- The loop stops at the first power that reaches the number. -/
theorem shiftLoop_stops (small : sectors ≤ 2 ^ 31) (start : sh ≤ 31) (enough : 32 ≤ fuel + sh) :
    ∃ stop, shiftLoop machine sectors fuel sh = some stop ∧ sh ≤ stop ∧ stop ≤ 31 ∧ sectors ≤ 2 ^ stop ∧
      ∀ earlier, sh ≤ earlier → earlier < stop → 2 ^ earlier < sectors := by
  induction fuel generalizing sh with
  | zero => omega
  | succ fuel ih =>
    have power := machine.defined sh (by omega)
    rw [shiftLoop, power]
    by_cases below : 2 ^ sh < sectors
    · have next : sh + 1 ≤ 31 := by
        by_contra last
        obtain rfl : sh = 31 := by omega
        omega
      obtain ⟨stop, done, lower, upper, reaches, before⟩ := ih next (by omega)
      rw [if_pos below]
      refine ⟨stop, done, by omega, upper, reaches, fun earlier after until_ => ?_⟩
      rcases Nat.eq_or_lt_of_le after with rfl | later
      · exact below
      · exact before earlier later until_
    · rw [if_neg below]
      exact ⟨sh, rfl, Nat.le_refl _, start, Nat.le_of_not_lt below, fun earlier after until_ => by omega⟩

theorem shiftLoop_eq (small : sectors ≤ 2 ^ 31) (enough : 32 ≤ fuel) :
    shiftLoop machine sectors fuel 0 = some (shiftFor sectors) ∧ shiftFor sectors < 32 := by
  obtain ⟨stop, done, _, upper, reaches, before⟩ := @shiftLoop_stops machine sectors 0 fuel small (by decide) (by omega)
  have found : (List.range 33).find? (fun shift => sectors ≤ 2 ^ shift) = some stop := by
    rw [List.find?_range_eq_some]
    refine ⟨decide_eq_true reaches, List.mem_range.mpr (by omega), fun earlier until_ => ?_⟩
    have missed := before earlier (Nat.zero_le _) until_
    rw [Bool.not_eq_true', decide_eq_false (Nat.not_le.mpr missed)]
  rw [done, shiftFor, found]
  exact ⟨rfl, Nat.lt_succ_of_le upper⟩

/-- Where the loop ends, `validate_header` answers as `validateHeader` says. -/
theorem validateHeaderLoop_eq (small : header.sectorsPerBlock ≤ 2 ^ 31) (enough : 32 ≤ fuel) :
    validateHeaderLoop machine fuel size header = some (validateHeader size header) := by
  obtain ⟨loop, inside⟩ := @shiftLoop_eq machine header.sectorsPerBlock fuel small enough
  simp only [validateHeaderLoop, validateHeader, loop, Option.map_some, machine.defined _ inside, apply_ite some]

theorem shiftLoop_more (done : shiftLoop machine sectors fuel sh = some stop) (more : fuel ≤ turns) :
    shiftLoop machine sectors turns sh = some stop := by
  induction fuel generalizing sh turns with
  | zero => cases done
  | succ fuel ih =>
    obtain ⟨turns, rfl⟩ := Nat.exists_eq_add_one_of_ne_zero (by omega : turns ≠ 0)
    rw [shiftLoop] at done ⊢
    split at done
    · rename_i below
      rw [if_pos below]
      exact ih done (by omega)
    · rename_i reached
      rw [if_neg reached]
      exact done

namespace LogFile

/-- The first sector of a block in `read_block` and `write_block`. -/
def blockSector (file : LogFile) (idx : Nat) : Nat :=
  u32 (u32 (file.headerBlocks + idx) * 2 ^ (file.blockShift - sectorShift))

def blockSectors (file : LogFile) : Nat := 2 ^ (file.blockShift - sectorShift)

/-- All blocks that may be read and written lie inside the file. -/
def BlocksInside (file : LogFile) : Prop :=
  ∀ idx, idx < file.dataBlocks → file.blockSector idx + file.blockSectors ≤ file.size / 512

end LogFile

/-- The geometry that an accepted header should have. -/
structure MainHeader.Sane (size : Nat) (header : MainHeader) : Prop where
  sectorsPerBlock : header.sectorsPerBlock ∈ [1, 2, 4, 8]
  numBlocks : header.numBlocks * header.sectorsPerBlock ≤ size / 512
  headerBlocks : 1 ≤ header.headerBlocks ∧ header.headerBlocks < header.numBlocks

/-- The header is settled: `validate_header` returns, and if it accepts the header,
then that is sane and the blocks of the mounted file are inside it. -/
structure MainHeader.Settled (machine : Shifter) (size : Nat) (header : MainHeader) : Prop where
  returns : ∃ fuel result, validateHeaderLoop machine fuel size header = some result
  accepted (fuel shift : Nat) : validateHeaderLoop machine fuel size header = some (some shift) →
    header.Sane size ∧ ∀ disk : LogDisk, disk.header = header → ∀ blShift random0 random1 file after,
      LogFile.mountLog size blShift random0 random1 disk = .ok (file, after) → file.BlocksInside

/-- A header that gets as far as the loop has no number that the loop cannot reach,
and if it has a number of sectors that is accepted, its product does not wrap and
there is a header block and a data block. -/
def MainHeader.InRange (size : Nat) (header : MainHeader) : Prop :=
  header.Candidate size → header.sectorsPerBlock ≤ 2 ^ 31 ∧
    (header.sectorsPerBlock ∈ [1, 2, 4, 8] →
      header.sectorsPerBlock * header.numBlocks < 4294967296 ∧ 1 ≤ header.headerBlocks ∧
        header.headerBlocks < header.numBlocks)

theorem mountLog_fields {blShift random0 random1 shift : Nat} (valid : validateHeader size disk.header = some shift)
    (mounted : LogFile.mountLog size blShift random0 random1 disk = .ok (file, after)) :
    file.size = size ∧ file.blockShift = shift ∧ file.headerBlocks = disk.header.headerBlocks ∧
      file.dataBlocks = u32 (disk.header.numBlocks + 4294967296 - disk.header.headerBlocks) := by
  rw [LogFile.mountLog, valid] at mounted
  obtain ⟨_, done, same⟩ := ok_of_map mounted
  obtain ⟨blockGeneration, blockPtr, _, rfl⟩ := mountWith_fields done
  cases same
  exact ⟨rfl, rfl, rfl, rfl⟩

theorem accepted_cases {shift : Nat} (valid : validateHeaderLoop machine fuel size header = some (some shift)) :
    header.Candidate size ∧ ∃ sh, sh ≤ 3 ∧ header.sectorsPerBlock = 2 ^ sh ∧ shift = sh + sectorShift := by
  by_cases candidate : header.Candidate size
  · refine ⟨candidate, ?_⟩
    rw [validateHeaderLoop_candidate candidate] at valid
    obtain ⟨sh, loop, checked⟩ := Option.map_eq_some_iff.mp valid
    split at checked
    · cases checked
    · rename_i good
      obtain ⟨few, power⟩ := not_or.mp good
      have longer := shiftLoop_more loop (Nat.le_max_left fuel 32)
      obtain ⟨found, inside⟩ := @shiftLoop_eq machine header.sectorsPerBlock (max fuel 32) (by omega) (Nat.le_max_right ..)
      obtain rfl : sh = shiftFor header.sectorsPerBlock := Option.some.inj (longer.symm.trans found)
      rw [not_not, machine.defined _ inside] at power
      refine ⟨_, ?_, power.symm, (Option.some.inj checked).symm⟩
      have small : 2 ^ shiftFor header.sectorsPerBlock ≤ 2 ^ 3 := by omega
      exact (Nat.pow_le_pow_iff_right (by decide)).mp small
  · rw [validateHeaderLoop_rejects candidate] at valid
    cases valid

theorem mem_powers {sh : Nat} (small : sh ≤ 3) : 2 ^ sh ∈ [1, 2, 4, 8] := by
  obtain rfl | rfl | rfl | rfl : sh = 0 ∨ sh = 1 ∨ sh = 2 ∨ sh = 3 := by omega
  all_goals decide

theorem validateHeader_accepts (candidate : header.Candidate size) (known : header.sectorsPerBlock ∈ [1, 2, 4, 8]) :
    ∃ shift, validateHeader size header = some shift := by
  obtain ⟨magic0, magic1, version, sectorSize, product⟩ := candidate
  have good : ¬ (header.sectorsPerBlock > 8 ∨ 2 ^ shiftFor header.sectorsPerBlock ≠ header.sectorsPerBlock) := by
    have table : ∀ sectors ∈ [1, 2, 4, 8], ¬ (sectors > 8 ∨ 2 ^ shiftFor sectors ≠ sectors) := by decide
    exact table _ known
  refine ⟨shiftFor header.sectorsPerBlock + sectorShift, ?_⟩
  rw [validateHeader, if_pos ⟨magic0, magic1⟩, if_neg (not_not.mpr version), if_neg (not_not.mpr sectorSize),
    if_neg (Nat.not_lt.mpr product)]
  exact if_neg good

theorem validateHeaderLoop_more {result : Option Nat} {turns : Nat}
    (done : validateHeaderLoop machine fuel size header = some result) (more : fuel ≤ turns) :
    validateHeaderLoop machine turns size header = some result := by
  by_cases candidate : header.Candidate size
  · rw [validateHeaderLoop_candidate candidate] at done ⊢
    obtain ⟨sh, loop, rfl⟩ := Option.map_eq_some_iff.mp done
    rw [shiftLoop_more loop more]
    rfl
  · rwa [validateHeaderLoop_rejects candidate] at done ⊢

theorem MainHeader.Sane.blocksInside (sane : header.Sane file.size) (small : file.size < 4294967296) {sh : Nat}
    (power : header.sectorsPerBlock = 2 ^ sh) (shift : file.blockShift = sh + sectorShift)
    (headers : file.headerBlocks = header.headerBlocks)
    (blocks : file.dataBlocks = u32 (header.numBlocks + 4294967296 - header.headerBlocks)) : file.BlocksInside := by
  intro idx inside
  obtain ⟨_, product, first, apart⟩ := sane
  have positive : 0 < 2 ^ sh := Nat.two_pow_pos sh
  rw [power] at product
  have limit : header.numBlocks ≤ header.numBlocks * 2 ^ sh := Nat.le_mul_of_pos_right _ positive
  have count : file.dataBlocks = header.numBlocks - header.headerBlocks := by
    rw [blocks, u32]
    omega
  have within : (header.headerBlocks + idx + 1) * 2 ^ sh ≤ header.numBlocks * 2 ^ sh :=
    Nat.mul_le_mul_right _ (by omega)
  rw [Nat.succ_mul] at within
  have sectors : file.blockShift - sectorShift = sh := by omega
  have start : u32 (header.headerBlocks + idx) = header.headerBlocks + idx := u32_of_lt (by omega)
  rw [LogFile.blockSector, LogFile.blockSectors, sectors, headers, start, u32_of_lt (by omega)]
  omega

/-- `validate_header` settles a header exactly if its numbers are in range. -/
theorem header_validation_sound_iff (machine : Shifter) (size : Nat) (small : size < 4294967296) (sector : Memory) :
    (MainHeader.ofSector sector).Settled machine size ↔ (MainHeader.ofSector sector).InRange size := by
  generalize MainHeader.ofSector sector = header
  constructor
  · rintro ⟨⟨fuel, result, returns⟩, accepted⟩ candidate
    have reachable : header.sectorsPerBlock ≤ 2 ^ 31 := by
      by_contra large
      rw [validateHeaderLoop_candidate candidate, shiftLoop_endless (by omega)] at returns
      cases returns
    refine ⟨reachable, fun known => ?_⟩
    have loop := @validateHeaderLoop_eq machine header size 32 reachable (Nat.le_refl 32)
    obtain ⟨shift, valid⟩ := validateHeader_accepts candidate known
    rw [valid] at loop
    obtain ⟨_, product, first, apart⟩ := (accepted 32 shift loop).1
    rw [Nat.mul_comm] at product
    exact ⟨by omega, first, apart⟩
  · intro ranged
    refine ⟨?_, fun fuel shift valid => ?_⟩
    · by_cases candidate : header.Candidate size
      · exact ⟨32, _, validateHeaderLoop_eq (ranged candidate).1 (Nat.le_refl 32)⟩
      · exact ⟨0, none, validateHeaderLoop_rejects candidate 0⟩
    · obtain ⟨candidate, sh, few, power, rfl⟩ := accepted_cases valid
      obtain ⟨product, first, apart⟩ := (ranged candidate).2 (power ▸ mem_powers few)
      have checked := candidate.product
      rw [u32_of_lt product, Nat.mul_comm] at checked
      have sane : header.Sane size := ⟨power ▸ mem_powers few, checked, first, apart⟩
      refine ⟨sane, fun disk same blShift random0 random1 file after mounted => ?_⟩
      have loop := @validateHeaderLoop_eq machine header size (max fuel 32) (ranged candidate).1 (Nat.le_max_right ..)
      rw [validateHeaderLoop_more valid (Nat.le_max_left ..)] at loop
      have found : validateHeader size disk.header = some (sh + sectorShift) := same ▸ (Option.some.inj loop).symm
      obtain ⟨rfl, shift, headers, blocks⟩ := mountLog_fields found mounted
      rw [same] at headers blocks
      exact sane.blocksInside small power shift headers blocks

/-- A machine that shifts by the lowest five bits of the amount. -/
def wrappingShifter : Shifter where
  shl sh := 2 ^ (sh % 32)
  defined sh small := by rw [Nat.mod_eq_of_lt small]
  single sh := Nat.pow_le_pow_right (by decide) (by omega)

/-- The sector of a header with eight sectors in a block and one header block; the
number of blocks has this lowest and highest byte. -/
def headerSector (lowest highest : UInt8) : Memory := fun cell =>
  [0x4a, 0x44, 0x4c, 0x0a, 0x1e, 0x84, 0xd1, 0xb5, 5, 0, 0, 0, 0, 2, 0, 0, 8, 0, 0, 0, 1, 0, 0, 0,
    lowest, 0, 0, highest].getD cell 0

theorem header_validation_sound_iff_two :
    (MainHeader.ofSector (headerSector 2 0)).Sane 8192 := by
  have settled := (header_validation_sound_iff wrappingShifter 8192 (by decide) (headerSector 2 0)).mpr
    fun _ => ⟨by decide, fun _ => ⟨by decide, by decide, by decide⟩⟩
  exact (settled.accepted 32 12 (by decide)).1

/-- 2 ^ 29 blocks of eight sectors are 2 ^ 32 sectors, and pass as none. -/
theorem header_product_wraps :
    ¬ ∀ (machine : Shifter) (size : Nat), size < 4294967296 → ∀ sector : Memory,
      (MainHeader.ofSector sector).Settled machine size := by
  intro holds
  have settled := holds wrappingShifter 8192 (by decide) (headerSector 0 0x20)
  exact absurd (settled.accepted 32 12 (by decide)).1.numBlocks (by decide)

end Jacdac
