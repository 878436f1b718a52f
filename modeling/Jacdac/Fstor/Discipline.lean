import Jacdac.Fstor.LargeRun
import Jacdac.Fstor.PowerCut

/-! Flash discipline: only erased bytes are programmed, and the table always ends
in an erased slot. -/

namespace Jacdac

namespace Fstor

variable {config : FstorConfig} {store next : Fstor} {base count : Nat} {key : CString} {val : List UInt8}
  {offset size : Nat} {ops : List FlashOp}

/-- Only erased bytes were programmed between the two states. -/
def Careful (config : FstorConfig) (store next : Fstor) : Prop :=
  ∃ ops, Issued config store next ops ∧ Disciplined config ops store.flash

theorem Careful.none (flash : next.flash = store.flash) (ops : next.ops = store.ops) : Careful config store next :=
  ⟨[], .none config flash ops, trivial⟩

theorem Careful.trans {middle : Fstor} (first : Careful config store middle) (second : Careful config middle next) :
    Careful config store next := by
  obtain ⟨before, issued, disciplined⟩ := first
  obtain ⟨after, more, further⟩ := second
  refine ⟨before ++ after, issued.trans more, (disciplined_append ..).mpr ⟨disciplined, ?_⟩⟩
  rw [← issued.image]
  exact further

theorem Formatted.careful (formatted : Formatted config store next) : Careful config store next := by
  have room := config.headerSize_le
  have erased := erasePages_issued config 0 config.headerPages store
  refine ⟨_, formatted.ops, (eraseOps_disciplined config 0 config.headerPages _).issue erased fun cell lower upper => ?_⟩
  rw [newHeader_length] at upper
  refine erasePages_erased config 0 config.headerPages store cell lower ?_
  rw [FstorConfig.headerSize] at room
  omega

theorem Appendable.careful (able : Appendable config store base count key val) :
    Careful config store (store.appended config key val) := by
  obtain ⟨room, fits, _, _, _⟩ := able.room
  have last := able.mounted.last
  have length := newEntry_length able.short (store.dataStart - align val.length) val.length
  refine ⟨_, appended_issued config store key val, ?_, ?_, trivial⟩
  · exact fun cell lower upper => able.mounted.gap cell (by omega) (by omega)
  · intro cell lower upper
    rw [length] at upper
    exact (able.valued_outside cell (.inl (by omega))).trans (able.mounted.gap cell (by omega) (by omega))

/-- The operations for a large value. -/
def extendOps (config : FstorConfig) (store : Fstor) (key : CString) (offset size : Nat) : List FlashOp :=
  eraseOps config offset (numDataPages config size) ++ [.program (store.lastEntry + 24) (newEntry key offset size)]

theorem extended_issued (config : FstorConfig) (store : Fstor) (key : CString) (offset size : Nat) :
    Issued config store (store.extended config key offset size) (extendOps config store key offset size) := by
  have erased := erasePages_issued config offset (numDataPages config size)
    { store with lastEntry := store.lastEntry + 24 }
  have done := erased.issue (.program (store.lastEntry + 24) (newEntry key offset size))
  exact ⟨done.record, done.image⟩

theorem Extendable.careful (able : Extendable config store base count key offset size) :
    Careful config store (store.extended config key offset size) := by
  have room := able.room
  have last := able.mounted.last
  have length := newEntry_length able.short offset size
  have erased := erasePages_issued config offset (numDataPages config size) store
  refine ⟨_, extended_issued config store key offset size,
    (eraseOps_disciplined config offset (numDataPages config size) _).issue erased fun cell lower upper => ?_⟩
  rw [length] at upper
  refine (erasePages_outside config _ _ (.inl (by omega))).trans (able.mounted.gap cell (by omega) (by omega))

theorem Collected.careful {kept : List Nat} (collected : Collected config store base kept next) :
    Careful config store next := by
  obtain ⟨_, issued, _, disciplined⟩ := collected.ops
  exact ⟨_, issued, disciplined⟩

/-- Behind the table there is an erased slot, and nothing is stored up to the values. -/
theorem Good.scanned {flash : Memory} {settings : List Setting} (good : Good config flash base settings) :
    ∃ entry low, scanEntries flash (base + 24) (base + config.headerSize) = some (entry, low) ∧
      entry = base + 24 + 24 * settings.length ∧ Erased flash entry low ∧ entry + 24 ≤ low := by
  obtain ⟨store, tabled, same⟩ := good
  have room := tabled.room
  have top := tabled.mounted.scan.belowTop
  have scan : Scan flash (base + 24) (base + config.headerSize) settings.length store.dataStart :=
    tabled.mounted.scan.congr fun cell lower upper => same cell (by omega) (by omega)
  have gap : Erased flash (base + 24 + 24 * settings.length) store.dataStart :=
    tabled.mounted.gap.congr fun cell lower upper => same cell (by omega) (by omega)
  exact ⟨_, _, scan.scanEntries, rfl, gap, by omega⟩

end Fstor

namespace LargeFstor

open Fstor

variable {config : FstorConfig} {store next : LargeFstor} {base : Nat} {key : Option CString} {val : List UInt8}
  {settings : List Setting} {size : Nat} {torn : Prop}

theorem SetCase.careful {result : Int} (step : SetCase config store base settings key val result next) :
    Careful config store.core next.core := by
  cases step with
  | same => exact .none rfl rfl
  | append given ok able => exact able.careful
  | full collected exact => exact collected.careful
  | collect given ok collected exact able => exact collected.careful.trans able.careful

theorem PrepCase.careful {result : Option Nat} (step : PrepCase config store base settings size key result next) :
    Careful config store.core next.core := by
  cases step with
  | badKey | nowhere => exact .none rfl rfl
  | extend ok found able => exact able.careful
  | full ok found short done collected => exact collected.careful
  | collect ok found short done collected exact able => exact collected.careful.trans able.careful

/-- Without power loss a remount formats nothing. -/
theorem Kept.remounts (kept : Kept config False store base settings) :
    ∃ next, store.remount config = .ok next ∧ next.core.flash = store.core.flash ∧ next.core.ops = store.core.ops := by
  obtain ⟨after, chosen, later, init, _, _, ⟨_, _, flash, ops⟩ | ⟨_, _, _, rejected⟩⟩ :=
    @Recoverable.mounts config { store.core with settings := none } _ False kept.recoverable rfl rfl store.used
  · exact ⟨after, init, flash, ops⟩
  · obtain ⟨picked, header⟩ := pickHeader_some kept.tabled.area kept.valid
    obtain ⟨area, valid⟩ := pickHeader_area header
    rcases kept.recoverable picked area valid with ⟨_, good, _⟩ | ⟨lost, _⟩
    · exact absurd ((rejected picked header).symm.trans good.accepted) nofun
    · exact lost.elim

/-- `recompute_cache` keeps an area with a valid header mounted, and stops at the
end of its table: from there to the values all is erased, with room for a slot. -/
def Orderly (config : FstorConfig) (core : Fstor) : Prop :=
  ∀ base, Area config base → isValidHeader config core.flash base = true →
    (core.recomputeCache config base).settings = some base ∧
      ∃ entry low, scanEntries core.flash (base + 24) (base + config.headerSize) = some (entry, low) ∧
        Erased core.flash entry low ∧ entry + 24 ≤ low

theorem Kept.orderly (kept : Kept config False store base settings) : Orderly config store.core := by
  intro header area valid
  rcases kept.recoverable header area valid with ⟨later, good, _⟩ | ⟨lost, _⟩
  · obtain ⟨entry, low, scanned, _, erased, room⟩ := good.scanned
    refine ⟨?_, entry, low, scanned, erased, room⟩
    rw [recomputeCache]
    dsimp only [fstorEntrySize]
    rw [scanned]
    dsimp only
    rw [if_pos ((erased_iff ..).mpr erased)]
  · exact lost.elim

end LargeFstor

/-- Without power loss, the bytes between the last entry and the values are erased
and hold a whole slot; setting values, preparing regions, collecting garbage and
formatting program only erased bytes; and no mount gives up an area with a valid
header. -/
theorem flash_discipline (config : FstorConfig) (run : LargeFstor.LargeRun config (fun _ _ _ => True) store) :
    (Erased store.core.flash (store.core.lastEntry + 24) store.core.dataStart ∧
      store.core.lastEntry + 48 ≤ store.core.dataStart) ∧
    (∀ key val, ∃ result next, store.jdSettingsSetBin config key val = .ok (result, next) ∧
      Fstor.Careful config store.core next.core) ∧
    (∀ key size result next, size < 4294967296 → store.jdSettingsPrepLarge config key size = .ok (result, next) →
      Fstor.Careful config store.core next.core) ∧
    (∃ next, store.jdFstorGc config = .ok next ∧ Fstor.Careful config store.core next.core) ∧
    (∃ base, store.core.settings = some base ∧
      Fstor.scanEntries store.core.flash (base + 24) (base + config.headerSize) =
        some (store.core.lastEntry + 24, store.core.dataStart)) ∧
    LargeFstor.Orderly config store.core ∧
    (∃ next, store.remount config = .ok next ∧ next.core.flash = store.core.flash ∧ next.core.ops = store.core.ops) ∧
    ∃ first, LargeFstor.jdFstorInit config ⟨Fstor.boot erasedFlash, fun _ => false⟩ = .ok first ∧
      Fstor.Careful config (Fstor.boot erasedFlash) first.core := by
  obtain ⟨base, settings, kept⟩ := run.kept
  have last := kept.tabled.mounted.last
  have room := kept.tabled.room
  have here : store.core.lastEntry + 24 = base + 24 + 24 * settings.length := by omega
  refine ⟨⟨here ▸ kept.tabled.mounted.gap, by omega⟩, fun key val => ?_, fun key size result next word done => ?_, ?_,
    ⟨base, kept.tabled.mounted.settings, here ▸ kept.tabled.mounted.scan.scanEntries⟩, kept.orderly, kept.remounts, ?_⟩
  · obtain ⟨result, next, done, step⟩ := kept.setCase key val
    exact ⟨result, next, done, step.careful⟩
  · exact (kept.prepCase_of_ok word done).careful
  · obtain ⟨next, used, done, collected, _⟩ := kept.gc
    exact ⟨_, done, collected.careful⟩
  · obtain ⟨first, area, _, init, _, _, ⟨picked, _⟩ | ⟨formatted, _⟩⟩ :=
      @LargeFstor.Recoverable.mounts config (Fstor.boot erasedFlash) _ False
        (LargeFstor.erased_recoverable config False) rfl rfl fun _ => false
    · exact absurd ((Fstor.erasedFlash_invalid config area).symm.trans (Fstor.pickHeader_area picked).2) nofun
    · exact ⟨first, init, formatted.careful⟩

theorem flash_discipline_first :
    ∃ first next : LargeFstor, LargeFstor.LargeRun largeConfig (fun _ _ _ => True) next ∧
      first.jdSettingsSetBin largeConfig (some keyA) [7] = .ok (0, next) ∧
      next.core.lastEntry + 48 ≤ next.core.dataStart ∧ LargeFstor.Orderly largeConfig next.core := by
  have done : ((LargeFstor.jdFstorInit largeConfig ⟨Fstor.boot erasedFlash, fun _ => false⟩) >>= fun first => do
      let (result, _) ← first.jdSettingsSetBin largeConfig (some keyA) [7]
      return result) = .ok 0 := by decide +kernel
  obtain ⟨first, init, done⟩ := ok_of_bind done
  obtain ⟨⟨result, next⟩, set, done⟩ := ok_of_bind done
  obtain rfl : result = 0 := Except.ok.inj done
  have run : LargeFstor.LargeRun largeConfig (fun _ _ _ => True) next := .set (.mounted init) (some keyA) [7] set
  obtain ⟨⟨_, room⟩, _, _, _, _, orderly, _⟩ := flash_discipline largeConfig run
  exact ⟨first, next, run, set, room, orderly⟩

end Jacdac
