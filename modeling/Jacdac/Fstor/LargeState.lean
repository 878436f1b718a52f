import Jacdac.Fstor.LargeTable

/-! What every operation keeps true of a store with large settings, and of the
area that is not mounted. -/

namespace Jacdac

namespace Fstor

variable {config : FstorConfig} {store next : Fstor} {flash image : Memory} {base : Nat} {key : CString}
  {val : List UInt8} {settings : List Setting} {offset size : Nat} {torn : Prop}

/-- The area holds these settings, whatever is mounted. -/
def Good (config : FstorConfig) (flash : Memory) (base : Nat) (settings : List Setting) : Prop :=
  ∃ store, Tabled config store base settings ∧
    ∀ cell, base ≤ cell → cell < base + config.headerSize → flash cell = store.flash cell

/-- The area was left with a value that has no entry. -/
def Broken (config : FstorConfig) (flash : Memory) (base : Nat) : Prop :=
  ∃ count low, Scan flash (base + 24) (base + config.headerSize) count low ∧ base + 48 + 24 * count ≤ low ∧
    ¬ Erased flash (base + 24 + 24 * count) low

/-- An area with a header has a table; if power was lost before, it may also be
broken. -/
def Sane (config : FstorConfig) (torn : Prop) (flash : Memory) (base : Nat) : Prop :=
  isValidHeader config flash base = true →
    (∃ settings, Good config flash base settings ∧ Apart config settings) ∨ (torn ∧ Broken config flash base)

theorem Tabled.good (tabled : Tabled config store base settings) : Good config store.flash base settings :=
  ⟨store, tabled, fun _ _ _ => rfl⟩

theorem Good.congr (good : Good config flash base settings)
    (same : ∀ cell, base ≤ cell → cell < base + config.headerSize → image cell = flash cell) :
    Good config image base settings := by
  obtain ⟨store, tabled, cells⟩ := good
  exact ⟨store, tabled, fun cell lower upper => (same cell lower upper).trans (cells cell lower upper)⟩

theorem Broken.congr (broken : Broken config flash base)
    (same : ∀ cell, base ≤ cell → cell < base + config.headerSize → image cell = flash cell) :
    Broken config image base := by
  obtain ⟨count, low, scan, room, written⟩ := broken
  have top := scan.belowTop
  refine ⟨count, low, scan.congr fun cell lower upper => same cell (by omega) (by omega), room, fun erased => written ?_⟩
  exact erased.congr fun cell lower upper => (same cell (by omega) (by omega)).symm

theorem Sane.congr (sane : Sane config torn flash base)
    (same : ∀ cell, base ≤ cell → cell < base + config.headerSize → image cell = flash cell) :
    Sane config torn image base := by
  intro valid
  have room := config.headerSize_le
  rw [isValidHeader_congr fun cell lower upper => same cell lower (by omega)] at valid
  rcases sane valid with ⟨settings, good, apart⟩ | ⟨lost, broken⟩
  · exact .inl ⟨settings, good.congr same, apart⟩
  · exact .inr ⟨lost, broken.congr same⟩

/-- A table is accepted. -/
theorem Good.accepted (good : Good config flash base settings) : accepts config flash base = true := by
  obtain ⟨store, tabled, same⟩ := good
  have room := tabled.room
  have top := tabled.mounted.scan.belowTop
  refine (accepts_iff ..).mpr ⟨settings.length, store.dataStart, ?_, ?_⟩
  · exact tabled.mounted.scan.congr fun cell lower upper => same cell (by omega) (by omega)
  · exact tabled.mounted.gap.congr fun cell lower upper => same cell (by omega) (by omega)

/-- A value without an entry is noticed. -/
theorem Broken.rejected (broken : Broken config flash base) : accepts config flash base = false := by
  obtain ⟨count, low, scan, room, written⟩ := broken
  rw [Bool.eq_false_iff]
  intro accepted
  obtain ⟨number, lowest, found, erased⟩ := (accepts_iff ..).mp accepted
  obtain ⟨ends, same⟩ := Prod.mk.inj (Option.some.inj (found.scanEntries.symm.trans scan.scanEntries))
  refine written fun cell lower upper => erased cell (by omega) (by omega)

end Fstor

namespace LargeFstor

open Fstor

variable {config : FstorConfig} {store next : LargeFstor} {core : Fstor} {flash image : Memory} {base : Nat}
  {key : CString} {val : List UInt8} {settings : List Setting} {offset size page : Nat} {torn : Prop}
  {used : Nat → Bool}

/-- A mounted store: its settings do not overlap, their pages are marked, and the
other area is in order. -/
structure Kept (config : FstorConfig) (torn : Prop) (store : LargeFstor) (base : Nat) (settings : List Setting) :
    Prop where
  tabled : Tabled config store.core base settings
  valid : isValidHeader config store.core.flash base = true
  other : Sane config torn store.core.flash (otherArea config base)
  apart : Apart config settings
  marks : ∀ page, Covers config settings page → store.used page = true

/-- No page is marked that belongs to no setting. -/
def Exact (config : FstorConfig) (used : Nat → Bool) (settings : List Setting) : Prop :=
  ∀ page, used page = true ↔ Covers config settings page

theorem recomputed_ok (tabled : Tabled config core base settings) :
    ∃ used, recomputed config core = .ok ⟨core, used⟩ ∧ Exact config used settings := by
  obtain ⟨used, done, exact⟩ := tabled.recomputePages
  refine ⟨used, ?_, exact⟩
  rw [recomputed, done]
  rfl

/-- Both areas of an image are in order. -/
def Recoverable (config : FstorConfig) (torn : Prop) (flash : Memory) : Prop :=
  ∀ base, Area config base → Sane config torn flash base

theorem recoverable_of_areas (area : Area config base) (one : Sane config torn flash base)
    (two : Sane config torn flash (otherArea config base)) : Recoverable config torn flash := by
  intro header chosen
  rcases area.cases chosen with rfl | rfl
  · exact one
  · exact two

theorem Kept.recoverable (kept : Kept config torn store base settings) : Recoverable config torn store.core.flash :=
  recoverable_of_areas kept.tabled.area (fun _ => .inl ⟨settings, kept.tabled.good, kept.apart⟩) kept.other

theorem mounts_good (good : Good config flash base settings) (apart : Apart config settings)
    (picked : pickHeader config flash = some base) (other : Sane config torn flash (otherArea config base))
    (unmounted : core.settings = none) (same : core.flash = flash) (used : Nat → Bool) :
    ∃ after, jdFstorInit config ⟨core, used⟩ = .ok after ∧ Kept config torn after base settings ∧
      Exact config after.used settings ∧ after.core.flash = flash ∧ after.core.ops = core.ops := by
  subst same
  obtain ⟨origin, table, cells⟩ := good
  obtain ⟨after, done, image, ops, tabled⟩ := table.remounts core cells picked
  have still : { core with settings := none } = core := by rw [← unmounted]
  rw [Fstor.remount, still] at done
  obtain ⟨marks, counted, exact⟩ := recomputed_ok tabled
  refine ⟨⟨after, marks⟩, ?_, ⟨tabled, ?_, ?_, apart, fun page covered => (exact page).mpr covered⟩, exact, image, ops⟩
  · rw [jdFstorInit, unmounted, done]
    exact counted
  · rw [image]
    exact (pickHeader_area picked).2
  · rw [image]
    exact other

/-- Mounting an image in order. What is picked is mounted unless it is broken. -/
theorem Recoverable.mounts (recoverable : Recoverable config torn flash) (unmounted : core.settings = none)
    (same : core.flash = flash) (used : Nat → Bool) :
    ∃ after base settings, jdFstorInit config ⟨core, used⟩ = .ok after ∧ Kept config torn after base settings ∧
      Exact config after.used settings ∧
      ((pickHeader config flash = some base ∧ Good config flash base settings ∧ after.core.flash = flash ∧
          after.core.ops = core.ops) ∨
        (Formatted config core after.core ∧ base = 0 ∧ settings = [] ∧
          ∀ base, pickHeader config flash = some base → accepts config flash base = false)) := by
  subst same
  obtain ⟨mounted, init, ⟨base, count, picked, accepted, _⟩ | ⟨rejected, formatted⟩⟩ := @init_cases config core unmounted
  · obtain ⟨area, valid⟩ := pickHeader_area picked
    rcases recoverable base area valid with ⟨settings, good, apart⟩ | ⟨_, broken⟩
    · obtain ⟨after, done, kept, exact, image, ops⟩ :=
        mounts_good good apart picked (recoverable _ area.other) unmounted rfl used
      exact ⟨after, base, settings, done, kept, exact, .inl ⟨picked, good, image, ops⟩⟩
    · exact absurd (accepted.symm.trans broken.rejected) nofun
  · have tabled := formatted.tabled
    obtain ⟨marks, counted, exact⟩ := recomputed_ok tabled
    refine ⟨⟨mounted, marks⟩, 0, [], ?_, ⟨tabled, formatted.valid, ?_, apart_nil, fun page covered => (exact page).mpr covered⟩,
      exact, .inr ⟨formatted, rfl, rfl, rejected⟩⟩
    · rw [jdFstorInit, unmounted, init]
      exact counted
    · rw [otherArea_zero]
      exact (recoverable _ (.inr rfl)).congr fun cell lower _ => formatted.outside cell lower

end LargeFstor

end Jacdac
