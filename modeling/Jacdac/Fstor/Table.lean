import Jacdac.Fstor.Settings

/-! The mounted area as a list of keys and values, in the order they were stored,
when there are no large settings. -/

namespace Jacdac

namespace Fstor

variable {config : FstorConfig} {store next : Fstor} {flash : Memory} {base count alt : Nat} {key : CString}
  {val : List UInt8}

variable {entry : Entry} {entries : List Entry} {slot low top : Nat}

/-- The bytes that the values take. -/
def usage (entries : List Entry) : Nat := (entries.map fun entry => align entry.2.length).sum

def mapOf (entries : List Entry) (key : CString) : Option (List UInt8) := (lastWith Prod.fst key entries).map Prod.snd

/-- The store holds these entries in the area at `base`. -/
structure Represents (config : FstorConfig) (store : Fstor) (base : Nat) (entries : List Entry) : Prop where
  mounted : Mounted config store base entries.length
  area : Area config base
  records : List.Forall₂ (Record store.flash store.dataStart (base + config.headerSize))
    (entriesTo (base + 24) store.lastEntry) entries
  space : store.dataStart + usage entries = base + config.headerSize
  room : base + 48 + 24 * entries.length ≤ store.dataStart

def Entry.setting (entry : Entry) : Setting := (entry.1, .small entry.2)

theorem spaceUsed_setting (entries : List Entry) : spaceUsed (entries.map Entry.setting) = usage entries := by
  rw [spaceUsed, List.map_map]
  rfl

theorem compact_setting (entries : List Entry) :
    compact Prod.fst (entries.map Entry.setting) = (compact Prod.fst entries).map Entry.setting :=
  compact_map Entry.setting Prod.fst entries

theorem represents_iff : Represents config store base entries ↔ Tabled config store base (entries.map Entry.setting) := by
  have length : (entries.map Entry.setting).length = entries.length := List.length_map ..
  constructor
  · rintro ⟨mounted, area, records, space, room⟩
    refine ⟨length ▸ mounted, area, List.forall₂_map_right_iff.mpr records, ?_, length ▸ room⟩
    rwa [spaceUsed_setting]
  · rintro ⟨mounted, area, records, space, room⟩
    rw [spaceUsed_setting] at space
    rw [List.forall₂_map_right_iff] at records
    exact ⟨length ▸ mounted, area, records, space, length ▸ room⟩

/-- A formatted area holds nothing. -/
theorem Formatted.represents (formatted : Formatted config store next) : Represents config next 0 [] :=
  represents_iff.mpr formatted.tabled

namespace Represents

theorem append (represents : Represents config store base entries) (ok : keyOk key = true)
    (able : Appendable config store base entries.length key val) :
    Represents config (store.appended config key val) base (entries ++ [(key, val)]) := by
  have length : (entries.map Entry.setting).length = entries.length := List.length_map ..
  have after := (represents_iff.mp represents).append ok (length ▸ able)
  rw [represents_iff, List.map_append]
  exact after

theorem freeSpace (represents : Represents config store base entries) :
    store.freeSpace + 48 + 24 * entries.length + usage entries = config.headerSize := by
  have free := (represents_iff.mp represents).freeSpace
  rwa [spaceUsed_setting, List.length_map] at free

/-- The latest entries of a represented table can always be copied. -/
theorem collectable (represents : Represents config store base entries) : Collectable config store base :=
  (represents_iff.mp represents).collectable

theorem collect (represents : Represents config store base entries)
    (collected : Collected config store base (live store.flash base store.lastEntry) next) :
    Represents config next (otherArea config base) (compact Prod.fst entries) := by
  rw [represents_iff, ← compact_setting]
  exact (represents_iff.mp represents).collect collected

/-- An image with the same area is mounted with the same entries. -/
theorem remounts (represents : Represents config store base entries) (image : Fstor)
    (same : ∀ cell, base ≤ cell → cell < base + config.headerSize → image.flash cell = store.flash cell)
    (picked : pickHeader config image.flash = some base) :
    ∃ after, image.remount config = .ok after ∧ after.flash = image.flash ∧ Represents config after base entries := by
  obtain ⟨after, done, image, _, tabled⟩ := (represents_iff.mp represents).remounts image same picked
  exact ⟨after, done, image, represents_iff.mpr tabled⟩

/-- The entry that a lookup finds. -/
theorem latest (represents : Represents config store base entries) (key : CString) :
    Option.Rel (Record store.flash store.dataStart (base + config.headerSize))
      (latest store.flash base store.lastEntry key) (lastWith Prod.fst key entries) :=
  lastWith_related represents.records fun slot entry record => by
    rw [entryKey_of_field (keyOk_length record.ok) record.key, Subtype.ext_iff]

end Represents

end Fstor

end Jacdac
