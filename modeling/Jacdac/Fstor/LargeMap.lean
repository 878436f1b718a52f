import Jacdac.Fstor.LargeStep

/-! A store with large settings as a map: what readers see, and what a call for one
key leaves alone. -/

namespace Jacdac

namespace Fstor

variable {config : FstorConfig} {flash image : Memory} {settings : List Setting} {setting : Setting} {key : CString}
  {offset size page cell : Nat}

/-- The bytes of the pages of a large value. -/
def regionSize (config : FstorConfig) (size : Nat) : Nat := numDataPages config size * config.pageSize

/-- A large value lies on its pages. -/
theorem size_le_region (word : size < 4294967296) (taken : 0 < numDataPages config size) :
    size ≤ regionSize config size := by
  have positive := config.positive.2
  rw [numDataPages] at taken
  rw [regionSize, numDataPages]
  by_cases empty : size = 0
  · omega
  · rw [alignCore, if_neg empty, Nat.mul_div_cancel _ positive] at taken ⊢
    have enough := (Nat.div_pos_iff.mp taken).2
    have whole : u32 (size + config.pageSize - 1) = size + config.pageSize - 1 := by
      rw [u32] at enough ⊢
      omega
    have rest := Nat.lt_div_mul_add positive (a := size + config.pageSize - 1)
    rw [whole]
    omega

/-- Ranges of whole pages without a common page have no common byte. -/
theorem regions_apart {other bytes : Nat} (one : InData config offset size) (two : InData config other bytes)
    (some : 0 < numDataPages config size) (more : 0 < numDataPages config bytes)
    (apart : ∀ page, ¬ (OnPage config offset size page ∧ OnPage config other bytes page)) :
    offset + regionSize config size ≤ other ∨ other + regionSize config bytes ≤ offset := by
  have address := one.1
  have place := two.1
  have ordered : firstPage config offset + numDataPages config size ≤ firstPage config other ∨
      firstPage config other + numDataPages config bytes ≤ firstPage config offset := by
    by_contra overlap
    refine apart (max (firstPage config offset) (firstPage config other)) ⟨⟨?_, ?_⟩, ?_, ?_⟩ <;> omega
  rw [pageAddress] at address place
  rw [regionSize, regionSize]
  refine ordered.imp (fun before => ?_) fun before => ?_
  · have bound := Nat.mul_le_mul_right config.pageSize (Nat.add_le_add_left before (config.headerPages * 2))
    rw [← Nat.add_assoc, Nat.add_mul] at bound
    omega
  · have bound := Nat.mul_le_mul_right config.pageSize (Nat.add_le_add_left before (config.headerPages * 2))
    rw [← Nat.add_assoc, Nat.add_mul] at bound
    omega

def valueOf (flash : Memory) (setting : Setting) : List UInt8 :=
  match setting.2 with
  | .small value => value
  | .large offset size => flash.read offset size

/-- The values of the latest settings. -/
def valueMap (flash : Memory) (settings : List Setting) (key : CString) : Option (List UInt8) :=
  (lastWith Prod.fst key settings).map (valueOf flash)

@[simp] theorem valueMap_compact (flash : Memory) (settings : List Setting) :
    valueMap flash (compact Prod.fst settings) = valueMap flash settings := by
  funext key
  rw [valueMap, lastWith_compact, valueMap]

/-- Where the bytes of the large values are the same, so are the values. -/
theorem valueMap_congr {later : List Setting} (entry : lastWith Prod.fst key later = lastWith Prod.fst key settings)
    (same : ∀ offset size, lastWith Prod.fst key settings = some (key, .large offset size) →
      ∀ cell, offset ≤ cell → cell < offset + size → image cell = flash cell) :
    valueMap image later key = valueMap flash settings key := by
  rw [valueMap, valueMap, entry]
  cases found : lastWith Prod.fst key settings with
  | none => rfl
  | some setting =>
    obtain ⟨name, value | ⟨offset, size⟩⟩ := setting
    · rfl
    · obtain rfl : name = key := (lastWith_spec found).2
      exact congrArg some (Memory.read_congr fun cell lower upper => same offset size found cell lower upper)

end Fstor

namespace LargeFstor

open Fstor

variable {config : FstorConfig} {store next : LargeFstor} {base : Nat} {key : CString} {val : List UInt8}
  {settings : List Setting} {offset size page : Nat} {torn : Prop} {used : Nat → Bool}

/-- The answer of `jd_settings_get_bin` to a reader of a key with this value. -/
def AnswersSmall (config : FstorConfig) (store : LargeFstor) (key : CString) (value : Option (List UInt8))
    (space : Nat) : Prop :=
  match value with
  | none => store.jdSettingsGetBin config (some key) space = .ok (-2, [], store)
  | some bytes => ∃ copied, store.jdSettingsGetBin config (some key) space = .ok ((bytes.length : Int), copied, store) ∧
      (bytes.length ≤ space → copied.take bytes.length = bytes)

/-- The answer of `jd_settings_get_large`. -/
def AnswersLarge (config : FstorConfig) (store : LargeFstor) (key : CString) (value : Option (List UInt8)) : Prop :=
  match value with
  | none => store.jdSettingsGetLarge config (some key) = .ok (none, store)
  | some bytes => ∃ offset, store.jdSettingsGetLarge config (some key) = .ok (some (offset, bytes.length), store) ∧
      store.core.flash.read offset bytes.length = bytes

/-- The store answers every reader as the map says. -/
def Serves (config : FstorConfig) (store : LargeFstor) (map : CString → Option (List UInt8)) : Prop :=
  (∀ key, keyOk key = true → ∀ space, AnswersSmall config store key (map key) space) ∧
    ∀ key, lkeyOk key = true → AnswersLarge config store key (map key)

namespace Kept

theorem answersSmall (kept : Kept config torn store base settings) (ok : keyOk key = true) (space : Nat) :
    AnswersSmall config store key (valueMap store.core.flash settings key) space := by
  have accepted : (some key).filter keyOk = some key := Option.filter_eq_some_iff.mpr ⟨rfl, ok⟩
  have latest := kept.tabled.latest key
  cases found : lastWith Prod.fst key settings with
  | none =>
    rw [found] at latest
    generalize lookup : Fstor.latest store.core.flash base store.core.lastEntry key = slot at latest
    cases latest
    rw [valueMap, found]
    change store.jdSettingsGetBin config (some key) space = _
    rw [jdSettingsGetBin, accepted]
    dsimp only
    rw [kept.findEntry, ok_bind, lookup]
  | some setting =>
    have small := (kept.tabled.kind found).2.2.mpr ok
    rw [found] at latest
    generalize lookup : Fstor.latest store.core.flash base store.core.lastEntry key = slot at latest
    cases latest with
    | @some slot _ holding =>
      obtain ⟨name, value | ⟨offset, size⟩⟩ := setting
      · have record : Record store.core.flash store.core.dataStart (base + config.headerSize) slot (name, value) := holding
        have length : entrySize store.core.flash slot = value.length := record.size
        have bytes : store.core.flash.read (entryOffset store.core.flash slot) value.length = value := record.value
        have inside := record.inside
        have room := kept.tabled.room
        have words := config.areas_lt
        have area := kept.tabled.area.le
        have number : signed32 value.length = (value.length : Int) := by
          rw [signed32, if_pos (by dsimp only at inside; omega)]
        rw [valueMap, found]
        change ∃ copied, store.jdSettingsGetBin config (some key) space = _ ∧ _
        rw [jdSettingsGetBin, accepted]
        dsimp only
        rw [kept.findEntry, ok_bind, lookup]
        dsimp only
        rw [length, number]
        refine ⟨_, rfl, fun enough => ?_⟩
        have enough : value.length ≤ space := enough
        change List.take value.length _ = value
        rw [if_pos enough, Memory.read_take _ _ _ _ enough, bytes]
      · cases small

/-- What `jd_settings_get_large` returns. -/
theorem getLarge (kept : Kept config torn store base settings) (ok : lkeyOk key = true) :
    (lastWith Prod.fst key settings = none ∧ store.jdSettingsGetLarge config (some key) = .ok (none, store)) ∨
      ∃ offset size, lastWith Prod.fst key settings = some (key, .large offset size) ∧ InData config offset size ∧
        0 < numDataPages config size ∧ size < 4294967296 ∧
        store.jdSettingsGetLarge config (some key) = .ok (some (offset, size), store) := by
  have accepted : (some key).filter lkeyOk = some key := Option.filter_eq_some_iff.mpr ⟨rfl, ok⟩
  rw [jdSettingsGetLarge, accepted]
  dsimp only
  rw [kept.findEntry, ok_bind]
  cases found : lastWith Prod.fst key settings with
  | none =>
    have latest := kept.tabled.latest key
    rw [found] at latest
    generalize Fstor.latest store.core.flash base store.core.lastEntry key = slot at latest ⊢
    cases latest
    exact .inl ⟨rfl, rfl⟩
  | some setting =>
    obtain ⟨offset, bytes, rfl, pages, taken, slot, lookup, _, address, length⟩ := kept.tabled.large ok found
    refine .inr ⟨offset, bytes, rfl, pages, taken, length ▸ Memory.number_lt .., ?_⟩
    rw [lookup]
    dsimp only [Option.map]
    rw [address, length]

theorem answersLarge (kept : Kept config torn store base settings) (ok : lkeyOk key = true) :
    AnswersLarge config store key (valueMap store.core.flash settings key) := by
  rcases kept.getLarge ok with ⟨found, done⟩ | ⟨offset, size, found, _, _, _, done⟩
  · rw [valueMap, found]
    exact done
  · rw [valueMap, found]
    have length : (store.core.flash.read offset size).length = size := Memory.read_length ..
    refine ⟨offset, ?_, ?_⟩
    · change _ = Except.ok (some (offset, (store.core.flash.read offset size).length), store)
      rw [length]
      exact done
    · change store.core.flash.read offset (store.core.flash.read offset size).length = store.core.flash.read offset size
      rw [length]

theorem serves (kept : Kept config torn store base settings) : Serves config store (valueMap store.core.flash settings) :=
  ⟨fun _ ok space => kept.answersSmall ok space, fun _ ok => kept.answersLarge ok⟩

end Kept

end LargeFstor

end Jacdac
