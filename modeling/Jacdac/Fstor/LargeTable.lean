import Jacdac.Fstor.Pages

/-! Tables with large settings: the pages they cover, and how an entry for a large
value is added. -/

namespace Jacdac

namespace Fstor

variable {config : FstorConfig} {store next : Fstor} {flash : Memory} {base count : Nat} {key : CString}
  {setting other : Setting} {settings : List Setting} {offset size page : Nat}

/-- The page holds a part of this setting's value. -/
def Occupies (config : FstorConfig) (setting : Setting) (page : Nat) : Prop :=
  match setting.2 with
  | .small _ => False
  | .large offset size => OnPage config offset size page

/-- The page belongs to the latest setting of some key. -/
def Covers (config : FstorConfig) (settings : List Setting) (page : Nat) : Prop :=
  ∃ key setting, lastWith Prod.fst key settings = some setting ∧ Occupies config setting page

/-- The latest settings of different keys share no page. -/
def Apart (config : FstorConfig) (settings : List Setting) : Prop :=
  ∀ first second, first ≠ second → ∀ setting other, lastWith Prod.fst first settings = some setting →
    lastWith Prod.fst second settings = some other → ∀ page, ¬ (Occupies config setting page ∧ Occupies config other page)

theorem covers_compact : Covers config (compact Prod.fst settings) page ↔ Covers config settings page := by
  unfold Covers
  simp only [lastWith_compact]

theorem apart_compact : Apart config (compact Prod.fst settings) ↔ Apart config settings := by
  unfold Apart
  simp only [lastWith_compact]

theorem apart_nil : Apart config [] := fun _ _ _ _ _ found => absurd found nofun

/-- The pages of the other keys. -/
def CoversOther (config : FstorConfig) (settings : List Setting) (key : CString) (page : Nat) : Prop :=
  ∃ name setting, name ≠ key ∧ lastWith Prod.fst name settings = some setting ∧ Occupies config setting page

/-- A new setting replaces the one with its key. -/
theorem covers_append : Covers config (settings ++ [setting]) page ↔
    Occupies config setting page ∨ CoversOther config settings setting.1 page := by
  unfold Covers CoversOther
  simp only [lastWith_append]
  constructor
  · rintro ⟨name, latest, found, here⟩
    by_cases same : setting.1 = name
    · rw [if_pos same] at found
      exact .inl (Option.some.inj found ▸ here)
    · rw [if_neg same] at found
      exact .inr ⟨name, latest, Ne.symm same, found, here⟩
  · rintro (here | ⟨name, latest, differs, found, here⟩)
    · exact ⟨setting.1, setting, if_pos rfl, here⟩
    · exact ⟨name, latest, by rw [if_neg (Ne.symm differs)]; exact found, here⟩

/-- The pages of a table are those of one key and those of the others. -/
theorem covers_split (key : CString) : Covers config settings page ↔
    (∃ setting, lastWith Prod.fst key settings = some setting ∧ Occupies config setting page) ∨
      CoversOther config settings key page := by
  constructor
  · rintro ⟨name, setting, found, here⟩
    by_cases same : name = key
    · exact .inl ⟨setting, same ▸ found, here⟩
    · exact .inr ⟨name, setting, same, found, here⟩
  · rintro (⟨setting, found, here⟩ | ⟨name, setting, _, found, here⟩)
    · exact ⟨key, setting, found, here⟩
    · exact ⟨name, setting, found, here⟩

/-- A key's own pages are not pages of other keys. -/
theorem Apart.own (apart : Apart config settings) (found : lastWith Prod.fst key settings = some setting)
    (here : Occupies config setting page) : ¬ CoversOther config settings key page := by
  rintro ⟨name, other, differs, latest, there⟩
  exact apart key name (Ne.symm differs) setting other found latest page ⟨here, there⟩

theorem Apart.append (apart : Apart config settings)
    (free : ∀ page, Occupies config setting page → ¬ CoversOther config settings setting.1 page) :
    Apart config (settings ++ [setting]) := by
  intro first second differs one two foundOne foundTwo page both
  rw [lastWith_append] at foundOne foundTwo
  by_cases here : setting.1 = first
  · rw [if_pos here] at foundOne
    rw [if_neg fun there => differs (here.symm.trans there)] at foundTwo
    obtain rfl := Option.some.inj foundOne
    exact free page both.1 ⟨second, two, fun same => differs (here.symm.trans same.symm), foundTwo, both.2⟩
  · rw [if_neg here] at foundOne
    by_cases there : setting.1 = second
    · rw [if_pos there] at foundTwo
      obtain rfl := Option.some.inj foundTwo
      exact free page both.2 ⟨first, one, Ne.symm here, foundOne, both.1⟩
    · rw [if_neg there] at foundTwo
      exact apart first second differs one two foundOne foundTwo page both

/-- The settings of a table are as large as their keys say. -/
theorem Tabled.kind (tabled : Tabled config store base settings) (found : lastWith Prod.fst key settings = some setting) :
    setting.1 = key ∧ (setting.2.isLarge = true ↔ lkeyOk key = true) ∧ (setting.2.isLarge = false ↔ keyOk key = true) := by
  have latest := tabled.latest key
  rw [found] at latest
  generalize Fstor.latest store.flash base store.lastEntry key = slot at latest
  cases latest with
  | some holding =>
    have same : setting.1 = key := (lastWith_spec found).2
    obtain ⟨name, value | ⟨offset, size⟩⟩ := setting
    · obtain rfl : name = key := same
      have ok : keyOk name = true := Record.ok holding
      refine ⟨rfl, ⟨nofun, fun large => ?_⟩, fun _ => ok, fun _ => rfl⟩
      exact absurd (lkeyOk_iff.mp large).1 (keyOk_iff.mp ok).1
    · obtain rfl : name = key := same
      have ok : lkeyOk name = true := LargeRecord.ok holding
      refine ⟨rfl, ⟨fun _ => ok, fun _ => rfl⟩, nofun, fun small => ?_⟩
      exact absurd (lkeyOk_iff.mp ok).1 (keyOk_iff.mp small).1

theorem Tabled.covers_small (tabled : Tabled config store base settings) (ok : keyOk key = true) (value : List UInt8) :
    Covers config (settings ++ [(key, .small value)]) page ↔ Covers config settings page := by
  rw [covers_append, covers_split key]
  constructor
  · rintro (none | others)
    · cases none
    · exact .inr others
  · rintro (⟨setting, found, here⟩ | others)
    · have small := (tabled.kind found).2.2.mpr ok
      obtain ⟨name, value | ⟨offset, size⟩⟩ := setting
      · cases here
      · cases small
    · exact .inr others

theorem Tabled.large (tabled : Tabled config store base settings) (ok : lkeyOk key = true)
    (found : lastWith Prod.fst key settings = some setting) :
    ∃ offset size, setting = (key, .large offset size) ∧ InData config offset size ∧ 0 < numDataPages config size ∧
      ∃ slot, Fstor.latest store.flash base store.lastEntry key = some slot ∧ store.flash slot = largeMark ∧
        entryOffset store.flash slot = offset ∧ entrySize store.flash slot = size := by
  have latest := tabled.latest key
  have kind := tabled.kind found
  rw [found] at latest
  generalize lookup : Fstor.latest store.flash base store.lastEntry key = slot at latest
  cases latest with
  | @some slot _ holding =>
    have mark := holding.isLarge
    obtain ⟨name, value | ⟨offset, size⟩⟩ := setting
    · exact absurd (kind.2.1.mpr ok) nofun
    · obtain rfl : name = key := kind.1
      refine ⟨offset, size, rfl, LargeRecord.pages holding, LargeRecord.taken holding, slot, rfl, of_decide_eq_true mark,
        LargeRecord.address holding, LargeRecord.bytes holding⟩

theorem covers_iff_compact : Covers config settings page ↔
    ∃ setting ∈ compact Prod.fst settings, Occupies config setting page := by
  constructor
  · rintro ⟨key, setting, found, here⟩
    refine ⟨setting, mem_compact_iff.mpr ?_, here⟩
    rw [(lastWith_spec found).2]
    exact found
  · rintro ⟨setting, member, here⟩
    exact ⟨setting.1, setting, mem_compact_iff.mp member, here⟩

theorem foldlM_holding {low top : Nat} {slots : List Nat} (records : List.Forall₂ (Holding config flash low top) slots settings)
    (used : Nat → Bool) :
    ∃ after, slots.foldlM (fun used slot =>
        if isLarge flash slot then LargeFstor.markEntry config flash true used slot else .ok used) used = .ok after ∧
      ∀ page, after page = true ↔ used page = true ∨ ∃ setting ∈ settings, Occupies config setting page := by
  induction records generalizing used with
  | nil =>
    refine ⟨used, rfl, fun page => ?_⟩
    simp
  | @cons slot setting slots settings holding _ ih =>
    obtain ⟨key, value | ⟨offset, size⟩⟩ := setting
    · obtain ⟨after, done, marks⟩ := ih used
      refine ⟨after, ?_, fun page => ?_⟩
      · have small : isLarge flash slot = false := holding.isLarge
        rw [List.foldlM_cons, small, if_neg nofun]
        exact done
      · rw [marks, List.exists_mem_cons_iff]
        exact or_congr_right (or_iff_right id).symm
    · have record : LargeRecord config flash slot key offset size := holding
      have mark : isLarge flash slot = true := holding.isLarge
      obtain ⟨after, done, marks⟩ := ih (LargeFstor.marked config offset size true used)
      refine ⟨after, ?_, fun page => ?_⟩
      · rw [List.foldlM_cons, mark, if_pos rfl, LargeFstor.markEntry, record.address, record.bytes,
          of_decide_eq_true mark, LargeFstor.markLarge_ok record.pages]
        exact done
      · rw [marks, List.exists_mem_cons_iff, LargeFstor.marked, ← or_assoc]
        refine or_congr_left ?_
        change _ ↔ used page = true ∨ OnPage config offset size page
        by_cases here : OnPage config offset size page
        · rw [if_pos here]
          exact ⟨fun _ => .inr here, fun _ => rfl⟩
        · rw [if_neg here, or_iff_left here]

theorem Tabled.recomputePages (tabled : Tabled config store base settings) :
    ∃ used, LargeFstor.recomputePages config store = .ok used ∧
      ∀ page, used page = true ↔ Covers config settings page := by
  obtain ⟨used, done, marks⟩ := foldlM_holding tabled.live fun _ => false
  refine ⟨used, ?_, fun page => ?_⟩
  · rw [LargeFstor.recomputePages, tabled.mounted.settings]
    rw [Fstor.live, List.foldlM_filter] at done
    dsimp only
    rw [← done]
    congr 1
    funext taken slot
    cases isLarge store.flash slot <;> cases hasLaterCopy store.flash store.lastEntry slot <;> rfl
  · rw [marks, covers_iff_compact]
    exact or_iff_right nofun

/-- The store after the pages of a large value were erased and its entry stored. -/
def extended (config : FstorConfig) (store : Fstor) (key : CString) (offset size : Nat) : Fstor :=
  ({ store with lastEntry := store.lastEntry + 24 }.erasePages config offset (numDataPages config size)).issue config
    (.program (store.lastEntry + 24) (newEntry key offset size))

/-- A mounted area with room for the entry of a large value. -/
structure Extendable (config : FstorConfig) (store : Fstor) (base count : Nat) (key : CString) (offset size : Nat) :
    Prop where
  mounted : Mounted config store base count
  area : Area config base
  ok : lkeyOk key = true
  pages : InData config offset size
  taken : 0 < numDataPages config size
  word : size < 4294967296
  space : 24 ≤ store.freeSpace

namespace Extendable

theorem short (able : Extendable config store base count key offset size) : key.1.length ≤ 15 :=
  (lkeyOk_iff.mp able.ok).2

theorem room (able : Extendable config store base count key offset size) :
    base + 24 + 24 * count + 48 ≤ store.dataStart ∧ store.dataStart ≤ base + config.headerSize ∧
      base + config.headerSize ≤ 2 * config.headerSize ∧ 2 * config.headerSize ≤ offset ∧ offset < 4294967295 := by
  have space := able.space
  have last := able.mounted.last
  have top := able.mounted.scan.belowTop
  have low := able.area.le
  obtain ⟨high, inside⟩ := able.pages.within
  have bytes := config.bytes
  have page := Nat.mul_le_mul_right config.pageSize able.taken
  have positive := config.positive.2
  simp only [freeSpace, fstorEntrySize] at space
  omega

theorem outside (able : Extendable config store base count key offset size) (cell : Nat)
    (slot : cell < base + 24 + 24 * count ∨ base + 48 + 24 * count ≤ cell)
    (pages : cell < offset ∨ offset + numDataPages config size * config.pageSize ≤ cell) :
    (store.extended config key offset size).flash cell = store.flash cell := by
  have last := able.mounted.last
  have length := newEntry_length able.short offset size
  refine (Memory.write_outside ?_).trans (erasePages_outside config _ _ pages)
  rw [length]
  omega

/-- In the areas only the new slot changes. -/
theorem outside_slot (able : Extendable config store base count key offset size) (cell : Nat)
    (low : cell < 2 * config.headerSize) (slot : cell < base + 24 + 24 * count ∨ base + 48 + 24 * count ≤ cell) :
    (store.extended config key offset size).flash cell = store.flash cell := by
  have room := able.room
  exact able.outside cell slot (.inl (by omega))

theorem entry (able : Extendable config store base count key offset size) :
    (store.extended config key offset size).flash.read (base + 24 + 24 * count) 16 =
        key.1 ++ List.replicate (16 - key.1.length) 0 ∧
      entryOffset (store.extended config key offset size).flash (base + 24 + 24 * count) = offset ∧
      entrySize (store.extended config key offset size).flash (base + 24 + 24 * count) = size := by
  have room := able.room
  have short := able.short
  have here : base + 24 + 24 * count = store.lastEntry + 24 := by
    rw [able.mounted.last]
    omega
  rw [here]
  refine ⟨?_, entryOffset_newEntry able.short _ _ _ (by omega), entrySize_newEntry able.short _ _ _ able.word⟩
  have length : (key.1 ++ List.replicate (16 - key.1.length) 0).length = 16 := by
    simp
    omega
  have part := Memory.read_write_part
    ({ store with lastEntry := store.lastEntry + 24 }.erasePages config offset (numDataPages config size)).flash
    (store.lastEntry + 24) [] (key.1 ++ List.replicate (16 - key.1.length) 0) (littleEndian 4 offset ++ littleEndian 4 size)
  rw [length, List.nil_append, ← List.append_assoc] at part
  exact part

theorem fields (able : Extendable config store base count key offset size) :
    (store.extended config key offset size).settings = some base ∧
      (store.extended config key offset size).lastEntry = base + 24 * (count + 1) ∧
      (store.extended config key offset size).dataStart = store.dataStart := by
  have last := able.mounted.last
  rw [extended, erasePages_eq]
  refine ⟨able.mounted.settings, ?_, rfl⟩
  change store.lastEntry + 24 = _
  omega

theorem gap (able : Extendable config store base count key offset size) :
    Erased (store.extended config key offset size).flash (base + 24 + 24 * (count + 1)) store.dataStart := by
  have room := able.room
  intro cell lower upper
  rw [able.outside_slot cell (by omega) (.inr (by omega))]
  exact able.mounted.gap cell (by omega) upper

/-- The new table has one entry more. -/
theorem extended (able : Extendable config store base count key offset size) :
    Mounted config (store.extended config key offset size) base (count + 1) := by
  obtain ⟨settings, last, start⟩ := able.fields
  obtain ⟨_, address, _⟩ := able.entry
  have room := able.room
  have scan := able.mounted.scan
  have old (index : Nat) (inside : index < count) :
      entryOffset (store.extended config key offset size).flash (base + 24 + 24 * index) =
        entryOffset store.flash (base + 24 + 24 * index) :=
    entryOffset_congr fun cell lower upper => able.outside_slot cell (by omega) (.inl (by omega))
  refine ⟨settings, last, ⟨?_, ?_, ?_, ?_, ?_, ?_⟩, start ▸ able.gap⟩
  · intro index inside
    rcases Nat.lt_succ_iff_lt_or_eq.mp inside with before | rfl
    · rw [old index before]
      exact scan.valid index before
    · rw [address]
      omega
  · exact able.gap.number (by omega) (by omega)
  · intro index inside
    rw [start]
    rcases Nat.lt_succ_iff_lt_or_eq.mp inside with before | rfl
    · rw [old index before]
      exact scan.above index before
    · rw [address]
      omega
  · rw [start]
    exact scan.belowTop
  · rw [start]
    refine scan.attained.imp id ?_
    rintro ⟨index, inside, lowest⟩
    exact ⟨index, by omega, (old index inside).symm ▸ lowest⟩
  · rw [start]
    omega

/-- The headers are not touched. -/
theorem headers (able : Extendable config store base count key offset size) (header : Nat) (area : Area config header)
    (cell : Nat) (lower : header ≤ cell) (upper : cell < header + 24) :
    (store.extended config key offset size).flash cell = store.flash cell := by
  have room := able.room
  have low := config.headerSize_le
  refine able.outside_slot cell ?_ ?_
  · rcases area with rfl | rfl <;> omega
  · rcases area with rfl | rfl <;> rcases able.area with rfl | rfl <;> omega

/-- The other area is not touched. -/
theorem elsewhere (able : Extendable config store base count key offset size) (cell : Nat)
    (lower : otherArea config base ≤ cell) (upper : cell < otherArea config base + config.headerSize) :
    (store.extended config key offset size).flash cell = store.flash cell := by
  have room := able.room
  have apart := able.area.apart
  have low := able.area.other.le
  exact able.outside_slot cell (by omega) (by omega)

end Extendable

theorem Tabled.extend (tabled : Tabled config store base settings)
    (able : Extendable config store base settings.length key offset size) :
    Tabled config (store.extended config key offset size) base (settings ++ [(key, .large offset size)]) := by
  obtain ⟨_, last, start⟩ := able.fields
  obtain ⟨field, address, bytes⟩ := able.entry
  have room := able.room
  have used := spaceUsed_append settings (key, .large offset size)
  have nothing : spaceOf (key, .large offset size) = 0 := rfl
  have space := tabled.space
  refine ⟨?_, tabled.area, ?_, by rw [start]; omega, ?_⟩
  · rw [List.length_append, List.length_singleton]
    exact able.extended
  · rw [last, entriesTo_succ, ← tabled.mounted.last]
    refine List.rel_append ?_ (.cons ⟨field, able.ok, address, bytes, able.pages, able.taken⟩ .nil)
    exact tabled.records_keep (fun cell lower upper => able.outside_slot cell (by omega) (.inl upper))
      (fun cell lower upper => able.outside_slot cell (by omega) (.inr (by omega))) (by rw [start])
  · rw [List.length_append, List.length_singleton, start]
    omega

end Fstor

end Jacdac
