import Jacdac.Fstor.LargeState

/-! What `jd_settings_set_bin` and `jd_settings_prep_large` can do to a store with
large settings. -/

namespace Jacdac

namespace LargeFstor

open Fstor

variable {config : FstorConfig} {store next : LargeFstor} {core : Fstor} {base : Nat} {key : CString}
  {val : List UInt8} {settings : List Setting} {offset size page : Nat} {torn : Prop} {used : Nat → Bool}

namespace Kept

/-- A small value and its entry. -/
theorem append (kept : Kept config torn store base settings) (ok : keyOk key = true)
    (able : Appendable config store.core base settings.length key val) :
    Kept config torn { store with core := store.core.appended config key val } base (settings ++ [(key, .small val)]) := by
  obtain ⟨room, fits, positive, top, words⟩ := able.room
  have apart := able.area.apart
  refine ⟨kept.tabled.append ok able, ?_, ?_, ?_, ?_⟩
  · rw [isValidHeader_congr fun cell _ upper => able.outside cell (.inl (by omega))]
    exact kept.valid
  · exact kept.other.congr fun cell lower upper => able.outside cell (by omega)
  · exact kept.apart.append fun page here => absurd here id
  · intro page covered
    exact kept.marks page ((kept.tabled.covers_small ok val).mp covered)

/-- The entry of a large value on pages that no other key has. -/
theorem extend (kept : Kept config torn store base settings)
    (able : Extendable config store.core base settings.length key offset size)
    (free : ∀ page, OnPage config offset size page → ¬ CoversOther config settings key page)
    (marks : ∀ page, OnPage config offset size page ∨ CoversOther config settings key page → used page = true) :
    Kept config torn ⟨store.core.extended config key offset size, used⟩ base
      (settings ++ [(key, .large offset size)]) := by
  refine ⟨kept.tabled.extend able, ?_, ?_, kept.apart.append free, fun page covered => ?_⟩
  · rw [isValidHeader_congr (able.headers base able.area)]
    exact kept.valid
  · exact kept.other.congr able.elsewhere
  · exact marks page (covers_append.mp covered)

theorem collect (kept : Kept config torn store base settings)
    (collected : Collected config store.core base (Fstor.live store.core.flash base store.core.lastEntry) core)
    (exact : Exact config used settings) :
    Kept config torn ⟨core, used⟩ (otherArea config base) (compact Prod.fst settings) := by
  have apart := kept.tabled.area.apart
  refine ⟨kept.tabled.collect collected, collected.valid, ?_, apart_compact.mpr kept.apart, fun page covered => ?_⟩
  · rw [kept.tabled.area.other_other]
    refine fun _ => .inl ⟨settings, kept.tabled.good.congr fun cell lower upper => ?_, kept.apart⟩
    exact collected.outside cell (by omega)
  · exact (exact page).mpr (covers_compact.mp covered)

/-- Garbage collection rebuilds the bitmap. -/
theorem gc (kept : Kept config torn store base settings) :
    ∃ next used, store.jdFstorGc config = .ok ⟨next, used⟩ ∧
      Collected config store.core base (Fstor.live store.core.flash base store.core.lastEntry) next ∧
      Exact config used settings := by
  obtain ⟨next, done, collected⟩ := kept.tabled.collectable.collect kept.tabled.mounted kept.tabled.area
  obtain ⟨used, counted, exact⟩ := recomputed_ok (kept.tabled.collect collected)
  refine ⟨next, used, ?_, collected, fun page => (exact page).trans covers_compact⟩
  rw [jdFstorGc, done]
  exact counted

theorem findEntry (kept : Kept config torn store base settings) (key : CString) :
    store.findEntry config key = .ok (Fstor.latest store.core.flash base store.core.lastEntry key, store) := by
  rw [LargeFstor.findEntry, jdFstorInit, kept.tabled.mounted.settings]
  simp only [bind, Except.bind, kept.tabled.mounted.findEntry, lift, Except.mapError]

end Kept

/-- What `jd_settings_set_bin` can do. -/
inductive SetCase (config : FstorConfig) (store : LargeFstor) (base : Nat) (settings : List Setting) (key : Option CString)
    (val : List UInt8) : Int → LargeFstor → Prop where
  | same (result : Int) : SetCase config store base settings key val result store
  | append {name : CString} (given : key = some name) (ok : keyOk name = true)
      (able : Appendable config store.core base settings.length name val) :
    SetCase config store base settings key val 0 { store with core := store.core.appended config name val }
  | full {next : Fstor} {used : Nat → Bool}
      (collected : Collected config store.core base (Fstor.live store.core.flash base store.core.lastEntry) next)
      (exact : Exact config used settings) : SetCase config store base settings key val (-3) ⟨next, used⟩
  | collect {name : CString} {next : Fstor} {used : Nat → Bool} (given : key = some name) (ok : keyOk name = true)
      (collected : Collected config store.core base (Fstor.live store.core.flash base store.core.lastEntry) next)
      (exact : Exact config used settings)
      (able : Appendable config next (otherArea config base) (compact Prod.fst settings).length name val) :
    SetCase config store base settings key val 0 ⟨next.appended config name val, used⟩

theorem appendEntry_ok {count : Nat} (able : Appendable config store.core base count key val) :
    store.appendEntry config key val = .ok (0, { store with core := store.core.appended config key val }) := by
  rw [appendEntry, able.appendEntry]
  rfl

theorem Kept.storeEntry (kept : Kept config torn store base settings) (ok : keyOk key = true)
    (size : val.length < config.headerSize) :
    ∃ result next, store.storeEntry config key val = .ok (result, next) ∧
      SetCase config store base settings (some key) val result next := by
  rw [LargeFstor.storeEntry]
  by_cases short : store.core.freeSpace < Fstor.align val.length + fstorEntrySize
  · obtain ⟨next, used, done, collected, exact⟩ := kept.gc
    have tabled := kept.tabled.collect collected
    rw [if_pos short, done]
    simp only [bind, Except.bind]
    by_cases full : next.freeSpace < Fstor.align val.length + fstorEntrySize
    · rw [if_pos full]
      exact ⟨-3, _, rfl, .full collected exact⟩
    · have able : Appendable config next (otherArea config base) (compact Prod.fst settings).length key val :=
        ⟨tabled.mounted, tabled.area, keyOk_length ok, size, Nat.le_of_not_lt full⟩
      rw [if_neg full, appendEntry_ok able]
      exact ⟨0, _, rfl, .collect rfl ok collected exact able⟩
  · have able : Appendable config store.core base settings.length key val :=
      ⟨kept.tabled.mounted, kept.tabled.area, keyOk_length ok, size, Nat.le_of_not_lt short⟩
    rw [if_neg short, appendEntry_ok able]
    exact ⟨0, _, rfl, .append rfl ok able⟩

/-- `jd_settings_set_bin` never fails. -/
theorem Kept.setCase (kept : Kept config torn store base settings) (key : Option CString) (val : List UInt8) :
    ∃ result next, store.jdSettingsSetBin config key val = .ok (result, next) ∧
      SetCase config store base settings key val result next := by
  have large := config.headerSize_le
  rw [jdSettingsSetBin]
  cases accepted : key.filter keyOk with
  | none => exact ⟨-1, store, rfl, .same _⟩
  | some name =>
    obtain ⟨rfl, ok⟩ := Option.filter_eq_some_iff.mp accepted
    dsimp only
    by_cases size : val.length > config.headerSize - 200
    · rw [if_pos size]
      exact ⟨-2, store, rfl, .same _⟩
    · rw [if_neg size, kept.findEntry]
      simp only [bind, Except.bind]
      split
      · exact ⟨0, store, rfl, .same _⟩
      · exact kept.storeEntry ok (by omega)

/-- The bitmap without the pages of the key's own value. -/
def released (config : FstorConfig) (settings : List Setting) (key : CString) (used : Nat → Bool) : Nat → Bool :=
  match lastWith Prod.fst key settings with
  | some (_, .large offset size) => marked config offset size false used
  | _ => used

/-- The page belongs to the key's own value. -/
def Owns (config : FstorConfig) (settings : List Setting) (key : CString) (page : Nat) : Prop :=
  ∃ setting, lastWith Prod.fst key settings = some setting ∧ Occupies config setting page

theorem released_own (own : Owns config settings key page) (used : Nat → Bool) :
    released config settings key used page = false := by
  obtain ⟨⟨name, value | ⟨offset, size⟩⟩, found, here⟩ := own
  · cases here
  · rw [released, found]
    exact if_pos here

theorem released_elsewhere (elsewhere : ¬ Owns config settings key page) (used : Nat → Bool) :
    released config settings key used page = used page := by
  rw [released]
  cases found : lastWith Prod.fst key settings with
  | none => rfl
  | some setting =>
    obtain ⟨name, value | ⟨offset, size⟩⟩ := setting
    · rfl
    · exact if_neg fun here => elsewhere ⟨_, found, here⟩

namespace Kept

theorem released_other (kept : Kept config torn store base settings) (other : CoversOther config settings key page) :
    released config settings key store.used page = true := by
  rw [released_elsewhere fun own => ?_]
  · exact kept.marks page ((covers_split key).mpr (.inr other))
  · obtain ⟨setting, found, here⟩ := own
    exact kept.apart.own found here other

/-- Without a leak the pages marked now are those of the other keys. -/
theorem released_iff (kept : Kept config torn store base settings) (exact : Exact config store.used settings) :
    released config settings key store.used page = true ↔ CoversOther config settings key page := by
  refine ⟨fun taken => ?_, kept.released_other⟩
  by_cases own : Owns config settings key page
  · rw [released_own own] at taken
    cases taken
  · rw [released_elsewhere own] at taken
    exact ((covers_split key).mp ((exact page).mp taken)).resolve_left own

/-- Taking the pages back after a search without result. -/
theorem marked_released (kept : Kept config torn store base settings)
    (found : lastWith Prod.fst key settings = some (key, .large offset size)) :
    marked config offset size true (released config settings key store.used) = store.used := by
  funext page
  by_cases here : OnPage config offset size page
  · have covered : Covers config settings page := ⟨key, _, found, here⟩
    rw [marked, if_pos here, kept.marks page covered]
  · rw [marked, if_neg here, released, found]
    exact if_neg here

end Kept

/-- The search has found pages. -/
structure Found (config : FstorConfig) (used : Nat → Bool) (size offset : Nat) : Prop where
  search : findFreeData config size used = .ok offset
  pages : InData config offset size
  taken : 0 < numDataPages config size
  free : ∀ page, OnPage config offset size page → used page = false

theorem found_of_search (search : findFreeData config size used = .ok offset) (some : offset ≠ 0) :
    Found config used size offset := by
  obtain ⟨first, rfl, taken, fits, free⟩ := findFreeData_found search some
  refine ⟨search, inData_pageAddress fits, taken, fun page here => ?_⟩
  rw [OnPage, firstPage_pageAddress] at here
  have clear := free (page - first) (by omega)
  rwa [show first + (page - first) = page by omega] at clear

/-- What `jd_settings_prep_large` can do. -/
inductive PrepCase (config : FstorConfig) (store : LargeFstor) (base : Nat) (settings : List Setting) (size : Nat) :
    Option CString → Option Nat → LargeFstor → Prop where
  | badKey {key : Option CString} (bad : key.filter lkeyOk = none) : PrepCase config store base settings size key none store
  | nowhere {key : CString} (ok : lkeyOk key = true)
      (search : findFreeData config size (released config settings key store.used) = .ok 0) :
    PrepCase config store base settings size (some key) none store
  | extend {key : CString} {offset : Nat} (ok : lkeyOk key = true)
      (found : Found config (released config settings key store.used) size offset)
      (able : Extendable config store.core base settings.length key offset size) :
    PrepCase config store base settings size (some key) (some offset)
      ⟨store.core.extended config key offset size,
        marked config offset size true (released config settings key store.used)⟩
  | full {key : CString} {offset : Nat} {next : Fstor} {used : Nat → Bool} (ok : lkeyOk key = true)
      (found : Found config (released config settings key store.used) size offset)
      (short : store.core.freeSpace < 24) (done : store.jdFstorGc config = .ok ⟨next, used⟩)
      (collected : Collected config store.core base (Fstor.live store.core.flash base store.core.lastEntry) next)
      (exact : Exact config used settings) (still : next.freeSpace < 24) :
    PrepCase config store base settings size (some key) none ⟨next, used⟩
  | collect {key : CString} {offset : Nat} {next : Fstor} {used : Nat → Bool} (ok : lkeyOk key = true)
      (found : Found config (released config settings key store.used) size offset)
      (short : store.core.freeSpace < 24) (done : store.jdFstorGc config = .ok ⟨next, used⟩)
      (collected : Collected config store.core base (Fstor.live store.core.flash base store.core.lastEntry) next)
      (exact : Exact config used settings)
      (able : Extendable config next (otherArea config base) (compact Prod.fst settings).length key offset size) :
    PrepCase config store base settings size (some key) (some offset)
      ⟨next.extended config key offset size, marked config offset size true used⟩

theorem appendLarge_ok {count : Nat} (able : Extendable config store.core base count key offset size) :
    store.appendLarge config key offset size =
      .ok (some offset, ⟨store.core.extended config key offset size, marked config offset size true store.used⟩) := by
  have mark : key.1.headD 0 = largeMark := headD_mark_iff.mpr (lkeyOk_iff.mp able.ok).1
  rw [appendLarge, mark]
  simp only [markLarge_ok able.pages]
  rfl

theorem Kept.storeLarge (kept : Kept config torn store base settings) (ok : lkeyOk key = true)
    (word : size < 4294967296) (found : Found config (released config settings key store.used) size offset) :
    ∃ result next, ({ store with used := released config settings key store.used }.storeLarge config key offset size) =
        .ok (result, next) ∧ PrepCase config store base settings size (some key) result next := by
  rw [LargeFstor.storeLarge]
  by_cases short : store.core.freeSpace < fstorEntrySize
  · obtain ⟨next, used, done, collected, exact⟩ := kept.gc
    have tabled := kept.tabled.collect collected
    have again : { store with used := released config settings key store.used }.jdFstorGc config = .ok ⟨next, used⟩ :=
      done
    rw [if_pos short, again]
    simp only [bind, Except.bind]
    by_cases full : next.freeSpace < fstorEntrySize
    · rw [if_pos full]
      exact ⟨none, _, rfl, .full ok found short done collected exact full⟩
    · have able : Extendable config next (otherArea config base) (compact Prod.fst settings).length key offset size :=
        ⟨tabled.mounted, tabled.area, ok, found.pages, found.taken, word, Nat.le_of_not_lt full⟩
      rw [if_neg full, appendLarge_ok able]
      exact ⟨some offset, _, rfl, .collect ok found short done collected exact able⟩
  · have able : Extendable config store.core base settings.length key offset size :=
      ⟨kept.tabled.mounted, kept.tabled.area, ok, found.pages, found.taken, word, Nat.le_of_not_lt short⟩
    have done := @appendLarge_ok config { store with used := released config settings key store.used } _ _ _ _ _ able
    rw [if_neg short, done]
    exact ⟨some offset, _, rfl, .extend ok found able⟩

/-- `jd_settings_prep_large` with the result of the search. -/
theorem Kept.prepLarge (kept : Kept config torn store base settings) (ok : lkeyOk key = true) :
    store.jdSettingsPrepLarge config (some key) size = (do
      let offset ← findFreeData config size (released config settings key store.used)
      if offset = 0 then .ok (none, store)
      else LargeFstor.storeLarge config key offset size ⟨store.core, released config settings key store.used⟩) := by
  have accepted : (some key).filter lkeyOk = some key := Option.filter_eq_some_iff.mpr ⟨rfl, ok⟩
  rw [jdSettingsPrepLarge, accepted]
  dsimp only
  rw [kept.findEntry]
  have latest := kept.tabled.latest key
  cases found : lastWith Prod.fst key settings with
  | none =>
    rw [found] at latest
    generalize Fstor.latest store.core.flash base store.core.lastEntry key = slot at latest
    cases latest
    have nothing : released config settings key store.used = store.used := by rw [released, found]
    rw [ok_bind, nothing]
    dsimp only
    rw [ok_bind]
    refine bind_congr fun place => ?_
    rw [ok_bind]
  | some setting =>
    obtain ⟨offset, bytes, rfl, pages, _, slot, lookup, mark, address, length⟩ := kept.tabled.large ok found
    have set (flag : Bool) (used : Nat → Bool) :
        markEntry config store.core.flash flag used slot = .ok (marked config offset bytes flag used) := by
      rw [markEntry, mark, address, length, markLarge_ok pages]
    have release : released config settings key store.used = marked config offset bytes false store.used := by
      rw [released, found]
    have back := kept.marked_released found
    rw [release] at back
    rw [lookup, ok_bind, release]
    dsimp only
    rw [set, ok_bind]
    refine bind_congr fun place => ?_
    rw [set, ok_bind, back]

theorem Kept.prepCase (kept : Kept config torn store base settings) (key : Option CString) (word : size < 4294967296)
    (search : ∀ name, key = some name → lkeyOk name = true →
      ∃ offset, findFreeData config size (released config settings name store.used) = .ok offset) :
    ∃ result next, store.jdSettingsPrepLarge config key size = .ok (result, next) ∧
      PrepCase config store base settings size key result next := by
  cases accepted : key.filter lkeyOk with
  | none =>
    refine ⟨none, store, ?_, .badKey accepted⟩
    rw [jdSettingsPrepLarge, accepted]
  | some name =>
    obtain ⟨rfl, ok⟩ := Option.filter_eq_some_iff.mp accepted
    obtain ⟨offset, done⟩ := search name rfl ok
    rw [kept.prepLarge ok, done]
    simp only [bind, Except.bind]
    by_cases none : offset = 0
    · rw [if_pos none]
      exact ⟨_, store, rfl, .nowhere ok (none ▸ done)⟩
    · rw [if_neg none]
      exact kept.storeLarge ok word (found_of_search done none)

/-- A call that returns is one of these cases. -/
theorem Kept.prepCase_of_ok (kept : Kept config torn store base settings) {key : Option CString} {result : Option Nat}
    (word : size < 4294967296) (done : store.jdSettingsPrepLarge config key size = .ok (result, next)) :
    PrepCase config store base settings size key result next := by
  obtain ⟨_, _, same, cases⟩ := kept.prepCase key word fun name given ok => by
    subst given
    rw [kept.prepLarge ok] at done
    cases search : findFreeData config size (released config settings name store.used) with
    | error fault =>
      rw [search] at done
      cases done
    | ok offset => exact ⟨offset, rfl⟩
  cases same.symm.trans done
  exact cases

end LargeFstor

end Jacdac
