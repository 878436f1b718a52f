import Jacdac.Fstor.Allocate

/-! When `jd_settings_prep_large` finds a region although, or because, there is one. -/

namespace Jacdac

namespace LargeFstor

open Fstor

variable {config : FstorConfig} {store next : LargeFstor} {base : Nat} {key : CString} {settings : List Setting}
  {size : Nat} {torn : Prop}

/-- A size up to 2^31 needs a page, and the number of pages does not wrap. -/
theorem numDataPages_bounds (small : size ≤ 2147483648) :
    0 < numDataPages config size ∧ numDataPages config size < 4294967296 := by
  obtain ⟨some, positive⟩ := config.positive
  have bytes := config.bytes
  have two := Nat.mul_le_mul_right config.pageSize (show 2 ≤ config.totalPages by have := config.inside; omega)
  rw [numDataPages, alignCore]
  by_cases empty : size = 0
  · rw [if_pos empty, Nat.div_self positive]
    omega
  · rw [if_neg empty, Nat.mul_div_cancel _ positive, u32_of_lt (by omega)]
    refine ⟨Nat.div_pos (by omega) positive, Nat.lt_of_le_of_lt (Nat.div_le_self ..) (by omega)⟩

/-- The pages from `first` on are data pages that no other key has. -/
def FreeRange (config : FstorConfig) (store : LargeFstor) (key : CString) (size first : Nat) : Prop :=
  first + numDataPages config size ≤ dataPages config ∧
    ∀ page, first ≤ page → page < first + numDataPages config size → ¬ TakenByOther config store key page

/-- There is a range of pages for the value and room for its entry. -/
def Possible (config : FstorConfig) (store : LargeFstor) (key : CString) (size : Nat) : Prop :=
  (∃ first, FreeRange config store key size first) ∧ (24 ≤ store.core.freeSpace ∨ RoomAfterGc config store)

/-- A region is returned when there is one, else `NULL` and every value stays; no
assertion fails. -/
def AllocatesExactly (config : FstorConfig) (store : LargeFstor) (key : CString) (size : Nat) : Prop :=
  ∃ result next, store.jdSettingsPrepLarge config (some key) size = .ok (result, next) ∧
    (Possible config store key size →
      ∃ first, result = some (pageAddress config first) ∧ FreeRange config store key size first) ∧
    (¬ Possible config store key size →
      result = none ∧ ∃ map, Serves config store map ∧ Serves config next map)

/-- A range of pages that are not marked, or are the key's own, ends before the
last data page. -/
def EndsBefore (config : FstorConfig) (store : LargeFstor) (key : CString) (size : Nat) : Prop :=
  ∃ first, first + numDataPages config size < dataPages config ∧
    ∀ page, first ≤ page → page < first + numDataPages config size →
      store.used page = false ∨ OwnPage config store key page

/-- The request is one that the search serves. -/
def Servable (config : FstorConfig) (store : LargeFstor) (key : CString) (size : Nat) : Prop :=
  numDataPages config size ≤ dataPages config ∧ (Possible config store key size → EndsBefore config store key size)

namespace Kept

/-- The pages that the search takes for free. -/
theorem released_false_iff (kept : Kept config torn store base settings) {page : Nat} :
    released config settings key store.used page = false ↔
      store.used page = false ∨ OwnPage config store key page := by
  rw [kept.ownPage_iff]
  by_cases own : Owns config settings key page
  · exact ⟨fun _ => .inr own, fun _ => released_own own _⟩
  · rw [released_elsewhere own, or_iff_left own]

theorem endsBefore_iff (kept : Kept config torn store base settings) : EndsBefore config store key size ↔
    ∃ first, first + numDataPages config size < dataPages config ∧
      FreeRun config (released config settings key store.used) (numDataPages config size) first := by
  refine exists_congr fun first => and_congr_right fun below => ?_
  constructor
  · intro free
    exact ⟨by omega, fun i inside => kept.released_false_iff.mpr (free (first + i) (by omega) (by omega))⟩
  · intro free page lower upper
    have clear := free.2 (page - first) (by omega)
    rw [show first + (page - first) = page by omega] at clear
    exact kept.released_false_iff.mp clear

theorem freeRange_of_found (kept : Kept config torn store base settings) {offset : Nat}
    (found : Found config (released config settings key store.used) size offset) :
    FreeRange config store key size (firstPage config offset) := by
  refine ⟨found.pages.2, fun page lower upper taken => ?_⟩
  exact kept.found_free found page ⟨lower, upper⟩ (kept.takenByOther_iff.mp taken)

/-- A request for more pages than there are fails an assertion. -/
theorem prep_beyond (kept : Kept config torn store base settings) (ok : lkeyOk key = true)
    (more : dataPages config < numDataPages config size) (small : numDataPages config size < 4294967296) :
    store.jdSettingsPrepLarge config (some key) size = .error .page := by
  rw [kept.prepLarge ok, findFreeData_beyond more small]
  rfl

/-- What is asked of the only result. -/
theorem allocatesExactly_of {result : Option Nat}
    (done : store.jdSettingsPrepLarge config (some key) size = .ok (result, next)) :
    AllocatesExactly config store key size ↔
      (Possible config store key size →
        ∃ first, result = some (pageAddress config first) ∧ FreeRange config store key size first) ∧
      (¬ Possible config store key size →
        result = none ∧ ∃ map, Serves config store map ∧ Serves config next map) := by
  constructor
  · rintro ⟨_, _, again, property⟩
    cases again.symm.trans done
    exact property
  · exact fun property => ⟨result, next, done, property⟩

/-- Without a result every value stays. -/
theorem prep_unchanged (kept : Kept config torn store base settings)
    (step : PrepCase config store base settings size (some key) none next) :
    ∃ map, Serves config store map ∧ Serves config next map := by
  obtain ⟨_, later, after, values⟩ := kept.prep step
  refine ⟨_, kept.serves, ?_⟩
  have same : valueMap next.core.flash later = valueMap store.core.flash settings :=
    funext fun other => values other (.inr rfl)
  rw [← same]
  exact after.serves

/-- The property of a call that found a region, with room for the entry. -/
theorem exactly_of_found (kept : Kept config torn store base settings) {offset : Nat}
    (found : Found config (released config settings key store.used) size offset)
    (room : 24 ≤ store.core.freeSpace ∨ RoomAfterGc config store)
    (done : store.jdSettingsPrepLarge config (some key) size = .ok (some offset, next)) :
    AllocatesExactly config store key size := by
  have free := kept.freeRange_of_found found
  refine (allocatesExactly_of done).mpr ⟨fun _ => ⟨_, congrArg some found.pages.1, free⟩, fun impossible => ?_⟩
  exact absurd ⟨⟨_, free⟩, room⟩ impossible

/-- A region is found only if a range ends before the last page. -/
theorem endsBefore_of_found (kept : Kept config torn store base settings) {offset : Nat}
    (found : Found config (released config settings key store.used) size offset) : EndsBefore config store key size := by
  rw [kept.endsBefore_iff]
  have fits := found.pages.2
  rcases findFreeData_fits found.taken (by omega) (released config settings key store.used) with
    ⟨first, below, run, _⟩ | ⟨nothing, _⟩
  · exact ⟨first, below, run⟩
  · have zero := Except.ok.inj (found.search.symm.trans nothing)
    have place := found.pages.1
    exact absurd (place.symm.trans zero) (pageAddress_ne_zero config _)

theorem allocatesExactly_iff (kept : Kept config torn store base settings) (ok : lkeyOk key = true)
    (small : size ≤ 2147483648) : AllocatesExactly config store key size ↔ Servable config store key size := by
  obtain ⟨taken, word⟩ := @numDataPages_bounds config _ small
  by_cases fits : numDataPages config size ≤ dataPages config
  · have search := findFreeData_fits taken fits (released config settings key store.used)
    obtain ⟨result, next, done, step⟩ := kept.prepCase (some key) (show size < 4294967296 by omega) fun name given _ => by
      obtain rfl := Option.some.inj given
      rcases search with ⟨first, _, _, done⟩ | ⟨done, _⟩
      · exact ⟨_, done⟩
      · exact ⟨_, done⟩
    cases step with
    | badKey bad => exact absurd (bad.symm.trans (Option.filter_eq_some_iff.mpr ⟨rfl, ok⟩)) nofun
    | nowhere _ nothing =>
      have none := (search.resolve_left fun ⟨first, _, _, place⟩ =>
        pageAddress_ne_zero config first (Except.ok.inj (place.symm.trans nothing))).2
      rw [allocatesExactly_of done, Servable, kept.endsBefore_iff]
      constructor
      · rintro ⟨region, _⟩
        refine ⟨fits, fun possible => ?_⟩
        obtain ⟨first, absent, _⟩ := region possible
        cases absent
      · rintro ⟨_, served⟩
        refine ⟨fun possible => ?_, fun _ => ⟨rfl, kept.prep_unchanged (.nowhere ok nothing)⟩⟩
        obtain ⟨first, below, free⟩ := served possible
        exact absurd free (none first below)
    | extend _ region able =>
      exact iff_of_true (kept.exactly_of_found region (.inl able.space) done)
        ⟨fits, fun _ => kept.endsBefore_of_found region⟩
    | full _ region short gc collected exact still =>
      have impossible : ¬ Possible config store key size := by
        rintro ⟨_, room | ⟨_, again, room⟩⟩
        · omega
        · cases again.symm.trans gc
          exact Nat.not_lt.mpr room still
      refine iff_of_true ((allocatesExactly_of done).mpr ⟨fun possible => absurd possible impossible, fun _ => ⟨rfl, ?_⟩⟩)
        ⟨fits, fun possible => absurd possible impossible⟩
      exact kept.prep_unchanged (.full ok region short gc collected exact still)
    | collect _ region short gc collected exact able =>
      exact iff_of_true (kept.exactly_of_found region (.inr ⟨_, gc, able.space⟩) done)
        ⟨fits, fun _ => kept.endsBefore_of_found region⟩
  · refine iff_of_false ?_ fun servable => fits servable.1
    rintro ⟨result, next, done, _⟩
    exact absurd (done.symm.trans (kept.prep_beyond ok (by omega) word)) nofun

end Kept

end LargeFstor

/-- In every reachable state, `jd_settings_prep_large` does what is asked for a large
key and a size up to 2^31 exactly when the data area has as many pages, and either
no region is possible or a range that the bitmap shows as free ends before the last
data page. -/
theorem large_allocation_exact_iff (config : FstorConfig) (run : LargeFstor.LargeRun config (fun _ _ _ => True) store)
    (key : CString) (large : Fstor.lkeyOk key = true) (size : Nat) (small : size ≤ 2147483648) :
    LargeFstor.AllocatesExactly config store key size ↔ LargeFstor.Servable config store key size := by
  obtain ⟨base, settings, kept⟩ := run.kept
  exact kept.allocatesExactly_iff large small

theorem large_allocation_exact_first :
    ∃ store, LargeFstor.LargeRun largeConfig (fun _ _ _ => True) store ∧
      LargeFstor.AllocatesExactly largeConfig store largeKeyA 256 := by
  obtain ⟨store, init, fresh, exact⟩ := LargeFstor.fresh_large largeConfig False fun _ => false
  have run : LargeFstor.LargeRun largeConfig (fun _ _ _ => True) store := .mounted init
  refine ⟨store, run, (large_allocation_exact_iff largeConfig run largeKeyA (by decide) 256 (by decide)).mpr ?_⟩
  refine ⟨by decide, fun _ => ⟨0, by decide, fun page _ _ => .inl ?_⟩⟩
  refine Bool.eq_false_iff.mpr fun marked => ?_
  obtain ⟨key, setting, found, _⟩ := (exact page).mp marked
  cases found

/-- A value that fits the data area exactly gets no region. -/
theorem exact_fit_not_found :
    ¬ ∀ config store, LargeFstor.LargeRun config (fun _ _ _ => True) store →
      ∀ key, Fstor.lkeyOk key = true → ∀ size ≤ 2147483648, LargeFstor.AllocatesExactly config store key size := by
  intro holds
  obtain ⟨store, init, fresh, _⟩ := LargeFstor.fresh_large largeConfig False fun _ => false
  have exactly := holds largeConfig store (.mounted init) largeKeyA (by decide) 1024 (by decide)
  have space : store.core.freeSpace + 48 + 24 * 0 + 0 = 256 := fresh.tabled.freeSpace
  have possible : LargeFstor.Possible largeConfig store largeKeyA 1024 := by
    refine ⟨⟨0, by decide, fun page _ _ taken => ?_⟩, .inl (by omega)⟩
    obtain ⟨other, setting, _, found, _⟩ := fresh.takenByOther_iff.mp taken
    cases found
  obtain ⟨first, below, _⟩ := ((fresh.allocatesExactly_iff (by decide) (by decide)).mp exactly).2 possible
  have four : Fstor.numDataPages largeConfig 1024 = 4 ∧ Fstor.dataPages largeConfig = 4 := by decide
  omega

end Jacdac
