import Jacdac.Fstor.LargeRun

/-! Which data pages are marked, and when `jd_settings_prep_large` finds a region. -/

namespace Jacdac

namespace LargeFstor

open Fstor

variable {config : FstorConfig} {store next : LargeFstor} {base : Nat} {key : CString} {settings : List Setting}
  {offset size page : Nat} {torn : Prop} {used : Nat → Bool}

/-- The page belongs to the large value of the key. -/
def OwnPage (config : FstorConfig) (store : LargeFstor) (key : CString) (page : Nat) : Prop :=
  ∃ offset size, HasLarge config store key offset size ∧ OnPage config offset size page

/-- The marked pages are those of the large values. -/
def BitmapExact (config : FstorConfig) (store : LargeFstor) : Prop :=
  ∀ page, store.used page = true ↔ ∃ key, OwnPage config store key page

/-- The page belongs to the large value of another key. -/
def TakenByOther (config : FstorConfig) (store : LargeFstor) (key : CString) (page : Nat) : Prop :=
  ∃ other, other ≠ key ∧ OwnPage config store other page

namespace Kept

theorem ownPage_iff (kept : Kept config torn store base settings) :
    OwnPage config store key page ↔ Owns config settings key page := by
  constructor
  · rintro ⟨offset, size, large, here⟩
    exact ⟨_, (kept.hasLarge_iff.mp large).2, here⟩
  · rintro ⟨⟨name, value | ⟨offset, size⟩⟩, found, here⟩
    · cases here
    · obtain ⟨same, large, _⟩ := kept.tabled.kind found
      obtain rfl : name = key := same
      exact ⟨offset, size, kept.hasLarge_iff.mpr ⟨large.mp rfl, found⟩, here⟩

theorem bitmapExact_iff (kept : Kept config torn store base settings) :
    BitmapExact config store ↔ Exact config store.used settings := by
  refine forall_congr' fun page => iff_congr Iff.rfl (exists_congr fun key => ?_)
  exact kept.ownPage_iff

theorem takenByOther_iff (kept : Kept config torn store base settings) :
    TakenByOther config store key page ↔ CoversOther config settings key page := by
  constructor
  · rintro ⟨other, differs, own⟩
    obtain ⟨setting, found, here⟩ := kept.ownPage_iff.mp own
    exact ⟨other, setting, differs, found, here⟩
  · rintro ⟨other, setting, differs, found, here⟩
    exact ⟨other, differs, kept.ownPage_iff.mpr ⟨setting, found, here⟩⟩

end Kept

/-- There is room for one more entry after a collection. -/
def RoomAfterGc (config : FstorConfig) (store : LargeFstor) : Prop :=
  ∃ collected, store.jdFstorGc config = .ok collected ∧ 24 ≤ collected.core.freeSpace

/-- There is too little space for the entry before a collection and enough after
it, and the first free run, with the pages of the key's old value counted as free,
does not cover all of these. -/
def Leaks (config : FstorConfig) (store : LargeFstor) (key : CString) (size : Nat) : Prop :=
  ∃ old bytes first, HasLarge config store key old bytes ∧ store.core.freeSpace < 24 ∧ RoomAfterGc config store ∧
    FirstFree config (marked config old bytes false store.used) (numDataPages config size) first ∧
    ∃ page, OnPage config old bytes page ∧ ¬ OnPage config (pageAddress config first) size page

/-- The first free run is the region that the call finds. -/
theorem leaks_iff : Leaks config store key size ↔
    ∃ old bytes offset, HasLarge config store key old bytes ∧ store.core.freeSpace < 24 ∧ RoomAfterGc config store ∧
      findFreeData config size (marked config old bytes false store.used) = .ok offset ∧ offset ≠ 0 ∧
      ∃ page, OnPage config old bytes page ∧ ¬ OnPage config offset size page := by
  constructor
  · rintro ⟨old, bytes, first, large, short, room, free, left⟩
    obtain ⟨search, place⟩ := findFreeData_iff.mpr ⟨first, free, rfl⟩
    exact ⟨old, bytes, _, large, short, room, search, place, left⟩
  · rintro ⟨old, bytes, offset, large, short, room, search, place, left⟩
    obtain ⟨first, free, rfl⟩ := findFreeData_iff.mp ⟨search, place⟩
    exact ⟨old, bytes, first, large, short, room, free, left⟩

theorem marked_true_iff : marked config offset size true used page = true ↔
    OnPage config offset size page ∨ used page = true := by
  rw [marked]
  split
  · rename_i here
    exact ⟨fun _ => .inl here, fun _ => rfl⟩
  · rename_i elsewhere
    exact (or_iff_right elsewhere).symm

namespace Kept

theorem released_eq (kept : Kept config torn store base settings) {old bytes : Nat}
    (large : HasLarge config store key old bytes) (used : Nat → Bool) :
    released config settings key used = marked config old bytes false used := by
  rw [released, (kept.hasLarge_iff.mp large).2]

/-- Without a collection the bitmap stays exact. -/
theorem extend_exact (kept : Kept config torn store base settings) (exact : Exact config store.used settings) :
    Exact config (marked config offset size true (released config settings key store.used))
      (settings ++ [(key, .large offset size)]) := by
  intro page
  rw [marked_true_iff, covers_append, kept.released_iff exact]
  rfl

/-- With a collection the old pages stay marked. -/
theorem collect_exact_iff (kept : Kept config torn store base settings) (exact : Exact config used settings) :
    Exact config (marked config offset size true used) (compact Prod.fst settings ++ [(key, .large offset size)]) ↔
      ∀ page, Owns config settings key page → OnPage config offset size page := by
  have split (page : Nat) : marked config offset size true used page = true ↔
      OnPage config offset size page ∨ Owns config settings key page ∨ CoversOther config settings key page := by
    rw [marked_true_iff, exact page, covers_split key]
    rfl
  have covers (page : Nat) : Covers config (compact Prod.fst settings ++ [(key, .large offset size)]) page ↔
      OnPage config offset size page ∨ CoversOther config settings key page := by
    rw [covers_append, coversOther_compact]
    rfl
  constructor
  · intro exact page own
    have covered := (covers page).mp ((exact page).mp ((split page).mpr (.inr (.inl own))))
    obtain ⟨setting, found, here⟩ := own
    exact covered.resolve_right (kept.apart.own found here)
  · intro covered page
    rw [split, covers]
    constructor
    · rintro (here | own | others)
      · exact .inl here
      · exact .inl (covered page own)
      · exact .inr others
    · exact Or.imp_right .inr

/-- A call keeps the bitmap exact unless it leaks. -/
theorem prep_exact_iff (kept : Kept config torn store base settings) (exact : Exact config store.used settings)
    {result : Option Nat} (step : PrepCase config store base settings size (some key) result next) :
    BitmapExact config next ↔ ¬ Leaks config store key size := by
  rw [leaks_iff]
  cases step with
  | badKey bad =>
    refine ⟨fun _ ⟨old, bytes, _, large, _⟩ => ?_, fun _ => kept.bitmapExact_iff.mpr exact⟩
    exact absurd (bad.symm.trans (Option.filter_eq_some_iff.mpr ⟨rfl, (kept.hasLarge_iff.mp large).1⟩)) nofun
  | nowhere ok search =>
    refine ⟨fun _ ⟨old, bytes, offset, large, _, _, again, nonzero, _⟩ => ?_, fun _ => kept.bitmapExact_iff.mpr exact⟩
    rw [kept.released_eq large, again] at search
    exact nonzero (Except.ok.inj search)
  | extend ok found able =>
    refine ⟨fun _ ⟨old, bytes, _, _, short, _⟩ => Nat.not_lt.mpr able.space short, fun _ => ?_⟩
    exact (kept.extend_found found able).bitmapExact_iff.mpr (kept.extend_exact exact)
  | full ok found short done collected rebuilt still =>
    refine ⟨fun _ ⟨_, _, _, _, _, ⟨_, again, room⟩, _⟩ => ?_, fun _ => ?_⟩
    · cases again.symm.trans done
      exact Nat.not_lt.mpr room still
    · refine (kept.collect collected rebuilt).bitmapExact_iff.mpr fun page => ?_
      exact (rebuilt page).trans covers_compact.symm
  | @collect _ offset core used ok found short done collected rebuilt able =>
    rw [(kept.collect_found found collected rebuilt able).bitmapExact_iff, kept.collect_exact_iff rebuilt]
    constructor
    · rintro covered ⟨old, bytes, place, large, _, _, search, _, page, here, outside⟩
      rw [← kept.released_eq large, found.search] at search
      cases search
      exact outside (covered page (kept.ownPage_iff.mp ⟨old, bytes, large, here⟩))
    · intro tight page own
      by_contra outside
      obtain ⟨old, bytes, large, here⟩ := kept.ownPage_iff.mpr own
      have search := found.search
      rw [kept.released_eq large] at search
      have room := able.room
      refine tight ⟨old, bytes, offset, large, short, ⟨_, done, able.space⟩, search, by omega, page, here, outside⟩

end Kept

theorem fresh_large (config : FstorConfig) (torn : Prop) (used : Nat → Bool) :
    ∃ store, jdFstorInit config ⟨boot erasedFlash, used⟩ = .ok store ∧ Kept config torn store 0 [] ∧
      Exact config store.used [] := by
  obtain ⟨store, base, settings, init, kept, exact, ⟨picked, _⟩ | ⟨_, rfl, rfl, _⟩⟩ :=
    @Recoverable.mounts config (boot erasedFlash) _ torn (erased_recoverable config torn) rfl rfl used
  · exact absurd ((erasedFlash_invalid config base).symm.trans (pickHeader_area picked).2) nofun
  · exact ⟨store, init, kept, exact⟩

/-- Runs without a leak keep the bitmap exact. -/
theorem LargeRun.exact (run : LargeRun config (fun store key size => ¬ Leaks config store key size) store) :
    ∃ base settings, Kept config False store base settings ∧ Exact config store.used settings := by
  induction run with
  | mounted done => exact kept_init done
  | set _ key val done ih =>
    obtain ⟨base, settings, kept, exact⟩ := ih
    obtain ⟨_, _, same, step⟩ := kept.setCase key val
    cases same.symm.trans done
    obtain ⟨base, later, kept, preserved⟩ := kept.set step
    exact ⟨base, later, kept, preserved exact⟩
  | prep _ key size word admitted done ih =>
    obtain ⟨base, settings, kept, exact⟩ := ih
    have step := kept.prepCase_of_ok word done
    obtain ⟨_, later, after, _⟩ := kept.prep step
    refine ⟨_, later, after, after.bitmapExact_iff.mp ?_⟩
    cases key with
    | none =>
      cases step
      exact kept.bitmapExact_iff.mpr exact
    | some name => exact (kept.prep_exact_iff exact step).mpr (admitted name rfl)
  | write _ key dst src inside ih =>
    obtain ⟨base, settings, kept, exact⟩ := ih
    exact ⟨base, settings, (kept.write inside).1, exact⟩
  | remount _ done ih =>
    obtain ⟨base, settings, kept, _⟩ := ih
    exact kept.remount done

end LargeFstor

/-- In every run without a leak the bitmap has exactly the pages of the large
values, and the next call keeps it so unless it leaks. -/
theorem large_bitmap_exact (config : FstorConfig)
    (run : LargeFstor.LargeRun config (fun store key size => ¬ LargeFstor.Leaks config store key size) store) :
    LargeFstor.BitmapExact config store ∧
      ∀ key size result next, size < 4294967296 → store.jdSettingsPrepLarge config (some key) size = .ok (result, next) →
        (LargeFstor.BitmapExact config next ↔ ¬ LargeFstor.Leaks config store key size) := by
  obtain ⟨base, settings, kept, exact⟩ := run.exact
  refine ⟨kept.bitmapExact_iff.mpr exact, fun key size result next word done => ?_⟩
  exact kept.prep_exact_iff exact (kept.prepCase_of_ok word done)

theorem large_bitmap_exact_first :
    ∃ store, LargeFstor.LargeRun largeConfig (fun store key size => ¬ LargeFstor.Leaks largeConfig store key size) store ∧
      (List.range 4).map store.used = [true, true, false, false] ∧ LargeFstor.BitmapExact largeConfig store := by
  have done : ((LargeFstor.prepAll largeConfig [(largeKeyA, 300)]).toOption.map
      fun store => (List.range 4).map store.used) = some [true, true, false, false] := by decide +kernel
  obtain ⟨store, prepared, marks⟩ := Option.map_eq_some_iff.mp done
  have prepared : LargeFstor.prepAll largeConfig [(largeKeyA, 300)] = .ok store := by
    cases result : LargeFstor.prepAll largeConfig [(largeKeyA, 300)] with
    | error fault =>
      rw [result] at prepared
      cases prepared
    | ok other =>
      rw [result] at prepared
      exact congrArg Except.ok (Option.some.inj prepared)
  obtain ⟨first, init, loop⟩ := ok_of_bind prepared
  obtain ⟨second, call, same⟩ := ok_of_bind loop
  cases same
  obtain ⟨⟨result, next⟩, prep, same⟩ := ok_of_bind call
  cases same
  obtain ⟨_, mounted, fresh, _⟩ := LargeFstor.fresh_large largeConfig False fun _ => false
  cases mounted.symm.trans init
  have run : LargeFstor.LargeRun largeConfig (fun store key size => ¬ LargeFstor.Leaks largeConfig store key size) store :=
    .prep (.mounted init) (some largeKeyA) 300 (by decide)
      (fun name _ ⟨old, bytes, _, large, _⟩ => absurd (fresh.hasLarge_iff.mp large).2 nofun) prep
  exact ⟨store, run, marks, (large_bitmap_exact largeConfig run).1⟩

namespace LargeFstor

/-- A key prepared eight times fills the table; after a remount it is prepared
once more with half the size. The result has the space before, the old region, the
place of the new one, and the space after a collection. -/
def prepAgain : Except LargeFault (Nat × Option (Nat × Nat) × Nat × Nat) := do
  let store ← prepAll largeConfig (List.replicate 8 (largeKeyA, 512))
  let store ← store.remount largeConfig
  let (_, _) ← store.jdSettingsPrepLarge largeConfig (some largeKeyA) 256
  let (old, _) ← store.jdSettingsGetLarge largeConfig (some largeKeyA)
  let place ← findFreeData largeConfig 256 (marked largeConfig 512 512 false store.used)
  let collected ← store.jdFstorGc largeConfig
  return (store.core.freeSpace, old, place, collected.core.freeSpace)

end LargeFstor

/-- A page of the old value stays marked when the new entry needs a collection. -/
theorem large_bitmap_leaks :
    ¬ ∀ config store, LargeFstor.LargeRun config (fun _ _ _ => True) store → LargeFstor.BitmapExact config store := by
  intro holds
  have done : LargeFstor.prepAgain = .ok (16, some (512, 512), 512, 184) := by decide +kernel
  obtain ⟨full, prepared, done⟩ := ok_of_bind done
  obtain ⟨store, remount, done⟩ := ok_of_bind done
  obtain ⟨⟨result, next⟩, prep, done⟩ := ok_of_bind done
  obtain ⟨⟨old, _⟩, large, done⟩ := ok_of_bind done
  obtain ⟨place, search, done⟩ := ok_of_bind done
  obtain ⟨collected, gc, done⟩ := ok_of_bind done
  obtain ⟨free, rfl, rfl, room⟩ : store.core.freeSpace = 16 ∧ old = some (512, 512) ∧ place = 512 ∧
      collected.core.freeSpace = 184 := by
    simpa only [pure, Except.pure, Except.ok.injEq, Prod.mk.injEq] using done
  have run : LargeFstor.LargeRun largeConfig (fun _ _ _ => True) full :=
    LargeFstor.prepAll_run prepared (by decide) fun _ _ _ => trivial
  obtain ⟨_, _, kept⟩ := run.kept
  obtain ⟨_, _, kept, exact⟩ := kept.remount remount
  have leaks : LargeFstor.Leaks largeConfig store largeKeyA 256 := LargeFstor.leaks_iff.mpr
    ⟨512, 512, 512, ⟨_, large⟩, by omega, ⟨_, gc, by omega⟩, search, by decide, 1, by decide, by decide⟩
  refine (kept.prep_exact_iff exact (kept.prepCase_of_ok (by decide) prep)).mp ?_ leaks
  exact holds largeConfig next (.prep (.remount run remount) (some largeKeyA) 256 (by decide) (fun _ _ => trivial) prep)

end Jacdac
