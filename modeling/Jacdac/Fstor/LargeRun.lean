import Jacdac.Fstor.LargeMap
import Jacdac.Fstor.Map

/-! Runs of the store with large settings, from erased flash. -/

namespace Jacdac

namespace LargeFstor

open Fstor

variable {config : FstorConfig} {store next : LargeFstor} {base : Nat} {key other : CString} {val : List UInt8}
  {settings : List Setting} {offset size page dst : Nat} {torn : Prop} {used : Nat → Bool} {src : List UInt8}

theorem coversOther_compact : CoversOther config (compact Prod.fst settings) key page ↔
    CoversOther config settings key page := by
  unfold CoversOther
  simp only [lastWith_compact]

namespace Kept

theorem region (kept : Kept config torn store base settings)
    (found : lastWith Prod.fst key settings = some (key, .large offset size)) :
    InData config offset size ∧ 0 < numDataPages config size ∧ size ≤ regionSize config size := by
  have ok := (kept.tabled.kind found).2.1.mp rfl
  rcases kept.getLarge ok with ⟨none, _⟩ | ⟨place, bytes, latest, pages, taken, word, _⟩
  · exact absurd (found.symm.trans none) nofun
  · cases found.symm.trans latest
    exact ⟨pages, taken, size_le_region word taken⟩

/-- Changes behind both areas. -/
theorem transport (kept : Kept config torn store base settings) (flash : Memory) (ops : List FlashOp)
    (same : ∀ cell, cell < 2 * config.headerSize → flash cell = store.core.flash cell) :
    Kept config torn { store with core := { store.core with flash, ops } } base settings := by
  have low := kept.tabled.area.le
  have high := kept.tabled.area.other.le
  have room := config.headerSize_le
  refine ⟨kept.tabled.transport flash ops fun cell _ upper => same cell (by omega), ?_, ?_, kept.apart, kept.marks⟩
  · rw [isValidHeader_congr fun cell _ upper => same cell (by omega)]
    exact kept.valid
  · exact kept.other.congr fun cell _ upper => same cell (by omega)

/-- A new entry on pages that no other key has leaves the values of the others alone. -/
theorem extend_others (kept : Kept config torn store base settings)
    (able : Extendable config store.core base settings.length key offset size)
    (free : ∀ page, OnPage config offset size page → ¬ CoversOther config settings key page) (differs : other ≠ key) :
    valueMap (store.core.extended config key offset size).flash (settings ++ [(key, .large offset size)]) other =
      valueMap store.core.flash settings other := by
  have room := able.room
  refine valueMap_congr (by rw [lastWith_append, if_neg (Ne.symm differs)]) fun place bytes found cell lower upper => ?_
  obtain ⟨pages, taken, length⟩ := kept.region found
  have above := pages.above
  have apart := regions_apart able.pages pages able.taken taken
    fun page both => free page both.1 ⟨other, _, differs, found, both.2⟩
  rw [regionSize] at apart
  exact able.outside cell (.inr (by omega)) (by omega)

/-- A collection leaves all values alone. -/
theorem collect_values (kept : Kept config torn store base settings) {core : Fstor}
    (collected : Collected config store.core base (Fstor.live store.core.flash base store.core.lastEntry) core) :
    valueMap core.flash (compact Prod.fst settings) = valueMap store.core.flash settings := by
  rw [valueMap_compact]
  funext name
  refine valueMap_congr rfl fun place bytes found cell lower _ => collected.outside cell (.inr ?_)
  have above := (kept.region found).1.above
  have high := kept.tabled.area.other.le
  omega

/-- The pages that the search returns belong to no other key. -/
theorem found_free (kept : Kept config torn store base settings)
    (found : Found config (released config settings key store.used) size offset) :
    ∀ page, OnPage config offset size page → ¬ CoversOther config settings key page := by
  intro page here taken
  exact absurd ((found.free page here).symm.trans (kept.released_other taken)) nofun

/-- The state after `jd_settings_set_bin`; the bitmap is as exact as before. -/
theorem set (kept : Kept config torn store base settings) {key : Option CString} {result : Int}
    (step : SetCase config store base settings key val result next) :
    ∃ base later, Kept config torn next base later ∧
      (Exact config store.used settings → Exact config next.used later) := by
  cases step with
  | same => exact ⟨base, settings, kept, id⟩
  | append given ok able =>
    exact ⟨base, _, kept.append ok able, fun exact page => (exact page).trans (kept.tabled.covers_small ok val).symm⟩
  | full collected exact =>
    exact ⟨_, _, kept.collect collected exact, fun _ page => (exact page).trans covers_compact.symm⟩
  | collect given ok collected exact able =>
    have compacted := kept.collect collected exact
    exact ⟨_, _, compacted.append ok able,
      fun _ page => (exact page).trans (covers_compact.symm.trans (compacted.tabled.covers_small ok val).symm)⟩

/-- A new region without a collection. -/
theorem extend_found (kept : Kept config torn store base settings)
    (found : Found config (released config settings key store.used) size offset)
    (able : Extendable config store.core base settings.length key offset size) :
    Kept config torn ⟨store.core.extended config key offset size,
      marked config offset size true (released config settings key store.used)⟩ base
      (settings ++ [(key, .large offset size)]) := by
  refine kept.extend able (kept.found_free found) fun page taken => ?_
  rw [marked]
  split
  · rfl
  · rename_i elsewhere
    exact kept.released_other (taken.resolve_left elsewhere)

/-- A new region after a collection. -/
theorem collect_found (kept : Kept config torn store base settings) {core : Fstor}
    (found : Found config (released config settings key store.used) size offset)
    (collected : Collected config store.core base (Fstor.live store.core.flash base store.core.lastEntry) core)
    (exact : Exact config used settings)
    (able : Extendable config core (otherArea config base) (compact Prod.fst settings).length key offset size) :
    Kept config torn ⟨core.extended config key offset size, marked config offset size true used⟩
      (otherArea config base) (compact Prod.fst settings ++ [(key, .large offset size)]) := by
  have compacted := kept.collect collected exact
  refine compacted.extend able (fun page here taken => ?_) fun page taken => ?_
  · exact kept.found_free found page here (coversOther_compact.mp taken)
  · rw [marked]
    split
    · rfl
    · rename_i elsewhere
      exact compacted.marks page ((covers_split key).mpr (.inr (taken.resolve_left elsewhere)))

/-- The state after `jd_settings_prep_large`. Values of other keys stay, and without
a result all values stay. -/
theorem prep (kept : Kept config torn store base settings) {key : Option CString} {result : Option Nat}
    (step : PrepCase config store base settings size key result next) :
    ∃ base later, Kept config torn next base later ∧
      ∀ other, key ≠ some other ∨ result = none →
        valueMap next.core.flash later other = valueMap store.core.flash settings other := by
  cases step with
  | badKey | nowhere => exact ⟨base, settings, kept, fun _ _ => rfl⟩
  | @extend key offset ok found able =>
    refine ⟨base, _, kept.extend_found found able, fun other differs => kept.extend_others able (kept.found_free found) ?_⟩
    exact fun same => differs.elim (fun ne => ne (congrArg some same.symm)) nofun
  | full ok found short done collected exact still =>
    exact ⟨_, _, kept.collect collected exact, fun other _ => congrFun (kept.collect_values collected) other⟩
  | @collect key offset core used ok found short done collected exact able =>
    refine ⟨_, _, kept.collect_found found collected exact able, fun other differs => ?_⟩
    have others := (kept.collect collected exact).extend_others able
      (fun page here taken => kept.found_free found page here (coversOther_compact.mp taken))
      fun same : other = key => differs.elim (fun ne => ne (congrArg some same.symm)) nofun
    exact others.trans (congrFun (kept.collect_values collected) other)

end Kept

/-- The key has a large value of this size at this address. -/
def HasLarge (config : FstorConfig) (store : LargeFstor) (key : CString) (offset size : Nat) : Prop :=
  ∃ after, store.jdSettingsGetLarge config (some key) = .ok (some (offset, size), after)

/-- A write to the pages of a key. -/
def InRegion (config : FstorConfig) (store : LargeFstor) (key : CString) (dst : Nat) (src : List UInt8) : Prop :=
  ∃ offset size, HasLarge config store key offset size ∧ offset ≤ dst ∧
    dst + src.length ≤ offset + regionSize config size

theorem Kept.hasLarge_iff (kept : Kept config torn store base settings) : HasLarge config store key offset size ↔
    lkeyOk key = true ∧ lastWith Prod.fst key settings = some (key, .large offset size) := by
  constructor
  · rintro ⟨after, done⟩
    cases accepted : (some key).filter lkeyOk with
    | none =>
      rw [jdSettingsGetLarge, accepted] at done
      cases done
    | some name =>
      obtain ⟨same, ok⟩ := Option.filter_eq_some_iff.mp accepted
      obtain rfl := Option.some.inj same
      rcases kept.getLarge ok with ⟨_, none⟩ | ⟨place, bytes, found, _, _, _, again⟩
      · cases done.symm.trans none
      · cases done.symm.trans again
        exact ⟨ok, found⟩
  · rintro ⟨ok, found⟩
    rcases kept.getLarge ok with ⟨none, _⟩ | ⟨place, bytes, latest, _, _, _, done⟩
    · cases found.symm.trans none
    · cases found.symm.trans latest
      exact ⟨store, done⟩

theorem Kept.write (kept : Kept config torn store base settings) (inside : InRegion config store key dst src) :
    Kept config torn (store.jdSettingsWriteLarge config dst src) base settings ∧
      ∀ other, other ≠ key → valueMap (store.jdSettingsWriteLarge config dst src).core.flash settings other =
        valueMap store.core.flash settings other := by
  obtain ⟨offset, size, large, lower, upper⟩ := inside
  have found := (kept.hasLarge_iff.mp large).2
  obtain ⟨pages, taken, _⟩ := kept.region found
  have above := pages.above
  refine ⟨kept.transport _ _ fun cell low => Memory.write_outside (by omega), fun other differs => ?_⟩
  refine valueMap_congr rfl fun place bytes there cell low high => Memory.write_outside ?_
  obtain ⟨data, some, length⟩ := kept.region there
  have apart := regions_apart pages data taken some
    fun page both => kept.apart key other (Ne.symm differs) _ _ found there page both
  omega

/-- Setting small values, preparing and writing large ones, and remounting. What
is prepared is admitted. -/
inductive LargeRun (config : FstorConfig) (admits : LargeFstor → CString → Nat → Prop) : LargeFstor → Prop where
  | mounted {store : LargeFstor} (done : jdFstorInit config ⟨boot erasedFlash, fun _ => false⟩ = .ok store) :
    LargeRun config admits store
  | set {store next : LargeFstor} (run : LargeRun config admits store) (key : Option CString) (val : List UInt8)
      (done : store.jdSettingsSetBin config key val = .ok (result, next)) : LargeRun config admits next
  | prep {store next : LargeFstor} (run : LargeRun config admits store) (key : Option CString) (size : Nat)
      (word : size < 4294967296) (admitted : ∀ name, key = some name → admits store name size)
      (done : store.jdSettingsPrepLarge config key size = .ok (result, next)) : LargeRun config admits next
  | write {store : LargeFstor} (run : LargeRun config admits store) (key : CString) (dst : Nat) (src : List UInt8)
      (inside : InRegion config store key dst src) : LargeRun config admits (store.jdSettingsWriteLarge config dst src)
  | remount {store next : LargeFstor} (run : LargeRun config admits store) (done : store.remount config = .ok next) :
    LargeRun config admits next

theorem erased_recoverable (config : FstorConfig) (torn : Prop) : Recoverable config torn erasedFlash :=
  fun base _ valid => absurd ((erasedFlash_invalid config base).symm.trans valid) nofun

/-- The first mount. -/
theorem kept_init (done : jdFstorInit config ⟨boot erasedFlash, used⟩ = .ok store) :
    ∃ base settings, Kept config torn store base settings ∧ Exact config store.used settings := by
  obtain ⟨after, base, settings, init, kept, exact, _⟩ :=
    @Recoverable.mounts config (boot erasedFlash) _ torn (erased_recoverable config torn) rfl rfl used
  cases init.symm.trans done
  exact ⟨base, settings, kept, exact⟩

/-- A remount rebuilds the bitmap. -/
theorem Kept.remount (kept : Kept config torn store base settings) (done : store.remount config = .ok next) :
    ∃ base settings, Kept config torn next base settings ∧ Exact config next.used settings := by
  obtain ⟨after, base, settings, init, kept, exact, _⟩ :=
    @Recoverable.mounts config { store.core with settings := none } _ torn kept.recoverable rfl rfl store.used
  cases init.symm.trans done
  exact ⟨base, settings, kept, exact⟩

variable {admits : LargeFstor → CString → Nat → Prop}

theorem LargeRun.kept (run : LargeRun config admits store) : ∃ base settings, Kept config False store base settings := by
  induction run with
  | mounted done =>
    obtain ⟨base, settings, kept, _⟩ := kept_init done
    exact ⟨base, settings, kept⟩
  | set _ key val done ih =>
    obtain ⟨base, settings, kept⟩ := ih
    obtain ⟨_, _, same, step⟩ := kept.setCase key val
    cases same.symm.trans done
    obtain ⟨base, later, kept, _⟩ := kept.set step
    exact ⟨base, later, kept⟩
  | prep _ key size word _ done ih =>
    obtain ⟨base, settings, kept⟩ := ih
    obtain ⟨base, later, kept, _⟩ := kept.prep (kept.prepCase_of_ok word done)
    exact ⟨base, later, kept⟩
  | write _ key dst src inside ih =>
    obtain ⟨base, settings, kept⟩ := ih
    exact ⟨base, settings, (kept.write inside).1⟩
  | remount _ done ih =>
    obtain ⟨base, settings, kept⟩ := ih
    obtain ⟨base, later, kept, _⟩ := kept.remount done
    exact ⟨base, later, kept⟩

end LargeFstor

/-- The pages of large values of different keys have no common byte, they lie
behind both areas and in the storage, and neither a new region nor a write for one
key changes the value of another. -/
theorem large_settings_never_overlap (config : FstorConfig)
    (run : LargeFstor.LargeRun config (fun _ _ size => Fstor.numDataPages config size ≤ Fstor.dataPages config) store) :
    (∀ first second, first ≠ second → ∀ offset size place bytes,
      LargeFstor.HasLarge config store first offset size → LargeFstor.HasLarge config store second place bytes →
        offset + Fstor.regionSize config size ≤ place ∨ place + Fstor.regionSize config bytes ≤ offset) ∧
    (∀ key offset size, LargeFstor.HasLarge config store key offset size →
      2 * config.headerSize ≤ offset ∧ config.pageSize ∣ offset ∧ size ≤ Fstor.regionSize config size ∧
        offset + Fstor.regionSize config size ≤ config.totalPages * config.pageSize) ∧
    ∃ map, LargeFstor.Serves config store map ∧
      (∀ key size result next, size < 4294967296 → store.jdSettingsPrepLarge config key size = .ok (result, next) →
        ∃ after, LargeFstor.Serves config next after ∧ ∀ other, key ≠ some other → after other = map other) ∧
      ∀ key dst src, LargeFstor.InRegion config store key dst src →
        ∃ after, LargeFstor.Serves config (store.jdSettingsWriteLarge config dst src) after ∧
          ∀ other, other ≠ key → after other = map other := by
  obtain ⟨base, settings, kept⟩ := run.kept
  refine ⟨?_, ?_, Fstor.valueMap store.core.flash settings, kept.serves, ?_, ?_⟩
  · intro first second differs offset size place bytes one two
    have found := (kept.hasLarge_iff.mp one).2
    have there := (kept.hasLarge_iff.mp two).2
    obtain ⟨pages, taken, _⟩ := kept.region found
    obtain ⟨data, some, _⟩ := kept.region there
    exact Fstor.regions_apart pages data taken some
      fun page both => kept.apart first second differs _ _ found there page both
  · intro key offset size large
    obtain ⟨pages, _, length⟩ := kept.region (kept.hasLarge_iff.mp large).2
    obtain ⟨above, below⟩ := pages.within
    exact ⟨above, ⟨_, pages.1.trans (Nat.mul_comm ..)⟩, length, below⟩
  · intro key size result next word done
    obtain ⟨_, later, after, others⟩ := kept.prep (kept.prepCase_of_ok word done)
    exact ⟨_, after.serves, fun other differs => others other (.inl differs)⟩
  · intro key dst src inside
    obtain ⟨after, others⟩ := kept.write inside
    exact ⟨_, after.serves, others⟩

/-- A storage with four data pages. -/
def largeConfig : FstorConfig := ⟨256, 6, 1, FstorConfig.small_room, by decide, by decide, by decide⟩

/-- The key `*a`. -/
def largeKeyA : CString := ⟨[42, 97], by decide⟩

/-- The key `*b`. -/
def largeKeyB : CString := ⟨[42, 98], by decide⟩

namespace LargeFstor

/-- Prepare large values one after the other. -/
def prepAll (config : FstorConfig) (calls : List (CString × Nat)) : Except LargeFault LargeFstor := do
  let store ← jdFstorInit config ⟨Fstor.boot erasedFlash, fun _ => false⟩
  calls.foldlM (fun store call => do
    let (_, next) ← store.jdSettingsPrepLarge config (some call.1) call.2
    return next) store

theorem prepAll_run {admits : LargeFstor → CString → Nat → Prop} {calls : List (CString × Nat)}
    (done : prepAll config calls = .ok store)
    (words : ∀ call ∈ calls, call.2 < 4294967296) (admitted : ∀ store, ∀ call ∈ calls, admits store call.1 call.2) :
    LargeRun config admits store := by
  obtain ⟨first, init, loop⟩ := ok_of_bind done
  have run : LargeRun config admits first := .mounted init
  clear init done
  induction calls generalizing first with
  | nil =>
    cases loop
    exact run
  | cons call rest ih =>
    rw [List.foldlM_cons] at loop
    obtain ⟨second, prepared, loop⟩ := ok_of_bind loop
    obtain ⟨⟨result, next⟩, prep, same⟩ := ok_of_bind prepared
    cases same
    refine ih (fun later member => words later (List.mem_cons_of_mem _ member))
      (fun store later member => admitted store later (List.mem_cons_of_mem _ member)) _ loop ?_
    exact .prep run (some call.1) call.2 (words call List.mem_cons_self)
      (fun name given => Option.some.inj given ▸ admitted first call List.mem_cons_self) prep

/-- Where two prepared values are. -/
def prepTwo : Except LargeFault (Option (Nat × Nat) × Option (Nat × Nat)) := do
  let store ← prepAll largeConfig [(largeKeyA, 256), (largeKeyB, 300)]
  let (one, _) ← store.jdSettingsGetLarge largeConfig (some largeKeyA)
  let (two, _) ← store.jdSettingsGetLarge largeConfig (some largeKeyB)
  return (one, two)

end LargeFstor

theorem large_settings_never_overlap_two :
    ∃ store, LargeFstor.LargeRun largeConfig
        (fun _ _ size => Fstor.numDataPages largeConfig size ≤ Fstor.dataPages largeConfig) store ∧
      LargeFstor.HasLarge largeConfig store largeKeyA 512 256 ∧ LargeFstor.HasLarge largeConfig store largeKeyB 768 300 ∧
      (512 + Fstor.regionSize largeConfig 256 ≤ 768 ∨ 768 + Fstor.regionSize largeConfig 300 ≤ 512) := by
  have done : LargeFstor.prepTwo = .ok (some (512, 256), some (768, 300)) := by decide +kernel
  obtain ⟨store, prepared, done⟩ := ok_of_bind done
  obtain ⟨⟨one, _⟩, first, done⟩ := ok_of_bind done
  obtain ⟨⟨two, _⟩, second, done⟩ := ok_of_bind done
  obtain ⟨rfl, rfl⟩ := Prod.mk.inj (Except.ok.inj done)
  have run : LargeFstor.LargeRun largeConfig
      (fun _ _ size => Fstor.numDataPages largeConfig size ≤ Fstor.dataPages largeConfig) store :=
    LargeFstor.prepAll_run prepared (by decide) fun _ => by decide
  refine ⟨store, run, ⟨_, first⟩, ⟨_, second⟩, ?_⟩
  exact (large_settings_never_overlap largeConfig run).1 largeKeyA largeKeyB (by decide) 512 256 768 300
    ⟨_, first⟩ ⟨_, second⟩

end Jacdac
