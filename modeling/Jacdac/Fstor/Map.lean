import Jacdac.Fstor.Table

/-! The settings store as a map from keys to values. -/

namespace Jacdac

namespace Fstor

variable {config : FstorConfig} {store next : Fstor} {base : Nat} {entries : List Entry} {key : CString}
  {val : List UInt8} {map : CString → Option (List UInt8)}

theorem mapOf_append (entries : List Entry) (key : CString) (val : List UInt8) :
    mapOf (entries ++ [(key, val)]) = Function.update (mapOf entries) key (some val) := by
  funext other
  rw [mapOf, lastWith_append, Function.update_apply]
  by_cases same : key = other
  · rw [if_pos same, if_pos same.symm]
    rfl
  · rw [if_neg same, if_neg (Ne.symm same)]
    rfl

@[simp] theorem mapOf_compact (entries : List Entry) : mapOf (compact Prod.fst entries) = mapOf entries := by
  funext key
  rw [mapOf, lastWith_compact, mapOf]

/-- The answer to a reader of a key with this value. -/
def Answers (value : Option (List UInt8)) (space : Nat) (answer : Except FstorFault (Int × List UInt8)) : Prop :=
  match value with
  | none => answer = .ok (-2, [])
  | some bytes => ∃ copied, answer = .ok ((bytes.length : Int), copied) ∧
      (bytes.length ≤ space → copied.take bytes.length = bytes)

/-- `jd_settings_get_bin` leaves a mounted store as it is. -/
theorem Represents.getBin (represents : Represents config store base entries) {key : CString} (ok : keyOk key = true)
    (space : Nat) :
    match mapOf entries key with
    | none => store.jdSettingsGetBin config (some key) space = .ok (-2, [], store)
    | some bytes => ∃ copied, store.jdSettingsGetBin config (some key) space = .ok ((bytes.length : Int), copied, store) ∧
        (bytes.length ≤ space → copied.length = space ∧ copied.take bytes.length = bytes) := by
  have accepted : (some key).filter keyOk = some key := Option.filter_eq_some_iff.mpr ⟨rfl, ok⟩
  have found := represents.latest key
  rw [jdSettingsGetBin, accepted]
  simp only [represents.mounted.findEntry, bind, Except.bind, mapOf]
  generalize Fstor.latest store.flash base store.lastEntry key = slot at found ⊢
  generalize lastWith Prod.fst key entries = entry at found ⊢
  cases found with
  | none => rfl
  | @some slot entry record =>
    have size := record.size
    have inside := record.inside
    have room := represents.room
    have words := config.areas_lt
    have small : signed32 (entrySize store.flash slot) = (entry.2.length : Int) := by
      rw [size, signed32, if_pos (by omega)]
    refine ⟨_, congrArg Except.ok (Prod.ext small rfl), fun enough => ?_⟩
    rw [size, if_pos enough, Memory.read_length, Memory.read_take _ _ _ _ enough, record.value]
    exact ⟨rfl, rfl⟩

theorem Represents.answers (represents : Represents config store base entries) (ok : keyOk key = true) (space : Nat) :
    Answers (mapOf entries key) space (store.answer config (some key) space) := by
  have read := represents.getBin ok space
  unfold answer
  cases value : mapOf entries key with
  | none =>
    rw [value] at read
    rw [read]
    rfl
  | some bytes =>
    rw [value] at read
    obtain ⟨copied, got, whole⟩ := read
    rw [got]
    exact ⟨copied, rfl, fun enough => (whole enough).2⟩

/-- A value that is there already is the key's value. -/
theorem Represents.present (represents : Represents config store base entries)
    (same : present store base key val = true) : mapOf entries key = some val := by
  have found := represents.latest key
  rw [Fstor.present] at same
  rw [mapOf]
  generalize Fstor.latest store.flash base store.lastEntry key = slot at found same
  generalize lastWith Prod.fst key entries = entry at found ⊢
  cases found with
  | none => cases same
  | @some slot entry record =>
    have holds : entrySize store.flash slot = val.length ∧
        store.flash.read (entryOffset store.flash slot) val.length = val := of_decide_eq_true same
    have length : entry.2.length = val.length := record.size.symm.trans holds.1
    exact congrArg some ((record.value.symm.trans (length ▸ rfl)).trans holds.2)

/-- Setting values and remounting, from erased flash. The map has the last value
of each key whose set returned 0. -/
inductive MapRun (config : FstorConfig) (admits : Fstor → CString → List UInt8 → Prop) :
    Fstor → (CString → Option (List UInt8)) → Prop where
  | mounted {store : Fstor} (done : (boot erasedFlash).jdFstorInit config = .ok store) :
    MapRun config admits store (fun _ => none)
  | set {store next : Fstor} {map : CString → Option (List UInt8)} (run : MapRun config admits store map)
      (key : CString) (val : List UInt8) (admitted : admits store key val)
      (done : store.jdSettingsSetBin config (some key) val = .ok (result, next)) :
    MapRun config admits next (if result = 0 then Function.update map key (some val) else map)
  | remount {store next : Fstor} {map : CString → Option (List UInt8)} (run : MapRun config admits store map)
      (done : store.remount config = .ok next) : MapRun config admits next map

/-- The call does not collect garbage at the last generation. -/
def NoWrap (config : FstorConfig) (store : Fstor) (key : CString) (val : List UInt8) : Prop :=
  ∀ base, store.settings = some base → Collects config store base key val →
    generation store.flash base ≠ 0xffffffff

/-- The store holds the map, and a remount picks the mounted area. -/
def HoldsMap (config : FstorConfig) (store : Fstor) (map : CString → Option (List UInt8)) : Prop :=
  ∃ base entries, Represents config store base entries ∧ pickHeader config store.flash = some base ∧
    mapOf entries = map

theorem erasedFlash_invalid (config : FstorConfig) (base : Nat) : isValidHeader config erasedFlash base = false := by
  have erased : Erased erasedFlash base (base + 4) := fun _ _ _ => rfl
  exact isValidHeader_erased erased (Nat.le_refl _)

theorem holdsMap_init (done : (boot erasedFlash).jdFstorInit config = .ok store) :
    HoldsMap config store (fun _ => none) := by
  have invalid := erasedFlash_invalid config
  obtain ⟨next, init, ⟨base, _, picked, _⟩ | ⟨_, formatted⟩⟩ := @init_cases config (boot erasedFlash) rfl
  · have valid := (pickHeader_area picked).2
    exact absurd ((invalid base).symm.trans valid) nofun
  · obtain rfl := Except.ok.inj (init.symm.trans done)
    refine ⟨0, [], formatted.represents, formatted.picks fun valid => ?_, rfl⟩
    exact absurd ((invalid config.headerSize).symm.trans valid) nofun

theorem Represents.step (represents : Represents config store base entries)
    (step : SetStep config store base entries.length val (some key) result next) :
    ∃ area later, Represents config next area later ∧
      mapOf later = (if result = 0 then Function.update (mapOf entries) key (some val) else mapOf entries) ∧
      (pickHeader config store.flash = some base →
        (Collects config store base key val → generation store.flash base ≠ 0xffffffff) →
        pickHeader config next.flash = some area) := by
  have settled (picked : pickHeader config store.flash = some base) : Settled config store base entries.length :=
    ⟨represents.mounted, picked⟩
  cases step with
  | badKey | tooLarge => exact ⟨base, entries, represents, rfl, fun picked _ => picked⟩
  | present _ same =>
    refine ⟨base, entries, represents, ?_, fun picked _ => picked⟩
    rw [if_pos rfl, ← represents.present same, Function.update_eq_self]
  | append ok _ _ able =>
    exact ⟨base, _, represents.append ok able, mapOf_append .., fun picked _ => ((settled picked).append able).picked⟩
  | full collects collected =>
    exact ⟨_, _, represents.collect collected, mapOf_compact _,
      fun picked safe => ((settled picked).collect collected (safe collects)).picked⟩
  | collect collects collected able =>
    have compacted := represents.collect collected
    have length := compacted.mounted.count_eq collected.mounted
    refine ⟨_, _, compacted.append collects.keyOk (length ▸ able), ?_,
      fun picked safe => (((settled picked).collect collected (safe collects)).append able).picked⟩
    rw [mapOf_append, mapOf_compact, if_pos rfl]

theorem HoldsMap.set (holds : HoldsMap config store map) (safe : NoWrap config store key val)
    (done : store.jdSettingsSetBin config (some key) val = .ok (result, next)) :
    HoldsMap config next (if result = 0 then Function.update map key (some val) else map) := by
  obtain ⟨base, entries, represents, picked, rfl⟩ := holds
  have mounted := represents.mounted.settings
  obtain ⟨outcome, after, same, step⟩ := setStep represents.mounted represents.area (some key) val
    fun _ _ _ => represents.collectable
  cases same.symm.trans done
  obtain ⟨area, later, represents, map, picks⟩ := represents.step step
  exact ⟨area, later, represents, picks picked (safe base mounted), map⟩

theorem MapRun.holds (run : MapRun config (NoWrap config) store map) : HoldsMap config store map := by
  induction run with
  | mounted done => exact holdsMap_init done
  | set _ key val safe done ih => exact ih.set safe done
  | remount _ done ih =>
    obtain ⟨base, entries, represents, picked, rfl⟩ := ih
    obtain rfl := Except.ok.inj ((represents.mounted.init picked).symm.trans done)
    exact ⟨base, entries, represents, picked, rfl⟩

/-- Without a collection a new value is appended. -/
theorem Represents.sets (represents : Represents config store base entries) (ok : keyOk key = true)
    (size : val.length ≤ config.headerSize - 200) (differs : mapOf entries key ≠ some val)
    (free : align val.length + 24 ≤ store.freeSpace) :
    store.jdSettingsSetBin config (some key) val = .ok (0, store.appended config key val) ∧
      Represents config (store.appended config key val) base (entries ++ [(key, val)]) ∧
      Appendable config store base entries.length key val := by
  obtain ⟨result, next, done, step⟩ := setStep represents.mounted represents.area (some key) val
    fun _ _ _ => represents.collectable
  cases step with
  | badKey bad => exact absurd (bad.symm.trans (Option.filter_eq_some_iff.mpr ⟨rfl, ok⟩)) nofun
  | tooLarge _ large => omega
  | present _ same => exact absurd (represents.present same) differs
  | append _ _ _ able => exact ⟨done, represents.append ok able, able⟩
  | full collects =>
    have short := collects.short
    omega
  | collect collects =>
    have short := collects.short
    omega

theorem wrap_goes_back (represents : Represents config store base entries)
    (picked : pickHeader config store.flash = some base) (last : generation store.flash base = 0xffffffff)
    (collected : Collected config store base (live store.flash base store.lastEntry) next)
    (able : Appendable config next (otherArea config base) (live store.flash base store.lastEntry).length key val) :
    ∃ after, (next.appended config key val).remount config = .ok after ∧ Represents config after base entries := by
  have area := represents.area
  have apart := area.apart
  have room := config.headerSize_le
  have top := collected.mounted.scan.belowTop
  have same : ∀ cell, base ≤ cell → cell < base + config.headerSize →
      (next.appended config key val).flash cell = store.flash cell := by
    intro cell lower upper
    exact (able.outside cell (by omega)).trans (collected.outside cell (by omega))
  have header : ∀ cell, base ≤ cell → cell < base + 24 → (next.appended config key val).flash cell = store.flash cell :=
    fun cell lower upper => same cell lower (by omega)
  have other : ∀ cell, otherArea config base ≤ cell → cell < otherArea config base + 24 →
      (next.appended config key val).flash cell = next.flash cell :=
    fun cell lower upper => able.outside cell (.inl (by omega))
  have newer : pickHeader config (next.appended config key val).flash = some base := by
    refine pickHeader_newer area ?_ fun _ => ?_
    · rw [isValidHeader_congr header]
      exact (pickHeader_area picked).2
    · rw [generation_congr other, generation_congr header, collected.generation, last]
      decide
  obtain ⟨after, done, _, back⟩ := represents.remounts _ same newer
  exact ⟨after, done, back⟩

end Fstor

/-- In every run that never collects garbage at generation `0xffffffff`, a key
reads as the value of its last successful set, whatever was remounted and
whatever sets failed in between, and neither a set nor a remount fails an
assertion. -/
theorem settings_store_is_map (config : FstorConfig)
    (run : Fstor.MapRun config (Fstor.NoWrap config) store map) :
    (∀ key, Fstor.keyOk key = true → ∀ space,
      Fstor.Answers (map key) space (store.answer config (some key) space)) ∧
    (∀ key val, ∃ result next, store.jdSettingsSetBin config (some key) val = .ok (result, next)) ∧
    ∃ next, store.remount config = .ok next := by
  obtain ⟨base, entries, represents, picked, rfl⟩ := run.holds
  refine ⟨fun key ok space => represents.answers ok space, fun key val => ?_, store, represents.mounted.init picked⟩
  obtain ⟨result, next, done, _⟩ := Fstor.setStep represents.mounted represents.area (some key) val
    fun _ _ _ => represents.collectable
  exact ⟨result, next, done⟩

/-- Values that alternate, as large as a small store allows. -/
def churnValue (number : Nat) : List UInt8 := List.replicate 56 (UInt8.ofNat (number % 2))

namespace Fstor

/-- A small store that holds two values of the key `a` is full: the next value
needs a collection. -/
theorem churn_collects {store : Fstor} {base : Nat} {first second : List UInt8}
    (represents : Represents smallConfig store base [(keyA, first), (keyA, second)]) (firstLength : first.length = 56)
    (secondLength : second.length = 56) (val : List UInt8) (length : val.length = 56) (differs : second ≠ val) :
    ∃ next, store.jdSettingsSetBin smallConfig (some keyA) val = .ok (0, next.appended smallConfig keyA val) ∧
      Collected smallConfig store base (live store.flash base store.lastEntry) next ∧
      Appendable smallConfig next (otherArea smallConfig base) (live store.flash base store.lastEntry).length keyA val ∧
      Represents smallConfig (next.appended smallConfig keyA val) (otherArea smallConfig base)
        [(keyA, second), (keyA, val)] := by
  have ok : keyOk keyA = true := by decide
  have size : smallConfig.headerSize = 256 := rfl
  have need : align 56 = 56 := by decide
  have compacted : compact Prod.fst [(keyA, first), (keyA, second)] = [(keyA, second)] := by simp [compact]
  have free := represents.freeSpace
  have used : usage [(keyA, first), (keyA, second)] = 112 := by simp [usage, firstLength, secondLength, need]
  rw [used, size, List.length_cons, List.length_singleton] at free
  obtain ⟨result, after, done, step⟩ := setStep represents.mounted represents.area (some keyA) val
    fun _ _ _ => represents.collectable
  cases step with
  | badKey bad => exact absurd bad (by decide)
  | tooLarge _ large =>
    rw [size] at large
    omega
  | present _ same =>
    have value := represents.present same
    have last := lastWith_append Prod.fst keyA [(keyA, first)] (keyA, second)
    rw [if_pos rfl] at last
    rw [mapOf, show [(keyA, first), (keyA, second)] = [(keyA, first)] ++ [(keyA, second)] from rfl, last] at value
    exact absurd (Option.some.inj value) differs
  | append _ _ _ able =>
    have room := able.space
    rw [length, need] at room
    omega
  | full _ collected short =>
    have next := represents.collect collected
    rw [compacted] at next
    have free := next.freeSpace
    have used : usage [(keyA, second)] = 56 := by simp [usage, secondLength, need]
    rw [used, size, List.length_singleton] at free
    rw [length, need] at short
    omega
  | @collect _ next _ collected able =>
    have rest := represents.collect collected
    have count := rest.mounted.count_eq collected.mounted
    have full := rest.append ok (count ▸ able)
    rw [compacted] at full
    exact ⟨next, done, collected, able, full⟩

/-- A small store after setting alternating values. -/
structure Churned (number : Nat) (store : Fstor) (base : Nat) : Prop where
  run : MapRun smallConfig (fun _ _ _ => True) store
    (Function.update (fun _ => none) keyA (some (churnValue (number + 1))))
  represents : Represents smallConfig store base [(keyA, churnValue number), (keyA, churnValue (number + 1))]
  picked : pickHeader smallConfig store.flash = some base
  generation : generation store.flash base = number + 1

theorem churnValue_succ (number : Nat) : churnValue (number + 1) ≠ churnValue (number + 2) := by
  intro same
  have byte := congrArg List.head? same
  rcases Nat.mod_two_eq_zero_or_one number with even | odd
  · have one : (number + 1) % 2 = 1 := by omega
    have two : (number + 2) % 2 = 0 := by omega
    rw [churnValue, churnValue, one, two] at byte
    exact absurd byte (by decide)
  · have one : (number + 1) % 2 = 0 := by omega
    have two : (number + 2) % 2 = 1 := by omega
    rw [churnValue, churnValue, one, two] at byte
    exact absurd byte (by decide)

theorem Churned.step {store : Fstor} (churned : Churned number store base) (small : number + 2 < 4294967296) :
    ∃ next, Churned (number + 1) next (otherArea smallConfig base) := by
  obtain ⟨next, done, collected, able, represents⟩ := churn_collects churned.represents (List.length_replicate ..)
    (List.length_replicate ..) (churnValue (number + 2)) (List.length_replicate ..) (churnValue_succ number)
  have settled : Settled smallConfig store base 2 := ⟨churned.represents.mounted, churned.picked⟩
  have after := settled.collect collected (by rw [churned.generation]; omega)
  refine ⟨_, ?_, represents, (after.append able).picked, ?_⟩
  · have run := MapRun.set churned.run keyA (churnValue (number + 2)) trivial done
    rw [if_pos rfl, Function.update_idem] at run
    exact run
  · rw [able.generation, collected.generation, churned.generation, u32_of_lt (by omega)]

/-- A small store just mounted. -/
theorem fresh_small : ∃ store, (boot erasedFlash).jdFstorInit smallConfig = .ok store ∧
    Represents smallConfig store 0 [] ∧ pickHeader smallConfig store.flash = some 0 ∧
    generation store.flash 0 = 1 := by
  have invalid := erasedFlash_invalid smallConfig
  obtain ⟨next, init, ⟨base, _, picked, _⟩ | ⟨_, formatted⟩⟩ := @init_cases smallConfig (boot erasedFlash) rfl
  · exact absurd ((invalid base).symm.trans (pickHeader_area picked).2) nofun
  · refine ⟨next, init, formatted.represents, formatted.picks fun valid => ?_, formatted.first⟩
    exact absurd ((invalid smallConfig.headerSize).symm.trans valid) nofun

theorem churned_zero : ∃ store, Churned 0 store 0 := by
  obtain ⟨fresh, init, empty, picked, first⟩ := fresh_small
  have ok : keyOk keyA = true := by decide
  have need : align 56 = 56 := by decide
  have length (number : Nat) : (churnValue number).length = 56 := List.length_replicate ..
  have size (number : Nat) : (churnValue number).length ≤ smallConfig.headerSize - 200 := by
    rw [length]
    decide
  have total : smallConfig.headerSize = 256 := rfl
  have free := empty.freeSpace
  rw [total, List.length_nil, show usage [] = 0 from rfl] at free
  obtain ⟨set, one, able⟩ := empty.sets ok (size 0) nofun (by rw [length, need]; omega)
  have free := one.freeSpace
  have used : usage [(keyA, churnValue 0)] = 56 := by simp [usage, length, need]
  rw [List.nil_append, used, total, List.length_singleton] at free
  have differs : mapOf ([] ++ [(keyA, churnValue 0)]) keyA ≠ some (churnValue 1) := by
    rw [mapOf_append, Function.update_self]
    decide
  obtain ⟨again, two, enough⟩ := one.sets ok (size 1) differs (by rw [length, need]; omega)
  refine ⟨_, ?_, two, ?_, ?_⟩
  · have start : MapRun smallConfig (fun _ _ _ => True) fresh (fun _ => none) := .mounted init
    have run := (start.set keyA (churnValue 0) trivial set).set keyA (churnValue 1) trivial again
    rw [if_pos rfl, if_pos rfl, Function.update_idem] at run
    exact run
  · rw [enough.picks, able.picks, picked]
  · rw [enough.generation, able.generation, first]

theorem churned_all (number : Nat) (small : number + 1 < 4294967296) : ∃ store base, Churned number store base := by
  induction number with
  | zero =>
    obtain ⟨store, churned⟩ := churned_zero
    exact ⟨store, 0, churned⟩
  | succ number ih =>
    obtain ⟨store, base, churned⟩ := ih (by omega)
    obtain ⟨next, after⟩ := churned.step small
    exact ⟨next, _, after⟩

end Fstor

theorem settings_store_is_map_first :
    ∃ store map, Fstor.MapRun smallConfig (Fstor.NoWrap smallConfig) store map ∧ map keyA = some (churnValue 0) ∧
      Fstor.Answers (some (churnValue 0)) 56 (store.answer smallConfig (some keyA) 56) := by
  obtain ⟨fresh, init, empty, _, _⟩ := Fstor.fresh_small
  have free : fresh.freeSpace + 48 + 24 * 0 + 0 = 256 := empty.freeSpace
  obtain ⟨set, _, _⟩ := empty.sets (show Fstor.keyOk keyA = true by decide)
    (show (churnValue 0).length ≤ smallConfig.headerSize - 200 by decide) nofun
    (show Fstor.align 56 + 24 ≤ fresh.freeSpace by rw [show Fstor.align 56 = 56 by decide]; omega)
  have safe : Fstor.NoWrap smallConfig fresh keyA (churnValue 0) := by
    intro base _ collects
    have short : fresh.freeSpace < Fstor.align 56 + 24 := collects.short
    rw [show Fstor.align 56 = 56 by decide] at short
    omega
  have run := Fstor.MapRun.set (.mounted init) keyA (churnValue 0) safe set
  have answers := (settings_store_is_map smallConfig run).1 keyA (by decide) 56
  rw [if_pos rfl, Function.update_self] at answers
  exact ⟨_, _, run, by rw [if_pos rfl, Function.update_self], answers⟩

/-- A value set while the generation wraps is lost at the next remount. -/
theorem wrapped_generation_loses_value :
    ¬ ∀ config store map, Fstor.MapRun config (fun _ _ _ => True) store map →
      ∀ key, Fstor.keyOk key = true → ∀ space,
        Fstor.Answers (map key) space (store.answer config (some key) space) := by
  intro holds
  obtain ⟨store, base, churned⟩ := Fstor.churned_all 4294967294 (by decide)
  obtain ⟨next, set, collected, able, _⟩ := Fstor.churn_collects churned.represents (List.length_replicate ..)
    (List.length_replicate ..) (churnValue 4294967296) (List.length_replicate ..) (Fstor.churnValue_succ 4294967294)
  obtain ⟨after, remount, back⟩ := Fstor.wrap_goes_back churned.represents churned.picked churned.generation
    collected able
  have run := Fstor.MapRun.remount
    (Fstor.MapRun.set churned.run keyA (churnValue 4294967296) trivial set) remount
  have claimed := holds _ _ _ run keyA (by decide) 56
  have actual := back.answers (show Fstor.keyOk keyA = true by decide) 56
  have value : Fstor.mapOf [(keyA, churnValue 4294967294), (keyA, churnValue (4294967294 + 1))] keyA =
      some (churnValue (4294967294 + 1)) := by
    have last := Fstor.mapOf_append [(keyA, churnValue 4294967294)] keyA (churnValue (4294967294 + 1))
    exact (congrFun last keyA).trans (Function.update_self ..)
  rw [value] at actual
  rw [if_pos rfl, Function.update_self] at claimed
  obtain ⟨copied, read, new⟩ := claimed
  obtain ⟨other, reread, old⟩ := actual
  have same := congrArg Prod.snd (Except.ok.inj (read.symm.trans reread))
  have new := new (Nat.le_of_eq (List.length_replicate ..))
  have old := old (Nat.le_of_eq (List.length_replicate ..))
  rw [churnValue, List.length_replicate, ← churnValue] at new old
  refine Fstor.churnValue_succ 4294967294 (old.symm.trans ?_)
  rw [← new]
  exact congrArg (List.take 56) same.symm

end Jacdac
