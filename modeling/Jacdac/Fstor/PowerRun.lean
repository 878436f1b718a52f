import Jacdac.Fstor.PowerCut

/-! Runs of the settings store with power loss. -/

namespace Jacdac

namespace Fstor

variable {config : FstorConfig} {store next : Fstor} {base : Nat} {entries : List Entry} {key : CString}
  {val : List UInt8} {map : CString → Option (List UInt8)}

/-- The store answers every reader as the map says. -/
def Reads (config : FstorConfig) (store : Fstor) (map : CString → Option (List UInt8)) : Prop :=
  ∀ key, keyOk key = true → ∀ space, Answers (map key) space (store.answer config (some key) space)

theorem Represents.reads (represents : Represents config store base entries) :
    Reads config store (mapOf entries) :=
  fun _ ok space => represents.answers ok space

theorem Reads.none (reads : Reads config store map) (empty : Reads config store fun _ => none)
    (ok : keyOk key = true) : map key = none := by
  have given := reads key ok 0
  have nothing : store.answer config (some key) 0 = .ok (-2, []) := empty key ok 0
  cases value : map key with
  | none => rfl
  | some bytes =>
    rw [value] at given
    obtain ⟨copied, found, _⟩ := given
    have length := congrArg Prod.fst (Except.ok.inj (found.symm.trans nothing))
    dsimp only at length
    omega

theorem Sound.set_lost (sound : Sound config store base entries) (stocked : entries ≠ [])
    (stores : Stores config store base key val) (visible : val.all (· = 0xff) = false)
    (ordered : store.freeSpace < align val.length + 24 → generation store.flash base ≠ 0xffffffff)
    (step : SetStep config store base entries.length val (some key) result next) :
    ∃ cut after, (boot (cutImage config store next cut)).jdFstorInit config = .ok after ∧
      Represents config after 0 [] := by
  have represents := sound.represents
  cases step with
  | badKey bad => exact absurd (bad.symm.trans (Option.filter_eq_some_iff.mpr ⟨rfl, stores.keyOk⟩)) nofun
  | tooLarge _ large =>
    have size := stores.size
    omega
  | present _ same => exact absurd (stores.absent.symm.trans same) nofun
  | append ok size absent able =>
    refine ⟨1, ?_⟩
    rw [(appended_issued config store key val).cutImage, replay_appendOps]
    obtain ⟨after, done, formatted⟩ := boots_formatted (able.valued_picks.trans sound.picked)
      (able.valued_rejected visible)
    exact ⟨after, done, formatted.represents⟩
  | full collects collected short =>
    have free := (represents_iff.mp represents).collected_space collected
    have before := collects.short
    rcases stores.room with room | room <;> omega
  | @collect _ next collects collected able =>
    obtain ⟨ops, issued, _⟩ := sound.collect_cut stocked collected
    have collected := sound.collect collected (ordered collects.short) stocked
    refine ⟨ops.length + 1, ?_⟩
    rw [(issued.trans (appended_issued config next key val)).cutImage, List.take_length_add_append, replay_append,
      ← issued.image, replay_appendOps]
    obtain ⟨after, done, formatted⟩ := boots_formatted (able.valued_picks.trans collected.picked)
      (able.valued_rejected visible)
    exact ⟨after, done, formatted.represents⟩

theorem Represents.valued (represents : Represents config store base entries) (stocked : entries ≠ []) :
    ∃ key, keyOk key = true ∧ mapOf entries key ≠ none := by
  obtain ⟨entry, member⟩ := List.exists_mem_of_ne_nil entries stocked
  obtain ⟨index, inside, rfl⟩ := List.getElem_of_mem member
  have records := List.forall₂_iff_get.mp represents.records
  have record := records.2 index (records.1 ▸ inside) inside
  refine ⟨entries[index].1, record.ok, fun none => ?_⟩
  rw [mapOf, Option.map_eq_none_iff, lastWith_eq_none_iff] at none
  exact none _ member rfl

/-- Whatever flash operation of the set is the last one before the power goes, the
next mount finds the old value of the key or the new one, and every other key as
it was. -/
def SurvivesCut (config : FstorConfig) (store : Fstor) (map : CString → Option (List UInt8)) (key : CString)
    (val : List UInt8) : Prop :=
  ∃ result next, store.jdSettingsSetBin config (some key) val = .ok (result, next) ∧
    ∀ cut, ∃ after, (boot (cutImage config store next cut)).jdFstorInit config = .ok after ∧
      (Reads config after map ∨ Reads config after (Function.update map key (some val)))

theorem Sound.setStep (sound : Sound config store base entries) (key : CString) (val : List UInt8) :
    ∃ result next, store.jdSettingsSetBin config (some key) val = .ok (result, next) ∧
      SetStep config store base entries.length val (some key) result next :=
  Fstor.setStep sound.represents.mounted sound.represents.area (some key) val
    fun _ _ _ => sound.represents.collectable

theorem Boots.reads {flash : Memory} (boots : Boots config flash map) :
    ∃ after, (boot flash).jdFstorInit config = .ok after ∧ Reads config after map := by
  obtain ⟨after, base, entries, done, sound, rfl⟩ := boots
  exact ⟨after, done, sound.represents.reads⟩

theorem Sound.survivesCut_iff (sound : Sound config store base entries) (key : CString) (val : List UInt8) :
    SurvivesCut config store (mapOf entries) key val ↔ Harmless config store key val := by
  obtain ⟨result, next, done, step⟩ := sound.setStep key val
  constructor
  · rintro ⟨_, _, same, survives⟩ other settings stores
    cases same.symm.trans done
    obtain rfl : base = other := Option.some.inj (sound.represents.mounted.settings.symm.trans settings)
    by_contra harmful
    obtain ⟨visible, entered, ordered⟩ : ¬ val.all (· = 0xff) = true ∧ store.lastEntry ≠ base ∧
        ¬ (store.freeSpace < align val.length + 24 ∧ generation store.flash base = 0xffffffff) := by
      simpa only [not_or] using harmful
    have stocked : entries ≠ [] := fun none => entered (sound.last_iff.mpr none)
    obtain ⟨cut, after, boots, empty⟩ := sound.set_lost stocked stores (Bool.eq_false_iff.mpr visible)
      (fun short last => ordered ⟨short, last⟩) step
    obtain ⟨_, again, reads⟩ := survives cut
    cases boots.symm.trans again
    rcases reads with old | new
    · obtain ⟨name, ok, value⟩ := sound.represents.valued stocked
      exact value (old.none empty.reads ok)
    · have gone := new.none empty.reads stores.keyOk
      rw [Function.update_self] at gone
      cases gone
  · intro harmless
    refine ⟨result, next, done, fun cut => ?_⟩
    rcases sound.set_cut harmless step cut with old | new
    · obtain ⟨after, boots, reads⟩ := old.reads
      exact ⟨after, boots, .inl reads⟩
    · obtain ⟨after, boots, reads⟩ := new.reads
      exact ⟨after, boots, .inr reads⟩

/-- Setting values, remounting, and power loss during harmless sets, from erased flash. -/
inductive PowerRun (config : FstorConfig) : Fstor → Prop where
  | mounted {store : Fstor} (done : (boot erasedFlash).jdFstorInit config = .ok store) : PowerRun config store
  | set {store next : Fstor} (run : PowerRun config store) (key : CString) (val : List UInt8)
      (safe : NoWrap config store key val)
      (done : store.jdSettingsSetBin config (some key) val = .ok (result, next)) : PowerRun config next
  | remount {store next : Fstor} (run : PowerRun config store) (done : store.remount config = .ok next) :
    PowerRun config next
  | cut {store next after : Fstor} (run : PowerRun config store) (key : CString) (val : List UInt8)
      (harmless : Harmless config store key val)
      (done : store.jdSettingsSetBin config (some key) val = .ok (result, next)) (cut : Nat)
      (rebooted : (boot (cutImage config store next cut)).jdFstorInit config = .ok after) : PowerRun config after

theorem sound_init (done : (boot erasedFlash).jdFstorInit config = .ok store) : Sound config store 0 [] := by
  have invalid := erasedFlash_invalid config
  obtain ⟨next, init, ⟨base, _, picked, _⟩ | ⟨_, formatted⟩⟩ := @init_cases config (boot erasedFlash) rfl
  · exact absurd ((invalid base).symm.trans (pickHeader_area picked).2) nofun
  · obtain rfl := Except.ok.inj (init.symm.trans done)
    have second : isValidHeader config next.flash config.headerSize = false := by
      rw [isValidHeader_congr fun cell lower _ => formatted.outside cell lower]
      exact invalid config.headerSize
    refine ⟨formatted.represents, formatted.picks fun valid => ?_, fun _ => ⟨rfl, second⟩⟩
    exact absurd ((invalid config.headerSize).symm.trans valid) nofun

/-- The state after a set, for every outcome that leaves the generations in order. -/
theorem Sound.set (sound : Sound config store base entries) (safe : NoWrap config store key val)
    (step : SetStep config store base entries.length val (some key) result next) :
    ∃ base entries, Sound config next base entries := by
  have safe := safe base sound.represents.mounted.settings
  cases step with
  | badKey | tooLarge | present => exact ⟨base, entries, sound⟩
  | append ok _ _ able => exact ⟨base, _, sound.append ok able⟩
  | full collects collected =>
    exact ⟨_, _, sound.collect collected (safe collects) (sound.represents.nonempty collects)⟩
  | collect collects collected able =>
    have compacted := sound.collect collected (safe collects) (sound.represents.nonempty collects)
    have count := compacted.represents.mounted.count_eq collected.mounted
    exact ⟨_, _, compacted.append collects.keyOk (count ▸ able)⟩

theorem PowerRun.sound (run : PowerRun config store) : ∃ base entries, Sound config store base entries := by
  induction run with
  | mounted done => exact ⟨0, [], sound_init done⟩
  | set _ key val safe done ih =>
    obtain ⟨base, entries, sound⟩ := ih
    obtain ⟨_, _, same, step⟩ := sound.setStep key val
    cases same.symm.trans done
    exact sound.set safe step
  | remount _ done ih =>
    obtain ⟨base, entries, sound⟩ := ih
    obtain rfl := Except.ok.inj ((sound.represents.mounted.init sound.picked).symm.trans done)
    exact ⟨base, entries, sound⟩
  | cut _ key val harmless done cut rebooted ih =>
    obtain ⟨base, entries, sound⟩ := ih
    obtain ⟨_, _, same, step⟩ := sound.setStep key val
    cases same.symm.trans done
    rcases sound.set_cut harmless step cut with ⟨_, base, entries, boots, after, _⟩ | ⟨_, base, entries, boots, after, _⟩
    · cases boots.symm.trans rebooted
      exact ⟨base, entries, after⟩
    · cases boots.symm.trans rebooted
      exact ⟨base, entries, after⟩

end Fstor

/-- In every run that collects no garbage at generation `0xffffffff` and loses
power only during harmless sets, a set survives a power loss between any two of
its flash operations exactly when it is harmless: it stores nothing, or only
erased bytes, or the first value of the store, or it collects garbage at the last
generation. -/
theorem set_survives_power_loss_iff (config : FstorConfig) (run : Fstor.PowerRun config store) :
    ∃ map, Fstor.Reads config store map ∧
      ∀ key val, Fstor.SurvivesCut config store map key val ↔ Fstor.Harmless config store key val := by
  obtain ⟨base, entries, sound⟩ := run.sound
  exact ⟨Fstor.mapOf entries, sound.represents.reads, fun key val => sound.survivesCut_iff key val⟩

theorem set_survives_power_loss_first :
    ∃ store map, Fstor.PowerRun smallConfig store ∧ Fstor.Reads smallConfig store map ∧
      Fstor.SurvivesCut smallConfig store map keyA (churnValue 0) := by
  obtain ⟨store, init, empty, _, _⟩ := Fstor.fresh_small
  have run : Fstor.PowerRun smallConfig store := .mounted init
  obtain ⟨map, reads, survives⟩ := set_survives_power_loss_iff smallConfig run
  refine ⟨store, map, run, reads, (survives keyA (churnValue 0)).mpr fun base settings _ => .inr (.inl ?_)⟩
  obtain rfl : 0 = base := Option.some.inj (empty.mounted.settings.symm.trans settings)
  exact empty.mounted.last

/-- Power lost between the value and its entry loses the value that the key had. -/
theorem power_loss_formats :
    ¬ ∀ config store map, Fstor.PowerRun config store → Fstor.Reads config store map →
      ∀ key val, Fstor.SurvivesCut config store map key val := by
  intro holds
  obtain ⟨fresh, init, _, _, _⟩ := Fstor.fresh_small
  have empty := Fstor.sound_init init
  have ok : Fstor.keyOk keyA = true := by decide
  have need : Fstor.align 56 = 56 := by decide
  have free : fresh.freeSpace + 48 + 24 * 0 + 0 = 256 := empty.represents.freeSpace
  obtain ⟨set, _, able⟩ := empty.represents.sets ok
    (show (churnValue 0).length ≤ smallConfig.headerSize - 200 by decide) nofun
    (show Fstor.align 56 + 24 ≤ fresh.freeSpace by rw [need]; omega)
  have safe : Fstor.NoWrap smallConfig fresh keyA (churnValue 0) := by
    intro base _ collects
    have short : fresh.freeSpace < Fstor.align 56 + 24 := collects.short
    rw [need] at short
    omega
  have sound := empty.append ok able
  have run := Fstor.PowerRun.set (.mounted init) keyA (churnValue 0) safe set
  have harmless := (sound.survivesCut_iff keyA (churnValue 1)).mp
    (holds smallConfig _ _ run sound.represents.reads keyA (churnValue 1))
  have space : (fresh.appended smallConfig keyA (churnValue 0)).freeSpace + 48 + 24 * 1 + 56 = 256 :=
    sound.represents.freeSpace
  have absent : Fstor.present (fresh.appended smallConfig keyA (churnValue 0)) 0 keyA (churnValue 1) = false := by
    refine Bool.eq_false_iff.mpr fun same => ?_
    have value := sound.represents.present same
    rw [Fstor.mapOf_append, Function.update_self] at value
    exact absurd value (by decide)
  have room : Fstor.align 56 + 24 ≤ (fresh.appended smallConfig keyA (churnValue 0)).freeSpace := by
    rw [need]
    omega
  rcases harmless 0 sound.represents.mounted.settings ⟨ok, by decide, absent, .inl room⟩ with erased | last | wraps
  · exact absurd erased (by decide)
  · exact absurd (sound.last_iff.mp last) nofun
  · have short : (fresh.appended smallConfig keyA (churnValue 0)).freeSpace < Fstor.align 56 + 24 := wraps.1
    omega

end Jacdac
