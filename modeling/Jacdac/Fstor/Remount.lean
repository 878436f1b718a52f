import Jacdac.Fstor.Collect

/-! A remount finds the store as it was left, whatever the flash held at first. -/

namespace Jacdac

namespace Fstor

variable {config : FstorConfig} {store next : Fstor} {flash : Memory} {base count : Nat}

/-- The mounted area is the one a remount picks. -/
structure Settled (config : FstorConfig) (store : Fstor) (base count : Nat) : Prop where
  mounted : Mounted config store base count
  picked : pickHeader config store.flash = some base

namespace Settled

theorem area (settled : Settled config store base count) : Area config base := (pickHeader_area settled.picked).1

theorem remount (settled : Settled config store base count) : store.remount config = .ok store :=
  settled.mounted.init settled.picked

/-- A new value does not change which area is picked. -/
theorem append (settled : Settled config store base count) (able : Appendable config store base count key val) :
    Settled config (store.appended config key val) base (count + 1) :=
  ⟨able.appended, able.picks.trans settled.picked⟩

/-- A collection leaves the newer area. -/
theorem collect (settled : Settled config store base count) (collected : Collected config store base kept next)
    (below : generation store.flash base ≠ 0xffffffff) :
    Settled config next (otherArea config base) kept.length := by
  have area := settled.area
  have apart := area.apart
  have room := config.headerSize_le
  refine ⟨collected.mounted, pickHeader_newer area.other collected.valid fun _ => ?_⟩
  have old : generation next.flash base = generation store.flash base :=
    generation_congr fun cell lower upper => collected.outside cell (by omega)
  have small := generation_lt store.flash base
  rw [area.other_other, collected.generation, old, u32_of_lt (by omega)]
  omega

end Settled

/-- The entry that `find_entry` returns. -/
def latest (flash : Memory) (base last : Nat) (key : CString) : Option Nat :=
  (entriesTo (base + fstorEntrySize) last).reverse.find? (entryKey flash · = key.1)

theorem Mounted.findEntry (mounted : Mounted config store base count) (key : CString) :
    store.findEntry config key = .ok (latest store.flash base store.lastEntry key, store) := by
  rw [Fstor.findEntry, jdFstorInit]
  simp only [mounted.settings, bind, Except.bind]
  rfl

/-- The value to be set is there already. -/
def present (store : Fstor) (base : Nat) (key : CString) (val : List UInt8) : Bool :=
  (latest store.flash base store.lastEntry key).any (holds store.flash val)

/-- The call is one that runs `jd_fstor_gc` on a mounted store. -/
structure Collects (config : FstorConfig) (store : Fstor) (base : Nat) (key : CString) (val : List UInt8) : Prop where
  keyOk : keyOk key = true
  size : val.length ≤ config.headerSize - 200
  absent : present store base key val = false
  short : store.freeSpace < align val.length + 24

/-- What `jd_settings_set_bin` can do to a mounted store. -/
inductive SetStep (config : FstorConfig) (store : Fstor) (base count : Nat) (val : List UInt8) :
    Option CString → Int → Fstor → Prop where
  | badKey (bad : key.filter keyOk = none) : SetStep config store base count val key (-1) store
  | tooLarge (ok : keyOk name = true) (large : val.length > config.headerSize - 200) :
    SetStep config store base count val (some name) (-2) store
  | present (ok : keyOk name = true) (same : present store base name val = true) :
    SetStep config store base count val (some name) 0 store
  | append (ok : keyOk name = true) (size : val.length ≤ config.headerSize - 200)
      (absent : Fstor.present store base name val = false)
      (able : Appendable config store base count name val) :
    SetStep config store base count val (some name) 0 (store.appended config name val)
  | full {next : Fstor} (collects : Collects config store base name val)
      (collected : Collected config store base (live store.flash base store.lastEntry) next)
      (short : next.freeSpace < align val.length + 24) : SetStep config store base count val (some name) (-3) next
  | collect {next : Fstor} (collects : Collects config store base name val)
      (collected : Collected config store base (live store.flash base store.lastEntry) next)
      (able : Appendable config next (otherArea config base) (live store.flash base store.lastEntry).length name val) :
    SetStep config store base count val (some name) 0 (next.appended config name val)

theorem setStep (mounted : Mounted config store base count) (area : Area config base) (key : Option CString)
    (val : List UInt8)
    (safe : ∀ name, key = some name → Collects config store base name val → Collectable config store base) :
    ∃ result next, store.jdSettingsSetBin config key val = .ok (result, next) ∧
      SetStep config store base count val key result next := by
  have large := config.headerSize_le
  rw [jdSettingsSetBin]
  cases accepted : key.filter keyOk with
  | none => exact ⟨-1, store, rfl, .badKey accepted⟩
  | some name =>
    obtain ⟨rfl, ok⟩ := Option.filter_eq_some_iff.mp accepted
    dsimp only
    by_cases size : val.length > config.headerSize - 200
    · rw [if_pos size]
      exact ⟨-2, store, rfl, .tooLarge ok size⟩
    · rw [if_neg size, mounted.findEntry]
      simp only [bind, Except.bind]
      cases same : present store base name val with
      | true =>
        rw [present] at same
        rw [if_pos same]
        exact ⟨0, store, rfl, .present ok same⟩
      | false =>
        rw [present] at same
        rw [if_neg (by rw [same]; exact nofun), storeEntry]
        by_cases short : store.freeSpace < align val.length + fstorEntrySize
        · have collects : Collects config store base name val := ⟨ok, by omega, same, short⟩
          obtain ⟨next, gc, collected⟩ := (safe name rfl collects).collect mounted area
          rw [if_pos short, gc]
          simp only [bind, Except.bind]
          by_cases full : next.freeSpace < align val.length + fstorEntrySize
          · rw [if_pos full]
            exact ⟨-3, next, rfl, .full collects collected full⟩
          · have able : Appendable config next (otherArea config base)
                (live store.flash base store.lastEntry).length name val :=
              ⟨collected.mounted, area.other, keyOk_length ok, by omega, Nat.le_of_not_lt full⟩
            rw [if_neg full, able.appendEntry]
            exact ⟨0, _, rfl, .collect collects collected able⟩
        · have able : Appendable config store base count name val :=
            ⟨mounted, area, keyOk_length ok, by omega, Nat.le_of_not_lt short⟩
          rw [if_neg short, able.appendEntry]
          exact ⟨0, _, rfl, .append ok (Nat.le_of_not_lt size) same able⟩

/-- A device that has just been started. -/
def boot (flash : Memory) : Fstor := ⟨flash, [], none, 0, 0⟩

/-- Mounting a flash image and setting values, as far as admitted. -/
inductive SettingsRun (config : FstorConfig) (flash : Memory)
    (admits : Fstor → Option CString → List UInt8 → Prop) : Fstor → Prop where
  | mounted {store : Fstor} (done : (boot flash).jdFstorInit config = .ok store) : SettingsRun config flash admits store
  | set {store next : Fstor} (run : SettingsRun config flash admits store) (admitted : admits store key val)
      (done : store.jdSettingsSetBin config key val = .ok (result, next)) : SettingsRun config flash admits next

/-- What a reader sees of a key. -/
def answer (config : FstorConfig) (store : Fstor) (key : Option CString) (space : Nat) :
    Except FstorFault (Int × List UInt8) :=
  (store.jdSettingsGetBin config key space).map fun (result, copied, _) => (result, copied)

/-- If the image is going to be formatted, its second area does not look newer
than the new first one. -/
def CleanImage (config : FstorConfig) (flash : Memory) : Prop :=
  (∀ base, pickHeader config flash = some base → accepts config flash base = false) →
    isValidHeader config flash config.headerSize = true → generation flash config.headerSize = 0

/-- If the call runs `jd_fstor_gc`, the latest entries can be copied and the
generation does not wrap. -/
def SafeSet (config : FstorConfig) (store : Fstor) (key : Option CString) (val : List UInt8) : Prop :=
  ∀ base name, store.settings = some base → key = some name → Collects config store base name val →
    Collectable config store base ∧ generation store.flash base ≠ 0xffffffff

theorem settled_init (clean : CleanImage config flash) (done : (boot flash).jdFstorInit config = .ok store) :
    ∃ base count, Settled config store base count := by
  obtain ⟨next, init, ⟨base, count, picked, _, mounted, same, _⟩ | ⟨rejected, formatted⟩⟩ :=
    @init_cases config (boot flash) rfl
  · obtain rfl := Except.ok.inj (init.symm.trans done)
    exact ⟨base, count, mounted, by rw [same]; exact picked⟩
  · obtain rfl := Except.ok.inj (init.symm.trans done)
    exact ⟨0, 0, formatted.mounted, formatted.picks (clean rejected)⟩

theorem Settled.set (settled : Settled config store base count) (safe : SafeSet config store key val)
    (done : store.jdSettingsSetBin config key val = .ok (result, next)) :
    ∃ base count, Settled config next base count := by
  have settings := settled.mounted.settings
  obtain ⟨outcome, after, same, step⟩ := setStep settled.mounted settled.area key val
    fun name given collects => (safe base name settings given collects).1
  cases same.symm.trans done
  cases step with
  | badKey => exact ⟨base, count, settled⟩
  | tooLarge => exact ⟨base, count, settled⟩
  | present => exact ⟨base, count, settled⟩
  | append _ _ _ able => exact ⟨base, count + 1, settled.append able⟩
  | full collects collected =>
    exact ⟨_, _, settled.collect collected (safe base _ settings rfl collects).2⟩
  | collect collects collected able =>
    exact ⟨_, _, (settled.collect collected (safe base _ settings rfl collects).2).append able⟩

theorem SettingsRun.settled (clean : CleanImage config flash) (run : SettingsRun config flash (SafeSet config) store) :
    ∃ base count, Settled config store base count := by
  induction run with
  | mounted done => exact settled_init clean done
  | set _ safe done ih =>
    obtain ⟨base, count, settled⟩ := ih
    exact settled.set safe done

end Fstor

/-- In every run from an image and with calls that meet the two conditions, a
remount changes nothing for a reader. -/
theorem settings_survive_remount (config : FstorConfig) (flash : Memory) (clean : Fstor.CleanImage config flash)
    (run : Fstor.SettingsRun config flash (Fstor.SafeSet config) store) :
    ∃ after, store.remount config = .ok after ∧
      ∀ key space, after.answer config key space = store.answer config key space := by
  obtain ⟨base, count, settled⟩ := run.settled clean
  exact ⟨store, settled.remount, fun _ _ => rfl⟩

/-- Two pages of 256 bytes, one for each header area. -/
def smallConfig : FstorConfig := ⟨256, 2, 1, FstorConfig.small_room, by decide, by decide, by decide⟩

/-- The key `a`. -/
def keyA : CString := ⟨[97], by decide⟩

def erasedFlash : Memory := fun _ => 0xff

/-- The second area has a header of generation 1 and a stray byte behind it. -/
def staleFlash : Memory := (erasedFlash.write 256 (Fstor.newHeader smallConfig 1)).write 400 [0]

/-- Mount, set `a`, and read it before and after a remount, with the space before the set. -/
def setAndRemount (flash : Memory) : Except FstorFault (Nat × (Int × List UInt8) × (Int × List UInt8)) := do
  let store ← (Fstor.boot flash).jdFstorInit smallConfig
  let (_, next) ← store.jdSettingsSetBin smallConfig (some keyA) [7]
  let before ← next.answer smallConfig (some keyA) 1
  let again ← next.remount smallConfig
  let after ← again.answer smallConfig (some keyA) 1
  return (store.freeSpace, before, after)

theorem settings_survive_remount_first :
    ∃ store, Fstor.SettingsRun smallConfig erasedFlash (Fstor.SafeSet smallConfig) store ∧
      store.answer smallConfig (some keyA) 1 = .ok (1, [7]) ∧
      ∃ after, store.remount smallConfig = .ok after ∧
        ∀ key space, after.answer smallConfig key space = store.answer smallConfig key space := by
  have done : setAndRemount erasedFlash = .ok (208, (1, [7]), (1, [7])) := by decide +kernel
  obtain ⟨store, init, done⟩ := ok_of_bind done
  obtain ⟨⟨result, next⟩, set, done⟩ := ok_of_bind done
  obtain ⟨before, read, done⟩ := ok_of_bind done
  obtain ⟨again, _, done⟩ := ok_of_bind done
  obtain ⟨after, _, done⟩ := ok_of_bind done
  have values := Except.ok.inj done
  have clean : Fstor.CleanImage smallConfig erasedFlash := fun _ valid => absurd valid (by decide +kernel)
  have safe : Fstor.SafeSet smallConfig store (some keyA) [7] := by
    intro base name _ _ collects
    have free : store.freeSpace = 208 := congrArg Prod.fst values
    exact absurd collects.short (by rw [free]; decide)
  have run := Fstor.SettingsRun.set (.mounted init) safe set
  refine ⟨next, run, ?_, settings_survive_remount smallConfig erasedFlash clean run⟩
  rw [read, show before = (1, [7]) from congrArg (·.2.1) values]

/-- Formatting leaves the second area, and the next mount prefers it again. -/
theorem stale_area_preferred :
    ¬ ∀ config flash store, Fstor.SettingsRun config flash (fun _ _ _ => True) store →
      ∃ after, store.remount config = .ok after ∧
        ∀ key space, after.answer config key space = store.answer config key space := by
  intro survives
  have done : setAndRemount staleFlash = .ok (208, (1, [7]), (-2, [])) := by decide +kernel
  obtain ⟨store, init, done⟩ := ok_of_bind done
  obtain ⟨⟨result, next⟩, set, done⟩ := ok_of_bind done
  obtain ⟨before, read, done⟩ := ok_of_bind done
  obtain ⟨again, remount, done⟩ := ok_of_bind done
  obtain ⟨after, reread, done⟩ := ok_of_bind done
  have values := Except.ok.inj done
  obtain ⟨other, same, agree⟩ := survives _ _ _ (.set (.mounted init) trivial set)
  obtain rfl := Except.ok.inj (remount.symm.trans same)
  have equal := (agree (some keyA) 1).symm.trans reread |>.symm.trans read
  have pair := congrArg Prod.snd values
  rw [← Except.ok.inj equal] at pair
  cases (congrArg Prod.fst pair).symm.trans (congrArg Prod.snd pair)

end Jacdac
