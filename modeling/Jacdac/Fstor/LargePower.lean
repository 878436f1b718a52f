import Jacdac.Fstor.Allocate
import Jacdac.Fstor.Discipline

/-! Power loss of a store with large settings: between any two flash operations of
a call, and inside the header that ends a collection. -/

namespace Jacdac

namespace LargeFstor

open Fstor

variable {config : FstorConfig} {store next : LargeFstor} {core middle : Fstor} {flash image : Memory} {base : Nat}
  {key : CString} {val : List UInt8} {settings : List Setting} {offset size dst : Nat} {torn : Prop} {used : Nat → Bool}
  {src : List UInt8}

/-- Wherever power is lost between the two states, both areas are in order. -/
def Recovers (config : FstorConfig) (store next : Fstor) : Prop :=
  ∃ ops, Issued config store next ops ∧ ∀ cut, Recoverable config True (replay config (ops.take cut) store.flash)

theorem Recoverable.congr (recoverable : Recoverable config torn flash)
    (same : ∀ cell, cell < 2 * config.headerSize → image cell = flash cell) : Recoverable config torn image := by
  intro header area
  have low := area.le
  exact (recoverable header area).congr fun cell _ upper => same cell (by omega)

theorem Recovers.none {after : Fstor} (recoverable : Recoverable config True core.flash) (flash : after.flash = core.flash)
    (ops : after.ops = core.ops) : Recovers config core after := by
  refine ⟨[], .none config flash ops, fun cut => ?_⟩
  rw [List.take_nil]
  exact recoverable

theorem Recovers.trans {after : Fstor} (first : Recovers config core middle) (second : Recovers config middle after) :
    Recovers config core after := by
  obtain ⟨before, issued, early⟩ := first
  obtain ⟨rest, more, late⟩ := second
  refine ⟨before ++ rest, issued.trans more, fun cut => ?_⟩
  rw [List.take_append, replay_append]
  rcases Nat.le_total cut before.length with inside | beyond
  · rw [Nat.sub_eq_zero_of_le inside, List.take_zero]
    exact early cut
  · rw [List.take_of_length_le beyond, ← issued.image]
    exact late _

theorem Recovers.cutImage {after : Fstor} (recovers : Recovers config core after) (cut : Nat) :
    Recoverable config True (Fstor.cutImage config core after cut) := by
  obtain ⟨ops, issued, recoverable⟩ := recovers
  rw [issued.cutImage]
  exact recoverable cut

/-- A cut is before the last operation or after it. -/
theorem replay_take_concat (config : FstorConfig) (ops : List FlashOp) (op : FlashOp) (cut : Nat) (flash : Memory) :
    replay config ((ops ++ [op]).take cut) flash = replay config (ops.take cut) flash ∨
      replay config ((ops ++ [op]).take cut) flash = replay config (ops ++ [op]) flash := by
  rcases Nat.lt_or_ge ops.length cut with beyond | inside
  · refine .inr ?_
    rw [List.take_of_length_le (by rw [List.length_append, List.length_singleton]; omega)]
  · exact .inl (by rw [List.take_append_of_le_length inside])

namespace Kept

/-- The value without its entry leaves a broken area, unless it looks erased. -/
theorem valued_recoverable (kept : Kept config True store base settings)
    (able : Appendable config store.core base settings.length key val) :
    Recoverable config True (store.core.valued val) := by
  obtain ⟨room, fits, positive, top, words⟩ := able.room
  have apart := able.area.apart
  refine recoverable_of_areas able.area (fun _ => ?_) (kept.other.congr fun cell lower upper => ?_)
  · cases erased : val.all (· = 0xff) with
    | true =>
      rw [able.valued_erased erased]
      exact .inl ⟨settings, kept.tabled.good, kept.apart⟩
    | false =>
      have scan : Scan (store.core.valued val) (base + 24) (base + config.headerSize) settings.length
          store.core.dataStart :=
        able.mounted.scan.congr fun cell lower upper => able.valued_outside cell (.inl (by omega))
      refine .inr ⟨trivial, settings.length, store.core.dataStart, scan, by omega, fun gap => ?_⟩
      exact absurd ((able.valued_rejected erased).symm.trans ((accepts_iff ..).mpr ⟨_, _, scan, gap⟩)) nofun
  · exact able.valued_outside cell (by omega)

theorem append_recovers (kept : Kept config True store base settings) (ok : keyOk key = true)
    (able : Appendable config store.core base settings.length key val) :
    Recovers config store.core (store.core.appended config key val) := by
  refine ⟨_, appended_issued config store.core key val, fun cut => ?_⟩
  rw [replay_appendOps]
  match cut with
  | 0 => exact kept.recoverable
  | 1 => exact kept.valued_recoverable able
  | cut + 2 => exact (kept.append ok able).recoverable

theorem extend_recovers (kept : Kept config True store base settings)
    (able : Extendable config store.core base settings.length key offset size)
    (after : Recoverable config True (store.core.extended config key offset size).flash) :
    Recovers config store.core (store.core.extended config key offset size) := by
  have room := able.room
  refine ⟨_, extended_issued config store.core key offset size, fun cut => ?_⟩
  rcases replay_take_concat config (eraseOps config offset (numDataPages config size))
    (.program (store.core.lastEntry + 24) (newEntry key offset size)) cut store.core.flash with early | done
  · rw [extendOps, early]
    have within : ∀ op ∈ (eraseOps config offset (numDataPages config size)).take cut, Within config offset
        (offset + numDataPages config size * config.pageSize) op :=
      fun op member => eraseOps_within config offset _ op (List.mem_of_mem_take member)
    exact kept.recoverable.congr fun cell low => replay_outside within (.inl (by omega)) _
  · rw [extendOps, done]
    exact (extended_issued config store.core key offset size).image ▸ after

theorem collect_recovers (kept : Kept config True store base settings)
    (collected : Collected config store.core base (Fstor.live store.core.flash base store.core.lastEntry) core)
    (exact : Exact config used settings) : Recovers config store.core core := by
  have apart := kept.tabled.area.apart
  obtain ⟨copies, issued, within, _⟩ := collected.ops
  refine ⟨_, issued, fun cut => ?_⟩
  rcases replay_take_concat config (eraseOps config (otherArea config base) config.headerPages ++ copies)
    (.program (otherArea config base) (newHeader config (u32 (generation store.core.flash base + 1)))) cut
    store.core.flash with early | done
  · rw [early]
    rcases unheaded within cut store.core.flash with same | erased
    · rw [same]
      exact kept.recoverable
    · refine recoverable_of_areas kept.tabled.area (fun _ => .inl ⟨settings, ?_, kept.apart⟩) fun valid => ?_
      · exact kept.tabled.good.congr fun cell lower upper => unheaded_outside within cut _ (by omega)
      · exact absurd ((isValidHeader_unheaded erased).symm.trans valid) nofun
  · rw [done, ← issued.image]
    exact (kept.collect collected exact).recoverable

theorem set_recovers (kept : Kept config True store base settings) {key : Option CString} {result : Int}
    (step : SetCase config store base settings key val result next) : Recovers config store.core next.core := by
  cases step with
  | same => exact .none kept.recoverable rfl rfl
  | append given ok able => exact kept.append_recovers ok able
  | full collected exact => exact kept.collect_recovers collected exact
  | collect given ok collected exact able =>
    exact (kept.collect_recovers collected exact).trans ((kept.collect collected exact).append_recovers ok able)

theorem prep_recovers (kept : Kept config True store base settings) {key : Option CString} {result : Option Nat}
    (step : PrepCase config store base settings size key result next) : Recovers config store.core next.core := by
  cases step with
  | badKey | nowhere => exact .none kept.recoverable rfl rfl
  | extend ok found able => exact kept.extend_recovers able (kept.extend_found found able).recoverable
  | full ok found short done collected exact => exact kept.collect_recovers collected exact
  | collect ok found short done collected exact able =>
    exact (kept.collect_recovers collected exact).trans
      ((kept.collect collected exact).extend_recovers able (kept.collect_found found collected exact able).recoverable)

theorem write_recovers (kept : Kept config True store base settings) (inside : InRegion config store key dst src) :
    Recovers config store.core (store.jdSettingsWriteLarge config dst src).core := by
  have after := (kept.write inside).1.recoverable
  have issued := (Issued.none config (show store.core.flash = store.core.flash from rfl) rfl).issue (.program dst src)
  refine ⟨_, issued, fun cut => ?_⟩
  cases cut with
  | zero => exact kept.recoverable
  | succ cut =>
    rw [List.take_of_length_le (by rw [List.nil_append, List.length_singleton]; omega), ← issued.image]
    exact after

end Kept

/-- Formatting the first area. -/
theorem format_recovers (recoverable : Recoverable config True core.flash) {after : Fstor}
    (formatted : Formatted config core after) (done : Recoverable config True after.flash) :
    Recovers config core after := by
  refine ⟨_, formatted.ops, fun cut => ?_⟩
  rcases replay_take_concat config (eraseOps config 0 config.headerPages) (.program 0 (newHeader config 1)) cut
    core.flash with early | all
  · rw [early, ← List.append_nil (eraseOps config 0 config.headerPages)]
    rcases unheaded (fun op member => absurd member List.not_mem_nil) cut core.flash with same | erased
    · rw [same]
      exact recoverable
    · refine recoverable_of_areas (.inl rfl) (fun valid => ?_) ?_
      · exact absurd ((isValidHeader_unheaded erased).symm.trans valid) nofun
      · rw [otherArea_zero]
        refine (recoverable _ (.inr rfl)).congr fun cell lower _ => ?_
        exact unheaded_outside (fun op member => absurd member List.not_mem_nil) cut _ (.inr (by omega))
  · rw [all, ← formatted.ops.image]
    exact done

/-- The calls that use the flash. A call on an unmounted store mounts it first. -/
inductive Call (config : FstorConfig) : LargeFstor → LargeFstor → Prop where
  | init {store next : LargeFstor} (unmounted : store.core.settings = none)
      (done : store.jdFstorInit config = .ok next) : Call config store next
  | unmount {store : LargeFstor} : Call config store { store with core := { store.core with settings := none } }
  | set {store next : LargeFstor} (mounted : store.core.settings ≠ none) (key : Option CString) (val : List UInt8)
      (done : store.jdSettingsSetBin config key val = .ok (result, next)) : Call config store next
  | prep {store next : LargeFstor} (mounted : store.core.settings ≠ none) (key : Option CString) (size : Nat)
      (word : size < 4294967296) (done : store.jdSettingsPrepLarge config key size = .ok (result, next)) :
    Call config store next
  | write {store : LargeFstor} (mounted : store.core.settings ≠ none) (key : CString) (dst : Nat) (src : List UInt8)
      (inside : InRegion config store key dst src) : Call config store (store.jdSettingsWriteLarge config dst src)

/-- Calls in any order, from erased flash. Power may be lost after any number of
the flash operations of a call. -/
inductive PoweredRun (config : FstorConfig) : LargeFstor → Prop where
  | start : PoweredRun config ⟨boot erasedFlash, fun _ => false⟩
  | call {store next : LargeFstor} (run : PoweredRun config store) (call : Call config store next) : PoweredRun config next
  | cut {store next : LargeFstor} (run : PoweredRun config store) (call : Call config store next) (cut : Nat) :
    PoweredRun config ⟨boot (cutImage config store.core next.core cut), fun _ => false⟩

/-- An unmounted store with both areas in order, or a mounted one. -/
def Stable (config : FstorConfig) (store : LargeFstor) : Prop :=
  (store.core.settings = none ∧ Recoverable config True store.core.flash) ∨
    ∃ base settings, Kept config True store base settings

theorem Stable.recoverable (stable : Stable config store) : Recoverable config True store.core.flash := by
  rcases stable with ⟨_, recoverable⟩ | ⟨_, _, kept⟩
  · exact recoverable
  · exact kept.recoverable

theorem Stable.kept (stable : Stable config store) (mounted : store.core.settings ≠ none) :
    ∃ base settings, Kept config True store base settings := by
  rcases stable with ⟨unmounted, _⟩ | kept
  · exact absurd unmounted mounted
  · exact kept

theorem Stable.call (stable : Stable config store) (call : Call config store next) :
    Stable config next ∧ Recovers config store.core next.core := by
  cases call with
  | init unmounted done =>
    obtain ⟨after, base, settings, init, kept, _, ⟨_, _, flash, ops⟩ | ⟨formatted, _⟩⟩ :=
      stable.recoverable.mounts unmounted rfl store.used
    · cases init.symm.trans done
      exact ⟨.inr ⟨base, settings, kept⟩, .none stable.recoverable flash ops⟩
    · cases init.symm.trans done
      exact ⟨.inr ⟨base, settings, kept⟩, format_recovers stable.recoverable formatted kept.recoverable⟩
  | unmount => exact ⟨.inl ⟨rfl, stable.recoverable⟩, .none stable.recoverable rfl rfl⟩
  | set mounted key val done =>
    obtain ⟨base, settings, kept⟩ := stable.kept mounted
    obtain ⟨_, _, same, step⟩ := kept.setCase key val
    cases same.symm.trans done
    obtain ⟨base, later, after, _⟩ := kept.set step
    exact ⟨.inr ⟨base, later, after⟩, kept.set_recovers step⟩
  | prep mounted key size word done =>
    obtain ⟨base, settings, kept⟩ := stable.kept mounted
    have step := kept.prepCase_of_ok word done
    obtain ⟨base, later, after, _⟩ := kept.prep step
    exact ⟨.inr ⟨base, later, after⟩, kept.prep_recovers step⟩
  | write mounted key dst src inside =>
    obtain ⟨base, settings, kept⟩ := stable.kept mounted
    exact ⟨.inr ⟨base, settings, (kept.write inside).1⟩, kept.write_recovers inside⟩

theorem PoweredRun.stable (run : PoweredRun config store) : Stable config store := by
  induction run with
  | start => exact .inl ⟨rfl, erased_recoverable config True⟩
  | call _ call ih => exact (ih.call call).1
  | cut _ call cut ih => exact .inl ⟨rfl, (ih.call call).2.cutImage cut⟩

/-- Mounting the image gives a store that is this map. -/
def BootsTo (config : FstorConfig) (image : Memory) (map : CString → Option (List UInt8)) : Prop :=
  ∃ after, jdFstorInit config ⟨boot image, fun _ => false⟩ = .ok after ∧ Serves config after map

namespace Kept

/-- Once the other area has lost its header, or has got its copies and a header,
whatever is picked holds the old map. -/
theorem boots (kept : Kept config torn store base settings)
    (collected : Collected config store.core base (Fstor.live store.core.flash base store.core.lastEntry) core)
    (outside : ∀ cell, cell < otherArea config base ∨ otherArea config base + config.headerSize ≤ cell →
      image cell = store.core.flash cell)
    (copied : isValidHeader config image (otherArea config base) = true → ∀ cell, otherArea config base + 24 ≤ cell →
      cell < otherArea config base + config.headerSize → image cell = core.flash cell) :
    BootsTo config image (valueMap store.core.flash settings) := by
  have area := kept.tabled.area
  have apart := area.apart
  have room := config.headerSize_le
  have high := area.other.le
  have same : ∀ cell, base ≤ cell → cell < base + config.headerSize → image cell = store.core.flash cell :=
    fun cell lower upper => outside cell (by omega)
  have valid : isValidHeader config image base = true := by
    rw [isValidHeader_congr fun cell lower upper => same cell lower (by omega)]
    exact kept.valid
  have old : Good config image base settings := kept.tabled.good.congr same
  have new (headed : isValidHeader config image (otherArea config base) = true) :
      Good config image (otherArea config base) (compact Prod.fst settings) :=
    ⟨_, (kept.tabled.collect collected).transport image core.ops (copied headed), fun _ _ _ => rfl⟩
  have values : valueMap image settings = valueMap store.core.flash settings := by
    funext name
    refine valueMap_congr rfl fun place bytes found cell lower _ => outside cell (.inr ?_)
    have above := (kept.region found).1.above
    omega
  obtain ⟨picked, header⟩ := pickHeader_some area valid
  rcases area.cases (pickHeader_area header).1 with rfl | rfl
  · obtain ⟨after, done, mounted, _, flash, _⟩ := @mounts_good config (boot image) image picked settings False old
      kept.apart header (fun headed => .inl ⟨_, new headed, apart_compact.mpr kept.apart⟩) rfl rfl fun _ => false
    refine ⟨after, done, ?_⟩
    rw [← values, ← flash]
    exact mounted.serves
  · have headed := (pickHeader_area header).2
    obtain ⟨after, done, mounted, _, flash, _⟩ := @mounts_good config (boot image) image _ _ False (new headed)
      (apart_compact.mpr kept.apart) header
      (by rw [area.other_other]; exact fun _ => .inl ⟨settings, old, kept.apart⟩) rfl rfl fun _ => false
    refine ⟨after, done, ?_⟩
    rw [← values, ← flash, ← valueMap_compact]
    exact mounted.serves

end Kept

/-- The image when power is lost while the last operation of a call has programmed
this many of its bytes. -/
def tornImage (config : FstorConfig) (store next : Fstor) (count : Nat) : Memory :=
  let ops := next.ops.drop store.ops.length
  match ops.getLast? with
  | some (.program address bytes) => (replay config ops.dropLast store.flash).write address (bytes.take count)
  | _ => replay config ops store.flash

namespace Kept

theorem boots_cut (kept : Kept config torn store base settings)
    (collected : Collected config store.core base (Fstor.live store.core.flash base store.core.lastEntry) core)
    (cut : Nat) (begun : 1 ≤ cut) :
    BootsTo config (cutImage config store.core core cut) (valueMap store.core.flash settings) := by
  obtain ⟨copies, issued, within, _⟩ := collected.ops
  obtain ⟨less, rfl⟩ := Nat.exists_eq_add_of_le' begun
  rw [issued.cutImage]
  rcases replay_take_concat config (eraseOps config (otherArea config base) config.headerPages ++ copies)
    (.program (otherArea config base) (newHeader config (u32 (generation store.core.flash base + 1)))) (less + 1)
    store.core.flash with early | all
  · rw [early]
    have erased := erased_first within less store.core.flash
    refine kept.boots collected (fun cell out => unheaded_outside within _ _ out) fun valid => ?_
    exact absurd ((isValidHeader_unheaded erased).symm.trans valid) nofun
  · rw [all, ← issued.image]
    exact kept.boots collected collected.outside fun _ _ _ _ => rfl

/-- A collection cut inside its header. -/
theorem boots_torn (kept : Kept config torn store base settings)
    (collected : Collected config store.core base (Fstor.live store.core.flash base store.core.lastEntry) core)
    (count : Nat) : BootsTo config (tornImage config store.core core count) (valueMap store.core.flash settings) := by
  obtain ⟨copies, issued, within, _⟩ := collected.ops
  have room := config.headerSize_le
  have length := newHeader_length config (u32 (generation store.core.flash base + 1))
  have before (cell : Nat) (out : cell < otherArea config base ∨ otherArea config base + 24 ≤ cell) : core.flash cell =
      replay config (eraseOps config (otherArea config base) config.headerPages ++ copies) store.core.flash cell := by
    rw [issued.image, replay_append]
    exact Memory.write_outside (by rw [length]; exact out)
  have short : ((newHeader config (u32 (generation store.core.flash base + 1))).take count).length ≤ 24 :=
    Nat.le_trans (List.length_take_le' ..) (Nat.le_of_eq length)
  rw [tornImage, issued.record, List.drop_left, List.getLast?_concat, List.dropLast_concat]
  refine kept.boots collected (fun cell out => ?_) fun _ cell lower upper => ?_
  · refine (Memory.write_outside (by omega)).trans ?_
    rw [← before cell (by omega)]
    exact collected.outside cell out
  · exact (Memory.write_outside (by omega)).trans (before cell (.inr lower)).symm

end Kept

end LargeFstor

/-- In every state that calls and power losses lead to, a power loss between two
flash operations of a collection, after it, or inside the header that it writes
last, leaves an image that is mounted with the same values. -/
theorem gc_power_loss_harmless (config : FstorConfig) (run : LargeFstor.PoweredRun config store)
    (mounted : store.core.settings = some base) :
    ∃ next map gen, store.jdFstorGc config = .ok next ∧
      (next.core.ops.drop store.core.ops.length).getLast? =
        some (.program (Fstor.otherArea config base) (Fstor.newHeader config gen)) ∧
      LargeFstor.Serves config store map ∧
      (∀ cut, 1 ≤ cut → LargeFstor.BootsTo config (Fstor.cutImage config store.core next.core cut) map) ∧
      ∀ count, LargeFstor.BootsTo config (LargeFstor.tornImage config store.core next.core count) map := by
  obtain ⟨area, settings, kept⟩ := run.stable.kept (by rw [mounted]; exact nofun)
  obtain rfl : area = base := Option.some.inj (kept.tabled.mounted.settings.symm.trans mounted)
  obtain ⟨core, used, done, collected, _⟩ := kept.gc
  obtain ⟨copies, issued, _⟩ := collected.ops
  refine ⟨_, _, u32 (Fstor.generation store.core.flash area + 1), done, ?_, kept.serves, kept.boots_cut collected,
    kept.boots_torn collected⟩
  rw [issued.record, List.drop_left, List.getLast?_concat]

namespace LargeFstor

/-- Set `a`, prepare `*a` and collect: where the store was mounted, what a read of
`a` copied, and the number of flash operations of the collection. -/
def setThenCollect : Except LargeFault (List (Option Nat) × List UInt8 × Nat) := do
  let first ← jdFstorInit largeConfig ⟨Fstor.boot erasedFlash, fun _ => false⟩
  let (_, second) ← first.jdSettingsSetBin largeConfig (some keyA) [7]
  let (_, store) ← second.jdSettingsPrepLarge largeConfig (some largeKeyA) 256
  let (_, copied, _) ← store.jdSettingsGetBin largeConfig (some keyA) 1
  let next ← store.jdFstorGc largeConfig
  return ([first, second, store].map (·.core.settings), copied, (next.core.ops.drop store.core.ops.length).length)

end LargeFstor

/-- Two entries are copied, and the power goes after the first program of a copy. -/
theorem gc_power_loss_harmless_first :
    ∃ store next map, LargeFstor.PoweredRun largeConfig store ∧ store.core.settings = some 0 ∧
      store.jdFstorGc largeConfig = .ok next ∧ (next.core.ops.drop store.core.ops.length).length = 5 ∧
      (∃ result after, store.jdSettingsGetBin largeConfig (some keyA) 1 = .ok (result, [7], after)) ∧
      LargeFstor.Serves largeConfig store map ∧
      LargeFstor.BootsTo largeConfig (Fstor.cutImage largeConfig store.core next.core 2) map := by
  have done : LargeFstor.setThenCollect = .ok ([some 0, some 0, some 0], [7], 5) := by decide +kernel
  obtain ⟨first, init, done⟩ := ok_of_bind done
  obtain ⟨⟨_, second⟩, set, done⟩ := ok_of_bind done
  obtain ⟨⟨_, store⟩, prep, done⟩ := ok_of_bind done
  obtain ⟨⟨result, copied, after⟩, read, done⟩ := ok_of_bind done
  obtain ⟨collected, gc, done⟩ := ok_of_bind done
  obtain ⟨mounts, values⟩ := Prod.mk.inj (Except.ok.inj done)
  obtain ⟨rfl, count⟩ := Prod.mk.inj values
  obtain ⟨one, others⟩ := List.cons.inj mounts
  obtain ⟨two, last⟩ := List.cons.inj others
  have three : store.core.settings = some 0 := (List.cons.inj last).1
  dsimp only at one two
  have run : LargeFstor.PoweredRun largeConfig store :=
    .call (.call (.call .start (.init rfl init)) (.set (by rw [one]; exact nofun) (some keyA) [7] set))
      (.prep (by rw [two]; exact nofun) (some largeKeyA) 256 (by decide) prep)
  obtain ⟨next, map, _, collect, _, serves, cuts, _⟩ := gc_power_loss_harmless largeConfig run three
  obtain rfl := Except.ok.inj (gc.symm.trans collect)
  exact ⟨store, collected, map, run, three, gc, count, ⟨result, after, read⟩, serves, cuts 2 (by decide)⟩

end Jacdac
