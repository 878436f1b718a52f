import Jacdac.Fstor.Map

/-! Power loss between two flash operations of `jd_settings_set_bin`. -/

namespace Jacdac

namespace Fstor

variable {config : FstorConfig} {store next : Fstor} {flash : Memory} {base count : Nat} {entries : List Entry}
  {key : CString} {val : List UInt8} {map : CString → Option (List UInt8)} {ops : List FlashOp}

/-- The image after the first `cut` flash operations that a call issued. -/
def cutImage (config : FstorConfig) (store next : Fstor) (cut : Nat) : Memory :=
  replay config ((next.ops.drop store.ops.length).take cut) store.flash

theorem Issued.cutImage (issued : Issued config store next ops) (cut : Nat) :
    cutImage config store next cut = replay config (ops.take cut) store.flash := by
  rw [Fstor.cutImage, issued.record, List.drop_left]

/-- The two operations that store a value. -/
def appendOps (store : Fstor) (key : CString) (val : List UInt8) : List FlashOp :=
  [.program (store.dataStart - align val.length) val,
    .program (store.lastEntry + 24) (newEntry key (store.dataStart - align val.length) val.length)]

theorem appended_issued (config : FstorConfig) (store : Fstor) (key : CString) (val : List UInt8) :
    Issued config store (store.appended config key val) (appendOps store key val) :=
  ⟨List.append_assoc .., rfl⟩

theorem isValidHeader_first (valid : isValidHeader config flash base = true) : flash base = 0x46 := by
  rw [isValidHeader, decide_eq_true_iff] at valid
  have magic := valid.1
  rw [Memory.number, Memory.read_succ, fromLittle, fstorMagic0] at magic
  refine UInt8.toNat_inj.mp ?_
  have byte := (flash base).toNat_lt
  change (flash base).toNat = 70
  omega

/-- After the first operation of a collection the first byte of the other area is
erased, and the others up to the header leave it alone. -/
theorem erased_first (within : ∀ op ∈ ops, Within config (alt + 24) (alt + config.headerSize) op) (cut : Nat)
    (flash : Memory) :
    replay config ((eraseOps config alt config.headerPages ++ ops).take (cut + 1)) flash alt = 0xff := by
  obtain ⟨pages, positive⟩ := config.positive
  obtain ⟨more, split⟩ : ∃ more, config.headerPages = more + 1 := ⟨config.headerPages - 1, by omega⟩
  have shape : eraseOps config alt config.headerPages = .erase alt ::
      (List.range more).map (fun page => .erase (alt + (page + 1) * config.pageSize)) := by
    rw [eraseOps, split, List.range_succ_eq_map, List.map_cons, List.map_map, Nat.zero_mul, Nat.add_zero]
    rfl
  have later : ∀ op ∈ ((List.range more).map (fun page => FlashOp.erase (alt + (page + 1) * config.pageSize)) ++
      ops).take cut, Within config (alt + 1) (alt + config.headerSize) op := by
    intro op member
    rcases List.mem_append.mp (List.mem_of_mem_take member) with erasing | copy
    · obtain ⟨page, inside, rfl⟩ := List.mem_map.mp erasing
      have first := Nat.mul_le_mul_right config.pageSize (show 1 ≤ page + 1 by omega)
      have last := Nat.mul_le_mul_right config.pageSize
        (show page + 1 + 1 ≤ config.headerPages by have := List.mem_range.mp inside; omega)
      rw [Nat.succ_mul] at last
      rw [Nat.one_mul] at first
      have size : config.headerSize = config.headerPages * config.pageSize := rfl
      exact ⟨by omega, by omega⟩
    · exact (within op copy).mono (by omega)
  rw [shape, List.cons_append, List.take_succ_cons]
  refine (replay_outside later (.inl (Nat.lt_succ_self alt)) _).trans ?_
  have inside : 0 < (List.replicate config.pageSize (0xff : UInt8)).length := by
    rw [List.length_replicate]
    exact positive
  have erased := @Memory.write_inside flash alt 0 _ inside
  rw [Nat.add_zero] at erased
  exact erased.trans (List.getElem_replicate ..)

/-- The operations of a collection up to the header, cut anywhere. -/
theorem unheaded (within : ∀ op ∈ ops, Within config (alt + 24) (alt + config.headerSize) op) (cut : Nat)
    (flash : Memory) :
    replay config ((eraseOps config alt config.headerPages ++ ops).take cut) flash = flash ∨
      replay config ((eraseOps config alt config.headerPages ++ ops).take cut) flash alt = 0xff := by
  cases cut with
  | zero => exact .inl rfl
  | succ cut => exact .inr (erased_first within cut flash)

/-- They leave everything outside the area. -/
theorem unheaded_outside {cell : Nat} (within : ∀ op ∈ ops, Within config (alt + 24) (alt + config.headerSize) op) (cut : Nat)
    (flash : Memory) (out : cell < alt ∨ alt + config.headerSize ≤ cell) :
    replay config ((eraseOps config alt config.headerPages ++ ops).take cut) flash cell = flash cell := by
  refine replay_outside (fun op member => ?_) out _
  rcases List.mem_append.mp (List.mem_of_mem_take member) with erasing | copy
  · exact eraseOps_within config _ _ op erasing
  · exact (within op copy).mono (Nat.le_add_right ..)

theorem isValidHeader_unheaded (erased : flash base = 0xff) : isValidHeader config flash base = false := by
  refine Bool.eq_false_iff.mpr fun valid => ?_
  rw [isValidHeader_first valid] at erased
  exact absurd erased (by decide)

/-- The store holds these entries in the area that is picked. Without entries it
is as it was formatted. -/
structure Sound (config : FstorConfig) (store : Fstor) (base : Nat) (entries : List Entry) : Prop where
  represents : Represents config store base entries
  picked : pickHeader config store.flash = some base
  fresh : entries = [] → base = 0 ∧ isValidHeader config store.flash config.headerSize = false

/-- Mounting the image gives a sound store with this map. -/
def Boots (config : FstorConfig) (flash : Memory) (map : CString → Option (List UInt8)) : Prop :=
  ∃ after base entries, (boot flash).jdFstorInit config = .ok after ∧ Sound config after base entries ∧
    mapOf entries = map

/-- An image that keeps the mounted area and its precedence. -/
theorem Sound.boots (sound : Sound config store base entries) (flash : Memory)
    (same : ∀ cell, base ≤ cell → cell < base + config.headerSize → flash cell = store.flash cell)
    (picked : pickHeader config flash = some base)
    (fresh : entries = [] → isValidHeader config flash config.headerSize = false) :
    Boots config flash (mapOf entries) := by
  obtain ⟨after, done, image, represents⟩ := sound.represents.remounts (boot flash) same picked
  exact ⟨after, base, entries, done, ⟨represents, by rw [image]; exact picked,
    fun none => ⟨(sound.fresh none).1, by rw [image]; exact fresh none⟩⟩, rfl⟩

theorem Sound.boots_same (sound : Sound config store base entries) : Boots config store.flash (mapOf entries) :=
  sound.boots store.flash (fun _ _ _ => rfl) sound.picked fun none => (sound.fresh none).2

theorem boots_formatted (picked : pickHeader config flash = some base) (rejected : accepts config flash base = false) :
    ∃ after, (boot flash).jdFstorInit config = .ok after ∧ Formatted config (boot flash) after := by
  obtain ⟨after, done, ⟨other, _, chosen, accepted, _⟩ | ⟨_, formatted⟩⟩ := @init_cases config (boot flash) rfl
  · obtain rfl := Option.some.inj (picked.symm.trans chosen)
    exact absurd (rejected.symm.trans accepted) nofun
  · exact ⟨after, done, formatted⟩

/-- The image with the new value but without its entry. -/
def valued (store : Fstor) (val : List UInt8) : Memory :=
  store.flash.write (store.dataStart - align val.length) val

namespace Appendable

theorem valued_outside (able : Appendable config store base count key val) (cell : Nat)
    (out : cell < base + 48 + 24 * count ∨ store.dataStart ≤ cell) : store.valued val cell = store.flash cell := by
  obtain ⟨room, fits, positive, _, _⟩ := able.room
  exact Memory.write_outside (by omega)

theorem valued_picks (able : Appendable config store base count key val) :
    pickHeader config (store.valued val) = pickHeader config store.flash := by
  obtain ⟨room, fits, positive, top, words⟩ := able.room
  refine pickHeader_congr fun header area cell lower upper => able.valued_outside cell ?_
  have low := config.headerSize_le
  rcases area with rfl | rfl <;> rcases able.area with rfl | rfl <;> omega

/-- Erased bytes look as if nothing was programmed. -/
theorem valued_erased (able : Appendable config store base count key val) (erased : val.all (· = 0xff) = true) :
    store.valued val = store.flash := by
  obtain ⟨room, fits, positive, _, _⟩ := able.room
  funext cell
  by_cases out : cell < store.dataStart - align val.length ∨ store.dataStart - align val.length + val.length ≤ cell
  · exact Memory.write_outside out
  · obtain ⟨offset, rfl⟩ := Nat.exists_eq_add_of_le (show store.dataStart - align val.length ≤ cell by omega)
    have inside : offset < val.length := by omega
    have byte := List.all_eq_true.mp erased _ (List.getElem_mem inside)
    rw [valued, Memory.write_inside inside, able.mounted.gap _ (by omega) (by omega)]
    exact of_decide_eq_true byte

/-- Any other byte makes `recompute_cache` reject the area. -/
theorem valued_rejected (able : Appendable config store base count key val) (visible : val.all (· = 0xff) = false) :
    accepts config (store.valued val) base = false := by
  obtain ⟨room, fits, positive, _, _⟩ := able.room
  have scan : Scan (store.valued val) (base + 24) (base + config.headerSize) count store.dataStart :=
    able.mounted.scan.congr fun cell lower upper => able.valued_outside cell (.inl (by omega))
  obtain ⟨byte, member, written⟩ := List.all_eq_false.mp visible
  obtain ⟨offset, inside, rfl⟩ := List.getElem_of_mem member
  rw [Bool.eq_false_iff]
  intro accepted
  obtain ⟨number, low, found, gap⟩ := (accepts_iff ..).mp accepted
  obtain ⟨ends, lowest⟩ := Prod.mk.inj (Option.some.inj (found.scanEntries.symm.trans scan.scanEntries))
  have value : store.valued val (store.dataStart - align val.length + offset) = val[offset] :=
    Memory.write_inside inside
  refine written (decide_eq_true (value.symm.trans (gap _ (by omega) (by omega))))

end Appendable

/-- The images between the two operations. -/
theorem replay_appendOps (config : FstorConfig) (store : Fstor) (key : CString) (val : List UInt8) (cut : Nat) :
    replay config ((appendOps store key val).take cut) store.flash =
      match cut with
      | 0 => store.flash
      | 1 => store.valued val
      | _ => (store.appended config key val).flash := by
  match cut with
  | 0 => rfl
  | 1 => rfl
  | cut + 2 =>
    rw [List.take_of_length_le (by simp [appendOps])]
    rfl

theorem Sound.append (sound : Sound config store base entries) (ok : keyOk key = true)
    (able : Appendable config store base entries.length key val) :
    Sound config (store.appended config key val) base (entries ++ [(key, val)]) :=
  ⟨sound.represents.append ok able, able.picks.trans sound.picked, fun none => absurd none (by simp)⟩

/-- Cut anywhere, an append that cannot be seen half done, or that is the first,
leaves the old or the new map. -/
theorem Sound.append_cut (sound : Sound config store base entries) (ok : keyOk key = true)
    (able : Appendable config store base entries.length key val)
    (harmless : val.all (· = 0xff) = true ∨ entries = []) (cut : Nat) :
    Boots config (replay config ((appendOps store key val).take cut) store.flash) (mapOf entries) ∨
      Boots config (replay config ((appendOps store key val).take cut) store.flash)
        (Function.update (mapOf entries) key (some val)) := by
  rw [replay_appendOps]
  match cut with
  | 0 => exact .inl sound.boots_same
  | 1 =>
    refine .inl ?_
    cases erased : val.all (· = 0xff) with
    | true =>
      rw [able.valued_erased erased]
      exact sound.boots_same
    | false =>
      -- the area is rejected, but nothing is lost with it
      obtain rfl : entries = [] := harmless.resolve_left (by rw [erased]; exact nofun)
      obtain ⟨rfl, invalid⟩ := sound.fresh rfl
      obtain ⟨after, done, formatted⟩ := boots_formatted (able.valued_picks.trans sound.picked)
        (able.valued_rejected erased)
      obtain ⟨room, fits, positive, top, words⟩ := able.room
      have large := config.headerSize_le
      have untouched : ∀ cell, config.headerSize ≤ cell → cell < config.headerSize + 24 →
          store.valued val cell = store.flash cell :=
        fun cell lower upper => able.valued_outside cell (.inr (by omega))
      have second : isValidHeader config (store.valued val) config.headerSize = false := by
        rw [isValidHeader_congr untouched]
        exact invalid
      have kept : ∀ cell, config.headerSize ≤ cell → cell < config.headerSize + 24 →
          after.flash cell = store.valued val cell := fun cell lower _ => formatted.outside cell lower
      refine ⟨after, 0, [], done, ⟨formatted.represents, formatted.picks fun valid => ?_, fun _ => ⟨rfl, ?_⟩⟩, rfl⟩
      · exact absurd (second.symm.trans valid) nofun
      · rw [isValidHeader_congr kept]
        exact second
  | cut + 2 =>
    have after := (sound.append ok able).boots_same
    rw [mapOf_append] at after
    exact .inr after

/-- With nothing stored there is room for every value. -/
theorem Represents.nonempty (represents : Represents config store base entries)
    (collects : Collects config store base key val) : entries ≠ [] := by
  rintro rfl
  have free : store.freeSpace + 48 + 24 * 0 + 0 = config.headerSize := represents.freeSpace
  have short := collects.short
  have size := collects.size
  have large := config.headerSize_le
  have aligned : align val.length ≤ val.length + 8 := by
    unfold align alignCore
    split
    · omega
    · rw [u32]
      omega
  omega

theorem Sound.collect (sound : Sound config store base entries)
    (collected : Collected config store base (live store.flash base store.lastEntry) next)
    (below : generation store.flash base ≠ 0xffffffff) (some : entries ≠ []) :
    Sound config next (otherArea config base) (compact Prod.fst entries) := by
  have settled : Settled config store base entries.length := ⟨sound.represents.mounted, sound.picked⟩
  exact ⟨sound.represents.collect collected, (settled.collect collected below).picked,
    fun none => absurd none (compact_ne_nil some)⟩

/-- While the other area has no header, the mounted one is picked. -/
theorem Sound.boots_unheaded (sound : Sound config store base entries) (some : entries ≠ [])
    (outside : ∀ cell, cell < otherArea config base ∨ otherArea config base + config.headerSize ≤ cell →
      flash cell = store.flash cell)
    (newer : isValidHeader config flash (otherArea config base) = true →
      generation flash (otherArea config base) < generation store.flash base) :
    Boots config flash (mapOf entries) := by
  have apart := sound.represents.area.apart
  have large := config.headerSize_le
  have same : ∀ cell, base ≤ cell → cell < base + config.headerSize → flash cell = store.flash cell :=
    fun cell lower upper => outside cell (by omega)
  have header : ∀ cell, base ≤ cell → cell < base + 24 → flash cell = store.flash cell :=
    fun cell lower upper => same cell lower (by omega)
  refine sound.boots flash same (pickHeader_newer sound.represents.area ?_ ?_) fun none => absurd none some
  · rw [isValidHeader_congr header]
    exact (pickHeader_area sound.picked).2
  · rw [generation_congr header]
    exact newer

/-- A collection cut before its end leaves the old map. -/
theorem Sound.collect_cut (sound : Sound config store base entries) (some : entries ≠ [])
    (collected : Collected config store base kept next) :
    ∃ ops, Issued config store next ops ∧
      ∀ cut < ops.length, Boots config (replay config (ops.take cut) store.flash) (mapOf entries) := by
  obtain ⟨copies, issued, within, _⟩ := collected.ops
  refine ⟨_, issued, fun cut inside => ?_⟩
  rw [List.length_append, List.length_singleton] at inside
  rw [List.take_append_of_le_length (by omega)]
  rcases unheaded within cut store.flash with same | erased
  · rw [same]
    exact sound.boots_same
  · refine sound.boots_unheaded some (fun cell out => unheaded_outside within cut _ out) fun valid => ?_
    exact absurd ((isValidHeader_unheaded erased).symm.trans valid) nofun

/-- A collection that wraps the generation is undone at the next mount, whatever
is stored behind the new header. -/
theorem Sound.boots_wrapped (sound : Sound config store base entries) (some : entries ≠ [])
    (collected : Collected config store base kept next) (last : generation store.flash base = 0xffffffff)
    (same : ∀ cell, cell < otherArea config base + 24 ∨ otherArea config base + config.headerSize ≤ cell →
      flash cell = next.flash cell) :
    Boots config flash (mapOf entries) := by
  refine sound.boots_unheaded some (fun cell out => ?_) fun _ => ?_
  · exact (same cell (by omega)).trans (collected.outside cell out)
  · have header : ∀ cell, otherArea config base ≤ cell → cell < otherArea config base + 24 →
        flash cell = next.flash cell := fun cell _ upper => same cell (.inl upper)
    rw [generation_congr header, collected.generation, last]
    decide

/-- A collection that was not cut. -/
theorem Sound.boots_collected (sound : Sound config store base entries) (some : entries ≠ [])
    (collected : Collected config store base (live store.flash base store.lastEntry) next) :
    Boots config next.flash (mapOf entries) := by
  by_cases last : generation store.flash base = 0xffffffff
  · exact sound.boots_wrapped some collected last fun _ _ => rfl
  · have after := (sound.collect collected last some).boots_same
    rwa [mapOf_compact] at after

theorem Appendable.cut_outside (able : Appendable config store base count key val) (cut cell : Nat)
    (out : cell < base + 24 + 24 * count ∨ store.dataStart ≤ cell) :
    replay config ((appendOps store key val).take cut) store.flash cell = store.flash cell := by
  rw [replay_appendOps]
  match cut with
  | 0 => rfl
  | 1 => exact able.valued_outside cell (by omega)
  | _ + 2 => exact able.outside cell out

/-- The call gets to store the value, if need be after a collection. -/
structure Stores (config : FstorConfig) (store : Fstor) (base : Nat) (key : CString) (val : List UInt8) : Prop where
  keyOk : keyOk key = true
  size : val.length ≤ config.headerSize - 200
  absent : present store base key val = false
  room : align val.length + 24 ≤ store.freeSpace ∨
    align val.length + 72 + 24 * (live store.flash base store.lastEntry).length +
      footprint store.flash (live store.flash base store.lastEntry) ≤ config.headerSize

/-- The call stores nothing, or the value looks erased, or there are no entries
to lose, or the call collects garbage at the last generation. -/
def Harmless (config : FstorConfig) (store : Fstor) (key : CString) (val : List UInt8) : Prop :=
  ∀ base, store.settings = some base → Stores config store base key val →
    val.all (· = 0xff) = true ∨ store.lastEntry = base ∨
      (store.freeSpace < align val.length + 24 ∧ generation store.flash base = 0xffffffff)

theorem Sound.last_iff (sound : Sound config store base entries) : store.lastEntry = base ↔ entries = [] := by
  have last := sound.represents.mounted.last
  rw [← List.length_eq_zero_iff]
  omega

/-- Cut anywhere, a harmless set leaves the old or the new map. -/
theorem Sound.set_cut (sound : Sound config store base entries) (harmless : Harmless config store key val)
    (step : SetStep config store base entries.length val (some key) result next) (cut : Nat) :
    Boots config (cutImage config store next cut) (mapOf entries) ∨
      Boots config (cutImage config store next cut) (Function.update (mapOf entries) key (some val)) := by
  have represents := sound.represents
  have harmless := harmless base represents.mounted.settings
  have idle : Issued config store store [] := ⟨(List.append_nil _).symm, rfl⟩
  cases step with
  | badKey | tooLarge | present =>
    rw [idle.cutImage, List.take_nil]
    exact .inl sound.boots_same
  | append ok size absent able =>
    have space := able.space
    rw [(appended_issued config store key val).cutImage]
    refine sound.append_cut ok able ?_ cut
    rcases harmless ⟨ok, size, absent, .inl space⟩ with erased | last | ⟨short, _⟩
    · exact .inl erased
    · exact .inr (sound.last_iff.mp last)
    · omega
  | full collects collected =>
    have some := represents.nonempty collects
    obtain ⟨ops, issued, before⟩ := sound.collect_cut some collected
    rw [issued.cutImage]
    refine .inl ?_
    by_cases inside : cut < ops.length
    · exact before cut inside
    · rw [List.take_of_length_le (by omega), ← issued.image]
      exact sound.boots_collected some collected
  | @collect _ next collects collected able =>
    have some := represents.nonempty collects
    obtain ⟨ops, issued, before⟩ := sound.collect_cut some collected
    rw [(issued.trans (appended_issued config next key val)).cutImage]
    by_cases inside : cut < ops.length
    · rw [List.take_append_of_le_length (by omega)]
      exact .inl (before cut inside)
    · rw [List.take_append, List.take_of_length_le (by omega), replay_append, ← issued.image]
      have room := able.room
      have top := collected.mounted.scan.belowTop
      by_cases last : generation store.flash base = 0xffffffff
      · exact .inl (sound.boots_wrapped some collected last fun cell out => able.cut_outside _ cell (by omega))
      · have free := (represents_iff.mp represents).collected_space collected
        have space := able.space
        have erased : val.all (· = 0xff) = true := by
          rcases harmless ⟨collects.keyOk, collects.size, collects.absent, .inr (by omega)⟩ with erased | none | wraps
          · exact erased
          · exact absurd (sound.last_iff.mp none) some
          · exact absurd wraps.2 last
        have after := sound.collect collected last some
        have count := after.represents.mounted.count_eq collected.mounted
        have cuts := after.append_cut collects.keyOk (count ▸ able) (.inl erased) (cut - ops.length)
        rwa [mapOf_compact] at cuts

end Fstor

end Jacdac
