import Jacdac.Base.Latest
import Jacdac.Fstor.Large
import Jacdac.Fstor.Remount

/-! The mounted area as a list of settings, in the order they were stored: small
values lie in the area, large ones in pages of their own. -/

namespace Jacdac

namespace Fstor

variable {config : FstorConfig} {store next : Fstor} {flash : Memory} {base count alt : Nat} {key : CString}
  {val : List UInt8}

/-- A stored key with its value. -/
abbrev Entry := CString × List UInt8

/-- A value in the area, or the address and the size of a large one. -/
inductive Content where
  | small (value : List UInt8)
  | large (offset size : Nat)

abbrev Setting := CString × Content

variable {entry : Entry} {setting : Setting} {settings : List Setting} {slot low top : Nat}

/-- The slot holds this entry, and its value lies between `low` and `top`. -/
structure Record (flash : Memory) (low top slot : Nat) (entry : Entry) : Prop where
  key : flash.read slot 16 = entry.1.1 ++ List.replicate (16 - entry.1.1.length) 0
  ok : keyOk entry.1 = true
  size : entrySize flash slot = entry.2.length
  inside : low ≤ entryOffset flash slot ∧ entryOffset flash slot + entry.2.length ≤ top
  value : flash.read (entryOffset flash slot) entry.2.length = entry.2

def pageAddress (config : FstorConfig) (page : Nat) : Nat := (config.headerPages * 2 + page) * config.pageSize

/-- The number of the first page of a large value. -/
def firstPage (config : FstorConfig) (offset : Nat) : Nat := offset / config.pageSize - config.headerPages * 2

/-- The pages of a large value are data pages. -/
def InData (config : FstorConfig) (offset size : Nat) : Prop :=
  offset = pageAddress config (firstPage config offset) ∧
    firstPage config offset + numDataPages config size ≤ dataPages config

/-- A large value lies behind both areas. -/
theorem InData.above {offset size : Nat} (inside : InData config offset size) : 2 * config.headerSize ≤ offset := by
  have first := Nat.mul_le_mul_right config.pageSize (Nat.le_add_right (config.headerPages * 2) (firstPage config offset))
  have address := inside.1
  rw [pageAddress] at address
  rw [FstorConfig.headerSize, ← Nat.mul_assoc, Nat.mul_comm 2]
  omega

/-- The slot holds the entry of a large value. -/
structure LargeRecord (config : FstorConfig) (flash : Memory) (slot : Nat) (key : CString) (offset size : Nat) :
    Prop where
  field : flash.read slot 16 = key.1 ++ List.replicate (16 - key.1.length) 0
  ok : lkeyOk key = true
  address : entryOffset flash slot = offset
  bytes : entrySize flash slot = size
  pages : InData config offset size
  taken : 0 < numDataPages config size

/-- The slot holds this setting. -/
def Holding (config : FstorConfig) (flash : Memory) (low top slot : Nat) (setting : Setting) : Prop :=
  match setting.2 with
  | .small value => Record flash low top slot (setting.1, value)
  | .large offset size => LargeRecord config flash slot setting.1 offset size

/-- `strcmp` stops at the terminator of a key field. -/
theorem entryKey_of_field (short : key.1.length ≤ 15)
    (field : flash.read slot 16 = key.1 ++ List.replicate (16 - key.1.length) 0) : entryKey flash slot = key.1 := by
  obtain ⟨zeros, split⟩ : ∃ zeros, 16 - key.1.length = zeros + 1 := ⟨15 - key.1.length, by omega⟩
  have block : flash.read slot fstorEntrySize = key.1 ++ 0 :: (List.replicate zeros 0 ++ flash.read (slot + 16) 8) := by
    rw [show fstorEntrySize = 16 + 8 from rfl, Memory.read_append, field, split, List.replicate_succ,
      List.append_assoc, List.cons_append]
  rw [entryKey, block, List.takeWhile_append_of_pos]
  · simp
  · intro byte member
    exact decide_eq_true fun zero => key.2 (zero ▸ member)

theorem field_first (field : flash.read slot 16 = key.1 ++ List.replicate (16 - key.1.length) 0) :
    flash slot = key.1.headD 0 := by
  have first : (flash.read slot 16).head? = some (flash slot) := rfl
  rw [field] at first
  cases bytes : key.1 with
  | nil =>
    rw [bytes] at first
    exact (Option.some.inj first).symm
  | cons byte rest =>
    rw [bytes] at first
    exact (Option.some.inj first).symm

theorem lkeyOk_iff : lkeyOk key = true ↔ key.1.head? = some largeMark ∧ key.1.length ≤ 15 := by
  rw [lkeyOk, decide_eq_true_iff, not_or, Decidable.not_not, Nat.not_lt]
  rfl

theorem keyOk_iff : keyOk key = true ↔ key.1.head? ≠ some largeMark ∧ key.1.length ≤ 15 := by
  rw [keyOk, decide_eq_true_iff, not_or, Nat.not_lt]
  exact and_comm

theorem headD_mark_iff : key.1.headD 0 = largeMark ↔ key.1.head? = some largeMark := by
  cases key.1 with
  | nil => exact ⟨nofun, nofun⟩
  | cons byte rest => exact ⟨congrArg some, Option.some.inj⟩

/-- Whether a setting is large. -/
def Content.isLarge : Content → Bool
  | .small _ => false
  | .large _ _ => true

namespace Holding

theorem field (holding : Holding config flash low top slot setting) :
    flash.read slot 16 = setting.1.1 ++ List.replicate (16 - setting.1.1.length) 0 := by
  obtain ⟨key, value | ⟨offset, size⟩⟩ := setting
  · exact Record.key holding
  · exact LargeRecord.field holding

theorem short (holding : Holding config flash low top slot setting) : setting.1.1.length ≤ 15 := by
  obtain ⟨key, value | ⟨offset, size⟩⟩ := setting
  · exact (keyOk_iff.mp (Record.ok holding)).2
  · exact (lkeyOk_iff.mp (LargeRecord.ok holding)).2

theorem entryKey (holding : Holding config flash low top slot setting) : entryKey flash slot = setting.1.1 :=
  entryKey_of_field holding.short holding.field

theorem isLarge (holding : Holding config flash low top slot setting) : isLarge flash slot = setting.2.isLarge := by
  rw [Fstor.isLarge, field_first holding.field, Bool.eq_iff_iff, decide_eq_true_iff, headD_mark_iff]
  obtain ⟨key, value | ⟨offset, size⟩⟩ := setting
  · exact ⟨fun mark => absurd mark (keyOk_iff.mp (Record.ok holding)).1, fun large => absurd large Bool.false_ne_true⟩
  · exact ⟨fun _ => rfl, fun _ => (lkeyOk_iff.mp (LargeRecord.ok holding)).1⟩

/-- A setting stays while its slot and its value stay. -/
theorem keep (holding : Holding config flash low top slot setting) {later : Memory} {less : Nat}
    (slotSame : ∀ cell, slot ≤ cell → cell < slot + 24 → later cell = flash cell)
    (valueSame : ∀ cell, low ≤ cell → cell < top → later cell = flash cell) (lower : less ≤ low) :
    Holding config later less top slot setting := by
  have field : later.read slot 16 = flash.read slot 16 :=
    Memory.read_congr fun cell above below => slotSame cell above (by omega)
  have offset := entryOffset_congr slotSame
  have size := entrySize_congr slotSame
  obtain ⟨key, value | ⟨place, length⟩⟩ := setting
  · have record : Record flash low top slot (key, value) := holding
    have inside := record.inside
    dsimp only at inside
    refine ⟨field.trans record.key, record.ok, size.trans record.size, by rw [offset]; dsimp only; omega, ?_⟩
    rw [offset]
    refine (Memory.read_congr fun cell above below => valueSame cell (by omega) ?_).trans record.value
    dsimp only at below
    omega
  · have record : LargeRecord config flash slot key place length := holding
    exact ⟨field.trans record.field, record.ok, offset.trans record.address, size.trans record.bytes, record.pages,
      record.taken⟩

theorem keys_agree {otherSlot : Nat} {other : Setting} (one : Holding config flash low top slot setting)
    (two : Holding config flash low top otherSlot other) :
    Fstor.entryKey flash slot = Fstor.entryKey flash otherSlot ↔ setting.1 = other.1 := by
  rw [one.entryKey, two.entryKey, Subtype.ext_iff]

end Holding

/-- The bytes that a setting takes in the area besides its entry. -/
def spaceOf (setting : Setting) : Nat :=
  match setting.2 with
  | .small value => align value.length
  | .large _ _ => 0

def spaceUsed (settings : List Setting) : Nat := (settings.map spaceOf).sum

theorem spaceUsed_cons (setting : Setting) (rest : List Setting) :
    spaceUsed (setting :: rest) = spaceOf setting + spaceUsed rest := by
  rw [spaceUsed, List.map_cons, List.sum_cons]
  rfl

theorem spaceUsed_append (settings : List Setting) (setting : Setting) :
    spaceUsed (settings ++ [setting]) = spaceUsed settings + spaceOf setting := by
  rw [spaceUsed, List.map_append, List.sum_append]
  exact congrArg (spaceUsed settings + ·) (Nat.add_zero _)

theorem spaceUsed_sublist (fewer : (first : List Setting).Sublist settings) : spaceUsed first ≤ spaceUsed settings := by
  induction fewer with
  | slnil => exact Nat.le_refl _
  | cons setting _ ih =>
    rw [spaceUsed_cons]
    exact Nat.le_trans ih (Nat.le_add_left ..)
  | cons_cons setting _ ih =>
    rw [spaceUsed_cons, spaceUsed_cons]
    exact Nat.add_le_add_left ih _

theorem Holding.cost (holding : Holding config flash low top slot setting) (small : top < low + 4294967288) :
    cost flash slot = spaceOf setting := by
  rw [Fstor.cost, holding.isLarge]
  obtain ⟨key, value | ⟨offset, size⟩⟩ := setting
  · have record : Record flash low top slot (key, value) := holding
    have inside := record.inside
    have aligned := align_spec (show value.length < 4294967288 by dsimp only at inside; omega)
    rw [record.size]
    change max (align value.length) value.length = align value.length
    omega
  · rfl

theorem footprint_holding (records : List.Forall₂ (Holding config flash low top) slots settings)
    (small : top < low + 4294967288) : footprint flash slots = spaceUsed settings := by
  induction records with
  | nil => rfl
  | cons holding _ ih =>
    rw [footprint, List.map_cons, List.sum_cons, spaceUsed_cons, holding.cost small]
    exact congrArg (spaceOf _ + ·) ih

theorem entriesTo_succ (base count : Nat) :
    entriesTo (base + 24) (base + 24 * (count + 1)) =
      entriesTo (base + 24) (base + 24 * count) ++ [base + 24 + 24 * count] := by
  rw [entriesTo_table, entriesTo_table, List.range_succ, List.map_append]
  rfl

theorem entriesTo_cons {first last : Nat} (before : first ≤ last) :
    entriesTo first last = first :: entriesTo (first + 24) last := by
  have length : (last + 24 - first) / 24 = (last + 24 - (first + 24)) / 24 + 1 := by omega
  simp only [entriesTo, fstorEntrySize, length, List.range_succ_eq_map, List.map_cons, List.map_map, Nat.mul_zero,
    Nat.add_zero]
  refine congrArg (first :: ·) (List.map_congr_left fun index _ => ?_)
  simp only [Function.comp_apply]
  omega

theorem live_eq_compact (flash : Memory) (base count : Nat) :
    live flash base (base + 24 * count) =
      compact (entryKey flash) (entriesTo (base + 24) (base + 24 * count)) := by
  have suffix (number first last : Nat) (reach : last + 24 = first + 24 * number) :
      (entriesTo first last).filter (fun entry => !hasLaterCopy flash last entry) =
        compact (entryKey flash) (entriesTo first last) := by
    induction number generalizing first with
    | zero =>
      have none : (last + 24 - first) / 24 = 0 := by omega
      simp only [entriesTo, fstorEntrySize, none, List.range_zero, List.map_nil, List.filter_nil, compact]
    | succ number ih =>
      have rest := ih (first + 24) (by omega)
      rw [entriesTo_cons (by omega), compact]
      cases later : hasLaterCopy flash last first with
      | true =>
        rw [List.filter_cons_of_neg (by rw [later]; decide), if_pos (by rw [hasLaterCopy] at later; exact later)]
        exact rest
      | false =>
        rw [List.filter_cons_of_pos (by rw [later]; rfl),
          if_neg (by rw [hasLaterCopy] at later; intro copy; exact Bool.false_ne_true (later.symm.trans copy)), rest]
  exact suffix count (base + 24) (base + 24 * count) (by omega)

/-- The store holds these settings in the area at `base`. -/
structure Tabled (config : FstorConfig) (store : Fstor) (base : Nat) (settings : List Setting) : Prop where
  mounted : Mounted config store base settings.length
  area : Area config base
  records : List.Forall₂ (Holding config store.flash store.dataStart (base + config.headerSize))
    (entriesTo (base + 24) store.lastEntry) settings
  space : store.dataStart + spaceUsed settings = base + config.headerSize
  room : base + 48 + 24 * settings.length ≤ store.dataStart

/-- A formatted area holds nothing. -/
theorem Formatted.tabled (formatted : Formatted config store next) : Tabled config next 0 [] where
  mounted := formatted.mounted
  area := .inl rfl
  records := by
    rw [formatted.mounted.last, entriesTo_table]
    exact .nil
  space := by
    rw [formatted.start, Nat.zero_add]
    exact Nat.add_zero _
  room := by
    have large := config.headerSize_le
    rw [formatted.start, List.length_nil]
    omega

namespace Tabled

/-- The slots of the table lie in the area, before the last one ends. -/
theorem slot_inside (tabled : Tabled config store base settings) (member : slot ∈ entriesTo (base + 24) store.lastEntry) :
    base + 24 ≤ slot ∧ slot + 24 ≤ base + 24 + 24 * settings.length := by
  obtain ⟨index, shape, upper⟩ := mem_entriesTo.mp member
  have last := tabled.mounted.last
  omega

/-- The records after a change that leaves the slots and the values alone. -/
theorem records_keep (tabled : Tabled config store base settings) {later : Memory} {less : Nat}
    (slotSame : ∀ cell, base + 24 ≤ cell → cell < base + 24 + 24 * settings.length → later cell = store.flash cell)
    (valueSame : ∀ cell, store.dataStart ≤ cell → cell < base + config.headerSize → later cell = store.flash cell)
    (lower : less ≤ store.dataStart) :
    List.Forall₂ (Holding config later less (base + config.headerSize)) (entriesTo (base + 24) store.lastEntry)
      settings := by
  have slots : ∀ slot ∈ entriesTo (base + 24) store.lastEntry,
      base + 24 ≤ slot ∧ slot + 24 ≤ base + 24 + 24 * settings.length := fun slot member => tabled.slot_inside member
  refine ((List.forall₂_and_left _ _).mpr ⟨slots, tabled.records⟩).imp fun slot setting both => ?_
  exact both.2.keep (fun cell lower upper => slotSame cell (by omega) (by omega)) valueSame lower

theorem append (tabled : Tabled config store base settings) (ok : keyOk key = true)
    (able : Appendable config store base settings.length key val) :
    Tabled config (store.appended config key val) base (settings ++ [(key, .small val)]) := by
  obtain ⟨room, fits, positive, top, words⟩ := able.room
  obtain ⟨name, offset, size⟩ := able.entry
  have last : (store.appended config key val).lastEntry = base + 24 * (settings.length + 1) := able.appended.last
  have start : (store.appended config key val).dataStart = store.dataStart - align val.length := rfl
  have used := spaceUsed_append settings (key, .small val)
  have single : spaceOf (key, .small val) = align val.length := rfl
  have space := tabled.space
  refine ⟨?_, tabled.area, ?_, by omega, ?_⟩
  · rw [List.length_append, List.length_singleton]
    exact able.appended
  · rw [last, entriesTo_succ, ← tabled.mounted.last]
    refine List.rel_append ?_ (.cons ?_ .nil)
    · exact tabled.records_keep (fun cell _ upper => able.outside cell (.inl upper))
        (fun cell lower _ => able.outside cell (.inr lower)) (by rw [start]; omega)
    · exact ⟨able.field, ok, size, by rw [offset, start]; dsimp only; omega, by rw [offset]; exact able.value⟩
  · rw [List.length_append, List.length_singleton, start]
    omega

/-- The table, its values and a free slot fill at most the area. -/
theorem filled (tabled : Tabled config store base settings) :
    48 + 24 * settings.length + spaceUsed settings ≤ config.headerSize := by
  have room := tabled.room
  have space := tabled.space
  omega

theorem freeSpace (tabled : Tabled config store base settings) :
    store.freeSpace + 48 + 24 * settings.length + spaceUsed settings = config.headerSize := by
  have room := tabled.room
  have space := tabled.space
  have last := tabled.mounted.last
  simp only [Fstor.freeSpace, fstorEntrySize]
  omega

theorem short (tabled : Tabled config store base settings) :
    base + config.headerSize < store.dataStart + 4294967288 := by
  have words := config.areas_lt
  have low := tabled.area.le
  have room := tabled.room
  omega

theorem live (tabled : Tabled config store base settings) :
    List.Forall₂ (Holding config store.flash store.dataStart (base + config.headerSize))
      (live store.flash base store.lastEntry) (compact Prod.fst settings) := by
  rw [tabled.mounted.last, live_eq_compact, ← tabled.mounted.last]
  exact compact_related tabled.records fun _ _ _ _ one two => one.keys_agree two

theorem holding_of_mem (tabled : Tabled config store base settings) (member : slot ∈ entriesTo (base + 24) store.lastEntry) :
    ∃ setting ∈ settings, Holding config store.flash store.dataStart (base + config.headerSize) slot setting := by
  obtain ⟨index, inside, rfl⟩ := List.getElem_of_mem member
  have below : index < settings.length := tabled.records.length_eq ▸ inside
  exact ⟨_, List.getElem_mem below, (List.forall₂_iff_get.mp tabled.records).2 index inside below⟩

/-- Large values are not where small ones are copied to. -/
theorem large_above (tabled : Tabled config store base settings) (member : slot ∈ Fstor.live store.flash base store.lastEntry)
    (mark : isLarge store.flash slot = true) : 2 * config.headerSize ≤ entryOffset store.flash slot := by
  obtain ⟨setting, _, holding⟩ := tabled.holding_of_mem (List.mem_of_mem_filter member)
  rw [holding.isLarge] at mark
  obtain ⟨key, value | ⟨offset, size⟩⟩ := setting
  · cases mark
  · rw [LargeRecord.address holding]
    exact (LargeRecord.pages holding).above

/-- The latest settings of a table can always be copied. -/
theorem collectable (tabled : Tabled config store base settings) : Collectable config store base := by
  have fits := tabled.filled
  have live := tabled.live
  have fewer := compact_sublist Prod.fst settings
  have length := live.length_eq
  have count := fewer.length_le
  have used := spaceUsed_sublist fewer
  constructor
  · rw [Fits, footprint_holding live tabled.short, length]
    omega
  · intro slot member mark
    have above := tabled.large_above member mark
    have high := tabled.area.other.le
    omega

/-- A copied setting. -/
theorem copy (tabled : Tabled config store base settings)
    (collected : Collected config store base (Fstor.live store.flash base store.lastEntry) next) (index : Nat)
    (inside : index < (Fstor.live store.flash base store.lastEntry).length)
    (holding : Holding config store.flash store.dataStart (base + config.headerSize)
      (Fstor.live store.flash base store.lastEntry)[index] setting) :
    Holding config next.flash next.dataStart (otherArea config base + config.headerSize)
      (otherArea config base + 24 + 24 * index) setting := by
  have copy := collected.copies index _ (List.getElem?_eq_getElem inside)
  have large := holding.isLarge
  obtain ⟨key, value | ⟨place, bytes⟩⟩ := setting
  · have record : Record store.flash store.dataStart (base + config.headerSize)
      (Fstor.live store.flash base store.lastEntry)[index] (key, value) := holding
    have offset := copy.small large
    have size := record.size
    have within := record.inside
    have start := tabled.room
    have above := collected.mounted.scan.above index inside
    have apart := tabled.area.apart
    refine ⟨copy.key.trans record.key, record.ok, copy.size.trans size, ⟨above, ?_⟩, ?_⟩
    · have below := cost_le_footprint store.flash _ index inside
      have total := footprint_take_le store.flash (Fstor.live store.flash base store.lastEntry) (index + 1)
      have fits := tabled.collectable.fits
      have least : value.length ≤ cost store.flash (Fstor.live store.flash base store.lastEntry)[index] := by
        rw [cost, large, size]
        exact Nat.le_max_right ..
      rw [Fits] at fits
      rw [offset, target]
      dsimp only
      omega
    · dsimp only at within size ⊢
      rw [offset, ← size, copy.value large (by omega), size]
      exact record.value
  · have record : LargeRecord config store.flash (Fstor.live store.flash base store.lastEntry)[index] key place bytes :=
      holding
    exact ⟨copy.key.trans record.field, record.ok, (copy.large large).trans record.address,
      copy.size.trans record.bytes, record.pages, record.taken⟩

theorem collect (tabled : Tabled config store base settings)
    (collected : Collected config store base (Fstor.live store.flash base store.lastEntry) next) :
    Tabled config next (otherArea config base) (compact Prod.fst settings) := by
  have live := tabled.live
  have length := live.length_eq
  have used := footprint_holding live tabled.short
  have last := collected.mounted.last
  have fits := tabled.collectable.fits
  rw [Fits] at fits
  have high := tabled.area.other.le
  have start : next.dataStart = otherArea config base + config.headerSize -
      footprint store.flash (Fstor.live store.flash base store.lastEntry) := by
    refine Nat.le_antisymm collected.start ?_
    rcases collected.mounted.scan.attained with top | ⟨index, inside, lowest⟩
    · rw [top]
      exact Nat.sub_le ..
    · have copy := collected.copies index _ (List.getElem?_eq_getElem inside)
      rw [lowest]
      cases mark : isLarge store.flash (Fstor.live store.flash base store.lastEntry)[index] with
      | false =>
        rw [copy.small mark]
        exact le_target ..
      | true =>
        have above := tabled.large_above (List.getElem_mem inside) mark
        rw [copy.large mark]
        omega
  refine ⟨length ▸ collected.mounted, tabled.area.other, ?_, by omega, by omega⟩
  rw [last, entriesTo_table]
  refine List.forall₂_iff_get.mpr ⟨by simpa using length, fun index inside below => ?_⟩
  have slot : index < (Fstor.live store.flash base store.lastEntry).length := by simpa using inside
  have holding := (List.forall₂_iff_get.mp live).2 index slot below
  simpa using tabled.copy collected index slot holding

theorem collected_space (tabled : Tabled config store base settings)
    (collected : Collected config store base (Fstor.live store.flash base store.lastEntry) next) :
    next.freeSpace + 48 + 24 * (Fstor.live store.flash base store.lastEntry).length +
      footprint store.flash (Fstor.live store.flash base store.lastEntry) = config.headerSize := by
  have free := (tabled.collect collected).freeSpace
  rwa [← footprint_holding tabled.live tabled.short, ← tabled.live.length_eq] at free

/-- What happens outside the area, or to its header, does not matter. -/
theorem transport (tabled : Tabled config store base settings) (flash : Memory) (ops : List FlashOp)
    (same : ∀ cell, base + 24 ≤ cell → cell < base + config.headerSize → flash cell = store.flash cell) :
    Tabled config { store with flash, ops } base settings := by
  have room := tabled.room
  have scan := tabled.mounted.scan
  have top := scan.belowTop
  have last := tabled.mounted.last
  refine ⟨⟨tabled.mounted.settings, last, scan.congr fun cell lower upper => same cell (by omega) (by omega),
    tabled.mounted.gap.congr fun cell lower upper => same cell (by omega) (by omega)⟩, tabled.area, ?_,
    tabled.space, room⟩
  exact tabled.records_keep (fun cell lower upper => same cell (by omega) (by omega))
    (fun cell lower upper => same cell (by omega) upper) (Nat.le_refl _)

/-- An image with the same area is mounted with the same settings. -/
theorem remounts (tabled : Tabled config store base settings) (image : Fstor)
    (same : ∀ cell, base ≤ cell → cell < base + config.headerSize → image.flash cell = store.flash cell)
    (picked : pickHeader config image.flash = some base) :
    ∃ after, image.remount config = .ok after ∧ after.flash = image.flash ∧ after.ops = image.ops ∧
      Tabled config after base settings := by
  have moved := tabled.transport image.flash image.ops fun cell lower upper => same cell (by omega) upper
  have unmounted : { image with settings := none }.settings = none := rfl
  have done := init_accepted unmounted picked moved.mounted.scan moved.mounted.gap
  refine ⟨_, done, rfl, rfl, ?_⟩
  rw [← moved.mounted.last, ← moved.mounted.settings]
  exact moved

/-- The setting that a lookup finds. -/
theorem latest (tabled : Tabled config store base settings) (key : CString) :
    Option.Rel (Holding config store.flash store.dataStart (base + config.headerSize))
      (latest store.flash base store.lastEntry key) (lastWith Prod.fst key settings) :=
  lastWith_related tabled.records fun slot setting holding => by
    rw [holding.entryKey, Subtype.ext_iff]

end Tabled

end Fstor

end Jacdac
