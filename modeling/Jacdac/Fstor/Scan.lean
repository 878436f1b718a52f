import Jacdac.Fstor.Store

/-! What `recompute_cache` accepts, and which area `jd_fstor_init` picks. -/

namespace Jacdac

theorem FstorConfig.headerSize_le (config : FstorConfig) : 200 ≤ config.headerSize := config.room

/-- Both areas lie inside the storage. -/
theorem FstorConfig.areas_inside (config : FstorConfig) :
    2 * config.headerSize ≤ config.totalPages * config.pageSize := by
  have pages := Nat.mul_le_mul_right config.pageSize config.inside
  rwa [Nat.mul_assoc] at pages

theorem FstorConfig.areas_lt (config : FstorConfig) : 2 * config.headerSize < 4294967296 :=
  Nat.lt_of_le_of_lt config.areas_inside config.bytes

theorem FstorConfig.positive (config : FstorConfig) : 0 < config.headerPages ∧ 0 < config.pageSize := by
  have room := config.room
  constructor
  · refine Nat.pos_of_ne_zero fun zero => ?_
    rw [zero, Nat.zero_mul] at room
    cases room
  · refine Nat.pos_of_ne_zero fun zero => ?_
    rw [zero, Nat.mul_zero] at room
    cases room

/-- Only erased bytes from `start` to `stop`. -/
def Erased (flash : Memory) (start stop : Nat) : Prop := ∀ cell, start ≤ cell → cell < stop → flash cell = 0xff

theorem Erased.congr (erased : Erased first start stop)
    (same : ∀ cell, start ≤ cell → cell < stop → second cell = first cell) : Erased second start stop :=
  fun cell lower upper => (same cell lower upper).trans (erased cell lower upper)

theorem erased_iff (flash : Memory) (start stop : Nat) :
    (flash.read start (stop - start)).all (· = 0xff) = true ↔ Erased flash start stop := by
  rw [List.all_eq_true]
  constructor
  · intro all cell lower upper
    have member : flash cell ∈ flash.read start (stop - start) :=
      List.mem_map.mpr ⟨cell - start, List.mem_range.mpr (by omega), by rw [Nat.add_sub_cancel' lower]⟩
    exact of_decide_eq_true (all _ member)
  · intro erased byte member
    obtain ⟨offset, inside, rfl⟩ := List.mem_map.mp member
    rw [List.mem_range] at inside
    exact decide_eq_true (erased _ (by omega) (by omega))

/-- An erased number has all bits set. -/
theorem Erased.number (erased : Erased flash start stop) (lower : start ≤ address)
    (upper : address + 4 ≤ stop) : flash.number address 4 = 0xffffffff := by
  have block : flash.read address 4 = [0xff, 0xff, 0xff, 0xff] := by
    simp only [Memory.read, List.range_succ, List.range_zero, List.nil_append, List.cons_append,
      List.map_cons, List.map_nil]
    rw [erased _ (by omega) (by omega), erased _ (by omega) (by omega), erased _ (by omega) (by omega),
      erased _ (by omega) (by omega)]
  rw [Memory.number, block]
  decide

namespace Fstor

variable {flash : Memory} {first top count low stop entry : Nat}

theorem entryOffset_congr {first second : Memory}
    (same : ∀ cell, entry ≤ cell → cell < entry + 24 → first cell = second cell) :
    entryOffset first entry = entryOffset second entry :=
  Memory.number_congr fun cell lower upper => same cell (by omega) (by omega)

theorem entrySize_congr {first second : Memory}
    (same : ∀ cell, entry ≤ cell → cell < entry + 24 → first cell = second cell) :
    entrySize first entry = entrySize second entry :=
  Memory.number_congr fun cell lower upper => same cell (by omega) (by omega)

theorem entryKey_congr {first second : Memory}
    (same : ∀ cell, entry ≤ cell → cell < entry + 24 → first cell = second cell) :
    entryKey first entry = entryKey second entry := by
  have block : first.read entry fstorEntrySize = second.read entry fstorEntrySize := Memory.read_congr same
  rw [entryKey, entryKey, block]

theorem isValid_iff (flash : Memory) (entry : Nat) :
    isValid flash entry = true ↔ entryOffset flash entry ≠ 0xffffffff := by
  rw [isValid, decide_eq_true_iff]

theorem isValid_false_iff (flash : Memory) (entry : Nat) :
    isValid flash entry = false ↔ entryOffset flash entry = 0xffffffff := by
  rw [isValid, decide_eq_false_iff_not, not_not]

/-- A table of `count` entries from `first` on, with `low` the lowest of their
offsets and `top`. -/
structure Scan (flash : Memory) (first top count low : Nat) : Prop where
  valid : ∀ index < count, entryOffset flash (first + 24 * index) ≠ 0xffffffff
  stop : entryOffset flash (first + 24 * count) = 0xffffffff
  above : ∀ index < count, low ≤ entryOffset flash (first + 24 * index)
  belowTop : low ≤ top
  attained : low = top ∨ ∃ index < count, low = entryOffset flash (first + 24 * index)
  room : first + 24 * count ≤ low

namespace Scan

/-- An entry in front of a table. -/
theorem cons (scan : Scan flash (first + 24) (min top (entryOffset flash first)) count low)
    (valid : entryOffset flash first ≠ 0xffffffff) : Scan flash first top (count + 1) low := by
  have shift (index : Nat) : first + 24 * (index + 1) = first + 24 + 24 * index := by omega
  have belowTop := scan.belowTop
  refine ⟨?_, by rw [shift]; exact scan.stop, ?_, by omega, ?_, by rw [shift]; exact scan.room⟩
  · intro index inside
    cases index with
    | zero => exact valid
    | succ index =>
      rw [shift]
      exact scan.valid index (by omega)
  · intro index inside
    cases index with
    | zero => rw [Nat.mul_zero, Nat.add_zero]; omega
    | succ index =>
      rw [shift]
      exact scan.above index (by omega)
  · rcases scan.attained with same | ⟨index, inside, same⟩
    · rcases Nat.le_total top (entryOffset flash first) with less | less
      · exact .inl (by omega)
      · exact .inr ⟨0, by omega, by rw [Nat.mul_zero, Nat.add_zero]; omega⟩
    · exact .inr ⟨index + 1, by omega, by rw [shift]; exact same⟩

theorem uncons (scan : Scan flash first top (count + 1) low) :
    Scan flash (first + 24) (min top (entryOffset flash first)) count low := by
  have shift (index : Nat) : first + 24 + 24 * index = first + 24 * (index + 1) := by omega
  have head := scan.above 0 (by omega)
  rw [Nat.mul_zero, Nat.add_zero] at head
  have belowTop := scan.belowTop
  refine ⟨?_, by rw [shift]; exact scan.stop, ?_, by omega, ?_, by rw [shift]; exact scan.room⟩
  · intro index inside
    rw [shift]
    exact scan.valid (index + 1) (by omega)
  · intro index inside
    rw [shift]
    exact scan.above (index + 1) (by omega)
  · rcases scan.attained with same | ⟨index, inside, same⟩
    · exact .inl (by omega)
    · cases index with
      | zero =>
        rw [Nat.mul_zero, Nat.add_zero] at same
        exact .inl (by omega)
      | succ index => exact .inr ⟨index, by omega, by rw [shift]; exact same⟩

/-- Valid entries that point behind the table are a table. -/
theorem of_entries (valid : ∀ index < count, entryOffset flash (first + 24 * index) ≠ 0xffffffff)
    (stop : entryOffset flash (first + 24 * count) = 0xffffffff)
    (behind : ∀ index < count, first + 24 * count ≤ entryOffset flash (first + 24 * index))
    (room : first + 24 * count ≤ top) : ∃ low, Scan flash first top count low := by
  induction count generalizing first top with
  | zero =>
    exact ⟨top, ⟨valid, stop, fun index inside => absurd inside (Nat.not_lt_zero _), Nat.le_refl _, .inl rfl, room⟩⟩
  | succ count ih =>
    have shift (index : Nat) : first + 24 * (index + 1) = first + 24 + 24 * index := by omega
    have head : entryOffset flash first ≠ 0xffffffff := valid 0 (Nat.succ_pos _)
    have above : first + 24 * (count + 1) ≤ entryOffset flash first := behind 0 (Nat.succ_pos _)
    rw [shift] at stop room above
    obtain ⟨low, scan⟩ := @ih (first + 24) (min top (entryOffset flash first))
      (fun index inside => shift index ▸ valid (index + 1) (by omega)) stop
      (fun index inside => by
        have later := behind (index + 1) (by omega)
        rwa [shift, shift] at later)
      (by omega)
    exact ⟨low, scan.cons head⟩

/-- Only the table and the slot behind it count. -/
theorem congr (scan : Scan flash first top count low) {other : Memory}
    (same : ∀ cell, first ≤ cell → cell < first + 24 * count + 24 → other cell = flash cell) :
    Scan other first top count low := by
  have offset (index : Nat) (inside : index ≤ count) :
      entryOffset other (first + 24 * index) = entryOffset flash (first + 24 * index) :=
    entryOffset_congr fun cell lower upper => same cell (by omega) (by omega)
  refine ⟨?_, by rw [offset count (Nat.le_refl _)]; exact scan.stop, ?_, scan.belowTop, ?_, scan.room⟩
  · intro index inside
    rw [offset index (Nat.le_of_lt inside)]
    exact scan.valid index inside
  · intro index inside
    rw [offset index (Nat.le_of_lt inside)]
    exact scan.above index inside
  · rcases scan.attained with same | ⟨index, inside, lowest⟩
    · exact .inl same
    · exact .inr ⟨index, inside, by rw [offset index (Nat.le_of_lt inside)]; exact lowest⟩

theorem scanEntries (scan : Scan flash first top count low) :
    scanEntries flash first top = some (first + 24 * count, low) := by
  induction count generalizing first top with
  | zero =>
    have stop := scan.stop
    rw [Nat.mul_zero, Nat.add_zero, ← isValid_false_iff] at stop
    have same : low = top := by
      rcases scan.attained with same | ⟨_, inside, _⟩
      · exact same
      · omega
    rw [Fstor.scanEntries, stop, if_neg (by decide), same, Nat.mul_zero, Nat.add_zero]
  | succ count ih =>
    have valid := scan.valid 0 (by omega)
    rw [Nat.mul_zero, Nat.add_zero, ← isValid_iff] at valid
    have rest := scan.uncons
    have room := rest.room
    have belowTop := rest.belowTop
    rw [Fstor.scanEntries, if_pos valid, if_neg (by simp only [fstorEntrySize]; omega)]
    have done := ih rest
    rw [show first + 24 + 24 * count = first + 24 * (count + 1) by omega] at done
    exact done

end Scan

theorem scan_of_scanEntries (below : first ≤ top) (done : scanEntries flash first top = some (stop, low)) :
    ∃ count, stop = first + 24 * count ∧ Scan flash first top count low := by
  fun_induction scanEntries flash first top with
  | case1 => cases done
  | case2 first top valid lower room ih =>
    simp only [fstorEntrySize] at room ih
    obtain ⟨count, rfl, scan⟩ := ih (by omega) done
    exact ⟨count + 1, by omega, scan.cons ((isValid_iff ..).mp valid)⟩
  | case3 first top invalid =>
    have ends := (isValid_false_iff flash first).mp (Bool.eq_false_iff.mpr invalid)
    cases done
    refine ⟨0, by omega, ⟨fun index inside => absurd inside (Nat.not_lt_zero _), ends,
      fun index inside => absurd inside (Nat.not_lt_zero _), Nat.le_refl _, .inl rfl, by omega⟩⟩

variable {config : FstorConfig} {store : Fstor} {base : Nat}

/-- The area at `base` is mounted: the cached pointers are what `recompute_cache`
finds in it. -/
structure Mounted (config : FstorConfig) (store : Fstor) (base count : Nat) : Prop where
  settings : store.settings = some base
  last : store.lastEntry = base + 24 * count
  scan : Scan store.flash (base + 24) (base + config.headerSize) count store.dataStart
  gap : Erased store.flash (base + 24 + 24 * count) store.dataStart

/-- The number of entries is determined by the cache. -/
theorem Mounted.count_eq (mounted : Mounted config store base count) (other : Mounted config store base number) :
    count = number := by
  have one := mounted.last
  have two := other.last
  omega

theorem recomputeCache_eq (store : Fstor)
    (scan : Scan store.flash (base + 24) (base + config.headerSize) count low)
    (gap : Erased store.flash (base + 24 + 24 * count) low) :
    recomputeCache config base store =
      { store with settings := some base, lastEntry := base + 24 * count, dataStart := low } := by
  have scanned := scan.scanEntries
  have erased := (erased_iff ..).mpr gap
  have last : base + 24 + 24 * count - 24 = base + 24 * count := by omega
  rw [recomputeCache]
  simp only [fstorEntrySize, scanned, erased, if_true, last]

theorem mounted_of_recompute (done : (recomputeCache config base store).settings ≠ none) :
    ∃ count, Mounted config (recomputeCache config base store) base count := by
  have room := config.headerSize_le
  unfold recomputeCache at done ⊢
  split at done
  · exact absurd rfl done
  · rename_i entry minoff scanned
    simp only [fstorEntrySize] at scanned
    obtain ⟨count, rfl, scan⟩ := scan_of_scanEntries (by omega) scanned
    dsimp only at done ⊢
    split at done
    · rename_i erased
      rw [if_pos erased]
      exact ⟨count, rfl, by simp only [fstorEntrySize]; omega, scan, (erased_iff ..).mp erased⟩
    · exact absurd rfl done

@[simp] theorem recomputeCache_flash (config : FstorConfig) (base : Nat) (store : Fstor) :
    (recomputeCache config base store).flash = store.flash := by
  unfold recomputeCache
  split
  · rfl
  · dsimp only
    split <;> rfl

@[simp] theorem recomputeCache_ops (config : FstorConfig) (base : Nat) (store : Fstor) :
    (recomputeCache config base store).ops = store.ops := by
  unfold recomputeCache
  split
  · rfl
  · dsimp only
    split <;> rfl

def Area (config : FstorConfig) (base : Nat) : Prop := base = 0 ∨ base = config.headerSize

theorem otherArea_zero (config : FstorConfig) : otherArea config 0 = config.headerSize := if_pos rfl

theorem otherArea_headerSize (config : FstorConfig) : otherArea config config.headerSize = 0 :=
  if_neg (by have room := config.headerSize_le; omega)

theorem Area.other (area : Area config base) : Area config (otherArea config base) := by
  rcases area with rfl | rfl
  · exact .inr (otherArea_zero config)
  · exact .inl (otherArea_headerSize config)

/-- The areas do not overlap. -/
theorem Area.apart (area : Area config base) :
    base + config.headerSize ≤ otherArea config base ∨ otherArea config base + config.headerSize ≤ base := by
  rcases area with rfl | rfl
  · rw [otherArea_zero]
    exact .inl (Nat.le_of_eq (Nat.zero_add _))
  · rw [otherArea_headerSize]
    exact .inr (Nat.le_of_eq (Nat.zero_add _))

theorem Area.other_other (area : Area config base) : otherArea config (otherArea config base) = base := by
  rcases area with rfl | rfl
  · rw [otherArea_zero, otherArea_headerSize]
  · rw [otherArea_headerSize, otherArea_zero]

/-- There is no third area. -/
theorem Area.cases (area : Area config base) {header : Nat} (chosen : Area config header) :
    header = base ∨ header = otherArea config base := by
  rcases chosen with rfl | rfl <;> rcases area with rfl | rfl
  · exact .inl rfl
  · exact .inr (otherArea_headerSize config).symm
  · exact .inr (otherArea_zero config).symm
  · exact .inl rfl

theorem Area.le (area : Area config base) : base ≤ config.headerSize := by
  rcases area with rfl | rfl <;> omega

theorem Area.lt (area : Area config base) : base + config.headerSize < 4294967295 := by
  have areas := config.areas_lt
  rcases area with rfl | rfl <;> omega

theorem isValidHeader_congr {first second : Memory}
    (same : ∀ cell, base ≤ cell → cell < base + 24 → first cell = second cell) :
    isValidHeader config first base = isValidHeader config second base := by
  have number (address count : Nat) (lower : base ≤ address) (upper : address + count ≤ base + 24) :
      first.number address count = second.number address count :=
    Memory.number_congr fun cell above below => same cell (by omega) (by omega)
  unfold isValidHeader
  rw [number base 4 (by omega) (by omega), number (base + 4) 4 (by omega) (by omega),
    number (base + 12) 4 (by omega) (by omega), number (base + 16) 2 (by omega) (by omega),
    number (base + 18) 2 (by omega) (by omega)]

theorem generation_congr {first second : Memory}
    (same : ∀ cell, base ≤ cell → cell < base + 24 → first cell = second cell) :
    generation first base = generation second base :=
  Memory.number_congr fun cell lower upper => same cell (by omega) (by omega)

theorem generation_lt (flash : Memory) (base : Nat) : generation flash base < 4294967296 :=
  Memory.number_lt ..

@[simp] theorem newHeader_length (config : FstorConfig) (gen : Nat) : (newHeader config gen).length = 24 := by
  simp [newHeader]

/-- A header reads back as it was written. -/
theorem isValidHeader_write (config : FstorConfig) (flash : Memory) (base gen : Nat) :
    isValidHeader config (flash.write base (newHeader config gen)) base = true := by
  have areas := config.areas_lt
  have pages := config.pages
  have inside := config.inside
  have positive := config.positive
  have page : config.pageSize < 256 ^ 4 := by
    have bytes := config.areas_lt
    have one : 1 * config.pageSize ≤ config.headerSize := Nat.mul_le_mul_right _ positive.1
    omega
  have part (before after : List UInt8) (count value : Nat) (small : value < 256 ^ count)
      (split : newHeader config gen = before ++ littleEndian count value ++ after) :
      (flash.write base (newHeader config gen)).number (base + before.length) count = value := by
    rw [split]
    exact Memory.number_write_part small flash base before after
  rw [isValidHeader, decide_eq_true_iff]
  refine ⟨?_, ?_, ?_, ?_, ?_⟩
  · exact part [] _ 4 fstorMagic0 (by decide) (by simp only [newHeader, List.append_assoc, List.nil_append]; rfl)
  · exact part (littleEndian 4 fstorMagic0) _ 4 fstorMagic1 (by decide)
      (by simp only [newHeader, List.append_assoc]; rfl)
  · exact part (littleEndian 4 fstorMagic0 ++ littleEndian 4 fstorMagic1 ++ littleEndian 4 gen) _ 4 config.pageSize
      page (by simp only [newHeader, List.append_assoc]; rfl)
  · exact part (littleEndian 4 fstorMagic0 ++ littleEndian 4 fstorMagic1 ++ littleEndian 4 gen ++
      littleEndian 4 config.pageSize) _ 2 config.totalPages pages (by simp only [newHeader, List.append_assoc]; rfl)
  · exact part (littleEndian 4 fstorMagic0 ++ littleEndian 4 fstorMagic1 ++ littleEndian 4 gen ++
      littleEndian 4 config.pageSize ++ littleEndian 2 config.totalPages) _ 2 config.headerPages (by omega)
      (by simp only [newHeader, List.append_assoc]; rfl)

theorem generation_write (config : FstorConfig) (flash : Memory) (base : Nat) {gen : Nat} (small : gen < 4294967296) :
    generation (flash.write base (newHeader config gen)) base = gen := by
  have split : newHeader config gen = (littleEndian 4 fstorMagic0 ++ littleEndian 4 fstorMagic1) ++
      littleEndian 4 gen ++ (littleEndian 4 config.pageSize ++ (littleEndian 2 config.totalPages ++
      (littleEndian 2 config.headerPages ++ littleEndian 4 0))) := by
    simp only [newHeader, List.append_assoc]
  rw [split]
  exact Memory.number_write_part small flash base _ _

theorem isValidHeader_erased (erased : Erased flash base stop) (room : base + 4 ≤ stop) :
    isValidHeader config flash base = false := by
  rw [isValidHeader, decide_eq_false_iff_not, erased.number (Nat.le_refl _) room]
  exact fun valid => absurd valid.1 (by decide)

/-- An area is picked when its header is valid and a valid header of the other
area is older; the second area also wins a tie. -/
theorem pickHeader_iff (config : FstorConfig) (flash : Memory) (base : Nat) :
    pickHeader config flash = some base ↔
      (base = 0 ∧ isValidHeader config flash 0 = true ∧ (isValidHeader config flash config.headerSize = true →
        generation flash config.headerSize < generation flash 0)) ∨
      (base = config.headerSize ∧ isValidHeader config flash config.headerSize = true ∧
        (isValidHeader config flash 0 = true → generation flash 0 ≤ generation flash config.headerSize)) := by
  have room := config.headerSize_le
  unfold pickHeader
  cases first : isValidHeader config flash 0 <;>
    cases second : isValidHeader config flash config.headerSize
  · simp
  · simp [eq_comm]
  · simp [eq_comm]
  · by_cases newer : generation flash config.headerSize < generation flash 0
    · have older := Nat.not_le_of_lt newer
      simp [newer, older, eq_comm]
    · have older := Nat.le_of_not_lt newer
      simp [newer, older, eq_comm]

theorem pickHeader_area (picked : pickHeader config flash = some base) :
    Area config base ∧ isValidHeader config flash base = true := by
  rcases (pickHeader_iff ..).mp picked with ⟨rfl, valid, _⟩ | ⟨rfl, valid, _⟩
  · exact ⟨.inl rfl, valid⟩
  · exact ⟨.inr rfl, valid⟩

theorem pickHeader_newer (area : Area config base) (valid : isValidHeader config flash base = true)
    (newer : isValidHeader config flash (otherArea config base) = true →
      generation flash (otherArea config base) < generation flash base) :
    pickHeader config flash = some base := by
  rw [pickHeader_iff]
  rcases area with rfl | rfl
  · rw [otherArea_zero] at newer
    exact .inl ⟨rfl, valid, newer⟩
  · rw [otherArea_headerSize] at newer
    exact .inr ⟨rfl, valid, fun other => Nat.le_of_lt (newer other)⟩

theorem pickHeader_some (area : Area config base) (valid : isValidHeader config flash base = true) :
    ∃ picked, pickHeader config flash = some picked := by
  rcases Nat.lt_or_ge (generation flash config.headerSize) (generation flash 0) with newer | older
  · cases first : isValidHeader config flash 0 with
    | true => exact ⟨0, (pickHeader_iff ..).mpr (.inl ⟨rfl, first, fun _ => newer⟩)⟩
    | false =>
      obtain rfl : base = config.headerSize := area.resolve_left fun zero => by
        rw [zero, first] at valid
        cases valid
      exact ⟨_, (pickHeader_iff ..).mpr (.inr ⟨rfl, valid, fun other => absurd (first.symm.trans other) nofun⟩)⟩
  · cases second : isValidHeader config flash config.headerSize with
    | true => exact ⟨_, (pickHeader_iff ..).mpr (.inr ⟨rfl, second, fun _ => older⟩)⟩
    | false =>
      obtain rfl : base = 0 := area.resolve_right fun high => by
        rw [high, second] at valid
        cases valid
      exact ⟨0, (pickHeader_iff ..).mpr (.inl ⟨rfl, valid, fun other => absurd (second.symm.trans other) nofun⟩)⟩

/-- Only the headers count. -/
theorem pickHeader_congr {first second : Memory}
    (same : ∀ base, Area config base → ∀ cell, base ≤ cell → cell < base + 24 → first cell = second cell) :
    pickHeader config first = pickHeader config second := by
  have zero := same 0 (.inl rfl)
  have high := same config.headerSize (.inr rfl)
  unfold pickHeader
  rw [isValidHeader_congr zero, isValidHeader_congr high, generation_congr zero, generation_congr high]

end Fstor

end Jacdac
