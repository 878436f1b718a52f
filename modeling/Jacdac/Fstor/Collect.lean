import Jacdac.Fstor.Append

/-! Garbage collection: the latest entries are copied into the other area. -/

namespace Jacdac

namespace Fstor

variable {config : FstorConfig} {store next : Fstor} {flash : Memory} {base count alt : Nat}

theorem mem_entriesTo {first last entry : Nat} :
    entry ∈ entriesTo first last ↔ ∃ index, entry = first + 24 * index ∧ entry ≤ last := by
  simp only [entriesTo, fstorEntrySize, List.mem_map, List.mem_range]
  constructor
  · rintro ⟨index, inside, rfl⟩
    exact ⟨index, rfl, by omega⟩
  · rintro ⟨index, rfl, inside⟩
    exact ⟨index, by omega, rfl⟩

theorem entriesTo_table (base count : Nat) :
    entriesTo (base + 24) (base + 24 * count) = (List.range count).map (base + 24 + 24 * ·) := by
  have length : (base + 24 * count + 24 - (base + 24)) / 24 = count := by omega
  simp only [entriesTo, fstorEntrySize, length]

def InTable (base count entry : Nat) : Prop := ∃ index < count, entry = base + 24 + 24 * index

theorem hasLaterCopy_congr {first second : Memory} (inside : InTable base count entry)
    (same : ∀ cell, base ≤ cell → cell < base + 24 + 24 * count → first cell = second cell) :
    hasLaterCopy first (base + 24 * count) entry = hasLaterCopy second (base + 24 * count) entry := by
  obtain ⟨index, below, rfl⟩ := inside
  have key (later : Nat) (lower : base ≤ later) (upper : later ≤ base + 24 * count) :
      entryKey first later = entryKey second later :=
    entryKey_congr fun cell above below => same cell (by omega) (by omega)
  rw [Bool.eq_iff_iff, hasLaterCopy, hasLaterCopy, List.any_eq_true, List.any_eq_true,
    key _ (by omega) (by omega)]
  refine exists_congr fun later => and_congr_right fun member => ?_
  obtain ⟨step, shape, upper⟩ := mem_entriesTo.mp member
  simp only [fstorEntrySize] at shape
  rw [key later (by omega) upper]

def live (flash : Memory) (base last : Nat) : List Nat :=
  (entriesTo (base + 24) last).filter fun entry => !hasLaterCopy flash last entry

/-- The space for a copied value; a large value stays where it is. -/
def cost (flash : Memory) (entry : Nat) : Nat :=
  if isLarge flash entry then 0 else max (align (entrySize flash entry)) (entrySize flash entry)

def footprint (flash : Memory) (kept : List Nat) : Nat := (kept.map (cost flash)).sum

@[simp] theorem footprint_nil (flash : Memory) : footprint flash [] = 0 := rfl

theorem footprint_append (flash : Memory) (kept : List Nat) (rest : List Nat) :
    footprint flash (kept ++ rest) = footprint flash kept + footprint flash rest := by
  rw [footprint, List.map_append, List.sum_append]
  rfl

theorem footprint_singleton (flash : Memory) (entry : Nat) : footprint flash [entry] = cost flash entry :=
  Nat.add_zero _

theorem footprint_take_le (flash : Memory) (kept : List Nat) (number : Nat) :
    footprint flash (kept.take number) ≤ footprint flash kept := by
  have split := footprint_append flash (kept.take number) (kept.drop number)
  rw [List.take_append_drop] at split
  omega

theorem cost_le_footprint (flash : Memory) (kept : List Nat) (index : Nat) (inside : index < kept.length) :
    cost flash kept[index] ≤ footprint flash (kept.take (index + 1)) := by
  rw [← List.take_append_getElem inside, footprint_append, footprint_singleton]
  exact Nat.le_add_left ..

/-- The slot holds the entry's copy, and a small value was copied to the target. -/
structure Copy (config : FstorConfig) (old new : Memory) (alt entry slot target : Nat) : Prop where
  key : new.read slot 16 = old.read entry 16
  size : entrySize new slot = entrySize old entry
  large : isLarge old entry = true → entryOffset new slot = entryOffset old entry
  small : isLarge old entry = false → entryOffset new slot = target
  value : isLarge old entry = false →
    entryOffset old entry + entrySize old entry ≤ alt ∨ alt + config.headerSize ≤ entryOffset old entry →
    new.read target (entrySize old entry) = old.read (entryOffset old entry) (entrySize old entry)

/-- A copy stays while its slot and its value stay. -/
theorem Copy.keep {old new later : Memory} (copy : Copy config old new alt entry slot target)
    (slotSame : ∀ cell, slot ≤ cell → cell < slot + 24 → later cell = new cell)
    (valueSame : ∀ cell, target ≤ cell → cell < target + entrySize old entry → later cell = new cell) :
    Copy config old later alt entry slot target where
  key := (Memory.read_congr fun cell lower upper => slotSame cell lower (by omega)).trans copy.key
  size := (entrySize_congr slotSame).trans copy.size
  large := fun mark => (entryOffset_congr slotSame).trans (copy.large mark)
  small := fun mark => (entryOffset_congr slotSame).trans (copy.small mark)
  value := fun mark apart => (Memory.read_congr valueSame).trans (copy.value mark apart)

/-- Where the value of the entry with this index goes. -/
def target (config : FstorConfig) (flash : Memory) (alt : Nat) (kept : List Nat) (index : Nat) : Nat :=
  alt + config.headerSize - footprint flash (kept.take (index + 1))

/-- The flash changed by erasing the area and by programming erased bytes behind its header. -/
def Copying (config : FstorConfig) (store : Fstor) (alt : Nat) (state : Fstor) : Prop :=
  ∃ ops, Issued config store state (eraseOps config alt config.headerPages ++ ops) ∧
    (∀ op ∈ ops, Within config (alt + 24) (alt + config.headerSize) op) ∧
    Disciplined config (eraseOps config alt config.headerPages ++ ops) store.flash

/-- The loop of `jd_fstor_gc` after copying the entries `kept`. -/
structure Copied (config : FstorConfig) (store : Fstor) (alt : Nat) (kept : List Nat)
    (state : Fstor × Nat × Nat) : Prop where
  outside : ∀ cell, cell < alt ∨ alt + config.headerSize ≤ cell → state.1.flash cell = store.flash cell
  header : Erased state.1.flash alt (alt + 24)
  dstE : state.2.1 = alt + 24 + 24 * kept.length
  dstData : state.2.2 = alt + config.headerSize - footprint store.flash kept
  gap : Erased state.1.flash (alt + 24 + 24 * kept.length) (alt + config.headerSize - footprint store.flash kept)
  copies : ∀ index entry, kept[index]? = some entry →
    Copy config store.flash state.1.flash alt entry (alt + 24 + 24 * index)
      (target config store.flash alt kept index)
  lowest : footprint store.flash kept = 0 ∨ ∃ index, ∃ inside : index < kept.length,
    isLarge store.flash kept[index] = false ∧
      target config store.flash alt kept index = alt + config.headerSize - footprint store.flash kept
  ops : Copying config store alt state.1

/-- The copies and the values leave a free slot in the area. -/
def Fits (config : FstorConfig) (flash : Memory) (kept : List Nat) : Prop :=
  48 + 24 * kept.length + footprint flash kept ≤ config.headerSize

theorem target_append_left (config : FstorConfig) (flash : Memory) (alt : Nat) (kept rest : List Nat)
    (inside : index < kept.length) :
    target config flash alt (kept ++ rest) index = target config flash alt kept index := by
  rw [target, target, List.take_append_of_le_length (by omega)]

theorem target_append_last (config : FstorConfig) (flash : Memory) (alt : Nat) (kept : List Nat) (entry : Nat) :
    target config flash alt (kept ++ [entry]) kept.length =
      alt + config.headerSize - footprint flash (kept ++ [entry]) := by
  rw [target, List.take_of_length_le (by simp)]

theorem le_target (config : FstorConfig) (flash : Memory) (alt : Nat) (kept : List Nat) (index : Nat) :
    alt + config.headerSize - footprint flash kept ≤ target config flash alt kept index := by
  have less := footprint_take_le flash kept (index + 1)
  rw [target]
  omega

/-- One more copy, in the next slot and below the values copied so far. -/
theorem Copied.extend {state : Fstor × Nat × Nat} (copied : Copied config store alt kept state)
    (fits : Fits config store.flash (kept ++ [entry])) (after : Fstor)
    (same : ∀ cell, cell < alt + 24 + 24 * kept.length ∨
      alt + config.headerSize - footprint store.flash kept ≤ cell ∨
      alt + 48 + 24 * kept.length ≤ cell ∧
        cell < alt + config.headerSize - footprint store.flash (kept ++ [entry]) →
      after.flash cell = state.1.flash cell)
    (copy : Copy config store.flash after.flash alt entry (alt + 24 + 24 * kept.length)
      (alt + config.headerSize - footprint store.flash (kept ++ [entry])))
    (ops : Copying config store alt after) :
    Copied config store alt (kept ++ [entry])
      (after, alt + 48 + 24 * kept.length, alt + config.headerSize - footprint store.flash (kept ++ [entry])) := by
  have larger := footprint_append store.flash kept [entry]
  rw [Fits, List.length_append, List.length_singleton] at fits
  refine ⟨?_, ?_, ?_, rfl, ?_, ?_, ?_, ops⟩
  · intro cell out
    exact (same cell (by omega)).trans (copied.outside cell out)
  · exact copied.header.congr fun cell lower upper => same cell (.inl (by omega))
  · rw [List.length_append, List.length_singleton]
    change alt + 48 + 24 * kept.length = _
    omega
  · rw [List.length_append, List.length_singleton]
    intro cell lower upper
    exact (same cell (by omega)).trans (copied.gap cell (by omega) (by omega))
  · intro index other found
    rcases Nat.lt_trichotomy index kept.length with before | rfl | beyond
    · rw [List.getElem?_append_left before] at found
      have high := le_target config store.flash alt kept index
      rw [target_append_left _ _ _ _ _ before]
      exact (copied.copies index other found).keep (fun cell lower upper => same cell (.inl (by omega)))
        (fun cell lower upper => same cell (.inr (.inl (by omega))))
    · rw [List.getElem?_append_right (Nat.le_refl _), Nat.sub_self, List.getElem?_cons_zero] at found
      rw [← Option.some.inj found, target_append_last]
      exact copy
    · rw [List.getElem?_eq_none (by rw [List.length_append, List.length_singleton]; omega)] at found
      cases found
  · cases mark : isLarge store.flash entry with
    | true =>
      have nothing : footprint store.flash [entry] = 0 := by rw [footprint_singleton, cost, if_pos mark]
      rw [larger, nothing, Nat.add_zero]
      rcases copied.lowest with none | ⟨index, inside, small, lowest⟩
      · exact .inl none
      · refine .inr ⟨index, by rw [List.length_append]; omega, ?_, ?_⟩
        · rwa [List.getElem_append_left inside]
        · rw [target_append_left _ _ _ _ _ inside, lowest]
    | false =>
      refine .inr ⟨kept.length, by simp, ?_, target_append_last ..⟩
      rw [List.getElem_append_right (Nat.le_refl _)]
      simpa using mark

/-- The table of a mounted area lies in the area. -/
theorem Mounted.table (mounted : Mounted config store base count) :
    base + 24 + 24 * count ≤ base + config.headerSize :=
  Nat.le_trans mounted.scan.room mounted.scan.belowTop

/-- While the copies are made, the mounted area does not change. -/
theorem Copied.source {state : Fstor × Nat × Nat} (area : Area config base)
    (copied : Copied config store (otherArea config base) kept state)
    (lower : base ≤ cell) (upper : cell < base + config.headerSize) : state.1.flash cell = store.flash cell := by
  have apart := area.apart
  exact copied.outside cell (by omega)

theorem Copying.more {state : Fstor} {op : FlashOp} (copying : Copying config store alt state)
    (blank : Blank op state.flash) (within : Within config (alt + 24) (alt + config.headerSize) op) :
    Copying config store alt (state.issue config op) := by
  obtain ⟨ops, issued, inside, disciplined⟩ := copying
  refine ⟨ops ++ [op], ?_, fun other member => ?_, ?_⟩
  · rw [← List.append_assoc]
    exact issued.issue op
  · rcases List.mem_append.mp member with old | new
    · exact inside other old
    · rw [List.mem_singleton.mp new]
      exact within
  · rw [← List.append_assoc]
    exact disciplined.issue issued blank

theorem Copied.large {state : Fstor} {kept : List Nat} {pointers : Nat × Nat}
    (copied : Copied config store alt kept (state, pointers))
    (fits : Fits config store.flash (kept ++ [entry])) (mark : isLarge store.flash entry = true)
    (same : state.flash.read entry 24 = store.flash.read entry 24) :
    Copied config store alt (kept ++ [entry])
      (state.issue config (.program (alt + 24 + 24 * kept.length) (state.flash.read entry 24)),
        alt + 48 + 24 * kept.length, alt + config.headerSize - footprint store.flash (kept ++ [entry])) := by
  have larger := footprint_append store.flash kept [entry]
  have nothing : footprint store.flash [entry] = 0 := by rw [footprint_singleton, cost, if_pos mark]
  have room := fits
  rw [Fits, List.length_append, List.length_singleton] at room
  have length : (state.flash.read entry 24).length = 24 := Memory.read_length ..
  have block : (state.issue config
      (.program (alt + 24 + 24 * kept.length) (state.flash.read entry 24))).flash.read
      (alt + 24 + 24 * kept.length) 24 = store.flash.read entry 24 := (Memory.read_write_block length).trans same
  refine copied.extend fits _ (fun cell out => Memory.write_outside ?_) ⟨?_, ?_, ?_, ?_, ?_⟩
    (copied.ops.more (fun cell lower upper => copied.gap cell lower (by omega)) ⟨by omega, by omega⟩)
  · omega
  · exact Memory.read_part block (show 0 + 16 ≤ 24 by decide)
  · exact congrArg fromLittle (Memory.read_part block (show 20 + 4 ≤ 24 by decide))
  · exact fun _ => congrArg fromLittle (Memory.read_part block (show 16 + 4 ≤ 24 by decide))
  · exact fun small => absurd (mark.symm.trans small) nofun
  · exact fun small => absurd (mark.symm.trans small) nofun

/-- A small value is copied below the others, its entry gets the new offset. -/
theorem Copied.small {state : Fstor} {kept : List Nat} {pointers : Nat × Nat}
    (copied : Copied config store alt kept (state, pointers))
    (fits : Fits config store.flash (kept ++ [entry])) (mark : isLarge store.flash entry = false)
    (words : alt + config.headerSize < 4294967295)
    (same : state.flash.read entry 24 = store.flash.read entry 24) {low : Nat}
    (lowest : low = alt + config.headerSize - footprint store.flash (kept ++ [entry])) :
    Copied config store alt (kept ++ [entry])
      ((state.issue config (.program low
          (state.flash.read (entryOffset store.flash entry) (entrySize store.flash entry)))).issue config
          (.program (alt + 24 + 24 * kept.length)
            ((state.flash.read entry 24).take 16 ++ littleEndian 4 low ++ (state.flash.read entry 24).drop 20)),
        alt + 48 + 24 * kept.length, alt + config.headerSize - footprint store.flash (kept ++ [entry])) := by
  have larger := footprint_append store.flash kept [entry]
  have space : entrySize store.flash entry ≤ footprint store.flash [entry] := by
    rw [footprint_singleton, cost, if_neg (by rw [mark]; exact nofun)]
    exact Nat.le_max_right ..
  have room := fits
  rw [Fits, List.length_append, List.length_singleton] at room
  have front : (state.flash.read entry 24).take 16 = store.flash.read entry 16 := by
    rw [same, Memory.read_take _ _ _ _ (by decide)]
  have back : (state.flash.read entry 24).drop 20 = store.flash.read (entry + 20) 4 := by
    rw [same, Memory.read_drop _ _ _ _ (by decide)]
  have bytes : (state.flash.read (entryOffset store.flash entry) (entrySize store.flash entry)).length =
      entrySize store.flash entry := Memory.read_length ..
  have length : (store.flash.read entry 16 ++ littleEndian 4 low ++ store.flash.read (entry + 20) 4).length = 24 := by
    simp
  rw [front, back]
  let slot := alt + 24 + 24 * kept.length
  let valued := state.flash.write low
    (state.flash.read (entryOffset store.flash entry) (entrySize store.flash entry))
  -- value and entry go to erased bytes
  have valueBlank : Blank (.program low (state.flash.read (entryOffset store.flash entry) (entrySize store.flash entry)))
      state.flash := fun cell lower upper => copied.gap cell (by omega) (by rw [bytes] at upper; omega)
  have slotBlank : Blank (.program slot (store.flash.read entry 16 ++ littleEndian 4 low ++
      store.flash.read (entry + 20) 4)) valued := by
    intro cell lower upper
    rw [length] at upper
    exact (Memory.write_outside (.inl (by omega))).trans (copied.gap cell lower (by omega))
  refine copied.extend fits _ (fun cell out => ?_) ⟨?_, ?_, ?_, ?_, ?_⟩
    ((copied.ops.more valueBlank ⟨by omega, by rw [bytes]; omega⟩).more slotBlank ⟨by omega, by rw [length]; omega⟩)
  · exact (Memory.write_outside (by rw [length]; omega)).trans (Memory.write_outside (by rw [bytes]; omega))
  · have part := Memory.read_write_part valued slot [] (store.flash.read entry 16)
      (littleEndian 4 low ++ store.flash.read (entry + 20) 4)
    rw [Memory.read_length, List.nil_append, ← List.append_assoc] at part
    exact part
  · have part := Memory.read_write_part valued slot (store.flash.read entry 16 ++ littleEndian 4 low)
      (store.flash.read (entry + 20) 4) []
    rw [Memory.read_length, List.append_nil, List.length_append, Memory.read_length, littleEndian_length] at part
    exact congrArg fromLittle part
  · exact fun large => absurd (mark.symm.trans large) nofun
  · intro _
    have part := Memory.number_write_part (show low < 256 ^ 4 by omega) valued slot (store.flash.read entry 16)
      (store.flash.read (entry + 20) 4)
    rw [Memory.read_length] at part
    exact part.trans lowest
  · intro _ apart
    rw [← lowest]
    refine (Memory.read_write_disjoint (.inr (by rw [length]; omega))).trans ?_
    refine (Memory.read_write_block bytes).trans (Memory.read_congr fun cell lower upper => ?_)
    exact copied.outside cell (by omega)

/-- One turn of the loop. -/
theorem Copied.turn {state : Fstor × Nat × Nat} (mounted : Mounted config store base count)
    (area : Area config base) (copied : Copied config store (otherArea config base) kept state)
    (inside : InTable base count entry) (latest : hasLaterCopy store.flash store.lastEntry entry = false)
    (fits : Fits config store.flash (kept ++ [entry])) :
    ∃ after, gcTurn config store.lastEntry state entry = .ok after ∧
      Copied config store (otherArea config base) (kept ++ [entry]) after := by
  obtain ⟨index, below, rfl⟩ := inside
  have table := mounted.table
  have cells (cell : Nat) (lower : base ≤ cell) (upper : cell < base + config.headerSize) :=
    copied.source area lower upper
  have copies : hasLaterCopy state.1.flash store.lastEntry (base + 24 + 24 * index) = false := by
    rw [mounted.last] at latest ⊢
    rw [← latest]
    exact hasLaterCopy_congr ⟨index, below, rfl⟩ fun cell lower upper => cells cell lower (by omega)
  have entrySame : ∀ cell, base + 24 + 24 * index ≤ cell → cell < base + 24 + 24 * index + 24 →
      state.1.flash cell = store.flash cell := fun cell lower upper => cells cell (by omega) (by omega)
  have size := entrySize_congr entrySame
  have offset := entryOffset_congr entrySame
  have mark : isLarge state.1.flash (base + 24 + 24 * index) = isLarge store.flash (base + 24 + 24 * index) := by
    rw [isLarge, isLarge, cells _ (by omega) (by omega)]
  have block : state.1.flash.read (base + 24 + 24 * index) 24 = store.flash.read (base + 24 + 24 * index) 24 :=
    Memory.read_congr entrySame
  obtain ⟨state, dstE, dstData⟩ := state
  obtain rfl : dstE = _ := copied.dstE
  obtain rfl : dstData = _ := copied.dstData
  have words := area.other.lt
  rw [gcTurn]
  dsimp only at copies size offset mark block ⊢
  rw [copies, size, offset, mark, if_neg nofun]
  have next : otherArea config base + 24 + 24 * kept.length + fstorEntrySize =
      otherArea config base + 48 + 24 * kept.length := by
    simp only [fstorEntrySize]
    omega
  cases kind : isLarge store.flash (base + 24 + 24 * index) with
  | true =>
    have copied := copied.large fits kind block
    rw [footprint_append, footprint_singleton, cost, if_pos kind, Nat.add_zero] at copied
    rw [if_pos rfl, next]
    exact ⟨_, rfl, copied⟩
  | false =>
    have larger := footprint_append store.flash kept [base + 24 + 24 * index]
    have room := fits
    rw [Fits, List.length_append, List.length_singleton] at room
    rw [footprint_singleton, cost, if_neg (by rw [kind]; exact nofun)] at larger
    have aligned := align_spec (show entrySize store.flash (base + 24 + 24 * index) < 4294967288 by omega)
    have inside := config.areas_inside
    have low := area.other.le
    have lowest : otherArea config base + config.headerSize - footprint store.flash kept -
        align (entrySize store.flash (base + 24 + 24 * index)) = otherArea config base + config.headerSize -
        footprint store.flash (kept ++ [base + 24 + 24 * index]) := by omega
    have copied := copied.small fits kind words block lowest
    rw [if_neg nofun, if_neg (by omega), next]
    refine ⟨_, rfl, ?_⟩
    rw [← lowest] at copied
    exact copied

/-- The whole loop. -/
theorem Copied.loop {state : Fstor × Nat × Nat} {rest : List Nat} (mounted : Mounted config store base count)
    (area : Area config base) (copied : Copied config store (otherArea config base) kept state)
    (inside : ∀ entry ∈ rest, InTable base count entry)
    (fits : Fits config store.flash
      (kept ++ rest.filter fun entry => !hasLaterCopy store.flash store.lastEntry entry)) :
    ∃ after, rest.foldlM (gcTurn config store.lastEntry) state = .ok after ∧
      Copied config store (otherArea config base)
        (kept ++ rest.filter fun entry => !hasLaterCopy store.flash store.lastEntry entry) after := by
  induction rest generalizing kept state with
  | nil =>
    rw [List.filter_nil, List.append_nil]
    exact ⟨state, rfl, copied⟩
  | cons entry rest ih =>
    have here := inside entry List.mem_cons_self
    have later : ∀ entry ∈ rest, InTable base count entry :=
      fun other member => inside other (List.mem_cons_of_mem _ member)
    rw [List.foldlM_cons]
    cases latest : hasLaterCopy store.flash store.lastEntry entry with
    | true =>
      rw [List.filter_cons_of_neg (by simp [latest])] at fits ⊢
      have skipped : gcTurn config store.lastEntry state entry = .ok state := by
        obtain ⟨index, below, rfl⟩ := here
        have table := mounted.table
        have same : hasLaterCopy state.1.flash store.lastEntry (base + 24 + 24 * index) = true := by
          rw [mounted.last] at latest ⊢
          rw [← latest]
          exact hasLaterCopy_congr ⟨index, below, rfl⟩
            fun cell lower upper => copied.source area lower (by omega)
        rw [gcTurn, if_pos same]
      rw [skipped]
      exact ih copied later fits
    | false =>
      rw [List.filter_cons_of_pos (by simp [latest])] at fits ⊢
      rw [List.append_cons] at fits ⊢
      have small : Fits config store.flash (kept ++ [entry]) := by
        have total := footprint_append store.flash (kept ++ [entry])
          (rest.filter fun entry => !hasLaterCopy store.flash store.lastEntry entry)
        simp only [Fits, List.length_append] at fits ⊢
        omega
      obtain ⟨after, turn, copied⟩ := copied.turn mounted area here latest small
      rw [turn]
      exact ih copied later fits

/-- The erased area. -/
theorem Copied.start (config : FstorConfig) (store : Fstor) (alt : Nat) :
    Copied config store alt []
      (store.erasePages config alt config.headerPages, alt + 24, alt + config.headerSize) := by
  have erased : Erased (store.erasePages config alt config.headerPages).flash alt (alt + config.headerSize) :=
    erasePages_erased config alt config.headerPages store
  have room := config.headerSize_le
  refine ⟨fun cell out => erasePages_outside _ _ _ out, ?_, rfl, rfl, ?_, nofun, .inl rfl, [], ?_, nofun, ?_⟩
  · exact fun cell lower upper => erased cell lower (by omega)
  · intro cell lower upper
    rw [footprint_nil] at upper
    exact erased cell (by omega) upper
  · rw [List.append_nil]
    exact erasePages_issued ..
  · rw [List.append_nil]
    exact eraseOps_disciplined ..

/-- The latest entries can be copied: they fit, and large ones point behind the
new table. -/
structure Collectable (config : FstorConfig) (store : Fstor) (base : Nat) : Prop where
  fits : Fits config store.flash (live store.flash base store.lastEntry)
  large : ∀ entry ∈ live store.flash base store.lastEntry, isLarge store.flash entry = true →
    otherArea config base + 24 + 24 * (live store.flash base store.lastEntry).length ≤
      entryOffset store.flash entry

/-- The store after a collection. -/
structure Collected (config : FstorConfig) (store : Fstor) (base : Nat) (kept : List Nat) (next : Fstor) : Prop where
  mounted : Mounted config next (otherArea config base) kept.length
  outside : ∀ cell, cell < otherArea config base ∨ otherArea config base + config.headerSize ≤ cell →
    next.flash cell = store.flash cell
  valid : isValidHeader config next.flash (otherArea config base) = true
  generation : generation next.flash (otherArea config base) = u32 (generation store.flash base + 1)
  start : next.dataStart ≤ otherArea config base + config.headerSize - footprint store.flash kept
  copies : ∀ index entry, kept[index]? = some entry →
    Copy config store.flash next.flash (otherArea config base) entry (otherArea config base + 24 + 24 * index)
      (target config store.flash (otherArea config base) kept index)
  ops : ∃ ops, Issued config store next (eraseOps config (otherArea config base) config.headerPages ++ ops ++
      [.program (otherArea config base) (newHeader config (u32 (Fstor.generation store.flash base + 1)))]) ∧
    (∀ op ∈ ops, Within config (otherArea config base + 24) (otherArea config base + config.headerSize) op) ∧
    Disciplined config (eraseOps config (otherArea config base) config.headerPages ++ ops ++
      [.program (otherArea config base) (newHeader config (u32 (Fstor.generation store.flash base + 1)))]) store.flash

/-- The copied table is accepted. -/
theorem Copied.scan {state : Fstor × Nat × Nat} (mounted : Mounted config store base count) (area : Area config base)
    (able : Collectable config store base)
    (copied : Copied config store (otherArea config base) (live store.flash base store.lastEntry) state)
    {flash : Memory} (same : ∀ cell, otherArea config base + 24 ≤ cell → flash cell = state.1.flash cell) :
    ∃ low, Scan flash (otherArea config base + 24) (otherArea config base + config.headerSize)
        (live store.flash base store.lastEntry).length low ∧
      Erased flash (otherArea config base + 24 + 24 * (live store.flash base store.lastEntry).length) low ∧
      low ≤ otherArea config base + config.headerSize -
        footprint store.flash (live store.flash base store.lastEntry) := by
  have room := able.fits
  rw [Fits] at room
  have words := area.other.lt
  have offset (index : Nat) : entryOffset flash (otherArea config base + 24 + 24 * index) =
      entryOffset state.1.flash (otherArea config base + 24 + 24 * index) :=
    entryOffset_congr fun cell lower upper => same cell (by omega)
  have gap : Erased flash (otherArea config base + 24 + 24 * (live store.flash base store.lastEntry).length)
      (otherArea config base + config.headerSize -
        footprint store.flash (live store.flash base store.lastEntry)) :=
    copied.gap.congr fun cell lower upper => same cell (by omega)
  -- what the offsets of the copies are
  have placed : ∀ index, ∀ inside : index < (live store.flash base store.lastEntry).length,
      entryOffset flash (otherArea config base + 24 + 24 * index) ≠ 0xffffffff ∧
      otherArea config base + 24 + 24 * (live store.flash base store.lastEntry).length ≤
        entryOffset flash (otherArea config base + 24 + 24 * index) := by
    intro index inside
    have member := List.getElem_mem inside
    have copy := copied.copies index _ (List.getElem?_eq_getElem inside)
    rw [offset]
    cases mark : isLarge store.flash (live store.flash base store.lastEntry)[index] with
    | true =>
      rw [copy.large mark]
      refine ⟨?_, able.large _ member mark⟩
      obtain ⟨step, shape, upper⟩ := mem_entriesTo.mp (List.mem_of_mem_filter member)
      have last := mounted.last
      rw [shape]
      exact mounted.scan.valid step (by omega)
    | false =>
      have low := le_target config store.flash (otherArea config base) (live store.flash base store.lastEntry) index
      have high : target config store.flash (otherArea config base) (live store.flash base store.lastEntry) index ≤
          otherArea config base + config.headerSize := Nat.sub_le ..
      rw [copy.small mark]
      omega
  obtain ⟨low, scan⟩ := Scan.of_entries (fun index inside => (placed index inside).1)
    (gap.number (by omega) (by omega)) (fun index inside => (placed index inside).2)
    (show _ ≤ otherArea config base + config.headerSize by omega)
  have lowest : low ≤ otherArea config base + config.headerSize -
      footprint store.flash (live store.flash base store.lastEntry) := by
    rcases copied.lowest with none | ⟨index, inside, small, lowest⟩
    · have top := scan.belowTop
      omega
    · have above := scan.above index inside
      have copy := copied.copies index _ (List.getElem?_eq_getElem inside)
      rwa [offset, copy.small small, lowest] at above
  exact ⟨low, scan, fun cell lower upper => gap cell lower (by omega), lowest⟩

/-- The area with its new header. -/
def headed (config : FstorConfig) (alt gen : Nat) (state : Fstor) : Fstor :=
  { state with settings := some alt }.writeHeader config alt gen

/-- Garbage collection of a table that can be copied. -/
theorem Collectable.collect (able : Collectable config store base) (mounted : Mounted config store base count)
    (area : Area config base) :
    ∃ next, store.jdFstorGc config = .ok next ∧
      Collected config store base (live store.flash base store.lastEntry) next := by
  have table := mounted.table
  have inside : ∀ entry ∈ entriesTo (base + 24) store.lastEntry, InTable base count entry := by
    intro entry member
    obtain ⟨index, shape, upper⟩ := mem_entriesTo.mp member
    rw [mounted.last] at upper
    exact ⟨index, by omega, shape⟩
  obtain ⟨⟨state, dstE, dstData⟩, done, copied⟩ :=
    (Copied.start config store (otherArea config base)).loop mounted area inside able.fits
  have copied : Copied config store (otherArea config base) (live store.flash base store.lastEntry)
      (state, dstE, dstData) := copied
  have source : generation state.flash base = generation store.flash base :=
    generation_congr fun cell lower upper => copied.source area lower (by omega)
  have same : ∀ cell, otherArea config base + 24 ≤ cell →
      (state.headed config (otherArea config base) (u32 (generation store.flash base + 1))).flash cell =
        state.flash cell :=
    fun cell above => Memory.write_outside (.inr (by rw [newHeader_length]; exact above))
  obtain ⟨low, scan, gap, lowest⟩ := copied.scan mounted area able same
  have cache := recomputeCache_eq _ scan gap
  refine ⟨{ state.headed config (otherArea config base) (u32 (generation store.flash base + 1)) with
    settings := some (otherArea config base)
    lastEntry := otherArea config base + 24 * (live store.flash base store.lastEntry).length
    dataStart := low }, ?_, ?_⟩
  · have loop : (entriesTo (base + fstorEntrySize) store.lastEntry).foldlM (gcTurn config store.lastEntry)
        (store.erasePages config (otherArea config base) config.headerPages,
          otherArea config base + fstorEntrySize, otherArea config base + config.headerSize) =
        .ok (state, dstE, dstData) := done
    rw [jdFstorGc]
    simp only [mounted.settings, loop, bind, Except.bind, source]
    change (if ((state.headed config (otherArea config base)
      (u32 (generation store.flash base + 1))).recomputeCache config (otherArea config base)).settings = none
      then _ else Except.ok ((state.headed config (otherArea config base)
      (u32 (generation store.flash base + 1))).recomputeCache config (otherArea config base))) = _
    rw [cache, if_neg nofun]
  · have small : u32 (generation store.flash base + 1) < 4294967296 := Nat.mod_lt _ (by decide)
    refine ⟨⟨rfl, rfl, scan, gap⟩, ?_, isValidHeader_write .., generation_write _ _ _ small, lowest, ?_, ?_⟩
    · intro cell out
      have room := config.headerSize_le
      refine (Memory.write_outside ?_).trans (copied.outside cell out)
      rw [newHeader_length]
      omega
    · intro index entry found
      have low := le_target config store.flash (otherArea config base) (live store.flash base store.lastEntry) index
      have fits := able.fits
      rw [Fits] at fits
      exact (copied.copies index entry found).keep (fun cell lower upper => same cell (by omega))
        (fun cell lower upper => same cell (by omega))
    · obtain ⟨ops, issued, within, disciplined⟩ := copied.ops
      have after := issued.issue
        (.program (otherArea config base) (newHeader config (u32 (generation store.flash base + 1))))
      refine ⟨ops, ⟨after.record, after.image⟩, within, disciplined.issue issued fun cell lower upper => ?_⟩
      rw [newHeader_length] at upper
      exact copied.header cell lower upper

end Fstor

end Jacdac
