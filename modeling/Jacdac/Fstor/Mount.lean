import Jacdac.Fstor.Scan

/-! Mounting: the picked area is accepted or the first area is formatted. -/

namespace Jacdac

namespace Fstor

variable {config : FstorConfig} {store next : Fstor} {flash : Memory} {base count low : Nat} {ops : List FlashOp}

/-- The image after these operations. -/
def replay (config : FstorConfig) (ops : List FlashOp) (flash : Memory) : Memory :=
  ops.foldl (fun flash op => op.apply config.pageSize flash) flash

/-- The operation touches nothing outside. -/
def Within (config : FstorConfig) (lower upper : Nat) : FlashOp → Prop
  | .erase address => lower ≤ address ∧ address + config.pageSize ≤ upper
  | .program address bytes => lower ≤ address ∧ address + bytes.length ≤ upper

/-- The flash changed by these operations and by nothing else. -/
structure Issued (config : FstorConfig) (store next : Fstor) (ops : List FlashOp) : Prop where
  record : next.ops = store.ops ++ ops
  image : next.flash = replay config ops store.flash

theorem Issued.none (config : FstorConfig) (flash : next.flash = store.flash) (ops : next.ops = store.ops) :
    Issued config store next [] :=
  ⟨by rw [ops, List.append_nil], flash⟩

theorem Issued.issue (issued : Issued config store next ops) (op : FlashOp) :
    Issued config store (next.issue config op) (ops ++ [op]) := by
  constructor
  · rw [Fstor.issue, issued.record, List.append_assoc]
  · rw [Fstor.issue, issued.image, replay, replay, List.foldl_append]
    rfl

/-- An operation leaves what is outside its target. -/
theorem Within.outside {op : FlashOp} (within : Within config lower upper op)
    (out : cell < lower ∨ upper ≤ cell) (flash : Memory) : op.apply config.pageSize flash cell = flash cell := by
  cases op with
  | erase address =>
    refine Memory.write_outside ?_
    rw [List.length_replicate]
    have bounds : lower ≤ address ∧ address + config.pageSize ≤ upper := within
    omega
  | program address bytes =>
    refine Memory.write_outside ?_
    have bounds : lower ≤ address ∧ address + bytes.length ≤ upper := within
    omega

theorem Within.mono {op : FlashOp} {less : Nat} (within : Within config lower upper op) (below : less ≤ lower) :
    Within config less upper op := by
  cases op with
  | erase address => exact ⟨Nat.le_trans below within.1, within.2⟩
  | program address bytes => exact ⟨Nat.le_trans below within.1, within.2⟩

theorem replay_outside (within : ∀ op ∈ ops, Within config lower upper op)
    (out : cell < lower ∨ upper ≤ cell) (flash : Memory) : replay config ops flash cell = flash cell := by
  induction ops generalizing flash with
  | nil => rfl
  | cons op rest ih =>
    have later := ih (fun other member => within other (List.mem_cons_of_mem _ member))
      (op.apply config.pageSize flash)
    exact later.trans ((within op List.mem_cons_self).outside out flash)

theorem replay_append (config : FstorConfig) (first second : List FlashOp) (flash : Memory) :
    replay config (first ++ second) flash = replay config second (replay config first flash) :=
  List.foldl_append ..

theorem Issued.trans {middle : Fstor} {before after : List FlashOp} (first : Issued config store middle before)
    (second : Issued config middle next after) : Issued config store next (before ++ after) :=
  ⟨by rw [second.record, first.record, List.append_assoc], by rw [second.image, first.image, replay_append]⟩

/-- The bytes that an operation programs are erased. -/
def Blank : FlashOp → Memory → Prop
  | .erase _, _ => True
  | .program address bytes, flash => Erased flash address (address + bytes.length)

/-- Every operation programs only bytes that are erased at that moment. -/
def Disciplined (config : FstorConfig) : List FlashOp → Memory → Prop
  | [], _ => True
  | op :: rest, flash => Blank op flash ∧ Disciplined config rest (op.apply config.pageSize flash)

theorem disciplined_append (first second : List FlashOp) (flash : Memory) :
    Disciplined config (first ++ second) flash ↔
      Disciplined config first flash ∧ Disciplined config second (replay config first flash) := by
  induction first generalizing flash with
  | nil => exact ⟨fun rest => ⟨trivial, rest⟩, And.right⟩
  | cons op rest ih =>
    rw [List.cons_append, Disciplined, Disciplined, ih, and_assoc]
    rfl

/-- One operation more. -/
theorem Disciplined.issue {op : FlashOp} (disciplined : Disciplined config ops store.flash)
    (issued : Issued config store next ops) (blank : Blank op next.flash) :
    Disciplined config (ops ++ [op]) store.flash :=
  (disciplined_append ..).mpr ⟨disciplined, issued.image ▸ blank, trivial⟩

theorem erasePages_succ (config : FstorConfig) (base num : Nat) (store : Fstor) :
    store.erasePages config base (num + 1) =
      (store.erasePages config base num).issue config (.erase (base + num * config.pageSize)) := by
  rw [erasePages, List.range_succ, List.foldl_append]
  rfl

/-- The operations of `erase_pages`. -/
def eraseOps (config : FstorConfig) (base num : Nat) : List FlashOp :=
  (List.range num).map fun page => .erase (base + page * config.pageSize)

theorem erasePages_issued (config : FstorConfig) (base num : Nat) (store : Fstor) :
    Issued config store (store.erasePages config base num) (eraseOps config base num) := by
  induction num with
  | zero => exact .none config rfl rfl
  | succ num ih =>
    rw [erasePages_succ, eraseOps, List.range_succ, List.map_append]
    exact ih.issue _

theorem eraseOps_within (config : FstorConfig) (base num : Nat) :
    ∀ op ∈ eraseOps config base num, Within config base (base + num * config.pageSize) op := by
  intro op member
  obtain ⟨page, inside, rfl⟩ := List.mem_map.mp member
  have pages := Nat.mul_le_mul_right config.pageSize (List.mem_range.mp inside)
  rw [Nat.succ_mul] at pages
  exact ⟨by omega, by omega⟩

theorem eraseOps_disciplined (config : FstorConfig) (base num : Nat) (flash : Memory) :
    Disciplined config (eraseOps config base num) flash := by
  induction num with
  | zero => trivial
  | succ num ih =>
    rw [eraseOps, List.range_succ, List.map_append]
    exact (disciplined_append ..).mpr ⟨ih, trivial, trivial⟩

/-- Erasing changes the flash only. -/
theorem erasePages_eq (config : FstorConfig) (base num : Nat) (store : Fstor) :
    store.erasePages config base num =
      { store with flash := (store.erasePages config base num).flash, ops := (store.erasePages config base num).ops } := by
  induction num with
  | zero => rfl
  | succ num ih =>
    rw [erasePages_succ, ih]
    rfl

theorem erasePages_outside (config : FstorConfig) (num : Nat) (store : Fstor)
    (outside : cell < base ∨ base + num * config.pageSize ≤ cell) :
    (store.erasePages config base num).flash cell = store.flash cell := by
  induction num with
  | zero => rfl
  | succ num ih =>
    rw [Nat.succ_mul] at outside
    rw [erasePages_succ, ← ih (by omega)]
    exact Memory.write_outside (by rw [List.length_replicate]; omega)

theorem erasePages_erased (config : FstorConfig) (base num : Nat) (store : Fstor) :
    Erased (store.erasePages config base num).flash base (base + num * config.pageSize) := by
  induction num with
  | zero => exact fun cell lower upper => by omega
  | succ num ih =>
    intro cell lower upper
    rw [Nat.succ_mul] at upper
    rw [erasePages_succ]
    by_cases before : cell < base + num * config.pageSize
    · exact (Memory.write_outside (.inl before)).trans (ih cell lower before)
    · obtain ⟨offset, rfl⟩ := Nat.exists_eq_add_of_le (Nat.le_of_not_lt before)
      have inside : offset < (List.replicate config.pageSize (0xff : UInt8)).length := by
        rw [List.length_replicate]
        omega
      exact (Memory.write_inside inside).trans (List.getElem_replicate ..)

/-- An empty table. -/
theorem scan_empty (erased : Erased flash (base + 24) (base + config.headerSize)) :
    Scan flash (base + 24) (base + config.headerSize) 0 (base + config.headerSize) := by
  have room := config.headerSize_le
  exact ⟨fun index inside => absurd inside (Nat.not_lt_zero _), erased.number (by omega) (by omega),
    fun index inside => absurd inside (Nat.not_lt_zero _), Nat.le_refl _, .inl rfl, by omega⟩

/-- The store after formatting. -/
structure Formatted (config : FstorConfig) (store next : Fstor) : Prop where
  mounted : Mounted config next 0 0
  start : next.dataStart = config.headerSize
  valid : isValidHeader config next.flash 0 = true
  first : generation next.flash 0 = 1
  outside : ∀ cell, config.headerSize ≤ cell → next.flash cell = store.flash cell
  ops : Issued config store next (eraseOps config 0 config.headerPages ++ [.program 0 (newHeader config 1)])

/-- The first area erased, with a new header. -/
def wiped (config : FstorConfig) (store : Fstor) : Fstor :=
  ({ store with settings := some 0 }.erasePages config 0 config.headerPages).writeHeader config 0 1

theorem wiped_erased (config : FstorConfig) (store : Fstor) :
    Erased (store.wiped config).flash (0 + 24) (0 + config.headerSize) := by
  intro cell lower upper
  have erased := erasePages_erased config 0 config.headerPages { store with settings := some 0 }
  have outside : 0 + (newHeader config 1).length ≤ cell := by
    rw [newHeader_length]
    exact lower
  exact (Memory.write_outside (.inr outside)).trans (erased cell (Nat.zero_le _) upper)

theorem format_spec (config : FstorConfig) (store : Fstor) :
    ∃ next, store.format config = .ok next ∧ Formatted config store next := by
  have room := config.headerSize_le
  have rest := wiped_erased config store
  have scan := scan_empty rest
  have done := recomputeCache_eq (store.wiped config) scan rest
  refine ⟨{ store.wiped config with
    settings := some 0, lastEntry := 0 + 24 * 0, dataStart := 0 + config.headerSize }, ?_, ?_⟩
  · rw [format]
    change (if ((store.wiped config).recomputeCache config 0).settings = none then _ else
      Except.ok ((store.wiped config).recomputeCache config 0)) = _
    rw [done, if_neg nofun]
  · refine ⟨⟨rfl, rfl, scan, rest⟩, Nat.zero_add _, isValidHeader_write .., generation_write _ _ _ (by decide), ?_, ?_⟩
    · intro cell above
      have outside : 0 + (newHeader config 1).length ≤ cell := by
        rw [newHeader_length]
        omega
      refine (Memory.write_outside (.inr outside)).trans ?_
      exact erasePages_outside config config.headerPages _ (.inr (by rw [Nat.zero_add]; exact above))
    · have erased := erasePages_issued config 0 config.headerPages { store with settings := some 0 }
      have headed := erased.issue (.program 0 (newHeader config 1))
      exact ⟨headed.record, headed.image⟩

theorem Formatted.picks (formatted : Formatted config store next)
    (clean : isValidHeader config store.flash config.headerSize = true →
      generation store.flash config.headerSize = 0) :
    pickHeader config next.flash = some 0 := by
  have second : ∀ cell, config.headerSize ≤ cell → cell < config.headerSize + 24 →
      next.flash cell = store.flash cell := fun cell above _ => formatted.outside cell above
  refine pickHeader_newer (.inl rfl) formatted.valid ?_
  rw [otherArea_zero, isValidHeader_congr second, generation_congr second, formatted.first]
  intro valid
  rw [clean valid]
  decide

/-- `recompute_cache` accepts the area. -/
def accepts (config : FstorConfig) (flash : Memory) (base : Nat) : Bool :=
  (recomputeCache config base ⟨flash, [], some base, 0, 0⟩).settings ≠ none

theorem accepts_iff (config : FstorConfig) (flash : Memory) (base : Nat) :
    accepts config flash base = true ↔
      ∃ count low, Scan flash (base + 24) (base + config.headerSize) count low ∧
        Erased flash (base + 24 + 24 * count) low := by
  rw [accepts, decide_eq_true_iff]
  constructor
  · intro done
    obtain ⟨count, mounted⟩ := mounted_of_recompute done
    have scan := mounted.scan
    have gap := mounted.gap
    rw [recomputeCache_flash] at scan gap
    exact ⟨count, _, scan, gap⟩
  · rintro ⟨count, low, scan, gap⟩
    rw [recomputeCache_eq ⟨flash, [], some base, 0, 0⟩ scan gap]
    exact nofun

/-- An accepted area is mounted. -/
theorem init_accepted (unmounted : store.settings = none) (picked : pickHeader config store.flash = some base)
    (scan : Scan store.flash (base + 24) (base + config.headerSize) count low)
    (gap : Erased store.flash (base + 24 + 24 * count) low) :
    store.jdFstorInit config =
      .ok { store with settings := some base, lastEntry := base + 24 * count, dataStart := low } := by
  have done := recomputeCache_eq { store with settings := some base } scan gap
  rw [jdFstorInit]
  simp only [unmounted, picked, done]
  rw [if_neg nofun]

theorem Mounted.init (mounted : Mounted config store base count)
    (picked : pickHeader config store.flash = some base) : store.remount config = .ok store := by
  have unmounted : { store with settings := none }.settings = none := rfl
  rw [remount, init_accepted unmounted picked mounted.scan mounted.gap, ← mounted.settings, ← mounted.last]

/-- What mounting an image does. -/
theorem init_cases (unmounted : store.settings = none) :
    ∃ next, store.jdFstorInit config = .ok next ∧
      ((∃ base count, pickHeader config store.flash = some base ∧ accepts config store.flash base = true ∧
          Mounted config next base count ∧ next.flash = store.flash ∧ next.ops = store.ops) ∨
        ((∀ base, pickHeader config store.flash = some base → accepts config store.flash base = false) ∧
          Formatted config store next)) := by
  cases picked : pickHeader config store.flash with
  | none =>
    obtain ⟨fresh, formats, formatted⟩ := format_spec config store
    refine ⟨fresh, ?_, .inr ⟨nofun, formatted⟩⟩
    rw [jdFstorInit]
    simp only [unmounted, picked, if_true]
    exact formats
  | some base =>
    cases accepted : accepts config store.flash base with
    | true =>
      obtain ⟨count, low, scan, gap⟩ := (accepts_iff ..).mp accepted
      exact ⟨_, init_accepted unmounted picked scan gap,
        .inl ⟨base, count, rfl, accepted, ⟨rfl, rfl, scan, gap⟩, rfl, rfl⟩⟩
    | false =>
      have rejected : (recomputeCache config base { store with settings := some base }).settings = none := by
        by_contra mounted
        obtain ⟨count, mounted⟩ := mounted_of_recompute mounted
        have scan := mounted.scan
        have gap := mounted.gap
        rw [recomputeCache_flash] at scan gap
        rw [(accepts_iff ..).mpr ⟨count, _, scan, gap⟩] at accepted
        cases accepted
      obtain ⟨fresh, formats, formatted⟩ :=
        format_spec config (recomputeCache config base { store with settings := some base })
      refine ⟨fresh, ?_, .inr ⟨fun other same => Option.some.inj same ▸ accepted, ?_⟩⟩
      · rw [jdFstorInit]
        simp only [unmounted, picked, rejected, if_true]
        exact formats
      · refine ⟨formatted.mounted, formatted.start, formatted.valid, formatted.first, fun cell above => ?_, ?_, ?_⟩
        · rw [formatted.outside cell above, recomputeCache_flash]
        · rw [formatted.ops.record, recomputeCache_ops]
        · rw [formatted.ops.image, recomputeCache_flash]

end Fstor

end Jacdac
