import Jacdac.Services.Replies
import Mathlib.Data.List.DropRight
import Mathlib.Data.List.GetD

/-! The patterns of `braille_display.c`: cells of eight dots, as the characters from U+2800 on in UTF-8. -/

namespace Jacdac

/-- The code of the patterns. -/
structure BrailleSpec where
  regPatterns : RegCode

def dotsMax : Nat := 76

/-- The part of `srv_state` for the patterns, and `STATE_DIRTY` of its flags. -/
structure BrailleState where
  serviceIndex : UInt8
  length : Nat
  dirty : Bool
  dots : Nat → UInt8
  length_lt : length < dotsMax

/-- The second and the third byte of a cell. -/
def cellHigh (low : UInt8) : UInt8 := (0xA0 : UInt8) ||| (low >>> 6)
def cellLow (low : UInt8) : UInt8 := (0x80 : UInt8) ||| (low &&& 0x3F)

/-- The bytes of a cell in `handle_get`. -/
def encodeCell (low : UInt8) : List UInt8 := [0xE2, cellHigh low, cellLow low]

/-- The cell of the last two bytes in `handle_set`. -/
def decodeCell (b1 b2 : UInt8) : UInt8 := ((b1 &&& 3) <<< 6) ||| (b2 &&& 0x3F)

/-- The tests in the loop of `handle_set`. -/
def isCell (b0 b1 b2 : UInt8) : Prop := b0 = 0xE2 ∧ b1 &&& 0xFC = 0xA0 ∧ b2 &&& 0xC0 = 0x80

instance decidableIsCell (b0 b1 b2 : UInt8) : Decidable (isCell b0 b1 b2) :=
  inferInstanceAs (Decidable (b0 = 0xE2 ∧ b1 &&& 0xFC = 0xA0 ∧ b2 &&& 0xC0 = 0x80))

namespace BrailleState

/-- The dots of the display. -/
def cells (state : BrailleState) : List UInt8 := (List.range state.length).map state.dots

/-- The first loop of `handle_get`. -/
def trimmed (dots : Nat → UInt8) : Nat → Nat
  | 0 => 0
  | len + 1 => if dots len = 0 then trimmed dots len else len + 1

def handleGet (spec : BrailleSpec) (state : BrailleState) : Packet :=
  let len := trimmed state.dots state.length
  ⟨state.serviceIndex, jdGet spec.regPatterns, ((List.range len).map state.dots).flatMap encodeCell⟩

/-- The loop of `handle_set` from `i` and `ptr` on, for at most so many turns; `data` is the memory from
the payload on. -/
def setLoop (length serviceSize : Nat) (data : Nat → UInt8) : Nat → Nat → Nat → (Nat → UInt8) → Nat × (Nat → UInt8)
  | 0, _, ptr, dots => (ptr, dots)
  | turns + 1, i, ptr, dots =>
    if ¬ i < serviceSize + 2 then (ptr, dots)
    else if ¬ isCell (data i) (data (i + 1)) (data (i + 2)) then (ptr, dots)
    else
      let dots := Function.update dots ptr (decodeCell (data (i + 1)) (data (i + 2)))
      let ptr := ptr + 1
      if ptr ≥ length then (ptr, dots) else setLoop length serviceSize data turns (i + 3) ptr dots

def handleSet (serviceSize : Nat) (data : Nat → UInt8) (state : BrailleState) : BrailleState :=
  let (ptr, dots) := setLoop state.length serviceSize data (serviceSize + 2) 0 0 state.dots
  { state with
    dots := fun k => if ptr ≤ k ∧ k < state.length then 0 else dots k
    dirty := true }

end BrailleState

/-- The cells of the whole sequences at the start of a payload, and what comes after them. -/
def splitCells : List UInt8 → List UInt8 × List UInt8
  | b0 :: b1 :: b2 :: rest =>
    if isCell b0 b1 b2 then (decodeCell b1 b2 :: (splitCells rest).1, (splitCells rest).2)
    else ([], b0 :: b1 :: b2 :: rest)
  | short => ([], short)

def payloadMemory (payload : List UInt8) (behind : Nat → UInt8) (k : Nat) : UInt8 :=
  (payload[k]?).getD (behind (k - payload.length))

section Cells

private theorem encode_table : ∀ byte : Fin 256, isCell 0xE2 (cellHigh (.ofNat byte)) (cellLow (.ofNat byte)) ∧
    decodeCell (cellHigh (.ofNat byte)) (cellLow (.ofNat byte)) = .ofNat byte := by decide +kernel

theorem encode_spec (low : UInt8) : isCell 0xE2 (cellHigh low) (cellLow low) ∧ decodeCell (cellHigh low) (cellLow low) = low := by
  have table := encode_table ⟨low.toNat, low.toNat_lt⟩
  rw [UInt8.ofNat_toNat] at table
  exact table

/-- What the tests leave open of the second and of the third byte. -/
private theorem high_table : ∀ byte : Fin 256, UInt8.ofNat byte &&& 0xFC = 0xA0 →
    ∃ high : Fin 4, UInt8.ofNat byte = 0xA0 ||| .ofNat high := by decide +kernel

private theorem low_table : ∀ byte : Fin 256, UInt8.ofNat byte &&& 0xC0 = 0x80 →
    ∃ low : Fin 64, UInt8.ofNat byte = 0x80 ||| .ofNat low := by decide +kernel

private theorem decode_table : ∀ (high : Fin 4) (low : Fin 64),
    encodeCell (decodeCell (0xA0 ||| .ofNat high) (0x80 ||| .ofNat low)) =
      [0xE2, 0xA0 ||| .ofNat high, 0x80 ||| .ofNat low] := by decide +kernel

/-- Bytes that pass the tests are those of their cell. -/
theorem encodeCell_decode {b0 b1 b2 : UInt8} (cell : isCell b0 b1 b2) : encodeCell (decodeCell b1 b2) = [b0, b1, b2] := by
  obtain ⟨rfl, second, third⟩ := cell
  have high := high_table ⟨b1.toNat, b1.toNat_lt⟩
  have low := low_table ⟨b2.toNat, b2.toNat_lt⟩
  rw [UInt8.ofNat_toNat] at high low
  obtain ⟨first, rfl⟩ := high second
  obtain ⟨last, rfl⟩ := low third
  exact decode_table first last

theorem splitCells_encode (cell : UInt8) (rest : List UInt8) :
    splitCells (encodeCell cell ++ rest) = (cell :: (splitCells rest).1, (splitCells rest).2) := by
  obtain ⟨passes, same⟩ := encode_spec cell
  change splitCells (0xE2 :: cellHigh cell :: cellLow cell :: rest) = _
  rw [splitCells, if_pos passes, same]

theorem splitCells_spec (payload : List UInt8) :
    payload = (splitCells payload).1.flatMap encodeCell ++ (splitCells payload).2 ∧
      ∀ cell, ¬ encodeCell cell <+: (splitCells payload).2 := by
  induction payload using splitCells.induct with
  | case1 b0 b1 b2 rest passes ih =>
    rw [splitCells, if_pos passes, List.flatMap_cons, encodeCell_decode passes]
    exact ⟨congrArg (b0 :: b1 :: b2 :: ·) ih.1, ih.2⟩
  | case2 b0 b1 b2 rest fails =>
    rw [splitCells, if_neg fails]
    refine ⟨rfl, ?_⟩
    rintro cell ⟨tail, same⟩
    change 0xE2 :: cellHigh cell :: cellLow cell :: tail = b0 :: b1 :: b2 :: rest at same
    cases same
    exact fails (encode_spec cell).1
  | case3 short few =>
    have whole : splitCells short = ([], short) := by
      rw [splitCells]
      exact few
    rw [whole]
    refine ⟨rfl, ?_⟩
    rintro cell ⟨rest, rfl⟩
    exact few _ _ _ rest rfl

/-- The cells are the longest such prefix. -/
theorem flatMap_prefix_iff (cells payload : List UInt8) :
    cells.flatMap encodeCell <+: payload ↔ cells <+: (splitCells payload).1 := by
  induction cells generalizing payload with
  | nil => exact iff_of_true List.nil_prefix List.nil_prefix
  | cons cell cells ih =>
    rw [List.flatMap_cons]
    constructor
    · rintro ⟨rest, rfl⟩
      rw [List.append_assoc, splitCells_encode]
      exact (List.cons_prefix_cons.mpr ⟨rfl, (ih _).mp ⟨rest, rfl⟩⟩)
    · intro leads
      obtain ⟨split, _⟩ := splitCells_spec payload
      rcases first : (splitCells payload).1 with _ | ⟨head, others⟩
      · rw [first] at leads
        exact absurd leads (by simp)
      · rw [first] at leads split
        obtain ⟨rfl, later⟩ := List.cons_prefix_cons.mp leads
        rw [List.flatMap_cons, List.append_assoc] at split
        rw [split]
        rw [split, splitCells_encode] at first
        rw [← (List.cons.inj first).2] at later
        exact (List.prefix_append_right_inj _).mpr ((ih _).mpr later)

theorem splitCells_flatMap (cells : List UInt8) : splitCells (cells.flatMap encodeCell) = (cells, []) := by
  induction cells with
  | nil => rfl
  | cons cell cells ih => rw [List.flatMap_cons, splitCells_encode, ih]

end Cells

/-- The cells that the loop of `handle_set` finds from `i` on. -/
def scanCells (serviceSize : Nat) (data : Nat → UInt8) : Nat → Nat → List UInt8
  | 0, _ => []
  | turns + 1, i =>
    if ¬ i < serviceSize + 2 then []
    else if ¬ isCell (data i) (data (i + 1)) (data (i + 2)) then []
    else decodeCell (data (i + 1)) (data (i + 2)) :: scanCells serviceSize data turns (i + 3)

/-- At most so many cells, and empty ones behind them. -/
def fillCells (length : Nat) (cells : List UInt8) : List UInt8 := (List.range length).map fun k => cells.getD k 0

namespace BrailleState

def storeCells (dots : Nat → UInt8) (ptr : Nat) (stored : List UInt8) (k : Nat) : UInt8 :=
  if k < ptr then dots k else stored.getD (k - ptr) (dots k)

theorem storeCells_nil (dots : Nat → UInt8) (ptr : Nat) : storeCells dots ptr [] = dots := by
  funext k
  unfold storeCells
  split <;> rfl

theorem storeCells_cons (dots : Nat → UInt8) (ptr : Nat) (cell : UInt8) (stored : List UInt8) :
    storeCells dots ptr (cell :: stored) = storeCells (Function.update dots ptr cell) (ptr + 1) stored := by
  funext k
  unfold storeCells
  rcases Nat.lt_trichotomy k ptr with before | rfl | behind
  · rw [if_pos before, if_pos (by omega), Function.update_of_ne before.ne]
  · rw [if_neg (Nat.lt_irrefl k), if_pos (Nat.lt_succ_self k), Function.update_self, Nat.sub_self]
    rfl
  · have place : k - ptr = k - (ptr + 1) + 1 := by omega
    rw [if_neg (by omega), if_neg (by omega), Function.update_of_ne behind.ne', place]
    rfl

theorem setLoop_eq (length serviceSize : Nat) (data : Nat → UInt8) (turns i ptr : Nat) (dots : Nat → UInt8) :
    setLoop length serviceSize data turns i ptr dots =
      (ptr + ((scanCells serviceSize data turns i).take (max 1 (length - ptr))).length,
        storeCells dots ptr ((scanCells serviceSize data turns i).take (max 1 (length - ptr)))) := by
  induction turns generalizing i ptr dots with
  | zero =>
    rw [setLoop, scanCells, List.take_nil, storeCells_nil]
    rfl
  | succ turns ih =>
    rw [setLoop, scanCells]
    split
    · rw [List.take_nil, storeCells_nil]
      rfl
    · split
      · rw [List.take_nil, storeCells_nil]
        rfl
      · generalize decodeCell (data (i + 1)) (data (i + 2)) = cell
        dsimp only
        split
        · rename_i full
          have one : max 1 (length - ptr) = 1 := by omega
          rw [one, List.take_succ_cons, List.take_zero, storeCells_cons, storeCells_nil]
          rfl
        · rename_i room
          have more : max 1 (length - ptr) = max 1 (length - (ptr + 1)) + 1 := by omega
          rw [ih, more, List.take_succ_cons, storeCells_cons, List.length_cons, Nat.add_assoc, Nat.add_comm 1]

theorem handleSet_cells (serviceSize : Nat) (data : Nat → UInt8) (state : BrailleState) :
    (state.handleSet serviceSize data).cells = fillCells state.length (scanCells serviceSize data (serviceSize + 2) 0) := by
  have loop := setLoop_eq state.length serviceSize data (serviceSize + 2) 0 0 state.dots
  refine List.map_congr_left fun k member => ?_
  have inside : k < state.length := List.mem_range.mp member
  have most : max 1 (state.length - 0) = state.length := by omega
  rw [handleSet, loop, most]
  dsimp only
  generalize scanCells serviceSize data (serviceSize + 2) 0 = found
  rw [Nat.zero_add, List.length_take, storeCells, if_neg (Nat.not_lt_zero k), Nat.sub_zero]
  split
  · rename_i behind
    exact (List.getD_eq_default _ _ (by omega)).symm
  · rename_i before
    have lt : k < found.length := by omega
    rw [List.getD_eq_getElem _ _ (by rw [List.length_take]; omega), List.getElem_take, List.getD_eq_getElem _ _ lt]

end BrailleState

/-- At this index the payload has these bytes left, with other bytes behind them. -/
structure Leaves (serviceSize : Nat) (data : Nat → UInt8) (i : Nat) (left : List UInt8) (behind : Nat → UInt8) : Prop where
  size : serviceSize = i + left.length
  memory : ∀ k, data (i + k) = payloadMemory left behind k

section Payload

variable {serviceSize i turns : Nat} {data behind : Nat → UInt8} {left : List UInt8}

theorem Leaves.start (payload : List UInt8) (behind : Nat → UInt8) :
    Leaves payload.length (payloadMemory payload behind) 0 payload behind where
  size := (Nat.zero_add _).symm
  memory k := by rw [Nat.zero_add]

theorem payloadMemory_append (early late : List UInt8) (k : Nat) :
    payloadMemory (early ++ late) behind (early.length + k) = payloadMemory late behind k := by
  unfold payloadMemory
  rw [List.getElem?_append_right (Nat.le_add_right _ _), List.length_append, Nat.add_sub_cancel_left,
    Nat.add_sub_add_left]

theorem Leaves.skip {early late : List UInt8} (leaves : Leaves serviceSize data i (early ++ late) behind) :
    Leaves serviceSize data (i + early.length) late behind where
  size := by rw [leaves.size, List.length_append, Nat.add_assoc]
  memory k := by rw [Nat.add_assoc, leaves.memory, payloadMemory_append]

/-- The three bytes from here on are the start of what is left, or what is left is the start of them. -/
theorem Leaves.bytes (leaves : Leaves serviceSize data i left behind) :
    [data i, data (i + 1), data (i + 2)] <+: left ∨ left <+: [data i, data (i + 1), data (i + 2)] := by
  have first := leaves.memory 0
  have second := leaves.memory 1
  have third := leaves.memory 2
  rw [Nat.add_zero] at first
  rw [first, second, third]
  match left with
  | [] => exact .inr List.nil_prefix
  | [b0] => exact .inr ⟨_, rfl⟩
  | [b0, b1] => exact .inr ⟨_, rfl⟩
  | b0 :: b1 :: b2 :: rest => exact .inl ⟨rest, rfl⟩

/-- The loop finds the cells of the payload, and goes on behind them. -/
theorem Leaves.scan (leaves : Leaves serviceSize data i left behind) (enough : left.length < turns) :
    ∃ later, scanCells serviceSize data turns i =
        (splitCells left).1 ++ scanCells serviceSize data later (i + 3 * (splitCells left).1.length) ∧
      (splitCells left).2.length < later ∧
      Leaves serviceSize data (i + 3 * (splitCells left).1.length) (splitCells left).2 behind := by
  induction left using splitCells.induct generalizing i turns with
  | case1 b0 b1 b2 rest passes ih =>
    obtain ⟨turns, rfl⟩ : ∃ others, turns = others + 1 := ⟨turns - 1, by omega⟩
    have first : data i = b0 := leaves.memory 0
    have second : data (i + 1) = b1 := leaves.memory 1
    have third : data (i + 2) = b2 := leaves.memory 2
    have inside : i < serviceSize + 2 := by
      have := leaves.size
      omega
    have skipped : Leaves serviceSize data (i + 3) rest behind := @Leaves.skip serviceSize i data behind [b0, b1, b2] rest leaves
    have few : rest.length < turns := by
      rw [List.length_cons, List.length_cons, List.length_cons] at enough
      omega
    obtain ⟨later, found, more, ended⟩ := ih skipped few
    have place : i + 3 + 3 * (splitCells rest).1.length = i + 3 * ((splitCells rest).1.length + 1) := by omega
    rw [place] at found ended
    refine ⟨later, ?_⟩
    rw [splitCells, if_pos passes, scanCells, first, second, third, if_neg (not_not.mpr inside), if_neg (not_not.mpr passes),
      List.length_cons, found]
    exact ⟨rfl, more, ended⟩
  | case2 b0 b1 b2 rest fails =>
    rw [splitCells, if_neg fails]
    exact ⟨turns, rfl, enough, leaves⟩
  | case3 short few =>
    have whole : splitCells short = ([], short) := by
      rw [splitCells]
      exact few
    rw [whole]
    exact ⟨turns, rfl, enough, leaves⟩

/-- Behind the cells the loop finds nothing, if no cell starts with the rest. -/
theorem Leaves.scan_nil (leaves : Leaves serviceSize data i left behind) (whole : ∀ cell, ¬ encodeCell cell <+: left)
    (part : ∀ cell, ¬ left <+: encodeCell cell) : scanCells serviceSize data turns i = [] := by
  cases turns with
  | zero => rfl
  | succ turns =>
    have fails : ¬ isCell (data i) (data (i + 1)) (data (i + 2)) := by
      intro passes
      have bytes := leaves.bytes
      rw [← encodeCell_decode passes] at bytes
      exact bytes.elim (whole _) (part _)
    rw [scanCells, if_pos fails]
    split <;> rfl

theorem exists_completion {cell : UInt8} (starts : left <+: encodeCell cell) (whole : ∀ cell, ¬ encodeCell cell <+: left) :
    ∃ other, other ≠ 0 ∧ left <+: encodeCell other := by
  by_cases empty : cell = 0
  · refine ⟨1, by decide, ?_⟩
    subst empty
    have short := whole 0
    -- the empty cell and this one differ in the last byte only
    have same : [0xE2, cellHigh 0] <+: encodeCell 1 := by decide
    refine List.IsPrefix.trans ?_ same
    refine List.prefix_of_prefix_length_le starts ⟨[cellLow 0], rfl⟩ ?_
    by_contra long
    exact short (List.prefix_of_prefix_length_le (List.prefix_refl _) starts (by
      change 3 ≤ left.length
      change ¬ left.length ≤ 2 at long
      omega))
  · exact ⟨cell, empty, starts⟩

/-- The bytes that complete a rest to a cell. -/
def completion (left : List UInt8) (cell : UInt8) (k : Nat) : UInt8 := (encodeCell cell).getD (left.length + k) 0

theorem payloadMemory_completion {cell : UInt8} (starts : left <+: encodeCell cell) (k : Nat) :
    payloadMemory left (completion left cell) k = (encodeCell cell).getD k 0 := by
  unfold payloadMemory completion
  by_cases inside : k < left.length
  · rw [List.getElem?_eq_getElem inside, starts.getElem inside]
    exact (List.getD_eq_getElem _ _ _).symm
  · rw [List.getElem?_eq_none (by omega), Nat.add_sub_cancel' (by omega)]
    rfl

/-- Completed by such bytes the rest is taken for a cell. -/
theorem Leaves.scan_completion {cell : UInt8} (starts : left <+: encodeCell cell)
    (leaves : Leaves serviceSize data i left (completion left cell)) :
    ∃ others, scanCells serviceSize data (turns + 1) i = cell :: others := by
  have byte : ∀ k, data (i + k) = (encodeCell cell).getD k 0 := fun k =>
    (leaves.memory k).trans (payloadMemory_completion starts k)
  have first : data i = 0xE2 := byte 0
  have second : data (i + 1) = cellHigh cell := byte 1
  have third : data (i + 2) = cellLow cell := byte 2
  have inside : i < serviceSize + 2 := by
    have := leaves.size
    omega
  obtain ⟨passes, same⟩ := encode_spec cell
  rw [scanCells, first, second, third, if_neg (not_not.mpr inside), if_neg (not_not.mpr passes), same]
  exact ⟨_, rfl⟩

end Payload

section Filled

variable {length : Nat} {cells more : List UInt8}

theorem fillCells_append (enough : length ≤ cells.length) : fillCells length (cells ++ more) = fillCells length cells := by
  refine List.map_congr_left fun k member => ?_
  have inside : k < cells.length := (List.mem_range.mp member).trans_le enough
  exact List.getD_append _ _ _ _ inside

theorem fillCells_ne {cell : UInt8} (present : cell ≠ 0) (room : cells.length < length) :
    fillCells length (cells ++ cell :: more) ≠ fillCells length cells := by
  intro same
  have at_end := (List.map_inj_left.mp same) cells.length (List.mem_range.mpr room)
  rw [List.getD_append_right _ _ _ _ (le_refl _), Nat.sub_self, List.getD_eq_default _ _ (le_refl _)] at at_end
  exact present at_end

end Filled

/-- The dots depend on the payload only exactly if it has enough cells, or no cell starts with what
comes after its cells. -/
theorem BrailleState.handleSet_iff (state : BrailleState) (payload : List UInt8) :
    (∀ behind, (state.handleSet payload.length (payloadMemory payload behind)).cells =
        fillCells state.length (splitCells payload).1) ↔
      state.length ≤ (splitCells payload).1.length ∨ ∀ cell, ¬ (splitCells payload).2 <+: encodeCell cell := by
  obtain ⟨_, whole⟩ := splitCells_spec payload
  simp only [handleSet_cells]
  constructor
  · intro independent
    by_contra neither
    obtain ⟨few, open_⟩ := not_or.mp neither
    obtain ⟨cell, starts⟩ := not_forall_not.mp open_
    obtain ⟨other, present, starts⟩ := exists_completion starts whole
    obtain ⟨later, found, enough, leaves⟩ :=
      (Leaves.start payload (completion (splitCells payload).2 other)).scan (Nat.lt_add_of_pos_right (Nat.zero_lt_succ 1))
    obtain ⟨others, extra⟩ := @Leaves.scan_completion _ _ (later - 1) _ _ _ starts leaves
    rw [Nat.sub_add_cancel (Nat.zero_lt_of_lt enough)] at extra
    have same := independent (completion (splitCells payload).2 other)
    rw [found, extra] at same
    exact fillCells_ne present (Nat.lt_of_not_le few) same
  · intro closed behind
    obtain ⟨later, found, _, leaves⟩ :=
      (Leaves.start payload behind).scan (Nat.lt_add_of_pos_right (Nat.zero_lt_succ 1))
    rw [found]
    rcases closed with enough | none
    · exact fillCells_append enough
    · rw [leaves.scan_nil whole none, List.append_nil]

namespace BrailleState

section Trimmed

variable (dots : Nat → UInt8) (length : Nat)

theorem trimmed_le : trimmed dots length ≤ length := by
  induction length with
  | zero => exact Nat.le_refl _
  | succ length ih =>
    rw [trimmed]
    split
    · exact Nat.le_succ_of_le ih
    · exact Nat.le_refl _

theorem trimmed_eq : (List.range (trimmed dots length)).map dots = ((List.range length).map dots).rdropWhile (· = 0) := by
  induction length with
  | zero => rfl
  | succ length ih =>
    rw [trimmed, List.range_succ, List.map_append, List.map_singleton, List.rdropWhile_concat]
    split
    · rename_i empty
      rw [if_pos (decide_eq_true empty), ih]
    · rename_i present
      rw [if_neg (by rw [decide_eq_false present]; exact Bool.false_ne_true), List.range_succ, List.map_append,
        List.map_singleton]

theorem trimmed_empty {k : Nat} (behind : trimmed dots length ≤ k) (inside : k < length) : dots k = 0 := by
  induction length with
  | zero => exact absurd inside (Nat.not_lt_zero k)
  | succ length ih =>
    rw [trimmed] at behind
    split at behind
    · rename_i empty
      rcases Nat.lt_or_eq_of_le (Nat.le_of_lt_succ inside) with before | rfl
      · exact ih behind before
      · exact empty
    · omega

theorem trimmed_full_iff : length ≤ trimmed dots length ↔ length = 0 ∨ dots (length - 1) ≠ 0 := by
  cases length with
  | zero => exact iff_of_true (Nat.zero_le _) (.inl rfl)
  | succ length =>
    have le := trimmed_le dots length
    rw [trimmed, Nat.add_sub_cancel]
    split
    · rename_i empty
      refine iff_of_false (by omega) ?_
      rintro (none | present)
      · cases none
      · exact present empty
    · rename_i present
      exact iff_of_true (Nat.le_refl _) (.inr present)

theorem fillCells_trimmed : fillCells length ((List.range (trimmed dots length)).map dots) = (List.range length).map dots := by
  refine List.map_congr_left fun k member => ?_
  have inside := List.mem_range.mp member
  by_cases kept : k < trimmed dots length
  · rw [List.getD_eq_getElem _ _ (by rw [List.length_map, List.length_range]; exact kept), List.getElem_map, List.getElem_range]
  · rw [List.getD_eq_default _ _ (by rw [List.length_map, List.length_range]; omega),
      trimmed_empty dots length (Nat.le_of_not_lt kept) inside]

end Trimmed

/-- The reply has the cells without the empty ones at the end. -/
theorem handleGet_eq (spec : BrailleSpec) (state : BrailleState) : state.handleGet spec =
    ⟨state.serviceIndex, jdGet spec.regPatterns, (state.cells.rdropWhile (· = 0)).flatMap encodeCell⟩ := by
  rw [handleGet, cells, ← trimmed_eq]

/-- A write of the reply restores the dots exactly if the last one is not empty. -/
theorem restores_iff (spec : BrailleSpec) (state : BrailleState) :
    (∀ dots behind, ({ state with dots }.handleSet (state.handleGet spec).payload.length
      (payloadMemory (state.handleGet spec).payload behind)).cells = state.cells) ↔
    state.length = 0 ∨ state.dots (state.length - 1) ≠ 0 := by
  have reply : splitCells (state.handleGet spec).payload = ((List.range (trimmed state.dots state.length)).map state.dots, []) :=
    splitCells_flatMap _
  have restored : fillCells state.length (splitCells (state.handleGet spec).payload).1 = state.cells := by
    rw [reply]
    exact fillCells_trimmed state.dots state.length
  have each (dots : Nat → UInt8) := handleSet_iff { state with dots } (state.handleGet spec).payload
  dsimp only at each
  rw [restored, reply, List.length_map, List.length_range, trimmed_full_iff] at each
  have starts : ¬ ∀ cell, ¬ ([] : List UInt8) <+: encodeCell cell := fun none => none 0 List.nil_prefix
  simp only [each, or_iff_left starts, forall_const]

end BrailleState

/-- For every packet: the dots are those of its whole sequences, whatever is behind it; a read answers
with them, less the empty cells at the end; and a write of the answer, whatever is behind that, restores
them, exactly if there are no cells or the packet has one for the last cell that is not empty. -/
theorem braille_patterns_iff (spec : BrailleSpec) (state : BrailleState) (payload : List UInt8) :
    ((∀ behind, (state.handleSet payload.length (payloadMemory payload behind)).cells =
        fillCells state.length (splitCells payload).1) ∧
      ∀ behind,
        let result := state.handleSet payload.length (payloadMemory payload behind)
        let reply := result.handleGet spec
        reply = ⟨state.serviceIndex, jdGet spec.regPatterns, (result.cells.rdropWhile (· = 0)).flatMap encodeCell⟩ ∧
          ∀ dots behind, ({ result with dots }.handleSet reply.payload.length (payloadMemory reply.payload behind)).cells =
            result.cells) ↔
    state.length = 0 ∨ ∃ cell, (splitCells payload).1[state.length - 1]? = some cell ∧ cell ≠ 0 := by
  have last {behind : Nat → UInt8} (positive : state.length ≠ 0)
      (filled : (state.handleSet payload.length (payloadMemory payload behind)).cells =
        fillCells state.length (splitCells payload).1) :
      (state.handleSet payload.length (payloadMemory payload behind)).dots (state.length - 1) =
        (splitCells payload).1.getD (state.length - 1) 0 :=
    (List.map_inj_left.mp filled) (state.length - 1) (List.mem_range.mpr (Nat.sub_one_lt positive))
  constructor
  · rintro ⟨independent, reads⟩
    by_cases none : state.length = 0
    · exact .inl none
    · right
      have present := ((BrailleState.restores_iff spec _).mp (reads fun _ => 0).2).resolve_left none
      change (state.handleSet _ _).dots (state.length - 1) ≠ 0 at present
      rw [last none (independent _), List.getD_eq_getElem?_getD] at present
      cases found : (splitCells payload).1[state.length - 1]? with
      | none =>
        rw [found] at present
        exact absurd rfl present
      | some cell =>
        rw [found] at present
        exact ⟨cell, rfl, present⟩
  · intro closed
    have independent := (BrailleState.handleSet_iff state payload).mpr (.inl (by
      rcases closed with none | ⟨cell, found, _⟩
      · omega
      · have := (List.getElem?_eq_some_iff.mp found).1
        omega))
    refine ⟨independent, fun behind => ⟨BrailleState.handleGet_eq spec _, (BrailleState.restores_iff spec _).mpr ?_⟩⟩
    rcases closed with none | ⟨cell, found, present⟩
    · exact .inl none
    · by_cases none : state.length = 0
      · exact .inl none
      · right
        change (state.handleSet _ _).dots (state.length - 1) ≠ 0
        rw [last none (independent _), List.getD_eq_getElem?_getD, found]
        exact present

/-- A display of two empty cells, and bytes of a cell with dot 2 behind everything. -/
def twoCells : BrailleState := ⟨1, 2, false, fun _ => 0, by decide⟩
def strayCell (k : Nat) : UInt8 := (encodeCell 2).getD k 0

/-- A packet with one cell sets the second one from the bytes behind it. -/
theorem braille_patterns_stray :
    (twoCells.handleSet 3 (payloadMemory (encodeCell 1) strayCell)).cells = [1, 2] ∧
      (twoCells.handleSet 3 (payloadMemory (encodeCell 1) fun _ => 0)).cells = [1, 0] := by decide +kernel

end Jacdac
