import Jacdac.Services.Registers

/-! Where the registers of a description lie, bit by bit. -/

namespace Jacdac

private theorem bitMask_table : ∀ bit other : Fin 8,
    (bitMask bit).toBitVec.getLsbD other = decide (other = bit) := by
  decide

private theorem bitMask_getLsbD (inside : bit < 8) (within : index < 8) :
    (bitMask bit).toBitVec.getLsbD index = decide (index = bit) := by
  have table := bitMask_table ⟨bit, inside⟩ ⟨index, within⟩
  simpa using table

theorem getBit_eq (byte : UInt8) (inside : bit < 8) : getBit byte bit = byte.toBitVec.getLsbD bit := by
  have selected : ∀ index < 8, (byte &&& bitMask bit).toBitVec.getLsbD index =
      (byte.toBitVec.getLsbD index && decide (index = bit)) := by
    intro index within
    rw [UInt8.toBitVec_and, BitVec.getLsbD_and, bitMask_getLsbD inside within]
  cases set : byte.toBitVec.getLsbD bit with
  | true =>
    refine decide_eq_true fun zero => ?_
    have here := selected bit inside
    rw [zero, set] at here
    simp at here
  | false =>
    refine decide_eq_false fun present => present ?_
    apply UInt8.toBitVec_inj.mp
    apply BitVec.eq_of_getLsbD_eq
    intro index within
    rw [selected index within]
    by_cases same : index = bit
    · rw [same, set]
      simp
    · simp [same]

theorem byte_ext {first second : UInt8} (same : ∀ bit < 8, getBit first bit = getBit second bit) :
    first = second := by
  apply UInt8.toBitVec_inj.mp
  apply BitVec.eq_of_getLsbD_eq
  intro bit inside
  rw [← getBit_eq _ inside, ← getBit_eq _ inside, same bit inside]

theorem getBit_setBit (byte : UInt8) (value : Bool) (inside : bit < 8) (within : index < 8) :
    getBit (setBit byte bit value) index = if index = bit then value else getBit byte index := by
  have mask := bitMask_getLsbD inside within
  rw [getBit_eq _ within, getBit_eq _ within]
  cases value with
  | true =>
    rw [setBit, if_pos rfl, UInt8.toBitVec_or, BitVec.getLsbD_or, mask]
    by_cases same : index = bit <;> simp [same]
  | false =>
    rw [setBit, if_neg (by decide), UInt8.toBitVec_and, UInt8.toBitVec_not, BitVec.getLsbD_and,
      BitVec.getLsbD_not, mask]
    by_cases same : index = bit
    · simp [same]
    · simp [same, within]

/-- Bit number `bit` of the state, counted from its first byte. -/
def bitAt (state : Memory) (bit : Nat) : Bool := getBit (state (bit / 8)) (bit % 8)

theorem cell_eq_of_bits {first second : Memory}
    (same : ∀ bit, 8 * cell ≤ bit → bit < 8 * cell + 8 → bitAt first bit = bitAt second bit) :
    first cell = second cell := by
  apply byte_ext
  intro bit inside
  have agree := same (8 * cell + bit) (by omega) (by omega)
  have place : (8 * cell + bit) / 8 = cell := by omega
  have index : (8 * cell + bit) % 8 = bit := by omega
  rwa [bitAt, bitAt, place, index] at agree

/-- The least multiple of `unit` that is not below `offset`. -/
def roundUp (unit offset : Nat) : Nat := (offset + (unit - 1)) / unit * unit

theorem lt_roundUp_add (positive : 0 < unit) (offset : Nat) :
    offset + (unit - 1) < roundUp unit offset + unit :=
  Nat.lt_div_mul_add positive

theorem le_roundUp (positive : 0 < unit) (offset : Nat) : offset ≤ roundUp unit offset := by
  have above := lt_roundUp_add positive offset
  omega

/-- The masking of the scan, as long as it does not wrap. -/
theorem roundUp_u32 (positive : 0 < unit) (fits : roundUp unit offset + unit ≤ 4294967296) :
    u32 (offset + (unit - 1)) / unit * unit = roundUp unit offset := by
  have above := lt_roundUp_add positive offset
  rw [u32, Nat.mod_eq_of_lt (by omega)]
  rfl

/-- The supported register types, with the size of a byte array. -/
inductive RegType where
  | i8
  | u8
  | i16
  | u16
  | i32
  | u32
  | byte4
  | byte8
  | bit
  | bytes (size : Nat)
  | opt8
  | opt16
  | opt32
  | ptr
  deriving DecidableEq, Repr

namespace RegType

def number : RegType → Nat
  | i8 => 0
  | u8 => 1
  | i16 => 2
  | u16 => 3
  | i32 => 4
  | u32 => 5
  | byte4 => 6
  | byte8 => 7
  | bit => 8
  | bytes _ => 9
  | opt8 => 10
  | opt16 => 11
  | opt32 => 12
  | ptr => 13

def size (ptrSize : Nat) : RegType → Nat
  | bytes size => size
  | type => regSize ptrSize type.number

/-- Bits and byte arrays start at the cursor; the others are aligned. -/
def packed : RegType → Bool
  | bit => true
  | bytes _ => true
  | _ => false

end RegType

/-- An entry of a description. The combination that reads as `JD_REG_END` is not one. -/
structure RegEntry where
  type : RegType
  code : Nat
  code_lt : code < 4096
  positive : ∀ size, type = .bytes size → 0 < size
  ongoing : ¬ (type = .i8 ∧ code = regEnd)

namespace RegEntry

theorem padding_lt : regPadding < 4096 := by decide

theorem first_lt : 0x80 < 4096 := by decide

theorem second_lt : 0x81 < 4096 := by decide

theorem bit_positive (size : Nat) (same : RegType.bit = .bytes size) : 0 < size := nomatch same

theorem bit_ongoing : ¬ (RegType.bit = .i8 ∧ 0x80 = regEnd) := by decide

/-- `_JD_REG_`, and `REG_BYTES` with its size. -/
def encode (entry : RegEntry) : List Nat :=
  match entry.type with
  | .bytes size => [regBytes * 4096 + entry.code, size]
  | type => [type.number * 4096 + entry.code]

/-- `REG_DEFINITION`. -/
def encodeAll (entries : List RegEntry) : List Nat := entries.flatMap encode ++ [regEnd]

def size (ptrSize : Nat) (entry : RegEntry) : Nat := entry.type.size ptrSize

/-- Where the entry starts, for an offset that does not wrap. -/
def start (ptrSize : Nat) (entry : RegEntry) (cursor : RegCursor) : RegCursor :=
  if entry.type.packed then cursor
  else
    let unit := min (entry.size ptrSize) ptrSize
    let offset := if cursor.bitoffset ≠ 0 then cursor.offset + 1 else cursor.offset
    { offset := roundUp unit offset, bitoffset := 0 }

/-- The cursor behind an entry that starts at `cursor`. -/
def next (ptrSize : Nat) (entry : RegEntry) (cursor : RegCursor) : RegCursor :=
  if entry.type = .bit then
    if cursor.bitoffset + 1 = 8 then { offset := cursor.offset + 1, bitoffset := 0 }
    else { cursor with bitoffset := cursor.bitoffset + 1 }
  else { cursor with offset := cursor.offset + entry.size ptrSize }

def step (ptrSize : Nat) (entry : RegEntry) (cursor : RegCursor) : RegCursor :=
  entry.next ptrSize (entry.start ptrSize cursor)

def finish (ptrSize : Nat) (entries : List RegEntry) (cursor : RegCursor) : RegCursor :=
  entries.foldl (fun cursor entry => entry.step ptrSize cursor) cursor

end RegEntry

/-- An entry with the place of its storage. -/
structure RegSlot where
  entry : RegEntry
  cursor : RegCursor

namespace RegSlot

def firstBit (slot : RegSlot) : Nat :=
  if slot.entry.type = .bit then 8 * slot.cursor.offset + slot.cursor.bitoffset
  else 8 * slot.cursor.offset

/-- The bit behind the storage. -/
def lastBit (ptrSize : Nat) (slot : RegSlot) : Nat :=
  if slot.entry.type = .bit then 8 * slot.cursor.offset + slot.cursor.bitoffset + 1
  else 8 * (slot.cursor.offset + slot.entry.size ptrSize)

/-- The slot as the scan reports it. -/
def toPlace (ptrSize : Nat) (slot : RegSlot) : RegPlace :=
  ⟨slot.entry.type.number, slot.entry.size ptrSize, slot.cursor⟩

end RegSlot

namespace RegEntry

/-- All entries of a description with their places. -/
def layout (ptrSize : Nat) : List RegEntry → RegCursor → List RegSlot
  | [], _ => []
  | entry :: rest, cursor =>
    ⟨entry, entry.start ptrSize cursor⟩ :: layout ptrSize rest (entry.step ptrSize cursor)

variable {ptrSize : Nat} {entry : RegEntry} {cursor : RegCursor}

theorem size_pos (entry : RegEntry) (ptr : 0 < ptrSize) : 0 < entry.size ptrSize := by
  unfold size
  cases type : entry.type with
  | bytes size => exact entry.positive size type
  | ptr => exact ptr
  | _ => simp [RegType.size, RegType.number, regSize]

/-- No entry starts before the cursor, and an aligned one leaves a started byte. -/
theorem start_offset (entry : RegEntry) (ptr : 0 < ptrSize) (cursor : RegCursor) :
    (entry.type.packed = true ∧ entry.start ptrSize cursor = cursor) ∨
      (entry.type.packed = false ∧ (entry.start ptrSize cursor).bitoffset = 0 ∧
        cursor.offset ≤ (entry.start ptrSize cursor).offset ∧
        (cursor.bitoffset ≠ 0 → cursor.offset < (entry.start ptrSize cursor).offset)) := by
  have positive := entry.size_pos ptr
  have unit : 0 < min (entry.size ptrSize) ptrSize := by omega
  unfold start
  split
  · rename_i packed
    exact .inl ⟨packed, rfl⟩
  · rename_i scalar
    refine .inr ⟨by simpa using scalar, rfl, ?_⟩
    dsimp only
    split
    · have up := le_roundUp unit (cursor.offset + 1)
      omega
    · have up := le_roundUp unit cursor.offset
      omega

theorem packed_bit (bit : entry.type = .bit) : entry.type.packed = true := by rw [bit]; rfl

theorem start_bit (bit : entry.type = .bit) : entry.start ptrSize cursor = cursor :=
  if_pos (packed_bit bit)

theorem step_bit (bit : entry.type = .bit) (small : cursor.bitoffset < 8) :
    entry.step ptrSize cursor =
      ⟨cursor.offset + (cursor.bitoffset + 1) / 8, (cursor.bitoffset + 1) % 8⟩ := by
  rw [step, start_bit bit, next, if_pos bit]
  split
  · rename_i full
    simp [full]
  · have quotient : (cursor.bitoffset + 1) / 8 = 0 := by omega
    have remainder : (cursor.bitoffset + 1) % 8 = cursor.bitoffset + 1 := by omega
    simp [quotient, remainder]

/-- Any other entry uses up whole bytes. -/
theorem step_whole (whole : entry.type ≠ .bit) :
    entry.step ptrSize cursor =
      { entry.start ptrSize cursor with
        offset := (entry.start ptrSize cursor).offset + entry.size ptrSize } :=
  if_neg whole

theorem step_bitoffset (entry : RegEntry) (ptr : 0 < ptrSize) (small : cursor.bitoffset < 8) :
    (entry.step ptrSize cursor).bitoffset < 8 := by
  by_cases bit : entry.type = .bit
  · rw [step_bit bit small]
    exact Nat.mod_lt _ (by decide)
  · rw [step_whole bit]
    rcases entry.start_offset ptr cursor with ⟨_, same⟩ | ⟨_, zero, _⟩
    · rw [same]
      exact small
    · show (entry.start ptrSize cursor).bitoffset < 8
      omega

theorem step_offset (entry : RegEntry) (ptr : 0 < ptrSize) (small : cursor.bitoffset < 8) :
    cursor.offset ≤ (entry.step ptrSize cursor).offset ∧
      (entry.type ≠ .bit → cursor.offset < (entry.step ptrSize cursor).offset) := by
  by_cases bit : entry.type = .bit
  · rw [step_bit bit small]
    exact ⟨Nat.le_add_right _ _, fun whole => absurd bit whole⟩
  · rw [step_whole bit]
    have positive := entry.size_pos ptr
    have begins : cursor.offset ≤ (entry.start ptrSize cursor).offset := by
      rcases entry.start_offset ptr cursor with ⟨_, same⟩ | ⟨_, _, lower, _⟩
      · rw [same]
      · exact lower
    dsimp only
    omega

@[simp] theorem finish_nil (cursor : RegCursor) : finish ptrSize [] cursor = cursor := rfl

@[simp] theorem finish_cons (entry : RegEntry) (rest : List RegEntry) (cursor : RegCursor) :
    finish ptrSize (entry :: rest) cursor = finish ptrSize rest (entry.step ptrSize cursor) := rfl

theorem finish_append (first second : List RegEntry) (cursor : RegCursor) :
    finish ptrSize (first ++ second) cursor = finish ptrSize second (finish ptrSize first cursor) :=
  List.foldl_append

theorem finish_bitoffset (entries : List RegEntry) (ptr : 0 < ptrSize) (small : cursor.bitoffset < 8) :
    (finish ptrSize entries cursor).bitoffset < 8 := by
  induction entries generalizing cursor with
  | nil => exact small
  | cons entry rest ih => exact ih (entry.step_bitoffset ptr small)

theorem finish_offset (entries : List RegEntry) (ptr : 0 < ptrSize) (small : cursor.bitoffset < 8) :
    cursor.offset ≤ (finish ptrSize entries cursor).offset := by
  induction entries generalizing cursor with
  | nil => exact Nat.le_refl _
  | cons entry rest ih =>
    exact (entry.step_offset ptr small).1.trans (ih (entry.step_bitoffset ptr small))

/-- A run of bits is counted through. -/
theorem finish_bits (run : List RegEntry) (bits : ∀ entry ∈ run, entry.type = .bit)
    (small : cursor.bitoffset < 8) :
    finish ptrSize run cursor =
      ⟨cursor.offset + (cursor.bitoffset + run.length) / 8, (cursor.bitoffset + run.length) % 8⟩ := by
  induction run generalizing cursor with
  | nil =>
    have quotient : cursor.bitoffset / 8 = 0 := by omega
    have remainder : cursor.bitoffset % 8 = cursor.bitoffset := by omega
    simp [quotient, remainder]
  | cons entry rest ih =>
    have bit := bits entry (List.mem_cons_self ..)
    have later := fun other member => bits other (List.mem_cons_of_mem entry member)
    rw [finish_cons, step_bit bit small, ih later (Nat.mod_lt _ (by decide))]
    simp only [List.length_cons, RegCursor.mk.injEq]
    omega

/-- Only a run of bits keeps the cursor inside one byte. -/
theorem bits_of_finish_offset (entries : List RegEntry) (ptr : 0 < ptrSize) (small : cursor.bitoffset < 8)
    (same : (finish ptrSize entries cursor).offset = cursor.offset) :
    ∀ entry ∈ entries, entry.type = .bit := by
  induction entries generalizing cursor with
  | nil => exact fun _ member => nomatch member
  | cons entry rest ih =>
    have onward := finish_offset rest ptr (entry.step_bitoffset ptr small)
    obtain ⟨lower, beyond⟩ := entry.step_offset ptr small
    rw [finish_cons] at same
    have bit : entry.type = .bit := by
      by_contra whole
      have := beyond whole
      omega
    intro other member
    rcases List.mem_cons.mp member with rfl | later
    · exact bit
    · exact ih (entry.step_bitoffset ptr small) (by omega) other later

/-- The cursor never moves back, counted in bits. -/
theorem finish_bit_le (entries : List RegEntry) (ptr : 0 < ptrSize) (small : cursor.bitoffset < 8) :
    8 * cursor.offset + cursor.bitoffset ≤
      8 * (finish ptrSize entries cursor).offset + (finish ptrSize entries cursor).bitoffset := by
  induction entries generalizing cursor with
  | nil => exact Nat.le_refl _
  | cons entry rest ih =>
    rw [finish_cons]
    refine Nat.le_trans ?_ (ih (entry.step_bitoffset ptr small))
    by_cases bit : entry.type = .bit
    · rw [step_bit bit small]
      dsimp only
      omega
    · rw [step_whole bit]
      rcases entry.start_offset ptr cursor with ⟨_, same⟩ | ⟨_, _, lower, beyond⟩
      · rw [same]
        dsimp only
        omega
      · dsimp only
        omega

theorem layout_append (first second : List RegEntry) (cursor : RegCursor) :
    layout ptrSize (first ++ second) cursor =
      layout ptrSize first cursor ++ layout ptrSize second (finish ptrSize first cursor) := by
  induction first generalizing cursor with
  | nil => rfl
  | cons entry rest ih => simp [layout, ih]

theorem layout_map_entry (ptrSize : Nat) (entries : List RegEntry) (cursor : RegCursor) :
    (layout ptrSize entries cursor).map RegSlot.entry = entries := by
  induction entries generalizing cursor with
  | nil => rfl
  | cons entry rest ih => simp [layout, ih]

theorem mem_layout_iff {slot : RegSlot} : slot ∈ layout ptrSize entries cursor ↔
    ∃ before after, entries = before ++ slot.entry :: after ∧
      slot.cursor = slot.entry.start ptrSize (finish ptrSize before cursor) := by
  constructor
  · intro member
    induction entries generalizing cursor with
    | nil => nomatch member
    | cons entry rest ih =>
      rcases List.mem_cons.mp member with rfl | later
      · exact ⟨[], rest, rfl, rfl⟩
      · obtain ⟨before, after, split, place⟩ := ih later
        exact ⟨entry :: before, after, by rw [split]; rfl, place⟩
  · rintro ⟨before, after, rfl, place⟩
    rw [layout_append, layout, ← place]
    simp

/-- An entry and a later one do not overlap, unless a byte array comes right
behind bits that leave a byte unfinished. -/
theorem separated (first later : RegEntry) (between : List RegEntry) (ptr : 0 < ptrSize)
    (small : cursor.bitoffset < 8) :
    RegSlot.lastBit ptrSize ⟨first, first.start ptrSize cursor⟩ ≤
        RegSlot.firstBit ⟨later, later.start ptrSize
          (finish ptrSize between (first.step ptrSize cursor))⟩ ∨
      (first.type = .bit ∧ (∀ entry ∈ between, entry.type = .bit) ∧ (∃ size, later.type = .bytes size) ∧
        between.length < (finish ptrSize between (first.step ptrSize cursor)).bitoffset ∧
        (finish ptrSize between (first.step ptrSize cursor)).offset = cursor.offset) := by
  have inside := first.step_bitoffset ptr small
  have onward := finish_bit_le between ptr inside
  have further := finish_offset between ptr inside
  -- where the first entry ends, against the cursor behind it
  have ends : RegSlot.lastBit ptrSize ⟨first, first.start ptrSize cursor⟩ ≤
      8 * (first.step ptrSize cursor).offset + (first.step ptrSize cursor).bitoffset ∧
      (first.type ≠ .bit → RegSlot.lastBit ptrSize ⟨first, first.start ptrSize cursor⟩ =
        8 * (first.step ptrSize cursor).offset) ∧
      (first.type = .bit → RegSlot.lastBit ptrSize ⟨first, first.start ptrSize cursor⟩ =
        8 * cursor.offset + cursor.bitoffset + 1) := by
    by_cases bit : first.type = .bit
    · rw [RegSlot.lastBit, if_pos bit, start_bit bit, step_bit bit small]
      refine ⟨?_, fun whole => absurd bit whole, fun _ => rfl⟩
      dsimp only
      omega
    · rw [RegSlot.lastBit, if_neg bit, step_whole bit]
      exact ⟨Nat.le_add_right _ _, fun _ => rfl, fun isBit => absurd isBit bit⟩
  obtain ⟨upper, whole, single⟩ := ends
  generalize stop : finish ptrSize between (first.step ptrSize cursor) = behind at *
  rcases later.start_offset ptr behind with ⟨packed, same⟩ | ⟨scalar, _, lower, beyond⟩
  · rw [RegSlot.firstBit, same]
    by_cases bit : later.type = .bit
    · rw [if_pos bit]
      exact .inl (upper.trans onward)
    · rw [if_neg bit]
      have array : ∃ size, later.type = .bytes size := by
        cases type : later.type with
        | bytes size => exact ⟨size, rfl⟩
        | bit => exact absurd type bit
        | _ => rw [type] at packed; cases packed
      by_cases firstBit : first.type = .bit
      · rw [single firstBit]
        have moved := (first.step_offset ptr small).1
        by_cases shared : behind.offset = cursor.offset
        · right
          have all : ∀ entry ∈ first :: between, entry.type = .bit :=
            bits_of_finish_offset _ ptr small (by rw [finish_cons, stop, shared])
          have counted : finish ptrSize (first :: between) cursor = _ := finish_bits _ all small
          rw [finish_cons, stop] at counted
          rw [counted, List.length_cons] at shared ⊢
          dsimp only at shared ⊢
          exact ⟨firstBit, fun entry member => all entry (List.mem_cons_of_mem _ member), array,
            by omega, shared⟩
        · left
          dsimp only
          omega
      · rw [whole firstBit]
        left
        dsimp only
        omega
  · have aligned : later.type ≠ .bit := by
      intro bit
      rw [bit] at scalar
      cases scalar
    rw [RegSlot.firstBit, if_neg aligned]
    left
    dsimp only
    omega

theorem packed_iff (entry : RegEntry) : entry.type.packed = true ↔
    entry.type.number = regBit ∨ entry.type.number = regBytes := by
  cases entry.type <;> simp [RegType.packed, RegType.number, regBit, regBytes]

theorem number_eq_bit_iff (entry : RegEntry) : entry.type.number = regBit ↔ entry.type = .bit := by
  cases entry.type <;> simp [RegType.number, regBit]

/-- Without wrapping, `RegCursor.place` is `start`. -/
theorem place_eq (entry : RegEntry) (ptr : 0 < ptrSize) (cursor : RegCursor)
    (fits : (entry.step ptrSize cursor).offset < 4294967296) :
    cursor.place ptrSize entry.type.number (entry.size ptrSize) = entry.start ptrSize cursor := by
  by_cases packed : entry.type.packed = true
  · rw [RegCursor.place, if_neg (by have := entry.packed_iff.mp packed; omega), start, if_pos packed]
  · have whole : entry.type ≠ .bit := fun bit => packed (packed_bit bit)
    have number := mt entry.packed_iff.mpr packed
    rw [step_whole whole, start, if_neg packed] at fits
    rw [RegCursor.place, if_pos (by omega), start, if_neg packed]
    have positive := entry.size_pos ptr
    have unit : 0 < min (entry.size ptrSize) ptrSize := by omega
    have align : (if entry.size ptrSize < ptrSize then entry.size ptrSize - 1 else ptrSize - 1) =
        min (entry.size ptrSize) ptrSize - 1 := by
      split <;> omega
    have again : min (entry.size ptrSize) ptrSize - 1 + 1 = min (entry.size ptrSize) ptrSize := by omega
    dsimp only at fits ⊢
    rw [align, again]
    split
    · rename_i started
      rw [if_pos started] at fits
      have up := le_roundUp unit (cursor.offset + 1)
      have next : u32 (cursor.offset + 1) = cursor.offset + 1 := Nat.mod_eq_of_lt (by omega)
      rw [next, roundUp_u32 unit (by omega)]
    · rename_i whole
      rw [if_neg whole] at fits
      rw [roundUp_u32 unit (by omega)]

/-- Without wrapping, `RegCursor.advance` is `next`. -/
theorem advance_eq (entry : RegEntry) (cursor : RegCursor)
    (fits : (entry.next ptrSize cursor).offset < 4294967296) :
    cursor.advance entry.type.number (entry.size ptrSize) = entry.next ptrSize cursor := by
  unfold RegCursor.advance next at *
  by_cases bit : entry.type = .bit
  · rw [if_pos bit] at fits ⊢
    rw [if_pos (entry.number_eq_bit_iff.mpr bit)]
    split
    · rename_i full
      rw [if_pos full] at fits
      rw [show u32 (cursor.offset + 1) = cursor.offset + 1 from Nat.mod_eq_of_lt fits]
    · rfl
  · rw [if_neg bit] at fits ⊢
    rw [if_neg (mt entry.number_eq_bit_iff.mp bit)]
    rw [show u32 (cursor.offset + entry.size ptrSize) = cursor.offset + entry.size ptrSize from
      Nat.mod_eq_of_lt fits]

theorem visit_eq (entry : RegEntry) (ptr : 0 < ptrSize) (cursor : RegCursor)
    (fits : (entry.step ptrSize cursor).offset < 4294967296)
    (rest : RegCursor → Except RegFault (Option RegPlace)) :
    visitRegister ptrSize reg (entry.type.number * 4096 + entry.code) (entry.size ptrSize) cursor rest =
      if entry.code = reg then .ok (some (RegSlot.toPlace ptrSize ⟨entry, entry.start ptrSize cursor⟩))
      else rest (entry.step ptrSize cursor) := by
  have small := entry.code_lt
  have number : (entry.type.number * 4096 + entry.code) / 4096 = entry.type.number := by omega
  have code : (entry.type.number * 4096 + entry.code) % 4096 = entry.code := by omega
  have positive := entry.size_pos ptr
  rw [visitRegister, if_neg (by omega), number, code]
  dsimp only
  rw [entry.place_eq ptr cursor fits, advance_eq entry _ fits]
  rfl

private theorem encode_ongoing (entry : RegEntry) : entry.type.number * 4096 + entry.code ≠ regEnd := by
  have small := entry.code_lt
  intro stops
  unfold regEnd at stops
  have zero : entry.type.number = 0 := by omega
  refine entry.ongoing ⟨?_, by unfold regEnd; omega⟩
  generalize entry.type = type at zero
  cases type <;> simp [RegType.number] at zero ⊢

/-- The scan of an entry and the rest of its description. -/
theorem findRegister_cons (entry : RegEntry) (rest : List RegEntry) (cursor : RegCursor) :
    findRegister ptrSize reg (encodeAll (entry :: rest)) cursor =
      visitRegister ptrSize reg (entry.type.number * 4096 + entry.code) (entry.size ptrSize) cursor
        (findRegister ptrSize reg (encodeAll rest)) := by
  have small := entry.code_lt
  have ongoing := entry.encode_ongoing
  have number : (entry.type.number * 4096 + entry.code) / 4096 = entry.type.number := by omega
  have split : encodeAll (entry :: rest) = entry.encode ++ encodeAll rest := by simp [encodeAll]
  have scalar : entry.type.number ≠ regBytes → entry.encode = [entry.type.number * 4096 + entry.code] →
      entry.size ptrSize = regSize ptrSize entry.type.number →
      findRegister ptrSize reg (entry.encode ++ encodeAll rest) cursor =
        visitRegister ptrSize reg (entry.type.number * 4096 + entry.code) (entry.size ptrSize) cursor
          (findRegister ptrSize reg (encodeAll rest)) := by
    intro apart encoded size
    rw [encoded, List.singleton_append, findRegister.eq_def]
    dsimp only
    rw [if_neg ongoing, number, if_neg apart, size]
  rw [split]
  cases type : entry.type with
  | bytes size =>
    rw [type] at ongoing number
    have array : (RegType.bytes size).number = regBytes := rfl
    rw [array] at ongoing number
    simp only [encode, type, List.cons_append, List.nil_append, findRegister, if_neg ongoing, if_pos number,
      RegEntry.size, RegType.size, array]
  | _ =>
    rw [type] at scalar
    exact scalar (by decide) (by rw [encode, type]) (by rw [RegEntry.size, type, RegType.size]; nofun)

/-- The scan of an encoded description is a search of the layout. -/
theorem findRegister_encodeAll (entries : List RegEntry) (ptr : 0 < ptrSize) (small : cursor.bitoffset < 8)
    (fits : (finish ptrSize entries cursor).offset < 4294967296) :
    findRegister ptrSize reg (encodeAll entries) cursor =
      .ok (((layout ptrSize entries cursor).find? fun slot => slot.entry.code = reg).map
        (RegSlot.toPlace ptrSize)) := by
  induction entries generalizing cursor with
  | nil => rfl
  | cons entry rest ih =>
    have inside := entry.step_bitoffset ptr small
    have here : (entry.step ptrSize cursor).offset < 4294967296 :=
      Nat.lt_of_le_of_lt (finish_offset rest ptr inside) fits
    rw [findRegister_cons, entry.visit_eq ptr cursor here, layout, List.find?_cons]
    by_cases found : entry.code = reg
    · simp [found]
    · simp only [found, if_false, decide_false]
      exact ih inside fits

end RegEntry

end Jacdac
