import Mathlib.Data.BitVec

/-! Cyclic redundancy checks: the remainder of a message by a polynomial, one bit at a time. -/

namespace Jacdac

namespace Crc

variable {w : Nat} {poly : BitVec w}

/-- One bit of the message. The remainder moves towards its high end; `poly` is without its leading term. -/
def shiftHigh (poly crc : BitVec w) (bit : Bool) : BitVec w := (crc <<< 1) ^^^ if crc.msb ^^ bit then poly else 0#w

/-- The reflected form: the remainder moves towards its low end. -/
def shiftLow (poly crc : BitVec w) (bit : Bool) : BitVec w := (crc >>> 1) ^^^ if crc.getLsbD 0 ^^ bit then poly else 0#w

/-- The bits of a byte, highest first. -/
def bitsHigh (byte : BitVec 8) : List Bool := (List.range 8).map byte.getMsbD

/-- The bits of a byte, lowest first. -/
def bitsLow (byte : BitVec 8) : List Bool := (List.range 8).map byte.getLsbD

/-- A step passes exclusive or on. -/
def Linear (step : BitVec w → Bool → BitVec w) : Prop :=
  ∀ first second one two, step (first ^^^ second) (one ^^ two) = step first one ^^^ step second two

/-- Steps without a message. -/
def idle (step : BitVec w → Bool → BitVec w) (count : Nat) (crc : BitVec w) : BitVec w :=
  (List.replicate count false).foldl step crc

/-- Terms of an exclusive or in another order. -/
theorem xor_shuffle (a b c d : BitVec w) : (a ^^^ b) ^^^ (c ^^^ d) = (a ^^^ c) ^^^ (b ^^^ d) := by
  ac_rfl

theorem bits_shuffle : ∀ a b c d : Bool, ((a ^^ b) ^^ (c ^^ d)) = ((a ^^ c) ^^ (b ^^ d)) := by decide

theorem select_xor (one two : Bool) :
    (if one ^^ two then poly else 0#w) = (if one then poly else 0#w) ^^^ if two then poly else 0#w := by
  cases one <;> cases two <;> simp

theorem shiftHigh_linear (poly : BitVec w) : Linear (shiftHigh poly) := by
  intro first second one two
  have top : ((first ^^^ second).msb ^^ (one ^^ two)) = ((first.msb ^^ one) ^^ (second.msb ^^ two)) := by
    rw [BitVec.msb_xor]
    exact bits_shuffle _ _ _ _
  rw [shiftHigh, shiftHigh, shiftHigh, BitVec.shiftLeft_xor_distrib, top, select_xor]
  exact xor_shuffle _ _ _ _

theorem shiftLow_linear (poly : BitVec w) : Linear (shiftLow poly) := by
  intro first second one two
  have low : ((first ^^^ second).getLsbD 0 ^^ (one ^^ two)) = ((first.getLsbD 0 ^^ one) ^^ (second.getLsbD 0 ^^ two)) := by
    rw [BitVec.getLsbD_xor]
    exact bits_shuffle _ _ _ _
  rw [shiftLow, shiftLow, shiftLow, BitVec.ushiftRight_xor_distrib, low, select_xor]
  exact xor_shuffle _ _ _ _

/-- The message passes through one of two remainders, the other one only shifts. -/
theorem Linear.foldl {step : BitVec w → Bool → BitVec w} (linear : Linear step) (bits : List Bool) (first second : BitVec w) :
    bits.foldl step (first ^^^ second) = idle step bits.length first ^^^ bits.foldl step second := by
  induction bits generalizing first second with
  | nil => rfl
  | cons bit rest ih =>
    have one := linear first second false bit
    rw [Bool.false_xor] at one
    rw [List.foldl_cons, one, ih]
    rfl

/-- A remainder that the message takes to zero may be added first instead. -/
theorem Linear.load {step : BitVec w → Bool → BitVec w} (linear : Linear step) {bits : List Bool} {load : BitVec w}
    (loaded : bits.foldl step load = 0#w) (crc : BitVec w) : bits.foldl step crc = idle step bits.length (crc ^^^ load) := by
  have whole := linear.foldl bits (crc ^^^ load) load
  rw [BitVec.xor_assoc, BitVec.xor_self, BitVec.xor_zero, loaded, BitVec.xor_zero] at whole
  exact whole

theorem Linear.idle {step : BitVec w → Bool → BitVec w} (linear : Linear step) (count : Nat) (first second : BitVec w) :
    idle step count (first ^^^ second) = idle step count first ^^^ idle step count second := by
  have whole := linear.foldl (List.replicate count false) first second
  rwa [List.length_replicate] at whole

/-- Its own bits as the message only move a remainder. -/
theorem shiftHigh_own (poly : BitVec w) (bits : List Bool) (crc : BitVec w) (few : bits.length ≤ w)
    (own : ∀ index (within : index < bits.length), crc.getMsbD index = bits[index]) :
    bits.foldl (shiftHigh poly) crc = crc <<< bits.length := by
  induction bits generalizing crc with
  | nil => exact (BitVec.shiftLeft_zero crc).symm
  | cons bit rest ih =>
    rw [List.length_cons] at few
    have top : crc.msb = bit := own 0 (Nat.zero_lt_succ _)
    have moved : shiftHigh poly crc bit = crc <<< 1 := by
      rw [shiftHigh, top, Bool.xor_self]
      exact BitVec.xor_zero
    rw [List.foldl_cons, moved, ih (crc <<< 1) (by omega), List.length_cons, Nat.add_comm, BitVec.shiftLeft_add]
    intro index within
    have later := own (index + 1) (Nat.succ_lt_succ within)
    rw [BitVec.getMsbD_shiftLeft]
    exact later

theorem shiftLow_own (poly : BitVec w) (bits : List Bool) (crc : BitVec w)
    (own : ∀ index (within : index < bits.length), crc.getLsbD index = bits[index]) :
    bits.foldl (shiftLow poly) crc = crc >>> bits.length := by
  induction bits generalizing crc with
  | nil => exact (BitVec.ushiftRight_zero crc).symm
  | cons bit rest ih =>
    have low : crc.getLsbD 0 = bit := own 0 (Nat.zero_lt_succ _)
    have moved : shiftLow poly crc bit = crc >>> 1 := by
      rw [shiftLow, low, Bool.xor_self]
      exact BitVec.xor_zero
    rw [List.foldl_cons, moved, ih (crc >>> 1), List.length_cons, Nat.add_comm, BitVec.shiftRight_add]
    intro index within
    have later := own (index + 1) (Nat.succ_lt_succ within)
    rw [BitVec.getLsbD_ushiftRight, Nat.add_comm 1]
    exact later

theorem bitsHigh_getElem (byte : BitVec 8) (index : Nat) (within : index < (bitsHigh byte).length) :
    (bitsHigh byte)[index] = byte.getMsbD index := by
  simp [bitsHigh]

theorem bitsLow_getElem (byte : BitVec 8) (index : Nat) (within : index < (bitsLow byte).length) :
    (bitsLow byte)[index] = byte.getLsbD index := by
  simp [bitsLow]

section Byte

variable {m : Nat}

theorem append_shiftLeft (first second : BitVec 8) (low : BitVec m) :
    (first ++ low) <<< 8 = (second ++ low) <<< 8 := by
  apply BitVec.eq_of_getLsbD_eq
  intro index within
  rw [BitVec.getLsbD_shiftLeft, BitVec.getLsbD_shiftLeft, BitVec.getLsbD_append, BitVec.getLsbD_append]
  by_cases outside : index < 8
  · simp [outside]
  · have behind : index - 8 < m := by omega
    simp [behind]

theorem append_shiftRight (high : BitVec m) (first second : BitVec 8) :
    (high ++ first) >>> 8 = (high ++ second) >>> 8 := by
  apply BitVec.eq_of_getLsbD_eq
  intro index within
  rw [BitVec.getLsbD_ushiftRight, BitVec.getLsbD_ushiftRight, BitVec.getLsbD_append, BitVec.getLsbD_append,
    if_neg (by omega), if_neg (by omega)]

/-- The steps of a byte when only the other half of the remainder is there. -/
theorem idle_low (poly : BitVec (8 + m)) (high : BitVec 8) (low : BitVec m) :
    idle (shiftHigh poly) 8 (0#8 ++ low) = (high ++ low) <<< 8 := by
  rw [idle, shiftHigh_own poly _ _ (by rw [List.length_replicate]; omega), List.length_replicate]
  · exact append_shiftLeft 0#8 high low
  · intro index within
    rw [List.length_replicate] at within
    rw [BitVec.getMsbD_append, if_neg (by omega), List.getElem_replicate, BitVec.getMsbD_zero]

theorem idle_high (poly : BitVec (m + 8)) (high : BitVec m) (low : BitVec 8) :
    idle (shiftLow poly) 8 (high ++ 0#8) = (high ++ low) >>> 8 := by
  rw [idle, shiftLow_own poly, List.length_replicate]
  · exact append_shiftRight high 0#8 low
  · intro index within
    rw [List.length_replicate] at within
    rw [BitVec.getLsbD_append, if_pos within, List.getElem_replicate, BitVec.getLsbD_zero]

/-- A byte of the message acts on the high byte of the remainder; the rest of it moves up. -/
theorem byteHigh (poly : BitVec (8 + m)) (high byte : BitVec 8) (low : BitVec m) :
    (bitsHigh byte).foldl (shiftHigh poly) (high ++ low) =
      idle (shiftHigh poly) 8 ((high ^^^ byte) ++ 0#m) ^^^ ((high ++ low) <<< 8) := by
  have linear := shiftHigh_linear poly
  have length : (bitsHigh byte).length = 8 := rfl
  have loaded : (bitsHigh byte).foldl (shiftHigh poly) (byte ++ 0#m) = 0#(8 + m) := by
    rw [shiftHigh_own poly _ _ (by rw [length]; omega), length, append_shiftLeft byte 0#8 0#m, BitVec.zero_append_zero,
      BitVec.zero_shiftLeft]
    intro index within
    rw [bitsHigh_getElem, BitVec.getMsbD_append, if_neg (by omega)]
  have split : (high ^^^ byte) ++ low = ((high ^^^ byte) ++ 0#m) ^^^ (0#8 ++ low) := by
    rw [BitVec.xor_append, BitVec.xor_zero, BitVec.zero_xor]
  rw [linear.load loaded, length, BitVec.xor_append, BitVec.xor_zero, split, linear.idle, idle_low poly high low]

/-- In the reflected form it acts on the low byte, and the rest moves down. -/
theorem byteLow (poly : BitVec (m + 8)) (high : BitVec m) (low byte : BitVec 8) :
    (bitsLow byte).foldl (shiftLow poly) (high ++ low) =
      idle (shiftLow poly) 8 (0#m ++ (low ^^^ byte)) ^^^ ((high ++ low) >>> 8) := by
  have linear := shiftLow_linear poly
  have length : (bitsLow byte).length = 8 := rfl
  have loaded : (bitsLow byte).foldl (shiftLow poly) (0#m ++ byte) = 0#(m + 8) := by
    rw [shiftLow_own poly, length, append_shiftRight 0#m byte 0#8, BitVec.zero_append_zero, BitVec.zero_ushiftRight]
    intro index within
    rw [bitsLow_getElem, BitVec.getLsbD_append, if_pos (by omega)]
  have split : high ++ (low ^^^ byte) = (0#m ++ (low ^^^ byte)) ^^^ (high ++ 0#8) := by
    rw [BitVec.xor_append, BitVec.xor_zero, BitVec.zero_xor]
  rw [linear.load loaded, length, BitVec.xor_append, BitVec.xor_zero, split, linear.idle, idle_high poly high low]

/-- A remainder in two parts. -/
theorem exists_append {n : Nat} (crc : BitVec (n + m)) : ∃ (high : BitVec n) (low : BitVec m), crc = high ++ low := by
  refine ⟨crc.extractLsb' m n, crc.extractLsb' 0 m, ?_⟩
  apply BitVec.eq_of_getLsbD_eq
  intro index within
  rw [BitVec.getLsbD_append]
  by_cases low : index < m
  · simp [low]
  · have rest : m + (index - m) = index := by omega
    have inside : index - m < n := by omega
    simp [low, rest, inside]

end Byte

section Room

variable {n : Nat}

/-- Zeros below the remainder stay there. -/
theorem shiftHigh_append (poly crc : BitVec w) (bit : Bool) (sized : 0 < w) :
    shiftHigh (poly ++ 0#n) (crc ++ 0#n) bit = shiftHigh poly crc bit ++ 0#n := by
  have top : (crc ++ 0#n).msb = crc.msb := by
    rw [BitVec.msb_append, if_neg (by omega)]
  have moved : (crc ++ 0#n) <<< 1 = (crc <<< 1) ++ 0#n := by
    apply BitVec.eq_of_getLsbD_eq
    intro index within
    simp [BitVec.getLsbD_append]
    grind
  rw [shiftHigh, shiftHigh, top, moved]
  cases crc.msb ^^ bit
  · simp
  · simp [BitVec.xor_append]

theorem foldl_append (poly : BitVec w) (bits : List Bool) (crc : BitVec w) (sized : 0 < w) :
    bits.foldl (shiftHigh (poly ++ 0#n)) (crc ++ 0#n) = bits.foldl (shiftHigh poly) crc ++ 0#n := by
  induction bits generalizing crc with
  | nil => rfl
  | cons bit rest ih => rw [List.foldl_cons, List.foldl_cons, shiftHigh_append poly crc bit sized, ih]

end Room

def remainder (step : BitVec w → Bool → BitVec w) (bits : BitVec 8 → List Bool) (start : BitVec w) (message : List UInt8) :
    BitVec w :=
  (message.flatMap fun byte => bits byte.toBitVec).foldl step start

/-- A loop over the bytes computes the remainder if each of its turns does. -/
theorem remainder_foldl {State : Type} {step : BitVec w → Bool → BitVec w} {bits : BitVec 8 → List Bool}
    {turn : State → UInt8 → State} {register : State → BitVec w}
    (turns : ∀ state byte, register (turn state byte) = (bits byte.toBitVec).foldl step (register state)) (state : State)
    (message : List UInt8) : register (message.foldl turn state) = remainder step bits (register state) message := by
  induction message generalizing state with
  | nil => rfl
  | cons byte rest ih =>
    rw [List.foldl_cons, ih, turns, remainder, remainder, List.flatMap_cons, List.foldl_append]

end Crc

end Jacdac
