import Jacdac.Text.Printf

/-! The text of a format and its arguments, and what the conversions leave in `buf`. -/

namespace Jacdac

namespace Text

def upperDigit (d : Nat) : UInt8 := UInt8.ofNat (if d > 9 then 65 + d - 10 else 48 + d)

/-- The last hex digits of a number, the highest first. -/
def upperDigits (count n : Nat) : List UInt8 :=
  (List.range count).reverse.map fun place => upperDigit (n / 16 ^ place % 16)

/-- No zeros before the first other digit or the last one. -/
def trimZeros : List UInt8 → List UInt8
  | 48 :: c :: rest => trimZeros (c :: rest)
  | digits => digits

def hexNumber (config : PrintfConfig) (full : Bool) (n : Nat) : List UInt8 :=
  let digits := upperDigits (config.pointerSize * 2) n
  48 :: 120 :: if full then digits else trimZeros digits

def advancedText (config : PrintfConfig) (rest : List UInt8) (args : List PrintfArg) :
    Option (List UInt8 × Nat × List PrintfArg) :=
  let used := skipFree config rest
  match rest.drop used with
  | [] => none
  | c :: rest =>
    if c = 0 then none
    else
      match conversionOf c, args with
      | .c, .word value :: args => some (cString [value.toUInt8], used + 1, args)
      | .d, .word value :: args => some (decimalText (i32 value.toNat), used + 1, args)
      | .u, .word value :: args => some (digitText value.toNat, used + 1, args)
      | .x, .word value :: args => some (hexNumber config false (config.uintptr (i32 value.toNat)), used + 1, args)
      | .p, .pointer value :: args => some (hexNumber config false value, used + 1, args)
      | .star, .word len :: .data d :: args =>
        match rest with
        | [] => none
        | c :: _ =>
          if c = 0 then none
          else if c = 112 then
            let len := (i32 len.toNat).toNat
            if d.length < len then none else some (hexText (d.take len), used + 2, args)
          else some ([63], used + 2, args)
      | .s, .string val :: args => some (cString (val.getD nullText), used + 1, args)
      | .percent, args => some ([37], used + 1, args)
      | .other, args => some ([63], used + 1, args)
      | _, _ => none

def basicText (config : PrintfConfig) (rest : List UInt8) (args : List PrintfArg) :
    Option (List UInt8 × Nat × List PrintfArg) :=
  match args, rest with
  | val :: args, c :: _ =>
    if c = 0 then none
    else
      match conversionOf c, val with
      | .c, .word value => some (cString [value.toUInt8], 1, args)
      | .d, .word value => some (decimalText (i32 value.toNat), 1, args)
      | .x, .word value => some (hexNumber config (c ≠ 120) value.toNat, 1, args)
      | .p, .pointer value => some (hexNumber config true (u32 value), 1, args)
      | .s, .string val => some (cString (val.getD nullText), 1, args)
      | .percent, _ => some ([37], 1, args)
      | .u, _ => some ([63], 1, args)
      | .f, _ => some ([63], 1, args)
      | .star, _ => some ([63], 1, args)
      | .other, _ => some ([63], 1, args)
      | _, _ => none
  | _, _ => none

/-- The text of one conversion, its length in the format, and the arguments behind it. -/
def convertText (config : PrintfConfig) (rest : List UInt8) (args : List PrintfArg) :
    Option (List UInt8 × Nat × List PrintfArg) :=
  if config.advanced then advancedText config rest args else basicText config rest args

/-- The full text. There is none if the format ends in a conversion, uses `%f`, or does not match the arguments. -/
def formatText (config : PrintfConfig) (format : List UInt8) (args : List PrintfArg) : Option (List UInt8) :=
  match format with
  | [] => some []
  | c :: rest =>
    if c = 0 then some []
    else if c = 37 then
      match convertText config rest args with
      | none => none
      | some (text, used, args) => (formatText config (rest.drop used) args).map (text ++ ·)
    else (formatText config rest args).map (c :: ·)
termination_by format.length
decreasing_by
  · rw [List.length_drop, List.length_cons]
    exact Nat.lt_succ_of_le (Nat.sub_le _ _)
  · exact Nat.lt_succ_self _

theorem upperDigits_succ (count n : Nat) :
    upperDigits (count + 1) n = upperDigit ((n >>> (4 * count)) &&& 0xf) :: upperDigits count n := by
  have digit : (n >>> (4 * count)) &&& 0xf = n / 16 ^ count % 16 := by
    rw [Nat.shiftRight_eq_div_pow, Nat.pow_mul]
    exact Nat.and_two_pow_sub_one_eq_mod _ 4
  rw [digit, upperDigits, List.range_succ, List.reverse_append]
  rfl

theorem upperDigits_length (count n : Nat) : (upperDigits count n).length = count := by
  rw [upperDigits, List.length_map, List.length_reverse, List.length_range]

theorem upperDigit_ne_zero {d : Nat} (small : d < 16) : upperDigit d ≠ 0 ∧ (upperDigit d = 48 ↔ d = 0) := by
  have all : ∀ d < 16, upperDigit d ≠ 0 ∧ (upperDigit d = 48 ↔ d = 0) := by decide
  exact all d small

theorem upperDigits_ne_zero (count n : Nat) : ∀ c ∈ upperDigits count n, c ≠ 0 := by
  intro c member
  obtain ⟨place, _, rfl⟩ := List.mem_map.mp member
  exact (upperDigit_ne_zero (Nat.mod_lt _ (by decide))).1

theorem trimZeros_cons (c : UInt8) (rest : List UInt8) :
    trimZeros (c :: rest) = if c = 48 ∧ rest ≠ [] then trimZeros rest else c :: rest := by
  cases rest with
  | nil => simp [trimZeros]
  | cons next rest =>
    by_cases zero : c = 48
    · rw [zero, trimZeros, if_pos (by simp)]
    · rw [if_neg (by simp [zero]), trimZeros]
      intro _ _ same
      exact absurd (List.cons.inj same).1 zero

theorem trimZeros_sublist (digits : List UInt8) : (trimZeros digits).Sublist digits := by
  induction digits with
  | nil => exact .refl _
  | cons c rest ih =>
    rw [trimZeros_cons]
    split
    · exact ih.cons c
    · exact .refl _

/-- The loop writes the digits that are due: all of them once one is there. -/
theorem writeNumLoop_eq (buf n : Nat) (full : Bool) (left i : Nat) (memory : Memory) :
    writeNumLoop buf n full left i memory =
      let digits := if full ∨ i ≠ 0 then upperDigits left n else trimZeros (upperDigits left n)
      (i + digits.length, memory.write (buf + i) digits) := by
  induction left generalizing i memory with
  | zero =>
    have none : (if full ∨ i ≠ 0 then upperDigits 0 n else trimZeros (upperDigits 0 n)) = [] := by
      split <;> rfl
    rw [writeNumLoop, none]
    dsimp only
    rw [Memory.write_nil]
    rfl
  | succ left ih =>
    have small : ((n >>> (4 * left)) &&& 0xf) < 16 := Nat.lt_succ_of_le Nat.and_le_right
    have next := upperDigits_succ left n
    have length := upperDigits_length left n
    have step : memory.write (buf + i) [upperDigit ((n >>> (4 * left)) &&& 0xf)] =
        memory.write (buf + i) [UInt8.ofNat (if (n >>> (4 * left)) &&& 0xf > 9 then
          65 + ((n >>> (4 * left)) &&& 0xf) - 10 else 48 + ((n >>> (4 * left)) &&& 0xf))] := rfl
    rw [writeNumLoop]
    generalize (n >>> (4 * left)) &&& 0xf = d at small next step
    dsimp only
    rw [← step, next]
    by_cases due : full ∨ d ≠ 0 ∨ left = 0 ∨ i ≠ 0
    · -- from here on every digit is due
      have digits : (if full ∨ i ≠ 0 then upperDigit d :: upperDigits left n
          else trimZeros (upperDigit d :: upperDigits left n)) = upperDigit d :: upperDigits left n := by
        split
        · rfl
        · rename_i quiet
          rw [trimZeros_cons, if_neg]
          rintro ⟨zero, more⟩
          have leading := (upperDigit_ne_zero small).2.mp zero
          have longer : left ≠ 0 := fun last => more (List.eq_nil_of_length_eq_zero (by rw [length, last]))
          simp [leading, longer] at due
          exact quiet due
      rw [if_pos due, ih, if_pos (.inr (Nat.succ_ne_zero i)), digits]
      refine Prod.ext ?_ (Memory.write_append memory (buf + i) [upperDigit d] (upperDigits left n))
      dsimp only
      rw [List.length_cons, Nat.add_assoc, Nat.add_comm 1]
    · have quiet : ¬ (full ∨ i ≠ 0) := fun some => due (some.elim .inl fun started => .inr (.inr (.inr started)))
      have leading : upperDigit d = 48 := (upperDigit_ne_zero small).2.mpr (not_not.mp fun some => due (.inr (.inl some)))
      have longer : upperDigits left n ≠ [] := by
        intro none
        rw [none] at length
        exact due (.inr (.inr (.inl length.symm)))
      rw [if_neg due, ih, if_neg quiet, if_neg quiet, trimZeros_cons, if_pos ⟨leading, longer⟩]

/-- `buf` holds a string, and nothing was written behind `buf`. -/
structure Holds (config : PrintfConfig) (text : List UInt8) (before after : Memory) : Prop where
  short : text.length < config.bufSize
  nonzero : ∀ c ∈ text, c ≠ 0
  cells : after.read 0 (text.length + 1) = text ++ [0]
  outside : ∀ cell, config.bufSize ≤ cell → after cell = before cell

section Holds

variable {config : PrintfConfig} {text : List UInt8} {before middle after : Memory} {printf : Printf}

theorem PrintfConfig.bufSize_ge (config : PrintfConfig) : 16 ≤ config.bufSize ∧ config.pointerSize * 2 + 8 ≤ config.bufSize := by
  unfold bufSize pointerSize
  split
  · split <;> omega
  · split <;> omega

/-- A string stored at the start of `buf`. -/
theorem Holds.stored (short : text.length < config.bufSize) (nonzero : ∀ c ∈ text, c ≠ 0)
    (same : ∀ cell, config.bufSize ≤ cell → middle cell = before cell) :
    Holds config text before (middle.write 0 (text ++ [0])) where
  short := short
  nonzero := nonzero
  cells := Memory.read_write_block (by rw [List.length_append, List.length_singleton])
  outside := by
    intro cell beyond
    rw [Memory.write_outside (.inr (by rw [List.length_append, List.length_singleton]; omega))]
    exact same cell beyond

theorem writeBuf_holds (holds : Holds config text before printf.buf) :
    writeBuf config printf = writeN config printf text text.length := by
  have cell (offset : Nat) (within : offset < text.length + 1) : some (printf.buf (0 + offset)) = (text ++ [0])[offset]? := by
    rw [← holds.cells, Memory.read_getElem? _ _ _ _ within]
  have length : strlenLoop printf.buf 0 config.bufSize 0 = some text.length := by
    apply strlenLoop_eq _ _ (Nat.zero_le _) (by rw [Nat.zero_add]; exact holds.short)
    · intro offset within
      have stored := cell offset (Nat.lt_succ_of_lt within)
      rw [List.getElem?_append_left within, List.getElem?_eq_getElem within] at stored
      rw [Option.some.inj stored]
      exact holds.nonzero _ (List.getElem_mem _)
    · have stored := cell text.length (Nat.lt_succ_self _)
      rw [List.getElem?_concat_length] at stored
      exact Option.some.inj stored
  have read : printf.buf.read 0 text.length = text := by
    have part := congrArg (List.take text.length) holds.cells
    rw [Memory.read_take _ _ _ _ (Nat.le_succ _), List.take_left] at part
    exact part
  rw [writeBuf, length]
  dsimp only
  rw [read]

/-- The byte that the conversions clear first. -/
theorem cleared_outside (config : PrintfConfig) (before : Memory) :
    ∀ cell, config.bufSize ≤ cell → before.write 1 [0] cell = before cell := by
  intro cell beyond
  have wide := config.bufSize_ge
  exact Memory.write_outside (.inr (by rw [List.length_singleton]; omega))

theorem holds_char (config : PrintfConfig) (c : UInt8) (before : Memory) :
    Holds config (cString [c]) before ((before.write 1 [0]).write 0 [c]) := by
  have wide := config.bufSize_ge
  by_cases nul : c = 0
  · rw [nul]
    exact @Holds.stored _ [] _ _ (by rw [List.length_nil]; omega) (by simp) (cleared_outside config before)
  · have second : (before.write 1 [0]).write 0 [c] 1 = 0 := by
      rw [Memory.write_outside (.inr (by simp)), Memory.write_byte]
    rw [cString_cons nul, cString_nil]
    exact
      { short := by rw [List.length_singleton]; omega
        nonzero := by simpa using nul
        cells := by
          have pair (memory : Memory) : memory.read 0 2 = [memory 0, memory 1] := rfl
          rw [List.length_singleton, pair, Memory.write_byte, second]
          rfl
        outside := fun cell beyond => by
          rw [Memory.write_outside (.inr (by rw [List.length_singleton]; omega))]
          exact cleared_outside config before cell beyond }

theorem hexNumber_length (config : PrintfConfig) (full : Bool) (n : Nat) :
    (hexNumber config full n).length < config.bufSize := by
  have wide := config.bufSize_ge
  have digits := upperDigits_length (config.pointerSize * 2) n
  have trimmed := (trimZeros_sublist (upperDigits (config.pointerSize * 2) n)).length_le
  rw [hexNumber, List.length_cons, List.length_cons]
  split <;> omega

theorem hexNumber_nonzero (config : PrintfConfig) (full : Bool) (n : Nat) : ∀ c ∈ hexNumber config full n, c ≠ 0 := by
  have digits := upperDigits_ne_zero (config.pointerSize * 2) n
  have trimmed := (trimZeros_sublist (upperDigits (config.pointerSize * 2) n)).subset
  intro c member
  rcases List.mem_cons.mp member with rfl | member
  · decide
  · rcases List.mem_cons.mp member with rfl | member
    · decide
    · split at member
      · exact digits c member
      · exact digits c (trimmed member)

theorem hexInto_holds (config : PrintfConfig) (full : Bool) (n : Nat) (before : Memory) :
    Holds config (hexNumber config full n) before (hexInto config n full (before.write 1 [0])) := by
  have whole : hexInto config n full (before.write 1 [0]) =
      (before.write 1 [0]).write 0 (hexNumber config full n ++ [0]) := by
    have digits (text : List UInt8) (memory : Memory) :
        (((memory.write 0 [48]).write 1 [120]).write 2 text).write (2 + text.length) [0] =
          memory.write 0 (48 :: 120 :: text ++ [0]) := by
      have first := Memory.write_append memory 0 [48] [120]
      have number := Memory.write_append memory 0 [48, 120] text
      have last := Memory.write_append memory 0 (48 :: 120 :: text) [0]
      rw [List.length_cons, List.length_cons, Nat.zero_add, Nat.add_assoc, Nat.add_comm] at last
      rw [← last]
      refine congrArg (Memory.write · _ [0]) ?_
      exact (congrArg (Memory.write · 2 text) first).trans number
    rw [hexInto, writeNum, writeNumLoop_eq]
    simp only [Nat.add_zero, Nat.zero_add, ne_eq, not_true_eq_false, or_false]
    exact digits _ _
  rw [whole]
  exact .stored (hexNumber_length config full n) (hexNumber_nonzero config full n) (cleared_outside config before)

theorem holds_itoa {n : Int} (word : -2147483648 ≤ n ∧ n < 2147483648) (before : Memory) :
    ∃ after, jdItoa config.bufSize n (some 0) (before.write 1 [0]) = some after ∧ Holds config (decimalText n) before after := by
  have wide := config.bufSize_ge
  have short := decimalText_length word
  exact ⟨_, jdItoa_eq word 0 _ (by omega),
    .stored (by omega) (decimalText_nonzero n) (cleared_outside config before)⟩

theorem holds_utoa {k : Nat} (word : k < 4294967296) (before : Memory) :
    ∃ after, jdUtoa config.bufSize k (some 0) (before.write 1 [0]) = some after ∧ Holds config (digitText k) before after := by
  have wide := config.bufSize_ge
  have short := @digitText_length k (by omega)
  exact ⟨_, jdUtoa_eq k 0 _ (by omega), .stored (by omega) (digitText_nonzero k) (cleared_outside config before)⟩

end Holds

end Text

end Jacdac
