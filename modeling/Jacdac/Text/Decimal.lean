import Jacdac.Base.Signed
import Jacdac.Frame.Packets
import Jacdac.Text.Chars

/-! Decimal text of `jd_util.c`, with arithmetic that wraps around. -/

namespace Jacdac

namespace Text

/-- The loop of `strlen`; `none` means that the NUL is further away. -/
def strlenLoop (memory : Memory) (s : Nat) : Nat → Nat → Option Nat
  | 0, _ => none
  | limit + 1, count => if memory (s + count) = 0 then some count else strlenLoop memory s limit (count + 1)

/-- The loop of `jd_string_reverse`. -/
def reverseLoop (s j : Nat) (memory : Memory) : Memory :=
  if s < j then
    let c := memory s
    reverseLoop (s + 1) (j - 1) ((memory.write s [memory j]).write j [c])
  else memory
termination_by j - s

/-- `jd_string_reverse`; `none` as a pointer is `NULL`. -/
def jdStringReverse (limit : Nat) (s : Option Nat) (memory : Memory) : Option Memory :=
  match s with
  | none => some memory
  | some s => (strlenLoop memory s limit 0).map fun length => reverseLoop s (s + length - 1) memory

/-- The loop of `jd_utoa`: the pointer behind the digits, lowest first. -/
def utoaLoop (k s : Nat) (memory : Memory) : Nat × Memory :=
  let memory := memory.write s [UInt8.ofNat (k % 10 + 48)]
  if k / 10 > 0 then utoaLoop (k / 10) (s + 1) memory else (s + 1, memory)
termination_by k

def jdUtoa (limit k : Nat) (s : Option Nat) (memory : Memory) : Option Memory :=
  match s with
  | none => some memory
  | some s0 =>
    let (s, memory) := utoaLoop k s0 memory
    jdStringReverse limit (some s0) (memory.write s [0])

def jdItoa (limit : Nat) (n : Int) (s : Option Nat) (memory : Memory) : Option Memory :=
  match s with
  | none => some memory
  | some s =>
    if n < 0 then jdUtoa limit (i32 (-n) % 4294967296).toNat (some (s + 1)) (memory.write s [45])
    else jdUtoa limit n.toNat (some s) memory

/-- The loop of `jd_atoi`. -/
def atoiLoop (signed : Bool) (r : Int) : List UInt8 → Int
  | [] => r
  | c :: rest =>
    let k := charInt signed c - 48
    if 0 ≤ k ∧ k ≤ 9 then atoiLoop signed (i32 (i32 (r * 10) + k)) rest else r

def jdAtoi (signed : Bool) : List UInt8 → Int
  | 45 :: rest => i32 (-atoiLoop signed 0 rest)
  | s => atoiLoop signed 0 s

/-- The canonical decimal text of a number. -/
def decimalText (n : Int) : List UInt8 := (toString n).toList.map fun c => UInt8.ofNat c.toNat

/-- The digits of a natural number. -/
def digitText (k : Nat) : List UInt8 := (Nat.toDigits 10 k).map fun c => UInt8.ofNat c.toNat

theorem decimalText_nonneg {n : Int} (nonneg : 0 ≤ n) : decimalText n = digitText n.toNat := by
  obtain ⟨k, rfl⟩ := Int.eq_ofNat_of_zero_le nonneg
  exact congrArg (List.map _) Nat.toList_repr

theorem decimalText_neg {n : Int} (negative : n < 0) : decimalText n = 45 :: digitText (-n).toNat := by
  obtain ⟨k, rfl⟩ := Int.eq_negSucc_of_lt_zero negative
  have text : toString (Int.negSucc k) = "-" ++ Nat.repr (k + 1) := rfl
  rw [decimalText, text, String.toList_append, Nat.toList_repr, List.map_append]
  rfl

theorem digitText_eq (k : Nat) :
    digitText k = (if k < 10 then [] else digitText (k / 10)) ++ [UInt8.ofNat (k % 10 + 48)] := by
  have digit : ∀ d < 10, UInt8.ofNat (Nat.digitChar d).toNat = UInt8.ofNat (d + 48) := by decide
  rw [digitText, Nat.toDigits_eq_if (by decide)]
  by_cases small : k < 10
  · rw [if_pos small, if_pos small, Nat.mod_eq_of_lt small, List.map_singleton, digit k small, List.nil_append]
  · rw [if_neg small, if_neg small, List.map_append, List.map_singleton, digit _ (Nat.mod_lt k (by decide)), digitText]

theorem digitText_length_pos (k : Nat) : 0 < (digitText k).length := by
  rw [digitText, List.length_map]
  exact Nat.length_toDigits_pos

theorem digitText_digits (k : Nat) : ∀ c ∈ digitText k, 48 ≤ c.toNat ∧ c.toNat ≤ 57 := by
  induction k using Nat.strong_induction_on with
  | _ k ih =>
    intro c member
    rw [digitText_eq] at member
    rcases List.mem_append.mp member with early | last
    · split at early
      · cases early
      · exact ih (k / 10) (by omega) c early
    · rw [List.mem_singleton.mp last, UInt8.toNat_ofNat']
      omega

theorem digitText_nonzero (k : Nat) : ∀ c ∈ digitText k, c ≠ 0 := by
  intro c member zero
  have digit := digitText_digits k c member
  rw [zero] at digit
  exact absurd digit.1 (by decide)

theorem decimalText_nonzero (n : Int) : ∀ c ∈ decimalText n, c ≠ 0 := by
  intro c member
  by_cases negative : n < 0
  · rw [decimalText_neg negative] at member
    rcases List.mem_cons.mp member with rfl | digit
    · decide
    · exact digitText_nonzero _ c digit
  · rw [decimalText_nonneg (by omega)] at member
    exact digitText_nonzero _ c member

/-- Only zero starts with a zero. -/
theorem digitText_head (k : Nat) (positive : 0 < k) : (digitText k).head? ≠ some 48 := by
  induction k using Nat.strong_induction_on with
  | _ k ih =>
    rw [digitText_eq]
    by_cases small : k < 10
    · have digit : ∀ d < 10, 0 < d → UInt8.ofNat (d % 10 + 48) ≠ 48 := by decide
      rw [if_pos small, List.nil_append, List.head?_cons]
      exact fun same => digit k small positive (Option.some.inj same)
    · have some := List.ne_nil_of_length_pos (digitText_length_pos (k / 10))
      rw [if_neg small, List.head?_append_of_ne_nil _ some]
      exact ih (k / 10) (by omega) (by omega)

theorem utoaLoop_eq (k s : Nat) (memory : Memory) :
    utoaLoop k s memory = (s + (digitText k).length, memory.write s (digitText k).reverse) := by
  induction k using Nat.strong_induction_on generalizing s memory with
  | _ k ih =>
    rw [utoaLoop, digitText_eq]
    by_cases small : k < 10
    · rw [if_neg (by omega), if_pos small]
      rfl
    · rw [if_pos (by omega), if_neg small, ih (k / 10) (by omega), List.reverse_append, List.length_append,
        List.length_singleton, Nat.add_right_comm, Nat.add_assoc]
      exact congrArg _ (Memory.write_append memory s [UInt8.ofNat (k % 10 + 48)] (digitText (k / 10)).reverse)

theorem strlenLoop_eq {memory : Memory} {s length : Nat} (nonzero : ∀ offset < length, memory (s + offset) ≠ 0)
    (nul : memory (s + length) = 0) {limit count : Nat} (before : count ≤ length) (enough : length < count + limit) :
    strlenLoop memory s limit count = some length := by
  induction limit generalizing count with
  | zero => omega
  | succ limit ih =>
    rw [strlenLoop]
    by_cases here : count = length
    · rw [here, if_pos nul]
    · rw [if_neg (nonzero count (by omega))]
      exact ih (by omega) (by omega)

/-- Each cell gets the one at the same distance from the other end. -/
theorem reverseLoop_cell (s j : Nat) (memory : Memory) (cell : Nat) :
    reverseLoop s j memory cell = if s ≤ cell ∧ cell ≤ j then memory (s + j - cell) else memory cell := by
  fun_induction reverseLoop s j memory with
  | case1 s j memory more c ih =>
    have swapped (other : Nat) : ((memory.write s [memory j]).write j [c]) other =
        if other = j then memory s else if other = s then memory j else memory other := by
      by_cases last : other = j
      · rw [if_pos last, last]
        exact Memory.write_byte _ j c
      · rw [if_neg last, Memory.write_outside (by rw [List.length_singleton]; omega)]
        by_cases first : other = s
        · rw [if_pos first, first]
          exact Memory.write_byte memory s _
        · rw [if_neg first, Memory.write_outside (by rw [List.length_singleton]; omega)]
    rw [ih, swapped, swapped]
    by_cases inside : s ≤ cell ∧ cell ≤ j
    · rw [if_pos inside]
      by_cases first : cell = s
      · rw [if_neg (by omega), if_neg (by omega), if_pos first, first, Nat.add_sub_cancel_left]
      · by_cases last : cell = j
        · rw [if_neg (by omega), if_pos last, last, Nat.add_sub_cancel]
        · have mirrored : s + 1 + (j - 1) - cell = s + j - cell := by omega
          rw [if_pos (by omega), mirrored, if_neg (by omega), if_neg (by omega)]
    · rw [if_neg inside, if_neg (by omega), if_neg (by omega), if_neg (by omega)]
  | case2 s j memory done =>
    split
    · rename_i inside
      have same : s + j - cell = cell := by omega
      rw [same]
    · rfl

/-- A string in memory is turned round in its place. -/
theorem jdStringReverse_eq {text : List UInt8} (filled : 0 < text.length) (nonzero : ∀ c ∈ text, c ≠ 0) (s : Nat)
    (memory : Memory) {limit : Nat} (enough : text.length < limit) :
    jdStringReverse limit (some s) (memory.write s (text ++ [0])) = some (memory.write s (text.reverse ++ [0])) := by
  have cell (offset : Nat) (within : offset < text.length) :
      memory.write s (text ++ [0]) (s + offset) = text[offset] := by
    rw [Memory.write_inside (by rw [List.length_append]; omega), List.getElem_append_left within]
  have nul : memory.write s (text ++ [0]) (s + text.length) = 0 := by
    rw [Memory.write_inside (by rw [List.length_append]; exact Nat.lt_succ_self _), List.getElem_concat_length rfl]
  have length : strlenLoop (memory.write s (text ++ [0])) s limit 0 = some text.length :=
    strlenLoop_eq (fun offset within => cell offset within ▸ nonzero _ (List.getElem_mem _)) nul (Nat.zero_le _) (by omega)
  rw [jdStringReverse, length, Option.map_some]
  refine congrArg some (funext fun other => ?_)
  rw [reverseLoop_cell]
  by_cases before : other < s
  · rw [if_neg (by omega), Memory.write_outside (.inl before), Memory.write_outside (.inl before)]
  · obtain ⟨offset, rfl⟩ := Nat.exists_eq_add_of_le (Nat.le_of_not_lt before)
    by_cases within : offset < text.length
    · have mirrored : s + (s + text.length - 1) - (s + offset) = s + (text.length - 1 - offset) := by omega
      have reversed : offset < text.reverse.length := by rwa [List.length_reverse]
      rw [if_pos (by omega), mirrored, cell _ (by omega), Memory.write_inside (by rw [List.length_append]; omega),
        List.getElem_append_left reversed, List.getElem_reverse]
    · rw [if_neg (by omega)]
      by_cases final : offset = text.length
      · have last : offset = text.reverse.length := by rwa [List.length_reverse]
        rw [final, nul, ← final, last, Memory.write_inside (by rw [List.length_append]; exact Nat.lt_succ_self _),
          List.getElem_concat_length rfl]
      · rw [Memory.write_outside (.inr (by rw [List.length_append, List.length_singleton]; omega)),
          Memory.write_outside (.inr (by rw [List.length_append, List.length_singleton, List.length_reverse]; omega))]

theorem jdUtoa_eq (k s : Nat) (memory : Memory) {limit : Nat} (enough : (digitText k).length < limit) :
    jdUtoa limit k (some s) memory = some (memory.write s (digitText k ++ [0])) := by
  have nonzero : ∀ c ∈ (digitText k).reverse, c ≠ 0 := fun c member => digitText_nonzero k c (List.mem_reverse.mp member)
  have written := Memory.write_append memory s (digitText k).reverse [0]
  rw [List.length_reverse] at written
  have turned := @jdStringReverse_eq _ (by rw [List.length_reverse]; exact digitText_length_pos k) nonzero s memory
    limit (by rwa [List.length_reverse])
  rw [List.reverse_reverse] at turned
  rw [jdUtoa, utoaLoop_eq]
  dsimp only
  rw [written]
  exact turned

/-- `jd_itoa` writes the canonical text, at the least number too. -/
theorem jdItoa_eq {n : Int} (word : -2147483648 ≤ n ∧ n < 2147483648) (s : Nat) (memory : Memory) {limit : Nat}
    (enough : (decimalText n).length < limit) :
    jdItoa limit n (some s) memory = some (memory.write s (decimalText n ++ [0])) := by
  by_cases negative : n < 0
  · -- the negation of the least number is itself, and its bits are those of the magnitude
    have magnitude : i32 (-n) % 4294967296 = -n := by
      unfold i32
      omega
    rw [decimalText_neg negative] at enough ⊢
    rw [jdItoa, if_pos negative, magnitude, jdUtoa_eq _ _ _ (Nat.lt_of_succ_lt enough)]
    exact congrArg some (Memory.write_append memory s [45] (digitText (-n).toNat ++ [0]))
  · rw [decimalText_nonneg (by omega)] at enough ⊢
    rw [jdItoa, if_neg negative, jdUtoa_eq _ _ _ enough]

theorem charInt_low (signed : Bool) {c : UInt8} (low : c.toNat < 128) : charInt signed c = c.toNat := by
  rw [charInt, if_neg]
  rintro ⟨_, high⟩
  have above : 128 ≤ c.toNat := high
  omega

/-- Reading the digits of `k` leaves its low 32 bits. -/
theorem atoiLoop_digits (signed : Bool) (k : Nat) (rest : List UInt8) :
    atoiLoop signed 0 (digitText k ++ rest) = atoiLoop signed (i32 k) rest := by
  induction k using Nat.strong_induction_on generalizing rest with
  | _ k ih =>
    have value : (UInt8.ofNat (k % 10 + 48)).toNat = k % 10 + 48 := by
      rw [UInt8.toNat_ofNat']
      omega
    have one (r : Int) : atoiLoop signed r (UInt8.ofNat (k % 10 + 48) :: rest) =
        atoiLoop signed (i32 (i32 (r * 10) + ((k % 10 + 48 : Nat) - 48))) rest := by
      rw [atoiLoop, charInt_low signed (by omega), value]
      exact if_pos (by omega)
    rw [digitText_eq]
    by_cases small : k < 10
    · have sum : i32 (i32 (0 * 10) + ((k % 10 + 48 : Nat) - 48)) = i32 k := by
        unfold i32
        omega
      rw [if_pos small, List.nil_append, List.singleton_append, one, sum]
    · have sum : i32 (i32 (i32 (k / 10 : Nat) * 10) + ((k % 10 + 48 : Nat) - 48)) = i32 k := by
        unfold i32
        omega
      rw [if_neg small, List.append_assoc, List.singleton_append, ih (k / 10) (by omega), one, sum]

def NonDigit (c : UInt8) : Prop := c < 48 ∨ 57 < c

theorem atoiLoop_stop (signed : Bool) {c : UInt8} (stop : NonDigit c) (r : Int) (rest : List UInt8) :
    atoiLoop signed r (c :: rest) = r := by
  have outside : ¬ (0 ≤ charInt signed c - 48 ∧ charInt signed c - 48 ≤ 9) := by
    have small := c.toNat_lt
    have away : c.toNat < 48 ∨ 57 < c.toNat := stop
    unfold charInt
    split <;> omega
  exact if_neg outside

theorem jdAtoi_digits (signed : Bool) (k : Nat) {c : UInt8} (stop : NonDigit c) (rest : List UInt8) :
    jdAtoi signed (digitText k ++ c :: rest) = i32 k := by
  have some := digitText_length_pos k
  have digits := digitText_digits k
  have loop := atoiLoop_digits signed k (c :: rest)
  rw [atoiLoop_stop signed stop] at loop
  cases text : digitText k with
  | nil =>
    rw [text] at some
    cases some
  | cons first others =>
    rw [text] at digits loop
    have digit := (digits first List.mem_cons_self).1
    rw [← loop, List.cons_append, jdAtoi]
    intro more same
    rw [(List.cons.inj same).1] at digit
    exact absurd digit (by decide)

theorem jdAtoi_decimal (signed : Bool) {n : Int} (word : -2147483648 ≤ n ∧ n < 2147483648) {c : UInt8} (stop : NonDigit c)
    (rest : List UInt8) : jdAtoi signed (decimalText n ++ c :: rest) = n := by
  by_cases negative : n < 0
  · rw [decimalText_neg negative, List.cons_append, jdAtoi, atoiLoop_digits, atoiLoop_stop signed stop]
    unfold i32
    omega
  · rw [decimalText_nonneg (by omega), jdAtoi_digits signed _ stop]
    unfold i32
    omega

theorem digitText_length {k : Nat} (small : k < 10 ^ 10) : (digitText k).length ≤ 10 := by
  rw [digitText, List.length_map]
  exact (Nat.length_toDigits_le_iff (by decide) (by decide)).mpr small

theorem decimalText_length {n : Int} (word : -2147483648 ≤ n ∧ n < 2147483648) : (decimalText n).length ≤ 11 := by
  by_cases negative : n < 0
  · have digits := @digitText_length (-n).toNat (by omega)
    rw [decimalText_neg negative, List.length_cons]
    omega
  · have digits := @digitText_length n.toNat (by omega)
    rw [decimalText_nonneg (by omega)]
    omega

/-- A sign before negative numbers only, then digits of which the first is zero for zero only. -/
theorem decimalText_shape (n : Int) : ∃ digits, decimalText n = (if n < 0 then [45] else []) ++ digits ∧
    (∀ c ∈ digits, 48 ≤ c.toNat ∧ c.toNat ≤ 57) ∧ (n ≠ 0 → digits.head? ≠ some 48) := by
  by_cases negative : n < 0
  · refine ⟨digitText (-n).toNat, ?_, digitText_digits _, fun _ => digitText_head _ (by omega)⟩
    rw [if_pos negative]
    exact decimalText_neg negative
  · refine ⟨digitText n.toNat, ?_, digitText_digits _, fun nonzero => digitText_head _ (by omega)⟩
    rw [if_neg negative]
    exact decimalText_nonneg (by omega)

/-- For every 32-bit number `jd_itoa` writes the canonical decimal text and a NUL, 12 bytes at most, and `jd_atoi` reads the
number back from that text with any byte behind it that is no digit. -/
theorem decimal_round_trips {n : Int} (word : -2147483648 ≤ n ∧ n < 2147483648) (signed : Bool) :
    (∀ s memory limit, 12 ≤ limit →
      jdItoa limit n (some s) memory = some (memory.write s (decimalText n ++ [0]))) ∧
    (decimalText n ++ [0]).length ≤ 12 ∧
    (∃ digits, decimalText n = (if n < 0 then [45] else []) ++ digits ∧
      (∀ c ∈ digits, 48 ≤ c.toNat ∧ c.toNat ≤ 57) ∧ (n ≠ 0 → digits.head? ≠ some 48)) ∧
    ∀ c rest, NonDigit c → jdAtoi signed (decimalText n ++ c :: rest) = n := by
  have short := decimalText_length word
  refine ⟨fun s memory limit enough => jdItoa_eq word s memory (by omega), ?_, decimalText_shape n,
    fun c rest stop => jdAtoi_decimal signed word stop rest⟩
  rw [List.length_append, List.length_singleton]
  omega

theorem decimal_round_trips_least :
    jdItoa 12 (-2147483648) (some 4) (fun _ => 0) = some (Memory.write (fun _ => 0) 4 (decimalText (-2147483648) ++ [0])) :=
  (decimal_round_trips (by decide) true).1 4 (fun _ => 0) 12 (Nat.le_refl _)

end Text

end Jacdac
