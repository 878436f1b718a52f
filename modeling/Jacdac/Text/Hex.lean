import Jacdac.Text.Chars

/-! Hexadecimal text of `jd_util.c`. -/

namespace Jacdac

namespace Text

/-- `"0123456789abcdef"`. -/
def hexDigits : List UInt8 := [48, 49, 50, 51, 52, 53, 54, 55, 56, 57, 97, 98, 99, 100, 101, 102]

/-- The loop of `jd_to_hex`, with the NUL behind it. -/
def toHexLoop (dst : Nat) : Nat → List UInt8 → Memory → Memory
  | i, [], memory => memory.write (dst + i * 2) [0]
  | i, byte :: rest, memory =>
    let memory := memory.write (dst + i * 2) [hexDigits.getD (byte >>> 4).toNat 0]
    let memory := memory.write (dst + i * 2 + 1) [hexDigits.getD (byte &&& 0xf).toNat 0]
    toHexLoop dst (i + 1) rest memory

def jdToHex (dst : Nat) (src : List UInt8) (memory : Memory) : Memory := toHexLoop dst 0 src memory

def hexdig (signed : Bool) (c : UInt8) : Int :=
  if 48 ≤ charInt signed c ∧ charInt signed c ≤ 57 then charInt signed c - 48
  else
    let c := c ||| 0x20
    if 97 ≤ charInt signed c ∧ charInt signed c ≤ 102 then charInt signed c - 97 + 10 else -1

/-- The inner loop of `jd_from_hex`; where the list ends is a NUL. -/
def skipOther (signed : Bool) : List UInt8 → List UInt8
  | [] => []
  | c :: rest => if c ≠ 0 ∧ hexdig signed c = -1 then skipOther signed rest else c :: rest

theorem skipOther_length (signed : Bool) (src : List UInt8) : (skipOther signed src).length ≤ src.length := by
  induction src with
  | nil => exact Nat.le_refl _
  | cons c rest ih =>
    rw [skipOther]
    split
    · exact Nat.le_succ_of_le ih
    · exact Nat.le_refl _

/-- The outer loop; `prev` is the first digit of a pair, marked so that it is not zero. -/
def fromHexLoop (signed : Bool) (dst : Option Nat) (count prev : Nat) (src : List UInt8) (memory : Memory) : Nat × Memory :=
  match skipped : skipOther signed src with
  | [] => (count, memory)
  | c :: rest =>
    if c = 0 then (count, memory)
    else
      let v := (hexdig signed c).toNat
      if prev = 0 then fromHexLoop signed dst count (v <<< 4 ||| 0x100) rest memory
      else
        let memory := match dst with
          | some dst => memory.write (dst + count) [UInt8.ofNat ((prev ||| v) &&& 0xff)]
          | none => memory
        fromHexLoop signed dst (count + 1) 0 rest memory
termination_by src.length
decreasing_by
  all_goals
    have shorter := skipOther_length signed src
    rw [skipped] at shorter
    exact shorter

/-- `jd_from_hex`; without a destination only the bytes are counted. -/
def jdFromHex (signed : Bool) (dst : Option Nat) (src : List UInt8) (memory : Memory) : Nat × Memory :=
  fromHexLoop signed dst 0 0 src memory

/-- `jd_from_hex_a`: the size that it allocates at `dst`, and the bytes that it writes there. -/
def jdFromHexA (signed : Bool) (dst : Nat) (src : List UInt8) (memory : Memory) : Nat × Nat × Memory :=
  (strlen src / 2, jdFromHex signed (some dst) src memory)

/-- The two lower case digits of a byte. -/
def hexPair (byte : UInt8) : List UInt8 := [hexDigits.getD (byte >>> 4).toNat 0, hexDigits.getD (byte &&& 0xf).toNat 0]

def hexText (data : List UInt8) : List UInt8 := data.flatMap hexPair

theorem toHexLoop_eq (dst i : Nat) (data : List UInt8) (memory : Memory) :
    toHexLoop dst i data memory = memory.write (dst + i * 2) (hexText data ++ [0]) := by
  induction data generalizing i memory with
  | nil => rfl
  | cons byte rest ih =>
    have next : dst + (i + 1) * 2 = dst + i * 2 + 1 + 1 := by omega
    have pair (first second : UInt8) : (memory.write (dst + i * 2) [first]).write (dst + i * 2 + 1) [second] =
        memory.write (dst + i * 2) [first, second] := Memory.write_append memory (dst + i * 2) [first] [second]
    rw [toHexLoop, pair, ih, next]
    exact Memory.write_append memory (dst + i * 2) (hexPair byte) (hexText rest ++ [0])

theorem hexText_length (data : List UInt8) : (hexText data).length = 2 * data.length := by
  induction data with
  | nil => rfl
  | cons byte rest ih =>
    rw [List.length_cons, Nat.mul_succ, ← ih]
    rfl

/-- `jd_to_hex` writes the text and a NUL. -/
theorem jdToHex_eq (dst : Nat) (src : List UInt8) (memory : Memory) :
    jdToHex dst src memory = memory.write dst (hexText src ++ [0]) := by
  rw [jdToHex, toHexLoop_eq, Nat.zero_mul, Nat.add_zero]

/-- The value of a hex digit in either case. -/
def hexValue (c : UInt8) : Option Nat :=
  if 48 ≤ c ∧ c ≤ 57 then some (c.toNat - 48)
  else if 65 ≤ c ∧ c ≤ 70 then some (c.toNat - 55)
  else if 97 ≤ c ∧ c ≤ 102 then some (c.toNat - 87)
  else none

def isHexDigit (c : UInt8) : Bool := (hexValue c).isSome

/-- Folding the case finds exactly the hex digits, whether `char` is signed or not. -/
theorem hexdig_eq (signed : Bool) (c : UInt8) : hexdig signed c = match hexValue c with | some v => v | none => -1 := by
  have all : ∀ signed, ∀ value < 256, hexdig signed (UInt8.ofNat value) =
      match hexValue (UInt8.ofNat value) with | some v => v | none => -1 := by decide +kernel
  have one := all signed c.toNat c.toNat_lt
  rwa [UInt8.ofNat_toNat] at one

theorem hexValue_lt {c : UInt8} (digit : hexValue c = some v) : v < 16 := by
  have all : ∀ value < 256, ∀ v ∈ hexValue (UInt8.ofNat value), v < 16 := by decide +kernel
  refine all c.toNat c.toNat_lt v ?_
  rwa [UInt8.ofNat_toNat]

/-- The digits of a string. -/
def hexValues (src : List UInt8) : List Nat := (cString src).filterMap hexValue

/-- Digits in pairs; an odd one at the end is dropped. -/
def pairUp : List Nat → List UInt8
  | first :: second :: rest => UInt8.ofNat (first * 16 + second) :: pairUp rest
  | _ => []

theorem pairUp_length (values : List Nat) : (pairUp values).length = values.length / 2 := by
  fun_induction pairUp values with
  | case1 first second rest ih =>
    rw [List.length_cons, ih, List.length_cons, List.length_cons]
    omega
  | case2 values few =>
    match values, few with
    | [], _ => rfl
    | [_], _ => simp
    | first :: second :: rest, few => exact (few first second rest rfl).elim

theorem hexValues_skip (signed : Bool) (src : List UInt8) : hexValues (skipOther signed src) = hexValues src := by
  induction src with
  | nil => rfl
  | cons c rest ih =>
    rw [skipOther]
    split
    · rename_i other
      obtain ⟨nonzero, skipped⟩ := other
      rw [hexdig_eq] at skipped
      rw [ih, hexValues, hexValues, cString_cons nonzero]
      cases value : hexValue c with
      | none => rw [List.filterMap_cons_none value]
      | some v =>
        rw [value] at skipped
        have negative : (v : Int) = -1 := skipped
        omega
    · rfl

/-- The inner loop stops at the end or at a digit. -/
theorem skipOther_cons {signed : Bool} (skipped : skipOther signed src = c :: rest) : c = 0 ∨ hexdig signed c ≠ -1 := by
  induction src with
  | nil => cases skipped
  | cons first others ih =>
    rw [skipOther] at skipped
    split at skipped
    · exact ih skipped
    · rename_i stop
      obtain ⟨rfl, rfl⟩ := List.cons.inj skipped
      by_cases final : first = 0
      · exact .inl final
      · exact .inr fun other => stop ⟨final, other⟩

theorem hexValues_cons {signed : Bool} (skipped : skipOther signed src = c :: rest) (nonzero : c ≠ 0) :
    hexValue c = some (hexdig signed c).toNat ∧ hexValues src = (hexdig signed c).toNat :: hexValues rest := by
  have digit := (skipOther_cons skipped).resolve_left nonzero
  rw [hexdig_eq] at digit ⊢
  cases value : hexValue c with
  | none =>
    rw [value] at digit
    exact absurd rfl digit
  | some v =>
    refine ⟨rfl, ?_⟩
    rw [← hexValues_skip signed src, skipped, hexValues, cString_cons nonzero, List.filterMap_cons_some value]
    rfl

/-- The first digit of a pair, as it is kept. -/
def marked (first : Option Nat) : Nat :=
  match first with
  | some v => v <<< 4 ||| 0x100
  | none => 0

theorem marked_pair {first second : Nat} (one : first < 16) (two : second < 16) :
    marked (some first) ≠ 0 ∧ (marked (some first) ||| second) &&& 0xff = first * 16 + second := by
  have all : ∀ first < 16, ∀ second < 16,
      marked (some first) ≠ 0 ∧ (marked (some first) ||| second) &&& 0xff = first * 16 + second := by decide
  exact all first one second two

/-- What is left in memory. -/
def placed (dst : Option Nat) (offset : Nat) (data : List UInt8) (memory : Memory) : Memory :=
  match dst with
  | some dst => memory.write (dst + offset) data
  | none => memory

theorem placed_cons (dst : Option Nat) (offset : Nat) (byte : UInt8) (data : List UInt8) (memory : Memory) :
    placed dst (offset + 1) data (placed dst offset [byte] memory) = placed dst offset (byte :: data) memory := by
  cases dst with
  | none => rfl
  | some dst => exact Memory.write_append memory (dst + offset) [byte] data

/-- The loop with a digit pending or none. -/
theorem fromHexLoop_eq (signed : Bool) (dst : Option Nat) (count : Nat) (first : Option Nat) (small : ∀ v ∈ first, v < 16)
    (src : List UInt8) (memory : Memory) :
    fromHexLoop signed dst count (marked first) src memory =
      (count + (pairUp (first.toList ++ hexValues src)).length,
        placed dst count (pairUp (first.toList ++ hexValues src)) memory) := by
  induction size : src.length using Nat.strong_induction_on generalizing src count first memory with
  | _ size ih =>
    have nothing (ended : hexValues src = []) : (count, memory) =
        (count + (pairUp (first.toList ++ hexValues src)).length,
          placed dst count (pairUp (first.toList ++ hexValues src)) memory) := by
      rw [ended, List.append_nil]
      cases first <;> cases dst <;> simp [pairUp, placed]
    rw [fromHexLoop]
    split
    · rename_i skipped
      exact nothing (by rw [← hexValues_skip signed src, skipped]; rfl)
    · rename_i c rest skipped
      have shorter := skipOther_length signed src
      rw [skipped, List.length_cons] at shorter
      by_cases final : c = 0
      · rw [if_pos final]
        exact nothing (by rw [← hexValues_skip signed src, skipped, final]; rfl)
      · rw [if_neg final]
        obtain ⟨digit, values⟩ := hexValues_cons skipped final
        have small' := hexValue_lt digit
        cases first with
        | none =>
          have next := ih rest.length (by omega) count (some (hexdig signed c).toNat)
            (fun v member => by cases member; exact small') rest memory rfl
          rw [values]
          exact next
        | some v =>
          obtain ⟨kept, pair⟩ := marked_pair (small v rfl) small'
          have next := ih rest.length (by omega) (count + 1) none (fun v never => by cases never) rest
            (placed dst count [UInt8.ofNat (v * 16 + (hexdig signed c).toNat)] memory) rfl
          rw [placed_cons] at next
          dsimp only
          rw [if_neg kept, pair, values]
          refine Eq.trans ?_ (next.trans ?_)
          · cases dst <;> rfl
          · rw [Option.toList_some, Option.toList_none, List.nil_append, List.singleton_append, pairUp, List.length_cons,
              Nat.add_assoc, Nat.add_comm 1]

/-- `jd_from_hex` reads the digits in pairs and passes over all else. -/
theorem jdFromHex_eq (signed : Bool) (dst : Option Nat) (src : List UInt8) (memory : Memory) :
    jdFromHex signed dst src memory =
      ((pairUp (hexValues src)).length, placed dst 0 (pairUp (hexValues src)) memory) := by
  have whole := fromHexLoop_eq signed dst 0 none (fun v never => by cases never) src memory
  rw [Nat.zero_add] at whole
  exact whole

def lowerCase (c : UInt8) : UInt8 := if 65 ≤ c ∧ c ≤ 90 then c + 32 else c

theorem hexValue_lowerCase (c : UInt8) : hexValue (lowerCase c) = hexValue c := by
  have all : ∀ value < 256, hexValue (lowerCase (UInt8.ofNat value)) = hexValue (UInt8.ofNat value) := by decide +kernel
  have one := all c.toNat c.toNat_lt
  rwa [UInt8.ofNat_toNat] at one

theorem filterMap_digits (text : List UInt8) :
    ((text.filter isHexDigit).map lowerCase).filterMap hexValue = text.filterMap hexValue := by
  induction text with
  | nil => rfl
  | cons c rest ih =>
    cases value : hexValue c with
    | none =>
      have other : ¬ isHexDigit c = true := by rw [isHexDigit, value]; decide
      rw [List.filter_cons_of_neg other, List.filterMap_cons_none value, ih]
    | some v =>
      have digit : isHexDigit c = true := by rw [isHexDigit, value]; rfl
      rw [List.filter_cons_of_pos digit, List.map_cons, List.filterMap_cons_some ((hexValue_lowerCase c).trans value),
        List.filterMap_cons_some value, ih]

theorem hexPair_values (byte : UInt8) : ∃ high low, (hexPair byte).filterMap hexValue = [high, low] ∧
    UInt8.ofNat (high * 16 + low) = byte := by
  have all : ∀ value < 256, (hexPair (UInt8.ofNat value)).filterMap hexValue = [value / 16, value % 16] := by
    decide +kernel
  have one := all byte.toNat byte.toNat_lt
  rw [UInt8.ofNat_toNat] at one
  refine ⟨_, _, one, ?_⟩
  rw [Nat.div_add_mod', UInt8.ofNat_toNat]

theorem pairUp_hexText (data : List UInt8) : pairUp ((hexText data).filterMap hexValue) = data := by
  induction data with
  | nil => rfl
  | cons byte rest ih =>
    obtain ⟨high, low, values, same⟩ := hexPair_values byte
    rw [hexText, List.flatMap_cons, List.filterMap_append, values, ← hexText]
    exact congrArg₂ List.cons same ih

theorem hexValues_length (src : List UInt8) : (hexValues src).length = (cString src).countP isHexDigit := by
  rw [hexValues, List.length_filterMap_eq_countP]
  rfl

theorem hexPair_nonzero (byte : UInt8) : ∀ c ∈ hexPair byte, c ≠ 0 := by
  have all : ∀ value < 256, ∀ c ∈ hexPair (UInt8.ofNat value), c ≠ 0 := by decide +kernel
  have one := all byte.toNat byte.toNat_lt
  rwa [UInt8.ofNat_toNat] at one

/-- The text ends at its own NUL. -/
theorem cString_hexText (data : List UInt8) : cString (hexText data ++ [0]) = hexText data := by
  have nonzero : ∀ c ∈ hexText data, decide (c ≠ 0) = true := by
    intro c member
    obtain ⟨byte, _, digit⟩ := List.mem_flatMap.mp member
    exact decide_eq_true (hexPair_nonzero byte c digit)
  rw [cString, List.takeWhile_append_of_pos nonzero]
  exact List.append_nil _

/-- Decoding inverts encoding whatever else stands between the digits, and in either case; the number of bytes is half
that of the digits of the string, with or without a destination, and never more than what `jd_from_hex_a` allocates. -/
theorem hex_decoding_inverts (signed : Bool) :
    (∀ src dst memory, jdToHex dst src memory = memory.write dst (hexText src ++ [0]) ∧
      cString (hexText src ++ [0]) = hexText src) ∧
    (∀ data text dst memory, ((cString text).filter isHexDigit).map lowerCase = hexText data →
      jdFromHex signed (some dst) text memory = (data.length, memory.write dst data)) ∧
    ∀ s dst memory, (jdFromHex signed dst s memory).1 = (cString s).countP isHexDigit / 2 ∧
      (jdFromHex signed dst s memory).1 = (jdFromHex signed none s memory).1 ∧
      (jdFromHex signed dst s memory).1 ≤ strlen s / 2 ∧ ∀ r, (jdFromHexA signed r s memory).1 = strlen s / 2 := by
  refine ⟨fun src dst memory => ⟨jdToHex_eq dst src memory, cString_hexText src⟩, ?_, ?_⟩
  · intro data text dst memory digits
    have same : pairUp (hexValues text) = data := by
      rw [hexValues, ← filterMap_digits, digits, pairUp_hexText]
    rw [jdFromHex_eq, same]
    rfl
  · intro s dst memory
    have count := hexValues_length s
    have few : (cString s).countP isHexDigit ≤ strlen s := List.countP_le_length
    rw [jdFromHex_eq, jdFromHex_eq]
    dsimp only
    rw [pairUp_length, count]
    exact ⟨rfl, rfl, Nat.div_le_div_right few, fun _ => rfl⟩

/-- The digits of `af:0` and a space, in mixed case. -/
def spacedHex : List UInt8 := [65, 102, 58, 48, 32, 49, 0]

theorem hex_decoding_inverts_spaced :
    jdFromHex true (some 8) spacedHex (fun _ => 0) = (2, Memory.write (fun _ => 0) 8 [0xaf, 0x01]) :=
  (hex_decoding_inverts true).2.1 [0xaf, 0x01] spacedHex 8 (fun _ => 0) (by decide)

end Text

end Jacdac
