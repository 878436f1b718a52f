import Jacdac.Numfmt.Format
import Mathlib.Tactic.Linarith
import Mathlib.Tactic.FieldSimp
import Mathlib.Tactic.Ring

/-! Writing an integer in a fixed-point format and reading it back. -/

namespace Jacdac

variable {fmt : Nat} {q value low high : Int}

theorem truncate_half_nonneg (nonneg : 0 ≤ value) : truncate ((value : ℚ) + 1 / 2) = value := by
  have cast : (0 : ℚ) ≤ value := Int.cast_nonneg nonneg
  rw [truncate, if_neg (by linarith), Int.floor_eq_iff]
  constructor <;> linarith

/-- Below zero the added half moves a whole number up. -/
theorem truncate_half_neg (negative : value < 0) {fraction : ℚ} (above : 0 < fraction) (below : fraction ≤ 1) :
    truncate ((value : ℚ) + fraction) = value + 1 := by
  have cast : (value : ℚ) + 1 ≤ 0 := by exact_mod_cast negative
  by_cases zero : (value : ℚ) + fraction < 0
  · rw [truncate, if_pos zero, Int.ceil_eq_iff]
    push_cast
    constructor <;> linarith
  · have whole : (value : ℚ) + fraction = 0 := by linarith
    have last : (value : ℚ) = -1 := by linarith
    have last : value = -1 := by exact_mod_cast last
    rw [truncate, if_neg zero, whole, Int.floor_zero, last]
    rfl

theorem clampDouble_inside {vv l h : ℚ} (lower : l ≤ vv) (upper : vv ≤ h) : clampDouble vv l h = vv + 1 / 2 := by
  rw [clampDouble, if_neg (not_lt.mpr lower), if_neg (not_lt.mpr upper)]

theorem clampInt_inside {vv l h : Int} (lower : l ≤ vv) (upper : vv ≤ h) : clampInt vv l h = vv := by
  rw [clampInt, if_neg (not_lt.mpr lower), if_neg (not_lt.mpr upper)]

theorem fromLittle_storeInt (bytes : Nat) (value : Int) :
    (fromLittle ((storeInt bytes value).take bytes) : Int) = value % 256 ^ bytes := by
  have positive : (0 : Int) < 256 ^ bytes := by positivity
  have nonneg := Int.emod_nonneg value positive.ne'
  have small := Int.emod_lt_of_pos value positive
  rw [storeInt, List.take_of_length_le (by rw [littleEndian_length]), fromLittle_littleEndian]
  push_cast
  rw [Int.toNat_of_nonneg nonneg, Int.emod_eq_of_lt nonneg small]

theorem loadUnsigned_storeInt {bytes : Nat} (lower : 0 ≤ value) (upper : value < 256 ^ bytes) :
    loadUnsigned bytes (storeInt bytes value) = value := by
  rw [loadUnsigned, fromLittle_storeInt, Int.emod_eq_of_lt lower upper]

theorem loadSigned_storeInt {bytes : Nat} (lower : -(256 ^ bytes) ≤ 2 * value) (upper : 2 * value < 256 ^ bytes) :
    loadSigned bytes (storeInt bytes value) = value := by
  rw [loadSigned, fromLittle_storeInt]
  have positive : (0 : Int) < 256 ^ bytes := by positivity
  by_cases nonneg : 0 ≤ value
  · rw [Int.emod_eq_of_lt nonneg (by omega), if_pos upper]
  · have wrapped : value % 256 ^ bytes = value + 256 ^ bytes := by
      rw [← Int.add_emod_right, Int.emod_eq_of_lt (by omega) (by omega)]
    rw [wrapped, if_neg (by omega)]
    omega

theorem unsigned_back {bytes : Nat} (lower : 0 ≤ value) (upper : value ≤ high) (fits : high < 256 ^ bytes) :
    loadUnsigned bytes (storeInt bytes (clampInt value 0 high)) = value := by
  rw [clampInt_inside lower upper]
  exact loadUnsigned_storeInt lower (upper.trans_lt fits)

theorem signed_back {bytes : Nat} (lower : low ≤ value) (upper : value ≤ high) (below : -(256 ^ bytes) ≤ 2 * low)
    (above : 2 * high < 256 ^ bytes) : loadSigned bytes (storeInt bytes (clampInt value low high)) = value := by
  rw [clampInt_inside lower upper]
  exact loadSigned_storeInt (by omega) (by omega)

/-- The range of an integer type of up to 32 bits. -/
def numfmtRange (fmt : Nat) : Option (Int × Int) :=
  match fmt with
  | 0b0000 => some (0, 0xff)
  | 0b0001 => some (0, 0xffff)
  | 0b0010 => some (0, 0xffffffff)
  | 0b0100 => some (-0x80, 0x7f)
  | 0b0101 => some (-0x8000, 0x7fff)
  | 0b0110 => some (intMin, intMax)
  | _ => none

/-- The types, with their ranges. -/
theorem numfmtRange_cases (range : numfmtRange fmt = some (low, high)) :
    (fmt = 2 ∧ low = 0 ∧ high = 0xffffffff) ∨
      (fmt ≠ 2 ∧ roundedType fmt = false ∧ jdNumfmtIsPlainInt fmt = true ∧ intMin ≤ low ∧ 0 ≤ high ∧ high ≤ intMax ∧
        ∀ value, low ≤ value → value ≤ high →
          ∃ bytes, writePlain fmt value = some bytes ∧ readPlain fmt bytes = some value) := by
  unfold numfmtRange at range
  split at range
  · cases range
    exact .inr ⟨by decide, by decide, by decide, by decide, by decide, by decide, fun value lower upper =>
      ⟨_, rfl, congrArg some (unsigned_back lower upper (by decide))⟩⟩
  · cases range
    exact .inr ⟨by decide, by decide, by decide, by decide, by decide, by decide, fun value lower upper =>
      ⟨_, rfl, congrArg some (unsigned_back lower upper (by decide))⟩⟩
  · cases range
    exact .inl ⟨rfl, rfl, rfl⟩
  · cases range
    exact .inr ⟨by decide, by decide, by decide, by decide, by decide, by decide, fun value lower upper =>
      ⟨_, rfl, congrArg some (signed_back lower upper (by decide) (by decide))⟩⟩
  · cases range
    exact .inr ⟨by decide, by decide, by decide, by decide, by decide, by decide, fun value lower upper =>
      ⟨_, rfl, congrArg some (signed_back lower upper (by decide) (by decide))⟩⟩
  · cases range
    refine .inr ⟨by decide, by decide, by decide, Int.le_refl _, by decide, Int.le_refl _, fun value lower upper =>
      ⟨_, rfl, congrArg some (loadSigned_storeInt ?_ ?_)⟩⟩
    · change -4294967296 ≤ 2 * value
      change -2147483648 ≤ value at lower
      omega
    · change 2 * value < 4294967296
      change value ≤ 2147483647 at upper
      omega
  · cases range

theorem scale_up (q : Int) (shift : Nat) : (q : ℚ) * jdShiftMultiplier shift = ((q * 2 ^ shift : Int) : ℚ) := by
  rw [jdShiftMultiplier, zpow_natCast]
  push_cast
  rfl

theorem scale_down (q rest : Int) (shift : Nat) :
    ((q * 2 ^ shift + rest : Int) : ℚ) * jdShiftMultiplier (-shift) = q + rest / 2 ^ shift := by
  rw [jdShiftMultiplier, zpow_neg, zpow_natCast]
  push_cast
  field_simp

/-- What is stored for a number: the added half makes negative ones one larger. -/
def storedNumber (q : Int) (shift : Nat) : Int := q * 2 ^ shift + if q < 0 then 1 else 0

theorem truncate_scaled (q : Int) (shift : Nat) :
    truncate (((q * 2 ^ shift : Int) : ℚ) + 1 / 2) = storedNumber q shift := by
  have positive : (0 : Int) < 2 ^ shift := by positivity
  unfold storedNumber
  split
  · rename_i negative
    exact truncate_half_neg (mul_neg_of_neg_of_pos negative positive) (by norm_num) (by norm_num)
  · rename_i nonneg
    rw [add_zero]
    exact truncate_half_nonneg (mul_nonneg (by omega) positive.le)

theorem not_plain (shifted : numfmtShift fmt ≠ 0) : jdNumfmtIsPlainInt fmt = false := by
  unfold numfmtShift at shifted
  exact decide_eq_false (by omega)

theorem write_stored (shifted : numfmtShift fmt ≠ 0) (range : numfmtRange (numfmtType fmt) = some (low, high))
    (lower : low ≤ q * 2 ^ numfmtShift fmt) (upper : q * 2 ^ numfmtShift fmt ≤ high) :
    ∃ bytes, jdNumfmtWriteI32 fmt q = some bytes ∧
      jdNumfmtReadFloat fmt bytes = some ((storedNumber q (numfmtShift fmt) : ℚ) * jdShiftMultiplier (-numfmtShift fmt)) := by
  have positive : (0 : Int) < 2 ^ numfmtShift fmt := by positivity
  have least : (low : ℚ) ≤ ((q * 2 ^ numfmtShift fmt : Int) : ℚ) := Int.cast_le.mpr lower
  have most : ((q * 2 ^ numfmtShift fmt : Int) : ℚ) ≤ high := Int.cast_le.mpr upper
  rw [jdNumfmtWriteI32, not_plain shifted, if_neg Bool.false_ne_true]
  simp only [jdNumfmtWriteFloat, jdNumfmtReadFloat, if_pos shifted, scale_up]
  rcases numfmtRange_cases range with ⟨type, rfl, rfl⟩ | ⟨type, exact, plain, bottom, zero, top, back⟩
  · have nonneg : 0 ≤ q := by
      by_contra negative
      have below := mul_neg_of_neg_of_pos (Int.not_le.mp negative) positive
      omega
    have stored : storedNumber q (numfmtShift fmt) = q * 2 ^ numfmtShift fmt := by
      rw [storedNumber, if_neg (by omega), add_zero]
    rw [if_pos type, clampDouble_inside (by exact_mod_cast lower) (by exact_mod_cast upper), truncate_scaled, stored]
    refine ⟨_, rfl, ?_⟩
    rw [if_pos type, loadUnsigned_storeInt lower (by norm_num; omega)]
    rfl
  · have inside : low ≤ storedNumber q (numfmtShift fmt) ∧ storedNumber q (numfmtShift fmt) ≤ high := by
      unfold storedNumber
      split
      · rename_i negative
        have below := mul_neg_of_neg_of_pos negative positive
        omega
      · omega
    obtain ⟨bytes, written, read⟩ := back _ inside.1 inside.2
    have bottom : (intMin : ℚ) ≤ low := Int.cast_le.mpr bottom
    have top : (high : ℚ) ≤ intMax := Int.cast_le.mpr top
    rw [if_neg type, exact, if_neg Bool.false_ne_true, if_pos plain, clampDouble_inside (by linarith) (by linarith),
      truncate_scaled]
    refine ⟨bytes, written, ?_⟩
    rw [if_neg type, if_neg Bool.false_ne_true, if_pos plain, read]
    rfl

/-- Reading gives the number, or one more if it is negative. -/
theorem read_stored (shifted : numfmtShift fmt ≠ 0) (least : intMin ≤ q) (most : q ≤ intMax) :
    truncate (clampDouble ((storedNumber q (numfmtShift fmt) : ℚ) * jdShiftMultiplier (-numfmtShift fmt)) intMin intMax) =
      q + if q < 0 then 1 else 0 := by
  have low : (intMin : ℚ) ≤ q := Int.cast_le.mpr least
  have high : (q : ℚ) ≤ intMax := Int.cast_le.mpr most
  rw [storedNumber, scale_down]
  split
  · rename_i negative
    have below : (q : ℚ) + 1 ≤ 0 := by exact_mod_cast negative
    have half : (1 : ℚ) / 2 ^ numfmtShift fmt ≤ 1 / 2 := by
      have two : (2 : ℚ) ≤ 2 ^ numfmtShift fmt := le_self_pow₀ (by norm_num) shifted
      exact one_div_le_one_div_of_le (by norm_num) two
    have some : (0 : ℚ) < 1 / 2 ^ numfmtShift fmt := by positivity
    have top : (0 : ℚ) ≤ intMax := by exact_mod_cast (by decide : (0 : Int) ≤ intMax)
    rw [Int.cast_one, clampDouble_inside (by linarith) (by linarith), add_assoc]
    exact truncate_half_neg negative (by linarith) (by linarith)
  · rename_i nonneg
    rw [Int.cast_zero, zero_div, add_zero, add_zero, clampDouble_inside low high]
    exact truncate_half_nonneg (by omega)

theorem round_trip_value (shifted : 1 ≤ numfmtShift fmt) (range : numfmtRange (numfmtType fmt) = some (low, high))
    (word : intMin ≤ q ∧ q ≤ intMax) (lower : low ≤ q * 2 ^ numfmtShift fmt) (upper : q * 2 ^ numfmtShift fmt ≤ high) :
    ∃ bytes, jdNumfmtWriteI32 fmt q = some bytes ∧ jdNumfmtReadI32 fmt bytes = some (q + if q < 0 then 1 else 0) := by
  have shift : numfmtShift fmt ≠ 0 := by omega
  obtain ⟨bytes, written, stored⟩ := write_stored shift range lower upper
  refine ⟨bytes, written, ?_⟩
  rw [jdNumfmtReadI32, not_plain shift, if_neg Bool.false_ne_true, stored, Option.map_some,
    read_stored shift word.1 word.2]

/-- An integer that fits a fixed-point format is read back as it was written exactly
if it is not negative. -/
theorem numfmt_round_trip_iff (_ : jdNumfmtIsValid fmt = true) (shifted : 1 ≤ numfmtShift fmt)
    (range : numfmtRange (numfmtType fmt) = some (low, high)) (word : intMin ≤ q ∧ q ≤ intMax)
    (lower : low ≤ q * 2 ^ numfmtShift fmt) (upper : q * 2 ^ numfmtShift fmt ≤ high) :
    (∃ bytes, jdNumfmtWriteI32 fmt q = some bytes ∧ jdNumfmtReadI32 fmt bytes = some q) ↔ 0 ≤ q := by
  obtain ⟨bytes, written, read⟩ := round_trip_value shifted range word lower upper
  constructor
  · rintro ⟨other, same, back⟩
    obtain rfl := Option.some.inj (written.symm.trans same)
    have equal := Option.some.inj (read.symm.trans back)
    split at equal <;> omega
  · intro nonneg
    rw [if_neg (by omega), add_zero] at read
    exact ⟨bytes, written, read⟩

/-- The type `i16` with one fraction bit. -/
def fixedI16 : Nat := 0b10101

theorem numfmt_round_trip_iff_three :
    ∃ bytes, jdNumfmtWriteI32 fixedI16 3 = some bytes ∧ jdNumfmtReadI32 fixedI16 bytes = some 3 :=
  (numfmt_round_trip_iff (by decide) (by decide) rfl (by decide) (by decide) (by decide)).mpr (by decide)

/-- Minus three is read back as minus two. -/
theorem numfmt_negative_lost :
    ¬ ∀ fmt q low high, jdNumfmtIsValid fmt = true → 1 ≤ numfmtShift fmt →
      numfmtRange (numfmtType fmt) = some (low, high) → intMin ≤ q ∧ q ≤ intMax → low ≤ q * 2 ^ numfmtShift fmt →
      q * 2 ^ numfmtShift fmt ≤ high →
      ∃ bytes, jdNumfmtWriteI32 fmt q = some bytes ∧ jdNumfmtReadI32 fmt bytes = some q := by
  intro holds
  obtain ⟨other, same, back⟩ := holds fixedI16 (-3) _ _ (by decide) (by decide) rfl (by decide) (by decide) (by decide)
  obtain ⟨bytes, written, read⟩ := @round_trip_value fixedI16 (-3) _ _ (by decide) rfl (by decide) (by decide) (by decide)
  obtain rfl := Option.some.inj (written.symm.trans same)
  exact absurd (read.symm.trans back) (by decide)

end Jacdac
