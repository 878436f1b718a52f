import Jacdac.Numfmt.RoundTrip
import Mathlib.Tactic.IntervalCases

/-! The plain integer formats: what is written and read saturates. -/

namespace Jacdac

variable {fmt : Nat} {q value : Int}

/-- The nearest number in a range. -/
def saturate (low high value : Int) : Int := max low (min high value)

theorem saturate_inside {low high : Int} (lower : low ≤ value) (upper : value ≤ high) : saturate low high value = value := by
  rw [saturate, min_eq_right upper, max_eq_right lower]

theorem saturate_bounds {low high : Int} (order : low ≤ high) (value : Int) :
    low ≤ saturate low high value ∧ saturate low high value ≤ high :=
  ⟨le_max_left _ _, max_le order (min_le_left _ _)⟩

theorem clampInt_eq {low high : Int} (order : low ≤ high) (value : Int) : clampInt value low high = saturate low high value := by
  unfold clampInt saturate
  omega

/-- The signed formats. -/
def plainSigned (fmt : Nat) : Bool := 4 ≤ fmt

def plainLow (fmt : Nat) : Int := if plainSigned fmt then -(2 ^ (8 * jdNumfmtBytes fmt - 1)) else 0

def plainHigh (fmt : Nat) : Int :=
  if plainSigned fmt then 2 ^ (8 * jdNumfmtBytes fmt - 1) - 1 else 2 ^ (8 * jdNumfmtBytes fmt) - 1

/-- The integer stored in these bytes. -/
def plainValue (fmt : Nat) (data : List UInt8) : Int :=
  if plainSigned fmt then loadSigned (jdNumfmtBytes fmt) data else loadUnsigned (jdNumfmtBytes fmt) data

theorem plain_lt (plain : jdNumfmtIsPlainInt fmt = true) : fmt < 8 := by
  rw [jdNumfmtIsPlainInt, decide_eq_true_eq] at plain
  omega

theorem loadUnsigned_bounds (bytes : Nat) (data : List UInt8) :
    0 ≤ loadUnsigned bytes data ∧ loadUnsigned bytes data < 256 ^ bytes := by
  have small := fromLittle_lt (data.take bytes)
  have most : 256 ^ (data.take bytes).length ≤ 256 ^ bytes := Nat.pow_le_pow_right (by decide) (List.length_take_le _ _)
  have cast : ((256 ^ bytes : Nat) : Int) = 256 ^ bytes := Nat.cast_pow 256 bytes
  unfold loadUnsigned
  omega

theorem loadSigned_bounds (bytes : Nat) (data : List UInt8) :
    -(256 ^ bytes) ≤ 2 * loadSigned bytes data ∧ 2 * loadSigned bytes data < 256 ^ bytes := by
  have inside := loadUnsigned_bounds bytes data
  unfold loadUnsigned at inside
  unfold loadSigned
  dsimp only
  split <;> omega

/-- A value in the range of the format is stored as it is. -/
theorem plainValue_storeInt (plain : jdNumfmtIsPlainInt fmt = true) (lower : plainLow fmt ≤ value)
    (upper : value ≤ plainHigh fmt) : plainValue fmt (storeInt (jdNumfmtBytes fmt) value) = value := by
  have few := plain_lt plain
  have positive : 8 * jdNumfmtBytes fmt = 8 * jdNumfmtBytes fmt - 1 + 1 := by
    have some : 0 < jdNumfmtBytes fmt := Nat.two_pow_pos _
    omega
  have whole : (256 : Int) ^ jdNumfmtBytes fmt = 2 ^ (8 * jdNumfmtBytes fmt) := by
    rw [pow_mul]
    rfl
  unfold plainLow at lower
  unfold plainHigh at upper
  unfold plainValue
  split at lower
  · rename_i signed
    rw [if_pos signed] at upper ⊢
    rw [positive, pow_succ] at whole
    exact loadSigned_storeInt (by omega) (by omega)
  · rename_i unsigned
    rw [if_neg unsigned] at upper ⊢
    exact loadUnsigned_storeInt lower (by omega)

/-- What each format stores for a 32-bit number. -/
theorem writePlain_saturates (plain : jdNumfmtIsPlainInt fmt = true) (least : intMin ≤ q) (most : q ≤ intMax) :
    writePlain fmt q =
      some (storeInt (jdNumfmtBytes fmt) (saturate (max (plainLow fmt) intMin) (min (plainHigh fmt) intMax) q)) := by
  have few := plain_lt plain
  unfold intMin at least
  unfold intMax at most
  -- 0 to 5 clamp, 6 and 7 hold every 32-bit number
  interval_cases fmt
  case «6» => exact congrArg (fun value => some (storeInt 4 value)) (saturate_inside least most).symm
  case «7» => exact congrArg (fun value => some (storeInt 8 value)) (saturate_inside least most).symm
  all_goals exact congrArg (fun value => some (storeInt _ value)) (clampInt_eq (by decide) q)

/-- The test of `GET_VAL_UINT`. -/
theorem unsigned_saturates (nonneg : 0 ≤ value) : (if value > intMax then intMax else value) = saturate intMin intMax value := by
  have least : intMin ≤ 0 := by decide
  split
  · rename_i above
    rw [saturate, min_eq_left above.le, max_eq_right (by decide)]
  · rename_i below
    exact (saturate_inside (by omega) (by omega)).symm

/-- An integer of up to two bytes, or a signed one of four, is a 32-bit number. -/
theorem signed_word {bytes : Nat} (few : 256 ^ bytes ≤ (2 * intMax + 2 : Int)) (data : List UInt8) :
    loadSigned bytes data = saturate intMin intMax (loadSigned bytes data) := by
  obtain ⟨lower, upper⟩ := loadSigned_bounds bytes data
  have both : intMin = -intMax - 1 := by decide
  exact (saturate_inside (by omega) (by omega)).symm

theorem unsigned_word {bytes : Nat} (few : 256 ^ bytes ≤ intMax) (data : List UInt8) :
    loadUnsigned bytes data = saturate intMin intMax (loadUnsigned bytes data) := by
  obtain ⟨lower, upper⟩ := loadUnsigned_bounds bytes data
  have least : intMin ≤ 0 := by decide
  exact (saturate_inside (by omega) (by omega)).symm

/-- What each format reads. -/
theorem readPlain_saturates (plain : jdNumfmtIsPlainInt fmt = true) (data : List UInt8) :
    readPlain fmt data = some (saturate intMin intMax (plainValue fmt data)) := by
  have few := plain_lt plain
  interval_cases fmt
  case «0» => exact congrArg some (unsigned_word (by decide) data)
  case «1» => exact congrArg some (unsigned_word (by decide) data)
  case «2» => exact congrArg some (unsigned_saturates (loadUnsigned_bounds 4 data).1)
  case «3» => exact congrArg some (unsigned_saturates (loadUnsigned_bounds 8 data).1)
  case «4» =>
    rw [plainValue, if_pos (by decide)]
    exact congrArg some (signed_word (by decide) data)
  case «5» =>
    rw [plainValue, if_pos (by decide)]
    exact congrArg some (signed_word (by decide) data)
  case «6» =>
    rw [plainValue, if_pos (by decide)]
    exact congrArg some (signed_word (by decide) data)
  case «7» =>
    rw [plainValue, if_pos (by decide)]
    exact congrArg some (clampInt_eq (by decide) _)

theorem plainLow_le_high (plain : jdNumfmtIsPlainInt fmt = true) :
    max (plainLow fmt) intMin ≤ min (plainHigh fmt) intMax := by
  have few := plain_lt plain
  interval_cases fmt <;> decide

/-- A plain integer format saturates: a 32-bit number that was written reads back as the nearest number that both the
format and 32 bits hold, and any bytes read as the nearest 32-bit number to the integer stored in them. -/
theorem numfmt_plain_saturates (plain : jdNumfmtIsPlainInt fmt = true) :
    (∀ q, intMin ≤ q → q ≤ intMax → ∃ bytes, jdNumfmtWriteI32 fmt q = some bytes ∧
      bytes.length = jdNumfmtBytes fmt ∧
      jdNumfmtReadI32 fmt bytes = some (saturate (max (plainLow fmt) intMin) (min (plainHigh fmt) intMax) q)) ∧
    (∀ data, data.length = jdNumfmtBytes fmt →
      jdNumfmtReadI32 fmt data = some (saturate intMin intMax (plainValue fmt data))) := by
  constructor
  · intro q least most
    obtain ⟨lower, upper⟩ := saturate_bounds (plainLow_le_high plain) q
    have stored := plainValue_storeInt plain ((le_max_left _ _).trans lower) (upper.trans (min_le_left _ _))
    refine ⟨_, (if_pos plain).trans (writePlain_saturates plain least most), littleEndian_length _ _, ?_⟩
    rw [jdNumfmtReadI32, if_pos plain, readPlain_saturates plain, stored]
    exact congrArg some (saturate_inside ((le_max_right _ _).trans lower) (upper.trans (min_le_right _ _)))
  · intro data _
    exact (if_pos plain).trans (readPlain_saturates plain data)

/-- The type `i8`. -/
def plainI8 : Nat := 0b0100

theorem numfmt_plain_saturates_i8 : plainValue plainI8 [0x80] = -128 ∧
    jdNumfmtReadI32 plainI8 [0x80] = some (saturate intMin intMax (plainValue plainI8 [0x80])) :=
  ⟨by decide, (@numfmt_plain_saturates plainI8 (by decide)).2 [0x80] rfl⟩

end Jacdac
