import Mathlib.Tactic.Ring

/-! `limit_intensity`: the brightness is lowered until the estimated current is
within the power budget. The divisor is the sum of the pixels without its low
eight bits, so it can be zero, and the quotient can be too large. -/

namespace Jacdac

def scale0 (c i : Nat) : Nat := c % 256 * (1 + i % 256) / 256

/-- What `limit_intensity` reads: the pixel bytes and the registers. No product
leaves the range of an `int`. -/
structure LedPower where
  px : List UInt8
  numpixels : Nat
  intensity : UInt8
  requestedIntensity : UInt8
  maxpower : UInt16
  size : px.length = 3 * numpixels
  numpixels_le : numpixels ≤ 4096

namespace LedPower

/-- The estimated current at an intensity, 46uA a step. -/
def current (power : LedPower) (intensity : Nat) : Nat := 46 * (power.px.map fun v => scale0 v.toNat intensity).sum

def currentFull (power : LedPower) : Nat := 46 * (power.px.map UInt8.toNat).sum

def currentLimit (power : LedPower) : Int := (power.maxpower.toNat * 1000 : Nat) - (14000 + 930 * power.numpixels : Nat)

/-- The intensity one step up, as far as requested. -/
def raised (power : LedPower) : Nat :=
  let intensity := power.intensity.toNat + (1 + power.intensity.toNat / 32)
  if intensity > power.requestedIntensity.toNat then power.requestedIntensity.toNat else intensity

/-- `limit_intensity`: the new intensity, or none for a division by zero. -/
def limitIntensity (power : LedPower) : Option Nat :=
  if power.current power.raised ≤ power.currentLimit then some power.raised
  else if power.current power.intensity.toNat ≤ power.currentLimit then some power.intensity.toNat
  else if power.currentFull / 256 = 0 then none
  else
    let inten := power.currentLimit.tdiv (power.currentFull / 256 : Nat) - 1
    let inten := if inten < 0 then 0 else inten
    some (inten % 256).toNat

/-- No division by zero, and an intensity that is zero or within the budget. -/
def WithinBudget (power : LedPower) : Prop :=
  ∃ intensity, power.limitIntensity = some intensity ∧ (intensity = 0 ∨ power.current intensity ≤ power.currentLimit)

def quotient (power : LedPower) : Nat := power.currentLimit.toNat / (power.currentFull / 256)

/-- The low eight bits that the divisor drops are outweighed by what the division
and the scaling of the pixels drop. -/
def RoundingCovered (power : LedPower) : Prop :=
  power.quotient * (power.currentFull % 256) ≤
    256 * (power.currentLimit.toNat % (power.currentFull / 256)) +
      46 * (power.px.map fun v => v.toNat * power.quotient % 256).sum

theorem scale0_byte (v : UInt8) (small : i < 256) : scale0 v.toNat i = v.toNat * (i + 1) / 256 := by
  have byte := v.toNat_lt
  rw [scale0, Nat.mod_eq_of_lt byte, Nat.mod_eq_of_lt small, Nat.add_comm]

theorem current_eq (power : LedPower) (small : i < 256) :
    power.current i = 46 * (power.px.map fun v => v.toNat * (i + 1) / 256).sum := by
  have same : (fun v : UInt8 => scale0 v.toNat i) = fun v => v.toNat * (i + 1) / 256 := funext fun v => scale0_byte v small
  rw [current, same]

theorem sum_scaled (px : List UInt8) (scale : Nat) :
    256 * (px.map fun v => v.toNat * scale / 256).sum + (px.map fun v => v.toNat * scale % 256).sum =
      scale * (px.map UInt8.toNat).sum := by
  induction px with
  | nil => simp
  | cons v rest ih =>
    have split := Nat.div_add_mod (v.toNat * scale) 256
    simp only [List.map_cons, List.sum_cons, Nat.mul_add]
    rw [Nat.mul_comm scale v.toNat]
    omega

theorem current_scaled (power : LedPower) (small : i < 256) :
    256 * power.current i + 46 * (power.px.map fun v => v.toNat * (i + 1) % 256).sum = (i + 1) * power.currentFull := by
  have sum := sum_scaled power.px (i + 1)
  rw [current_eq power small, currentFull, Nat.mul_left_comm (i + 1) 46, ← sum]
  omega

theorem current_le_full (power : LedPower) (small : i < 256) : power.current i ≤ power.currentFull := by
  have scaled := power.current_scaled small
  have most : (i + 1) * power.currentFull ≤ 256 * power.currentFull := Nat.mul_le_mul_right _ small
  omega

theorem raised_lt (power : LedPower) : power.raised < 256 := by
  have most := power.requestedIntensity.toNat_lt
  unfold raised
  dsimp only
  split <;> omega

variable {power : LedPower}

theorem limitIntensity_divides (high : ¬ power.current power.raised ≤ power.currentLimit)
    (stays : ¬ power.current power.intensity.toNat ≤ power.currentLimit) (none_ : power.currentFull < 256) :
    power.limitIntensity = none := by
  rw [limitIntensity, if_neg high, if_neg stays, if_pos (by omega)]

/-- The new intensity is one less than the quotient, in eight bits. -/
theorem limitIntensity_lowered (high : ¬ power.current power.raised ≤ power.currentLimit)
    (stays : ¬ power.current power.intensity.toNat ≤ power.currentLimit) (some_ : 256 ≤ power.currentFull) :
    power.limitIntensity =
      some (if power.currentLimit < 2 * (power.currentFull / 256 : Nat) then 0 else (power.quotient - 1) % 256) := by
  rw [limitIntensity, if_neg high, if_neg stays, if_neg (by omega)]
  dsimp only
  have positive : 0 < power.currentFull / 256 := by omega
  unfold quotient
  generalize power.currentFull / 256 = divisor at positive
  congr 1
  by_cases small : power.currentLimit < 2 * divisor
  · rw [if_pos small]
    have bound : power.currentLimit.tdiv divisor ≤ ((2 * divisor - 1 : Nat) : Int).tdiv divisor :=
      Int.tdiv_le_tdiv (by omega) (by omega)
    have one : (2 * divisor - 1) / divisor < 2 := Nat.div_lt_of_lt_mul (by omega)
    rw [← Int.ofNat_tdiv] at bound
    split <;> omega
  · rw [if_neg small]
    obtain ⟨limit, same⟩ := Int.eq_ofNat_of_zero_le (show 0 ≤ power.currentLimit by omega)
    have two : 2 ≤ limit / divisor := (Nat.le_div_iff_mul_le positive).mpr (by omega)
    rw [same, ← Int.ofNat_tdiv, Int.toNat_natCast]
    split <;> omega

/-- A multiple of the full current, with its low eight bits apart. -/
theorem mul_currentFull (power : LedPower) (factor : Nat) :
    factor * power.currentFull = 256 * (power.currentFull / 256 * factor) + factor * (power.currentFull % 256) := by
  have full := Nat.div_add_mod power.currentFull 256
  calc factor * power.currentFull = factor * (256 * (power.currentFull / 256) + power.currentFull % 256) := by rw [full]
    _ = 256 * (power.currentFull / 256 * factor) + factor * (power.currentFull % 256) := by ring

/-- A quotient that wraps in eight bits comes out low enough. -/
theorem current_wrapped (below : power.currentLimit < power.currentFull) (some_ : 256 ≤ power.currentFull)
    (wraps : 257 * (power.currentFull / 256 : Nat) ≤ power.currentLimit) :
    power.current ((power.quotient - 1) % 256) ≤ power.currentLimit := by
  obtain ⟨limit, same⟩ := Int.eq_ofNat_of_zero_le (show 0 ≤ power.currentLimit by omega)
  have full := Nat.div_add_mod power.currentFull 256
  have low : power.currentFull % 256 < 256 := Nat.mod_lt _ (by decide)
  have division := Nat.div_add_mod limit (power.currentFull / 256)
  have large : 257 ≤ limit / (power.currentFull / 256) := (Nat.le_div_iff_mul_le (by omega)).mpr (by omega)
  have product := power.mul_currentFull
  rw [quotient, same, Int.toNat_natCast]
  generalize power.currentFull / 256 = divisor at *
  generalize limit / divisor = quotient at *
  obtain ⟨excess, rfl⟩ := Nat.exists_eq_add_of_le (show 256 ≤ quotient by omega)
  -- the excess over 256 is what is left in eight bits, and the budget exceeds the divisor by less than 256 of it
  rw [Nat.mul_add] at division
  have least : excess ≤ divisor * excess := Nat.le_mul_of_pos_left _ (by omega)
  have index : (256 + excess - 1) % 256 = excess - 1 := by omega
  have scaled := power.current_scaled (show excess - 1 < 256 by omega)
  have again : excess - 1 + 1 = excess := by omega
  have rounding : excess * (power.currentFull % 256) ≤ 255 * 255 := Nat.mul_le_mul (by omega) (by omega)
  rw [again, product] at scaled
  rw [index]
  omega

theorem quotient_between (many : 2 * (power.currentFull / 256 : Nat) ≤ power.currentLimit)
    (fits : power.currentLimit < 257 * (power.currentFull / 256 : Nat)) : 2 ≤ power.quotient ∧ power.quotient < 257 := by
  obtain ⟨limit, same⟩ := Int.eq_ofNat_of_zero_le (show 0 ≤ power.currentLimit by omega)
  rw [quotient, same, Int.toNat_natCast]
  exact ⟨(Nat.le_div_iff_mul_le (by omega)).mpr (by omega), Nat.div_lt_of_lt_mul (by omega)⟩

/-- Otherwise the rounding decides. -/
theorem current_lowered_iff (many : 2 * (power.currentFull / 256 : Nat) ≤ power.currentLimit)
    (fits : power.currentLimit < 257 * (power.currentFull / 256 : Nat)) :
    power.current ((power.quotient - 1) % 256) ≤ power.currentLimit ↔ power.RoundingCovered := by
  obtain ⟨limit, same⟩ := Int.eq_ofNat_of_zero_le (show 0 ≤ power.currentLimit by omega)
  have division := Nat.div_add_mod limit (power.currentFull / 256)
  have between := quotient_between many fits
  have product := power.mul_currentFull
  rw [quotient, same, Int.toNat_natCast] at between
  rw [RoundingCovered, quotient, same, Int.toNat_natCast]
  generalize power.currentFull / 256 = divisor at *
  generalize limit / divisor = quotient at *
  have index : (quotient - 1) % 256 = quotient - 1 := by omega
  have scaled := power.current_scaled (show quotient - 1 < 256 by omega)
  have again : quotient - 1 + 1 = quotient := by omega
  rw [again, product] at scaled
  rw [index]
  omega

/-- The budget is kept without a division by zero exactly in these cases: the
current at the raised or at the present intensity is within it; or the full
current is at least 256 and, for the full current without its low eight bits,
the budget is below twice that, or at least 257 times that, or the rounding is
covered. -/
theorem limit_intensity_within_budget_iff (power : LedPower) :
    power.WithinBudget ↔
      power.current power.raised ≤ power.currentLimit ∨
      power.current power.intensity.toNat ≤ power.currentLimit ∨
      256 ≤ power.currentFull ∧
        (power.currentLimit < 2 * (power.currentFull / 256 : Nat) ∨
          257 * (power.currentFull / 256 : Nat) ≤ power.currentLimit ∨ power.RoundingCovered) := by
  unfold WithinBudget
  by_cases high : power.current power.raised ≤ power.currentLimit
  · have kept : power.limitIntensity = some power.raised := if_pos high
    exact iff_of_true ⟨_, kept, .inr high⟩ (.inl high)
  by_cases stays : power.current power.intensity.toNat ≤ power.currentLimit
  · have kept : power.limitIntensity = some power.intensity.toNat := by rw [limitIntensity, if_neg high, if_pos stays]
    exact iff_of_true ⟨_, kept, .inr stays⟩ (.inr (.inl stays))
  by_cases some_ : 256 ≤ power.currentFull
  · have lowered := limitIntensity_lowered high stays some_
    simp only [high, stays, some_, lowered, false_or, true_and, Option.some.injEq, exists_eq_left']
    by_cases small : power.currentLimit < 2 * (power.currentFull / 256 : Nat)
    · rw [if_pos small]
      exact iff_of_true (.inl rfl) (.inl small)
    by_cases wraps : 257 * (power.currentFull / 256 : Nat) ≤ power.currentLimit
    · have most := power.current_le_full power.raised_lt
      rw [if_neg small]
      exact iff_of_true (.inr (current_wrapped (by omega) some_ wraps)) (.inr (.inl wraps))
    · have rounding := current_lowered_iff (Int.not_lt.mp small) (Int.not_le.mp wraps)
      have between := quotient_between (Int.not_lt.mp small) (Int.not_le.mp wraps)
      have visible : (power.quotient - 1) % 256 ≠ 0 := by omega
      rw [if_neg small]
      simp only [small, wraps, visible, false_or]
      exact rounding
  · have divides := limitIntensity_divides high stays (Nat.lt_of_not_le some_)
    simp [high, stays, some_, divides]

def darkPixel : LedPower := ⟨[0, 0, 0], 1, 15, 15, 0, rfl, by decide⟩

def redPixel : LedPower := ⟨[255, 0, 0], 1, 255, 255, 18, rfl, by decide⟩

/-- The first divides by zero; the second ends at intensity 67 and 3082uA for a
budget of 3070uA. -/
theorem limit_intensity_leaves_budget :
    ¬ darkPixel.WithinBudget ∧ darkPixel.limitIntensity = none ∧
      ¬ redPixel.WithinBudget ∧ redPixel.limitIntensity = some 67 ∧ redPixel.current 67 = 3082 ∧
        redPixel.currentLimit = 3070 := by
  have divides : darkPixel.limitIntensity = none := by decide
  have lowered : redPixel.limitIntensity = some 67 := by decide
  refine ⟨?_, divides, ?_, lowered, by decide, by decide⟩
  · rintro ⟨intensity, kept, _⟩
    rw [divides] at kept
    cases kept
  · rintro ⟨intensity, kept, budget⟩
    rw [lowered] at kept
    obtain rfl := Option.some.inj kept
    exact absurd budget (by decide)

end LedPower

end Jacdac
