import Jacdac.Base.Interpolate

/-! The absolute humidity of `jd_env.c`, with every result of its `int32_t` arithmetic checked. -/

namespace Jacdac

inductive EnvFault where
  | overflow
  | divideByZero
  /-- A read behind the table. -/
  | outside
  deriving DecidableEq

/-- A result of type `int32_t`. -/
def envInt (value : Int) : Except EnvFault Int :=
  if -2147483648 ≤ value ∧ value < 2147483648 then .ok value else .error .overflow

/-- A division of two of them. -/
def envDiv (value divisor : Int) : Except EnvFault Int :=
  if divisor = 0 then .error .divideByZero else envInt (value.tdiv divisor)

/-- The interpolation in the loop of `env_extrapolate_error`. -/
def extrapolate (prev e0 curr e1 value : Int) : Except EnvFault Int := do
  let size ← envInt (curr - prev)
  let pos ← envInt (value - prev)
  let rise ← envInt (e1 - e0)
  let scaled ← envInt (pos * rise)
  let quotient ← envDiv scaled size
  envInt (quotient + e0)

/-- The loop of `env_extrapolate_error`, over the table from `idx` on; `prev` and `e0` are the entries
before it. -/
def extrapolateLoop (value prev e0 : Int) : List Int → Except EnvFault Int
  | curr :: e1 :: rest =>
    if curr = -1 ∧ e1 = -1 then .ok e0
    else if value ≤ curr then extrapolate prev e0 curr e1 value
    else extrapolateLoop value curr e1 rest
  | _ => .error .outside

def envExtrapolateError (value : Int) : List Int → Except EnvFault Int
  | first :: error :: rest =>
    if value < first then .ok error else extrapolateLoop value first error rest
  | _ => .error .outside

def errEnd : List Int := [-1, -1]

def errorTable (points : List (Int × Int)) : List Int := points.flatMap (fun point => [point.1, point.2]) ++ errEnd

/-- `ABSHUM`, of a humidity in tenths. -/
def abshum (t h : Int) : Int × Int := (t * 1024, h * 1024 / 10)

/-- The first point of `abs_hum`, and the others. -/
def absHumFirst : Int × Int := abshum (-25) 6
def absHumRest : List (Int × Int) :=
  [abshum (-20) 9, abshum (-15) 16, abshum (-10) 23, abshum (-5) 34, abshum 0 48, abshum 5 68, abshum 10 94,
    abshum 15 128, abshum 20 173, abshum 25 230, abshum 30 304, abshum 35 396, abshum 40 511, abshum 45 654,
    abshum 50 830]

def absHum : List Int := errorTable (absHumFirst :: absHumRest)

def envAbsoluteHumidity (temp humidity : Int) : Except EnvFault Int := do
  let maxval ← envExtrapolateError temp absHum
  let product ← envInt (maxval * humidity)
  let percent ← envDiv product 100
  .ok (percent / 1024)

/-- Points whose arithmetic fits into 32 bits. -/
structure FitsEnv (first second : Int × Int) : Prop where
  rises : Rises first second
  size : second.1 - first.1 ≤ 32768
  rise : second.2 - first.2 ≤ 32768
  inside : second.1 ≠ -1 ∨ second.2 ≠ -1
  low : -1073741824 ≤ first.2
  high : second.2 ≤ 1073741824

theorem envInt_ok {value : Int} (low : -2147483648 ≤ value) (high : value < 2147483648) : envInt value = .ok value :=
  if_pos ⟨low, high⟩

theorem envInt_bind {value : Int} {Result : Type} (next : Int → Except EnvFault Result) (low : -2147483648 ≤ value)
    (high : value < 2147483648) : (envInt value >>= next) = next value := by
  rw [envInt_ok low high]
  rfl

theorem envDiv_bind {value divisor : Int} {Result : Type} (next : Int → Except EnvFault Result) (nonneg : 0 ≤ value)
    (positive : 0 < divisor) (high : value < 2147483648) : (envDiv value divisor >>= next) = next (value / divisor) := by
  have quotient := Int.ediv_nonneg nonneg positive.le
  have smaller := Int.ediv_le_self divisor nonneg
  rw [envDiv, if_neg positive.ne', Int.tdiv_eq_ediv_of_nonneg nonneg, envInt_bind next (by omega) (by omega)]

section Extrapolate

variable {point : Int × Int} {rest : List (Int × Int)} {x : Int}

/-- The interpolation between two points does not overflow. -/
theorem extrapolate_ok {next : Int × Int} (fits : FitsEnv point next) (behind : point.1 ≤ x) (before : x ≤ next.1) :
    extrapolate point.1 point.2 next.1 next.2 x = .ok (between point next x) := by
  obtain ⟨⟨right, above⟩, size, rise, inside, low, high⟩ := fits
  have lower := between_lower ⟨right, above⟩ behind
  have upper := between_upper ⟨right, above⟩ before
  have nonneg : 0 ≤ (x - point.1) * (next.2 - point.2) := mul_nonneg (by omega) (by omega)
  have product : (x - point.1) * (next.2 - point.2) ≤ 32768 * 32768 := mul_le_mul (by omega) rise (by omega) (by omega)
  rw [extrapolate, envInt_bind _ (by omega) (by omega), envInt_bind _ (by omega) (by omega),
    envInt_bind _ (by omega) (by omega), envInt_bind _ (by omega) (by omega),
    envDiv_bind _ nonneg (by omega) (by omega)]
  exact envInt_ok (by unfold between at lower; omega) (by unfold between at upper; omega)

theorem extrapolateLoop_ok (fits : (point :: rest).IsChain FitsEnv) (behind : point.1 ≤ x) :
    extrapolateLoop x point.1 point.2 (errorTable rest) = .ok (interpolateFrom point rest x) := by
  induction rest generalizing point with
  | nil => exact if_pos ⟨rfl, rfl⟩
  | cons next rest ih =>
    obtain ⟨here, fits⟩ := List.isChain_cons_cons.mp fits
    have unended : ¬ (next.1 = -1 ∧ next.2 = -1) := fun ended => here.inside.elim (· ended.1) (· ended.2)
    have head : errorTable (next :: rest) = next.1 :: next.2 :: errorTable rest := rfl
    rw [head, extrapolateLoop, if_neg unended, interpolateFrom]
    split
    · rename_i before
      exact extrapolate_ok here behind before
    · rename_i passed
      exact ih fits (by omega)

theorem envExtrapolateError_ok (fits : (point :: rest).IsChain FitsEnv) (x : Int) :
    envExtrapolateError x (errorTable (point :: rest)) = .ok (interpolate point rest x) := by
  have head : errorTable (point :: rest) = point.1 :: point.2 :: errorTable rest := rfl
  rw [head, envExtrapolateError, interpolate]
  split
  · rfl
  · rename_i behind
    exact extrapolateLoop_ok fits (by omega)

end Extrapolate

/-- The interpolated maximum of a temperature. -/
def saturation (temp : Int) : Int := interpolate absHumFirst absHumRest temp

instance decidableFitsEnv (first second : Int × Int) : Decidable (FitsEnv first second) :=
  decidable_of_iff (first.1 < second.1 ∧ first.2 < second.2 ∧ second.1 - first.1 ≤ 32768 ∧ second.2 - first.2 ≤ 32768 ∧
      (second.1 ≠ -1 ∨ second.2 ≠ -1) ∧ -1073741824 ≤ first.2 ∧ second.2 ≤ 1073741824)
    ⟨fun ⟨right, above, size, rise, inside, low, high⟩ => ⟨⟨right, above⟩, size, rise, inside, low, high⟩,
      fun ⟨⟨right, above⟩, size, rise, inside, low, high⟩ => ⟨right, above, size, rise, inside, low, high⟩⟩

theorem absHum_fits : (absHumFirst :: absHumRest).IsChain FitsEnv := by decide

theorem absHum_rises : (absHumFirst :: absHumRest).IsChain Rises := absHum_fits.imp fun _ _ fits => fits.rises

theorem envExtrapolateError_absHum (temp : Int) : envExtrapolateError temp absHum = .ok (saturation temp) :=
  envExtrapolateError_ok absHum_fits temp

theorem saturation_bounds (temp : Int) : 614 ≤ saturation temp ∧ saturation temp ≤ 84992 := by
  obtain ⟨_, _, ⟨low, member, below⟩, high, within, above⟩ := interpolate_interpolates absHum_rises temp
  have all : ∀ point ∈ absHumFirst :: absHumRest, 614 ≤ point.2 ∧ point.2 ≤ 84992 := by decide
  exact ⟨(all low member).1.trans below, above.trans (all high within).2⟩

theorem envAbsoluteHumidity_ok {temp humidity : Int} (nonneg : 0 ≤ humidity)
    (fits : saturation temp * humidity ≤ 2147483647) :
    envAbsoluteHumidity temp humidity = .ok (saturation temp * humidity / 100 / 1024) := by
  have product := mul_nonneg (by have := saturation_bounds temp; omega : 0 ≤ saturation temp) nonneg
  rw [envAbsoluteHumidity, envExtrapolateError_absHum]
  change (envInt (saturation temp * humidity) >>= _) = _
  rw [envInt_bind _ (by omega) (by omega), envDiv_bind _ product (by omega) (by omega)]

theorem envAbsoluteHumidity_overflow {temp humidity : Int} (over_ : 2147483647 < saturation temp * humidity) :
    envAbsoluteHumidity temp humidity = .error .overflow := by
  have faults : envInt (saturation temp * humidity) = .error .overflow := if_neg fun inside => by omega
  rw [envAbsoluteHumidity, envExtrapolateError_absHum]
  change (envInt (saturation temp * humidity) >>= _) = _
  rw [faults]
  rfl

/-- The last temperature for which the table allows this humidity, if there is one. -/
def warmest (humidity : Int) : Option Int :=
  if humidity = 0 then none else lastWithin absHumFirst absHumRest (2147483647 / humidity)

theorem saturation_fits_iff {temp humidity : Int} (nonneg : 0 ≤ humidity) (most : humidity ≤ 102400) :
    saturation temp * humidity ≤ 2147483647 ↔ ∀ last ∈ warmest humidity, temp ≤ last := by
  unfold warmest
  split
  · rename_i zero
    rw [zero, mul_zero]
    exact iff_of_true (by decide) nofun
  · rename_i nonzero
    have positive : 0 < humidity := by omega
    have within : absHumFirst.2 ≤ 2147483647 / humidity := by
      rw [Int.le_ediv_iff_mul_le positive]
      have first : absHumFirst.2 = 614 := by decide
      rw [first]
      omega
    rw [← Int.le_ediv_iff_mul_le positive]
    exact interpolate_le_iff absHum_rises within

/-- For every temperature and every humidity up to 100%: no result overflows, the maximum is between
its neighbours in the table, and a smaller humidity gives no larger result, exactly if the temperature
is at most the last one that the table allows for the humidity. -/
theorem env_absolute_humidity_iff (temp : Int32) {humidity : Int} (nonneg : 0 ≤ humidity) (most : humidity ≤ 102400) :
    ((∃ maxval, envExtrapolateError temp.toInt absHum = .ok maxval ∧
        Interpolates (absHumFirst :: absHumRest) temp.toInt maxval) ∧
      ∀ smaller, 0 ≤ smaller → smaller ≤ humidity →
        ∃ less result, envAbsoluteHumidity temp.toInt smaller = .ok less ∧
          envAbsoluteHumidity temp.toInt humidity = .ok result ∧ less ≤ result) ↔
    ∀ last ∈ warmest humidity, temp.toInt ≤ last := by
  rw [← saturation_fits_iff nonneg most]
  constructor
  · rintro ⟨_, results⟩
    by_contra overflows
    obtain ⟨_, _, _, result, _⟩ := results humidity nonneg (le_refl humidity)
    rw [envAbsoluteHumidity_overflow (by omega)] at result
    cases result
  · intro fits
    refine ⟨⟨_, envExtrapolateError_absHum _, interpolate_interpolates absHum_rises _⟩, fun smaller low below => ?_⟩
    have positive : 0 ≤ saturation temp.toInt := by
      have := saturation_bounds temp.toInt
      omega
    have products : saturation temp.toInt * smaller ≤ saturation temp.toInt * humidity := mul_le_mul_of_nonneg_left below positive
    refine ⟨_, _, envAbsoluteHumidity_ok low (products.trans fits), envAbsoluteHumidity_ok nonneg fits, ?_⟩
    exact Int.ediv_le_ediv (by decide) (Int.ediv_le_ediv (by decide) products)

/-- At 20 degrees no humidity is too much. -/
theorem env_absolute_humidity_iff_20 : envAbsoluteHumidity 20480 102400 = .ok 17715 ∧
    ∃ less result, envAbsoluteHumidity 20480 51200 = .ok less ∧ envAbsoluteHumidity 20480 102400 = .ok result ∧ less ≤ result :=
  ⟨by decide +kernel, ((env_absolute_humidity_iff 20480 (by decide) (by decide)).mpr (by decide +kernel)).2 51200 (by decide) (by decide)⟩

/-- At 25 degrees and 100% the product of the two overflows. -/
theorem env_absolute_humidity_overflows : envAbsoluteHumidity 25600 102400 = .error .overflow := by decide +kernel

end Jacdac
