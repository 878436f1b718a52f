import Jacdac.Base.Result
import Jacdac.Frame.Packets
import Mathlib.Tactic.Linarith
import Mathlib.Tactic.Positivity
import Mathlib.Algebra.Order.Ring.Int
import Mathlib.Algebra.Order.Ring.Abs

/-! The servo service of `servo.c`, with every result of its `int` arithmetic checked.
The power switch and the PWM that `set_pwr` drives are left out. -/

namespace Jacdac

inductive ServoFault where
  | overflow
  | divideByZero
  deriving DecidableEq, Repr

/-- The used fields of `servo_params_t`. -/
structure ServoParams where
  fixed : Bool
  minAngle : Int
  maxAngle : Int
  minPulse : Int
  maxPulse : Int
  deriving DecidableEq, Repr

structure ServoState where
  angle : Int
  offset : Int
  params : ServoParams
  intensity : Nat
  params0 : ServoParams
  pulse : Nat
  deriving DecidableEq, Repr

/-- A write of a register. The pins and `fixed` are padding in `servo_regs`. -/
inductive ServoWrite where
  | angle (value : Int32)
  | offset (value : Int32)
  | minAngle (value : Int32)
  | maxAngle (value : Int32)
  | minPulse (value : Int16)
  | maxPulse (value : Int16)
  | enabled (value : UInt8)

/-- A result of type `int`. -/
def int32 (value : Int) : Except ServoFault Int :=
  if -2147483648 ≤ value ∧ value < 2147483648 then .ok value else .error .overflow

/-- A conversion to `uint32_t`. -/
def toUnsigned (value : Int) : Nat := (value % 4294967296).toNat

namespace ServoParams

def clamp (low v hi : Int) : Int :=
  if v < low then low
  else if v > hi then hi
  else v

/-- The limits of `servo_handle_packet` for parameters that the user may change. -/
def limit (p : ServoParams) : ServoParams where
  fixed := p.fixed
  minAngle := clamp (-(360 * 65536)) p.minAngle (1024 * 65536)
  maxAngle := clamp (-(360 * 65536)) p.maxAngle (1024 * 65536)
  minPulse := clamp 0 p.minPulse 6000
  maxPulse := clamp 0 p.maxPulse 6000

/-- The pulse length for an angle. A shift to the right rounds down, a division towards zero. -/
def pulse (p : ServoParams) (angle : Int) : Except ServoFault Nat := do
  let travel ← int32 (angle - p.minAngle)
  let width ← int32 (p.maxPulse - p.minPulse)
  let product ← int32 (travel / 256 * width)
  let range ← int32 (p.maxAngle - p.minAngle)
  if range / 256 = 0 then .error .divideByZero
  else
    let quotient ← int32 (product.tdiv (range / 256))
    .ok (u32 (toUnsigned quotient + toUnsigned p.minPulse))

end ServoParams

namespace ServoState

/-- `servo_init` on a zeroed state. -/
def init (params : ServoParams) : ServoState :=
  { angle := 0, offset := 0, params, intensity := 0, params0 := params, pulse := 0 }

/-- What `service_handle_register_final` stores. -/
def write (state : ServoState) : ServoWrite → ServoState
  | .angle value => { state with angle := value.toInt }
  | .offset value => { state with offset := value.toInt }
  | .minAngle value => { state with params := { state.params with minAngle := value.toInt } }
  | .maxAngle value => { state with params := { state.params with maxAngle := value.toInt } }
  | .minPulse value => { state with params := { state.params with minPulse := value.toInt } }
  | .maxPulse value => { state with params := { state.params with maxPulse := value.toInt } }
  | .enabled value => { state with intensity := value.toNat }

/-- `servo_handle_packet` behind the register write. -/
def update (state : ServoState) : Except ServoFault ServoState := do
  let p := if state.params.fixed then state.params0 else state.params.limit
  let offset := ServoParams.clamp p.minAngle state.offset p.maxAngle
  let sum ← int32 (state.angle + offset)
  let angle := ServoParams.clamp p.minAngle sum p.maxAngle
  let shown ← int32 (angle - offset)
  let pulse ← p.pulse angle
  .ok { state with params := p, offset, angle := shown, pulse }

def handlePacket (state : ServoState) (written : ServoWrite) : Except ServoFault ServoState :=
  (state.write written).update

/-- The states after each of these writes. -/
def run : ServoState → List ServoWrite → Except ServoFault (List ServoState)
  | _, [] => .ok []
  | state, written :: rest => do
    let next ← state.handlePacket written
    let later ← run next rest
    .ok (next :: later)

/-- The pulse is between the two limits, in either order. -/
def Between (state : ServoState) : Prop :=
  min state.params.minPulse state.params.maxPulse ≤ state.pulse ∧
    state.pulse ≤ max state.params.minPulse state.params.maxPulse

/-- The limited angles are not so close together that the divisor is zero, and the angle leaves room for
the limited offset. -/
def Fits (state : ServoState) : Prop :=
  let p := state.params.limit
  ¬ (p.minAngle ≤ p.maxAngle ∧ p.maxAngle < p.minAngle + 256) ∧
    -2147483648 ≤ state.angle + ServoParams.clamp p.minAngle state.offset p.maxAngle ∧
    state.angle + ServoParams.clamp p.minAngle state.offset p.maxAngle < 2147483648

def AllFit : ServoState → List ServoWrite → Prop
  | _, [] => True
  | state, written :: rest =>
    (state.write written).Fits ∧ ∀ next, state.handlePacket written = .ok next → AllFit next rest

end ServoState

theorem int32_ok {value : Int} (lower : -2147483648 ≤ value) (upper : value < 2147483648) : int32 value = .ok value :=
  if_pos ⟨lower, upper⟩

theorem int32_cases (value : Int) :
    int32 value = .ok value ∧ -2147483648 ≤ value ∧ value < 2147483648 ∨
      int32 value = .error .overflow ∧ ¬ (-2147483648 ≤ value ∧ value < 2147483648) := by
  unfold int32
  split
  · rename_i inside
    exact .inl ⟨rfl, inside⟩
  · rename_i outside
    exact .inr ⟨rfl, outside⟩

namespace ServoParams

variable {low v hi angle : Int} {p : ServoParams}

theorem clamp_cases (low v hi : Int) : clamp low v hi = low ∨ clamp low v hi = hi ∨ (low ≤ v ∧ v ≤ hi ∧ clamp low v hi = v) := by
  unfold clamp
  split
  · exact .inl rfl
  · split
    · exact .inr (.inl rfl)
    · exact .inr (.inr ⟨by omega, by omega, rfl⟩)

/-- A clamped value is between the bounds, and is one of them where they are inverted. -/
theorem clamp_between (low v hi : Int) :
    (low ≤ hi → low ≤ clamp low v hi ∧ clamp low v hi ≤ hi) ∧
      (hi < low → clamp low v hi = low ∨ clamp low v hi = hi) := by
  rcases clamp_cases low v hi with same | same | ⟨above, below, same⟩
  · rw [same]
    exact ⟨fun ordered => ⟨le_refl _, ordered⟩, fun _ => .inl rfl⟩
  · rw [same]
    exact ⟨fun ordered => ⟨ordered, le_refl _⟩, fun _ => .inr rfl⟩
  · rw [same]
    exact ⟨fun _ => ⟨above, below⟩, fun inverted => by omega⟩

/-- The bounds that `limit` leaves. -/
structure Limited (p : ServoParams) : Prop where
  minAngle : -23592960 ≤ p.minAngle ∧ p.minAngle ≤ 67108864
  maxAngle : -23592960 ≤ p.maxAngle ∧ p.maxAngle ≤ 67108864
  minPulse : 0 ≤ p.minPulse ∧ p.minPulse ≤ 6000
  maxPulse : 0 ≤ p.maxPulse ∧ p.maxPulse ≤ 6000

theorem limit_limited (p : ServoParams) : p.limit.Limited :=
  ⟨(clamp_between _ p.minAngle _).1 (by decide), (clamp_between _ p.maxAngle _).1 (by decide),
    (clamp_between _ p.minPulse _).1 (by decide), (clamp_between _ p.maxPulse _).1 (by decide)⟩

/-- The pulse of a part of the range is at most that of the whole range. -/
theorem scaled_between {part whole width : Int} (nonneg : 0 ≤ part) (within : part ≤ whole) (some_ : 0 < whole)
    (positive : 0 ≤ width) : 0 ≤ (part * width).tdiv whole ∧ (part * width).tdiv whole ≤ width := by
  have product := mul_nonneg nonneg positive
  rw [Int.tdiv_eq_ediv_of_nonneg product]
  refine ⟨Int.ediv_nonneg product some_.le, Int.ediv_le_of_le_mul some_ ?_⟩
  rw [mul_comm width whole]
  exact mul_le_mul_of_nonneg_right within positive

/-- An angle that `clamp` can leave, against the whole range. -/
def Travelled (travel range : Int) : Prop :=
  (0 ≤ travel ∧ travel ≤ range) ∨ (range < 0 ∧ (travel = 0 ∨ travel = range))

theorem quotient_between {travel range : Int} (width : Int) (some_ : range / 256 ≠ 0)
    (travelled : Travelled travel range) :
    min 0 width ≤ (travel / 256 * width).tdiv (range / 256) ∧
      (travel / 256 * width).tdiv (range / 256) ≤ max 0 width := by
  rcases travelled with ⟨nonneg, within⟩ | ⟨_, rfl | rfl⟩
  · have part : 0 ≤ travel / 256 ∧ travel / 256 ≤ range / 256 ∧ 0 < range / 256 := by omega
    rcases le_total 0 width with positive | negative
    · rw [min_eq_left positive, max_eq_right positive]
      exact scaled_between part.1 part.2.1 part.2.2 positive
    · rw [min_eq_right negative, max_eq_left negative]
      have mirrored := scaled_between part.1 part.2.1 part.2.2 (neg_nonneg.mpr negative)
      rw [mul_neg, Int.neg_tdiv] at mirrored
      omega
  · rw [Int.zero_ediv, zero_mul, Int.zero_tdiv]
    exact ⟨min_le_left _ _, le_max_left _ _⟩
  · rw [Int.mul_tdiv_cancel_left width some_]
    exact ⟨min_le_right _ _, le_max_right _ _⟩

/-- The limits keep the product in range, as the comment at the limits says. -/
theorem product_lt {travel width : Int} (short : -90701824 ≤ travel ∧ travel ≤ 90701824)
    (narrow : -6000 ≤ width ∧ width ≤ 6000) :
    -2147483648 ≤ travel / 256 * width ∧ travel / 256 * width < 2147483648 := by
  have part : |travel / 256| ≤ 354304 := abs_le.mpr (by omega)
  have bounded : |travel / 256 * width| ≤ 354304 * 6000 := by
    rw [abs_mul]
    exact mul_le_mul part (abs_le.mpr narrow) (abs_nonneg _) (by decide)
  have both := abs_le.mp bounded
  omega

theorem travelled_clamp (low v hi : Int) : Travelled (clamp low v hi - low) (hi - low) := by
  rcases clamp_between low v hi with ⟨ordered, inverted⟩
  rcases le_or_gt low hi with between | beyond
  · left
    obtain ⟨above, below⟩ := ordered between
    omega
  · right
    refine ⟨by omega, ?_⟩
    rcases inverted beyond with same | same
    · exact .inl (by omega)
    · exact .inr (by omega)

/-- With limited parameters the pulse length fails only for lack of a divisor. -/
theorem pulse_cases (limited : p.Limited) (v : Int) :
    (p.minAngle ≤ p.maxAngle ∧ p.maxAngle < p.minAngle + 256 ∧
        p.pulse (clamp p.minAngle v p.maxAngle) = .error .divideByZero) ∨
      (¬ (p.minAngle ≤ p.maxAngle ∧ p.maxAngle < p.minAngle + 256) ∧
        ∃ length, p.pulse (clamp p.minAngle v p.maxAngle) = .ok length ∧
          min p.minPulse p.maxPulse ≤ length ∧ length ≤ max p.minPulse p.maxPulse) := by
  obtain ⟨minAngle, maxAngle, minPulse, maxPulse⟩ := limited
  have travelled := travelled_clamp p.minAngle v p.maxAngle
  unfold pulse
  generalize clamp p.minAngle v p.maxAngle - p.minAngle = travel at travelled ⊢
  have short : -90701824 ≤ travel ∧ travel ≤ 90701824 := by
    rcases travelled with inside | ⟨_, none | all⟩ <;> omega
  have narrow : -6000 ≤ p.maxPulse - p.minPulse ∧ p.maxPulse - p.minPulse ≤ 6000 := by omega
  obtain ⟨lower, upper⟩ := product_lt short narrow
  rw [int32_ok (by omega) (by omega), int32_ok (by omega) (by omega)]
  dsimp only [bind, Except.bind]
  rw [int32_ok lower upper, int32_ok (by omega) (by omega)]
  dsimp only
  by_cases close : (p.maxAngle - p.minAngle) / 256 = 0
  · rw [if_pos close]
    exact .inl ⟨by omega, by omega, rfl⟩
  · obtain ⟨least, most⟩ := quotient_between (p.maxPulse - p.minPulse) close travelled
    rw [if_neg close, int32_ok (by omega) (by omega)]
    refine .inr ⟨by omega, _, rfl, ?_⟩
    generalize (travel / 256 * (p.maxPulse - p.minPulse)).tdiv ((p.maxAngle - p.minAngle) / 256) = quotient at least most
    have sum : (u32 (toUnsigned quotient + toUnsigned p.minPulse) : Int) = quotient + p.minPulse := by
      unfold u32 toUnsigned
      omega
    rw [sum]
    omega

end ServoParams

namespace ServoState

variable {state next : ServoState}

/-- A write to a servo that is not fixed completes exactly if it fits, and then the pulse is between its limits. -/
theorem update_cases (adjustable : state.params.fixed = false) :
    (¬ state.Fits ∧ ∃ fault, state.update = .error fault) ∨
      (state.Fits ∧ ∃ next, state.update = .ok next ∧ next.params.fixed = false ∧ next.Between) := by
  have limited := state.params.limit_limited
  have adjusted : state.params.limit.fixed = false := adjustable
  unfold update Fits
  rw [if_neg (by rw [adjustable]; exact Bool.false_ne_true)]
  dsimp only [bind, Except.bind]
  generalize state.params.limit = p at *
  have within := ServoParams.clamp_between p.minAngle state.offset p.maxAngle
  generalize ServoParams.clamp p.minAngle state.offset p.maxAngle = offset at *
  rcases int32_cases (state.angle + offset) with ⟨sum, inside⟩ | ⟨sum, outside⟩
  · rw [sum]
    dsimp only
    have angled := ServoParams.clamp_between p.minAngle (state.angle + offset) p.maxAngle
    have pulses := ServoParams.pulse_cases limited (state.angle + offset)
    generalize ServoParams.clamp p.minAngle (state.angle + offset) p.maxAngle = angle at *
    obtain ⟨minAngle, maxAngle, _, _⟩ := limited
    rw [int32_ok (by omega) (by omega)]
    dsimp only
    rcases pulses with ⟨ordered, close, failed⟩ | ⟨apart, length, done, least, most⟩
    · left
      rw [failed]
      exact ⟨fun fits => fits.1 ⟨ordered, close⟩, _, rfl⟩
    · right
      rw [done]
      exact ⟨⟨apart, inside⟩, _, rfl, adjusted, least, most⟩
  · left
    rw [sum]
    exact ⟨fun fits => outside fits.2, _, rfl⟩

theorem write_fixed (state : ServoState) (written : ServoWrite) :
    (state.write written).params.fixed = state.params.fixed := by
  cases written <;> rfl

/-- A sequence of writes completes exactly if all of them fit. -/
theorem run_iff (adjustable : state.params.fixed = false) (writes : List ServoWrite) :
    (∃ states, state.run writes = .ok states ∧ ∀ reached ∈ states, reached.Between) ↔ state.AllFit writes := by
  induction writes generalizing state with
  | nil =>
    refine iff_of_true ⟨[], rfl, ?_⟩ trivial
    intro reached member
    cases member
  | cons written rest ih =>
    have kept : (state.write written).params.fixed = false := (write_fixed state written).trans adjustable
    unfold run AllFit
    dsimp only [bind, Except.bind]
    rcases update_cases kept with ⟨unfit, fault, failed⟩ | ⟨fits, next, done, fixed, between⟩
    · have first : state.handlePacket written = .error fault := failed
      rw [first]
      constructor
      · rintro ⟨states, none, _⟩
        cases none
      · rintro ⟨fits, _⟩
        exact absurd fits unfit
    · have first : state.handlePacket written = .ok next := done
      rw [first]
      dsimp only
      constructor
      · rintro ⟨states, ran, all⟩
        refine ⟨fits, fun other same => ?_⟩
        cases same
        obtain ⟨reached, later, same⟩ := ok_of_bind ran
        cases same
        exact (ih fixed).mp ⟨reached, later, fun other member => all other (List.mem_cons_of_mem _ member)⟩
      · rintro ⟨_, tail⟩
        obtain ⟨states, later, all⟩ := (ih fixed).mpr (tail next rfl)
        rw [later]
        refine ⟨_, rfl, fun reached member => ?_⟩
        rcases List.mem_cons.mp member with rfl | other
        · exact between
        · exact all reached other

end ServoState

/-- No sequence of writes to a servo that is not fixed overflows or divides by zero, and every pulse is
between its limits, exactly if every write leaves angles that are apart and room for the sum. -/
theorem servo_safe_iff (params : ServoParams) (adjustable : params.fixed = false) (writes : List ServoWrite) :
    (∃ states, (ServoState.init params).run writes = .ok states ∧ ∀ reached ∈ states, reached.Between) ↔
      (ServoState.init params).AllFit writes :=
  ServoState.run_iff adjustable writes

/-- A servo that turns a quarter to either side. -/
def quarterServo : ServoParams where
  fixed := false
  minAngle := -90 * 65536
  maxAngle := 90 * 65536
  minPulse := 600
  maxPulse := 2500

theorem servo_safe_iff_quarter :
    quarterServo.fixed = false ∧
    ((∃ states, (ServoState.init quarterServo).run [.enabled 1, .angle 655360] = .ok states ∧
        ∀ reached ∈ states, reached.Between) ↔
      (ServoState.init quarterServo).AllFit [.enabled 1, .angle 655360]) :=
  ⟨rfl, servo_safe_iff quarterServo rfl [.enabled 1, .angle 655360]⟩

/-- Equal angles leave no divisor, and a large angle overflows with a positive offset. -/
theorem servo_unsafe :
    quarterServo.fixed = false ∧
    (ServoState.init quarterServo).run [.maxAngle (-5898240)] = .error .divideByZero ∧
    (ServoState.init quarterServo).run [.offset 1, .angle 2147483647] = .error .overflow := by
  decide

end Jacdac
