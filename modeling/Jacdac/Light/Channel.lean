import Jacdac.Base.Progress
import Jacdac.Base.Signed
import Mathlib.Algebra.Order.Ring.Int
import Mathlib.Tactic.Linarith

/-! A color channel of a status light or an LED, and its animation. -/

namespace Jacdac

/-- `channel_t`, which `ledsingle.c` and `jd_status_light.c` both declare. -/
structure Channel where
  value : UInt16
  speed : Int
  target : UInt8
  pin : UInt8
  pwm : UInt8
  mult : UInt8
  deriving DecidableEq

/-- The color and the speed of `jd_control_set_status_light_t`. -/
structure StatusLight where
  color : Fin 3 → UInt8
  speed : UInt8

namespace Channel

/-- The step of `led_animate` and `jd_status_set` for one channel. -/
def animate (color speed : UInt8) (channel : Channel) : Channel :=
  { channel with
    target := color
    speed := i16 ((color.toNat - (channel.value.toNat / 256 : Nat) : Int) * speed.toNat / 2) }

/-- The step of `led_process` and `jd_status_process` for one channel. -/
def advance (channel : Channel) : Channel :=
  let v : Int := channel.value.toNat + channel.speed
  if channel.speed = 0 ∨ (channel.speed < 0 ∧ v / 256 < channel.target.toNat) ∨
      (0 < channel.speed ∧ channel.target.toNat < v / 256) then
    { channel with speed := 0, value := UInt16.ofNat (channel.target.toNat * 256) }
  else { channel with value := UInt16.ofNat (v % 65536).toNat }

/-- The end of an animation. -/
def full (channel : Channel) : Nat := channel.target.toNat * 256

/-- On the way from a value: between it and the end, and not past the end. -/
structure Heading (start : Nat) (channel : Channel) : Prop where
  lower : min start channel.full ≤ channel.value.toNat
  upper : channel.value.toNat ≤ max start (channel.full + 255)
  rising : 0 < channel.speed → channel.value.toNat ≤ channel.full + 255
  falling : channel.speed < 0 → channel.full ≤ channel.value.toNat

/-- The animation is over. -/
def Landed (channel : Channel) : Prop := channel.value.toNat = channel.full ∧ channel.speed = 0

/-- How far the value is from where it stops at the latest. -/
def distance (channel : Channel) : Nat :=
  if 0 < channel.speed then channel.full + 255 - channel.value.toNat else channel.value.toNat - channel.full

/-- The channel when the animation is over. -/
def land (channel : Channel) : Channel := { channel with speed := 0, value := UInt16.ofNat channel.full }

variable {channel : Channel} {start : Nat}

theorem full_lt (channel : Channel) : channel.full + 255 < 65536 := by
  have := channel.target.toNat_lt
  unfold full
  omega

theorem land_value (channel : Channel) : channel.land.value.toNat = channel.full := by
  have := channel.full_lt
  show (UInt16.ofNat channel.full).toNat = channel.full
  rw [UInt16.toNat_ofNat']
  exact Nat.mod_eq_of_lt (by omega)

theorem land_landed (channel : Channel) : channel.land.Landed := ⟨channel.land_value, rfl⟩

/-- A frame ends the animation, or moves the value by the speed: then it does not wrap, and is not
past the end. -/
theorem advance_cases (channel : Channel) : channel.advance = channel.land ∨
    channel.speed ≠ 0 ∧ ∃ value : UInt16, channel.advance = { channel with value } ∧
      (value.toNat : Int) = channel.value.toNat + channel.speed ∧
      (0 < channel.speed → value.toNat ≤ channel.full + 255) ∧ (channel.speed < 0 → channel.full ≤ value.toNat) := by
  have limit := channel.full_lt
  have small := channel.value.toNat_lt
  unfold advance
  dsimp only
  split
  · exact .inl rfl
  · rename_i onward
    right
    obtain ⟨moving, falling, rising⟩ : channel.speed ≠ 0 ∧
        (channel.speed < 0 → (channel.target.toNat : Int) ≤ (channel.value.toNat + channel.speed) / 256) ∧
        (0 < channel.speed → (channel.value.toNat + channel.speed) / 256 ≤ (channel.target.toNat : Int)) := by
      omega
    have inside : 0 ≤ channel.value.toNat + channel.speed ∧ channel.value.toNat + channel.speed < 65536 ∧
        (0 < channel.speed → channel.value.toNat + channel.speed ≤ channel.full + 255) ∧
        (channel.speed < 0 → channel.full ≤ channel.value.toNat + channel.speed) := by
      unfold full at *
      omega
    have stored : ((UInt16.ofNat ((channel.value.toNat + channel.speed) % 65536).toNat).toNat : Int) =
        channel.value.toNat + channel.speed := by
      rw [UInt16.toNat_ofNat']
      omega
    refine ⟨moving, _, rfl, stored, fun up => ?_, fun down => ?_⟩
    · have := inside.2.2.1 up
      omega
    · have := inside.2.2.2 down
      omega

theorem product_bounds {difference factor : Int} (low : -255 ≤ difference) (high : difference ≤ 255) (nonneg : 0 ≤ factor)
    (small : factor ≤ 255) : -65025 ≤ difference * factor ∧ difference * factor ≤ 65025 := by
  constructor
  · nlinarith [mul_nonneg (by linarith : 0 ≤ difference + 255) nonneg]
  · nlinarith [mul_nonneg (by linarith : 0 ≤ 255 - difference) nonneg]

/-- The speed fits into 16 bits. -/
theorem animate_speed (color speed : UInt8) (channel : Channel) : (channel.animate color speed).speed =
    (color.toNat - (channel.value.toNat / 256 : Nat) : Int) * speed.toNat / 2 := by
  have small := channel.value.toNat_lt
  have byte := color.toNat_lt
  have factor := speed.toNat_lt
  have bounds : -65025 ≤ (color.toNat - (channel.value.toNat / 256 : Nat) : Int) * speed.toNat ∧
      (color.toNat - (channel.value.toNat / 256 : Nat) : Int) * speed.toNat ≤ 65025 :=
    product_bounds (by omega) (by omega) (by omega) (by omega)
  show i16 _ = _
  generalize (color.toNat - (channel.value.toNat / 256 : Nat) : Int) * speed.toNat = product at bounds ⊢
  unfold i16
  omega

theorem animate_heading (color speed : UInt8) (channel : Channel) :
    (channel.animate color speed).Heading channel.value.toNat := by
  have nonneg : (0 : Int) ≤ speed.toNat := Int.natCast_nonneg _
  have ends : (channel.animate color speed).full = color.toNat * 256 := rfl
  -- the sign of the speed is that of the difference
  have up : 0 < (channel.animate color speed).speed → channel.value.toNat / 256 < color.toNat := by
    rw [animate_speed]
    intro positive
    by_contra below
    have := mul_nonpos_of_nonpos_of_nonneg
      (by omega : (color.toNat - (channel.value.toNat / 256 : Nat) : Int) ≤ 0) nonneg
    omega
  have down : (channel.animate color speed).speed < 0 → color.toNat < channel.value.toNat / 256 := by
    rw [animate_speed]
    intro negative
    by_contra above
    have := mul_nonneg (by omega : (0 : Int) ≤ color.toNat - (channel.value.toNat / 256 : Nat)) nonneg
    omega
  refine ⟨Nat.min_le_left _ _, Nat.le_max_left _ _, fun rises => ?_, fun falls => ?_⟩
  · have := up rises
    show channel.value.toNat ≤ _
    omega
  · have := down falls
    show _ ≤ channel.value.toNat
    omega

theorem Heading.advance (heading : channel.Heading start) : channel.advance.Heading start := by
  obtain ⟨lower, upper, rising, falling⟩ := heading
  rcases channel.advance_cases with ends | ⟨moving, value, moves, exact_, below, above⟩
  · rw [ends]
    have value := channel.land_value
    refine ⟨?_, ?_, fun up => absurd up (lt_irrefl 0), fun down => absurd down (lt_irrefl 0)⟩
    · rw [value]
      exact Nat.min_le_right _ _
    · rw [value]
      exact Nat.le_trans (Nat.le_add_right _ 255) (Nat.le_max_right _ _)
  · rw [moves]
    refine ⟨?_, ?_, below, above⟩
    · show min start channel.full ≤ value.toNat
      omega
    · show value.toNat ≤ max start (channel.full + 255)
      omega

theorem Landed.advance (landed : channel.Landed) : channel.advance.Landed := by
  rcases channel.advance_cases with ends | ⟨moving, _⟩
  · rw [ends]
    exact channel.land_landed
  · exact absurd landed.2 moving

/-- Every frame ends the animation or brings the value closer. -/
theorem progress (start : Nat) : Progress advance (Heading start) Landed distance where
  kept heading := heading.advance
  stays landed := landed.advance
  closer {channel} heading := by
    rcases channel.advance_cases with ends | ⟨moving, value, moves, exact_, below, above⟩
    · rw [ends]
      exact .inl channel.land_landed
    · rw [moves]
      right
      have rising := heading.rising
      have falling := heading.falling
      show (if 0 < channel.speed then channel.full + 255 - value.toNat else value.toNat - channel.full) <
        if 0 < channel.speed then channel.full + 255 - channel.value.toNat else channel.value.toNat - channel.full
      split <;> omega

theorem distance_lt (channel : Channel) : channel.distance < 65536 := by
  have limit := channel.full_lt
  have small := channel.value.toNat_lt
  unfold distance
  split <;> omega

/-- After a command the animation stays between the value and its end, and after `2 ^ 16` frames it
is over. -/
theorem animation (color speed : UInt8) (channel : Channel) (frames : Nat) :
    (advance^[frames] (channel.animate color speed)).Heading channel.value.toNat ∧
      (65536 ≤ frames → (advance^[frames] (channel.animate color speed)).Landed) := by
  have heading := channel.animate_heading color speed
  refine ⟨(progress _).iterate_good heading frames, fun enough => ?_⟩
  exact (progress _).iterate_done heading (Nat.lt_of_lt_of_le (distance_lt _) enough)

end Channel

end Jacdac
