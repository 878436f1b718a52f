import Mathlib.Data.Int.Order.Basic

/-! Conversions to signed types. -/

namespace Jacdac

/-- Truncation of an `int16_t` result. -/
def i16 (value : Int) : Int := (value + 32768) % 65536 - 32768

/-- Truncation of an `int32_t` result. -/
def i32 (value : Int) : Int := (value + 2147483648) % 4294967296 - 2147483648

theorem i32_eq {value : Int} (small : value.natAbs < 2147483648) : i32 value = value := by
  unfold i32
  omega

theorem i32_i32 (value : Int) : i32 (i32 value) = i32 value := by
  unfold i32
  omega

/-- Truncation changes a value by whole turns. -/
theorem i32_mod (value : Int) : (i32 value - value) % 4294967296 = 0 := by
  unfold i32
  omega

theorem i32_add (first second : Int) : i32 (i32 first + second) = i32 (first + second) := by
  unfold i32
  omega

end Jacdac
