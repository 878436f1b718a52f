import Jacdac.Base.Memory

/-! Characters and strings of C. A `char` is signed or not, as the compiler has it. -/

namespace Jacdac

namespace Text

/-- The value of a `char`. -/
def charInt (signed : Bool) (c : UInt8) : Int := if signed ∧ 128 ≤ c then (c.toNat : Int) - 256 else c.toNat

/-- A string up to its NUL. -/
def cString (s : List UInt8) : List UInt8 := s.takeWhile (· ≠ 0)

def strlen (s : List UInt8) : Nat := (cString s).length

theorem cString_nil : cString [] = [] := rfl

theorem cString_cons {c : UInt8} (some : c ≠ 0) (rest : List UInt8) : cString (c :: rest) = c :: cString rest := by
  rw [cString, List.takeWhile_cons, if_pos (decide_eq_true some)]
  rfl

end Text

end Jacdac
