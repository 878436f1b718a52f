import Jacdac.Base.Endian
import Mathlib.Algebra.Order.Floor.Ring
import Mathlib.Data.Rat.Floor

/-! Number formats of `jd_numfmt.c`: an integer type and a number of fraction bits.
The doubles on the way are whole or half numbers times a power of two and below
`2 ^ 33`, so they are exact; the formats of 64 bits and of floating point, where
they are rounded, are left out. -/

namespace Jacdac

/-- The low four bits of a format: the type. -/
def numfmtType (fmt0 : Nat) : Nat := fmt0 % 16

/-- The bits above: how far a number is shifted. -/
def numfmtShift (fmt0 : Nat) : Nat := fmt0 / 16

def jdNumfmtBytes (numfmt : Nat) : Nat := 2 ^ (numfmt % 4)

def jdNumfmtIsPlainInt (numfmt : Nat) : Bool := numfmt / 8 = 0

def jdNumfmtIsValid (fmt0 : Nat) : Bool :=
  let fmt := numfmtType fmt0
  if fmt = 0b1000 ∨ fmt = 0b1001 ∨ fmt / 4 = 0b11 then false
  else if numfmtShift fmt0 > jdNumfmtBytes fmt0 * 8 then false
  else true

def intMin : Int := -2147483648
def intMax : Int := 2147483647

def jdShiftMultiplier (shift : Int) : ℚ := 2 ^ shift

def clampInt (vv l h : Int) : Int := if vv < l then l else if vv > h then h else vv

def clampDouble (vv l h : ℚ) : ℚ := if vv < l then l else if vv > h then h else vv + 1 / 2

/-- The conversion of a double to an integer type, towards zero. -/
def truncate (q : ℚ) : Int := if q < 0 then ⌈q⌉ else ⌊q⌋

/-- An integer variable of so many bytes, in memory. -/
def storeInt (bytes : Nat) (value : Int) : List UInt8 := littleEndian bytes (value % 256 ^ bytes).toNat

def loadUnsigned (bytes : Nat) (data : List UInt8) : Int := fromLittle (data.take bytes)

def loadSigned (bytes : Nat) (data : List UInt8) : Int :=
  let value : Int := fromLittle (data.take bytes)
  if 2 * value < 256 ^ bytes then value else value - 256 ^ bytes

/-- The `switch` of `jd_numfmt_write_i32`. -/
def writePlain (fmt : Nat) (q : Int) : Option (List UInt8) :=
  match fmt with
  | 0b0000 => some (storeInt 1 (clampInt q 0 0xff))
  | 0b0001 => some (storeInt 2 (clampInt q 0 0xffff))
  | 0b0010 => some (storeInt 4 (clampInt q 0 intMax))
  | 0b0011 => some (storeInt 8 (clampInt q 0 intMax))
  | 0b0100 => some (storeInt 1 (clampInt q (-0x80) 0x7f))
  | 0b0101 => some (storeInt 2 (clampInt q (-0x8000) 0x7fff))
  | 0b0110 => some (storeInt 4 q)
  | 0b0111 => some (storeInt 8 q)
  | _ => none

/-- The `switch` of `jd_numfmt_read_i32`. -/
def readPlain (fmt : Nat) (data : List UInt8) : Option Int :=
  match fmt with
  | 0b0000 => some (loadUnsigned 1 data)
  | 0b0001 => some (loadUnsigned 2 data)
  | 0b0010 => some (if loadUnsigned 4 data > intMax then intMax else loadUnsigned 4 data)
  | 0b0011 => some (if loadUnsigned 8 data > intMax then intMax else loadUnsigned 8 data)
  | 0b0100 => some (loadSigned 1 data)
  | 0b0101 => some (loadSigned 2 data)
  | 0b0110 => some (loadSigned 4 data)
  | 0b0111 => some (clampInt (loadSigned 8 data) intMin intMax)
  | _ => none

/-- The formats whose doubles may be rounded. -/
def roundedType (fmt : Nat) : Bool := fmt = 0b0011 ∨ fmt = 0b0111 ∨ fmt = 0b1010 ∨ fmt = 0b1011

/-- `jd_numfmt_write_float`; with a type that is not valid it and `jd_numfmt_write_i32`
call each other for ever. -/
def jdNumfmtWriteFloat (fmt0 : Nat) (q : ℚ) : Option (List UInt8) :=
  let fmt := numfmtType fmt0
  let shift := numfmtShift fmt0
  let q := if shift ≠ 0 then q * jdShiftMultiplier shift else q
  if fmt = 0b0010 then some (storeInt 4 (truncate (clampDouble q 0 0xffffffff)))
  else if roundedType fmt then none
  else if jdNumfmtIsPlainInt fmt then writePlain fmt (truncate (clampDouble q intMin intMax))
  else none

def jdNumfmtWriteI32 (fmt : Nat) (q : Int) : Option (List UInt8) :=
  if jdNumfmtIsPlainInt fmt then writePlain fmt q else jdNumfmtWriteFloat fmt q

def jdNumfmtReadFloat (fmt0 : Nat) (data : List UInt8) : Option ℚ :=
  let fmt := numfmtType fmt0
  let shift := numfmtShift fmt0
  let q : Option ℚ :=
    if fmt = 0b0010 then some (loadUnsigned 4 data : ℚ)
    else if roundedType fmt then none
    else if jdNumfmtIsPlainInt fmt then (readPlain fmt data).map (Int.cast : Int → ℚ)
    else none
  q.map fun q => if shift ≠ 0 then q * jdShiftMultiplier (-shift) else q

def jdNumfmtReadI32 (fmt : Nat) (data : List UInt8) : Option Int :=
  if jdNumfmtIsPlainInt fmt then readPlain fmt data
  else (jdNumfmtReadFloat fmt data).map fun q => truncate (clampDouble q intMin intMax)

end Jacdac
