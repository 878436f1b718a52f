import Jacdac.Base.Memory

/-! Little-endian numbers in memory. -/

namespace Jacdac

/-- The lowest `count` bytes of `value`, lowest first. -/
def littleEndian : Nat → Nat → List UInt8
  | 0, _ => []
  | count + 1, value => UInt8.ofNat value :: littleEndian count (value / 256)

def fromLittle : List UInt8 → Nat
  | [] => 0
  | byte :: rest => byte.toNat + 256 * fromLittle rest

@[simp] theorem littleEndian_length (count value : Nat) : (littleEndian count value).length = count := by
  induction count generalizing value with
  | zero => rfl
  | succ count ih => simp [littleEndian, ih]

theorem fromLittle_littleEndian (count value : Nat) :
    fromLittle (littleEndian count value) = value % 256 ^ count := by
  induction count generalizing value with
  | zero => simp [littleEndian, fromLittle, Nat.mod_one]
  | succ count ih =>
    have byte : (UInt8.ofNat value).toNat = value % 256 := UInt8.toNat_ofNat'
    rw [littleEndian, fromLittle, ih, byte, Nat.pow_succ' (m := 256), Nat.mod_mul]

theorem fromLittle_lt (bytes : List UInt8) : fromLittle bytes < 256 ^ bytes.length := by
  induction bytes with
  | nil => decide
  | cons byte rest ih =>
    have low := byte.toNat_lt
    rw [fromLittle, List.length_cons, Nat.pow_succ']
    omega

theorem fromLittle_append (first second : List UInt8) :
    fromLittle (first ++ second) = fromLittle first + 256 ^ first.length * fromLittle second := by
  induction first with
  | nil => simp [fromLittle]
  | cons byte rest ih =>
    rw [List.cons_append, fromLittle, fromLittle, ih, List.length_cons, Nat.pow_succ', Nat.mul_add, Nat.mul_assoc,
      Nat.add_assoc]

theorem littleEndian_fromLittle (bytes : List UInt8) : littleEndian bytes.length (fromLittle bytes) = bytes := by
  induction bytes with
  | nil => rfl
  | cons byte rest ih =>
    have small := byte.toNat_lt
    have low : UInt8.ofNat (byte.toNat + 256 * fromLittle rest) = byte := by
      apply UInt8.toNat_inj.mp
      rw [UInt8.toNat_ofNat']
      omega
    have high : (byte.toNat + 256 * fromLittle rest) / 256 = fromLittle rest := by omega
    rw [List.length_cons, fromLittle, littleEndian, low, high, ih]

namespace Memory

/-- The `count`-byte number at `address`. -/
def number (memory : Memory) (address count : Nat) : Nat := fromLittle (memory.read address count)

theorem number_lt (memory : Memory) (address count : Nat) :
    memory.number address count < 256 ^ count := by
  have bound := fromLittle_lt (memory.read address count)
  rwa [read_length] at bound

theorem number_of_read {memory : Memory} {address count value : Nat}
    (stored : memory.read address count = littleEndian count value) (small : value < 256 ^ count) :
    memory.number address count = value := by
  rw [number, stored, fromLittle_littleEndian, Nat.mod_eq_of_lt small]

theorem number_congr {first second : Memory} {address count : Nat}
    (same : ∀ cell, address ≤ cell → cell < address + count → first cell = second cell) :
    first.number address count = second.number address count := by
  rw [number, number, read_congr same]

/-- A number inside a stored block. -/
theorem number_write_part {count value : Nat} (small : value < 256 ^ count) (memory : Memory) (address : Nat)
    (before after : List UInt8) :
    (memory.write address (before ++ littleEndian count value ++ after)).number (address + before.length) count =
      value := by
  refine number_of_read ?_ small
  have part := read_write_part memory address before (littleEndian count value) after
  rwa [littleEndian_length] at part

end Memory

end Jacdac
