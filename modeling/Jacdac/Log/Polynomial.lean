import Jacdac.Base.Crc
import Jacdac.Frame.Checksum
import Jacdac.Log.Block

/-! The two checksums of the SD card, and the polynomial of each checksum in the repository. -/

namespace Jacdac

def crc16SdLookup : Array UInt16 := #[
    0x0000, 0x1021, 0x2042, 0x3063, 0x4084, 0x50a5, 0x60c6, 0x70e7, 0x8108, 0x9129, 0xa14a, 0xb16b,
    0xc18c, 0xd1ad, 0xe1ce, 0xf1ef, 0x1231, 0x0210, 0x3273, 0x2252, 0x52b5, 0x4294, 0x72f7, 0x62d6,
    0x9339, 0x8318, 0xb37b, 0xa35a, 0xd3bd, 0xc39c, 0xf3ff, 0xe3de, 0x2462, 0x3443, 0x0420, 0x1401,
    0x64e6, 0x74c7, 0x44a4, 0x5485, 0xa56a, 0xb54b, 0x8528, 0x9509, 0xe5ee, 0xf5cf, 0xc5ac, 0xd58d,
    0x3653, 0x2672, 0x1611, 0x0630, 0x76d7, 0x66f6, 0x5695, 0x46b4, 0xb75b, 0xa77a, 0x9719, 0x8738,
    0xf7df, 0xe7fe, 0xd79d, 0xc7bc, 0x48c4, 0x58e5, 0x6886, 0x78a7, 0x0840, 0x1861, 0x2802, 0x3823,
    0xc9cc, 0xd9ed, 0xe98e, 0xf9af, 0x8948, 0x9969, 0xa90a, 0xb92b, 0x5af5, 0x4ad4, 0x7ab7, 0x6a96,
    0x1a71, 0x0a50, 0x3a33, 0x2a12, 0xdbfd, 0xcbdc, 0xfbbf, 0xeb9e, 0x9b79, 0x8b58, 0xbb3b, 0xab1a,
    0x6ca6, 0x7c87, 0x4ce4, 0x5cc5, 0x2c22, 0x3c03, 0x0c60, 0x1c41, 0xedae, 0xfd8f, 0xcdec, 0xddcd,
    0xad2a, 0xbd0b, 0x8d68, 0x9d49, 0x7e97, 0x6eb6, 0x5ed5, 0x4ef4, 0x3e13, 0x2e32, 0x1e51, 0x0e70,
    0xff9f, 0xefbe, 0xdfdd, 0xcffc, 0xbf1b, 0xaf3a, 0x9f59, 0x8f78, 0x9188, 0x81a9, 0xb1ca, 0xa1eb,
    0xd10c, 0xc12d, 0xf14e, 0xe16f, 0x1080, 0x00a1, 0x30c2, 0x20e3, 0x5004, 0x4025, 0x7046, 0x6067,
    0x83b9, 0x9398, 0xa3fb, 0xb3da, 0xc33d, 0xd31c, 0xe37f, 0xf35e, 0x02b1, 0x1290, 0x22f3, 0x32d2,
    0x4235, 0x5214, 0x6277, 0x7256, 0xb5ea, 0xa5cb, 0x95a8, 0x8589, 0xf56e, 0xe54f, 0xd52c, 0xc50d,
    0x34e2, 0x24c3, 0x14a0, 0x0481, 0x7466, 0x6447, 0x5424, 0x4405, 0xa7db, 0xb7fa, 0x8799, 0x97b8,
    0xe75f, 0xf77e, 0xc71d, 0xd73c, 0x26d3, 0x36f2, 0x0691, 0x16b0, 0x6657, 0x7676, 0x4615, 0x5634,
    0xd94c, 0xc96d, 0xf90e, 0xe92f, 0x99c8, 0x89e9, 0xb98a, 0xa9ab, 0x5844, 0x4865, 0x7806, 0x6827,
    0x18c0, 0x08e1, 0x3882, 0x28a3, 0xcb7d, 0xdb5c, 0xeb3f, 0xfb1e, 0x8bf9, 0x9bd8, 0xabbb, 0xbb9a,
    0x4a75, 0x5a54, 0x6a37, 0x7a16, 0x0af1, 0x1ad0, 0x2ab3, 0x3a92, 0xfd2e, 0xed0f, 0xdd6c, 0xcd4d,
    0xbdaa, 0xad8b, 0x9de8, 0x8dc9, 0x7c26, 0x6c07, 0x5c64, 0x4c45, 0x3ca2, 0x2c83, 0x1ce0, 0x0cc1,
    0xef1f, 0xff3e, 0xcf5d, 0xdf7c, 0xaf9b, 0xbfba, 0x8fd9, 0x9ff8, 0x6e17, 0x7e36, 0x4e55, 0x5e74,
    0x2e93, 0x3eb2, 0x0ed1, 0x1ef0]

def jdSdCrc16 (data : List UInt8) : UInt16 :=
  let crc := data.foldl (fun (crc : UInt16) byte =>
    crc16SdLookup.getD ((byte.toUInt16 ^^^ (crc >>> 8)) &&& 0xff).toNat 0 ^^^ (crc <<< 8)) 0
  (crc >>> 8) ||| (crc <<< 8)

/-- The low byte first. -/
def swapBytes (crc : BitVec 16) : BitVec 16 := crc.extractLsb' 0 8 ++ crc.extractLsb' 8 8

/-- One turn of the loop of `crc7tab`. -/
def crc7Step (crc : UInt8) : UInt8 := (if crc &&& 0x80 != 0 then crc ^^^ 0x89 else crc) <<< 1

def crc7tab (crc : UInt8) : UInt8 := Nat.repeat crc7Step 8 crc >>> 1

def jdSdCrc7 (data : List UInt8) : UInt8 :=
  (data.foldl (fun crc byte => crc7tab (byte ^^^ (crc <<< 1))) 0 <<< 1) ||| 1

example : jdSdCrc7 [0x40, 0, 0, 0, 0] = 0x95 := by decide +kernel

open Crc

theorem crc16SdLookup_idle : ∀ value : BitVec 8,
    (crc16SdLookup.getD value.toNat 0).toBitVec = idle (shiftHigh 0x1021#16) 8 (value ++ 0#8) := by
  decide +kernel

theorem crc32Lookup_idle : ∀ value : BitVec 8,
    (crc32Lookup.getD value.toNat 0).toBitVec = idle (shiftLow 0xEDB88320#32) 8 (0#24 ++ value) := by
  decide +kernel

/-- `crc7tab` keeps the seven bits at the low end. -/
theorem crc7tab_idle : ∀ value : BitVec 8,
    (crc7tab (.ofBitVec value)).toBitVec = idle (shiftHigh (0x09#7 ++ 0#1)) 8 value >>> 1 := by
  decide +kernel

theorem low_byte {width : Nat} (value : BitVec width) (wide : 8 ≤ width) :
    (value &&& BitVec.ofNat width 0xff).toNat = (value.setWidth 8).toNat := by
  have mask : 255 < 2 ^ width := Nat.lt_of_lt_of_le (by decide) (Nat.pow_le_pow_right (by decide) wide)
  rw [BitVec.toNat_and, BitVec.toNat_setWidth, BitVec.toNat_ofNat, Nat.mod_eq_of_lt mask]
  exact Nat.and_two_pow_sub_one_eq_mod value.toNat 8

theorem crc16Sd_turn (crc : UInt16) (byte : UInt8) :
    (crc16SdLookup.getD ((byte.toUInt16 ^^^ (crc >>> 8)) &&& 0xff).toNat 0 ^^^ (crc <<< 8)).toBitVec =
      (bitsHigh byte.toBitVec).foldl (shiftHigh 0x1021#16) crc.toBitVec := by
  obtain ⟨high, low, parts⟩ := @exists_append 8 8 crc.toBitVec
  have index : ((byte.toUInt16 ^^^ (crc >>> 8)) &&& 0xff).toNat = (high ^^^ byte.toBitVec).toNat := by
    have whole := low_byte (byte.toBitVec.setWidth 16 ^^^ (crc.toBitVec >>> 8)) (by decide)
    rw [parts] at whole
    have bits : (byte.toBitVec.setWidth 16 ^^^ ((high ++ low) >>> 8)).setWidth 8 = high ^^^ byte.toBitVec := by
      ext bit inside
      simp
      grind
    rw [bits] at whole
    rw [← whole, ← parts]
    rfl
  have whole := @byteHigh 8 0x1021#16 high byte.toBitVec low
  rw [← crc16SdLookup_idle, ← parts] at whole
  rw [whole, ← index]
  rfl

theorem crc32_turn (crc : UInt32) (byte : UInt8) :
    (crc32Lookup.getD ((crc ^^^ byte.toUInt32) &&& 0xff).toNat 0 ^^^ (crc >>> 8)).toBitVec =
      (bitsLow byte.toBitVec).foldl (shiftLow 0xEDB88320#32) crc.toBitVec := by
  obtain ⟨high, low, parts⟩ := @exists_append 8 24 crc.toBitVec
  have index : ((crc ^^^ byte.toUInt32) &&& 0xff).toNat = (low ^^^ byte.toBitVec).toNat := by
    have whole := low_byte (crc.toBitVec ^^^ byte.toBitVec.setWidth 32) (by decide)
    rw [parts] at whole
    have bits : ((high ++ low) ^^^ byte.toBitVec.setWidth 32).setWidth 8 = low ^^^ byte.toBitVec := by
      ext bit inside
      simp
      grind
    rw [bits] at whole
    rw [← whole, ← parts]
    rfl
  have whole := @byteLow 24 0xEDB88320#32 high low byte.toBitVec
  rw [← crc32Lookup_idle, ← parts] at whole
  rw [whole, ← index]
  rfl

/-- Each of the terms of `jd_crc16` is a remainder of the folded byte. -/
theorem spread_idle : ∀ value : BitVec 8,
    let folded := (value ^^^ (value >>> 4)).setWidth 16
    (folded <<< 12) ^^^ (folded <<< 5) ^^^ folded = idle (shiftHigh 0x1021#16) 8 (value ++ 0#8) := by
  decide +kernel

theorem crc16_turn (crc : UInt16) (byte : UInt8) :
    (crcStep crc byte).toBitVec = (bitsHigh byte.toBitVec).foldl (shiftHigh 0x1021#16) crc.toBitVec := by
  obtain ⟨high, low, parts⟩ := @exists_append 8 8 crc.toBitVec
  have whole := @byteHigh 8 0x1021#16 high byte.toBitVec low
  rw [← spread_idle, ← parts] at whole
  have top : (crc.toBitVec >>> 8).setWidth 8 = high := by
    rw [parts]
    ext bit inside
    simp
    grind
  rw [whole, ← top, BitVec.xor_comm, ← BitVec.xor_assoc, ← BitVec.xor_assoc]
  rfl

theorem crc7_turn (crc byte : UInt8) :
    (crc7tab (byte ^^^ (crc <<< 1))).toBitVec.setWidth 7 =
      (bitsHigh byte.toBitVec).foldl (shiftHigh 0x09#7) (crc.toBitVec.setWidth 7) := by
  have length : (bitsHigh byte.toBitVec).length = 8 := rfl
  have loaded : (bitsHigh byte.toBitVec).foldl (shiftHigh (0x09#7 ++ 0#1)) byte.toBitVec = 0#8 := by
    rw [shiftHigh_own _ _ _ (Nat.le_of_eq length) (fun index within => (bitsHigh_getElem _ index within).symm), length]
    exact BitVec.shiftLeft_eq_zero (Nat.le_refl 8)
  have moved : (byte ^^^ (crc <<< 1)).toBitVec = (crc.toBitVec.setWidth 7 ++ 0#1) ^^^ byte.toBitVec := by
    have up : crc.toBitVec <<< 1 = crc.toBitVec.setWidth 7 ++ 0#1 := by
      apply BitVec.eq_of_getLsbD_eq
      intro index within
      simp
      grind
    rw [← up, BitVec.xor_comm]
    rfl
  have whole := (shiftHigh_linear (0x09#7 ++ 0#1)).load loaded (crc.toBitVec.setWidth 7 ++ 0#1)
  rw [foldl_append _ _ _ (by decide), length, ← moved] at whole
  have turned := crc7tab_idle (byte ^^^ (crc <<< 1)).toBitVec
  rw [← whole] at turned
  rw [UInt8.ofBitVec_toBitVec] at turned
  rw [turned]
  ext bit inside
  simp
  grind

theorem swapBytes_shifts (crc : UInt16) : ((crc >>> 8) ||| (crc <<< 8)).toBitVec = swapBytes crc.toBitVec := by
  have parts : (crc.toBitVec >>> 8) ||| (crc.toBitVec <<< 8) = swapBytes crc.toBitVec := by
    apply BitVec.eq_of_getLsbD_eq
    intro index within
    simp [swapBytes]
    grind
  exact parts

/-- The stop bit goes below the seven bits. -/
theorem stop_bit (crc : UInt8) : ((crc <<< 1) ||| 1).toBitVec = crc.toBitVec.setWidth 7 ++ 1#1 := by
  have parts : (crc.toBitVec <<< 1) ||| 1#8 = crc.toBitVec.setWidth 7 ++ 1#1 := by
    apply BitVec.eq_of_getLsbD_eq
    intro index within
    simp
    grind
  exact parts

/-- Checksums of frames, of logs and of the two kinds of SD card messages are remainders, taken bit by bit. -/
theorem checksums_remainders (data : List UInt8) :
    (jdCrc16 data).toBitVec = remainder (shiftHigh 0x1021#16) bitsHigh 0xffff#16 data ∧
      (jdCrc32 data).toBitVec = ~~~ remainder (shiftLow 0xEDB88320#32) bitsLow (~~~ 0#32) data ∧
      (jdSdCrc16 data).toBitVec = swapBytes (remainder (shiftHigh 0x1021#16) bitsHigh 0#16 data) ∧
      (jdSdCrc7 data).toBitVec = remainder (shiftHigh 0x09#7) bitsHigh 0#7 data ++ 1#1 := by
  refine ⟨?_, ?_, ?_, ?_⟩
  · exact remainder_foldl crc16_turn 0xffff data
  · exact congrArg (~~~ ·) (remainder_foldl crc32_turn 0xffffffff data)
  · exact (swapBytes_shifts _).trans (congrArg swapBytes (remainder_foldl crc16Sd_turn 0 data))
  · have whole := @remainder_foldl 7 UInt8 (shiftHigh 0x09#7) bitsHigh (fun crc byte => crc7tab (byte ^^^ (crc <<< 1)))
      (·.toBitVec.setWidth 7) crc7_turn 0 data
    exact (stop_bit _).trans (congrArg (· ++ 1#1) whole)

end Jacdac
