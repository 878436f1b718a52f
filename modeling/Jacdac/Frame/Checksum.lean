import Jacdac.Frame.Layout

/-! `jd_crc16` and the two functions that apply it to a frame, and the error
detection the pipes rely on: changing one byte always changes the checksum. -/

namespace Jacdac

/-- One turn of the loop of `jd_crc16`. -/
def crcStep (crc : UInt16) (data : UInt8) : UInt16 :=
  let x := (crc >>> 8).toUInt8 ^^^ data
  let x := x ^^^ (x >>> 4)
  (crc <<< 8) ^^^ (x.toUInt16 <<< 12) ^^^ (x.toUInt16 <<< 5) ^^^ x.toUInt16

def jdCrc16 (data : List UInt8) : UInt16 := data.foldl crcStep 0xffff

example : jdCrc16 [0x31, 0x32, 0x33, 0x34, 0x35, 0x36, 0x37, 0x38, 0x39] = 0x29b1 := by decide

/-- The bytes `jd_frame_crc_ok` and `jd_compute_crc` cover: all but `crc` itself. -/
def Frame.covered (frame : Frame) : List UInt8 := frame.read 2 (frame.frameSize - 2)

def jdFrameCrcOk (frame : Frame) : Bool := jdCrc16 frame.covered == frame.crc

def jdComputeCrc (frame : Frame) : Frame := frame.setCrc (jdCrc16 frame.covered)

private theorem fold_involutive :
    ∀ x : BitVec 8, (x ^^^ (x >>> 4)) ^^^ ((x ^^^ (x >>> 4)) >>> 4) = x := by
  decide +kernel

private theorem spread_involutive :
    ∀ x : BitVec 8, (x ^^^ (x <<< 5)) ^^^ ((x ^^^ (x <<< 5)) <<< 5) = x := by
  decide +kernel

/-- The folded byte of one turn, before it is spread over the result. -/
private def mixed (crc : UInt16) (data : UInt8) : BitVec 8 :=
  let x := (crc.toBitVec >>> 8).setWidth 8 ^^^ data.toBitVec
  x ^^^ (x >>> 4)

private theorem crcStep_toBitVec (crc : UInt16) (data : UInt8) :
    (crcStep crc data).toBitVec = (crc.toBitVec <<< 8) ^^^ ((mixed crc data).setWidth 16 <<< 12) ^^^
      ((mixed crc data).setWidth 16 <<< 5) ^^^ (mixed crc data).setWidth 16 := by
  rfl

/-- The low byte of the result determines the folded byte. -/
private theorem crcStep_low (crc : UInt16) (data : UInt8) :
    (crcStep crc data).toBitVec.setWidth 8 = mixed crc data ^^^ (mixed crc data <<< 5) := by
  rw [crcStep_toBitVec]
  ext bit inside
  simp
  grind

private theorem mixed_of_eq {first second : UInt16} {one two : UInt8}
    (same : crcStep first one = crcStep second two) : mixed first one = mixed second two := by
  have low := congrArg (fun crc : UInt16 => crc.toBitVec.setWidth 8) same
  simp only [crcStep_low] at low
  rw [← spread_involutive (mixed first one), low, spread_involutive]

private theorem top_of_mixed {first second : UInt16} {one two : UInt8}
    (same : mixed first one = mixed second two) :
    (first.toBitVec >>> 8).setWidth 8 ^^^ one.toBitVec =
      (second.toBitVec >>> 8).setWidth 8 ^^^ two.toBitVec := by
  have folded := congrArg (fun x : BitVec 8 => x ^^^ (x >>> 4)) same
  simpa only [mixed, fold_involutive] using folded

theorem crcStep_data_injective (same : crcStep crc one = crcStep crc two) : one = two := by
  have top := top_of_mixed (mixed_of_eq same)
  exact UInt8.toBitVec_inj.mp (BitVec.xor_right_inj _ |>.mp top)

theorem crcStep_crc_injective (same : crcStep first data = crcStep second data) :
    first = second := by
  have mix := mixed_of_eq same
  have top := (BitVec.xor_left_inj _).mp (top_of_mixed mix)
  have whole := congrArg UInt16.toBitVec same
  rw [crcStep_toBitVec, crcStep_toBitVec, mix, BitVec.xor_left_inj, BitVec.xor_left_inj,
    BitVec.xor_left_inj] at whole
  apply UInt16.toBitVec_inj.mp
  ext bit inside
  by_cases lower : bit < 8
  · have shifted := congrArg (fun word : BitVec 16 => word.getLsbD (bit + 8)) whole
    simp at shifted
    grind
  · have shifted := congrArg (fun word : BitVec 8 => word.getLsbD (bit - 8)) top
    simp at shifted
    grind

theorem crcFold_injective (tail : List UInt8) (same : tail.foldl crcStep first = tail.foldl crcStep second) :
    first = second := by
  induction tail generalizing first second with
  | nil => exact same
  | cons byte rest ih => exact crcStep_crc_injective (ih same)

/-- A single changed byte is always detected. -/
theorem jdCrc16_detects (before after : List UInt8)
    (same : jdCrc16 (before ++ one :: after) = jdCrc16 (before ++ two :: after)) : one = two := by
  simp only [jdCrc16, List.foldl_append, List.foldl_cons] at same
  exact crcStep_data_injective (crcFold_injective after same)

theorem bytes_word (word : UInt16) :
    word.toUInt8.toUInt16 ||| ((word >>> 8).toUInt8.toUInt16 <<< 8) = word := by
  apply UInt16.toBitVec_inj.mp
  change (word.toBitVec.setWidth 8).setWidth 16 |||
    ((word.toBitVec >>> 8).setWidth 8).setWidth 16 <<< 8 = word.toBitVec
  ext bit inside
  simp
  by_cases lower : bit < 8
  · grind
  · grind

@[simp] theorem Frame.setCrc_crc (frame : Frame) (crc : UInt16) : (frame.setCrc crc).crc = crc :=
  bytes_word crc

theorem jdComputeCrc_covered (frame : Frame) : (jdComputeCrc frame).covered = frame.covered := by
  have size : (jdComputeCrc frame).size = frame.size := rfl
  rw [Frame.covered, Frame.frameSize, size, jdComputeCrc, Frame.setCrc,
    Memory.read_write_disjoint (.inr (by simp))]
  rfl

theorem jdFrameCrcOk_compute (frame : Frame) : jdFrameCrcOk (jdComputeCrc frame) = true := by
  rw [jdFrameCrcOk, jdComputeCrc_covered, jdComputeCrc, Frame.setCrc_crc, beq_self_eq_true]

end Jacdac
