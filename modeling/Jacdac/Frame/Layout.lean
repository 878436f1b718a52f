import Jacdac.Base.Memory

/-! The frame layout of `jd_physical.h` and the checksum of `jd_util.c`. The
code overlays `jd_frame_t`, `jd_packet_t` and plain bytes on the same storage,
so a frame is its memory, addressed from the first byte of `crc`. -/

namespace Jacdac

abbrev Frame := Memory

/-- `JD_SERIAL_PAYLOAD_SIZE`. -/
def serialPayloadSize : Nat := 236

/-- `sizeof(jd_frame_t)`: the 12-byte header and `data[JD_SERIAL_PAYLOAD_SIZE + 4]`. -/
def frameStructSize : Nat := 252

/-- `ALIGN`: round up to a whole number of words. -/
def align (length : Nat) : Nat := (length + 3) / 4 * 4

theorem align_ge (length : Nat) : length ≤ align length := by
  unfold align; omega

theorem align_lt (length : Nat) : align length < length + 4 := by
  unfold align; omega

theorem align_mod (length : Nat) : align length % 4 = 0 := by
  unfold align; omega

namespace Frame

/-- `JD_FRAME_FLAG_COMMAND`. -/
def flagCommand : UInt8 := 0x01
/-- `JD_FRAME_FLAG_ACK_REQUESTED`. -/
def flagAckRequested : UInt8 := 0x02
/-- `JD_FRAME_FLAG_LOOPBACK`. -/
def flagLoopback : UInt8 := 0x40

def size (frame : Frame) : Nat := (frame 2).toNat

def flags (frame : Frame) : UInt8 := frame 3

def crc (frame : Frame) : UInt16 := (frame 0).toUInt16 ||| ((frame 1).toUInt16 <<< 8)

def deviceIdentifier (frame : Frame) : List UInt8 := frame.read 4 8

/-- Offset of `data` inside the structure. -/
def dataOffset : Nat := 12

def data (frame : Frame) (index : Nat) : UInt8 := frame (dataOffset + index)

def setSize (frame : Frame) (size : Nat) : Frame := frame.write 2 [UInt8.ofNat size]

def setFlags (frame : Frame) (flags : UInt8) : Frame := frame.write 3 [flags]

def setCrc (frame : Frame) (crc : UInt16) : Frame :=
  frame.write 0 [crc.toUInt8, (crc >>> 8).toUInt8]

def setDeviceIdentifier (frame : Frame) (identifier : List UInt8) : Frame :=
  frame.write 4 identifier

def setData (frame : Frame) (index : Nat) (bytes : List UInt8) : Frame :=
  frame.write (dataOffset + index) bytes

@[simp] theorem setFlags_data (frame : Frame) (flags : UInt8) (index : Nat) :
    (frame.setFlags flags).data index = frame.data index :=
  Memory.write_outside (.inr (by simp [dataOffset]; omega))

@[simp] theorem setFlags_size (frame : Frame) (flags : UInt8) :
    (frame.setFlags flags).size = frame.size := rfl

@[simp] theorem setData_size (frame : Frame) (index : Nat) (bytes : List UInt8) :
    (frame.setData index bytes).size = frame.size := by
  rw [size, setData, Memory.write_outside (.inl (by simp [dataOffset]; omega)), size]

@[simp] theorem setSize_size (frame : Frame) (size : Nat) :
    (frame.setSize size).size = size % 256 := by
  simp [setSize, Frame.size, Memory.write]

theorem setSize_outside {frame : Frame} {size cell : Nat} (outside : 3 ≤ cell) :
    frame.setSize size cell = frame cell :=
  Memory.write_outside (.inr outside)

theorem setData_outside {frame : Frame} {index cell : Nat} {bytes : List UInt8}
    (outside : cell < index ∨ index + bytes.length ≤ cell) :
    (frame.setData index bytes).data cell = frame.data cell :=
  Memory.write_outside (by omega)

theorem setData_self (frame : Frame) (index : Nat) (byte : UInt8) :
    (frame.setData index [byte]).data index = byte := by
  simp [setData, data, Memory.write]

theorem size_lt (frame : Frame) : frame.size < 256 := (frame 2).toNat_lt

/-- `JD_FRAME_SIZE`: bytes of the frame on the wire. -/
def frameSize (frame : Frame) : Nat := frame.size + 12

end Frame

end Jacdac
