import Jacdac.Frame.Layout

/-! Packets inside a frame: `jd_push_in_frame` appends one, `jd_shift_frame`
moves the next one over the first, and the loop of `jd_services_process_frame`
hands them out. -/

namespace Jacdac

/-- Truncation of an `unsigned` result. -/
def u32 (value : Nat) : Nat := value % 4294967296

theorem u32_of_lt {value : Nat} (small : value < 4294967296) : u32 value = value := by
  unfold u32; omega

/-- The header fields and payload of `jd_packet_t`, as a handler reads them. -/
structure Packet where
  serviceIndex : UInt8
  serviceCommand : Nat
  payload : List UInt8
  deriving DecidableEq, Repr

namespace Packet

def serviceSize (packet : Packet) : Nat := packet.payload.length

/-- The header bytes `jd_push_in_frame` stores, followed by the payload. -/
def bytes (packet : Packet) : List UInt8 :=
  [UInt8.ofNat packet.serviceSize, packet.serviceIndex, UInt8.ofNat packet.serviceCommand,
    UInt8.ofNat (packet.serviceCommand / 256)] ++ packet.payload

end Packet

/-- The panics of `jd_push_in_frame`. -/
inductive FrameFault where
  | serviceNum
  | serviceCmd
  deriving DecidableEq, Repr

def jdResetFrame (frame : Frame) : Frame := frame.setSize 0

/-- The offset in `data` where the payload goes, and the frame with the packet
header in place; `none` is the `NULL` of a packet that does not fit. -/
def jdPushInFrame (frame : Frame) (serviceNum serviceCmd serviceSize : Nat) :
    Except FrameFault (Option (Nat × Frame)) :=
  if serviceNum / 256 ≠ 0 then .error .serviceNum
  else if serviceCmd / 65536 ≠ 0 then .error .serviceCmd
  else
    let dst := frame.size
    let szLeft := u32 (serialPayloadSize + 4294967296 - dst)
    if u32 (serviceSize + 4) > szLeft then .ok none
    else
      let header := [UInt8.ofNat serviceSize, UInt8.ofNat serviceNum, UInt8.ofNat serviceCmd,
        UInt8.ofNat (serviceCmd / 256)]
      let frame := frame.setData dst header
      .ok (some (dst + 4, frame.setSize (frame.size + align (u32 (serviceSize + 4)))))

/-- `jd_word_move`, one word at a time from left to right; the last argument
counts words. -/
def jdWordMove (memory : Memory) (dst src : Nat) : Nat → Memory
  | 0 => memory
  | words + 1 => jdWordMove (memory.write dst (memory.read src 4)) (dst + 4) (src + 4) words

/-- The packet at the start of `data`. -/
def Frame.packet (frame : Frame) : Packet where
  serviceIndex := frame.data 1
  serviceCommand := (frame.data 2).toNat + 256 * (frame.data 3).toNat
  payload := frame.read (dataOffset + 4) (frame.data 0).toNat

/-- `jd_shift_frame`; the flag is its result. A `0xff` after the first packet
marks the next byte as the offset to resume from. -/
def jdShiftFrame (frame : Frame) : Bool × Frame :=
  let psize := frame.size
  let oldsz := (frame.data 0).toNat + 4
  if align oldsz ≥ psize then (false, frame)
  else
    let marked := frame.data oldsz = 0xff
    let ptr := if marked then (frame.data (oldsz + 1)).toNat else align oldsz
    if marked ∧ (ptr ≥ psize ∨ ptr ≤ oldsz) then (false, frame)
    else
      let frame := frame.setFlags (frame.flags &&& ~~~ Frame.flagAckRequested)
      let newsz := (frame.data ptr).toNat + 4
      if ptr + newsz > psize then (false, frame)
      else
        let frame : Frame := jdWordMove frame Frame.dataOffset (Frame.dataOffset + ptr) ((newsz + 3) / 4)
        let resume := ptr + align newsz
        (true, (frame.setData newsz [0xff]).setData (newsz + 1) [UInt8.ofNat resume])

/-- The loop of `jd_services_process_frame`. A handler may overwrite
`service_index`, and only that; `touch` is what it leaves there. `none` means
the fuel ran out. -/
def jdServicesProcessFrame (touch : Frame → UInt8) : Nat → Frame → Option (List Packet)
  | 0, _ => none
  | fuel + 1, frame =>
    let delivered := frame.packet
    match jdShiftFrame (frame.setData 1 [touch frame]) with
    | (false, _) => some [delivered]
    | (true, next) => (jdServicesProcessFrame touch fuel next).map (delivered :: ·)

end Jacdac
