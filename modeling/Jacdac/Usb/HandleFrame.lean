import Jacdac.Base.Endian
import Jacdac.Rx.Receive
import Jacdac.Usb.Push

/-! What the bridge does with the frames of `jd_usb_push`: packets for itself are
answered, all others go to `jd_send_frame_raw`. -/

namespace Jacdac

/-- The build of the bridge, with the codes of the specification submodule. -/
structure UsbConfig where
  codes : QuoteBytes
  tx : TxConfig
  /-- `JD_SERVICE_CLASS_USB_BRIDGE`. -/
  usbBridge : List UInt8
  usbBridgeLength : usbBridge.length = 4
  cmdEnablePackets : Nat
  cmdDisablePackets : Nat
  cmdEnableLog : Nat
  cmdDisableLog : Nat
  /-- `JD_USB_QUEUE_SIZE`. -/
  queueSize : Nat
  queueSize_le : queueSize ≤ 65535
  /-- `JD_SEND_FRAME_SIZE`. -/
  sendQueueSize : Nat
  sendQueueSize_le : sendQueueSize ≤ 65535
  /-- `JD_RX_QUEUE_SIZE`. -/
  rxQueueSize : Nat
  rxQueueSize_le : rxQueueSize ≤ 65535

/-- The decoder, the queues behind it and the enable flags. -/
structure UsbDevice where
  rx : UsbRx
  link : Link
  usbQueue : Option Queue
  fwdEn : Bool
  serialEn : Bool

namespace UsbDevice

/-- The packet of `jd_usb_respond_to_processing_packet`. -/
def response (config : UsbConfig) (serviceCommand : Nat) : Frame :=
  let pkt : Frame := fun _ => 0
  let pkt := pkt.setFlags Frame.flagBroadcast
  let pkt := pkt.setDeviceIdentifier (config.usbBridge ++ [0xaa, 0xaa, 0xaa, 0xaa])
  let pkt : Frame := pkt.write 13 [0x3d]
  let pkt := pkt.setSize 4
  jdComputeCrc (pkt.write 14 (littleEndian 2 serviceCommand))

/-- The `switch` of `jd_usb_handle_processing_packet`, with the command of the answer. -/
def switchFlags (config : UsbConfig) (device : UsbDevice) (cmd : Nat) : UsbDevice × Nat :=
  if cmd = config.cmdEnablePackets ∨ cmd = config.cmdDisablePackets then
    ({ device with fwdEn := cmd % 2 = 1 }, cmd)
  else if cmd = config.cmdEnableLog ∨ cmd = config.cmdDisableLog then
    ({ device with serialEn := cmd % 2 = 1 }, cmd)
  else (device, 0xff)

/-- `jd_usb_init`: the queue afterwards. -/
def initQueue (config : UsbConfig) (device : UsbDevice) : Queue :=
  match device.usbQueue with
  | none => jdQueueAlloc config.queueSize
  | some queue => queue

def jdUsbHandleProcessingPacket (config : UsbConfig) (device : UsbDevice) (pkt : Frame) :
    Except QueueFault UsbDevice :=
  let queue := device.initQueue config
  let switched := device.switchFlags config (Memory.number pkt 14 2)
  match jdQueuePush queue (response config switched.2) with
  | .error fault => .error fault
  | .ok (_, queue) => .ok { switched.1 with usbQueue := some queue }

/-- `jd_usb_handle_frame`, with `usb_rx_buf` afterwards. -/
def handleFrame (config : UsbConfig) (device : UsbDevice) (call : HandleCall) :
    Except QueueFault (UsbDevice × Frame) :=
  match jdUsbHandleFrame config.usbBridge call.buf call.ptr with
  | .shortFrame => .ok (device, call.buf)
  | .crcError => .ok (device, call.buf)
  | .processingPacket =>
    match device.jdUsbHandleProcessingPacket config call.buf with
    | .error fault => .error fault
    | .ok device => .ok (device, call.buf)
  | .sent =>
    match jdSendFrameRaw config.tx device.link call.buf with
    | .error fault => .error fault
    | .ok (_, buf, link) => .ok ({ device with link }, buf)

/-- One turn of the loop of `jd_usb_push`, with the frame it completes. -/
def step (config : UsbConfig) (device : UsbDevice) (c : UInt8) : Except QueueFault UsbDevice :=
  let turn := device.rx.step config.codes (fun call => call.buf) c
  match turn.2 with
  | [] => .ok { device with rx := turn.1 }
  | call :: _ =>
    match device.handleFrame config call with
    | .error fault => .error fault
    | .ok (device, buf) => .ok { device with rx := { turn.1 with buf } }

/-- `jd_usb_push`, up to the first panic. -/
def jdUsbPush (config : UsbConfig) : UsbDevice → List UInt8 → Except QueueFault UsbDevice
  | device, [] => .ok device
  | device, c :: buf =>
    match device.step config c with
    | .error fault => .error fault
    | .ok device => jdUsbPush config device buf

/-- The bytes that `frame_error` passes on. -/
def errorIndices (rx : UsbRx) : List Nat := List.range rx.ptr

def acceptIndices (rx : UsbRx) : List Nat :=
  if rx.state ≠ 0 then if rx.ptr ≥ frameStructSize then errorIndices rx else [rx.ptr] else []

/-- The bytes that `jd_usb_handle_frame` and the pushes look at. -/
def handleIndices (config : UsbConfig) (call : HandleCall) : List Nat :=
  match jdUsbHandleFrame config.usbBridge call.buf call.ptr with
  | .shortFrame => [2]
  | .crcError => List.range call.buf.frameSize
  | .processingPacket => List.range call.buf.frameSize ++ [14, 15]
  | .sent => List.range call.buf.frameSize ++ List.range (frmSize call.buf)

/-- The indices of one turn, along the branches of `UsbRx.step`. -/
def indices (config : UsbConfig) (rx : UsbRx) (c : UInt8) : List Nat :=
  if rx.wasMagic ≠ 0 then
    if c = config.codes.magic then
      if rx.state ≠ 0 then errorIndices rx else acceptIndices rx
    else if c = config.codes.literalMagic then acceptIndices rx
    else if c = config.codes.frameStart then
      if rx.ptr ≠ 0 then errorIndices rx else []
    else if c = config.codes.frameEnd then
      if rx.state ≠ 0 then handleIndices config ⟨rx.ptr, rx.buf⟩ else []
    else if c = config.codes.reserved ∨ c = config.codes.serialGap ∨ c = config.codes.frameGap then []
    else if rx.state ≠ 0 then errorIndices rx ++ acceptIndices rx.frameError
    else acceptIndices rx
  else if c = config.codes.magic then []
  else acceptIndices rx

theorem response_size (config : UsbConfig) (serviceCommand : Nat) : (response config serviceCommand).size = 4 := by
  unfold response jdComputeCrc Frame.setCrc Frame.size
  dsimp only
  rw [Memory.write_outside (.inr (by simp)), Memory.write_outside (.inl (by decide))]
  rfl

end UsbDevice

namespace UsbRx

theorem accept_ptr (rx : UsbRx) (c : UInt8) (bounded : rx.ptr ≤ frameStructSize) :
    (rx.accept c).ptr ≤ frameStructSize := by
  unfold accept
  split
  · split
    · exact Nat.zero_le _
    · rename_i room
      refine (Nat.mod_le _ _).trans ?_
      show rx.ptr + 1 ≤ frameStructSize
      omega
  · exact bounded

/-- The decoder never counts past the frame. -/
theorem step_ptr (codes : QuoteBytes) (handle : HandleCall → Frame) (rx : UsbRx) (c : UInt8)
    (bounded : rx.ptr ≤ frameStructSize) : (rx.step codes handle c).1.ptr ≤ frameStructSize := by
  simp only [step]
  split_ifs
  all_goals first
    | exact bounded
    | exact Nat.zero_le _
    | exact accept_ptr _ _ bounded

end UsbRx

end Jacdac
