import Jacdac.Link.InPlace
import Jacdac.Rx.Receive
import Jacdac.Tx.SendRun

/-! Reports on their way from one device to the handlers of another: the
accumulation buffer, the send queue with the transmitter's `jd_tx_get_frame` and
`jd_tx_frame_sent`, `jd_rx_completed`, the receive queue and the main loop's
`jd_services_process_frame`. Both devices have `JD_SEND_FRAME` and
`JD_RX_QUEUE`. When the transmitter runs is left to `jd_physical.c`. -/

namespace Jacdac

def Frame.ReportsFrom (deviceId : List UInt8) (frame : Frame) : Prop :=
  frame.deviceIdentifier = deviceId ∧ frame.flags &&& Frame.flagCommand = 0

instance (deviceId : List UInt8) (frame : Frame) : Decidable (frame.ReportsFrom deviceId) :=
  inferInstanceAs (Decidable (_ ∧ _))

structure WireConfig where
  sender : TxConfig
  receiver : TxConfig

structure Wire where
  tx : TxState
  /-- The frame `jd_tx_get_frame` handed out; `q_sending` is whether there is one. -/
  txFrame : Option Nat
  rxQueue : Queue
  /-- Between `jd_rx_get_frame` and `jd_rx_release_frame`. -/
  processing : Bool

def Wire.boot (sendSize loopSize rxSize : Nat) : Wire :=
  { tx := .boot sendSize loopSize, txFrame := none, rxQueue := jdQueueAlloc rxSize, processing := false }

def Wire.jdTxGetFrame (state : Wire) : Wire :=
  { state with txFrame := jdQueueFront state.tx.link.sendQueue }

def Wire.jdTxFrameSent (state : Wire) : Except QueueFault Wire :=
  match jdQueueShift state.tx.link.sendQueue with
  | .error fault => .error fault
  | .ok sendQueue => .ok { state with tx.link.sendQueue := sendQueue, txFrame := none }

/-- `jd_rx_completed` on what the UART left in `rxFrame`. -/
def rxArrive (config : TxConfig) (rxQueue : Queue) (rxFrame : Frame) (dataLeft : Int) : Except QueueFault Queue :=
  if jdRxCompleted rxFrame dataLeft = .received then
    match jdRxFrameReceivedCore config rxQueue rxFrame false with
    | .error fault => .error fault
    | .ok (_, _, rxQueue) => .ok rxQueue
  else .ok rxQueue

/-- The main loop takes the front frame: the packets its services see. -/
def Wire.processFrame (touch : Frame → UInt8) (fuel offset : Nat) (state : Wire) : Option (List Packet × Wire) :=
  (jdServicesProcessFrame touch fuel (state.rxQueue.frameAt offset)).map fun packets =>
    (packets, { state with
      rxQueue := state.rxQueue.setFrameAt offset (processedFrame touch fuel (state.rxQueue.frameAt offset))
      processing := true })

def Wire.jdRxReleaseFrame (state : Wire) : Except QueueFault Wire :=
  match jdQueueShift state.rxQueue with
  | .error fault => .error fault
  | .ok rxQueue => .ok { state with rxQueue, processing := false }

def txTakes (config : TxConfig) (sendQueue : Queue) (frame : Frame) : Bool :=
  config.jdNeedToSend frame && jdQueueWillFit sendQueue (frmSize frame)

/-- The receive queue has a place for the frame, and the services want it. -/
def rxTakes (config : TxConfig) (rxQueue : Queue) (frame : Frame) : Bool :=
  config.jdServicesNeedsFrame frame && jdQueueWillFit rxQueue (frmSize frame)

/-- What happened so far: the packets given to `jd_send` and those of them still
in the buffer, the frames built, what the handlers of the other device saw of
them, and how many frames are gone. -/
structure WireTrace where
  sent : List Packet
  pending : List Packet
  emitted : List Emission
  handled : List (List Packet)
  lost : Nat

namespace WireTrace

def empty : WireTrace := { sent := [], pending := [], emitted := [], handled := [], lost := 0 }

/-- The buffer left as a frame, which the send queue took or not. -/
def emit (trace : WireTrace) (buffer frame : Frame) (taken : Bool) : WireTrace :=
  { trace with
    pending := []
    emitted := trace.emitted ++ [⟨buffer, frame, trace.pending⟩]
    lost := trace.lost + if taken then 0 else 1 }

def send (trace : WireTrace) (packet : Packet) : WireTrace :=
  { trace with sent := trace.sent ++ [packet], pending := trace.pending ++ [packet] }

def pass (trace : WireTrace) (report taken : Bool) : WireTrace :=
  { trace with lost := trace.lost + if report && !taken then 1 else 0 }

def handle (trace : WireTrace) (report : Bool) (packets : List Packet) : WireTrace :=
  if report then { trace with handled := trace.handled ++ [packets] } else trace

end WireTrace

/-- The steps of both devices and of the wire, in any order. A transmission
arrives whole, or it is lost, also when a checksum tells. Everything else that
arrives, and the receiver's own frames, are not reports of the sender. Its own
receive queue is emptied and filled by others as well. -/
inductive WireRun (config : WireConfig) (sendSize loopSize rxSize : Nat) : Wire → WireTrace → Prop where
  | boot : WireRun config sendSize loopSize rxSize (.boot sendSize loopSize rxSize) .empty
  | send (run : WireRun config sendSize loopSize rxSize state trace) (packet : Packet) (size : packet.serviceSize ≤ 232)
      (sent : jdSend config.sender state.tx packet.serviceIndex.toNat packet.serviceCommand packet.payload =
        .ok (tx, none)) :
    WireRun config sendSize loopSize rxSize { state with tx } (trace.send packet)
  | sendFull (run : WireRun config sendSize loopSize rxSize state trace) (packet : Packet)
      (size : packet.serviceSize ≤ 232)
      (sent : jdSend config.sender state.tx packet.serviceIndex.toNat packet.serviceCommand packet.payload =
        .ok (tx, some frame)) :
    WireRun config sendSize loopSize rxSize { state with tx }
      ((trace.emit state.tx.txAccBuffer frame (txTakes config.sender state.tx.link.sendQueue frame)).send packet)
  | flushEmpty (run : WireRun config sendSize loopSize rxSize state trace)
      (flushed : jdTxFlush config.sender state.tx = .ok (tx, none)) :
    WireRun config sendSize loopSize rxSize { state with tx } trace
  | flush (run : WireRun config sendSize loopSize rxSize state trace)
      (flushed : jdTxFlush config.sender state.tx = .ok (tx, some frame)) :
    WireRun config sendSize loopSize rxSize { state with tx }
      (trace.emit state.tx.txAccBuffer frame (txTakes config.sender state.tx.link.sendQueue frame))
  | sendRaw (run : WireRun config sendSize loopSize rxSize state trace) (frame : Frame) (lower : 1 ≤ frame.size)
      (upper : frame.size ≤ 240) (other : ¬ frame.ReportsFrom config.sender.deviceId)
      (sent : jdSendFrameRaw config.sender state.tx.link frame = .ok (ret, after, link)) :
    WireRun config sendSize loopSize rxSize { state with tx.link := link } trace
  | loopQueue (run : WireRun config sendSize loopSize rxSize state trace) (queue : Queue)
      (holds : Holds queue frames) (small : queue.size ≤ 65535) :
    WireRun config sendSize loopSize rxSize { state with tx.link.rxQueue := queue } trace
  | getFrame (run : WireRun config sendSize loopSize rxSize state trace) (idle : state.txFrame = none) :
    WireRun config sendSize loopSize rxSize state.jdTxGetFrame trace
  | arrive {dataLeft : Int} (run : WireRun config sendSize loopSize rxSize state trace) (sending : state.txFrame = some offset)
      (whole : ∀ cell < (state.tx.link.sendQueue.frameAt offset).frameSize,
        rxFrame cell = state.tx.link.sendQueue.frameAt offset cell)
      (left : 0 ≤ dataLeft ∧ dataLeft + (state.tx.link.sendQueue.frameAt offset).frameSize ≤ frameStructSize)
      (arrived : rxArrive config.receiver state.rxQueue rxFrame dataLeft = .ok rxQueue)
      (sent : { state with rxQueue }.jdTxFrameSent = .ok next) :
    WireRun config sendSize loopSize rxSize next
      (trace.pass (decide ((state.tx.link.sendQueue.frameAt offset).ReportsFrom config.sender.deviceId))
        (rxTakes config.receiver state.rxQueue rxFrame))
  | lose (run : WireRun config sendSize loopSize rxSize state trace) (sending : state.txFrame = some offset)
      (sent : state.jdTxFrameSent = .ok next) :
    WireRun config sendSize loopSize rxSize next
      (trace.pass (decide ((state.tx.link.sendQueue.frameAt offset).ReportsFrom config.sender.deviceId)) false)
  | arriveOther (run : WireRun config sendSize loopSize rxSize state trace) (rxFrame : Frame) (dataLeft : Int)
      (other : ¬ rxFrame.ReportsFrom config.sender.deviceId)
      (arrived : rxArrive config.receiver state.rxQueue rxFrame dataLeft = .ok rxQueue) :
    WireRun config sendSize loopSize rxSize { state with rxQueue } trace
  | loopback (run : WireRun config sendSize loopSize rxSize state trace) (frame : Frame) (lower : 1 ≤ frame.size)
      (upper : frame.size ≤ 240) (other : ¬ frame.ReportsFrom config.sender.deviceId)
      (received : jdRxFrameReceivedCore config.receiver state.rxQueue frame true = .ok (ret, after, rxQueue)) :
    WireRun config sendSize loopSize rxSize { state with rxQueue } trace
  | process (run : WireRun config sendSize loopSize rxSize state trace) (idle : state.processing = false)
      (front : jdQueueFront state.rxQueue = some offset) (touch : Frame → UInt8)
      (processed : state.processFrame touch 241 offset = some (packets, next)) :
    WireRun config sendSize loopSize rxSize next
      (trace.handle (decide ((state.rxQueue.frameAt offset).ReportsFrom config.sender.deviceId)) packets)
  | release (run : WireRun config sendSize loopSize rxSize state trace) (busy : state.processing = true)
      (released : state.jdRxReleaseFrame = .ok next) : WireRun config sendSize loopSize rxSize next trace

end Jacdac
