import Jacdac.Queue.Ring
import Jacdac.Tx.Accumulate

/-! The send path of `tx_queue.c` in builds with `JD_SEND_FRAME`, including the
loopback of `simple_rx.c` into the receive queue. The bridges only copy the
frame to queues of their own and are left out. -/

namespace Jacdac

/-- What the build and the device decide: the own identifier, which frames go
on the wire, and which ones the services want to see. -/
structure TxConfig where
  deviceId : List UInt8
  deviceIdLength : deviceId.length = 8
  jdNeedToSend : Frame → Bool
  jdServicesNeedsFrame : Frame → Bool

theorem TxConfig.first_length : ([1, 0, 0, 0, 0, 0, 0, 0] : List UInt8).length = 8 := rfl

/-- The two queues the send path pushes to. -/
structure Link where
  sendQueue : Queue
  rxQueue : Queue

inductive TxFault where
  | frame (fault : FrameFault)
  | queue (fault : QueueFault)
  | targetNull
  deriving DecidableEq, Repr

/-- The `JD_FRAME_FLAG_LOOPBACK` update of `jd_rx_frame_received_core`. -/
def receivedFlags (flags : UInt8) (isLoop : Bool) : UInt8 :=
  if isLoop then flags ||| Frame.flagLoopback else flags &&& ~~~ Frame.flagLoopback

/-- `jd_rx_frame_received_core` in builds with `JD_RX_QUEUE`. The flag is set
in the caller's frame, before the copy. -/
def jdRxFrameReceivedCore (config : TxConfig) (rxQueue : Queue) (frame : Frame) (isLoop : Bool) :
    Except QueueFault (Int × Frame × Queue) :=
  if config.jdServicesNeedsFrame frame then
    let frame := frame.setFlags (receivedFlags frame.flags isLoop)
    match jdQueuePush rxQueue frame with
    | .error fault => .error fault
    | .ok (ret, rxQueue) => .ok (ret, frame, rxQueue)
  else .ok (0, frame, rxQueue)

/-- The push of `jd_send_frame_raw` into the send queue. -/
def pushSend (config : TxConfig) (sendQueue : Queue) (frame : Frame) :
    Except QueueFault (Int × Queue) :=
  if config.jdNeedToSend frame then jdQueuePush sendQueue frame else .ok (0, sendQueue)

/-- `jd_send_frame_raw`: the result, the caller's frame afterwards, the queues. -/
def jdSendFrameRaw (config : TxConfig) (link : Link) (frame : Frame) :
    Except QueueFault (Int × Frame × Link) :=
  match pushSend config link.sendQueue frame with
  | .error fault => .error fault
  | .ok (ret, sendQueue) =>
    match jdRxFrameReceivedCore config link.rxQueue frame true with
    | .error fault => .error fault
    | .ok (_, frame, rxQueue) => .ok (ret, frame, { sendQueue, rxQueue })

/-- The caller's frame is looped back when a service wants it. -/
theorem jdSendFrameRaw_cases (sent : jdSendFrameRaw config link source = .ok (ret, after, next)) :
    config.jdServicesNeedsFrame source = false ∧ after = source ∨
      after = source.setFlags (source.flags ||| Frame.flagLoopback) := by
  simp only [jdSendFrameRaw] at sent
  split at sent
  · cases sent
  · split at sent
    · cases sent
    · rename_i received
      cases sent
      simp only [jdRxFrameReceivedCore] at received
      split at received
      · split at received
        · cases received
        · cases received
          exact .inr rfl
      · rename_i unwanted
        cases received
        exact .inl ⟨Bool.eq_false_iff.mpr unwanted, rfl⟩

theorem jdSendFrameRaw_outcome (sent : jdSendFrameRaw config link source = .ok (ret, after, next)) :
    (after.flags = source.flags ∨ after.flags = source.flags ||| Frame.flagLoopback) ∧
    ∀ cell, cell ≠ 3 → after cell = source cell := by
  rcases jdSendFrameRaw_cases sent with ⟨_, rfl⟩ | rfl
  · exact ⟨.inl rfl, fun _ _ => rfl⟩
  · refine ⟨.inr rfl, fun cell other => ?_⟩
    exact Memory.write_outside (by simp; omega)

/-- The frame `jd_send_frame_with_crc` hands to `jd_send_frame`. -/
def withCrc (config : TxConfig) (frame : Frame) : Frame :=
  jdComputeCrc (frame.setDeviceIdentifier config.deviceId)

structure TxState where
  txAccBuffer : Frame
  link : Link

def emit (config : TxConfig) (state : TxState) : Except TxFault TxState :=
  match jdSendFrameRaw config state.link (withCrc config state.txAccBuffer) with
  | .error fault => .error (.queue fault)
  | .ok (_, frame, link) => .ok { txAccBuffer := jdResetFrame frame, link }

/-- `jd_send`, with the frame it sent on the way when the buffer was full. -/
def jdSend (config : TxConfig) (state : TxState) (serviceNum serviceCmd : Nat)
    (payload : List UInt8) : Except TxFault (TxState × Option Frame) :=
  match appendPacket state.txAccBuffer serviceNum serviceCmd payload with
  | .error fault => .error (.frame fault)
  | .ok (some buffer) => .ok ({ state with txAccBuffer := buffer }, none)
  | .ok none =>
    match emit config state with
    | .error fault => .error fault
    | .ok next =>
      match appendPacket next.txAccBuffer serviceNum serviceCmd payload with
      | .error fault => .error (.frame fault)
      | .ok none => .error .targetNull
      | .ok (some buffer) =>
        .ok ({ next with txAccBuffer := buffer }, some (withCrc config state.txAccBuffer))

def jdTxFlush (config : TxConfig) (state : TxState) : Except TxFault (TxState × Option Frame) :=
  if state.txAccBuffer.size = 0 then .ok (state, none)
  else
    match emit config state with
    | .error fault => .error fault
    | .ok next => .ok (next, some (withCrc config state.txAccBuffer))

/-- Zero-initialised buffer and freshly allocated queues. -/
def TxState.boot (sendSize rxSize : Nat) : TxState :=
  { txAccBuffer := fun _ => 0,
    link := { sendQueue := jdQueueAlloc sendSize, rxQueue := jdQueueAlloc rxSize } }

theorem withCrc_size (config : TxConfig) (frame : Frame) :
    (withCrc config frame).size = frame.size := by
  rw [withCrc, jdComputeCrc, Frame.size, Frame.setCrc, Memory.write_outside (.inr (by simp)),
    Frame.setDeviceIdentifier, Memory.write_outside (.inl (by decide)), Frame.size]

theorem withCrc_data (config : TxConfig) (frame : Frame)
    (data : Frame.dataOffset ≤ cell) : withCrc config frame cell = frame cell := by
  have offset : Frame.dataOffset = 12 := rfl
  have short := config.deviceIdLength
  rw [withCrc, jdComputeCrc, Frame.setCrc, Memory.write_outside (.inr (by simp; omega)),
    Frame.setDeviceIdentifier, Memory.write_outside (.inr (by omega))]

end Jacdac
