import Jacdac.Tx.SendFrame

/-! The send path of `tx_queue.c` in builds without `JD_SEND_FRAME`: two frame
slots, one being filled while the other is transmitted. -/

namespace Jacdac

structure DoubleState where
  /-- `sendFrame[0]` and `sendFrame[1]`. -/
  sendFrame : Bool → Frame
  bufferPtr : Bool
  /-- 0: nothing to send, 1: a frame is ready, 2: a frame is on the wire. -/
  isSending : Nat
  rawFrame : Option Frame
  rawFrameSending : Bool

namespace DoubleState

/-- `tx_acc_buffer` in this build. -/
def accBuffer (state : DoubleState) : Frame := state.sendFrame state.bufferPtr

def setSlot (state : DoubleState) (slot : Bool) (frame : Frame) : DoubleState :=
  { state with sendFrame := Function.update state.sendFrame slot frame }

/-- `jd_alloc` returns zeroed slots. -/
def boot : DoubleState :=
  { sendFrame := fun _ _ => 0, bufferPtr := false, isSending := 0, rawFrame := none,
    rawFrameSending := false }

/-- `jd_send`: 0 on success, -1 when the slot is full. -/
def jdSend (state : DoubleState) (serviceNum serviceCmd : Nat) (payload : List UInt8) :
    Except FrameFault (Int × DoubleState) :=
  match appendPacket state.accBuffer serviceNum serviceCmd payload with
  | .error fault => .error fault
  | .ok none => .ok (-1, state)
  | .ok (some buffer) => .ok (0, state.setSlot state.bufferPtr buffer)

/-- `jd_tx_flush`, with the frame it makes ready. -/
def jdTxFlush (config : TxConfig) (state : DoubleState) : DoubleState × Option Frame :=
  if state.accBuffer.size = 0 then (state, none)
  else if state.isSending ≠ 0 then (state, none)
  else
    let frame := withCrc config state.accBuffer
    let state := state.setSlot state.bufferPtr frame
    let state := { state with bufferPtr := !state.bufferPtr, isSending := 1 }
    (state.setSlot state.bufferPtr (jdResetFrame state.accBuffer), some frame)

/-- `jd_tx_get_frame`: the frame to transmit, `none` for `NULL`. -/
def jdTxGetFrame (state : DoubleState) : Option Frame × DoubleState :=
  match state.rawFrame with
  | some frame => (some frame, { state with rawFrame := none, rawFrameSending := true })
  | none =>
    if state.isSending = 1 then
      (some (state.sendFrame !state.bufferPtr), { state with isSending := 2 })
    else (none, state)

/-- `jd_tx_frame_sent`; `none` is its failing assertion. -/
def jdTxFrameSent (state : DoubleState) : Option DoubleState :=
  if state.rawFrameSending then some { state with rawFrameSending := false }
  else if state.isSending = 2 then some { state with isSending := 0 }
  else none

end DoubleState

end Jacdac
