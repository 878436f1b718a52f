import Jacdac.Queue.FifoInvariant

/-! The interrupt handlers of `jd_physical.c` and the frames that `tx_queue.c`
hands them, in builds with `JD_SEND_FRAME` and `JD_RAW_FRAME`. Each handler is
one step; the received bytes and the diagnostics are left out. -/

namespace Jacdac

/-- The callbacks given to `tim_set_timer`. -/
inductive TimerCallback where
  | tick
  | flushTxQueue
  | setupRxTimeout
  | rxTimeout
  deriving DecidableEq, Repr

/-- Where `txFrame` points: to a raw frame, or into the send queue. -/
inductive FramePointer where
  | raw (frame : Frame)
  | queued (offset : Nat)

/-- The panics of these handlers. -/
inductive PhysFault where
  /-- `JD_ASSERT(!q_sending)` in `jd_tx_get_frame`. -/
  | alreadySending
  /-- `JD_ASSERT(q_sending)` in `jd_tx_frame_sent`. -/
  | notSending
  | queue (fault : QueueFault)
  /-- A transmission that takes more than 130ms. -/
  | txFail
  /-- A falling line while receiving. -/
  | lineFalling
  deriving DecidableEq, Repr

structure PhysState where
  /-- `JD_STATUS_RX_ACTIVE` in `phys_status`. -/
  rxActive : Bool
  /-- `JD_STATUS_TX_ACTIVE` in `phys_status`. -/
  txActive : Bool
  /-- `JD_STATUS_TX_QUEUED` in `phys_status`. -/
  txQueued : Bool
  txPending : Bool
  txFrame : Option FramePointer
  timer : Option TimerCallback
  sendQueue : Queue
  qSending : Bool
  rawFrame : Option Frame
  rawFrameSending : Bool
  /-- The UART sends a frame and has not reported it yet. -/
  transmitting : Bool

namespace PhysState

/-- `set_tick_timer`, with the bits of `statusClear`. -/
def setTickTimer (clearRx clearTx : Bool) (state : PhysState) : PhysState :=
  let state := { state with rxActive := state.rxActive && !clearRx, txActive := state.txActive && !clearTx }
  if state.rxActive then state
  else if state.txPending && !state.txActive then
    { state with txQueued := true, timer := some .flushTxQueue }
  else { state with txQueued := false, timer := some .tick }

def txDone (state : PhysState) : PhysState := state.setTickTimer false true

def jdPacketReady (state : PhysState) : PhysState :=
  let state := { state with txPending := true }
  if !state.rxActive && !state.txActive && !state.txQueued then state.setTickTimer false false else state

def jdTxGetFrame (state : PhysState) : Except PhysFault (Option FramePointer × PhysState) :=
  match state.rawFrame with
  | some frame => .ok (some (.raw frame), { state with rawFrame := none, rawFrameSending := true })
  | none =>
    if state.qSending then .error .alreadySending
    else
      match jdQueueFront state.sendQueue with
      | some offset => .ok (some (.queued offset), { state with qSending := true })
      | none => .ok (none, state)

def pokeReady (state : PhysState) : PhysState :=
  let state := if state.rawFrame.isSome then state.jdPacketReady else state
  if (jdQueueFront state.sendQueue).isSome then state.jdPacketReady else state

def jdTxFrameSent (state : PhysState) : Except PhysFault PhysState :=
  if state.rawFrameSending then .ok { state with rawFrameSending := false }.pokeReady
  else if !state.qSending then .error .notSending
  else
    match jdQueueShift state.sendQueue with
    | .error fault => .error (.queue fault)
    | .ok sendQueue => .ok { state with sendQueue, qSending := false }.pokeReady

def jdTxCompleted (state : PhysState) : Except PhysFault PhysState :=
  match { state with transmitting := false }.jdTxFrameSent with
  | .error fault => .error fault
  | .ok state => .ok { state with txFrame := none }.txDone

/-- `tick`, that long after the transmission started. -/
def tick (elapsed : Nat) (state : PhysState) : Except PhysFault PhysState :=
  if state.txActive ∧ elapsed > 0x20000 then .error .txFail else .ok (state.setTickTimer false false)

/-- The end of `flush_tx_queue`; the flag is whether `uart_start_tx` succeeds. -/
def startTx (started : Bool) (state : PhysState) : PhysState :=
  if started then { state with transmitting := true }.setTickTimer false false
  else { state.txDone with txPending := true }

/-- The rest of `flush_tx_queue`, once it has claimed the transmitter. -/
def sendNext (started : Bool) (state : PhysState) : Except PhysFault PhysState :=
  match state.txFrame with
  | some _ => .ok (state.startTx started)
  | none =>
    match state.jdTxGetFrame with
    | .error fault => .error fault
    | .ok (none, state) => .ok state.txDone
    | .ok (some frame, state) => .ok ({ state with txFrame := some frame }.startTx started)

def flushTxQueue (started : Bool) (state : PhysState) : Except PhysFault PhysState :=
  if state.rxActive || state.txActive then .ok state
  else { state with txActive := true, txPending := false }.sendNext started

def rxTimeout (state : PhysState) : PhysState := state.setTickTimer true false

/-- `setup_rx_timeout`; the flag is whether the first bytes have arrived. -/
def setupRxTimeout (gotData : Bool) (state : PhysState) : PhysState :=
  if state.rxActive then
    if gotData then { state with timer := some .rxTimeout } else state.rxTimeout
  else state.setTickTimer false false

/-- What `jd_rx_completed` does to this state. -/
def jdRxCompleted (state : PhysState) : PhysState := state.setTickTimer true false

/-- What the UART does in `jd_line_falling`. -/
inductive LineOutcome where
  /-- `uart_wait_high` fails. -/
  | stuckLow
  | receiving
  /-- `jd_rx_completed` comes before `jd_line_falling` has set its timer. -/
  | completed
  deriving DecidableEq, Repr

def jdLineFalling (outcome : LineOutcome) (state : PhysState) : Except PhysFault PhysState :=
  if state.rxActive then .error .lineFalling
  else
    let state := { state with rxActive := true }
    match outcome with
    | .stuckLow => .ok state.rxTimeout
    | .receiving => .ok { state with timer := some .setupRxTimeout }
    | .completed =>
      let state := state.jdRxCompleted
      .ok (if state.rxActive then { state with timer := some .setupRxTimeout } else state)

/-- After `jd_tx_init` and `_jd_phys_start`. -/
def start (sendSize : Nat) : PhysState :=
  setTickTimer false false
    { rxActive := false, txActive := false, txQueued := false, txPending := false, txFrame := none, timer := none,
      sendQueue := jdQueueAlloc sendSize, qSending := false, rawFrame := none, rawFrameSending := false,
      transmitting := false }

end PhysState

/-- Runs of the handlers, in any order. The two flags tell whether a frame that
is in the send queue, and a raw frame, was there at a call of `jd_packet_ready`. A
timer is used up when it fires, and the UART reports a frame that it has started
to send. -/
inductive PhysRun (sendSize : Nat) : PhysState → Bool → Bool → Prop where
  | start : PhysRun sendSize (.start sendSize) false false
  | push (run : PhysRun sendSize state queued raw) (frame : Frame) (lower : 1 ≤ frame.size) (upper : frame.size ≤ 240)
      (pushed : jdQueuePush state.sendQueue frame = .ok (ret, sendQueue)) :
    PhysRun sendSize { state with sendQueue } queued raw
  | postRaw (run : PhysRun sendSize state queued raw) (frame : Frame) :
    PhysRun sendSize { state with rawFrame := some frame } queued raw
  | packetReady (run : PhysRun sendSize state queued raw) :
    PhysRun sendSize state.jdPacketReady (jdQueueFront state.sendQueue).isSome state.rawFrame.isSome
  | tick (run : PhysRun sendSize state queued raw) (armed : state.timer = some .tick) (elapsed : Nat)
      (ticked : { state with timer := none }.tick elapsed = .ok next) : PhysRun sendSize next queued raw
  | flush (run : PhysRun sendSize state queued raw) (armed : state.timer = some .flushTxQueue) (started : Bool)
      (flushed : { state with timer := none }.flushTxQueue started = .ok next) :
    PhysRun sendSize next queued (raw && next.rawFrame.isSome)
  | setupRxTimeout (run : PhysRun sendSize state queued raw) (armed : state.timer = some .setupRxTimeout)
      (gotData : Bool) : PhysRun sendSize ({ state with timer := none }.setupRxTimeout gotData) queued raw
  | rxTimeout (run : PhysRun sendSize state queued raw) (armed : state.timer = some .rxTimeout) :
    PhysRun sendSize { state with timer := none }.rxTimeout queued raw
  | txCompleted (run : PhysRun sendSize state queued raw) (busy : state.transmitting = true)
      (completed : state.jdTxCompleted = .ok next) :
    PhysRun sendSize next (jdQueueFront next.sendQueue).isSome next.rawFrame.isSome
  | lineFalling (run : PhysRun sendSize state queued raw) (outcome : PhysState.LineOutcome)
      (fell : state.jdLineFalling outcome = .ok next) : PhysRun sendSize next queued raw
  | rxCompleted (run : PhysRun sendSize state queued raw) : PhysRun sendSize state.jdRxCompleted queued raw

end Jacdac
