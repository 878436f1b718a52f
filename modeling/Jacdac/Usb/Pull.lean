import Jacdac.Dmesg.Ring
import Jacdac.Usb.Stream

/-! `jd_usb_pull` and the pushes into `usb_queue`: the device's side of the stream. -/

namespace Jacdac

/-- A failed assertion of the queue, or a push before `jd_usb_init`. -/
inductive UsbFault where
  | queue (fault : QueueFault)
  | nullQueue
  deriving DecidableEq, Repr

/-- `SPACE()`, where `dp` is the number of bytes already in `dst`. -/
def usbSpace (dst : List UInt8) : Nat := 64 - dst.length

/-- The statics the sending side of `jd_usb.c` uses. -/
structure UsbTx where
  fwdEn : Bool
  framePtr : Nat
  frameGap : Nat
  panicMode : Nat
  serialBufPtr : Nat
  serialBufLen : Nat
  serialBuf : Memory
  queue : Option Queue
  dmesgTimer : Nat
  dmesgPtr : Nat

/-- The variables of the frame loop of `jd_usb_pull`. -/
structure Sending where
  framePtr : Nat
  frameGap : Nat
  queue : Queue
  dst : List UInt8

/-- The `while` loop over the bytes of a frame. The flag is the early `return dp`. -/
def sendBytes (codes : QuoteBytes) (frame : Frame) (frameSize framePtr : Nat) (dst : List UInt8) :
    Bool × Nat × List UInt8 :=
  if framePtr < frameSize then
    let b := frame framePtr
    if b = codes.magic then
      if usbSpace dst < 2 then (false, framePtr, dst)
      else sendBytes codes frame frameSize (u8 (framePtr + 1)) (dst ++ [codes.magic, codes.literalMagic])
    else if usbSpace dst < 1 then (true, framePtr, dst)
    else sendBytes codes frame frameSize (u8 (framePtr + 1)) (dst ++ [b])
  else (false, framePtr, dst)
termination_by usbSpace dst
decreasing_by all_goals simp [usbSpace] at *; omega

theorem sendBytes_length (codes : QuoteBytes) (frame : Frame) (frameSize framePtr : Nat)
    (dst : List UInt8) : dst.length ≤ (sendBytes codes frame frameSize framePtr dst).2.2.length := by
  fun_induction sendBytes codes frame frameSize framePtr dst with
  | case1 => exact Nat.le_refl _
  | case2 framePtr dst inside b magic room ih =>
    simp only [List.length_append, List.length_cons, List.length_nil] at ih
    omega
  | case3 => exact Nat.le_refl _
  | case4 framePtr dst inside b magic room ih =>
    simp only [List.length_append, List.length_cons, List.length_nil] at ih
    omega
  | case5 => exact Nat.le_refl _

namespace Sending

/-- The gap marker at the head of the loop. -/
def markGap (codes : QuoteBytes) (sending : Sending) : Sending :=
  if sending.frameGap = 1 ∧ sending.framePtr = 0 ∧ usbSpace sending.dst ≥ 2 then
    { sending with frameGap := 2, dst := sending.dst ++ [codes.magic, codes.frameGap] }
  else sending

def markStart (codes : QuoteBytes) (sending : Sending) : Sending :=
  if sending.framePtr = 0 then
    { sending with dst := sending.dst ++ [codes.magic, codes.frameStart] }
  else sending

theorem markGap_length (codes : QuoteBytes) (sending : Sending) :
    sending.dst.length ≤ (sending.markGap codes).dst.length := by
  unfold markGap
  split <;> simp

theorem markStart_length (codes : QuoteBytes) (sending : Sending) :
    sending.dst.length ≤ (sending.markStart codes).dst.length := by
  unfold markStart
  split <;> simp

/-- The bytes of the frame at `offset` of the queue, as far as they fit. -/
def fill (codes : QuoteBytes) (sending : Sending) (offset : Nat) : Bool × Sending :=
  let frame := sending.queue.frameAt offset
  let filled := sendBytes codes frame frame.frameSize sending.framePtr sending.dst
  (filled.1, { sending with framePtr := filled.2.1, dst := filled.2.2 })

theorem fill_length (codes : QuoteBytes) (sending : Sending) (offset : Nat) :
    sending.dst.length ≤ (sending.fill codes offset).2.dst.length :=
  sendBytes_length ..

end Sending

/-- The `for (;;)` loop of `jd_usb_pull`. The flag is the early `return dp`. -/
def sendFrames (codes : QuoteBytes) (sending : Sending) : Except QueueFault (Bool × Sending) :=
  let marked := sending.markGap codes
  match jdQueueFront marked.queue with
  | none => .ok (false, marked)
  | some offset =>
    if marked.framePtr = 0 ∧ usbSpace marked.dst < 4 then .ok (false, marked)
    else
      let filled := (marked.markStart codes).fill codes offset
      if filled.1 then .ok (true, filled.2)
      else if usbSpace filled.2.dst < 2 then .ok (false, filled.2)
      else
        match jdQueueShift filled.2.queue with
        | .error fault => .error fault
        | .ok queue => sendFrames codes { filled.2 with
            dst := filled.2.dst ++ [codes.magic, codes.frameEnd]
            framePtr := 0
            queue }
termination_by usbSpace sending.dst
decreasing_by
  show usbSpace (filled.2.dst ++ [codes.magic, codes.frameEnd]) < usbSpace sending.dst
  have gap : sending.dst.length ≤ marked.dst.length := sending.markGap_length codes
  have start := marked.markStart_length codes
  have fill : (marked.markStart codes).dst.length ≤ filled.2.dst.length :=
    (marked.markStart codes).fill_length codes offset
  simp only [usbSpace, List.length_append, List.length_cons, List.length_nil] at *
  omega

/-- The variables of the log loop of `jd_usb_pull`. -/
structure SerialBuffer where
  ptr : Nat
  len : Nat
  buf : Memory
  dmesgPtr : Nat

def SerialBuffer.refill (log : DmesgLog) (serial : SerialBuffer) : SerialBuffer :=
  if serial.ptr ≥ serial.len then
    let text := jdDmesgRead log 64 serial.dmesgPtr
    { ptr := 0, len := u8 text.1.length, buf := serial.buf.write 0 text.1, dmesgPtr := text.2 }
  else serial

/-- The log loop of `jd_usb_pull`. -/
def sendSerial (codes : QuoteBytes) (log : DmesgLog) (serial : SerialBuffer) (dst : List UInt8) :
    SerialBuffer × List UInt8 :=
  if usbSpace dst ≥ 2 then
    let serial := serial.refill log
    if serial.ptr ≥ serial.len then (serial, dst)
    else
      let b := serial.buf serial.ptr
      let serial := { serial with ptr := u8 (serial.ptr + 1) }
      if b = codes.magic then
        sendSerial codes log serial (dst ++ [codes.magic, codes.literalMagic])
      else sendSerial codes log serial (dst ++ [b])
  else (serial, dst)
termination_by usbSpace dst
decreasing_by all_goals simp [usbSpace] at *; omega

/-- `jd_usb_pull`: the bytes it stores in `dst`, whose number it returns. -/
def jdUsbPull (codes : QuoteBytes) (log : DmesgLog) (tx : UsbTx) :
    Except UsbFault (UsbTx × List UInt8) :=
  if tx.panicMode ≠ 0 then
    if tx.panicMode > 1 then .ok (tx, [])
    else .ok ({ tx with serialBufPtr := 0 }, tx.serialBuf.read 0 tx.serialBufPtr)
  else
    match tx.queue with
    | none => .ok (tx, [])
    | some queue =>
      match sendFrames codes { framePtr := tx.framePtr, frameGap := tx.frameGap, queue, dst := [] } with
      | .error fault => .error (.queue fault)
      | .ok (returned, sending) =>
        let tx := { tx with
          framePtr := sending.framePtr, frameGap := sending.frameGap, queue := some sending.queue }
        if returned = false ∧ tx.dmesgTimer = 1 then
          let (serial, dst) := sendSerial codes log
            ⟨tx.serialBufPtr, tx.serialBufLen, tx.serialBuf, tx.dmesgPtr⟩ sending.dst
          .ok ({ tx with
            serialBufPtr := serial.ptr
            serialBufLen := serial.len
            serialBuf := serial.buf
            dmesgPtr := serial.dmesgPtr }, dst)
        else .ok (tx, sending.dst)

def jdUsbInit (queueSize : Nat) (tx : UsbTx) : UsbTx :=
  if tx.queue.isNone then { tx with queue := some (jdQueueAlloc queueSize), framePtr := 0 } else tx

/-- `jd_queue_push(usb_queue, frame)`, as `jd_usb_respond_to_processing_packet` calls it. -/
def pushUsbQueue (tx : UsbTx) (frame : Frame) : Except UsbFault (Int × UsbTx) :=
  match tx.queue with
  | none => .error .nullQueue
  | some queue =>
    match jdQueuePush queue frame with
    | .error fault => .error (.queue fault)
    | .ok (ret, queue) => .ok (ret, { tx with queue := some queue })

/-- The gap state after a push with result `ret`. -/
def gapAfter (ret : Int) (frameGap : Nat) : Nat :=
  if ret = 0 then if frameGap = 2 then 0 else frameGap
  else if frameGap = 0 then 1 else frameGap

def jdUsbSendFrame (tx : UsbTx) (frame : Frame) : Except UsbFault (Int × UsbTx) :=
  if tx.fwdEn then
    match pushUsbQueue tx frame with
    | .error fault => .error fault
    | .ok (ret, tx) => .ok (ret, { tx with frameGap := gapAfter ret tx.frameGap })
  else .ok (0, tx)

end Jacdac
