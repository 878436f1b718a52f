import Jacdac.Tx.SendFrame

/-! The output pipe of `jd_opipe.c`, one descriptor at a time. -/

namespace Jacdac

/-- The `ST_*` values of a descriptor. -/
inductive PipeStatus where
  | free
  | opened
  | closedUnsent
  | closedWaiting
  | dropped
  deriving DecidableEq, Repr

/-- The `JD_PIPE_*` return codes. -/
inductive PipeResult where
  | ok
  | tryAgain
  | timeout
  | error
  deriving DecidableEq, Repr

/-- `jd_opipe_desc_t` without the list link. -/
structure OPipe where
  counter : Nat
  status : PipeStatus
  currRetry : Nat
  retryTime : Nat
  frame : Frame

/-- The assertions and panics an output pipe can run into. -/
inductive PipeFault where
  | flushBusy
  | targetNull
  | frame (fault : FrameFault)
  | queue (fault : QueueFault)
  deriving DecidableEq, Repr

/-- `JD_OPIPE_MAX_RETRIES`. -/
def opipeMaxRetries : Nat := 4

/-- `JD_SERVICE_INDEX_STREAM`. -/
def serviceIndexStream : UInt8 := 0x3e
/-- `JD_SERVICE_INDEX_CRC_ACK`. -/
def serviceIndexCrcAck : UInt8 := 0x3f

/-- `JD_PIPE_CLOSE_MASK`. -/
def pipeCloseMask : Nat := 0x20
/-- `JD_PIPE_METADATA_MASK`. -/
def pipeMetadataMask : Nat := 0x40

/-- Increment the five counter bits (`JD_PIPE_COUNTER_MASK`) and keep the rest. -/
def nextCounter (counter : Nat) : Nat := (counter + 1) % 32 + counter / 32 * 32

/-- `in_past`: at most `0x7fff_ffff` ticks from `moment` to `now`. -/
def inPast (now moment : Nat) : Bool := u32 (now + 4294967296 - moment) / 2147483648 == 0

def inFuture (now moment : Nat) : Bool := inPast moment now

namespace OPipe

/-- A descriptor after `memset`. -/
def zero : OPipe :=
  { counter := 0, status := .free, currRetry := 0, retryTime := 0, frame := fun _ => 0 }

/-- The descriptor's part of `jd_opipe_unlink`. -/
def unlink (pipe : OPipe) : OPipe := if pipe.status = .free then pipe else zero

/-- `jd_opipe_open`; a zero device identifier is refused. -/
def jdOpipeOpen (pipe : OPipe) (deviceId : List UInt8) (portNum : Nat) : PipeResult × OPipe :=
  if deviceId.all (· == 0) then (.error, pipe)
  else
    let pipe := pipe.unlink
    let frame := (pipe.frame.setDeviceIdentifier deviceId).setFlags
      (Frame.flagCommand ||| Frame.flagAckRequested)
    (.ok, { pipe with counter := u16 (portNum * 128), status := .opened, currRetry := 0, frame })

def doFlush (now : Nat) (pipe : OPipe) : Except PipeFault OPipe :=
  if pipe.currRetry = 0 then
    .ok { pipe with frame := jdComputeCrc pipe.frame, currRetry := 1, retryTime := now }
  else .error .flushBusy

def jdOpipeCheckSpace (now : Nat) (pipe : OPipe) (len : Nat) :
    Except PipeFault (PipeResult × OPipe) :=
  if pipe.status = .dropped then .ok (.timeout, pipe)
  else if pipe.status ≠ .opened then .ok (.error, pipe)
  else if pipe.currRetry ≠ 0 then .ok (.tryAgain, pipe)
  else if u32 (pipe.frame.size + 4 + len) ≤ serialPayloadSize then .ok (.ok, pipe)
  else
    match doFlush now pipe with
    | .error fault => .error fault
    | .ok pipe => .ok (.tryAgain, pipe)

def jdOpipeWriteEx (now : Nat) (pipe : OPipe) (data : List UInt8) (flags : Nat) :
    Except PipeFault (PipeResult × OPipe) :=
  match jdOpipeCheckSpace now pipe data.length with
  | .error fault => .error fault
  | .ok (.ok, pipe) =>
    match appendPacket pipe.frame serviceIndexStream.toNat (pipe.counter ||| flags) data with
    | .error fault => .error (.frame fault)
    | .ok none => .error .targetNull
    | .ok (some frame) => .ok (.ok, { pipe with frame, counter := nextCounter pipe.counter })
  | .ok (result, pipe) => .ok (result, pipe)

def jdOpipeFlush (now : Nat) (pipe : OPipe) : Except PipeFault (PipeResult × OPipe) :=
  if pipe.status = .opened ∧ pipe.currRetry = 0 ∧ pipe.frame.size = 0 then .ok (.ok, pipe)
  else jdOpipeCheckSpace now pipe 0x100000

def jdOpipeWriteMeta (now : Nat) (pipe : OPipe) (data : List UInt8) :
    Except PipeFault (PipeResult × OPipe) :=
  jdOpipeWriteEx now pipe data pipeMetadataMask

def jdOpipeWrite (now : Nat) (pipe : OPipe) (data : List UInt8) :
    Except PipeFault (PipeResult × OPipe) :=
  jdOpipeWriteEx now pipe data 0

/-- The status is set to open around the write to get past its status check. -/
def jdOpipeSendClosePkt (now : Nat) (pipe : OPipe) : Except PipeFault (PipeResult × OPipe) :=
  match jdOpipeWriteEx now { pipe with status := .opened } []
      (pipeCloseMask ||| pipeMetadataMask) with
  | .error fault => .error fault
  | .ok (.ok, pipe) =>
    match doFlush now { pipe with status := .closedWaiting } with
    | .error fault => .error fault
    | .ok pipe => .ok (.tryAgain, pipe)
  | .ok (result, pipe) => .ok (result, { pipe with status := .closedUnsent })

def jdOpipeClose (now : Nat) (pipe : OPipe) : Except PipeFault (PipeResult × OPipe) :=
  match pipe.status with
  | .dropped => .ok (.ok, pipe.unlink)
  | .free => .ok (.ok, pipe)
  | .closedWaiting => .ok (.tryAgain, pipe)
  | .opened => jdOpipeSendClosePkt now pipe
  | .closedUnsent => jdOpipeSendClosePkt now pipe

/-- The header fields `jd_opipe_handle_packet` looks at. -/
structure Ack where
  serviceIndex : UInt8
  flags : UInt8
  serviceCommand : Nat
  deviceIdentifier : List UInt8

/-- The header test at the top of `jd_opipe_handle_packet`. -/
def Ack.isCrcAck (ack : Ack) : Bool :=
  ack.serviceIndex == serviceIndexCrcAck && ack.flags &&& Frame.flagCommand == 0

/-- Whether such a packet acknowledges the frame in flight. -/
def acknowledges (pipe : OPipe) (ack : Ack) : Bool :=
  pipe.currRetry ≠ 0 ∧ ack.serviceCommand = pipe.frame.crc.toNat ∧
    pipe.frame.deviceIdentifier = ack.deviceIdentifier

/-- One descriptor's turn in the loop of `jd_opipe_handle_packet`. -/
def jdOpipeHandlePacket (now : Nat) (pipe : OPipe) (ack : Ack) : Except PipeFault OPipe :=
  if !ack.isCrcAck then .ok pipe
  else if pipe.acknowledges ack then
    let pipe := { pipe with currRetry := 0, frame := jdResetFrame pipe.frame }
    match pipe.status with
    | .closedWaiting => .ok pipe.unlink
    | .closedUnsent =>
      match jdOpipeSendClosePkt now pipe with
      | .error fault => .error fault
      | .ok (_, pipe) => .ok pipe
    | _ => .ok pipe
  else .ok pipe

/-- Whether `jd_opipe_process` hands the frame to `jd_send_frame` now. -/
def sendsNow (now : Nat) (pipe : OPipe) : Bool :=
  pipe.currRetry ≠ 0 ∧ inPast now pipe.retryTime ∧ pipe.currRetry < opipeMaxRetries + 1

/-- One descriptor's turn in the loop of `jd_opipe_process`, with the frame
copied into the send queue by an accepted `jd_send_frame`. -/
def jdOpipeProcess (config : TxConfig) (now : Nat) (link : Link) (pipe : OPipe) :
    Except PipeFault (OPipe × Link × Option Frame) :=
  if pipe.currRetry ≠ 0 ∧ inPast now pipe.retryTime then
    if pipe.currRetry < opipeMaxRetries + 1 then
      match jdSendFrameRaw config link pipe.frame with
      | .error fault => .error (.queue fault)
      | .ok (ret, frame, link) =>
        if ret = 0 then
          .ok ({ pipe with frame, retryTime := u32 (now + 4096 * 2 ^ pipe.currRetry),
                           currRetry := pipe.currRetry + 1 }, link,
            if config.jdNeedToSend pipe.frame then some pipe.frame else none)
        else .ok ({ pipe with frame, retryTime := u32 (now + 65536) }, link, none)
    else if pipe.currRetry = opipeMaxRetries + 1 then
      .ok ({ pipe with retryTime := u32 (now + 32768), currRetry := pipe.currRetry + 1 }, link, none)
    else .ok ({ pipe with status := .dropped }, link, none)
  else .ok (pipe, link, none)

/-- The calls an application makes on an open pipe. -/
inductive Call where
  | write (data : List UInt8)
  | writeMeta (data : List UInt8)
  | checkSpace (len : Nat)
  | flush
  | close

def call (now : Nat) (pipe : OPipe) : Call → Except PipeFault (PipeResult × OPipe)
  | .write data => jdOpipeWrite now pipe data
  | .writeMeta data => jdOpipeWriteMeta now pipe data
  | .checkSpace len => jdOpipeCheckSpace now pipe len
  | .flush => jdOpipeFlush now pipe
  | .close => jdOpipeClose now pipe

/-- The descriptor that `do_flush` leaves. -/
def flushed (now : Nat) (pipe : OPipe) : OPipe :=
  { pipe with frame := jdComputeCrc pipe.frame, currRetry := 1, retryTime := now }

theorem doFlush_eq (idle : pipe.currRetry = 0) : doFlush now pipe = .ok (pipe.flushed now) :=
  if_pos idle

theorem jdOpipeCheckSpace_cases (checked : jdOpipeCheckSpace now pipe len = .ok (result, next)) :
    (result = .ok ∧ next = pipe ∧ pipe.status = .opened ∧ pipe.currRetry = 0 ∧
      u32 (pipe.frame.size + 4 + len) ≤ serialPayloadSize) ∨
    (result ≠ .ok ∧ next = pipe ∧ (pipe.status = .opened → pipe.currRetry ≠ 0)) ∨
    (result = .tryAgain ∧ next = pipe.flushed now ∧ pipe.status = .opened ∧
      pipe.currRetry = 0) := by
  simp only [jdOpipeCheckSpace] at checked
  split at checked
  · rename_i dropped
    cases checked
    exact .inr (.inl ⟨by decide, rfl, by simp [dropped]⟩)
  · split at checked
    · rename_i closed
      cases checked
      exact .inr (.inl ⟨by decide, rfl, fun opened => absurd opened closed⟩)
    · rename_i opened
      have opened := not_not.mp opened
      split at checked
      · rename_i busy
        cases checked
        exact .inr (.inl ⟨by decide, rfl, fun _ => busy⟩)
      · rename_i idle
        have idle := not_not.mp idle
        split at checked
        · rename_i fits
          cases checked
          exact .inl ⟨rfl, rfl, opened, idle, fits⟩
        · rw [doFlush_eq idle] at checked
          cases checked
          exact .inr (.inr ⟨rfl, rfl, opened, idle⟩)

def written (pipe : OPipe) (frame : Frame) : OPipe :=
  { pipe with frame, counter := nextCounter pipe.counter }

theorem jdOpipeWriteEx_cases (wrote : jdOpipeWriteEx now pipe data flags = .ok (result, next)) :
    (result = .ok ∧ pipe.status = .opened ∧ pipe.currRetry = 0 ∧
      u32 (pipe.frame.size + 4 + data.length) ≤ serialPayloadSize ∧
      ∃ frame, appendPacket pipe.frame serviceIndexStream.toNat (pipe.counter ||| flags) data =
        .ok (some frame) ∧ next = pipe.written frame) ∨
    (result ≠ .ok ∧ next = pipe ∧ (pipe.status = .opened → pipe.currRetry ≠ 0)) ∨
    (result = .tryAgain ∧ next = pipe.flushed now ∧ pipe.status = .opened ∧
      pipe.currRetry = 0) := by
  simp only [jdOpipeWriteEx] at wrote
  split at wrote
  · cases wrote
  · rename_i checked
    rcases jdOpipeCheckSpace_cases checked with ⟨_, rfl, opened, idle, fits⟩ | ⟨other, _⟩ | ⟨other, _⟩
    · split at wrote
      · cases wrote
      · cases wrote
      · rename_i frame appended
        cases wrote
        exact .inl ⟨rfl, opened, idle, fits, frame, appended, rfl⟩
    · exact absurd rfl other
    · cases other
  · rename_i notOk checked
    cases wrote
    rcases jdOpipeCheckSpace_cases checked with ⟨rfl, _⟩ | kept | flushed
    · exact (notOk rfl).elim
    · exact .inr (.inl kept)
    · exact .inr (.inr flushed)

theorem jdOpipeSendClosePkt_cases (sent : jdOpipeSendClosePkt now pipe = .ok (result, next)) :
    (pipe.currRetry = 0 ∧ u32 (pipe.frame.size + 4) ≤ serialPayloadSize ∧
      ∃ frame, appendPacket pipe.frame serviceIndexStream.toNat
          (pipe.counter ||| (pipeCloseMask ||| pipeMetadataMask)) [] = .ok (some frame) ∧
        next = ({ pipe with status := .closedWaiting }.written frame).flushed now) ∨
    (pipe.currRetry ≠ 0 ∧ next = { pipe with status := .closedUnsent }) ∨
    (pipe.currRetry = 0 ∧ next = { pipe with status := .closedUnsent }.flushed now) := by
  simp only [jdOpipeSendClosePkt] at sent
  split at sent
  · cases sent
  · rename_i wrote
    rcases jdOpipeWriteEx_cases wrote with ⟨_, _, idle, fits, frame, appended, rfl⟩ | ⟨other, _⟩ | ⟨other, _⟩
    · have idle : pipe.currRetry = 0 := idle
      simp only [doFlush, written, idle, ↓reduceIte] at sent
      cases sent
      exact .inl ⟨idle, fits, frame, appended, by simp only [flushed, written]⟩
    · exact absurd rfl other
    · cases other
  · rename_i notOk wrote
    cases sent
    rcases jdOpipeWriteEx_cases wrote with ⟨rfl, _⟩ | ⟨_, rfl, busy⟩ | ⟨_, rfl, _, idle⟩
    · exact (notOk rfl).elim
    · exact .inr (.inl ⟨busy rfl, rfl⟩)
    · exact .inr (.inr ⟨idle, rfl⟩)

/-- A packet changes nothing, or it acknowledges the frame: then the pipe is unlinked, closed, or empty. -/
theorem jdOpipeHandlePacket_cases {ack : Ack} (handled : jdOpipeHandlePacket now pipe ack = .ok next) :
    ((ack.isCrcAck && pipe.acknowledges ack) = false ∧ next = pipe) ∨
    ((ack.isCrcAck && pipe.acknowledges ack) = true ∧
      ((pipe.status = .closedWaiting ∧ next = zero) ∨
      (pipe.status = .closedUnsent ∧ ∃ result, jdOpipeSendClosePkt now
        { pipe with currRetry := 0, frame := jdResetFrame pipe.frame } = .ok (result, next)) ∨
      (pipe.status ≠ .closedWaiting ∧ pipe.status ≠ .closedUnsent ∧
        next = { pipe with currRetry := 0, frame := jdResetFrame pipe.frame }))) := by
  unfold jdOpipeHandlePacket at handled
  cases isAck : ack.isCrcAck with
  | false =>
    rw [isAck] at handled
    cases handled
    exact .inl ⟨rfl, rfl⟩
  | true =>
    rw [isAck, Bool.not_true, if_neg Bool.false_ne_true] at handled
    split at handled
    · rename_i matched
      refine .inr ⟨matched, ?_⟩
      dsimp only at handled
      split at handled
      · rename_i waiting
        have waiting : pipe.status = .closedWaiting := waiting
        cases handled
        refine .inl ⟨waiting, if_neg ?_⟩
        rw [waiting]
        exact nofun
      · rename_i unsent
        split at handled
        · cases handled
        · rename_i sent
          cases handled
          exact .inr (.inl ⟨unsent, _, sent⟩)
      · rename_i waiting unsent
        cases handled
        exact .inr (.inr ⟨waiting, unsent, rfl⟩)
    · rename_i other
      cases handled
      exact .inl ⟨Bool.eq_false_iff.mpr other, rfl⟩

end OPipe

end Jacdac
