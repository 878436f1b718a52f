import Jacdac.Pipe.Input

/-! One output pipe and the input pipe it was opened for, on a bus that keeps
the order of data frames and of acknowledgements but may lose any of them. -/

namespace Jacdac

/-- A copy of the sender's frame in flight, with the packets it was built from. -/
structure Transmission where
  frame : Frame
  packets : List Packet

structure Exchange where
  pipe : OPipe
  /-- The packets written into the frame since it was last reset. -/
  building : List Packet
  /-- The packets whose write returned `JD_PIPE_OK`, oldest first. -/
  accepted : List Packet
  /-- The checksums of the flushed frames, latest first. -/
  checksums : List UInt16
  wire : List Transmission
  acks : List OPipe.Ack
  ipipes : List IPipe
  calls : List HandlerCall

namespace Exchange

/-- The packet a successful `jd_opipe_write_ex` put into the frame. -/
def streamPacket (counter flags : Nat) (data : List UInt8) : Packet :=
  ⟨serviceIndexStream, counter ||| flags, data⟩

/-- The close packet, when the step wrote it. -/
def closePacket (pipe next : OPipe) : List Packet :=
  if pipe.status ≠ .closedWaiting ∧ next.status = .closedWaiting then
    [streamPacket pipe.counter (pipeCloseMask ||| pipeMetadataMask) []]
  else []

/-- The packet a call wrote, if its write returned `JD_PIPE_OK`. -/
def writtenBy (pipe : OPipe) (operation : OPipe.Call) (result : PipeResult) (next : OPipe) :
    List Packet :=
  match operation with
  | .write data => if result = .ok then [streamPacket pipe.counter 0 data] else []
  | .writeMeta data =>
    if result = .ok then [streamPacket pipe.counter pipeMetadataMask data] else []
  | .close => closePacket pipe next
  | _ => []

/-- The checksum of a frame the step flushed; `idle` says whether nothing was
in flight before the flush. -/
def flushedChecksum (idle : Bool) (next : OPipe) : List UInt16 :=
  if idle ∧ next.currRetry ≠ 0 then [next.frame.crc] else []

/-- Writes carry at least one byte and at most what an object can hold. -/
def Payload : OPipe.Call → Prop
  | .write data => 1 ≤ data.length ∧ data.length < 2147483648
  | .writeMeta data => 1 ≤ data.length ∧ data.length < 2147483648
  | _ => True

/-- The acknowledgement at the top of `jd_services_process_frame`, as the
sender's `jd_opipe_handle_packet` sees it. -/
def ackFor (deviceId : List UInt8) (frame : Frame) : List OPipe.Ack :=
  if frame.flags &&& Frame.flagAckRequested ≠ 0 ∧ frame.flags &&& Frame.flagCommand ≠ 0 ∧
      frame.deviceIdentifier = deviceId then
    [⟨serviceIndexCrcAck, 0, frame.crc.toNat, deviceId⟩]
  else []

def called (exchange : Exchange) (operation : OPipe.Call) (result : PipeResult) (next : OPipe) :
    Exchange :=
  let written := writtenBy exchange.pipe operation result next
  { exchange with
    pipe := next
    building := exchange.building ++ written
    accepted := exchange.accepted ++ written
    checksums := flushedChecksum (exchange.pipe.currRetry = 0) next ++ exchange.checksums }

def processed (exchange : Exchange) (next : OPipe) (copy : Option Frame) : Exchange :=
  { exchange with
    pipe := next
    wire := exchange.wire ++ (copy.map fun frame => ⟨frame, exchange.building⟩).toList }

/-- The head of the wire reaches the receiver: it is acknowledged, then decoded
into the packets it was built from. -/
def delivered (deviceId : List UInt8) (exchange : Exchange) (item : Transmission)
    (rest : List Transmission) : Exchange :=
  let (ipipes, calls) := handleFrame deviceId item.frame exchange.ipipes item.packets
  { exchange with
    wire := rest
    acks := exchange.acks ++ ackFor deviceId item.frame
    ipipes
    calls := exchange.calls ++ calls }

/-- The head of the acknowledgements reaches the sender. -/
def acknowledged (exchange : Exchange) (ack : OPipe.Ack) (rest : List OPipe.Ack) (next : OPipe) :
    Exchange :=
  if ack.isCrcAck && exchange.pipe.acknowledges ack then
    let written := closePacket exchange.pipe next
    { exchange with
      pipe := next
      acks := rest
      building := written
      accepted := exchange.accepted ++ written
      checksums := flushedChecksum true next ++ exchange.checksums }
  else { exchange with pipe := next, acks := rest }

/-- `jd_ipipe_open` on the receiver and `jd_opipe_open` on the sender. -/
def opened (deviceId : List UInt8) (port : Nat) (ipipes : List IPipe) : Exchange where
  pipe := (OPipe.zero.jdOpipeOpen deviceId port).2
  building := []
  accepted := []
  checksums := []
  wire := []
  acks := []
  ipipes
  calls := []

end Exchange

/-- Everything that can happen, in any order. -/
inductive ExchangeRun (deviceId : List UInt8) (name : Nat) : Exchange → Prop where
  | opened (identifier : deviceId.length = 8) (ipipes : List IPipe) (draws : List Nat)
      (free : jdIpipeOpen ipipes name draws = some (port, after)) :
      ExchangeRun deviceId name (.opened deviceId port after)
  | call (run : ExchangeRun deviceId name exchange) (now : Nat) (operation : OPipe.Call)
      (payload : Exchange.Payload operation)
      (called : exchange.pipe.call now operation = .ok (result, next)) :
      ExchangeRun deviceId name (exchange.called operation result next)
  | process (run : ExchangeRun deviceId name exchange) (config : TxConfig) (now : Nat) (link : Link)
      (processed : exchange.pipe.jdOpipeProcess config now link = .ok (next, after, copy)) :
      ExchangeRun deviceId name (exchange.processed next copy)
  | loseData (run : ExchangeRun deviceId name exchange)
      (wire : exchange.wire = before ++ item :: after) :
      ExchangeRun deviceId name { exchange with wire := before ++ after }
  | loseAck {ack : OPipe.Ack} (run : ExchangeRun deviceId name exchange)
      (acks : exchange.acks = before ++ ack :: after) :
      ExchangeRun deviceId name { exchange with acks := before ++ after }
  | deliver (run : ExchangeRun deviceId name exchange) (wire : exchange.wire = item :: rest) :
      ExchangeRun deviceId name (exchange.delivered deviceId item rest)
  | ack {ack : OPipe.Ack} (run : ExchangeRun deviceId name exchange) (now : Nat)
      (acks : exchange.acks = ack :: rest)
      (handled : exchange.pipe.jdOpipeHandlePacket now ack = .ok next) :
      ExchangeRun deviceId name (exchange.acknowledged ack rest next)

namespace OPipe

open Exchange (streamPacket closePacket writtenBy)

/-- Everything a call of the application can do, with the packet it wrote. -/
inductive CallOutcome (now : Nat) (pipe : OPipe) : OPipe → List Packet → Prop where
  | kept : CallOutcome now pipe pipe []
  | deferred (status : pipe.status = .opened ∨ pipe.status = .closedUnsent)
      (busy : pipe.currRetry ≠ 0) : CallOutcome now pipe { pipe with status := .closedUnsent } []
  | wrote (opened : pipe.status = .opened) (idle : pipe.currRetry = 0) (plain : closes flags = false)
      (small : flags < 128) (aligned : flags % 32 = 0) (nonempty : data ≠ [])
      (size : data.length ≤ 232)
      (appended : appendPacket pipe.frame serviceIndexStream.toNat (pipe.counter ||| flags) data =
        .ok (some filled)) :
      CallOutcome now pipe (pipe.written filled) [streamPacket pipe.counter flags data]
  | flushed (status : pipe.status = .opened ∨ pipe.status = .closedUnsent)
      (idle : pipe.currRetry = 0) (left : next = pipe ∨ next = { pipe with status := .closedUnsent }) :
      CallOutcome now pipe (next.flushed now) []
  | closed (status : pipe.status = .opened ∨ pipe.status = .closedUnsent) (idle : pipe.currRetry = 0)
      (appended : appendPacket pipe.frame serviceIndexStream.toNat
        (pipe.counter ||| (pipeCloseMask ||| pipeMetadataMask)) [] = .ok (some filled)) :
      CallOutcome now pipe (({ pipe with status := .closedWaiting }.written filled).flushed now)
        [streamPacket pipe.counter (pipeCloseMask ||| pipeMetadataMask) []]
  | unlinked : CallOutcome now pipe zero []

theorem jdOpipeWriteEx_outcome (wrote : jdOpipeWriteEx now pipe data flags = .ok (result, next))
    (plain : closes flags = false) (small : flags < 128) (aligned : flags % 32 = 0)
    (some : 1 ≤ data.length) (object : data.length < 2147483648) :
    CallOutcome now pipe next (if result = .ok then [streamPacket pipe.counter flags data] else []) := by
  rcases jdOpipeWriteEx_cases wrote with
    ⟨rfl, opened, idle, fits, frame, appended, rfl⟩ | ⟨other, rfl, _⟩ | ⟨rfl, rfl, opened, idle⟩
  · have size := pipe.frame.size_lt
    have length : data.length ≤ 232 := by
      unfold u32 serialPayloadSize at fits; omega
    exact .wrote opened idle plain small aligned (List.ne_nil_of_length_pos some) length appended
  · rw [if_neg other]
    exact .kept
  · exact .flushed (.inl opened) idle (.inl rfl)

theorem jdOpipeCheckSpace_outcome (checked : jdOpipeCheckSpace now pipe len = .ok (result, next)) :
    CallOutcome now pipe next [] := by
  rcases jdOpipeCheckSpace_cases checked with ⟨_, rfl, _⟩ | ⟨_, rfl, _⟩ | ⟨_, rfl, opened, idle⟩
  · exact .kept
  · exact .kept
  · exact .flushed (.inl opened) idle (.inl rfl)

theorem jdOpipeSendClosePkt_outcome (sent : jdOpipeSendClosePkt now pipe = .ok (result, next))
    (status : pipe.status = .opened ∨ pipe.status = .closedUnsent) :
    CallOutcome now pipe next (closePacket pipe next) := by
  have waiting : pipe.status ≠ .closedWaiting := by
    rcases status with opened | unsent
    · simp [opened]
    · simp [unsent]
  rcases jdOpipeSendClosePkt_cases sent with ⟨idle, _, frame, appended, rfl⟩ | ⟨busy, rfl⟩ | ⟨idle, rfl⟩
  · rw [closePacket, if_pos ⟨waiting, rfl⟩]
    exact .closed status idle appended
  · rw [closePacket, if_neg (by simp)]
    exact .deferred status busy
  · rw [closePacket, if_neg (by simp [OPipe.flushed])]
    exact .flushed status idle (.inr rfl)

theorem call_outcome (payload : Exchange.Payload operation)
    (called : call now pipe operation = .ok (result, next)) :
    CallOutcome now pipe next (writtenBy pipe operation result next) := by
  cases operation with
  | write data =>
    exact jdOpipeWriteEx_outcome called (by decide) (by decide) (by decide) payload.1 payload.2
  | writeMeta data =>
    exact jdOpipeWriteEx_outcome called (by decide) (by decide) (by decide) payload.1 payload.2
  | checkSpace len => exact jdOpipeCheckSpace_outcome called
  | flush =>
    simp only [call, jdOpipeFlush] at called
    split at called
    · cases called
      exact .kept
    · exact jdOpipeCheckSpace_outcome called
  | close =>
    simp only [call, jdOpipeClose] at called
    split at called
    · rename_i dropped
      cases called
      rw [unlink, if_neg (by simp [dropped]), writtenBy, closePacket, if_neg (by simp [zero])]
      exact .unlinked
    · rename_i free
      cases called
      rw [writtenBy, closePacket, if_neg (by simp [free])]
      exact .kept
    · rename_i waiting
      cases called
      rw [writtenBy, closePacket, if_neg (by simp [waiting])]
      exact .kept
    · rename_i opened
      exact jdOpipeSendClosePkt_outcome called (.inl opened)
    · rename_i unsent
      exact jdOpipeSendClosePkt_outcome called (.inr unsent)

/-- One tick keeps the counter and the packets of the frame; at most the
loopback flag is set, and at most the status becomes dropped. -/
structure ProcessOutcome (pipe next : OPipe) (copy : Option Frame) : Prop where
  counter : next.counter = pipe.counter
  status : next.status = pipe.status ∨ (next.status = .dropped ∧ pipe.currRetry ≠ 0)
  retry : next.currRetry = 0 ↔ pipe.currRetry = 0
  flags : next.frame.flags = pipe.frame.flags ∨
    next.frame.flags = pipe.frame.flags ||| Frame.flagLoopback
  frame : ∀ cell, cell ≠ 3 → next.frame cell = pipe.frame cell
  copy : ∀ frame, copy = some frame → frame = pipe.frame ∧ pipe.currRetry ≠ 0

theorem jdOpipeProcess_outcome {pipe : OPipe}
    (processed : pipe.jdOpipeProcess config now link = .ok (next, after, copy)) :
    ProcessOutcome pipe next copy := by
  simp only [jdOpipeProcess] at processed
  split at processed
  · rename_i due
    split at processed
    · split at processed
      · cases processed
      · rename_i sent
        obtain ⟨flags, frame⟩ := jdSendFrameRaw_outcome sent
        split at processed
        · cases processed
          refine ⟨rfl, .inl rfl, by simp [due.1], flags, frame, ?_⟩
          intro copied same
          split at same
          · cases same
            exact ⟨rfl, due.1⟩
          · cases same
        · cases processed
          exact ⟨rfl, .inl rfl, .rfl, flags, frame, by simp⟩
    · split at processed
      · cases processed
        exact ⟨rfl, .inl rfl, by simp [due.1], .inl rfl, fun _ _ => rfl, by simp⟩
      · cases processed
        exact ⟨rfl, .inr ⟨rfl, due.1⟩, .rfl, .inl rfl, fun _ _ => rfl, by simp⟩
  · cases processed
    exact ⟨rfl, .inl rfl, .rfl, .inl rfl, fun _ _ => rfl, by simp⟩

end OPipe

end Jacdac
