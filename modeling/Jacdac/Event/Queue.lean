import Jacdac.Base.Endian
import Jacdac.Pipe.Output

/-! The event queue of `event_queue.c`: a packed buffer of `ev_t` records that
are sent again some time after the event was raised. -/

namespace Jacdac

/-- `JD_EVENT_QUEUE_SIZE`. -/
def eventQueueSize : Nat := 128

/-- `FIRST_DELAY`, in microseconds. -/
def firstDelay : Nat := 20000
/-- `SECOND_DELAY`, in microseconds. -/
def secondDelay : Nat := 50000

/-- `struct event_info` once `ev_init` allocated the buffer. -/
structure EventInfo where
  buffer : Memory
  qptr : Nat
  counter : Nat

/-- The panic of `next_event_cmd`. -/
inductive EventFault where
  | eventId
  deriving DecidableEq, Repr

/-- `JD_CMD_EVENT_MK`: bit 15, seven counter bits, eight code bits. -/
def cmdEventMk (counter code : Nat) : Nat := 32768 + counter % 128 * 256 + code % 256

namespace EventInfo

/-- `ev_size` of a record with this payload. -/
def evSize (serviceSize : Nat) : Nat := 8 + align serviceSize

def serviceSizeAt (info : EventInfo) (ev : Nat) : Nat := (info.buffer (ev + 4)).toNat

/-- The raw `service_index`: bit 7 is set after the first repetition, `0xff`
marks a record that is done. -/
def serviceIndexAt (info : EventInfo) (ev : Nat) : UInt8 := info.buffer (ev + 5)

def timestampAt (info : EventInfo) (ev : Nat) : Nat := info.buffer.number ev 4

/-- The packet that `jd_send` is given for the record at `ev`. -/
def packetAt (info : EventInfo) (ev : Nat) : Packet where
  serviceIndex := info.serviceIndexAt ev &&& 0x7f
  serviceCommand := info.buffer.number (ev + 6) 2
  payload := info.buffer.read (ev + 8) (info.serviceSizeAt ev)

def setServiceIndex (info : EventInfo) (ev : Nat) (index : UInt8) : EventInfo :=
  { info with buffer := info.buffer.write (ev + 5) [index] }

def setTimestamp (info : EventInfo) (ev : Nat) (time : Nat) : EventInfo :=
  { info with buffer := info.buffer.write ev (littleEndian 4 time) }

def nextEv (info : EventInfo) (ev : Nat) : Nat := ev + evSize (info.serviceSizeAt ev)

/-- Drop the oldest record. -/
def evShift (info : EventInfo) : EventInfo :=
  let offset := evSize (info.serviceSizeAt 0)
  let qptr := u16 (info.qptr + 65536 - offset)
  { info with buffer := jdWordMove info.buffer 0 offset (qptr / 4), qptr }

def nextEventCmd (info : EventInfo) (eventId : Nat) : Except EventFault (Nat × EventInfo) :=
  if eventId / 256 ≠ 0 then .error .eventId
  else
    let info := { info with counter := (info.counter + 1) % 256 }
    .ok (cmdEventMk info.counter eventId, info)

/-- What one call of `do_process_event_queue` does: the packets it sent, each
with the number of its record counted from the head before the call, and how
many records left. -/
structure Pass where
  info : EventInfo
  sent : List (Nat × Packet)
  left : Nat

/-- The loop of `do_process_event_queue`, at the `index`-th record of the queue,
at offset `ev`. `accept` tells which calls of `jd_send` return 0; `none` means
that the fuel ran out. -/
def processFrom (now : Nat) (accept : Nat → Bool) : Nat → Pass → Nat → Nat → Option Pass
  | 0, _, _, _ => none
  | fuel + 1, pass, index, ev =>
    let info := pass.info
    if ev < info.qptr then
      if info.serviceIndexAt ev = 0xff then
        if ev = 0 then
          processFrom now accept fuel { pass with info := info.evShift, left := pass.left + 1 } index ev
        else processFrom now accept fuel pass (index + 1) (info.nextEv ev)
      else if inPast now (info.timestampAt ev) then
        if accept pass.sent.length = false then some pass
        else
          let pass := { pass with sent := pass.sent ++ [(pass.left + index, info.packetAt ev)] }
          if info.serviceIndexAt ev &&& 0x80 ≠ 0 then
            if ev = 0 then
              processFrom now accept fuel { pass with info := info.evShift, left := pass.left + 1 } index ev
            else
              let info := info.setServiceIndex ev 0xff
              processFrom now accept fuel { pass with info } (index + 1) (info.nextEv ev)
          else
            let info := info.setTimestamp ev (u32 (info.timestampAt ev + secondDelay))
            let info := info.setServiceIndex ev (info.serviceIndexAt ev ||| 0x80)
            processFrom now accept fuel { pass with info } (index + 1) (info.nextEv ev)
      else processFrom now accept fuel pass (index + 1) (info.nextEv ev)
    else some pass

def doProcessEventQueue (now : Nat) (accept : Nat → Bool) (fuel : Nat) (info : EventInfo) :
    Option Pass :=
  processFrom now accept fuel { info, sent := [], left := 0 } 0 0

/-- The eviction loop of `jd_send_event_ext`, with the number of records it
dropped. Every record takes at least eight bytes, so a count of `qptr` turns is
enough. -/
def makeRoom (reqlen : Nat) : Nat → EventInfo → EventInfo × Nat
  | 0, info => (info, 0)
  | fuel + 1, info =>
    if eventQueueSize < info.qptr + reqlen then
      let (info, left) := makeRoom reqlen fuel info.evShift
      (info, left + 1)
    else (info, 0)

/-- Store a new record at the end of the queue. -/
def enqueue (now : Nat) (info : EventInfo) (packet : Packet) : EventInfo :=
  let ev := info.qptr
  let record := littleEndian 4 (u32 (now + firstDelay)) ++
    [UInt8.ofNat packet.serviceSize, packet.serviceIndex] ++ littleEndian 2 packet.serviceCommand ++
    packet.payload
  { info with
    buffer := info.buffer.write ev record
    qptr := u16 (ev + evSize (UInt8.ofNat packet.serviceSize).toNat) }

/-- `jd_send_event_ext`: the packet handed to `jd_send`, whose result is
ignored, the queue afterwards, and how many records were evicted. -/
def jdSendEventExt (now : Nat) (info : EventInfo) (serviceIndex : UInt8) (eventId : Nat)
    (data : List UInt8) : Except EventFault (Packet × EventInfo × Nat) :=
  match info.nextEventCmd eventId with
  | .error fault => .error fault
  | .ok (cmd, info) =>
    let packet : Packet := ⟨serviceIndex, cmd, data⟩
    let reqlen := data.length + 8
    if reqlen > eventQueueSize then .ok (packet, info, 0)
    else
      let (info, left) := makeRoom reqlen info.qptr info
      .ok (packet, enqueue now info packet, left)

/-- Zero-initialised, with the buffer allocated. -/
def boot : EventInfo := { buffer := fun _ => 0, qptr := 0, counter := 0 }

end EventInfo

end Jacdac
