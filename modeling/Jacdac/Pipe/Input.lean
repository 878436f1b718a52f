import Jacdac.Pipe.Output

/-! The input pipes of `jd_ipipe.c`. The linked list of descriptors is a list,
latest opened first; `name` stands for the descriptor's address. -/

namespace Jacdac

structure IPipe where
  name : Nat
  counter : Nat
  deriving DecidableEq, Repr

/-- The upper bits of a counter or command (`JD_PIPE_PORT_SHIFT`). -/
def portOf (counter : Nat) : Nat := counter / 128

/-- Bit 5 of a command, `JD_PIPE_CLOSE_MASK`. -/
def closes (command : Nat) : Bool := command.testBit 5

/-- Bit 6 of a command, `JD_PIPE_METADATA_MASK`. -/
def isMetadata (command : Nat) : Bool := command.testBit 6

/-- A call into the application; `eof` is the `NULL` packet after a close. -/
inductive HandlerCall where
  | handler (name : Nat) (packet : Packet)
  | metaHandler (name : Nat) (packet : Packet)
  | eof (name : Nat)
  deriving DecidableEq, Repr

def HandlerCall.packet? : HandlerCall → Option Packet
  | .handler _ packet => some packet
  | .metaHandler _ packet => some packet
  | .eof _ => none

/-- The packets passed to the handlers, in order. -/
def passed (calls : List HandlerCall) : List Packet := calls.filterMap HandlerCall.packet?

@[simp] theorem passed_append (first second : List HandlerCall) :
    passed (first ++ second) = passed first ++ passed second :=
  List.filterMap_append

/-- The list part of `jd_ipipe_free`. -/
def jdIpipeFree (ipipes : List IPipe) (name : Nat) : List IPipe :=
  ipipes.eraseP (·.name == name)

def isFreePort (ipipes : List IPipe) (port : Nat) : Bool :=
  port ≠ 0 ∧ ∀ pipe ∈ ipipes, portOf pipe.counter ≠ port

/-- `jd_ipipe_open`, given what `jd_random` returns from now on; `none` means
that no free port came up yet. -/
def jdIpipeOpen (ipipes : List IPipe) (name : Nat) (draws : List Nat) :
    Option (Nat × List IPipe) :=
  let ipipes := jdIpipeFree ipipes name
  match draws.find? fun draw => isFreePort ipipes (draw % 512) with
  | none => none
  | some draw => some (draw % 512, { name, counter := draw % 512 * 128 } :: ipipes)

/-- The loop of `jd_ipipe_handle_packet`: the first pipe on the packet's port
takes it if the counter matches. -/
def routePacket (packet : Packet) : List IPipe → List IPipe × List HandlerCall
  | [] => ([], [])
  | pipe :: rest =>
    if portOf pipe.counter = portOf packet.serviceCommand then
      if pipe.counter % 32 = packet.serviceCommand % 32 then
        let call :=
          if isMetadata packet.serviceCommand then HandlerCall.metaHandler pipe.name packet
          else HandlerCall.handler pipe.name packet
        if closes packet.serviceCommand then (rest, [call, .eof pipe.name])
        else ({ pipe with counter := nextCounter pipe.counter } :: rest, [call])
      else (pipe :: rest, [])
    else
      let (rest, calls) := routePacket packet rest
      (pipe :: rest, calls)

/-- `jd_ipipe_handle_packet` on the device `deviceId`; the flags and the
identifier come from the frame the packet arrived in. -/
def jdIpipeHandlePacket (deviceId : List UInt8) (frame : Frame) (ipipes : List IPipe)
    (packet : Packet) : List IPipe × List HandlerCall :=
  if packet.serviceIndex ≠ serviceIndexStream ∨ frame.flags &&& Frame.flagCommand = 0 ∨
      frame.deviceIdentifier ≠ deviceId then (ipipes, [])
  else routePacket packet ipipes

def handleFrame (deviceId : List UInt8) (frame : Frame) (ipipes : List IPipe) :
    List Packet → List IPipe × List HandlerCall
  | [] => (ipipes, [])
  | packet :: rest =>
    let (ipipes, calls) := jdIpipeHandlePacket deviceId frame ipipes packet
    let (ipipes, later) := handleFrame deviceId frame ipipes rest
    (ipipes, calls ++ later)

/-- A stream packet for `port` with the given position in the pipe. -/
structure Numbered (port position : Nat) (packet : Packet) : Prop where
  stream : packet.serviceIndex = serviceIndexStream
  port : portOf packet.serviceCommand = port
  counter : packet.serviceCommand % 32 = position % 32

/-- Consecutive positions from `position` on. -/
def NumberedFrom (port : Nat) : Nat → List Packet → Prop
  | _, [] => True
  | position, packet :: rest => Numbered port position packet ∧ NumberedFrom port (position + 1) rest

theorem NumberedFrom.append_iff : NumberedFrom port position (first ++ second) ↔
    NumberedFrom port position first ∧ NumberedFrom port (position + first.length) second := by
  induction first generalizing position with
  | nil => simp [NumberedFrom]
  | cons packet rest ih =>
    have shift : position + (packet :: rest).length = position + 1 + rest.length := by
      simp; omega
    rw [shift]
    simp only [List.cons_append, NumberedFrom, ih, and_assoc]

/-- The receiving side after the packets in `got`: the pipe waits for the next
position, or a close packet took it off the list. -/
inductive Receiving (name port : Nat) (others : List IPipe) (got : List Packet) :
    List IPipe → Prop where
  | waiting (counter : Nat) (portEq : portOf counter = port) (next : counter % 32 = got.length % 32)
      (unclosed : ∀ packet ∈ got, closes packet.serviceCommand = false) :
      Receiving name port others got (⟨name, counter⟩ :: others)
  | closed (closing : ∃ packet ∈ got, closes packet.serviceCommand = true) :
      Receiving name port others got others

theorem routePacket_unknown (unknown : ∀ pipe ∈ ipipes, portOf pipe.counter ≠ portOf packet.serviceCommand) :
    routePacket packet ipipes = (ipipes, []) := by
  induction ipipes with
  | nil => rfl
  | cons pipe rest ih =>
    rw [routePacket, if_neg (unknown pipe (by simp)), ih fun other member => unknown other (by simp [member])]

theorem portOf_nextCounter (counter : Nat) : portOf (nextCounter counter) = portOf counter := by
  unfold portOf nextCounter; omega

theorem nextCounter_mod (counter : Nat) : nextCounter counter % 32 = (counter + 1) % 32 := by
  unfold nextCounter; omega

section Receiving

variable {name port : Nat} {others : List IPipe} {deviceId : List UInt8} {frame : Frame}

/-- The frame is a command for this device. -/
structure Addressed (deviceId : List UInt8) (frame : Frame) : Prop where
  command : frame.flags &&& Frame.flagCommand ≠ 0
  device : frame.deviceIdentifier = deviceId

theorem jdIpipeHandlePacket_addressed (addressed : Addressed deviceId frame)
    (numbered : Numbered port position packet) :
    jdIpipeHandlePacket deviceId frame ipipes packet = routePacket packet ipipes :=
  if_neg (by simp [numbered.stream, addressed.command, addressed.device])

/-- A packet with another position changes nothing. -/
theorem Receiving.reject (receiving : Receiving name port others got ipipes)
    (foreign : ∀ pipe ∈ others, portOf pipe.counter ≠ port) (addressed : Addressed deviceId frame)
    (numbered : Numbered port position packet) (other : position % 32 ≠ got.length % 32) :
    jdIpipeHandlePacket deviceId frame ipipes packet = (ipipes, []) := by
  rw [jdIpipeHandlePacket_addressed addressed numbered]
  cases receiving with
  | waiting counter portEq next unclosed =>
    have mismatch : counter % 32 ≠ packet.serviceCommand % 32 := by
      rw [next, numbered.counter]
      exact other.symm
    rw [routePacket, if_pos (portEq.trans numbered.port.symm), if_neg mismatch]
  | closed =>
    apply routePacket_unknown
    rw [numbered.port]
    exact foreign

/-- A frame of at most 31 packets that was received before is rejected whole:
none of its positions is the next one modulo 32. -/
theorem Receiving.reject_frame (receiving : Receiving name port others got ipipes)
    (foreign : ∀ pipe ∈ others, portOf pipe.counter ≠ port) (addressed : Addressed deviceId frame)
    (numbered : NumberedFrom port position packets)
    (before : position + packets.length ≤ got.length) (recent : got.length < position + 32) :
    handleFrame deviceId frame ipipes packets = (ipipes, []) := by
  induction packets generalizing position with
  | nil => rfl
  | cons packet rest ih =>
    simp only [List.length_cons] at before
    rw [handleFrame, receiving.reject foreign addressed numbered.1 (by omega)]
    simp only [List.nil_append]
    by_cases empty : rest = []
    · subst empty
      rfl
    · have nonempty := List.length_pos_of_ne_nil empty
      rw [ih numbered.2 (by omega) (by omega)]

theorem Receiving.accept (receiving : Receiving name port others got ipipes)
    (unclosed : ∀ packet ∈ got, closes packet.serviceCommand = false)
    (addressed : Addressed deviceId frame) (numbered : Numbered port got.length packet) :
    ∃ next calls, jdIpipeHandlePacket deviceId frame ipipes packet = (next, calls) ∧
      passed calls = [packet] ∧ Receiving name port others (got ++ [packet]) next := by
  rw [jdIpipeHandlePacket_addressed addressed numbered]
  cases receiving with
  | closed closing =>
    obtain ⟨last, member, closing⟩ := closing
    rw [unclosed last member] at closing
    cases closing
  | waiting counter portEq next _ =>
    rw [routePacket, if_pos (portEq.trans numbered.port.symm),
      if_pos (next.trans numbered.counter.symm)]
    have call : (if isMetadata packet.serviceCommand then HandlerCall.metaHandler name packet
        else HandlerCall.handler name packet).packet? = some packet := by
      split
      · rfl
      · rfl
    by_cases closing : closes packet.serviceCommand = true
    · refine ⟨_, _, if_pos closing, ?_, .closed ⟨packet, by simp, closing⟩⟩
      rw [passed, List.filterMap_cons_some call]
      rfl
    · refine ⟨_, _, if_neg closing, ?_, .waiting _ ?_ ?_ ?_⟩
      · simp [passed, call]
      · rw [portOf_nextCounter, portEq]
      · rw [nextCounter_mod, List.length_append, List.length_singleton, Nat.add_mod, next,
          ← Nat.add_mod]
      · intro other member
        rcases List.mem_append.mp member with earlier | last
        · exact unclosed other earlier
        · rw [List.mem_singleton.mp last]
          exact Bool.eq_false_iff.mpr closing

/-- The next frame is passed on whole, as long as nothing follows a close packet. -/
theorem Receiving.accept_frame (receiving : Receiving name port others got ipipes)
    (addressed : Addressed deviceId frame) (numbered : NumberedFrom port got.length packets)
    (closesLast : ∀ packet ∈ (got ++ packets).dropLast, closes packet.serviceCommand = false) :
    ∃ next calls, handleFrame deviceId frame ipipes packets = (next, calls) ∧
      passed calls = packets ∧ Receiving name port others (got ++ packets) next := by
  induction packets generalizing got ipipes with
  | nil => exact ⟨ipipes, [], rfl, rfl, by rwa [List.append_nil]⟩
  | cons packet rest ih =>
    have unclosed : ∀ other ∈ got, closes other.serviceCommand = false := by
      intro other member
      apply closesLast other
      rw [List.dropLast_append_of_ne_nil (by simp)]
      exact List.mem_append_left _ member
    obtain ⟨middle, calls, handled, first, receiving⟩ :=
      receiving.accept unclosed addressed numbered.1
    have regroup : got ++ packet :: rest = got ++ [packet] ++ rest := by simp
    have tail : NumberedFrom port (got ++ [packet]).length rest := by
      simpa using numbered.2
    rw [regroup] at closesLast ⊢
    obtain ⟨next, later, handledRest, second, receiving⟩ := ih receiving tail closesLast
    refine ⟨next, calls ++ later, ?_, by simp [first, second], receiving⟩
    rw [handleFrame, handled]
    simp only [handledRest]

end Receiving

end Jacdac
