import Jacdac.Pipe.Exchange
import Mathlib.Data.List.Chain

/-! What holds in every state of an exchange. At most two frames are anywhere
between sender and receiver, the last acknowledged one and the current one, and
nothing of the first follows anything of the second. -/

namespace Jacdac

/-- The receiving device, the port it opened and its other pipes. -/
structure Site where
  deviceId : List UInt8
  name : Nat
  port : Nat
  others : List IPipe
  identifier : deviceId.length = 8
  portBound : port < 512
  foreign : ∀ pipe ∈ others, portOf pipe.counter ≠ port

/-- How the packets, the copies in flight and the acknowledgements divide
between the last acknowledged frame and the current one. -/
structure Ledger where
  done : List Packet
  last : List Packet
  lastCrc : UInt16
  crc : UInt16
  stale : List Transmission
  fresh : List Transmission
  old : List OPipe.Ack
  new : List OPipe.Ack

/-- Flags and address of a frame that the receiver takes and acknowledges. -/
structure Requesting (deviceId : List UInt8) (frame : Frame) : Prop extends
    Addressed deviceId frame where
  wantsAck : frame.flags &&& Frame.flagAckRequested ≠ 0

def Copies (site : Site) (crc : UInt16) (packets : List Packet) (items : List Transmission) : Prop :=
  ∀ item ∈ items, item.packets = packets ∧ item.frame.crc = crc ∧ Requesting site.deviceId item.frame

def Answers (crc : UInt16) (acks : List OPipe.Ack) : Prop :=
  ∀ ack ∈ acks, ack.serviceCommand = crc.toNat

structure Exchange.Consistent (site : Site) (ledger : Ledger) (exchange : Exchange) : Prop where
  accepted : exchange.accepted = ledger.done ++ exchange.building
  last : ledger.last <:+ ledger.done
  lastShort : ledger.last.length < 32
  buildingShort : exchange.building.length < 32
  wire : exchange.wire = ledger.stale ++ ledger.fresh
  acks : exchange.acks = ledger.old ++ ledger.new
  stale : Copies site ledger.lastCrc ledger.last ledger.stale
  fresh : Copies site ledger.crc exchange.building ledger.fresh
  old : Answers ledger.lastCrc ledger.old
  new : Answers ledger.crc ledger.new
  received : (passed exchange.calls = ledger.done ∧ ledger.new = []) ∨
    (passed exchange.calls = exchange.accepted ∧ ledger.stale = [])
  numbered : NumberedFrom site.port 0 exchange.accepted
  closesLast : ∀ packet ∈ exchange.accepted.dropLast, closes packet.serviceCommand = false
  receiver : Receiving site.name site.port site.others (passed exchange.calls) exchange.ipipes

/-- The sender's frame holds the packets of `building`, and its counter is the
position of the next one. -/
structure Writing (site : Site) (pipe : OPipe) (building accepted : List Packet) : Prop where
  accumulates : Accumulates pipe.frame building
  requesting : Requesting site.deviceId pipe.frame
  port : portOf pipe.counter = site.port
  counter : pipe.counter % 128 = accepted.length % 32
  unclosed : pipe.status = .opened ∨ pipe.status = .closedUnsent →
    (∀ packet ∈ building, packet.payload ≠ []) ∧
    ∀ packet ∈ accepted, closes packet.serviceCommand = false

/-- The checksum of the last acknowledged frame heads `earlier`, unless nothing
was acknowledged yet. -/
def Previous (ledger : Ledger) (earlier : List UInt16) : Prop :=
  earlier.head? = some ledger.lastCrc ∨ (ledger.stale = [] ∧ ledger.old = [])

inductive Exchange.Sender (site : Site) (ledger : Ledger) (exchange : Exchange) : Prop where
  | idle (retry : exchange.pipe.currRetry = 0)
      (writing : Writing site exchange.pipe exchange.building exchange.accepted)
      (fresh : ledger.fresh = []) (new : ledger.new = [])
      (received : passed exchange.calls = ledger.done) (previous : Previous ledger exchange.checksums)
  | flight (retry : exchange.pipe.currRetry ≠ 0)
      (writing : Writing site exchange.pipe exchange.building exchange.accepted)
      (crc : exchange.pipe.frame.crc = ledger.crc)
      (checksums : exchange.checksums = ledger.crc :: earlier) (previous : Previous ledger earlier)
  | gone (retry : exchange.pipe.currRetry = 0) (status : exchange.pipe.status = .free)

def Exchange.Invariant (site : Site) (exchange : Exchange) : Prop :=
  ∃ ledger, exchange.Consistent site ledger ∧ exchange.Sender site ledger

theorem Requesting.congr (requesting : Requesting deviceId frame)
    (same : ∀ cell, 3 ≤ cell → cell < Frame.dataOffset → other cell = frame cell) :
    Requesting deviceId other := by
  have flags : other.flags = frame.flags := same 3 (by decide) (by decide)
  have device : other.deviceIdentifier = frame.deviceIdentifier :=
    Memory.read_congr fun cell lower upper => same cell (by omega) (by simpa [Frame.dataOffset] using upper)
  exact ⟨⟨flags ▸ requesting.command, device.trans requesting.device⟩, flags ▸ requesting.wantsAck⟩

private theorem or_bit_ne_zero {flags bit extra : UInt8} (set : flags &&& bit ≠ 0) :
    (flags ||| extra) &&& bit ≠ 0 := by
  intro zero
  apply set
  apply UInt8.toBitVec_inj.mp
  ext position inside
  have here := congrArg (fun byte => byte.toBitVec.getLsbD position) zero
  simp at here ⊢
  grind

theorem Requesting.looped (requesting : Requesting deviceId frame)
    (flags : other.flags = frame.flags ∨ other.flags = frame.flags ||| Frame.flagLoopback)
    (same : ∀ cell, cell ≠ 3 → other cell = frame cell) : Requesting deviceId other := by
  have device : other.deviceIdentifier = frame.deviceIdentifier :=
    Memory.read_congr fun cell lower upper => same cell (by omega)
  rcases flags with kept | set
  · exact ⟨⟨kept ▸ requesting.command, device.trans requesting.device⟩, kept ▸ requesting.wantsAck⟩
  · refine ⟨⟨?_, device.trans requesting.device⟩, ?_⟩
    · rw [set]
      exact or_bit_ne_zero requesting.command
    · rw [set]
      exact or_bit_ne_zero requesting.wantsAck

theorem jdComputeCrc_outside (frame : Frame) (outside : 2 ≤ cell) :
    jdComputeCrc frame cell = frame cell := by
  rw [jdComputeCrc, Frame.setCrc, Memory.write_outside (.inr outside)]

/-- Computing the checksum touches neither flags nor packets. -/
theorem Writing.flushed (writing : Writing site pipe building accepted) (now : Nat) :
    Writing site (pipe.flushed now) building accepted where
  accumulates := writing.accumulates.congr rfl fun cell data =>
    jdComputeCrc_outside _ (Nat.le_trans (by decide) data)
  requesting := writing.requesting.congr fun cell lower _ => jdComputeCrc_outside _ (by omega)
  port := writing.port
  counter := writing.counter
  unclosed := writing.unclosed

theorem Writing.deferred (writing : Writing site pipe building accepted)
    (status : pipe.status = .opened ∨ pipe.status = .closedUnsent) :
    Writing site { pipe with status := .closedUnsent } building accepted :=
  { writing with unclosed := fun _ => writing.unclosed status }

theorem Writing.processed (writing : Writing site pipe building accepted)
    (outcome : OPipe.ProcessOutcome pipe next copy) : Writing site next building accepted where
  accumulates := by
    refine writing.accumulates.congr ?_ fun cell data => outcome.frame cell ?_
    · rw [Frame.size, Frame.size, outcome.frame 2 (by decide)]
    · have offset : Frame.dataOffset = 12 := rfl
      omega
  requesting := writing.requesting.looped outcome.flags outcome.frame
  port := outcome.counter ▸ writing.port
  counter := outcome.counter ▸ writing.counter
  unclosed := by
    rcases outcome.status with same | ⟨dropped, _⟩
    · rw [same]
      exact writing.unclosed
    · simp [dropped]

open Exchange (streamPacket)

theorem streamPacket_numbered (port : portOf counter = site) (position : counter % 128 = count % 32)
    (small : flags < 128) (aligned : flags % 32 = 0) :
    Numbered site count (streamPacket counter flags data) where
  stream := rfl
  port := by
    have split : (counter ||| flags) / 2 ^ 7 = counter / 2 ^ 7 ||| flags / 2 ^ 7 := Nat.or_div_two_pow ..
    have none : flags / 2 ^ 7 = 0 := by omega
    rw [none, Nat.or_zero] at split
    exact split.trans port
  counter := by
    have split : (counter ||| flags) % 2 ^ 5 = counter % 2 ^ 5 ||| flags % 2 ^ 5 := Nat.or_mod_two_pow ..
    rw [show flags % 2 ^ 5 = 0 from aligned, Nat.or_zero] at split
    exact split.trans (by omega)

theorem streamPacket_closes (position : counter % 128 = count % 32) :
    closes (streamPacket counter flags data).serviceCommand = closes flags := by
  have clear : counter.testBit 5 = false := by
    rw [Nat.testBit_eq_decide_div_mod_eq, decide_eq_false_iff_not]
    omega
  simp [closes, streamPacket, Nat.testBit_or, clear]

/-- A packet appended to the frame takes the next position. -/
theorem Writing.appended (writing : Writing site pipe building accepted)
    (size : data.length ≤ 232)
    (appended : appendPacket pipe.frame serviceIndexStream.toNat (pipe.counter ||| flags) data =
      .ok (some frame)) (status : PipeStatus)
    (unclosed : status = .opened ∨ status = .closedUnsent →
      data ≠ [] ∧ closes flags = false ∧ (pipe.status = .opened ∨ pipe.status = .closedUnsent)) :
    Writing site ({ pipe with status }.written frame)
      (building ++ [streamPacket pipe.counter flags data])
      (accepted ++ [streamPacket pipe.counter flags data]) where
  accumulates := writing.accumulates.appended_of_ok size appended
  requesting := writing.requesting.congr fun cell lower upper =>
    appendPacket_header appended lower upper
  port := (portOf_nextCounter _).trans writing.port
  counter := by
    have position := writing.counter
    simp only [OPipe.written, nextCounter, List.length_append, List.length_singleton]
    omega
  unclosed := by
    intro open'
    obtain ⟨nonempty, plain, before⟩ := unclosed open'
    obtain ⟨payloads, earlier⟩ := writing.unclosed before
    constructor
    · intro packet member
      rcases List.mem_append.mp member with old | new
      · exact payloads packet old
      · rw [List.mem_singleton.mp new]
        exact nonempty
    · intro packet member
      rcases List.mem_append.mp member with old | new
      · exact earlier packet old
      · rw [List.mem_singleton.mp new, streamPacket_closes writing.counter]
        exact plain

/-- The sender may change its descriptor freely. -/
theorem Exchange.Consistent.sender (consistent : Consistent site ledger exchange)
    (pipe : OPipe) (checksums : List UInt16) :
    Consistent site ledger { exchange with pipe, checksums } :=
  { consistent with }

/-- With nothing of the current frame in flight, it may get another packet. -/
theorem Exchange.Consistent.extend (consistent : Consistent site ledger exchange)
    (fresh : ledger.fresh = []) (new : ledger.new = []) (received : passed exchange.calls = ledger.done)
    (numbered : Numbered site.port exchange.accepted.length packet)
    (unclosed : ∀ packet ∈ exchange.accepted, closes packet.serviceCommand = false)
    (short : exchange.building.length < 31) :
    Consistent site ledger { exchange with
      building := exchange.building ++ [packet]
      accepted := exchange.accepted ++ [packet] } :=
  { consistent with
    accepted := by rw [consistent.accepted, List.append_assoc]
    buildingShort := by simp; omega
    fresh := by simp [fresh, Copies]
    received := .inl ⟨received, new⟩
    numbered := NumberedFrom.append_iff.mpr ⟨consistent.numbered, by simpa using numbered, trivial⟩
    closesLast := by simpa using unclosed }

/-- A freshly flushed frame starts with its own checksum. -/
theorem Exchange.Consistent.restart (consistent : Consistent site ledger exchange)
    (fresh : ledger.fresh = []) (new : ledger.new = []) (crc : UInt16) :
    Consistent site { ledger with crc } exchange :=
  { consistent with
    fresh := by simp [fresh, Copies]
    new := by simp [new, Answers] }

theorem Exchange.flushedChecksum_nil (quiet : idle = true → next.currRetry = 0) :
    flushedChecksum idle next = [] :=
  if_neg fun busy => busy.2 (quiet busy.1)

theorem Exchange.flushedChecksum_flushed {before pipe : OPipe} (idle : before.currRetry = 0) :
    flushedChecksum (before.currRetry = 0) (pipe.flushed now) = [(pipe.flushed now).frame.crc] :=
  if_pos ⟨decide_eq_true idle, Nat.one_ne_zero⟩

open OPipe (CallOutcome)

/-- Whatever the application calls, with whatever outcome. -/
theorem Exchange.Invariant.called (invariant : Invariant site exchange)
    (outcome : CallOutcome now exchange.pipe next written) :
    Invariant site { exchange with
      pipe := next
      building := exchange.building ++ written
      accepted := exchange.accepted ++ written
      checksums := flushedChecksum (exchange.pipe.currRetry = 0) next ++ exchange.checksums } := by
  obtain ⟨ledger, consistent, sender⟩ := invariant
  cases outcome with
  | kept =>
    rw [flushedChecksum_nil (by simp), List.append_nil, List.append_nil, List.nil_append]
    exact ⟨ledger, consistent, sender⟩
  | unlinked =>
    rw [flushedChecksum_nil fun _ => rfl, List.append_nil, List.append_nil, List.nil_append]
    exact ⟨ledger, consistent.sender _ _, .gone rfl rfl⟩
  | deferred status busy =>
    rw [flushedChecksum_nil (by simp [busy]), List.append_nil, List.append_nil, List.nil_append]
    refine ⟨ledger, consistent.sender _ _, ?_⟩
    cases sender with
    | idle retry => exact absurd retry busy
    | gone retry => exact absurd retry busy
    | flight retry writing crc checksums previous =>
      exact .flight retry (writing.deferred status) crc checksums previous
  | wrote opened idle plain small aligned nonempty size appended =>
    cases sender with
    | flight retry => exact absurd idle retry
    | gone _ status => simp [status] at opened
    | idle retry writing fresh new received previous =>
      obtain ⟨payloads, unclosed⟩ := writing.unclosed (.inl opened)
      have short := writing.accumulates.length_le payloads
      rw [flushedChecksum_nil (by simp [OPipe.written]), List.nil_append]
      refine ⟨ledger, ?_, .idle idle ?_ fresh new received previous⟩
      · exact (consistent.extend fresh new received
          (streamPacket_numbered writing.port writing.counter small aligned) unclosed
          (by omega)).sender _ _
      · exact writing.appended size appended exchange.pipe.status
          fun status => ⟨nonempty, plain, status⟩
  | @flushed kept status idle left =>
    cases sender with
    | flight retry => exact absurd idle retry
    | gone _ free => simp [free] at status
    | idle retry writing fresh new received previous =>
      rw [flushedChecksum_flushed idle, List.append_nil, List.append_nil,
        List.singleton_append]
      have writing : Writing site kept exchange.building exchange.accepted := by
        rcases left with rfl | rfl
        · exact writing
        · exact writing.deferred status
      exact ⟨_, (consistent.restart fresh new _).sender _ _,
        .flight Nat.one_ne_zero (writing.flushed now) rfl rfl previous⟩
  | @closed filled status idle appended =>
    cases sender with
    | flight retry => exact absurd idle retry
    | gone _ free => simp [free] at status
    | idle retry writing fresh new received previous =>
      obtain ⟨payloads, unclosed⟩ := writing.unclosed status
      have short := writing.accumulates.length_le payloads
      rw [flushedChecksum_flushed idle, List.singleton_append]
      have numbered : Numbered site.port exchange.accepted.length
          (streamPacket exchange.pipe.counter (pipeCloseMask ||| pipeMetadataMask) []) :=
        streamPacket_numbered writing.port writing.counter (by decide) (by decide)
      have extended := consistent.extend fresh new received numbered unclosed (by omega)
      have appended := writing.appended (by decide) appended .closedWaiting (by simp)
      exact ⟨_, (extended.restart fresh new _).sender _ _,
        .flight Nat.one_ne_zero (appended.flushed now) rfl rfl previous⟩

/-- A tick adds at most one more copy of the current frame. -/
theorem Exchange.Invariant.processed (invariant : Invariant site exchange)
    (outcome : OPipe.ProcessOutcome exchange.pipe next copy) :
    Invariant site (exchange.processed next copy) := by
  obtain ⟨ledger, consistent, sender⟩ := invariant
  cases sender with
  | flight retry writing crc checksums previous =>
    have kept : next.frame.crc = exchange.pipe.frame.crc := by
      rw [Frame.crc, Frame.crc, outcome.frame 0 (by decide), outcome.frame 1 (by decide)]
    refine ⟨{ ledger with fresh := ledger.fresh ++
      (copy.map fun frame => ⟨frame, exchange.building⟩).toList }, { consistent with wire := ?_, fresh := ?_ },
      .flight (outcome.retry.not.mpr retry) (writing.processed outcome) (kept.trans crc) checksums
        previous⟩
    · simp [Exchange.processed, consistent.wire]
    · intro item member
      rcases List.mem_append.mp member with old | new
      · exact consistent.fresh item old
      · cases copy with
        | none => simp at new
        | some frame =>
          obtain ⟨rfl, _⟩ := outcome.copy frame rfl
          have same : item = ⟨exchange.pipe.frame, exchange.building⟩ := by simpa using new
          rw [same]
          exact ⟨rfl, crc, writing.requesting⟩
  | idle retry writing fresh new received previous =>
    have none : copy = none := by
      cases copy with
      | none => rfl
      | some frame => exact absurd retry (outcome.copy frame rfl).2
    refine ⟨ledger, { consistent with wire := ?_ },
      .idle (outcome.retry.mpr retry) (writing.processed outcome) fresh new received previous⟩
    simp [Exchange.processed, none, consistent.wire]
  | gone retry status =>
    have none : copy = none := by
      cases copy with
      | none => rfl
      | some frame => exact absurd retry (outcome.copy frame rfl).2
    have free : next.status = .free := by
      rcases outcome.status with same | ⟨_, busy⟩
      · exact same.trans status
      · exact absurd retry busy
    refine ⟨ledger, { consistent with wire := ?_ }, .gone (outcome.retry.mpr retry) free⟩
    simp [Exchange.processed, none, consistent.wire]

theorem Previous.shrink (previous : Previous ledger earlier) (stale : staleLeft.Sublist ledger.stale)
    (old : oldLeft.Sublist ledger.old) :
    Previous { ledger with stale := staleLeft, fresh, old := oldLeft, new } earlier := by
  rcases previous with head | ⟨noStale, noOld⟩
  · exact .inl head
  · rw [noStale] at stale
    rw [noOld] at old
    exact .inr ⟨List.sublist_nil.mp stale, List.sublist_nil.mp old⟩

/-- Anything in flight may get lost. -/
theorem Exchange.Invariant.shrink (invariant : Invariant site exchange)
    (wire : wireLeft.Sublist exchange.wire) (acks : acksLeft.Sublist exchange.acks) :
    Invariant site { exchange with wire := wireLeft, acks := acksLeft } := by
  obtain ⟨ledger, consistent, sender⟩ := invariant
  rw [consistent.wire] at wire
  rw [consistent.acks] at acks
  obtain ⟨stale, fresh, rfl, staleLeft, freshLeft⟩ := List.sublist_append_iff.mp wire
  obtain ⟨old, new, rfl, oldLeft, newLeft⟩ := List.sublist_append_iff.mp acks
  have noFresh (none : ledger.fresh = []) : fresh = [] := List.sublist_nil.mp (none ▸ freshLeft)
  have noNew (none : ledger.new = []) : new = [] := List.sublist_nil.mp (none ▸ newLeft)
  refine ⟨{ ledger with stale, fresh, old, new },
    { consistent with
      wire := rfl
      acks := rfl
      stale := fun item member => consistent.stale item (staleLeft.subset member)
      fresh := fun item member => consistent.fresh item (freshLeft.subset member)
      old := fun ack member => consistent.old ack (oldLeft.subset member)
      new := fun ack member => consistent.new ack (newLeft.subset member)
      received := ?_ }, ?_⟩
  · rcases consistent.received with ⟨before, none⟩ | ⟨all, none⟩
    · exact .inl ⟨before, noNew none⟩
    · exact .inr ⟨all, List.sublist_nil.mp (none ▸ staleLeft)⟩
  · cases sender with
    | idle retry writing none noneNew received previous =>
      exact .idle retry writing (noFresh none) (noNew noneNew) received
        (previous.shrink staleLeft oldLeft)
    | flight retry writing crc checksums previous =>
      exact .flight retry writing crc checksums (previous.shrink staleLeft oldLeft)
    | gone retry status => exact .gone retry status

theorem Exchange.ackFor_requesting (requesting : Requesting deviceId frame) :
    ackFor deviceId frame = [⟨serviceIndexCrcAck, 0, frame.crc.toNat, deviceId⟩] :=
  if_pos ⟨requesting.wantsAck, requesting.command, requesting.device⟩

/-- A frame that the receiver has got completely changes nothing when it comes again. -/
theorem Exchange.Consistent.again (consistent : Consistent site ledger exchange)
    (got : passed exchange.calls = before ++ packets)
    (numbered : NumberedFrom site.port 0 (before ++ packets)) (short : packets.length < 32)
    (requesting : Requesting site.deviceId frame) :
    handleFrame site.deviceId frame exchange.ipipes packets = (exchange.ipipes, []) := by
  have receiver := consistent.receiver
  rw [got] at receiver
  obtain ⟨_, tail⟩ := NumberedFrom.append_iff.mp numbered
  refine receiver.reject_frame site.foreign requesting.toAddressed tail ?_ ?_
  · simp
  · simp; omega

/-- While copies of the last acknowledged frame are in flight, the receiver is
at its end. -/
theorem Exchange.Consistent.behind (consistent : Consistent site ledger exchange)
    (stale : ledger.stale = item :: rest) : passed exchange.calls = ledger.done ∧ ledger.new = [] := by
  rcases consistent.received with before | ⟨_, empty⟩
  · exact before
  · rw [stale] at empty
    cases empty

theorem Exchange.Consistent.stale_ignored (consistent : Consistent site ledger exchange)
    (stale : ledger.stale = item :: rest) :
    handleFrame site.deviceId item.frame exchange.ipipes item.packets = (exchange.ipipes, []) := by
  obtain ⟨packets, _, requesting⟩ := consistent.stale item (by simp [stale])
  obtain ⟨before, split⟩ := consistent.last
  have numbered : NumberedFrom site.port 0 (before ++ ledger.last) := by
    have whole := consistent.numbered
    rw [consistent.accepted, ← split] at whole
    exact (NumberedFrom.append_iff.mp whole).1
  rw [packets]
  exact consistent.again ((consistent.behind stale).1.trans split.symm) numbered
    consistent.lastShort requesting

/-- A copy of the last acknowledged frame reaches the receiver. -/
theorem Exchange.Consistent.deliver_stale (consistent : Consistent site ledger exchange)
    (stale : ledger.stale = item :: rest) :
    Consistent site { ledger with stale := rest, old := ledger.old ++ ackFor site.deviceId item.frame }
      (exchange.delivered site.deviceId item (rest ++ ledger.fresh)) := by
  obtain ⟨_, crc, requesting⟩ := consistent.stale item (by simp [stale])
  obtain ⟨got, none⟩ := consistent.behind stale
  rw [ackFor_requesting requesting]
  simp only [Exchange.delivered, consistent.stale_ignored stale, List.append_nil,
    ackFor_requesting requesting]
  exact
    { consistent with
      wire := rfl
      acks := by simp [consistent.acks, none]
      stale := fun other member => consistent.stale other (by simp [stale, member])
      old := by
        intro ack member
        rcases List.mem_append.mp member with earlier | last
        · exact consistent.old ack earlier
        · rw [List.mem_singleton.mp last, crc]
      received := .inl ⟨got, none⟩ }

/-- A copy of the current frame reaches the receiver, for the first time or again. -/
theorem Exchange.Consistent.deliver_fresh (consistent : Consistent site ledger exchange)
    (stale : ledger.stale = []) (fresh : ledger.fresh = item :: rest) :
    Consistent site { ledger with fresh := rest, new := ledger.new ++ ackFor site.deviceId item.frame }
      (exchange.delivered site.deviceId item rest) := by
  obtain ⟨packets, crc, requesting⟩ := consistent.fresh item (by simp [fresh])
  have handled : ∃ next calls,
      handleFrame site.deviceId item.frame exchange.ipipes item.packets = (next, calls) ∧
      passed (exchange.calls ++ calls) = exchange.accepted ∧
      Receiving site.name site.port site.others exchange.accepted next := by
    rw [packets]
    have receiver := consistent.receiver
    have numbered := consistent.numbered
    have closesLast := consistent.closesLast
    rcases consistent.received with ⟨before, _⟩ | ⟨all, _⟩
    · rw [before] at receiver
      rw [consistent.accepted] at numbered closesLast
      have tail := (NumberedFrom.append_iff.mp numbered).2
      rw [Nat.zero_add] at tail
      obtain ⟨next, calls, same, got, receiver⟩ :=
        receiver.accept_frame requesting.toAddressed tail closesLast
      rw [← consistent.accepted] at receiver
      exact ⟨next, calls, same, by rw [passed_append, before, got, consistent.accepted], receiver⟩
    · rw [consistent.accepted] at numbered
      rw [all] at receiver
      have same := consistent.again (all.trans consistent.accepted) numbered
        consistent.buildingShort requesting
      exact ⟨_, [], same, by rwa [List.append_nil], receiver⟩
  obtain ⟨next, calls, same, got, receiver⟩ := handled
  simp only [Exchange.delivered, same, ackFor_requesting requesting]
  exact
    { consistent with
      wire := by simp [stale]
      acks := by simp [consistent.acks]
      fresh := fun other member => consistent.fresh other (by simp [fresh, member])
      new := by
        intro ack member
        rcases List.mem_append.mp member with earlier | last
        · exact consistent.new ack earlier
        · rw [List.mem_singleton.mp last, crc]
      received := .inr ⟨got, stale⟩
      receiver := by rwa [got] }

theorem Exchange.Invariant.delivered (invariant : Invariant site exchange)
    (wire : exchange.wire = item :: rest) :
    Invariant site (exchange.delivered site.deviceId item rest) := by
  obtain ⟨ledger, consistent, sender⟩ := invariant
  have split := consistent.wire
  rw [wire] at split
  cases stale : ledger.stale with
  | cons head others =>
    rw [stale, List.cons_append] at split
    obtain ⟨rfl, rfl⟩ := List.cons.inj split
    refine ⟨_, consistent.deliver_stale stale, ?_⟩
    have used (earlier : List UInt16) (previous : Previous ledger earlier) :
        earlier.head? = some ledger.lastCrc := by
      rcases previous with head | ⟨empty, _⟩
      · exact head
      · rw [stale] at empty
        cases empty
    cases sender with
    | idle retry writing fresh new received previous =>
      refine .idle retry writing fresh new ?_ (.inl (used _ previous))
      simpa only [Exchange.delivered, consistent.stale_ignored stale, List.append_nil] using received
    | flight retry writing crc checksums previous =>
      exact .flight retry writing crc checksums (.inl (used _ previous))
    | gone retry status => exact .gone retry status
  | nil =>
    rw [stale, List.nil_append] at split
    refine ⟨_, consistent.deliver_fresh stale split.symm, ?_⟩
    cases sender with
    | idle retry writing fresh =>
      rw [fresh] at split
      cases split
    | flight retry writing crc checksums previous =>
      exact .flight retry writing crc checksums previous
    | gone retry status => exact .gone retry status

/-- The exchange right after the sender noticed an acknowledgement of the
current frame, before it sends a pending close packet. -/
def Exchange.settled (exchange : Exchange) (rest : List OPipe.Ack) : Exchange :=
  { exchange with
    pipe := { exchange.pipe with currRetry := 0, frame := jdResetFrame exchange.pipe.frame }
    acks := rest
    building := [] }

/-- An acknowledgement with the checksum in flight comes after all old ones, so
the receiver has got everything. -/
theorem Exchange.Consistent.acknowledged {ack : OPipe.Ack} (consistent : Consistent site ledger exchange)
    (acks : exchange.acks = ack :: rest) (matched : ack.serviceCommand = ledger.crc.toNat)
    (previous : Previous ledger earlier) (distinct : List.IsChain (· ≠ ·) (ledger.crc :: earlier)) :
    ledger.old = [] ∧ ledger.new = ack :: rest ∧ ledger.stale = [] ∧
      passed exchange.calls = exchange.accepted := by
  have split := consistent.acks
  rw [acks] at split
  have none : ledger.old = [] := by
    cases old : ledger.old with
    | nil => rfl
    | cons head others =>
      rw [old, List.cons_append] at split
      obtain ⟨rfl, _⟩ := List.cons.inj split
      have stale := consistent.old ack (by simp [old])
      have same : ledger.lastCrc = ledger.crc := UInt16.toNat_inj.mp (stale.symm.trans matched)
      rcases previous with head | ⟨_, empty⟩
      · cases earlier with
        | nil => cases head
        | cons first others =>
          cases head
          exact absurd same.symm distinct.rel
      · rw [old] at empty
        cases empty
  rw [none, List.nil_append] at split
  rcases consistent.received with ⟨_, empty⟩ | ⟨all, empty⟩
  · rw [empty] at split
    cases split
  · exact ⟨none, split.symm, empty, all⟩

theorem Exchange.Invariant.settled {ack : OPipe.Ack} (invariant : Invariant site exchange)
    (distinct : List.IsChain (· ≠ ·) exchange.checksums) (acks : exchange.acks = ack :: rest)
    (matched : exchange.pipe.acknowledges ack = true) :
    Invariant site (exchange.settled rest) ∧ passed exchange.calls = exchange.accepted := by
  obtain ⟨ledger, consistent, sender⟩ := invariant
  simp only [OPipe.acknowledges, decide_eq_true_eq] at matched
  obtain ⟨busy, command, _⟩ := matched
  cases sender with
  | idle retry => exact absurd retry busy
  | gone retry => exact absurd retry busy
  | @flight earlier retry writing crc checksums previous =>
    rw [crc] at command
    rw [checksums] at distinct
    obtain ⟨old, new, stale, all⟩ := consistent.acknowledged acks command previous distinct
    refine ⟨⟨{ ledger with
        done := exchange.accepted
        last := exchange.building
        lastCrc := ledger.crc
        stale := ledger.fresh
        fresh := []
        old := rest
        new := [] }, ?_, ?_⟩, all⟩
    · exact
        { consistent with
          accepted := by simp [Exchange.settled]
          last := ⟨ledger.done, consistent.accepted.symm⟩
          lastShort := consistent.buildingShort
          buildingShort := by simp [Exchange.settled]
          wire := by simp [Exchange.settled, consistent.wire, stale]
          acks := by simp [Exchange.settled]
          stale := consistent.fresh
          fresh := by simp [Copies]
          old := fun other member => consistent.new other (by simp [new, member])
          new := by simp [Answers]
          received := .inl ⟨all, rfl⟩ }
    · refine .idle rfl ?_ rfl rfl all (.inl (by simp [Exchange.settled, checksums]))
      exact
        { accumulates := .reset _
          requesting := writing.requesting.congr fun cell lower _ => Frame.setSize_outside lower
          port := writing.port
          counter := writing.counter
          unclosed := fun status => ⟨by simp [Exchange.settled], (writing.unclosed status).2⟩ }

end Jacdac
