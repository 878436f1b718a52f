import Jacdac.Pipe.Cycle
import Jacdac.Pipe.Delivery
import Jacdac.Pipe.TableInvariant
import Jacdac.Tx.Transmit

/-! Runs of one descriptor with packets of any size, and the frames it flushes. -/

namespace Jacdac

open Exchange (streamPacket)

/-- The sender's frame holds these packets, one after the other in the five bits. -/
structure Packing (port start : Nat) (pipe : OPipe) (packets : List Packet) : Prop where
  accumulates : Accumulates pipe.frame packets
  numbered : NumberedFrom port start packets
  port : portOf pipe.counter = port
  counter : pipe.counter % 128 = (start + packets.length) % 32
  unclosed : pipe.status = .opened ∨ pipe.status = .closedUnsent →
    ∀ packet ∈ packets, closes packet.serviceCommand = false
  closesLast : ∀ packet ∈ packets.dropLast, closes packet.serviceCommand = false
  free : pipe.status = .free → packets = []

namespace Packing

variable {port start : Nat} {pipe next : OPipe} {packets : List Packet}

theorem zero : Packing 0 0 .zero [] where
  accumulates := ⟨Nat.zero_le _, rfl, by simp⟩
  numbered := trivial
  port := rfl
  counter := rfl
  unclosed := by simp
  closesLast := by simp
  free := fun _ => rfl

theorem flushed (packing : Packing port start pipe packets) (now : Nat) : Packing port start (pipe.flushed now) packets :=
  { packing with
    accumulates := packing.accumulates.congr rfl fun cell data => jdComputeCrc_outside _ (Nat.le_trans (by decide) data) }

theorem deferred (packing : Packing port start pipe packets) (status : pipe.status = .opened ∨ pipe.status = .closedUnsent) :
    Packing port start { pipe with status := .closedUnsent } packets :=
  { packing with
    unclosed := fun _ => packing.unclosed status
    free := by simp }

theorem processed (packing : Packing port start pipe packets) (outcome : OPipe.ProcessOutcome pipe next copy) :
    Packing port start next packets where
  accumulates := by
    refine packing.accumulates.congr ?_ fun cell data => outcome.frame cell ?_
    · rw [Frame.size, Frame.size, outcome.frame 2 (by decide)]
    · have offset : Frame.dataOffset = 12 := rfl
      omega
  numbered := packing.numbered
  port := outcome.counter ▸ packing.port
  counter := outcome.counter ▸ packing.counter
  unclosed := by
    rcases outcome.status with same | ⟨dropped, _⟩
    · rw [same]
      exact packing.unclosed
    · simp [dropped]
  closesLast := packing.closesLast
  free := by
    rcases outcome.status with same | ⟨dropped, _⟩
    · rw [same]
      exact packing.free
    · simp [dropped]

theorem emptied (packing : Packing port start pipe packets) :
    Packing port (start + packets.length) { pipe with currRetry := 0, frame := jdResetFrame pipe.frame } [] where
  accumulates := ⟨Nat.zero_le _, rfl, by simp⟩
  numbered := trivial
  port := packing.port
  counter := packing.counter
  unclosed := by simp
  closesLast := by simp
  free := fun _ => rfl

theorem appended (packing : Packing port start pipe packets) (status : PipeStatus)
    (before : pipe.status = .opened ∨ pipe.status = .closedUnsent) (size : data.length ≤ 232) (small : flags < 128)
    (aligned : flags % 32 = 0)
    (pushed : appendPacket pipe.frame serviceIndexStream.toNat (pipe.counter ||| flags) data = .ok (some frame))
    (unclosed : status = .opened ∨ status = .closedUnsent → closes flags = false) (used : status ≠ .free) :
    Packing port start ({ pipe with status }.written frame) (packets ++ [streamPacket pipe.counter flags data]) where
  accumulates := packing.accumulates.appended_of_ok size pushed
  numbered := NumberedFrom.append_iff.mpr ⟨packing.numbered,
    streamPacket_numbered packing.port packing.counter small aligned, trivial⟩
  port := (portOf_nextCounter _).trans packing.port
  counter := by
    have position := packing.counter
    simp only [OPipe.written, nextCounter, List.length_append, List.length_singleton]
    omega
  unclosed := by
    intro going packet member
    rcases List.mem_append.mp member with old | new
    · exact packing.unclosed before packet old
    · rw [List.mem_singleton.mp new, streamPacket_closes packing.counter]
      exact unclosed going
  closesLast := by
    rw [List.dropLast_concat]
    exact packing.unclosed before
  free := fun unused => absurd unused used

end Packing

namespace OPipe

/-- The payload and the 240 bytes of a frame can be counted in an `unsigned`. -/
def Call.Countable : Call → Prop
  | .write data => data.length + 240 < 4294967296
  | .writeMeta data => data.length + 240 < 4294967296
  | _ => True

/-- A packet with this much payload goes into the frame now. -/
def Takes (pipe : OPipe) (len : Nat) : Prop :=
  pipe.currRetry = 0 ∧ pipe.frame.size + 4 + len ≤ serialPayloadSize

/-- The call does not put a packet into a frame that holds 31. -/
def Spare (pipe : OPipe) : Call → Prop
  | .write data => pipe.status = .opened → pipe.Takes data.length → (pipe.frame.walk 0).length < 31
  | .writeMeta data => pipe.status = .opened → pipe.Takes data.length → (pipe.frame.walk 0).length < 31
  | .close => pipe.status = .opened ∨ pipe.status = .closedUnsent → pipe.Takes 0 → (pipe.frame.walk 0).length < 31
  | _ => True

/-- The frame that a step took out of use, if it did. -/
def sealed (idle : Bool) (next : OPipe) : List Frame := if idle ∧ next.currRetry ≠ 0 then [next.frame] else []

variable {pipe next : OPipe} {data : List UInt8}

theorem jdOpipeCheckSpace_takes (opened : pipe.status = .opened) (takes : pipe.Takes len) :
    jdOpipeCheckSpace now pipe len = .ok (.ok, pipe) := by
  have limit : serialPayloadSize = 236 := rfl
  have fits := takes.2
  have whole : u32 (pipe.frame.size + 4 + len) ≤ serialPayloadSize := by
    rw [u32_of_lt (by omega)]
    exact fits
  rw [jdOpipeCheckSpace, if_neg (by simp [opened]), if_neg (by simp [opened]), if_neg (by simp [takes.1]), if_pos whole]

theorem jdOpipeWriteEx_takes (opened : pipe.status = .opened) (takes : pipe.Takes data.length)
    (wrote : jdOpipeWriteEx now pipe data flags = .ok (result, next)) : result = .ok := by
  rw [jdOpipeWriteEx, jdOpipeCheckSpace_takes opened takes] at wrote
  dsimp only at wrote
  split at wrote
  · cases wrote
  · cases wrote
  · cases wrote
    rfl

theorem jdOpipeSendClosePkt_takes (takes : pipe.Takes 0) (sent : jdOpipeSendClosePkt now pipe = .ok (result, next)) :
    next.status = .closedWaiting := by
  rw [jdOpipeSendClosePkt] at sent
  split at sent
  · cases sent
  · split at sent
    · cases sent
    · rename_i flushed
      cases sent
      unfold doFlush at flushed
      split at flushed
      · cases flushed
        rfl
      · cases flushed
  · rename_i other wrote
    exact absurd (jdOpipeWriteEx_takes rfl takes wrote) other

theorem jdOpipeFlush_used (opened : pipe.status = .opened) (idle : pipe.currRetry = 0) (used : pipe.frame.size ≠ 0) :
    pipe.call now .flush = .ok (.tryAgain, pipe.flushed now) := by
  have limit : serialPayloadSize = 236 := rfl
  have size := pipe.frame.size_lt
  have full : ¬ u32 (pipe.frame.size + 4 + 0x100000) ≤ serialPayloadSize := by
    rw [u32_of_lt (by omega)]
    omega
  rw [call, jdOpipeFlush, if_neg (by simp [used]), jdOpipeCheckSpace, if_neg (by simp [opened]), if_neg (by simp [opened]),
    if_neg (by simp [idle]), if_neg full, doFlush_eq idle]

end OPipe

/-- What a call leaves in the frame, and whether it had to be spared. -/
inductive Packed (port start : Nat) (packets : List Packet) (spare : Prop) (next : OPipe) : Prop where
  | same (packing : Packing port start next packets) (spared : spare)
  | added (packet : Packet) (packing : Packing port start next (packets ++ [packet])) (full : spare ↔ packets.length < 31)
  | gone (packing : Packing 0 0 next []) (spared : spare)

theorem Packed.imp_spare (packed : Packed port start packets first next) (same : first ↔ second) :
    Packed port start packets second next := by
  rwa [← propext same]

namespace Packing

variable {port start : Nat} {pipe next : OPipe} {packets : List Packet} {data : List UInt8}

theorem size_le (packing : Packing port start pipe packets) : pipe.frame.size ≤ 236 := packing.accumulates.bound

theorem writeEx (packing : Packing port start pipe packets) (countable : data.length + 240 < 4294967296)
    (small : flags < 128) (aligned : flags % 32 = 0) (plain : closes flags = false)
    (wrote : OPipe.jdOpipeWriteEx now pipe data flags = .ok (result, next)) :
    Packed port start packets
      (pipe.status = .opened → pipe.Takes data.length → (pipe.frame.walk 0).length < 31) next := by
  have bound := packing.size_le
  have held := packing.accumulates.walk
  rcases OPipe.jdOpipeWriteEx_cases wrote with
    ⟨_, opened, idle, fits, frame, pushed, rfl⟩ | ⟨_, rfl, busy⟩ | ⟨later, rfl, opened, idle⟩
  · rw [u32_of_lt (by omega)] at fits
    have limit : serialPayloadSize = 236 := rfl
    have next := packing.appended pipe.status (.inl opened) (by omega) small aligned pushed (fun _ => plain) (by simp [opened])
    refine .added _ next ⟨fun spare => ?_, fun short _ _ => ?_⟩
    · rw [← held]
      exact spare opened ⟨idle, fits⟩
    · rwa [held]
  · exact .same packing fun opened takes => absurd takes.1 (busy opened)
  · refine .same (packing.flushed _) fun _ takes => ?_
    rw [OPipe.jdOpipeWriteEx_takes opened takes wrote] at later
    cases later

theorem sendClosePkt (packing : Packing port start pipe packets) (status : pipe.status = .opened ∨ pipe.status = .closedUnsent)
    (sent : OPipe.jdOpipeSendClosePkt now pipe = .ok (result, next)) :
    Packed port start packets (pipe.Takes 0 → (pipe.frame.walk 0).length < 31) next := by
  have bound := packing.size_le
  have held := packing.accumulates.walk
  rcases OPipe.jdOpipeSendClosePkt_cases sent with ⟨idle, fits, frame, pushed, rfl⟩ | ⟨busy, rfl⟩ | ⟨idle, rfl⟩
  · rw [u32_of_lt (by omega)] at fits
    have next := packing.appended .closedWaiting status (Nat.zero_le _) (by decide) (by decide) pushed (by simp) (by simp)
    refine .added _ (next.flushed _) ⟨fun spare => ?_, fun short _ => ?_⟩
    · rw [← held]
      exact spare ⟨idle, fits⟩
    · rwa [held]
  · exact .same (packing.deferred status) fun takes => absurd takes.1 busy
  · refine .same ((packing.deferred status).flushed _) fun takes => ?_
    have waiting := OPipe.jdOpipeSendClosePkt_takes takes sent
    cases waiting

theorem checkSpace (packing : Packing port start pipe packets)
    (checked : OPipe.jdOpipeCheckSpace now pipe len = .ok (result, next)) : Packing port start next packets := by
  rcases OPipe.jdOpipeCheckSpace_cases checked with ⟨_, rfl, _⟩ | ⟨_, rfl, _⟩ | ⟨_, rfl, _⟩
  · exact packing
  · exact packing
  · exact packing.flushed _

theorem call (packing : Packing port start pipe packets) (countable : operation.Countable)
    (called : OPipe.call now pipe operation = .ok (result, next)) :
    Packed port start packets (pipe.Spare operation) next := by
  cases operation with
  | write data => exact packing.writeEx countable (by decide) (by decide) (by decide) called
  | writeMeta data => exact packing.writeEx countable (by decide) (by decide) (by decide) called
  | checkSpace len => exact .same (packing.checkSpace called) trivial
  | flush =>
    simp only [OPipe.call, OPipe.jdOpipeFlush] at called
    split at called
    · cases called
      exact .same packing trivial
    · exact .same (packing.checkSpace called) trivial
  | close =>
    simp only [OPipe.call, OPipe.jdOpipeClose] at called
    split at called
    · rename_i dropped
      cases called
      rw [OPipe.unlink, if_neg (by simp [dropped])]
      exact .gone .zero (by simp [OPipe.Spare, dropped])
    · rename_i free
      cases called
      exact .same packing (by simp [OPipe.Spare, free])
    · rename_i waiting
      cases called
      exact .same packing (by simp [OPipe.Spare, waiting])
    · rename_i opened
      exact (packing.sendClosePkt (.inl opened) called).imp_spare (by simp [OPipe.Spare, opened])
    · rename_i unsent
      exact (packing.sendClosePkt (.inr unsent) called).imp_spare (by simp [OPipe.Spare, unsent])

end Packing

/-- Runs of one descriptor, with the condition that no call overfilled a frame and the flushed frames, latest first. -/
inductive CycleRun (config : TxConfig) : OPipe → Prop → List Frame → Prop where
  | start : CycleRun config .zero True []
  | opened (run : CycleRun config pipe met frames) (deviceId : List UInt8) (portNum : Nat) :
      CycleRun config (pipe.jdOpipeOpen deviceId portNum).2 met frames
  | call (run : CycleRun config pipe met frames) (now : Nat) (operation : OPipe.Call) (countable : operation.Countable)
      (called : pipe.call now operation = .ok (result, next)) :
      CycleRun config next (met ∧ pipe.Spare operation) (OPipe.sealed (pipe.currRetry = 0) next ++ frames)
  | packet (run : CycleRun config pipe met frames) (now : Nat) (ack : OPipe.Ack)
      (handled : pipe.jdOpipeHandlePacket now ack = .ok next) :
      CycleRun config next met (OPipe.sealed (ack.isCrcAck && pipe.acknowledges ack) next ++ frames)
  | process (run : CycleRun config pipe met frames) (now : Nat) (link : Link)
      (processed : pipe.jdOpipeProcess config now link = .ok (next, after, copy)) :
      CycleRun config next met frames

section Sound

variable {port start : Nat} {pipe next other : OPipe} {packets : List Packet} {frames : List Frame} {met spared : Prop}

/-- Packets that lie in a frame, in the order of their counters. -/
structure Lines (frame : Frame) (packets : List Packet) : Prop where
  accumulates : Accumulates frame packets
  numbered : ∃ port start, NumberedFrom port start packets
  closesLast : ∀ packet ∈ packets.dropLast, closes packet.serviceCommand = false

theorem Packing.lines (packing : Packing port start pipe packets) : Lines pipe.frame packets :=
  ⟨packing.accumulates, ⟨port, start, packing.numbered⟩, packing.closesLast⟩

/-- What holds of the descriptor and of every frame it flushed. -/
structure CycleSound (pipe : OPipe) (met : Prop) (frames : List Frame) : Prop where
  current : ∃ port start packets, Packing port start pipe packets ∧ (met → packets.length ≤ 31)
  past : ∀ frame ∈ frames, ∃ packets, Lines frame packets ∧ (met → packets.length ≤ 31)

theorem CycleSound.step (sound : CycleSound pipe met frames) (packing : Packing port start other packets)
    (weaker : spared → met) (short : spared → packets.length ≤ 31) (idle : Bool) :
    CycleSound other spared (OPipe.sealed idle other ++ frames) where
  current := ⟨port, start, packets, packing, short⟩
  past := by
    intro frame member
    rcases List.mem_append.mp member with new | old
    · unfold OPipe.sealed at new
      split at new
      · rw [List.mem_singleton.mp new]
        exact ⟨packets, packing.lines, short⟩
      · cases new
    · obtain ⟨packets, lines, few⟩ := sound.past frame old
      exact ⟨packets, lines, fun spared => few (weaker spared)⟩

theorem CycleSound.call (sound : CycleSound pipe met frames) (countable : operation.Countable)
    (called : pipe.call now operation = .ok (result, next)) :
    CycleSound next (met ∧ pipe.Spare operation) (OPipe.sealed (pipe.currRetry = 0) next ++ frames) := by
  obtain ⟨port, start, packets, packing, short⟩ := sound.current
  cases packing.call countable called with
  | same packing _ => exact sound.step packing And.left (fun spared => short spared.1) _
  | added packet packing full =>
    refine sound.step packing And.left (fun spared => ?_) _
    rw [List.length_append, List.length_singleton]
    exact full.mp spared.2
  | gone packing _ => exact sound.step packing And.left (fun _ => Nat.zero_le _) _

/-- After an acknowledgement the frame holds a close packet at most. -/
theorem Packing.acknowledged {ack : OPipe.Ack} (packing : Packing port start pipe packets)
    (handled : pipe.jdOpipeHandlePacket now ack = .ok next)
    (matched : (ack.isCrcAck && pipe.acknowledges ack) = true) :
    ∃ port start more, Packing port start next more ∧ more.length ≤ 31 := by
  rcases OPipe.jdOpipeHandlePacket_cases handled with
    ⟨ignored, _⟩ | ⟨_, ⟨_, rfl⟩ | ⟨unsent, _, sent⟩ | ⟨_, _, rfl⟩⟩
  · exact absurd (ignored.symm.trans matched) Bool.false_ne_true
  · exact ⟨0, 0, [], .zero, Nat.zero_le _⟩
  · cases packing.emptied.sendClosePkt (.inr unsent) sent with
    | same packing _ => exact ⟨_, _, [], packing, Nat.zero_le _⟩
    | added packet packing _ => exact ⟨_, _, [packet], packing, by simp⟩
    | gone packing _ => exact ⟨_, _, [], packing, Nat.zero_le _⟩
  · exact ⟨_, _, [], packing.emptied, Nat.zero_le _⟩

theorem CycleSound.packet {ack : OPipe.Ack} (sound : CycleSound pipe met frames)
    (handled : pipe.jdOpipeHandlePacket now ack = .ok next) :
    CycleSound next met (OPipe.sealed (ack.isCrcAck && pipe.acknowledges ack) next ++ frames) := by
  obtain ⟨port, start, packets, packing, short⟩ := sound.current
  by_cases matched : (ack.isCrcAck && pipe.acknowledges ack) = true
  · obtain ⟨port, start, more, packing, few⟩ := packing.acknowledged handled matched
    exact sound.step packing id (fun _ => few) _
  · rw [OPipe.jdOpipeHandlePacket_ignored handled (Bool.eq_false_iff.mpr matched)]
    exact sound.step packing id short _

/-- A descriptor just opened has an empty frame. -/
theorem Packing.opened (packing : Packing port start pipe packets) (deviceId : List UInt8) (portNum : Nat) :
    (pipe.jdOpipeOpen deviceId portNum).2 = pipe ∨
      ∃ port start, Packing port start (pipe.jdOpipeOpen deviceId portNum).2 [] := by
  have cleared : pipe.unlink.frame.size = 0 := by
    by_cases free : pipe.status = .free
    · have laid := packing.accumulates.laid
      rw [packing.free free] at laid
      rw [OPipe.unlink, if_pos free]
      exact Eq.symm laid
    · rw [OPipe.unlink, if_neg free]
      rfl
  unfold OPipe.jdOpipeOpen
  split
  · exact .inl rfl
  · have size : ((pipe.unlink.frame.setDeviceIdentifier deviceId).setFlags
        (Frame.flagCommand ||| Frame.flagAckRequested)).size = 0 := by
      rw [Frame.setFlags_size, Frame.size, Frame.setDeviceIdentifier, Memory.write_outside (.inl (by decide))]
      exact cleared
    refine .inr ⟨portOf (u16 (portNum * 128)), 0, ?_⟩
    exact
      { accumulates := ⟨Nat.le_trans (Nat.le_of_eq size) (Nat.zero_le _), size.symm, by simp⟩
        numbered := trivial
        port := rfl
        counter := by simp only [u16, List.length_nil]; omega
        unclosed := by simp
        closesLast := by simp
        free := fun _ => rfl }

theorem CycleRun.sound (run : CycleRun config pipe met frames) : CycleSound pipe met frames := by
  induction run with
  | start => exact ⟨⟨0, 0, [], .zero, fun _ => Nat.zero_le _⟩, by simp⟩
  | opened run deviceId portNum ih =>
    obtain ⟨port, start, packets, packing, short⟩ := ih.current
    rcases packing.opened deviceId portNum with refused | ⟨port, start, fresh⟩
    · rwa [refused]
    · exact ⟨⟨port, start, [], fresh, fun _ => Nat.zero_le _⟩, ih.past⟩
  | call run now operation countable called ih => exact ih.call countable called
  | packet run now ack handled ih => exact ih.packet handled
  | process run now link processed ih =>
    obtain ⟨port, start, packets, packing, short⟩ := ih.current
    exact ⟨⟨port, start, packets, packing.processed (OPipe.jdOpipeProcess_outcome processed), short⟩, ih.past⟩

theorem Lines.taken_once (lines : Lines frame packets) (short : packets.length ≤ 31) :
    (frame.walk 0).length ≤ 31 ∧ TakenOnce (frame.walk 0) := by
  obtain ⟨port, start, numbered⟩ := lines.numbered
  rw [lines.accumulates.walk]
  exact ⟨short, .of_short numbered lines.closesLast short⟩

/-- Two words for a packet with a payload leave no room for a cycle with four empty ones. -/
theorem Lines.few_empties (lines : Lines frame packets) (few : (packets.filter (·.payload = [])).length ≤ 4) :
    packets.length ≤ 31 := by
  have words := lines.accumulates.laid.words
  have bound : frame.size ≤ 236 := lines.accumulates.bound
  have parts := List.length_eq_length_filter_add (l := packets) fun packet => decide (packet.payload = [])
  simp only [ne_eq, decide_not] at words
  omega

/-- In a run in which no call puts a packet into a frame of 31, every flushed frame holds at most 31 packets and a pipe that
took the frame takes nothing of a copy of it. Any other call leaves a frame of 32 packets or more, which needs more than four
empty ones. -/
theorem flushed_frames_short (config : TxConfig) (run : CycleRun config pipe met frames) :
    (met → ∀ frame ∈ frames, (frame.walk 0).length ≤ 31 ∧ TakenOnce (frame.walk 0)) ∧
      (∀ now operation result next, operation.Countable → pipe.call now operation = .ok (result, next) →
        ¬ pipe.Spare operation → 31 < (next.frame.walk 0).length) ∧
      ∀ frame ∈ frames, ((frame.walk 0).filter (·.payload = [])).length ≤ 4 →
        (frame.walk 0).length ≤ 31 ∧ TakenOnce (frame.walk 0) := by
  refine ⟨?_, ?_, ?_⟩
  · intro spared frame member
    obtain ⟨packets, lines, short⟩ := run.sound.past frame member
    exact lines.taken_once (short spared)
  · intro now operation result next countable called spent
    obtain ⟨port, start, packets, packing, _⟩ := run.sound.current
    cases packing.call countable called with
    | same _ spared => exact absurd spared spent
    | added packet packing full =>
      rw [packing.accumulates.walk, List.length_append, List.length_singleton]
      exact Nat.succ_le_succ (Nat.le_of_not_lt fun short => spent (full.mpr short))
    | gone _ spared => exact absurd spared spent
  · intro frame member few
    obtain ⟨packets, lines, _⟩ := run.sound.past frame member
    rw [lines.accumulates.walk] at few
    exact lines.taken_once (lines.few_empties few)

end Sound

private def site : TxConfig := ⟨[1, 0, 0, 0, 0, 0, 0, 0], TxConfig.first_length, fun _ => true, fun _ => true⟩

private def target : List UInt8 := [2, 0, 0, 0, 0, 0, 0, 0]

private def fresh : OPipe := (OPipe.zero.jdOpipeOpen target 1).2

private theorem fresh_run : CycleRun site fresh True [] := CycleRun.start.opened target 1

private theorem fresh_spare (data : List UInt8) : fresh.Spare (.write data) := by
  intro _ _
  have empty : fresh.frame.walk 0 = [] := Frame.walk_stop (.inl (Nat.le_of_eq rfl))
  rw [empty]
  exact Nat.zero_lt_succ _

/-- One write and a flush. -/
theorem flushed_frames_short_one : ∃ frame : Frame, frame.size = 8 ∧ (frame.walk 0).length ≤ 31 ∧ TakenOnce (frame.walk 0) := by
  have countable : (OPipe.Call.write [7]).Countable := by simp [OPipe.Call.Countable]
  have wrote := fresh_run.call 0 (.write [7]) countable (by rfl)
  have flushed := wrote.call 0 .flush trivial (OPipe.jdOpipeFlush_used rfl rfl (by decide))
  exact ⟨_, rfl, (flushed_frames_short site flushed).1 ⟨⟨trivial, fresh_spare [7]⟩, trivial⟩ _ (List.mem_singleton.mpr rfl)⟩

/-- Empty packets take one word each. -/
theorem Laid.empties (laid : Laid frame offset packets stop) (empty : ∀ packet ∈ packets, packet.payload = []) :
    stop = offset + 4 * packets.length := by
  induction packets generalizing offset with
  | nil => exact Eq.symm laid
  | cons packet rest ih =>
    have later := ih laid.2 fun other member => empty other (by simp [member])
    have span : packet.span = 4 := by
      rw [Packet.span, Packet.serviceSize, empty packet (by simp)]
      rfl
    rw [later, span, List.length_cons]
    omega

/-- As many empty packets as there are words in a frame. -/
private theorem empties_fit (count : Nat) (fits : count ≤ 59) :
    ∃ pipe met packets, CycleRun site pipe met [] ∧ pipe.status = .opened ∧ pipe.currRetry = 0 ∧
      Packing 1 0 pipe packets ∧ packets.length = count ∧ ∀ packet ∈ packets, packet.payload = [] := by
  induction count with
  | zero =>
    refine ⟨fresh, True, [], fresh_run, rfl, rfl, ?_, rfl, by simp⟩
    exact ⟨⟨Nat.zero_le _, rfl, by simp⟩, trivial, rfl, rfl, by simp, by simp, fun _ => rfl⟩
  | succ count ih =>
    obtain ⟨pipe, met, packets, run, opened, idle, packing, length, empty⟩ := ih (Nat.le_of_succ_le fits)
    have size := packing.accumulates.laid.empties empty
    have limit : serialPayloadSize = 236 := rfl
    have takes : pipe.Takes ([] : List UInt8).length := ⟨idle, by rw [List.length_nil]; omega⟩
    have command : pipe.counter ||| 0 < 65536 := by
      have port := packing.port
      unfold portOf at port
      rw [Nat.or_zero]
      omega
    obtain ⟨frame, pushed, _⟩ := @appendPacket_fits serviceIndexStream.toNat (pipe.counter ||| 0) pipe.frame [] (by decide)
      command takes.2
    have wrote : pipe.call 0 (.write []) = .ok (.ok, pipe.written frame) := by
      rw [OPipe.call, OPipe.jdOpipeWrite, OPipe.jdOpipeWriteEx, OPipe.jdOpipeCheckSpace_takes opened takes]
      dsimp only
      rw [pushed]
      rfl
    have run := run.call 0 (.write []) (by simp [OPipe.Call.Countable]) wrote
    have quiet : OPipe.sealed (pipe.currRetry = 0) (pipe.written frame) = [] := if_neg fun busy => busy.2 idle
    rw [quiet, List.nil_append] at run
    have next := packing.appended pipe.status (.inl opened) (Nat.zero_le _) (by decide) rfl pushed (fun _ => rfl) (by simp [opened])
    refine ⟨_, _, _, run, opened, idle, next, ?_, ?_⟩
    · rw [List.length_append, List.length_singleton, length]
    · intro packet member
      rcases List.mem_append.mp member with old | new
      · exact empty packet old
      · rw [List.mem_singleton.mp new]
        rfl

/-- A frame of 32 empty packets is taken twice by the same pipe. -/
theorem flushed_frame_cycles :
    ∃ config pipe met frame, CycleRun config pipe met [frame] ∧ 31 < (frame.walk 0).length ∧ ¬ TakenOnce (frame.walk 0) := by
  obtain ⟨pipe, met, packets, run, opened, idle, packing, length, empty⟩ := empties_fit 32 (by decide)
  have size := packing.accumulates.laid.empties empty
  have flushed := run.call 0 .flush trivial (OPipe.jdOpipeFlush_used opened idle (by omega))
  have frames : OPipe.sealed (pipe.currRetry = 0) (pipe.flushed 0) = [(pipe.flushed 0).frame] :=
    if_pos ⟨decide_eq_true idle, Nat.one_ne_zero⟩
  rw [frames, List.append_nil] at flushed
  refine ⟨site, _, _, _, flushed, ?_⟩
  rw [(packing.flushed 0).accumulates.walk]
  refine ⟨by omega, fun taken => ?_⟩
  have addressed : Addressed target fresh.frame := ⟨by decide, rfl⟩
  have unclosed := packing.unclosed (.inl opened)
  cases packets with
  | nil => cases length
  | cons first rest =>
    have numbered := packing.numbered
    have port := numbered.1.port
    have place := numbered.1.counter
    obtain ⟨after, calls, handled, _, ignored⟩ := taken first rfl target fresh.frame fresh.frame 0 first.serviceCommand []
      addressed addressed rfl rfl (by simp)
    obtain ⟨other, _, last, more, again, _, repeated, passedAgain⟩ := @taken_again 0 1 0 first.serviceCommand [] (first :: rest)
      target fresh.frame fresh.frame numbered unclosed (by omega) (by omega) addressed addressed port place (by simp)
    rw [handled] at again
    cases again
    rw [ignored] at repeated
    cases repeated
    rw [length] at passedAgain
    cases passedAgain

end Jacdac
