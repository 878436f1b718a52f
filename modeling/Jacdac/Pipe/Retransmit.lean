import Jacdac.Base.Result
import Jacdac.Pipe.Output

/-! The copies of a pipe's frame that `jd_opipe_process` puts into the send
queue, from `do_flush` to the acknowledgement. The checksum is computed once;
the loopback inside `jd_send_frame` sets a flag the checksum covers. -/

namespace Jacdac

namespace OPipe

/-- What an application call may do to the frame and the retry counter: leave
both, fill an idle frame, or flush an idle frame with a fresh checksum. -/
inductive FrameEffect (pipe next : OPipe) : Prop where
  | kept (frame : next.frame = pipe.frame) (retry : next.currRetry = pipe.currRetry)
  | filled (before : pipe.currRetry = 0) (after : next.currRetry = 0)
  | flushed (before : pipe.currRetry = 0) (after : next.currRetry = 1)
      (checksum : ∃ frame, next.frame = jdComputeCrc frame)

theorem jdOpipeWriteEx_effect (wrote : jdOpipeWriteEx now pipe data flags = .ok (result, next)) :
    FrameEffect pipe next := by
  rcases jdOpipeWriteEx_cases wrote with
    ⟨_, _, idle, _, frame, _, rfl⟩ | ⟨_, rfl, _⟩ | ⟨_, rfl, _, idle⟩
  · exact .filled idle idle
  · exact .kept rfl rfl
  · exact .flushed idle rfl ⟨_, rfl⟩

theorem jdOpipeCheckSpace_effect (checked : jdOpipeCheckSpace now pipe len = .ok (result, next)) :
    FrameEffect pipe next := by
  rcases jdOpipeCheckSpace_cases checked with ⟨_, rfl, _⟩ | ⟨_, rfl, _⟩ | ⟨_, rfl, _, idle⟩
  · exact .kept rfl rfl
  · exact .kept rfl rfl
  · exact .flushed idle rfl ⟨_, rfl⟩

theorem jdOpipeSendClosePkt_effect (sent : jdOpipeSendClosePkt now pipe = .ok (result, next)) :
    FrameEffect pipe next := by
  rcases jdOpipeSendClosePkt_cases sent with ⟨idle, _, frame, _, rfl⟩ | ⟨_, rfl⟩ | ⟨idle, rfl⟩
  · exact .flushed idle rfl ⟨_, rfl⟩
  · exact .kept rfl rfl
  · exact .flushed idle rfl ⟨_, rfl⟩

/-- Closing may also unlink the descriptor, which leaves nothing in flight. -/
theorem call_effect (called : call now pipe operation = .ok (result, next)) :
    FrameEffect pipe next ∨ next.currRetry = 0 := by
  cases operation with
  | write data => exact .inl (jdOpipeWriteEx_effect called)
  | writeMeta data => exact .inl (jdOpipeWriteEx_effect called)
  | checkSpace len => exact .inl (jdOpipeCheckSpace_effect called)
  | flush =>
    simp only [call, jdOpipeFlush] at called
    split at called
    · cases called
      exact .inl (.kept rfl rfl)
    · exact .inl (jdOpipeCheckSpace_effect called)
  | close =>
    simp only [call, jdOpipeClose] at called
    split at called
    · rename_i dropped
      cases called
      exact .inr (by simp [unlink, dropped, zero])
    · cases called
      exact .inl (.kept rfl rfl)
    · cases called
      exact .inl (.kept rfl rfl)
    · exact .inl (jdOpipeSendClosePkt_effect called)
    · exact .inl (jdOpipeSendClosePkt_effect called)

/-- Handling a packet either changes nothing or acknowledges the frame; after
that nothing is in flight except a freshly flushed close packet. -/
theorem jdOpipeHandlePacket_effect {ack : Ack} (handled : jdOpipeHandlePacket now pipe ack = .ok next) :
    (next = pipe ∧ (ack.isCrcAck && pipe.acknowledges ack) = false) ∨
    ((ack.isCrcAck && pipe.acknowledges ack) = true ∧ (next.currRetry = 0 ∨
      (next.currRetry = 1 ∧ ∃ frame, next.frame = jdComputeCrc frame))) := by
  rcases jdOpipeHandlePacket_cases handled with ⟨ignored, same⟩ | ⟨matched, ⟨_, rfl⟩ | ⟨_, _, sent⟩ | ⟨_, _, rfl⟩⟩
  · exact .inl ⟨same, ignored⟩
  · exact .inr ⟨matched, .inl rfl⟩
  · refine .inr ⟨matched, ?_⟩
    cases jdOpipeSendClosePkt_effect sent with
    | kept _ retry => exact .inl retry
    | filled _ after => exact .inl after
    | flushed _ after checksum => exact .inr ⟨after, checksum⟩
  · exact .inr ⟨matched, .inl rfl⟩

end OPipe

/-- The frame after `jd_send_frame` looped it back. -/
def Frame.looped (frame : Frame) : Frame := frame.setFlags (frame.flags ||| Frame.flagLoopback)

theorem jdSendFrameRaw_frame (needs : ∀ frame, config.jdServicesNeedsFrame frame = true)
    (sent : jdSendFrameRaw config link frame = .ok (ret, after, next)) :
    after = frame.looped := by
  refine (jdSendFrameRaw_cases sent).resolve_left fun unwanted => ?_
  rw [needs] at unwanted
  cases unwanted.1

/-- One processing tick hands the frame to `jd_send_frame` or leaves it alone;
only the first pushes a copy. -/
theorem OPipe.jdOpipeProcess_cases (needs : ∀ frame, config.jdServicesNeedsFrame frame = true)
    {pipe : OPipe}
    (processed : pipe.jdOpipeProcess config now link = .ok (next, after, copy)) :
    (pipe.sendsNow now = true ∧ pipe.currRetry ≠ 0 ∧ next.frame = pipe.frame.looped ∧
      (copy = some pipe.frame ∨ copy = none)) ∨
    (pipe.sendsNow now = false ∧ next.frame = pipe.frame ∧ copy = none ∧
      (next.currRetry ≠ 0 → pipe.currRetry ≠ 0)) := by
  simp only [jdOpipeProcess] at processed
  split at processed
  · rename_i due
    split at processed
    · rename_i early
      left
      refine ⟨by simp [sendsNow, due, early], due.1, ?_⟩
      split at processed
      · cases processed
      · rename_i sent
        have looped := jdSendFrameRaw_frame needs sent
        split at processed
        · cases processed
          refine ⟨looped, ?_⟩
          split
          · exact .inl rfl
          · exact .inr rfl
        · cases processed
          exact ⟨looped, .inr rfl⟩
    · rename_i late
      right
      have quiet : pipe.sendsNow now = false := by simp [sendsNow, late]
      split at processed
      · cases processed
        exact ⟨quiet, rfl, rfl, fun _ => due.1⟩
      · cases processed
        exact ⟨quiet, rfl, rfl, id⟩
  · rename_i idle
    cases processed
    refine .inr ⟨?_, rfl, rfl, id⟩
    simp only [sendsNow, decide_eq_false_iff_not]
    exact fun sends => idle ⟨sends.1, sends.2.1⟩

/-- One flushed frame: its bytes with the checksum just computed, how often it
was handed to `jd_send_frame`, and the accepted copies with the number of the
attempt that pushed each. -/
structure Epoch where
  flushed : Frame
  attempts : Nat
  copies : List (Nat × Frame)

/-- A call that took the pipe from idle to in flight opened an epoch. -/
def openedEpoch (pipe next : OPipe) : List Epoch :=
  if pipe.currRetry = 0 ∧ next.currRetry ≠ 0 then [⟨next.frame, 0, []⟩] else []

/-- An acknowledgement that ended in a flushed close packet opened an epoch. -/
def closingEpoch (pipe next : OPipe) (ack : OPipe.Ack) : List Epoch :=
  if (ack.isCrcAck && pipe.acknowledges ack) ∧ next.currRetry ≠ 0 then [⟨next.frame, 0, []⟩] else []

/-- Account for one attempt in the current epoch. -/
def attempted (copy : Option Frame) : List Epoch → List Epoch
  | [] => []
  | current :: past =>
    { current with
      attempts := current.attempts + 1
      copies := current.copies ++ (copy.map fun frame => (current.attempts + 1, frame)).toList }
      :: past

/-- Runs of one descriptor, latest epoch first. Other traffic and the
transmitter change the queues at any time. -/
inductive RetryRun (config : TxConfig) : OPipe → Link → List Epoch → Prop where
  | start (link : Link) : RetryRun config .zero link []
  | opened (run : RetryRun config pipe link epochs) (deviceId : List UInt8) (portNum : Nat) :
      RetryRun config (pipe.jdOpipeOpen deviceId portNum).2 link epochs
  | drain (run : RetryRun config pipe link epochs) (other : Link) :
      RetryRun config pipe other epochs
  | call (run : RetryRun config pipe link epochs) (now : Nat) (operation : OPipe.Call)
      (called : pipe.call now operation = .ok (result, next)) :
      RetryRun config next link (openedEpoch pipe next ++ epochs)
  | packet (run : RetryRun config pipe link epochs) (now : Nat) (ack : OPipe.Ack)
      (handled : pipe.jdOpipeHandlePacket now ack = .ok next) :
      RetryRun config next link (closingEpoch pipe next ack ++ epochs)
  | process (run : RetryRun config pipe link epochs) (now : Nat)
      (processed : pipe.jdOpipeProcess config now link = .ok (next, after, copy)) :
      RetryRun config next after (if pipe.sendsNow now then attempted copy epochs else epochs)

/-- The frame as it stands after some attempts. -/
def Epoch.frameAfter (epoch : Epoch) (attempts : Nat) : Frame :=
  if attempts = 0 then epoch.flushed else epoch.flushed.looped

/-- The checksum was right at the flush, and every copy shows the frame as it
stood before the attempt that pushed it. -/
structure Epoch.Sound (epoch : Epoch) : Prop where
  checksum : jdFrameCrcOk epoch.flushed = true
  copies : ∀ copy ∈ epoch.copies, 1 ≤ copy.1 ∧ copy.2 = epoch.frameAfter (copy.1 - 1)

theorem Frame.setFlags_setFlags (frame : Frame) (first second : UInt8) :
    (frame.setFlags first).setFlags second = frame.setFlags second := by
  funext cell
  by_cases here : cell = 3
  · subst here
    rfl
  · have outside : cell < 3 ∨ 3 + 1 ≤ cell := by omega
    rw [setFlags, Memory.write_outside outside, setFlags, Memory.write_outside outside, setFlags,
      Memory.write_outside outside]

theorem Frame.looped_looped (frame : Frame) : frame.looped.looped = frame.looped := by
  have flags : frame.looped.flags = frame.flags ||| flagLoopback := rfl
  rw [looped, flags, looped, setFlags_setFlags, UInt8.or_assoc, UInt8.or_self]

theorem Epoch.Sound.fresh (checksum : ∃ source, frame = jdComputeCrc source) :
    Epoch.Sound ⟨frame, 0, []⟩ := by
  obtain ⟨source, rfl⟩ := checksum
  exact ⟨jdFrameCrcOk_compute source, by simp⟩

theorem Epoch.Sound.attempted {epoch : Epoch} (sound : epoch.Sound) {copy : Option Frame}
    (exact : ∀ frame, copy = some frame → frame = epoch.frameAfter epoch.attempts) :
    Epoch.Sound { epoch with
      attempts := epoch.attempts + 1
      copies := epoch.copies ++ (copy.map fun frame => (epoch.attempts + 1, frame)).toList } := by
  refine ⟨sound.checksum, ?_⟩
  intro entry member
  rcases List.mem_append.mp member with old | new
  · exact sound.copies entry old
  · cases copy with
    | none => simp at new
    | some frame =>
      have same : entry = (epoch.attempts + 1, frame) := by simpa using new
      subst same
      exact ⟨Nat.le_add_left .., exact frame rfl⟩

theorem openedEpoch_sound (earlier : ∀ epoch ∈ epochs, Epoch.Sound epoch)
    (flushed : pipe.currRetry = 0 → next.currRetry ≠ 0 → ∃ frame, next.frame = jdComputeCrc frame) :
    ∀ epoch ∈ openedEpoch pipe next ++ epochs, epoch.Sound := by
  intro epoch member
  rcases List.mem_append.mp member with new | old
  · unfold openedEpoch at new
    split at new
    · rename_i opens
      rw [List.mem_singleton.mp new]
      exact .fresh (flushed opens.1 opens.2)
    · cases new
  · exact earlier epoch old

theorem RetryRun.sound (needs : ∀ frame, config.jdServicesNeedsFrame frame = true)
    (run : RetryRun config pipe link epochs) :
    (pipe.currRetry ≠ 0 → ∃ current past, epochs = current :: past ∧
      pipe.frame = current.frameAfter current.attempts) ∧
    ∀ epoch ∈ epochs, epoch.Sound := by
  induction run with
  | start => exact ⟨fun busy => absurd rfl busy, by simp⟩
  | @opened pipe _ _ _ deviceId portNum ih =>
    simp only [OPipe.jdOpipeOpen]
    split
    · exact ih
    · exact ⟨fun busy => absurd rfl busy, ih.2⟩
  | drain _ _ ih => exact ih
  | @call pipe _ _ _ next _ now operation called ih =>
    rcases OPipe.call_effect called with effect | idle
    · cases effect with
      | kept frame retry =>
        have same : openedEpoch pipe next = [] := if_neg (by omega)
        rw [same, List.nil_append, frame, retry]
        exact ih
      | filled before after =>
        exact ⟨fun busy => absurd after busy,
          openedEpoch_sound ih.2 fun _ busy => absurd after busy⟩
      | flushed before after checksum =>
        refine ⟨fun _ => ?_, openedEpoch_sound ih.2 fun _ _ => checksum⟩
        rw [openedEpoch, if_pos (by omega)]
        exact ⟨_, _, rfl, rfl⟩
    · exact ⟨fun busy => absurd idle busy, openedEpoch_sound ih.2 fun _ busy => absurd idle busy⟩
  | @packet pipe _ _ next _ now ack handled ih =>
    rcases OPipe.jdOpipeHandlePacket_effect handled with
      ⟨rfl, ignored⟩ | ⟨matched, idle | ⟨one, checksum⟩⟩
    · rw [closingEpoch, if_neg (by simp [ignored])]
      exact ih
    · have none : closingEpoch pipe next ack = [] := if_neg (by simp [idle])
      rw [none]
      exact ⟨fun busy => absurd idle busy, ih.2⟩
    · have fresh : closingEpoch pipe next ack = [⟨next.frame, 0, []⟩] := if_pos (by simp [matched, one])
      rw [fresh]
      refine ⟨fun _ => ⟨_, _, rfl, rfl⟩, ?_⟩
      intro epoch member
      rcases List.mem_cons.mp member with rfl | old
      · exact .fresh checksum
      · exact ih.2 epoch old
  | @process pipe _ epochs next _ copy _ now processed ih =>
    rcases OPipe.jdOpipeProcess_cases needs processed with
      ⟨sends, busy, frame, pushed⟩ | ⟨quiet, frame, _, still⟩
    · obtain ⟨current, past, rfl, inFlight⟩ := ih.1 busy
      rw [if_pos sends]
      refine ⟨fun _ => ⟨_, _, rfl, ?_⟩, ?_⟩
      · rw [frame, inFlight]
        simp only [Epoch.frameAfter]
        split
        · rfl
        · exact Frame.looped_looped _
      · intro epoch member
        rcases List.mem_cons.mp member with rfl | old
        · refine (ih.2 current (by simp)).attempted ?_
          intro copied same
          rcases pushed with some | none
          · rw [← inFlight]
            exact Option.some.inj (same.symm.trans some)
          · rw [none] at same
            cases same
        · exact ih.2 epoch (by simp [old])
    · rw [quiet, frame]
      exact ⟨fun busy => ih.1 (still busy), ih.2⟩

/-- A frame that still passes the checksum after the loopback had the flag all along. -/
theorem Frame.looped_eq_of_crcOk {frame : Frame} (before : jdFrameCrcOk frame = true)
    (after : jdFrameCrcOk frame.looped = true) : frame.flags ||| flagLoopback = frame.flags := by
  have split (whole : Frame) :
      whole.covered = whole.read 2 1 ++ whole.flags :: whole.read 4 (whole.size + 8) := by
    have total : whole.frameSize - 2 = 1 + (1 + (whole.size + 8)) := by
      unfold frameSize; omega
    rw [covered, total, Memory.read_append, Memory.read_append]
    rfl
  have tail : frame.looped.read 4 (frame.size + 8) = frame.read 4 (frame.size + 8) :=
    Memory.read_write_disjoint (.inr (by simp))
  have size : frame.looped.size = frame.size := rfl
  have head : frame.looped.read 2 1 = frame.read 2 1 := rfl
  have crc : frame.looped.crc = frame.crc := rfl
  have flags : frame.looped.flags = frame.flags ||| flagLoopback := rfl
  have same : jdCrc16 frame.looped.covered = jdCrc16 frame.covered :=
    (eq_of_beq after).trans (crc.trans (eq_of_beq before).symm)
  rw [split, split, size, tail, head, flags] at same
  exact jdCrc16_detects _ _ same

theorem Frame.looped_of_flag {frame : Frame} (set : frame.flags ||| flagLoopback = frame.flags) :
    frame.looped = frame := by
  funext cell
  rw [looped, set]
  by_cases here : cell = 3
  · subst here
    rfl
  · exact Memory.write_outside (by simp; omega)

/-- What the wire sees of an epoch: every copy checks out and repeats the bytes
of the first one. -/
def Epoch.Valid (epoch : Epoch) : Prop :=
  ∀ copy ∈ epoch.copies, jdFrameCrcOk copy.2 = true ∧
    ∀ first ∈ epoch.copies.head?, copy.2.read 0 copy.2.frameSize = first.2.read 0 first.2.frameSize

/-- In every run the copies of a frame are valid and identical exactly when the
frame was flushed with the loopback flag already set, or none of its copies was
pushed after the first attempt. -/
theorem retransmissions_valid_iff (config : TxConfig)
    (needs : ∀ frame, config.jdServicesNeedsFrame frame = true)
    (run : RetryRun config pipe link epochs) :
    ∀ epoch ∈ epochs, epoch.Valid ↔
      (epoch.flushed.flags ||| Frame.flagLoopback = epoch.flushed.flags ∨
        ∀ copy ∈ epoch.copies, copy.1 = 1) := by
  intro epoch member
  have sound := (run.sound needs).2 epoch member
  constructor
  · intro valid
    by_contra broken
    push Not at broken
    obtain ⟨unset, copy, pushed, retried⟩ := broken
    obtain ⟨positive, same⟩ := sound.copies copy pushed
    rw [Epoch.frameAfter, if_neg (by omega)] at same
    have passes := (valid copy pushed).1
    rw [same] at passes
    exact unset (Frame.looped_eq_of_crcOk sound.checksum passes)
  · intro clean
    have unchanged : ∀ copy ∈ epoch.copies, copy.2 = epoch.flushed := by
      intro copy pushed
      rw [(sound.copies copy pushed).2, Epoch.frameAfter]
      rcases clean with set | once
      · rw [Frame.looped_of_flag set, ite_self]
      · rw [once copy pushed]
        rfl
    intro copy pushed
    rw [unchanged copy pushed]
    refine ⟨sound.checksum, ?_⟩
    intro first head
    rw [unchanged first (List.mem_of_mem_head? head)]

private def clientConfig : TxConfig :=
  ⟨[1, 0, 0, 0, 0, 0, 0, 0], TxConfig.first_length, fun _ => true, fun _ => true⟩

private def emptyLink : Link := ⟨jdQueueAlloc 1024, jdQueueAlloc 2048⟩

/-- A frame is flushed, sent and acknowledged, and the next one is flushed and
sent twice: the retry counter before and after its flush, its flags, and what the
two ticks do. -/
private def sendTwice : Except PipeFault ((Nat × Nat × UInt8) × List (Bool × Bool)) := do
  let (_, wrote) ← (OPipe.zero.jdOpipeOpen [2, 0, 0, 0, 0, 0, 0, 0] 1).2.call 0 (.write [7])
  let (_, flushed) ← wrote.call 0 .flush
  let (sent, link, _) ← flushed.jdOpipeProcess clientConfig 0 emptyLink
  let acknowledged ← sent.jdOpipeHandlePacket 0 ⟨serviceIndexCrcAck, 0, 27728, [2, 0, 0, 0, 0, 0, 0, 0]⟩
  let (_, filled) ← acknowledged.call 0 (.write [8])
  let (_, again) ← filled.call 0 .flush
  let (once, link, first) ← again.jdOpipeProcess clientConfig 0 link
  let (_, _, second) ← once.jdOpipeProcess clientConfig 20000 link
  return ((filled.currRetry, again.currRetry, again.frame.flags),
    [(again.sendsNow 0, first.isSome), (once.sendsNow 20000, second.isSome)])

/-- The second frame carries the flag since its flush, and both its copies are valid. -/
theorem retransmissions_valid_once :
    ∃ config pipe link epochs, RetryRun config pipe link epochs ∧
      ∃ epoch ∈ epochs, epoch.copies.map Prod.fst = [1, 2] ∧ epoch.Valid := by
  have done : sendTwice = .ok ((0, 1, 67), [(true, true), (true, true)]) := by decide +kernel
  obtain ⟨⟨_, wrote⟩, write, done⟩ := ok_of_bind done
  obtain ⟨⟨_, flushed⟩, flush, done⟩ := ok_of_bind done
  obtain ⟨⟨sent, link, _⟩, send, done⟩ := ok_of_bind done
  obtain ⟨acknowledged, handle, done⟩ := ok_of_bind done
  obtain ⟨⟨_, filled⟩, fill, done⟩ := ok_of_bind done
  obtain ⟨⟨_, again⟩, flushAgain, done⟩ := ok_of_bind done
  obtain ⟨⟨once, link, first⟩, one, done⟩ := ok_of_bind done
  obtain ⟨⟨twice, link, second⟩, two, done⟩ := ok_of_bind done
  obtain ⟨states, ticks⟩ := Prod.mk.inj (Except.ok.inj done)
  obtain ⟨idle, flight⟩ := Prod.mk.inj states
  obtain ⟨busy, flags⟩ := Prod.mk.inj flight
  obtain ⟨early, late⟩ := List.cons.inj ticks
  obtain ⟨now, pushed⟩ := Prod.mk.inj early
  obtain ⟨later, retried⟩ := Prod.mk.inj (List.cons.inj late).1
  obtain ⟨firstCopy, rfl⟩ := Option.isSome_iff_exists.mp pushed
  obtain ⟨secondCopy, rfl⟩ := Option.isSome_iff_exists.mp retried
  have start : RetryRun clientConfig .zero emptyLink [] := .start emptyLink
  have acknowledges := ((((start.opened [2, 0, 0, 0, 0, 0, 0, 0] 1).call 0 _ write).call 0 _ flush).process 0 send).packet
    0 _ handle
  have run := (((acknowledges.call 0 _ fill).call 0 _ flushAgain).process 0 one).process 20000 two
  rw [if_pos later, if_pos now, openedEpoch, if_pos ⟨idle, by rw [busy]; decide⟩] at run
  refine ⟨_, _, _, _, run, _, List.mem_cons_self, rfl, ?_⟩
  refine (retransmissions_valid_iff clientConfig (fun _ => rfl) run _ List.mem_cons_self).mpr (.inl ?_)
  change again.frame.flags ||| Frame.flagLoopback = again.frame.flags
  rw [flags]
  rfl

/-- The second copy of the first frame after `jd_opipe_open` carries the flag
set by the loopback and fails the checksum. -/
theorem retransmission_breaks_crc :
    ∃ (config : TxConfig) (pipe : OPipe) (link : Link) (epochs : List Epoch),
      (∀ frame, config.jdServicesNeedsFrame frame = true) ∧
      (∀ frame, config.jdNeedToSend frame = true) ∧
      RetryRun config pipe link epochs ∧
      ∃ epoch ∈ epochs, ∃ copy ∈ epoch.copies, jdFrameCrcOk copy.2 = false := by
  have start : RetryRun clientConfig .zero emptyLink [] := .start emptyLink
  have opened := start.opened [2, 0, 0, 0, 0, 0, 0, 0] 1
  have wrote := opened.call 0 (.write [7]) (by rfl)
  have flushed := wrote.call 0 .close (by rfl)
  have sent := flushed.process 0 (by rfl)
  have again := sent.process 10000 (by rfl)
  exact ⟨clientConfig, _, _, _, fun _ => rfl, fun _ => rfl, again, _, List.mem_singleton.mpr rfl, _,
    List.mem_cons_of_mem _ (List.mem_singleton.mpr rfl), by decide +kernel⟩

end Jacdac
