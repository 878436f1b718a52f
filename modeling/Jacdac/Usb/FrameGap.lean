import Jacdac.Usb.Marks
import Jacdac.Usb.PullInvariant

/-! `usb_frame_gap`: after a frame was refused, the stream gets a gap marker, between
frames and before the next one starts. -/

namespace Jacdac

variable {codes : QuoteBytes}

theorem sendBytes_escapes (codes : QuoteBytes) (frame : Frame) (frameSize framePtr : Nat) (dst : List UInt8) :
    ∃ bytes, (sendBytes codes frame frameSize framePtr dst).2.2 = dst ++ codes.escapeAll bytes := by
  fun_induction sendBytes codes frame frameSize framePtr dst with
  | case1 => exact ⟨[], (List.append_nil _).symm⟩
  | case2 framePtr dst inside b magic room ih =>
    obtain ⟨bytes, out⟩ := ih
    refine ⟨codes.magic :: bytes, ?_⟩
    rw [out, QuoteBytes.escapeAll_cons, codes.escape_magic, List.append_assoc]
  | case3 => exact ⟨[], (List.append_nil _).symm⟩
  | case4 framePtr dst inside b plain room ih =>
    obtain ⟨bytes, out⟩ := ih
    refine ⟨b :: bytes, ?_⟩
    rw [out, QuoteBytes.escapeAll_cons, QuoteBytes.escape_plain plain, List.append_assoc]
  | case5 => exact ⟨[], (List.append_nil _).symm⟩

theorem sendSerial_escapes (codes : QuoteBytes) (log : DmesgLog) (serial : SerialBuffer) (dst : List UInt8) :
    ∃ bytes, (sendSerial codes log serial dst).2 = dst ++ codes.escapeAll bytes := by
  fun_induction sendSerial codes log serial dst with
  | case1 => exact ⟨[], (List.append_nil _).symm⟩
  | case2 serial dst room refilled more b moved magic ih =>
    obtain ⟨bytes, out⟩ := ih
    refine ⟨codes.magic :: bytes, ?_⟩
    rw [out, QuoteBytes.escapeAll_cons, codes.escape_magic, List.append_assoc]
  | case3 serial dst room refilled more b moved plain ih =>
    obtain ⟨bytes, out⟩ := ih
    refine ⟨b :: bytes, ?_⟩
    rw [out, QuoteBytes.escapeAll_cons, QuoteBytes.escape_plain plain, List.append_assoc]
  | case4 => exact ⟨[], (List.append_nil _).symm⟩

/-- What the bytes of a pull tell of a gap: it is still open and no frame has started, or its marker
is out, before any frame. -/
structure Signals (codes : QuoteBytes) (gap after : Nat) (added : List UInt8) : Prop where
  settled : codes.Settled added
  closed : gap ≠ 1 → after = gap
  opened : gap = 1 → after = 1 ∧ codes.frameStart ∉ codes.marks added ∨
    after = 2 ∧ codes.frameGap ∈ codes.untilStart (codes.marks added)

namespace Signals

/-- Bytes without any marks. -/
theorem plain (gap : Nat) (settled : codes.Settled added) (none_ : codes.frameStart ∉ codes.marks added) :
    Signals codes gap gap added :=
  ⟨settled, fun _ => rfl, fun one => .inl ⟨one, none_⟩⟩

/-- Bytes where no gap is open. -/
theorem other (different : gap ≠ 1) (settled : codes.Settled added) : Signals codes gap gap added :=
  ⟨settled, fun _ => rfl, fun one => absurd one different⟩

theorem marker (codes : QuoteBytes) : Signals codes 1 2 [codes.magic, codes.frameGap] := by
  obtain ⟨gap, _, _, start, _, _⟩ := codes.codes_ne
  refine ⟨codes.settled_marker _, fun other => absurd rfl other, fun _ => .inr ⟨rfl, ?_⟩⟩
  rw [QuoteBytes.marks_marker gap, QuoteBytes.untilStart]
  simp [Ne.symm start]

theorem trans (first : Signals codes gap middle early) (second : Signals codes middle after late) :
    Signals codes gap after (early ++ late) := by
  refine ⟨first.settled.append second.settled, fun other => ?_, fun one => ?_⟩
  · have same := first.closed other
    exact (second.closed (same ▸ other)).trans same
  · rw [QuoteBytes.marks_append first.settled]
    rcases first.opened one with ⟨still, none_⟩ | ⟨rfl, found⟩
    · rcases second.opened still with ⟨again, nothing⟩ | ⟨done, found⟩
      · exact .inl ⟨again, fun member => (List.mem_append.mp member).elim none_ nothing⟩
      · exact .inr ⟨done, QuoteBytes.untilStart_behind none_ found⟩
    · exact .inr ⟨second.closed nofun, QuoteBytes.untilStart_mem found _⟩

end Signals

namespace Sending

variable {sending : Sending}

theorem markGap_signals (codes : QuoteBytes) (sending : Sending) :
    ∃ added, (sending.markGap codes).dst = sending.dst ++ added ∧
      Signals codes sending.frameGap (sending.markGap codes).frameGap added := by
  unfold markGap
  split
  · rename_i marks
    rw [marks.1]
    exact ⟨_, rfl, .marker codes⟩
  · exact ⟨[], (List.append_nil _).symm, .plain _ codes.settled_nil (List.not_mem_nil)⟩

/-- After the head of the loop a gap is open only inside a frame, or without the space for a marker. -/
theorem markGap_open (opened : (sending.markGap codes).frameGap = 1) :
    ¬ ((sending.markGap codes).framePtr = 0 ∧ 2 ≤ usbSpace (sending.markGap codes).dst) := by
  unfold markGap at opened ⊢
  split at opened
  · cases opened
  · rename_i unmarked
    rw [if_neg unmarked]
    exact fun both => unmarked ⟨opened, both⟩

/-- A turn of the loop up to the end of the frame, where a gap that is still open has its frame
started before. -/
theorem fill_signals (codes : QuoteBytes) (offset : Nat) (inside : sending.frameGap = 1 → sending.framePtr ≠ 0) :
    ∃ added, ((sending.markStart codes).fill codes offset).2.dst = sending.dst ++ added ∧
      Signals codes sending.frameGap ((sending.markStart codes).fill codes offset).2.frameGap added := by
  obtain ⟨bytes, out⟩ := sendBytes_escapes codes ((sending.markStart codes).queue.frameAt offset)
    ((sending.markStart codes).queue.frameAt offset).frameSize (sending.markStart codes).framePtr
    (sending.markStart codes).dst
  have filled : ((sending.markStart codes).fill codes offset).2.dst =
      (sending.markStart codes).dst ++ codes.escapeAll bytes := out
  have gap : ((sending.markStart codes).fill codes offset).2.frameGap = sending.frameGap := by
    unfold fill markStart
    dsimp only
    split <;> rfl
  have text : Signals codes sending.frameGap sending.frameGap (codes.escapeAll bytes) :=
    .plain _ (codes.settled_escapeAll bytes) (by rw [codes.marks_escapeAll]; exact List.not_mem_nil)
  rw [gap, filled]
  by_cases fresh : sending.framePtr = 0
  · have different : sending.frameGap ≠ 1 := fun one => inside one fresh
    rw [markStart, if_pos fresh, List.append_assoc]
    exact ⟨_, rfl, (Signals.other different (codes.settled_marker _)).trans text⟩
  · rw [markStart, if_neg fresh]
    exact ⟨_, rfl, text⟩

/-- A turn of the loop up to the end of the frame. -/
theorem turn_signals (sending : Sending) (offset : Nat)
    (room : ¬ ((sending.markGap codes).framePtr = 0 ∧ usbSpace (sending.markGap codes).dst < 4)) :
    ∃ added, (((sending.markGap codes).markStart codes).fill codes offset).2.dst = sending.dst ++ added ∧
      Signals codes sending.frameGap (((sending.markGap codes).markStart codes).fill codes offset).2.frameGap added := by
  obtain ⟨early, head, first⟩ := markGap_signals codes sending
  have inside : (sending.markGap codes).frameGap = 1 → (sending.markGap codes).framePtr ≠ 0 := by
    intro opened fresh
    refine markGap_open opened ⟨fresh, ?_⟩
    have space := not_and.mp room fresh
    omega
  obtain ⟨late, tail, second⟩ := fill_signals codes offset inside
  exact ⟨early ++ late, by rw [tail, head, List.append_assoc], first.trans second⟩

end Sending

/-- The frame loop puts the marker out before any frame starts. -/
theorem sendFrames_signals (codes : QuoteBytes) (sending : Sending) (ran : sendFrames codes sending = .ok result) :
    ∃ added, result.2.dst = sending.dst ++ added ∧ Signals codes sending.frameGap result.2.frameGap added := by
  fun_induction sendFrames codes sending with
  | case1 sending marked missing =>
    obtain rfl := Except.ok.inj ran
    exact sending.markGap_signals codes
  | case2 sending marked offset found short =>
    obtain rfl := Except.ok.inj ran
    exact sending.markGap_signals codes
  | case3 sending marked offset found room filled returned =>
    obtain rfl := Except.ok.inj ran
    exact sending.turn_signals offset room
  | case4 sending marked offset found room filled returned full =>
    obtain rfl := Except.ok.inj ran
    exact sending.turn_signals offset room
  | case5 => cases ran
  | case6 sending marked offset found room filled returned space queue shifted ih =>
    obtain ⟨early, head, first⟩ := sending.turn_signals offset room
    obtain ⟨late, tail, second⟩ := ih ran
    have ending : Signals codes filled.2.frameGap filled.2.frameGap [codes.magic, codes.frameEnd] := by
      obtain ⟨_, _, last, _, _, start⟩ := codes.codes_ne
      refine .plain _ (codes.settled_marker _) ?_
      rw [QuoteBytes.marks_marker last]
      simpa using Ne.symm start
    refine ⟨early ++ [codes.magic, codes.frameEnd] ++ late, ?_, (first.trans ending).trans second⟩
    rw [tail]
    dsimp only
    rw [head]
    simp only [List.append_assoc]

theorem jdUsbPull_signals {tx : UsbTx} (active : tx.panicMode = 0) (log : DmesgLog)
    (ran : jdUsbPull codes log tx = .ok (after, added)) : Signals codes tx.frameGap after.frameGap added := by
  unfold jdUsbPull at ran
  rw [if_neg (not_not.mpr active)] at ran
  cases queue : tx.queue with
  | none =>
    rw [queue] at ran
    obtain ⟨rfl, rfl⟩ := Prod.mk.inj (Except.ok.inj ran)
    exact .plain _ codes.settled_nil List.not_mem_nil
  | some queue_ =>
    rw [queue] at ran
    dsimp only at ran
    split at ran
    · cases ran
    · rename_i returned sending sent
      obtain ⟨bytes, out, signals⟩ := sendFrames_signals codes _ sent
      have whole : sending.dst = bytes := out
      split at ran
      · obtain ⟨text, serial⟩ := sendSerial_escapes codes log
          ⟨tx.serialBufPtr, tx.serialBufLen, tx.serialBuf, tx.dmesgPtr⟩ sending.dst
        obtain ⟨rfl, rfl⟩ := Prod.mk.inj (Except.ok.inj ran)
        rw [serial, whole]
        refine signals.trans (.plain _ (codes.settled_escapeAll text) ?_)
        rw [codes.marks_escapeAll]
        exact List.not_mem_nil
      · obtain ⟨rfl, rfl⟩ := Prod.mk.inj (Except.ok.inj ran)
        rw [whole]
        exact signals

theorem jdUsbPull_fwdEn {tx : UsbTx} {log : DmesgLog} (ran : jdUsbPull codes log tx = .ok (after, added)) :
    after.fwdEn = tx.fwdEn := by
  unfold jdUsbPull at ran
  split at ran
  · split at ran
    · obtain ⟨rfl, rfl⟩ := Prod.mk.inj (Except.ok.inj ran)
      rfl
    · obtain ⟨rfl, rfl⟩ := Prod.mk.inj (Except.ok.inj ran)
      rfl
  · split at ran
    · obtain ⟨rfl, rfl⟩ := Prod.mk.inj (Except.ok.inj ran)
      rfl
    · split at ran
      · cases ran
      · dsimp only at ran
        split at ran
        · obtain ⟨rfl, rfl⟩ := Prod.mk.inj (Except.ok.inj ran)
          rfl
        · obtain ⟨rfl, rfl⟩ := Prod.mk.inj (Except.ok.inj ran)
          rfl

/-- What happens to the sender while packets are forwarded. -/
inductive GapOp where
  | /-- `jd_usb_send_frame`. -/
    send (sized : SizedFrame)
  | /-- `jd_usb_pull`, with the log as it is at that moment. -/
    pull (log : DmesgLog)
  | /-- `dmesg_timer` is set. -/
    timer (dmesgTimer : Nat)

/-- The sender with all its output, the length that the output had when the last frame was queued,
and for every refused frame that length as it was then. -/
structure GapTrace where
  tx : UsbTx
  output : List UInt8
  queuedAt : Nat
  refused : List Nat

namespace GapTrace

def step (codes : QuoteBytes) (trace : GapTrace) : GapOp → Except UsbFault GapTrace
  | .send sized =>
    match jdUsbSendFrame trace.tx sized.frame with
    | .error fault => .error fault
    | .ok (ret, tx) =>
      if ret = 0 then .ok { trace with tx, queuedAt := trace.output.length }
      else .ok { trace with tx, refused := trace.queuedAt :: trace.refused }
  | .pull log =>
    match jdUsbPull codes log trace.tx with
    | .error fault => .error fault
    | .ok (tx, bytes) => .ok { trace with tx, output := trace.output ++ bytes }
  | .timer dmesgTimer => .ok { trace with tx := { trace.tx with dmesgTimer } }

def run (codes : QuoteBytes) : GapTrace → List GapOp → Except UsbFault GapTrace
  | trace, [] => .ok trace
  | trace, op :: ops =>
    match trace.step codes op with
    | .error fault => .error fault
    | .ok next => run codes next ops

/-- A sender right after `jd_usb_init`, outside panic mode, that forwards packets. -/
def boot (queueSize : Nat) (tx : UsbTx) : GapTrace where
  tx := jdUsbInit queueSize { tx with queue := none, panicMode := 0, fwdEn := true, frameGap := 0 }
  output := []
  queuedAt := 0
  refused := []

/-- More markers are out than there were when the output had this length. -/
def MarkedSince (codes : QuoteBytes) (trace : GapTrace) (length : Nat) : Prop :=
  codes.gaps (trace.output.take length) < codes.gaps trace.output

/-- Every refused frame is signalled, or will be before the next frame starts, and no marker stands
inside a frame. -/
structure Signalled (codes : QuoteBytes) (trace : GapTrace) : Prop where
  refused : ∀ length ∈ trace.refused, trace.tx.frameGap = 1 ∨ trace.MarkedSince codes length
  next : trace.tx.frameGap = 1 → ∀ log, ∃ after bytes added, jdUsbPull codes log trace.tx = .ok (after, bytes) ∧
    codes.marks (trace.output ++ bytes) = codes.marks trace.output ++ added ∧
    (codes.frameStart ∈ added → codes.frameGap ∈ codes.untilStart added)
  outside : codes.Outside false (codes.marks trace.output)

/-- The invariant of a run. -/
structure Sound (codes : QuoteBytes) (trace : GapTrace) : Prop where
  forwards : trace.tx.fwdEn = true
  follows : ∃ sent pending, trace.tx.Follows codes trace.output sent pending
  bound : trace.tx.frameGap ≤ 2
  places : ∀ length ∈ trace.queuedAt :: trace.refused, length ≤ trace.output.length
  marked : trace.tx.frameGap = 2 → trace.MarkedSince codes trace.queuedAt
  refused : ∀ length ∈ trace.refused, trace.tx.frameGap = 1 ∨ trace.MarkedSince codes length

variable {trace : GapTrace}

theorem boot_sound (codes : QuoteBytes) (queueSize : Nat) (tx : UsbTx) : (boot queueSize tx).Sound codes := by
  refine ⟨rfl, ⟨[], [], rfl, ⟨jdQueueAlloc queueSize, rfl, .alloc queueSize, ?_⟩, .between [] rfl⟩, Nat.zero_le _,
    ?_, nofun, nofun⟩
  · have : u16 queueSize < 65536 := Nat.mod_lt _ (by decide)
    exact Nat.le_of_lt_succ this
  · intro length member
    obtain rfl := List.mem_singleton.mp member
    exact Nat.zero_le _

/-- A frame that is queued ends the state after a marker; one that is refused opens a gap. -/
theorem Sound.send (sound : trace.Sound codes) (sized : SizedFrame) :
    ∃ next, trace.step codes (.send sized) = .ok next ∧ next.Sound codes := by
  obtain ⟨forwards, ⟨sent, pending, follows⟩, bound, places, marked, refused⟩ := sound
  obtain ⟨ret, tx, pushed, active, stored, stream⟩ := follows.push sized
  have kept : tx.fwdEn = trace.tx.fwdEn ∧ tx.frameGap = trace.tx.frameGap := by
    unfold pushUsbQueue at pushed
    split at pushed
    · cases pushed
    · split at pushed
      · cases pushed
      · obtain ⟨_, rfl⟩ := Prod.mk.inj (Except.ok.inj pushed)
        exact ⟨rfl, rfl⟩
  rw [step, jdUsbSendFrame, if_pos forwards, pushed]
  dsimp only
  have follows : ({ tx with frameGap := gapAfter ret tx.frameGap } : UsbTx).Follows codes trace.output sent
      (if ret = 0 then pending ++ [sized] else pending) := ⟨active, stored, stream⟩
  rw [kept.2] at follows ⊢
  by_cases queued : ret = 0
  · have gap : gapAfter ret trace.tx.frameGap = if trace.tx.frameGap = 2 then 0 else trace.tx.frameGap := if_pos queued
    rw [if_pos queued, gap]
    rw [gap] at follows
    refine ⟨_, rfl, kept.1.trans forwards, ⟨_, _, follows⟩, ?_, ?_, ?_, ?_⟩
    · dsimp only
      split
      · exact Nat.zero_le _
      · exact bound
    · intro length member
      rcases List.mem_cons.mp member with rfl | earlier
      · exact Nat.le_refl _
      · exact places length (List.mem_cons_of_mem _ earlier)
    · dsimp only
      split
      · exact nofun
      · exact fun two => absurd two ‹_›
    · intro length member
      rcases refused length member with one | since
      · refine .inl ?_
        dsimp only
        rw [one, if_neg nofun]
      · exact .inr since
  · have gap : gapAfter ret trace.tx.frameGap = if trace.tx.frameGap = 0 then 1 else trace.tx.frameGap := if_neg queued
    rw [if_neg queued, gap]
    rw [gap] at follows
    have signalled : (if trace.tx.frameGap = 0 then 1 else trace.tx.frameGap) = 1 ∨ trace.tx.frameGap = 2 := by
      split <;> omega
    refine ⟨_, rfl, kept.1.trans forwards, ⟨_, _, follows⟩, ?_, ?_, ?_, ?_⟩
    · dsimp only
      split
      · exact Nat.le_succ 1
      · exact bound
    · intro length member
      rcases List.mem_cons.mp member with rfl | earlier
      · exact places _ List.mem_cons_self
      · exact places length earlier
    · dsimp only
      split
      · exact nofun
      · exact marked
    · intro length member
      rcases signalled with one | two
      · exact .inl one
      · refine .inr ?_
        rcases List.mem_cons.mp member with rfl | earlier
        · exact marked two
        · exact (refused length earlier).resolve_left fun one => absurd (one.symm.trans two) nofun

theorem MarkedSince.append (since : trace.MarkedSince codes length) (place : length ≤ trace.output.length)
    (settled : codes.Settled trace.output) (tx : UsbTx) (bytes : List UInt8) :
    MarkedSince codes { trace with tx, output := trace.output ++ bytes } length := by
  unfold MarkedSince at since ⊢
  dsimp only
  rw [List.take_append_of_le_length place, QuoteBytes.gaps_append settled]
  exact Nat.lt_of_lt_of_le since (Nat.le_add_right _ _)

/-- No part of a stream has more markers than the stream. -/
theorem gaps_take_le (codes : QuoteBytes) (stream : List UInt8) (length : Nat) :
    codes.gaps (stream.take length) ≤ codes.gaps stream := by
  have split := codes.marksFrom_append false (stream.take length) (stream.drop length)
  rw [List.take_append_drop] at split
  unfold QuoteBytes.gaps QuoteBytes.marks
  rw [split, List.count_append]
  exact Nat.le_add_right _ _

/-- A marker that is put out follows all that was out before. -/
theorem markedSince_of_marker (settled : codes.Settled trace.output) (place : length ≤ trace.output.length)
    (found : codes.frameGap ∈ codes.untilStart (codes.marks bytes)) (tx : UsbTx) :
    MarkedSince codes { trace with tx, output := trace.output ++ bytes } length := by
  have positive : 0 < codes.gaps bytes := List.count_pos_iff.mpr ((List.takeWhile_prefix _).subset found)
  unfold MarkedSince
  dsimp only
  rw [List.take_append_of_le_length place, QuoteBytes.gaps_append settled]
  have before := gaps_take_le codes trace.output length
  omega

theorem Sound.pull (sound : trace.Sound codes) (log : DmesgLog) :
    ∃ next, trace.step codes (.pull log) = .ok next ∧ next.Sound codes := by
  obtain ⟨forwards, ⟨sent, pending, follows⟩, bound, places, marked, refused⟩ := sound
  obtain ⟨tx, bytes, more, left, pulled, _, _, next⟩ := follows.pull log
  have signals := jdUsbPull_signals follows.active log pulled
  have settled := follows.stream.settled
  have longer : ∀ length ∈ trace.queuedAt :: trace.refused, length ≤ (trace.output ++ bytes).length := by
    intro length member
    rw [List.length_append]
    exact Nat.le_trans (places length member) (Nat.le_add_right _ _)
  rw [step, pulled]
  by_cases one : trace.tx.frameGap = 1
  · rcases signals.opened one with ⟨still, _⟩ | ⟨two, found⟩
    · refine ⟨_, rfl, (jdUsbPull_fwdEn pulled).trans forwards, ⟨_, _, next⟩, ?_, longer, fun two => ?_, fun _ _ => .inl still⟩
      · exact still.trans_le (Nat.le_succ 1)
      · exact absurd (still.symm.trans two) nofun
    · have since : ∀ length ∈ trace.queuedAt :: trace.refused,
          MarkedSince codes { trace with tx, output := trace.output ++ bytes } length :=
        fun length member => markedSince_of_marker settled (places length member) found tx
      refine ⟨_, rfl, (jdUsbPull_fwdEn pulled).trans forwards, ⟨_, _, next⟩, Nat.le_of_eq two, longer, fun _ => ?_, ?_⟩
      · exact since _ List.mem_cons_self
      · exact fun length member => .inr (since length (List.mem_cons_of_mem _ member))
  · have same := signals.closed one
    refine ⟨_, rfl, (jdUsbPull_fwdEn pulled).trans forwards, ⟨_, _, next⟩, same.trans_le bound, longer,
      fun two => ?_, fun length member => .inr ?_⟩
    · exact (marked (same.symm.trans two)).append (places _ List.mem_cons_self) settled tx bytes
    · exact ((refused length member).resolve_left one).append (places _ (List.mem_cons_of_mem _ member)) settled tx bytes

/-- Every operation succeeds and keeps the invariant. -/
theorem Sound.step (sound : trace.Sound codes) (op : GapOp) :
    ∃ next, trace.step codes op = .ok next ∧ next.Sound codes := by
  cases op with
  | send sized => exact sound.send sized
  | pull log => exact sound.pull log
  | timer dmesgTimer =>
    obtain ⟨forwards, ⟨sent, pending, active, stored, stream⟩, bound, places, marked, refused⟩ := sound
    exact ⟨_, rfl, forwards, ⟨sent, pending, active, stored, stream⟩, bound, places, marked, refused⟩

theorem Sound.run (sound : trace.Sound codes) (ops : List GapOp) :
    ∃ last, trace.run codes ops = .ok last ∧ last.Sound codes := by
  induction ops generalizing trace with
  | nil => exact ⟨trace, rfl, sound⟩
  | cons op ops ih =>
    obtain ⟨next, stepped, kept⟩ := sound.step op
    obtain ⟨last, ran, final⟩ := ih kept
    exact ⟨last, by simp only [GapTrace.run, stepped, ran], final⟩

theorem Sound.signalled (sound : trace.Sound codes) : trace.Signalled codes := by
  obtain ⟨forwards, ⟨sent, pending, follows⟩, bound, places, marked, refused⟩ := sound
  refine ⟨refused, fun one log => ?_, follows.stream.outside⟩
  obtain ⟨tx, bytes, more, left, pulled, _⟩ := follows.pull log
  refine ⟨tx, bytes, codes.marks bytes, pulled, QuoteBytes.marks_append follows.stream.settled bytes, fun started => ?_⟩
  rcases (jdUsbPull_signals follows.active log pulled).opened one with ⟨_, none_⟩ | ⟨_, found⟩
  · exact absurd started none_
  · exact found

end GapTrace

/-- Lost frames are always signalled. -/
theorem lost_frames_signalled (codes : QuoteBytes) (queueSize : Nat) (tx : UsbTx) (ops : List GapOp) :
    ∃ last, (GapTrace.boot queueSize tx).run codes ops = .ok last ∧ last.Signalled codes := by
  obtain ⟨last, ran, sound⟩ := (GapTrace.boot_sound codes queueSize tx).run ops
  exact ⟨last, ran, sound.signalled⟩

end Jacdac
