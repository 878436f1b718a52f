import Mathlib.Data.List.Forall2
import Jacdac.Base.Lossy
import Jacdac.Link.Wire

/-! One queue on the way: which of its frames are the sender's reports, and what
a push, a shift and the edit in place do to them. -/

namespace Jacdac

def QueuedFrame.frame (record : QueuedFrame) : Frame := fun cell => record.bytes.getD cell 0

theorem QueuedFrame.frame_ofFrame {frame : Frame} (upper : frame.size ≤ 240) (inside : cell < frmSize frame) :
    (QueuedFrame.ofFrame frame upper).frame cell = frame cell := by
  change (frame.read 0 (frmSize frame)).getD cell 0 = frame cell
  rw [List.getD_eq_getElem?_getD, Memory.read_getElem? _ _ _ _ inside, Nat.zero_add]
  rfl

theorem QueuedFrame.frame_at {queue : Queue} {record : QueuedFrame}
    (content : queue.data.read offset record.bytes.length = record.bytes) (inside : cell < record.bytes.length) :
    queue.frameAt offset cell = record.frame cell := by
  unfold QueuedFrame.frame
  rw [← content, List.getD_eq_getElem?_getD, Memory.read_getElem? _ _ _ _ inside]
  rfl

theorem reportsFrom_congr {frame other : Frame} (same : ∀ cell, 3 ≤ cell → cell < 12 → other cell = frame cell) :
    other.ReportsFrom deviceId ↔ frame.ReportsFrom deviceId := by
  have flags : other.flags = frame.flags := same 3 (by decide) (by decide)
  have identifier : other.deviceIdentifier = frame.deviceIdentifier :=
    Memory.read_congr fun cell lower upper => same cell (by omega) (by omega)
  unfold Frame.ReportsFrom
  rw [flags, identifier]

/-- The loopback flag says nothing about commands. -/
theorem receivedFlags_command (flags : UInt8) (isLoop : Bool) :
    receivedFlags flags isLoop &&& Frame.flagCommand = flags &&& Frame.flagCommand := by
  have disjoint : Frame.flagLoopback.toBitVec &&& Frame.flagCommand.toBitVec = 0 := by decide
  have outside : ~~~ Frame.flagLoopback &&& Frame.flagCommand = Frame.flagCommand := by decide
  cases isLoop with
  | true =>
    apply UInt8.toBitVec_inj.mp
    simp [receivedFlags, BitVec.and_or_distrib_right, disjoint]
  | false => simp [receivedFlags, UInt8.and_assoc, outside]

theorem reportsFrom_received (frame : Frame) (isLoop : Bool) :
    (received frame isLoop).ReportsFrom deviceId ↔ frame.ReportsFrom deviceId := by
  have identifier : (received frame isLoop).deviceIdentifier = frame.deviceIdentifier :=
    Memory.read_congr fun cell lower _ => Memory.write_outside (.inr (by simp; omega))
  have flags : (received frame isLoop).flags = receivedFlags frame.flags isLoop := Memory.write_byte frame 3 _
  unfold Frame.ReportsFrom
  rw [identifier, flags, receivedFlags_command]

def reports (deviceId : List UInt8) (frames : List QueuedFrame) : List QueuedFrame :=
  frames.filter fun record => decide (record.frame.ReportsFrom deviceId)

/-- Behind its first `skipped` frames the queue holds these reports, and frames
of others between them. -/
structure Transports (deviceId : List UInt8) (like : QueuedFrame → Emission → Prop) (skipped : Nat) (queue : Queue)
    (emissions : List Emission) (frames : List QueuedFrame) : Prop where
  holds : Holds queue frames
  small : queue.size ≤ 65535
  skips : skipped ≤ frames.length
  sizes : ∀ record ∈ frames.drop skipped, 1 ≤ record.frame.size
  order : List.Forall₂ like (reports deviceId (frames.drop skipped)) emissions

namespace Transports

variable {like : QueuedFrame → Emission → Prop} {queue next : Queue} {emissions : List Emission}
  {frames : List QueuedFrame}

theorem alloc (deviceId : List UInt8) (like : QueuedFrame → Emission → Prop) (size : Nat) :
    Transports deviceId like 0 (jdQueueAlloc size) [] [] where
  holds := .alloc size
  small := Nat.le_of_lt_succ (Nat.mod_lt _ (by decide))
  skips := Nat.le_refl 0
  sizes := by simp
  order := .nil

/-- A push that does not fit changes nothing; else the frame comes last. -/
theorem pushed (transports : Transports deviceId like skipped queue emissions frames) (frame : Frame)
    (lower : 1 ≤ frame.size) (upper : frame.size ≤ 240) (pushed : jdQueuePush queue frame = .ok (ret, next)) :
    (jdQueueWillFit queue (frmSize frame) = false ∧ next = queue) ∨
      (jdQueueWillFit queue (frmSize frame) = true ∧
        Holds next (frames ++ [.ofFrame frame upper]) ∧ next.size = queue.size ∧
        ∀ offset, jdQueueFront queue = some offset → jdQueueFront next = some offset) := by
  rcases transports.holds.push transports.small lower upper with ⟨fits, other, done, accepted⟩ | ⟨full, _, _, done, _⟩
  · obtain ⟨_, rfl⟩ := Prod.mk.inj (Except.ok.inj (pushed.symm.trans done))
    refine .inr ⟨fits, accepted.holds, accepted.size, fun offset front => ?_⟩
    refine (accepted.front ?_).trans front
    rintro rfl
    rw [transports.holds.front_nil] at front
    cases front
  · obtain ⟨_, rfl⟩ := Prod.mk.inj (Except.ok.inj (pushed.symm.trans done))
    exact .inl ⟨full, rfl⟩

theorem grown_sizes (transports : Transports deviceId like skipped queue emissions frames) {frame : Frame}
    (lower : 1 ≤ frame.size) (upper : frame.size ≤ 240) :
    ∀ record ∈ (frames ++ [QueuedFrame.ofFrame frame upper]).drop skipped, 1 ≤ record.frame.size := by
  intro record member
  rw [List.drop_append_of_le_length transports.skips] at member
  rcases List.mem_append.mp member with old | fresh
  · exact transports.sizes record old
  · obtain rfl := List.mem_singleton.mp fresh
    have inside : 2 < frmSize frame := by
      have padded := align_ge frame.frameSize
      unfold Frame.frameSize at padded
      unfold frmSize Frame.frameSize
      omega
    have byte := QueuedFrame.frame_ofFrame upper inside
    unfold Frame.size
    rw [byte]
    exact lower

theorem pushReport (transports : Transports deviceId like skipped queue emissions frames) (frame : Frame)
    (lower : 1 ≤ frame.size) (upper : frame.size ≤ 240) (report : frame.ReportsFrom deviceId)
    (same : like (.ofFrame frame upper) emission) (done : jdQueuePush queue frame = .ok (ret, next)) :
    (∃ frames, Transports deviceId like skipped next
      (if jdQueueWillFit queue (frmSize frame) then emissions ++ [emission] else emissions) frames) ∧
    ∀ offset, jdQueueFront queue = some offset → jdQueueFront next = some offset := by
  rcases transports.pushed frame lower upper done with ⟨full, rfl⟩ | ⟨fits, holds, size, front⟩
  · rw [full]
    exact ⟨⟨frames, transports⟩, fun _ => id⟩
  · rw [fits]
    refine ⟨⟨_, holds, size ▸ transports.small, ?_, transports.grown_sizes lower upper, ?_⟩, front⟩
    · have skips := transports.skips
      rw [List.length_append]
      omega
    · have whole : 12 ≤ frmSize frame := by
        have padded := align_ge frame.frameSize
        unfold Frame.frameSize at padded
        unfold frmSize Frame.frameSize
        omega
      have kept : (QueuedFrame.ofFrame frame upper).frame.ReportsFrom deviceId :=
        (reportsFrom_congr fun cell _ below => QueuedFrame.frame_ofFrame upper (by omega)).mpr report
      rw [List.drop_append_of_le_length transports.skips, reports, List.filter_append,
        List.filter_cons_of_pos (by simpa using kept)]
      exact List.rel_append transports.order (.cons same .nil)

theorem pushOther (transports : Transports deviceId like skipped queue emissions frames) (frame : Frame)
    (lower : 1 ≤ frame.size) (upper : frame.size ≤ 240) (other : ¬ frame.ReportsFrom deviceId)
    (done : jdQueuePush queue frame = .ok (ret, next)) :
    (∃ frames, Transports deviceId like skipped next emissions frames) ∧
    ∀ offset, jdQueueFront queue = some offset → jdQueueFront next = some offset := by
  rcases transports.pushed frame lower upper done with ⟨_, rfl⟩ | ⟨_, holds, size, front⟩
  · exact ⟨⟨frames, transports⟩, fun _ => id⟩
  · refine ⟨⟨_, holds, size ▸ transports.small, ?_, transports.grown_sizes lower upper, ?_⟩, front⟩
    · have skips := transports.skips
      rw [List.length_append]
      omega
    · have whole : 12 ≤ frmSize frame := by
        have padded := align_ge frame.frameSize
        unfold Frame.frameSize at padded
        unfold frmSize Frame.frameSize
        omega
      have kept : ¬ (QueuedFrame.ofFrame frame upper).frame.ReportsFrom deviceId := fun report =>
        other ((reportsFrom_congr fun cell _ below => QueuedFrame.frame_ofFrame upper (by omega)).mp report)
      rw [List.drop_append_of_le_length transports.skips, reports, List.filter_append,
        List.filter_cons_of_neg (by simpa using kept), List.filter_nil, List.append_nil]
      exact transports.order

/-- The front frame, as the consumer reads it where it lies. -/
theorem front (transports : Transports deviceId like 0 queue emissions frames)
    (found : jdQueueFront queue = some offset) :
    1 ≤ (queue.frameAt offset).size ∧ ∃ record, record.bytes.length = frmSize (queue.frameAt offset) ∧
      (∀ cell < record.bytes.length, queue.frameAt offset cell = record.frame cell) ∧
      ∃ left, Transports deviceId like 1 queue left frames ∧
        (((queue.frameAt offset).ReportsFrom deviceId ∧ ∃ emission, like record emission ∧ emissions = emission :: left) ∨
          (¬ (queue.frameAt offset).ReportsFrom deviceId ∧ emissions = left)) := by
  obtain ⟨holds, small, _, sizes, order⟩ := transports
  cases frames with
  | nil =>
    rw [holds.front_nil] at found
    cases found
  | cons record rest =>
    obtain ⟨place, addressed, content, _⟩ := holds.front_cons
    obtain rfl : place = offset := Option.some.inj (addressed.symm.trans found)
    have cells : ∀ cell < record.bytes.length, queue.frameAt place cell = record.frame cell :=
      fun cell inside => QueuedFrame.frame_at content inside
    have long := record.length_pos
    have same : (queue.frameAt place).ReportsFrom deviceId ↔ record.frame.ReportsFrom deviceId :=
      reportsFrom_congr fun cell _ below => cells cell (by omega)
    have sized : 1 ≤ (queue.frameAt place).size := by
      have head := sizes record (by simp)
      unfold Frame.size at head ⊢
      rwa [cells 2 (by omega)]
    have later : ∀ other ∈ (record :: rest).drop 1, 1 ≤ other.frame.size :=
      fun other member => sizes other (by simpa using .inr member)
    refine ⟨sized, record, (frameAt_size content).symm, cells, ?_⟩
    rw [List.drop_zero, reports] at order
    by_cases report : record.frame.ReportsFrom deviceId
    · rw [List.filter_cons_of_pos (by simpa using report)] at order
      cases order with
      | @cons _ emission _ left head tail =>
        exact ⟨left, ⟨holds, small, Nat.succ_le_succ (Nat.zero_le _), later, tail⟩, .inl ⟨same.mpr report, emission, head, rfl⟩⟩
    · rw [List.filter_cons_of_neg (by simpa using report)] at order
      exact ⟨emissions, ⟨holds, small, Nat.succ_le_succ (Nat.zero_le _), later, order⟩, .inr ⟨mt same.mp report, rfl⟩⟩

/-- The frame that was taken leaves the queue. -/
theorem shift (transports : Transports deviceId like 1 queue emissions frames) :
    ∃ next, jdQueueShift queue = .ok next ∧ ∃ frames, Transports deviceId like 0 next emissions frames := by
  obtain ⟨holds, small, skips, sizes, order⟩ := transports
  cases frames with
  | nil => exact absurd skips (by simp)
  | cons record rest =>
    obtain ⟨next, shifted, tail, size, _⟩ := holds.shift small
    exact ⟨next, shifted, rest, tail, size ▸ small, Nat.zero_le _, sizes, order⟩

/-- The frame that was taken is rewritten where it lies. -/
theorem edited (transports : Transports deviceId like 1 queue emissions frames) {frame : Frame}
    (found : jdQueueFront queue = some offset)
    (outside : ∀ cell, OutsideRecord (queue.frameAt offset) cell → frame cell = queue.frameAt offset cell) :
    ∃ frames, Transports deviceId like 1 (queue.setFrameAt offset frame) emissions frames := by
  obtain ⟨holds, small, skips, sizes, order⟩ := transports
  cases frames with
  | nil => exact absurd skips (by simp)
  | cons record rest =>
    obtain ⟨place, addressed, content, _⟩ := holds.front_cons
    obtain rfl : place = offset := Option.some.inj (addressed.symm.trans found)
    have edit : EditedRecord queue place record frame :=
      ⟨fun cell apart => outside cell (by rwa [OutsideRecord, frameAt_size content])⟩
    obtain ⟨changed, after⟩ := holds.edited found edit
    exact ⟨changed :: rest, after, small, skips, sizes, order⟩

end Transports

end Jacdac
