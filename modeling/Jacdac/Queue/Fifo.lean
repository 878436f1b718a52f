import Jacdac.Queue.FifoInvariant

/-! Whole runs of the frame queue, against the list of frames pushed with
success and not yet shifted. -/

namespace Jacdac

open QueuedFrame

/-- Queues reachable from an allocation, with the frames still queued. The
caller shifts only after seeing a front; `jd_queue_front` changes nothing. -/
inductive QueueRun (capacity : Nat) : Queue → List QueuedFrame → Prop where
  | alloc : QueueRun capacity (jdQueueAlloc capacity) []
  | push (run : QueueRun capacity queue frames) (frame : Frame) (lower : 1 ≤ frame.size)
      (upper : frame.size ≤ 240) (pushed : jdQueuePush queue frame = .ok (0, next)) :
      QueueRun capacity next (frames ++ [.ofFrame frame upper])
  | refused (run : QueueRun capacity queue frames) (frame : Frame) (lower : 1 ≤ frame.size)
      (upper : frame.size ≤ 240) (pushed : jdQueuePush queue frame = .ok (ret, next))
      (code : ret ≠ 0) : QueueRun capacity next frames
  | shift (run : QueueRun capacity queue frames) (present : jdQueueFront queue ≠ none)
      (shifted : jdQueueShift queue = .ok next) : QueueRun capacity next frames.tail

/-- What a consumer sees: read the front frame, shift, and repeat. -/
def drain : Nat → Queue → List (List UInt8)
  | 0, _ => []
  | fuel + 1, queue =>
    match jdQueueFront queue, jdQueueShift queue with
    | some offset, .ok next =>
      queue.data.read offset (frmSize (queue.frameAt offset)) :: drain fuel next
    | _, _ => []

theorem Holds.drain (holds : Holds queue frames) (small : queue.size ≤ 65535)
    (enough : frames.length ≤ fuel) : drain fuel queue = frames.map bytes := by
  induction fuel generalizing queue frames with
  | zero =>
    have empty : frames = [] := List.length_eq_zero_iff.mp (by omega)
    subst empty
    rfl
  | succ fuel ih =>
    cases frames with
    | nil => simp [Jacdac.drain, holds.front_nil]
    | cons record rest =>
      obtain ⟨offset, front, content, _⟩ := holds.front_cons
      obtain ⟨next, shifted, tail, size, _⟩ := holds.shift small
      have rest := ih tail (by omega) (by simpa using enough)
      simp only [Jacdac.drain, front, shifted, frameAt_size content, content, rest, List.map_cons]

theorem QueueRun.holds (run : QueueRun capacity queue frames) (small : capacity ≤ 65535) :
    Holds queue frames ∧ queue.size = capacity := by
  induction run with
  | alloc => exact ⟨.alloc capacity, u16_of_lt small⟩
  | push _ frame lower upper pushed ih =>
    obtain ⟨holds, size⟩ := ih
    rcases holds.push (by omega) lower upper with ⟨_, next, done, accepted⟩ | ⟨_, ret, code, done, _⟩
    · obtain ⟨_, rfl⟩ := Prod.mk.inj (Except.ok.inj (pushed.symm.trans done))
      exact ⟨accepted.holds, accepted.size.trans size⟩
    · obtain ⟨same, _⟩ := Prod.mk.inj (Except.ok.inj (pushed.symm.trans done))
      exact absurd same.symm code
  | refused _ frame lower upper pushed code ih =>
    obtain ⟨holds, size⟩ := ih
    rcases holds.push (by omega) lower upper with ⟨_, next, done, _⟩ | ⟨_, ret, _, done, _⟩
    · obtain ⟨same, _⟩ := Prod.mk.inj (Except.ok.inj (pushed.symm.trans done))
      exact absurd same code
    · obtain ⟨_, rfl⟩ := Prod.mk.inj (Except.ok.inj (pushed.symm.trans done))
      exact ⟨holds, size⟩
  | @shift queue frames next _ present shifted ih =>
    obtain ⟨holds, size⟩ := ih
    cases frames with
    | nil => exact absurd holds.front_nil present
    | cons record rest =>
      obtain ⟨after, done, tail, same, _⟩ := holds.shift (by omega)
      obtain rfl := Except.ok.inj (shifted.symm.trans done)
      exact ⟨tail, same.trans size⟩

/-- The frame queue is a FIFO in every reachable state, and neither push nor
shift can fail one of its assertions. -/
theorem queue_is_fifo (small : capacity ≤ 65535) (run : QueueRun capacity queue frames) :
    (jdQueueFront queue = none ↔ frames = []) ∧
    (∀ record rest, frames = record :: rest → ∃ offset, jdQueueFront queue = some offset ∧
      queue.data.read offset record.bytes.length = record.bytes) ∧
    (∀ fuel, frames.length ≤ fuel → drain fuel queue = frames.map bytes) ∧
    (∀ frame : Frame, 1 ≤ frame.size → frame.size ≤ 240 →
      ∃ ret next, jdQueuePush queue frame = .ok (ret, next) ∧
        (jdQueueWillFit queue (frmSize frame) = true ↔ ret = 0) ∧
        (ret = 0 →
          (∀ fuel, frames.length < fuel →
            drain fuel next = frames.map bytes ++ [frame.read 0 (frmSize frame)]) ∧
          (∀ cell, queue.Occupied cell → next.data cell = queue.data cell) ∧
          (frames ≠ [] → jdQueueFront next = jdQueueFront queue)) ∧
        (ret ≠ 0 → next = queue ∧
          capacity < queuedBytes frames + frmSize frame + frameStructSize)) ∧
    (jdQueueFront queue ≠ none → ∃ next, jdQueueShift queue = .ok next ∧
      ∀ fuel, frames.length ≤ fuel → drain fuel next = frames.tail.map bytes) := by
  obtain ⟨holds, size⟩ := run.holds small
  have bound : queue.size ≤ 65535 := by omega
  refine ⟨?_, ?_, fun fuel enough => holds.drain bound enough, ?_, ?_⟩
  · constructor
    · intro missing
      cases frames with
      | nil => rfl
      | cons record rest =>
        obtain ⟨offset, front, _⟩ := holds.front_cons
        rw [missing] at front
        cases front
    · rintro rfl
      exact holds.front_nil
  · rintro record rest rfl
    obtain ⟨offset, front, content, _⟩ := holds.front_cons
    exact ⟨offset, front, content⟩
  · intro frame lower upper
    rcases holds.push bound lower upper with
      ⟨fits, next, done, accepted⟩ | ⟨refused, ret, code, done, full⟩
    · refine ⟨0, next, done, by simp [fits], ?_, by simp⟩
      intro _
      refine ⟨fun fuel enough => ?_, accepted.kept, accepted.front⟩
      rw [accepted.holds.drain (by rw [accepted.size]; exact bound) (by simpa using Nat.succ_le_of_lt enough),
        List.map_append]
      rfl
    · exact ⟨ret, queue, done, by simp [refused, code], fun zero => absurd zero code,
        fun _ => ⟨rfl, by omega⟩⟩
  · intro present
    cases frames with
    | nil => exact absurd holds.front_nil present
    | cons record rest =>
      obtain ⟨next, shifted, tail, same, _⟩ := holds.shift bound
      refine ⟨next, shifted, fun fuel enough => tail.drain (by omega) ?_⟩
      simp only [List.length_cons] at enough
      omega

/-- A queue of 512 bytes after pushing one frame with four payload bytes. -/
theorem queue_is_fifo_after_push :
    ∃ queue offset, jdQueueFront queue = some offset ∧
      queue.data.read offset 16 = [0, 0, 4, 0, 0, 0, 0, 0, 0, 0, 0, 0, 0, 0, 0, 0] := by
  have run := QueueRun.push (@QueueRun.alloc 512)
    (fun cell => if cell = 2 then 4 else 0) (by decide) (by decide) rfl
  obtain ⟨offset, front, content⟩ := (queue_is_fifo (by decide) run).2.1 _ _ rfl
  exact ⟨_, offset, front, content⟩

end Jacdac
