import Jacdac.Frame.RoundTrip
import Jacdac.Queue.FifoInvariant

/-! `jd_services_process_frame` works on the frame where it lies in the receive
queue. What it leaves behind there stays inside the frame's own record. -/

namespace Jacdac

/-- The frame as the loop of `jd_services_process_frame` leaves it. -/
def processedFrame (touch : Frame → UInt8) : Nat → Frame → Frame
  | 0, frame => frame
  | fuel + 1, frame =>
    match jdShiftFrame (frame.setData 1 [touch frame]) with
    | (false, after) => after
    | (true, next) => processedFrame touch fuel next

/-- `crc`, `size` and everything behind the padded frame. -/
def OutsideRecord (frame : Frame) (cell : Nat) : Prop := cell < 3 ∨ frmSize frame ≤ cell

theorem jdShiftFrame_outside {frame : Frame} (outside : OutsideRecord frame cell) :
    (jdShiftFrame frame).2 cell = frame cell := by
  have whole : frmSize frame = align (frame.size + 12) := rfl
  have padded := align_ge (frame.size + 12)
  have start : Frame.dataOffset = 12 := rfl
  unfold OutsideRecord at outside
  have flags (value : UInt8) : (frame.setFlags value) cell = frame cell :=
    Memory.write_outside (by simp; omega)
  unfold jdShiftFrame
  dsimp only
  by_cases single : align ((frame.data 0).toNat + 4) ≥ frame.size
  · rw [if_pos single]
  rw [if_neg single]
  generalize chosen : (if frame.data ((frame.data 0).toNat + 4) = 0xff then
    (frame.data ((frame.data 0).toNat + 4 + 1)).toNat else align ((frame.data 0).toNat + 4)) = ptr
  by_cases corrupt : frame.data ((frame.data 0).toNat + 4) = 0xff ∧ (ptr ≥ frame.size ∨ ptr ≤ (frame.data 0).toNat + 4)
  · rw [if_pos corrupt]
  rw [if_neg corrupt, Frame.setFlags_data]
  by_cases beyond : ptr + ((frame.data ptr).toNat + 4) > frame.size
  · rw [if_pos beyond]
    exact flags _
  rw [if_neg beyond]
  -- The packet moves down, so what is written ends before the packet's old end.
  have ahead : 4 ≤ ptr := by
    have header := align_ge ((frame.data 0).toNat + 4)
    split at chosen
    · rename_i marked
      have after : ¬ ptr ≤ (frame.data 0).toNat + 4 := fun back => corrupt ⟨marked, .inr back⟩
      omega
    · omega
  have small := align_lt ((frame.data ptr).toNat + 4)
  have words : 4 * (((frame.data ptr).toNat + 4 + 3) / 4) = align ((frame.data ptr).toNat + 4) := by
    unfold align
    omega
  rw [jdWordMove_eq _ (by omega), words]
  simp only [Frame.setData]
  rw [Memory.write_outside (by simp; omega), Memory.write_outside (by simp; omega),
    Memory.write_outside (by simp; omega), flags]

theorem processedFrame_outside (touch : Frame → UInt8) (fuel : Nat) {frame : Frame} (lower : 1 ≤ frame.size)
    (outside : OutsideRecord frame cell) : processedFrame touch fuel frame cell = frame cell := by
  induction fuel generalizing frame with
  | zero => rfl
  | succ fuel ih =>
    have whole : frmSize frame = align (frame.size + 12) := rfl
    have room : 16 ≤ frmSize frame := by
      rw [whole]
      unfold align
      omega
    have touched : (frame.setData 1 [touch frame]) cell = frame cell := by
      have start : Frame.dataOffset = 12 := rfl
      unfold OutsideRecord at outside
      exact Memory.write_outside (by simp; omega)
    have size : (frame.setData 1 [touch frame]).size = frame.size := Frame.setData_size ..
    have inside : OutsideRecord (frame.setData 1 [touch frame]) cell := by
      unfold OutsideRecord frmSize Frame.frameSize at outside ⊢
      rwa [size]
    have shifted := jdShiftFrame_outside inside
    have length : (jdShiftFrame (frame.setData 1 [touch frame])).2.size = frame.size := by
      have byte : (jdShiftFrame (frame.setData 1 [touch frame])).2 2 = (frame.setData 1 [touch frame]) 2 :=
        jdShiftFrame_outside (.inl (by decide))
      exact (congrArg UInt8.toNat byte).trans size
    rw [processedFrame]
    generalize jdShiftFrame (frame.setData 1 [touch frame]) = result at shifted length
    obtain ⟨more, next⟩ := result
    cases more with
    | false => exact shifted.trans touched
    | true =>
      have kept : OutsideRecord next cell := by
        have same : next.size = frame.size := length
        unfold OutsideRecord frmSize Frame.frameSize at outside ⊢
        rwa [same]
      have still : 1 ≤ next.size := length ▸ lower
      exact (ih still kept).trans (shifted.trans touched)

def Queue.setFrameAt (queue : Queue) (offset : Nat) (frame : Frame) : Queue :=
  { queue with data := fun cell => if offset ≤ cell then frame (cell - offset) else queue.data cell }

/-- A rewritten frame keeps its size, and no other cell changes. -/
structure EditedRecord (queue : Queue) (offset : Nat) (record : QueuedFrame) (frame : Frame) : Prop where
  same : ∀ cell, cell < 3 ∨ record.bytes.length ≤ cell → frame cell = queue.data (offset + cell)

theorem EditedRecord.data {queue : Queue} {record : QueuedFrame} {frame : Frame}
    (edit : EditedRecord queue offset record frame) (apart : cell < offset + 3 ∨ offset + record.bytes.length ≤ cell) :
    (queue.setFrameAt offset frame).data cell = queue.data cell := by
  change (if offset ≤ cell then frame (cell - offset) else queue.data cell) = _
  by_cases inside : offset ≤ cell
  · rw [if_pos inside, edit.same _ (by omega), Nat.add_sub_cancel' inside]
  · rw [if_neg inside]

def EditedRecord.record {queue : Queue} {record : QueuedFrame} {frame : Frame}
    (edit : EditedRecord queue offset record frame)
    (content : queue.data.read offset record.bytes.length = record.bytes) : QueuedFrame where
  bytes := (queue.setFrameAt offset frame).data.read offset record.bytes.length
  delimited := by
    have long := record.length_pos
    have byte : record.bytes.getD 2 0 = queue.data (offset + 2) := by
      rw [← content, List.getD_eq_getElem?_getD, Memory.read_getElem? _ _ _ _ (by omega)]
      rfl
    rw [List.getD_eq_getElem?_getD, Memory.read_getElem? _ _ _ _ (by omega), Memory.read_length,
      edit.data (.inl (by omega))]
    exact byte ▸ record.delimited
  bounded := by
    rw [Memory.read_length]
    exact record.bounded

open QueuedFrame in
private theorem read_edited {queue : Queue} {record : QueuedFrame} {rest : List QueuedFrame} {frame : Frame}
    (edit : EditedRecord queue offset record frame)
    (content : queue.data.read offset record.bytes.length = record.bytes)
    (whole : queue.data.read offset length = joined (record :: rest)) :
    (queue.setFrameAt offset frame).data.read offset length = joined (edit.record content :: rest) := by
  have total := congrArg List.length whole
  simp only [Memory.read_length, joined_cons, List.length_append] at total
  have tail : queue.data.read (offset + record.bytes.length) (length - record.bytes.length) = joined rest := by
    rw [← Memory.read_drop _ _ length _ (by omega), whole, joined_cons, List.drop_left' rfl]
  have split : length = record.bytes.length + (length - record.bytes.length) := by omega
  rw [split, Memory.read_append, joined_cons, ← tail]
  refine congrArg₂ _ rfl (Memory.read_congr fun cell lower _ => ?_)
  exact edit.data (.inr lower)

/-- The queue still stores its frames when the front one is rewritten in place. -/
theorem Holds.edited {queue : Queue} {record : QueuedFrame} {frame : Frame} (holds : Holds queue (record :: rest))
    (front : jdQueueFront queue = some offset) (edit : EditedRecord queue offset record frame) :
    ∃ changed : QueuedFrame, Holds (queue.setFrameAt offset frame) (changed :: rest) := by
  obtain ⟨place, found, content, _⟩ := holds.front_cons
  obtain rfl : place = offset := Option.some.inj (found.symm.trans front)
  refine ⟨edit.record content, ?_⟩
  generalize same : record :: rest = frames at holds
  cases holds with
  | linear order inside unmoved stored =>
    subst same
    have total := congrArg List.length stored
    have long := record.length_pos
    simp only [Memory.read_length, QueuedFrame.joined_cons, List.length_append] at total
    obtain rfl : queue.front = place := by
      simp only [jdQueueFront] at front
      rw [if_pos (by omega), if_neg (by omega)] at front
      exact Option.some.inj front
    exact .linear order inside unmoved (read_edited edit content stored)
  | @wrapped older newer order inside bound slack upper lower fresh =>
    cases older with
    | nil =>
      have total := congrArg List.length upper
      simp only [Memory.read_length, QueuedFrame.joined_nil, List.length_nil] at total
      obtain rfl : 0 = place := by
        simp only [jdQueueFront] at front
        rw [if_pos (by omega), if_pos (by omega)] at front
        exact Option.some.inj front
      rw [List.nil_append] at same
      subst same
      have high : (queue.setFrameAt 0 frame).data.read queue.front (queue.currSize - queue.front) =
          QueuedFrame.joined [] := by
        rw [show queue.currSize - queue.front = 0 by omega]
        rfl
      have low := read_edited edit content lower
      rw [← List.nil_append (edit.record content :: rest)]
      exact .wrapped order inside bound slack high low (by simp)
    | cons first others =>
      rw [List.cons_append] at same
      obtain ⟨rfl, rfl⟩ := List.cons.inj same
      have total := congrArg List.length upper
      have long := record.length_pos
      simp only [Memory.read_length, QueuedFrame.joined_cons, List.length_append] at total
      obtain rfl : queue.front = place := by
        simp only [jdQueueFront] at front
        rw [if_pos (by omega), if_neg (by omega)] at front
        exact Option.some.inj front
      have low : (queue.setFrameAt queue.front frame).data.read 0 queue.back = QueuedFrame.joined newer := by
        rw [← lower]
        exact Memory.read_congr fun cell _ upper => edit.data (.inl (by omega))
      have high := read_edited edit content upper
      rw [← List.cons_append]
      exact .wrapped order inside bound slack high low fresh

end Jacdac
