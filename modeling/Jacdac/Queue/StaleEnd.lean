import Jacdac.Queue.Clear

/-! When a cleared queue acts as a new one: exactly when no frame fits behind the
`curr_size` it was left with. -/

namespace Jacdac

open QueuedFrame

variable {capacity : Nat} {queue other next : Queue} {frames : List QueuedFrame}

def sized (size : Nat) (flags : UInt8) : Frame := fun cell => if cell = 2 then .ofNat size else if cell = 3 then flags else 0

theorem sized_size (small : size < 256) (flags : UInt8) : (sized size flags).size = size := by
  have byte : (sized size flags) 2 = .ofNat size := rfl
  rw [Frame.size, byte, UInt8.toNat_ofNat_of_lt' small]

theorem frmSize_sized (small : size < 256) (flags : UInt8) : frmSize (sized size flags) = align (size + 12) := by
  rw [frmSize, Frame.frameSize, sized_size small]

def Queue.behind (queue : Queue) (frame : Frame) : Queue :=
  { queue with
    back := queue.back + frmSize frame
    data := queue.data.write queue.back (frame.read 0 (frmSize frame)) }

theorem push_empty {frame : Frame} (within : queue.Within) (empty : queue.front = queue.back) (lower : 1 ≤ frame.size)
    (room : queue.back + frmSize frame ≤ queue.size) : jdQueuePush queue frame = .ok (0, queue.behind frame) := by
  have small := within.small
  have moved : reserve queue (frmSize frame) = (0, { queue with back := queue.back + frmSize frame }) := by
    rw [reserve, if_pos (Nat.le_of_eq empty), if_pos room, u16_of_lt (by omega)]
  rw [push_stored within lower, stored, moved]
  dsimp only
  rw [if_pos rfl, Nat.add_sub_cancel]
  rfl

theorem frmSize_pos (frame : Frame) : 12 ≤ frmSize frame := by
  have whole := align_ge frame.frameSize
  unfold Frame.frameSize at whole
  unfold frmSize Frame.frameSize
  omega

theorem behind_cell (queue : Queue) (frame : Frame) (inside : offset < frmSize frame) :
    (queue.behind frame).data (queue.back + offset) = frame offset := by
  have cell := @Memory.write_read_inside queue.data frame queue.back 0 (frmSize frame) offset inside
  rwa [Nat.zero_add] at cell

theorem behind_frmSize (queue : Queue) (frame : Frame) : frmSize ((queue.behind frame).frameAt queue.back) = frmSize frame := by
  have long := frmSize_pos frame
  have byte : (queue.behind frame).frameAt queue.back 2 = frame 2 := behind_cell queue frame (by omega)
  rw [frmSize, Frame.frameSize, Frame.size, byte]
  rfl

theorem front_behind (empty : queue.front = queue.back) (frame : Frame) :
    jdQueueFront (queue.behind frame) = some (if queue.currSize ≤ queue.front then 0 else queue.front) := by
  have long := frmSize_pos frame
  have apart : (queue.behind frame).front ≠ (queue.behind frame).back := by
    change queue.front ≠ queue.back + frmSize frame
    omega
  rw [jdQueueFront, if_pos apart]
  exact (apply_ite some ..).symm

theorem shift_behind (within : queue.Within) (empty : queue.front = queue.back) (frame : Frame)
    (room : queue.back + frmSize frame ≤ queue.size) (before : queue.front < queue.currSize) :
    jdQueueShift (queue.behind frame) = .ok { queue.behind frame with front := queue.front + frmSize frame } := by
  have small := within.small
  have front := front_behind empty frame
  rw [if_neg (Nat.not_le.mpr before)] at front
  have inside : ¬ (queue.behind frame).front ≥ (queue.behind frame).currSize := Nat.not_le.mpr before
  have start : (queue.behind frame).front = queue.front := rfl
  simp only [jdQueueShift, front, if_neg inside]
  rw [start, empty, behind_frmSize, u16_of_lt (by omega)]
  rfl

/-- The calls move an empty queue on, whatever its content. -/
def Advances (calls : List QueueCall) (replies : List (Except QueueFault QueueAnswer)) (amount : Nat) : Prop :=
  ∀ queue : Queue, queue.Within → queue.front = queue.back → queue.back + amount ≤ queue.currSize →
    ∃ next : Queue, next.Within ∧ next.front = queue.front + amount ∧ next.front = next.back ∧ next.size = queue.size ∧
      next.currSize = queue.currSize ∧ ∀ rest, answers (calls ++ rest) queue = replies ++ answers rest next

/-- One frame pushed and shifted. -/
theorem advances_frame (lower : 1 ≤ size) (upper : size ≤ 240) :
    ∃ calls replies, Advances calls replies (align (size + 12)) := by
  have small : size < 256 := by omega
  have length := frmSize_sized small 0
  have own := sized_size small 0
  have pushable : 1 ≤ (sized size 0).size := by omega
  refine ⟨[.push (sized size 0) pushable (by omega), .shift], [.ok (.pushed 0), .ok .shifted],
    fun queue within empty room => ?_⟩
  have bounds := within.currSize
  have whole := align_ge (size + 12)
  have fits : queue.back + frmSize (sized size 0) ≤ queue.size := by omega
  refine ⟨{ queue.behind (sized size 0) with front := queue.front + frmSize (sized size 0) },
    ⟨within.small, ?_, fits, bounds⟩, ?_, ?_, rfl, rfl, fun rest => ?_⟩
  · change queue.front + frmSize (sized size 0) ≤ queue.size
    omega
  · rw [length]
  · change queue.front + frmSize (sized size 0) = queue.back + frmSize (sized size 0)
    rw [empty]
  · have pushed := push_empty within empty pushable fits
    have shifted := shift_behind within empty (sized size 0) fits (by omega)
    simp only [List.cons_append, List.nil_append, answers, QueueCall.run, pushed, shifted, Except.map]

theorem Advances.append (first : Advances calls replies amount) (second : Advances more later distance) :
    Advances (calls ++ more) (replies ++ later) (amount + distance) := by
  intro queue within empty room
  obtain ⟨middle, inside, moved, still, size, curr, one⟩ := first queue within empty (by omega)
  obtain ⟨next, ends, gone, done, whole, last, two⟩ := second middle inside still (by omega)
  refine ⟨next, ends, by omega, done, whole.trans size, last.trans curr, fun rest => ?_⟩
  rw [List.append_assoc, one, two, List.append_assoc]

/-- An empty queue can be moved to every multiple of four from 16 on. -/
theorem exists_advances (amount : Nat) (whole : amount % 4 = 0) (large : 16 ≤ amount) :
    ∃ calls replies, Advances calls replies amount := by
  induction amount using Nat.strong_induction_on with
  | _ amount ih =>
    by_cases short : amount < 32
    · obtain ⟨calls, replies, advances⟩ := @advances_frame (amount - 12) (by omega) (by omega)
      have same : align (amount - 12 + 12) = amount := by
        unfold align
        omega
      exact ⟨calls, replies, same ▸ advances⟩
    · obtain ⟨calls, replies, advances⟩ := ih (amount - 16) (by omega) (by omega) (by omega)
      obtain ⟨more, later, further⟩ := @advances_frame 4 (by decide) (by decide)
      have together := advances.append further
      have same : amount - 16 + align (4 + 12) = amount := by
        change amount - 16 + 16 = amount
        omega
      exact ⟨_, _, same ▸ together⟩

/-- The indices are at word boundaries, except for an end that was never moved. -/
structure Queue.Words (queue : Queue) : Prop where
  front : queue.front % 4 = 0
  back : queue.back % 4 = 0
  currSize : queue.currSize = queue.size ∨ queue.currSize % 4 = 0

theorem Queue.Words.of_indices (words : queue.Words) (same : other.indices = queue.indices) : other.Words := by
  obtain ⟨front, back, size, curr⟩ := indices_iff.mp same
  exact ⟨front ▸ words.front, back ▸ words.back, by rw [curr, size]; exact words.currSize⟩

theorem frmSize_mod (frame : Frame) : frmSize frame % 4 = 0 := align_mod _

theorem u16_mod (value : Nat) : u16 value % 4 = value % 4 := by
  unfold u16
  omega

theorem Queue.Words.reserve (words : queue.Words) (frame : Frame) : (reserve queue (frmSize frame)).2.Words := by
  have size := frmSize_mod frame
  obtain ⟨front, back, curr⟩ := words
  have moved : u16 (queue.back + frmSize frame) % 4 = 0 := by
    rw [u16_mod]
    omega
  have start : u16 (frmSize frame) % 4 = 0 := by
    rw [u16_mod]
    exact size
  unfold Jacdac.reserve
  split
  · split
    · exact ⟨front, moved, curr⟩
    · split
      · exact ⟨front, start, .inr back⟩
      · exact ⟨front, back, curr⟩
  · split
    · exact ⟨front, moved, curr⟩
    · exact ⟨front, back, curr⟩

theorem Queue.Words.push (words : queue.Words) (within : queue.Within) {frame : Frame} {ret : Int}
    (lower : 1 ≤ frame.size) (pushed : jdQueuePush queue frame = .ok (ret, next)) : next.Words := by
  rw [push_stored within lower] at pushed
  obtain rfl : (stored queue frame).2 = next := congrArg Prod.snd (Except.ok.inj pushed)
  refine (words.reserve frame).of_indices ?_
  unfold stored
  dsimp only
  split <;> rfl

theorem Queue.Words.shift (words : queue.Words) (present : jdQueueFront queue ≠ none)
    (shifted : jdQueueShift queue = .ok next) : next.Words := by
  obtain ⟨offset, front⟩ := Option.ne_none_iff_exists'.mp present
  have moved := shift_indices front shifted
  have size := frmSize_mod (queue.frameAt offset)
  have start := words.front
  split at moved
  · simp only [Queue.indices, Prod.mk.injEq] at moved
    obtain ⟨front, back, whole, curr⟩ := moved
    refine ⟨?_, back ▸ words.back, .inl (curr.trans whole.symm)⟩
    rw [front, u16_mod]
    exact size
  · simp only [Queue.indices, Prod.mk.injEq] at moved
    obtain ⟨front, back, whole, curr⟩ := moved
    refine ⟨?_, back ▸ words.back, by rw [curr, whole]; exact words.currSize⟩
    rw [front, u16_mod]
    omega

theorem QueueRun.words (run : QueueRun capacity queue frames) (small : capacity ≤ 65535) : queue.Words := by
  induction run with
  | alloc => exact ⟨rfl, rfl, .inl rfl⟩
  | push run frame lower upper pushed ih | refused run frame lower upper pushed code ih =>
    obtain ⟨holds, size⟩ := run.holds small
    exact ih.push (holds.within (by omega)) lower pushed
  | shift run present shifted ih => exact ih.shift present shifted

/-- An end that was moved is far enough from the start for a frame. -/
theorem QueueRun.stale_end (run : QueueRun capacity queue frames) (small : capacity ≤ 65535)
    (moved : queue.currSize ≠ queue.size) : queue.currSize % 4 = 0 ∧ 16 ≤ queue.currSize := by
  obtain ⟨holds, size⟩ := run.holds small
  obtain ⟨front, back, curr⟩ := run.words small
  refine ⟨curr.resolve_left moved, ?_⟩
  cases holds with
  | linear _ _ unmoved _ => exact absurd unmoved moved
  | @wrapped older newer order inside bound slack upper lower fresh =>
    obtain ⟨record, rest, rfl⟩ := List.exists_cons_of_ne_nil fresh
    have long := record.length_pos
    have total := congrArg List.length lower
    rw [Memory.read_length, joined_cons, List.length_append] at total
    omega

/-- At a stale end a frame is stored there and read at the start of the ring. -/
theorem front_at_end (empty : queue.front = queue.back) (stale : queue.currSize ≤ queue.front) (start : 4 ≤ queue.back)
    (frame : Frame) : ∃ bytes, frontBytes (queue.behind frame) = some bytes ∧ bytes.getD 3 0 = queue.data 3 := by
  have front := front_behind empty frame
  rw [if_pos stale] at front
  have long := frmSize_pos ((queue.behind frame).frameAt 0)
  refine ⟨_, by rw [frontBytes, front]; rfl, ?_⟩
  rw [List.getD_eq_getElem?_getD, Memory.read_getElem? _ _ _ _ (by omega)]
  exact Memory.write_outside (.inl (by omega))

/-- Before the end a frame is read where it is stored. -/
theorem front_before_end (empty : queue.front = queue.back) (before : queue.front < queue.currSize) (frame : Frame) :
    ∃ bytes, frontBytes (queue.behind frame) = some bytes ∧ bytes.getD 3 0 = frame 3 := by
  have front := front_behind empty frame
  rw [if_neg (Nat.not_le.mpr before)] at front
  have long := frmSize_pos frame
  refine ⟨_, by rw [frontBytes, front]; rfl, ?_⟩
  dsimp only
  rw [empty, behind_frmSize, List.getD_eq_getElem?_getD, Memory.read_getElem? _ _ _ _ (by omega)]
  exact behind_cell queue frame (by omega)

theorem stale_end_shows (within : queue.Within) (whole : queue.currSize % 4 = 0) (large : 16 ≤ queue.currSize)
    (room : queue.currSize + 16 ≤ queue.size) : ¬ ActsAsNew (jdQueueClear queue) := by
  intro same
  obtain ⟨calls, replies, advances⟩ := exists_advances queue.currSize whole large
  have small := within.small
  have size : u16 queue.size = queue.size := u16_of_lt small
  obtain ⟨left, inside, front, empty, width, curr, one⟩ := advances (jdQueueClear queue)
    ⟨small, Nat.zero_le _, Nat.zero_le _, within.currSize⟩ rfl (Nat.le_of_eq (Nat.zero_add _))
  have fresh : (jdQueueAlloc queue.size).Within := by
    refine ⟨?_, Nat.zero_le _, Nat.zero_le _, Nat.le_refl _⟩
    change u16 queue.size ≤ 65535
    omega
  obtain ⟨right, within', front', empty', width', curr', two⟩ := advances (jdQueueAlloc queue.size) fresh rfl
    (by change 0 + _ ≤ u16 _; omega)
  have frontLeft : left.front = queue.currSize := front.trans (Nat.zero_add _)
  have frontRight : right.front = queue.currSize := front'.trans (Nat.zero_add _)
  have currRight : right.currSize = queue.size := curr'.trans size
  have sizeRight : right.size = queue.size := width'.trans size
  -- The last frame differs from what the start of the ring holds by then.
  let frame := sized 4 (left.data 3 + 1)
  have own : frame.size = 4 := sized_size (by decide) _
  have length : frmSize frame = 16 := frmSize_sized (by decide) _
  have pushLeft := push_empty inside empty (by omega : 1 ≤ frame.size) (by rw [length, width]; change _ ≤ queue.size; omega)
  have pushRight := push_empty within' empty' (by omega : 1 ≤ frame.size) (by omega)
  obtain ⟨stale, frontStale, byteStale⟩ := front_at_end empty (by rw [curr]; change queue.currSize ≤ _; omega) (by omega) frame
  obtain ⟨new, frontNew, byteNew⟩ := front_before_end empty' (by omega) frame
  have tail := (same (calls ++ [.push frame (by omega) (by omega), .front])).1
  rw [one] at tail
  have width : (jdQueueClear queue).size = queue.size := rfl
  rw [width, two, List.append_cancel_left_eq] at tail
  simp only [answers, QueueCall.run, pushLeft, pushRight, Except.map, frontStale, frontNew, List.cons.injEq, Except.ok.injEq,
    QueueAnswer.front.injEq, Option.some.injEq, true_and, and_true] at tail
  rw [tail, byteNew] at byteStale
  have flags : frame 3 = left.data 3 + 1 := rfl
  rw [flags] at byteStale
  exact absurd byteStale (by simp)

/-- A cleared queue acts as a new one exactly when fewer bytes than the smallest
frame has lie behind its `curr_size`. -/
theorem queue_clear_resets_iff (small : capacity ≤ 65535) (run : QueueRun capacity queue frames) :
    ActsAsNew (jdQueueClear queue) ↔ capacity < queue.currSize + 16 := by
  obtain ⟨holds, size⟩ := run.holds small
  have within := holds.within (by omega)
  constructor
  · intro same
    by_contra far
    obtain ⟨whole, large⟩ := run.stale_end small (by omega)
    exact stale_end_shows within whole large (by omega) same
  · intro near
    exact clear_acts_as_new within.small within.currSize (by omega)

theorem queue_clear_resets_iff_linear :
    ∃ queue frames, QueueRun 512 queue frames ∧ frames ≠ [] ∧ ActsAsNew (jdQueueClear queue) := by
  have run := QueueRun.push (@QueueRun.alloc 512) (sized 4 0) (by decide) (by decide) rfl
  exact ⟨_, _, run, by simp, (queue_clear_resets_iff (by decide) run).mpr (by decide)⟩

/-- A frame of 40 bytes passes through a queue of 64; the next, of 28, wraps. -/
theorem queue_clear_keeps_end :
    ¬ ∀ capacity queue frames, capacity ≤ 65535 → QueueRun capacity queue frames → ActsAsNew (jdQueueClear queue) := by
  intro holds
  have one := QueueRun.push (@QueueRun.alloc 64) (sized 28 0) (by decide) (by decide) rfl
  have two := one.shift (by decide) rfl
  have three := two.push (sized 16 0) (by decide) (by decide) rfl
  obtain ⟨whole, large⟩ := three.stale_end (by decide) (by decide)
  have within := (three.holds (by decide)).1.within (by decide)
  exact stale_end_shows within whole large (by decide) (holds 64 _ _ (by decide) three)

end Jacdac
