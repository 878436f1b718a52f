import Jacdac.Queue.Ring

namespace Jacdac

/-- A frame as `jd_queue_push` stores it. The record delimits itself: its
length is `FRM_SIZE` recomputed from its own size byte. -/
structure QueuedFrame where
  bytes : List UInt8
  delimited : bytes.length = align ((bytes.getD 2 0).toNat + 12)
  bounded : bytes.length ≤ frameStructSize

namespace QueuedFrame

def ofFrame (frame : Frame) (upper : frame.size ≤ 240) : QueuedFrame where
  bytes := frame.read 0 (frmSize frame)
  delimited := by
    have inside : 2 < frmSize frame := by
      have := align_ge frame.frameSize
      unfold Frame.frameSize at this
      unfold frmSize Frame.frameSize
      omega
    rw [List.getD_eq_getElem?_getD, Memory.read_getElem? _ _ _ _ inside, Memory.read_length]
    rfl
  bounded := by
    simp only [Memory.read_length, frmSize, Frame.frameSize, align, frameStructSize]
    omega

theorem length_pos (record : QueuedFrame) : 12 ≤ record.bytes.length := by
  have := align_ge ((record.bytes.getD 2 0).toNat + 12)
  have := record.delimited
  omega

/-- The bytes of consecutive records. -/
def joined (frames : List QueuedFrame) : List UInt8 := (frames.map bytes).flatten

@[simp] theorem joined_nil : joined [] = [] := rfl

@[simp] theorem joined_cons (record : QueuedFrame) (rest : List QueuedFrame) :
    joined (record :: rest) = record.bytes ++ joined rest := by
  simp [joined]

@[simp] theorem joined_append (first second : List QueuedFrame) :
    joined (first ++ second) = joined first ++ joined second := by
  simp [joined]

theorem joined_eq_nil {frames : List QueuedFrame} (empty : (joined frames).length = 0) :
    frames = [] := by
  cases frames with
  | nil => rfl
  | cons record rest =>
    have := record.length_pos
    simp only [joined_cons, List.length_append] at empty
    omega

end QueuedFrame

open QueuedFrame

/-- `queue` stores exactly `frames`, oldest first: either in one run from
`front` to `back`, or wrapped, with the older part ending at `curr_size`. -/
inductive Holds (queue : Queue) : List QueuedFrame → Prop where
  | linear (order : queue.front ≤ queue.back) (inside : queue.back ≤ queue.size)
      (unmoved : queue.currSize = queue.size)
      (content : queue.data.read queue.front (queue.back - queue.front) = joined frames) :
      Holds queue frames
  | wrapped (order : queue.back < queue.front) (inside : queue.front ≤ queue.currSize)
      (bound : queue.currSize ≤ queue.size)
      (slack : queue.size < queue.currSize + frameStructSize)
      (upper : queue.data.read queue.front (queue.currSize - queue.front) = joined older)
      (lower : queue.data.read 0 queue.back = joined newer)
      (fresh : newer ≠ []) :
      Holds queue (older ++ newer)

/-- Cells of the ring that hold queued bytes. -/
def Queue.Occupied (queue : Queue) (cell : Nat) : Prop :=
  if queue.front ≤ queue.back then queue.front ≤ cell ∧ cell < queue.back
  else (queue.front ≤ cell ∧ cell < queue.currSize) ∨ cell < queue.back

theorem Holds.alloc (size : Nat) : Holds (jdQueueAlloc size) [] :=
  .linear (Nat.le_refl 0) (Nat.zero_le _) rfl rfl

theorem frameAt_size {queue : Queue} {offset : Nat} {record : QueuedFrame}
    (content : queue.data.read offset record.bytes.length = record.bytes) :
    frmSize (queue.frameAt offset) = record.bytes.length := by
  have long := record.length_pos
  have byte : record.bytes.getD 2 0 = queue.data (offset + 2) := by
    rw [← content, List.getD_eq_getElem?_getD, Memory.read_getElem? _ _ _ _ (by omega)]
    rfl
  rw [record.delimited, byte]
  rfl

private theorem read_head {memory : Memory} {offset length : Nat} {record : QueuedFrame}
    {rest : List QueuedFrame} (content : memory.read offset length = joined (record :: rest)) :
    record.bytes.length ≤ length ∧
      memory.read offset record.bytes.length = record.bytes ∧
      memory.read (offset + record.bytes.length) (length - record.bytes.length) = joined rest := by
  have total := congrArg List.length content
  simp only [Memory.read_length, joined_cons, List.length_append] at total
  refine ⟨by omega, ?_, ?_⟩
  · rw [← Memory.read_take _ _ length _ (by omega), content, joined_cons, List.take_left' rfl]
  · rw [← Memory.read_drop _ _ length _ (by omega), content, joined_cons, List.drop_left' rfl]

theorem Holds.front_nil (holds : Holds queue []) : jdQueueFront queue = none := by
  generalize same : ([] : List QueuedFrame) = frames at holds
  cases holds with
  | linear order inside unmoved content =>
    subst same
    have total := congrArg List.length content
    simp only [Memory.read_length, joined_nil, List.length_nil] at total
    simp only [jdQueueFront, ne_eq, ite_eq_right_iff]
    omega
  | wrapped _ _ _ _ _ _ fresh =>
    exact absurd (List.append_eq_nil_iff.mp same.symm).2 fresh

/-- The front pointer of a non-empty queue addresses its oldest frame. -/
theorem Holds.front_cons (holds : Holds queue (record :: rest)) :
    ∃ offset, jdQueueFront queue = some offset ∧
      queue.data.read offset record.bytes.length = record.bytes ∧
      ∀ cell, offset ≤ cell → cell < offset + record.bytes.length → queue.Occupied cell := by
  have long := record.length_pos
  generalize same : record :: rest = frames at holds
  cases holds with
  | linear order inside unmoved content =>
    subst same
    obtain ⟨short, head, _⟩ := read_head content
    refine ⟨queue.front, ?_, head, ?_⟩
    · simp only [jdQueueFront]
      rw [if_pos (by omega), if_neg (by omega)]
    · intro cell lower upper
      simp only [Queue.Occupied, if_pos order]
      omega
  | @wrapped older newer order inside bound slack upper lower fresh =>
    cases older with
    | nil =>
      have total := congrArg List.length upper
      simp only [Memory.read_length, joined_nil, List.length_nil] at total
      rw [List.nil_append] at same
      subst same
      obtain ⟨short, head, _⟩ := read_head lower
      refine ⟨0, ?_, head, ?_⟩
      · simp only [jdQueueFront]
        rw [if_pos (by omega), if_pos (by omega)]
      · intro cell _ below
        simp only [Queue.Occupied, if_neg (Nat.not_le.mpr order)]
        omega
    | cons first others =>
      rw [List.cons_append] at same
      obtain ⟨rfl, rfl⟩ := List.cons.inj same
      obtain ⟨short, head, _⟩ := read_head upper
      refine ⟨queue.front, ?_, head, ?_⟩
      · simp only [jdQueueFront]
        rw [if_pos (by omega), if_neg (by omega)]
      · intro cell above below
        simp only [Queue.Occupied, if_neg (Nat.not_le.mpr order)]
        omega

/-- Shifting drops the oldest frame and touches no byte. -/
theorem Holds.shift (holds : Holds queue (record :: rest)) (small : queue.size ≤ 65535) :
    ∃ next, jdQueueShift queue = .ok next ∧ Holds next rest ∧
      next.size = queue.size ∧ next.data = queue.data := by
  have long := record.length_pos
  generalize same : record :: rest = frames at holds
  cases holds with
  | linear order inside unmoved content =>
    subst same
    obtain ⟨short, head, tail⟩ := read_head content
    have front : jdQueueFront queue = some queue.front := by
      simp only [jdQueueFront]
      rw [if_pos (by omega), if_neg (by omega)]
    refine ⟨{ queue with front := queue.front + record.bytes.length }, ?_, ?_, rfl, rfl⟩
    · simp only [jdQueueShift, front, frameAt_size head]
      rw [if_neg (by omega), u16_of_lt (by omega)]
      rfl
    · refine .linear ?_ inside unmoved ?_
      · show queue.front + record.bytes.length ≤ queue.back
        omega
      · rw [← tail, Nat.sub_add_eq]
  | @wrapped older newer order inside bound slack upper lower fresh =>
    cases older with
    | nil =>
      -- The upper part is drained, so `front` sits on `curr_size` and moves to the start.
      have total := congrArg List.length upper
      simp only [Memory.read_length, joined_nil, List.length_nil] at total
      rw [List.nil_append] at same
      subst same
      obtain ⟨short, head, tail⟩ := read_head lower
      have front : jdQueueFront queue = some 0 := by
        simp only [jdQueueFront]
        rw [if_pos (by omega), if_pos (by omega)]
      refine ⟨{ queue with front := record.bytes.length, currSize := queue.size }, ?_, ?_, rfl, rfl⟩
      · simp only [jdQueueShift, front, frameAt_size head]
        rw [if_pos (by omega), if_neg (by omega), u16_of_lt (by omega)]
        rfl
      · refine .linear short ?_ rfl ?_
        · show queue.back ≤ queue.size
          omega
        · rw [← tail, Nat.zero_add]
    | cons first others =>
      rw [List.cons_append] at same
      obtain ⟨rfl, rfl⟩ := List.cons.inj same
      obtain ⟨short, head, tail⟩ := read_head upper
      have front : jdQueueFront queue = some queue.front := by
        simp only [jdQueueFront]
        rw [if_pos (by omega), if_neg (by omega)]
      refine ⟨{ queue with front := queue.front + record.bytes.length }, ?_, ?_, rfl, rfl⟩
      · simp only [jdQueueShift, front, frameAt_size head]
        rw [if_neg (by omega), u16_of_lt (by omega)]
        rfl
      · refine .wrapped ?_ ?_ bound slack ?_ lower fresh
        · show queue.back < queue.front + record.bytes.length
          omega
        · show queue.front + record.bytes.length ≤ queue.currSize
          omega
        · rw [← tail, Nat.sub_add_eq]

/-- The bytes a queue holds in total. -/
def queuedBytes (frames : List QueuedFrame) : Nat := (joined frames).length

/-- What an accepted push does: it appends the frame's record, keeps every
occupied byte and leaves a non-empty queue's front pointer where it was. -/
structure Accepted (queue next : Queue) (frames : List QueuedFrame) (record : QueuedFrame) :
    Prop where
  holds : Holds next (frames ++ [record])
  size : next.size = queue.size
  kept : ∀ cell, queue.Occupied cell → next.data cell = queue.data cell
  front : frames ≠ [] → jdQueueFront next = jdQueueFront queue

private theorem push_ok {queue moved : Queue} {frame : Frame} (lower : 1 ≤ frame.size)
    (reserved : reserve queue (frmSize frame) = (0, moved)) (front : moved.front ≤ moved.size)
    (back : moved.back ≤ moved.size) (curr : moved.currSize ≤ moved.size) :
    jdQueuePush queue frame = .ok (0, { moved with
      data := moved.data.write (moved.back - frmSize frame) (frame.read 0 (frmSize frame)) }) := by
  have positive : ¬ frame.size = 0 := by omega
  simp [jdQueuePush, positive, reserved, front, back, curr, pure, Except.pure]

private theorem push_refused {queue : Queue} {frame : Frame} {ret : Int} (lower : 1 ≤ frame.size)
    (reserved : reserve queue (frmSize frame) = (ret, queue)) (code : ret ≠ 0)
    (front : queue.front ≤ queue.size) (back : queue.back ≤ queue.size)
    (curr : queue.currSize ≤ queue.size) : jdQueuePush queue frame = .ok (ret, queue) := by
  have positive : ¬ frame.size = 0 := by omega
  simp [jdQueuePush, positive, reserved, front, back, curr, code, pure, Except.pure]

/-- A push that fits behind `back` extends the run. -/
private theorem accepted_linear {queue : Queue} {frames : List QueuedFrame} (record : QueuedFrame)
    (order : queue.front ≤ queue.back) (room : queue.back + record.bytes.length ≤ queue.size)
    (unmoved : queue.currSize = queue.size)
    (content : queue.data.read queue.front (queue.back - queue.front) = joined frames) :
    Accepted queue { queue with
      back := queue.back + record.bytes.length
      data := queue.data.write queue.back record.bytes } frames record := by
  have total := congrArg List.length content
  rw [Memory.read_length] at total
  refine ⟨.linear ?_ room unmoved ?_, rfl, ?_, ?_⟩
  · show queue.front ≤ queue.back + record.bytes.length
    omega
  · show Memory.read _ queue.front (queue.back + record.bytes.length - queue.front) = _
    rw [Nat.sub_add_comm order, Memory.read_append, Memory.read_write_disjoint (by omega), content,
      Nat.add_sub_cancel' order, Memory.read_write_self, joined_append, joined_cons, joined_nil,
      List.append_nil]
  · intro cell occupied
    simp only [Queue.Occupied, if_pos order] at occupied
    exact Memory.write_outside (by omega)
  · intro nonempty
    have apart : queue.front ≠ queue.back := fun same => nonempty (joined_eq_nil (by omega))
    have beyond : queue.front ≠ queue.back + record.bytes.length := by
      have := record.length_pos
      omega
    simp [jdQueueFront, apart, beyond]

/-- A push that does not fit behind `back` but before `front` starts a second
run at the beginning of the ring. -/
private theorem accepted_wrap {queue : Queue} {frames : List QueuedFrame} (record : QueuedFrame)
    (order : queue.front ≤ queue.back) (inside : queue.back ≤ queue.size)
    (beyond : queue.size < queue.back + record.bytes.length)
    (below : record.bytes.length < queue.front) (unmoved : queue.currSize = queue.size)
    (content : queue.data.read queue.front (queue.back - queue.front) = joined frames) :
    Accepted queue { queue with
      currSize := queue.back
      back := record.bytes.length
      data := queue.data.write 0 record.bytes } frames record := by
  have total := congrArg List.length content
  have bounded := record.bounded
  rw [Memory.read_length] at total
  refine ⟨.wrapped below order inside ?_ ?_ ?_ (by simp), rfl, ?_, ?_⟩
  · show queue.size < queue.back + frameStructSize
    omega
  · show Memory.read _ queue.front (queue.back - queue.front) = _
    rw [Memory.read_write_disjoint (by omega), content]
  · show Memory.read _ 0 record.bytes.length = _
    rw [Memory.read_write_self, joined_cons, joined_nil, List.append_nil]
  · intro cell occupied
    simp only [Queue.Occupied, if_pos order] at occupied
    have above : 0 + record.bytes.length ≤ cell := by omega
    exact Memory.write_outside (.inr above)
  · intro nonempty
    have apart : queue.front ≠ queue.back := fun same => nonempty (joined_eq_nil (by omega))
    have beyond : queue.front ≠ record.bytes.length := by omega
    have before : ¬ queue.front ≥ queue.back := by omega
    have start : ¬ queue.front ≥ queue.currSize := by omega
    simp only [jdQueueFront, if_pos apart, if_pos beyond, if_neg before, if_neg start]

/-- In a wrapped queue a push extends the lower run, strictly below `front`. -/
private theorem accepted_wrapped {queue : Queue} {older newer : List QueuedFrame}
    (record : QueuedFrame) (room : queue.back + record.bytes.length < queue.front)
    (inside : queue.front ≤ queue.currSize) (bound : queue.currSize ≤ queue.size)
    (slack : queue.size < queue.currSize + frameStructSize)
    (upper : queue.data.read queue.front (queue.currSize - queue.front) = joined older)
    (lower : queue.data.read 0 queue.back = joined newer) :
    Accepted queue { queue with
      back := queue.back + record.bytes.length
      data := queue.data.write queue.back record.bytes } (older ++ newer) record := by
  have order : ¬ queue.front ≤ queue.back := by omega
  refine ⟨?_, rfl, ?_, ?_⟩
  · rw [List.append_assoc]
    refine .wrapped room inside bound slack ?_ ?_ (by simp)
    · show Memory.read _ queue.front (queue.currSize - queue.front) = _
      rw [Memory.read_write_disjoint (by omega), upper]
    · show Memory.read _ 0 (queue.back + record.bytes.length) = _
      rw [Memory.read_append, Memory.read_write_disjoint (by omega), lower, Nat.zero_add,
        Memory.read_write_self, joined_append, joined_cons, joined_nil, List.append_nil]
  · intro cell occupied
    simp only [Queue.Occupied, if_neg order] at occupied
    exact Memory.write_outside (by omega)
  · intro _
    have apart : queue.front ≠ queue.back := by omega
    have beyond : queue.front ≠ queue.back + record.bytes.length := by omega
    simp only [jdQueueFront, if_pos apart, if_pos beyond]

/-- One push, from any queue that stores `frames`: `jd_queue_will_fit` decides
between appending the frame and refusing it with nothing changed. -/
theorem Holds.push (holds : Holds queue frames) (small : queue.size ≤ 65535)
    {frame : Frame} (lower : 1 ≤ frame.size) (upper : frame.size ≤ 240) :
    (jdQueueWillFit queue (frmSize frame) = true ∧
      ∃ next, jdQueuePush queue frame = .ok (0, next) ∧
        Accepted queue next frames (.ofFrame frame upper)) ∨
    (jdQueueWillFit queue (frmSize frame) = false ∧
      ∃ ret, ret ≠ 0 ∧ jdQueuePush queue frame = .ok (ret, queue) ∧
        queue.size < queuedBytes frames + frmSize frame + frameStructSize) := by
  have length : (QueuedFrame.ofFrame frame upper).bytes.length = frmSize frame :=
    Memory.read_length ..
  have bounded : frmSize frame ≤ frameStructSize := length ▸ QueuedFrame.bounded _
  have positive : 12 ≤ frmSize frame := length ▸ QueuedFrame.length_pos _
  have whole : frameStructSize = 252 := rfl
  cases holds with
  | linear order inside unmoved content =>
    have plain : u32 (queue.back + frmSize frame) = queue.back + frmSize frame := u32_of_lt (by omega)
    have total := congrArg List.length content
    rw [Memory.read_length] at total
    by_cases room : queue.back + frmSize frame ≤ queue.size
    · have reserved : reserve queue (frmSize frame) =
          (0, { queue with back := queue.back + frmSize frame }) := by
        rw [reserve, if_pos order, if_pos room, u16_of_lt (by omega)]
      have pushed := push_ok lower reserved (by simp; omega) room (by simp [unmoved])
      rw [Nat.add_sub_cancel] at pushed
      have accepted := accepted_linear (.ofFrame frame upper) order (by omega) unmoved content
      rw [length] at accepted
      exact .inl ⟨by simp [jdQueueWillFit, plain, order, room], _, pushed, accepted⟩
    · by_cases below : frmSize frame < queue.front
      · have reserved : reserve queue (frmSize frame) =
            (0, { queue with currSize := queue.back, back := frmSize frame }) := by
          rw [reserve, if_pos order, if_neg room, if_pos below, u16_of_lt (by omega)]
        have pushed := push_ok lower reserved (by simp; omega) (by simp; omega) inside
        rw [Nat.sub_self] at pushed
        have accepted := accepted_wrap (.ofFrame frame upper) order inside (by omega) (by omega)
          unmoved content
        rw [length] at accepted
        exact .inl ⟨by simp [jdQueueWillFit, plain, order, below], _, pushed, accepted⟩
      · have reserved : reserve queue (frmSize frame) = (-1, queue) := by
          rw [reserve, if_pos order, if_neg room, if_neg below]
        refine .inr ⟨by simp [jdQueueWillFit, plain, order, room, below], -1, by decide,
          push_refused lower reserved (by decide) (by omega) inside (by omega), ?_⟩
        unfold queuedBytes
        omega
  | @wrapped older newer order inside bound slack high low fresh =>
    have totalHigh := congrArg List.length high
    have totalLow := congrArg List.length low
    rw [Memory.read_length] at totalHigh totalLow
    have apart : ¬ queue.front ≤ queue.back := by omega
    have plain : u32 (queue.back + frmSize frame) = queue.back + frmSize frame := u32_of_lt (by omega)
    by_cases room : queue.back + frmSize frame < queue.front
    · have reserved : reserve queue (frmSize frame) =
          (0, { queue with back := queue.back + frmSize frame }) := by
        rw [reserve, if_neg apart, if_pos room, u16_of_lt (by omega)]
      have pushed := push_ok lower reserved (by simp; omega) (by simp; omega) bound
      rw [Nat.add_sub_cancel] at pushed
      have accepted := accepted_wrapped (.ofFrame frame upper) (by omega) inside bound slack
        high low
      rw [length] at accepted
      exact .inl ⟨by simp [jdQueueWillFit, plain, apart, room], _, pushed, accepted⟩
    · have reserved : reserve queue (frmSize frame) = (-2, queue) := by
        rw [reserve, if_neg apart, if_neg room]
      refine .inr ⟨by simp [jdQueueWillFit, plain, apart, room], -2, by decide,
        push_refused lower reserved (by decide) (by omega) (by omega) bound, ?_⟩
      unfold queuedBytes
      rw [joined_append, List.length_append]
      omega

end Jacdac
