import Jacdac.Queue.Bytes

/-! The byte queue as a list of bytes, in every state its operations reach. -/

namespace Jacdac

/-- Where a queue keeps its bytes: in one piece, or in two around the physical end. -/
inductive Pieces (queue : ByteQueue) : List UInt8 → Prop where
  | straight (order : queue.front ≤ queue.back) :
    Pieces queue (queue.data.read queue.front (queue.back - queue.front))
  | wrapped (order : queue.back < queue.front) :
    Pieces queue (queue.data.read queue.front (queue.size - queue.front) ++ queue.data.read 0 queue.back)

theorem Pieces.of_straight (order : queue.front ≤ queue.back)
    (same : queue.data.read queue.front (queue.back - queue.front) = bytes) : Pieces queue bytes :=
  same ▸ .straight order

theorem Pieces.of_wrapped (order : queue.back < queue.front)
    (same : queue.data.read queue.front (queue.size - queue.front) ++ queue.data.read 0 queue.back = bytes) :
    Pieces queue bytes :=
  same ▸ .wrapped order

/-- A queue that stores exactly these bytes, oldest first. -/
structure Stores (queue : ByteQueue) (bytes : List UInt8) : Prop where
  front : queue.front < queue.size
  back : queue.back < queue.size
  size : queue.size ≤ 65535
  filled : queue.filled = bytes.length
  pieces : Pieces queue bytes

namespace Stores

variable {queue : ByteQueue} {bytes : List UInt8}

theorem length_eq (stores : Stores queue bytes) :
    (queue.front ≤ queue.back ∧ bytes.length = queue.back - queue.front) ∨
      (queue.back < queue.front ∧ bytes.length = queue.size - queue.front + queue.back) := by
  cases stores.pieces with
  | straight order => exact .inl ⟨order, Memory.read_length _ _ _⟩
  | wrapped order => exact .inr ⟨order, by simp⟩

theorem length_lt (stores : Stores queue bytes) : bytes.length < queue.size := by
  have front := stores.front
  have back := stores.back
  rcases stores.length_eq with ⟨order, length⟩ | ⟨order, length⟩ <;> omega

theorem validate (stores : Stores queue bytes) : queue.validate = .ok () := by
  have less := stores.length_lt
  have filled := stores.filled
  have front := stores.front
  refine if_pos ⟨?_, stores.front, stores.back, by omega⟩
  rcases stores.length_eq with ⟨order, length⟩ | ⟨order, length⟩
  · rw [if_pos order]
    omega
  · rw [if_neg (by omega)]
    omega

theorem alloc (lower : 1 ≤ capacity) (upper : capacity ≤ 65535) : Stores (jdBqueueAlloc capacity) [] where
  front := by rw [jdBqueueAlloc, u16_of_lt upper]; exact lower
  back := by rw [jdBqueueAlloc, u16_of_lt upper]; exact lower
  size := by rw [jdBqueueAlloc, u16_of_lt upper]; exact upper
  filled := rfl
  pieces := .straight (Nat.le_refl 0)

theorem clear (stores : Stores queue bytes) : Stores queue.clear [] where
  front := Nat.zero_lt_of_lt stores.front
  back := Nat.zero_lt_of_lt stores.back
  size := stores.size
  filled := rfl
  pieces := .straight (Nat.le_refl 0)

/-- The bytes up to the physical end can be read in one go. -/
theorem available (stores : Stores queue bytes) : ∃ ret, queue.availableContData = .ok ret ∧
    ret ≤ bytes.length ∧ queue.front + ret ≤ queue.size ∧
    (ret = bytes.length ∨ queue.front + ret = queue.size) ∧
    ∀ count ≤ ret, queue.data.read queue.front count = bytes.take count := by
  have front := stores.front
  have back := stores.back
  have filled := stores.filled
  cases stores.pieces with
  | straight order =>
    rw [Memory.read_length] at filled
    refine ⟨queue.back - queue.front, ?_, by simp, by omega, by simp, fun count inside => ?_⟩
    · rw [ByteQueue.availableContData, if_pos order, if_pos (by omega)]
    · rw [Memory.read_take _ _ _ _ inside]
  | wrapped order =>
    rw [List.length_append, Memory.read_length, Memory.read_length] at filled
    refine ⟨queue.size - queue.front, ?_, by simp, by omega, by omega, fun count inside => ?_⟩
    · rw [ByteQueue.availableContData, if_neg (Nat.not_le.mpr order), if_pos (by omega)]
    · rw [List.take_append_of_le_length (by simpa using inside), Memory.read_take _ _ _ _ inside]

/-- The queue after `jd_bqueue_cont_data_advance`. -/
def advanced (queue : ByteQueue) (sz : Nat) : ByteQueue :=
  { queue with
    front := if queue.front + sz = queue.size then 0 else queue.front + sz
    filled := queue.filled - sz }

/-- Advancing inside the first piece drops that many bytes. -/
theorem advance (stores : Stores queue bytes) (inside : sz ≤ bytes.length)
    (cont : queue.front + sz ≤ queue.size) :
    queue.contDataAdvance sz = .ok (advanced queue sz) ∧ Stores (advanced queue sz) (bytes.drop sz) := by
  have front := stores.front
  have back := stores.back
  have size := stores.size
  have filled := stores.filled
  have less := stores.length_lt
  have moved : u16 (queue.front + sz) = queue.front + sz := u16_of_lt (by omega)
  have fewer : u16 (queue.filled + 65536 - sz) = queue.filled - sz := by unfold u16; omega
  have next : Stores (advanced queue sz) (bytes.drop sz) := by
    refine ⟨?_, back, size, by rw [List.length_drop, ← filled]; rfl, ?_⟩
    · simp only [advanced]
      split <;> omega
    · cases stores.pieces with
      | straight order =>
        rw [Memory.read_length] at inside
        rw [Memory.read_drop _ _ _ _ inside]
        have short : queue.front + sz ≠ queue.size := by omega
        have place : (advanced queue sz).front = queue.front + sz := if_neg short
        have pieces := @Pieces.straight (advanced queue sz) (by rw [place]; simp only [advanced]; omega)
        rw [place] at pieces
        rwa [show queue.back - queue.front - sz = (advanced queue sz).back - (queue.front + sz) by
          simp only [advanced]; omega]
      | wrapped order =>
        by_cases beyond : queue.front + sz = queue.size
        · have place : (advanced queue sz).front = 0 := if_pos beyond
          rw [List.drop_left' (by rw [Memory.read_length]; omega)]
          have pieces := @Pieces.straight (advanced queue sz) (by rw [place]; exact Nat.zero_le _)
          rwa [place] at pieces
        · have place : (advanced queue sz).front = queue.front + sz := if_neg beyond
          rw [List.drop_append_of_le_length (by rw [Memory.read_length]; omega),
            Memory.read_drop _ _ _ _ (by omega), Nat.sub_sub]
          have pieces := @Pieces.wrapped (advanced queue sz) (by rw [place]; simp only [advanced]; omega)
          rwa [place] at pieces
  refine ⟨?_, next⟩
  have valid := next.validate
  simp only [ByteQueue.contDataAdvance, moved, fewer]
  rw [advanced] at valid
  rw [valid]
  rfl

/-- `jd_bqueue_pop_at_most` pops the oldest bytes, across the physical end if it must. -/
theorem popAtMost (stores : Stores queue bytes) (maxsize : Nat) :
    ∃ next, queue.popAtMost maxsize = .ok (bytes.take maxsize, next) ∧
      Stores next (bytes.drop maxsize) ∧ next.size = queue.size := by
  obtain ⟨ret, available, within, cont, last, oldest⟩ := stores.available
  have first : min ret maxsize ≤ ret := Nat.min_le_left _ _
  obtain ⟨advance, rest⟩ := stores.advance (Nat.le_trans first within) (by omega)
  have copied := oldest (min ret maxsize) first
  by_cases more : maxsize - min ret maxsize > 0
  · have whole : min ret maxsize = ret := by omega
    rw [whole] at advance rest copied more
    obtain ⟨left, availableLeft, withinLeft, contLeft, lastLeft, oldestLeft⟩ := rest.available
    have remaining : left = bytes.length - ret := by
      -- after a whole first piece the rest starts at the physical start
      have length := List.length_drop (i := ret) (l := bytes)
      have place : (advanced queue ret).size = queue.size := rfl
      have back := rest.length_lt
      rcases last with all | beyond
      · omega
      · have start : (advanced queue ret).front = 0 := if_pos beyond
        omega
    have second : min left (maxsize - ret) ≤ (bytes.drop ret).length := by
      rw [List.length_drop]
      omega
    obtain ⟨again, final⟩ := rest.advance second (by omega)
    have copiedLeft := oldestLeft (min left (maxsize - ret)) (Nat.min_le_left _ _)
    have taken : bytes.take ret ++ (bytes.drop ret).take (min left (maxsize - ret)) = bytes.take maxsize := by
      rw [← List.take_add, List.take_eq_take_iff]
      omega
    have dropped : (bytes.drop ret).drop (min left (maxsize - ret)) = bytes.drop maxsize := by
      rw [List.drop_drop, List.drop_eq_drop_iff]
      omega
    rw [dropped] at final
    refine ⟨_, ?_, final, rfl⟩
    rw [← taken]
    simp [ByteQueue.popAtMost, available, whole, advance, copied, more, availableLeft, again, copiedLeft,
      bind, Except.bind, pure, Except.pure]
  · have whole : min ret maxsize = maxsize := by omega
    rw [whole] at advance rest copied more
    refine ⟨advanced queue maxsize, ?_, rest, rfl⟩
    simp [ByteQueue.popAtMost, available, whole, advance, copied, bind, Except.bind, pure, Except.pure]

/-- Appending up to the physical end. -/
theorem store_straight (stores : Stores queue bytes) (fits : bytes.length + data.length < queue.size)
    (cont : queue.back + data.length ≤ queue.size) : Stores (queue.store data) (bytes ++ data) := by
  have front := stores.front
  have back := stores.back
  have size := stores.size
  have filled := stores.filled
  have n : min (queue.size - queue.back) data.length = data.length := by omega
  have more : u16 (queue.filled + data.length) = queue.filled + data.length := u16_of_lt (by omega)
  have moved : u16 (queue.back + data.length) = queue.back + data.length := u16_of_lt (by omega)
  have stored : queue.store data = { queue with
      data := queue.data.write queue.back data
      filled := queue.filled + data.length
      back := if queue.back + data.length = queue.size then 0 else queue.back + data.length } := by
    simp only [ByteQueue.store, n, more, moved, List.take_length, if_neg (Nat.lt_irrefl _)]
  rw [stored]
  refine ⟨front, ?_, size, by simp [filled], ?_⟩
  · dsimp only
    split <;> omega
  · cases stores.pieces with
    | straight order =>
      have content : (queue.data.write queue.back data).read queue.front
          (queue.back - queue.front + data.length) =
          queue.data.read queue.front (queue.back - queue.front) ++ data := by
        rw [Memory.read_append, Memory.read_write_disjoint (.inl (by omega)), Nat.add_sub_cancel' order,
          Memory.read_write_self]
      rw [Memory.read_length] at fits
      by_cases beyond : queue.back + data.length = queue.size
      · rw [if_pos beyond]
        refine .of_wrapped (Nat.pos_of_ne_zero ?_) ?_
        · dsimp only
          omega
        · dsimp only
          rw [Memory.read_zero, List.append_nil, ← content]
          exact congrArg _ (by omega)
      · rw [if_neg beyond]
        refine .of_straight ?_ ?_
        · dsimp only
          omega
        · dsimp only
          rw [← content]
          exact congrArg _ (by omega)
    | wrapped order =>
      rw [List.length_append, Memory.read_length, Memory.read_length] at fits
      rw [if_neg (by omega)]
      refine .of_wrapped ?_ ?_
      · dsimp only
        omega
      · dsimp only
        rw [Memory.read_write_disjoint (.inr (by omega)), Memory.read_append,
          Memory.read_write_disjoint (.inl (by omega)), Nat.zero_add, Memory.read_write_self,
          List.append_assoc]

/-- Appending past the physical end. -/
theorem store_wrapped (stores : Stores queue bytes) (fits : bytes.length + data.length < queue.size)
    (beyond : queue.size < queue.back + data.length) : Stores (queue.store data) (bytes ++ data) := by
  have front := stores.front
  have back := stores.back
  have size := stores.size
  have filled := stores.filled
  have n : min (queue.size - queue.back) data.length = queue.size - queue.back := by omega
  have more : u16 (queue.filled + data.length) = queue.filled + data.length := u16_of_lt (by omega)
  have moved : u16 (data.length - (queue.size - queue.back)) = data.length - (queue.size - queue.back) :=
    u16_of_lt (by omega)
  have stored : queue.store data = { queue with
      data := (queue.data.write queue.back (data.take (queue.size - queue.back))).write 0
        (data.drop (queue.size - queue.back))
      filled := queue.filled + data.length
      back := data.length - (queue.size - queue.back) } := by
    simp only [ByteQueue.store, n, more, moved]
    rw [if_pos (by omega)]
  rw [stored]
  cases stores.pieces with
  | straight order =>
    rw [Memory.read_length] at fits
    refine ⟨front, by dsimp only; omega, size, by simp [filled], .of_wrapped (by dsimp only; omega) ?_⟩
    dsimp only
    -- the old bytes, the first part of the data up to the end, the rest from the start
    have split : queue.size - queue.front = (queue.back - queue.front) + (queue.size - queue.back) := by omega
    rw [Memory.read_write_disjoint (.inr (by rw [List.length_drop]; omega)), split, Memory.read_append,
      Nat.add_sub_cancel' order, Memory.read_write_disjoint (.inl (by omega)),
      Memory.read_write_block (by rw [List.length_take]; omega),
      Memory.read_write_block (by rw [List.length_drop]), List.append_assoc, List.take_append_drop]
  | wrapped order =>
    rw [List.length_append, Memory.read_length, Memory.read_length] at fits
    omega

/-- `jd_bqueue_push` appends all of the data or nothing. -/
theorem push (stores : Stores queue bytes) (data : List UInt8) :
    (data.length ≤ queue.size - 1 - bytes.length ∧ ∃ next, queue.push data = .ok (0, next) ∧
      Stores next (bytes ++ data) ∧ next.size = queue.size) ∨
    (¬ data.length ≤ queue.size - 1 - bytes.length ∧ queue.push data = .ok (-1, queue)) := by
  have filled := stores.filled
  have less := stores.length_lt
  have free : queue.freeBytes = queue.size - 1 - bytes.length := by
    rw [ByteQueue.freeBytes]
    omega
  by_cases none : data.length = 0
  · have empty : data = [] := List.length_eq_zero_iff.mp none
    subst empty
    left
    refine ⟨Nat.zero_le _, queue, rfl, ?_, rfl⟩
    rwa [List.append_nil]
  · by_cases fits : data.length ≤ queue.size - 1 - bytes.length
    · have next : Stores (queue.store data) (bytes ++ data) := by
        by_cases cont : queue.back + data.length ≤ queue.size
        · exact stores.store_straight (by omega) cont
        · exact stores.store_wrapped (by omega) (by omega)
      have same : (queue.store data).size = queue.size := by
        simp only [ByteQueue.store]
        split <;> rfl
      refine .inl ⟨fits, queue.store data, ?_, next, same⟩
      simp [ByteQueue.push, none, stores.validate, free, fits, next.validate, bind, Except.bind, pure,
        Except.pure]
    · refine .inr ⟨fits, ?_⟩
      simp [ByteQueue.push, none, stores.validate, free, fits, bind, Except.bind, pure, Except.pure]

theorem popAtomic (stores : Stores queue bytes) (size : Nat) :
    (size ≤ bytes.length ∧ ∃ next, queue.popAtomic size = .ok (0, bytes.take size, next) ∧
      Stores next (bytes.drop size) ∧ next.size = queue.size) ∨
    (bytes.length < size ∧ queue.popAtomic size = .ok (-1, [], queue)) := by
  have filled := stores.filled
  by_cases enough : size ≤ bytes.length
  · obtain ⟨next, popped, rest, same⟩ := stores.popAtMost size
    refine .inl ⟨enough, next, ?_, rest, same⟩
    have length : (bytes.take size).length = size := by
      rw [List.length_take]
      omega
    simp [ByteQueue.popAtomic, filled, enough, popped, length, bind, Except.bind, pure, Except.pure]
  · refine .inr ⟨by omega, ?_⟩
    simp [ByteQueue.popAtomic, filled, enough, pure, Except.pure]

theorem popByte (stores : Stores queue bytes) :
    (∃ byte rest next, bytes = byte :: rest ∧ queue.popByte = .ok (byte.toNat, next) ∧
      Stores next rest ∧ next.size = queue.size) ∨
    (bytes = [] ∧ queue.popByte = .ok (-1, queue)) := by
  have filled := stores.filled
  have front := stores.front
  cases bytes with
  | nil =>
    refine .inr ⟨rfl, ?_⟩
    simp [ByteQueue.popByte, filled, pure, Except.pure]
  | cons byte rest =>
    obtain ⟨ret, _, _, _, last, oldest⟩ := stores.available
    have some : 1 ≤ ret := by
      rcases last with all | beyond
      · rw [all, List.length_cons]
        omega
      · omega
    have head : queue.data queue.front = byte := List.head_eq_of_cons_eq (oldest 1 some)
    obtain ⟨advance, tail⟩ := stores.advance (show 1 ≤ (byte :: rest).length by simp) (by omega)
    refine .inl ⟨byte, rest, advanced queue 1, rfl, ?_, tail, rfl⟩
    simp [ByteQueue.popByte, filled, head, advance, bind, Except.bind, pure, Except.pure]

end Stores

/-- Queues reachable from an allocation, with the bytes put in and not taken out. -/
inductive ByteQueueRun (capacity : Nat) : ByteQueue → List UInt8 → Prop where
  | alloc : ByteQueueRun capacity (jdBqueueAlloc capacity) []
  | push (run : ByteQueueRun capacity queue bytes) (data : List UInt8)
      (done : queue.push data = .ok (ret, next)) :
    ByteQueueRun capacity next (if ret = 0 then bytes ++ data else bytes)
  | popAtMost (run : ByteQueueRun capacity queue bytes)
      (done : queue.popAtMost maxsize = .ok (dst, next)) :
    ByteQueueRun capacity next (bytes.drop maxsize)
  | popAtomic (run : ByteQueueRun capacity queue bytes)
      (done : queue.popAtomic size = .ok (r, dst, next)) :
    ByteQueueRun capacity next (if r = 0 then bytes.drop size else bytes)
  | popByte (run : ByteQueueRun capacity queue bytes) (done : queue.popByte = .ok (r, next)) :
    ByteQueueRun capacity next (if r = -1 then bytes else bytes.drop 1)
  | advance (run : ByteQueueRun capacity queue bytes) (available : queue.availableContData = .ok ret)
      (inside : sz ≤ ret) (done : queue.contDataAdvance sz = .ok next) :
    ByteQueueRun capacity next (bytes.drop sz)
  | clear (run : ByteQueueRun capacity queue bytes) : ByteQueueRun capacity queue.clear []

theorem ByteQueueRun.stores (run : ByteQueueRun capacity queue bytes) (lower : 1 ≤ capacity)
    (upper : capacity ≤ 65535) : Stores queue bytes ∧ queue.size = capacity := by
  induction run with
  | alloc => exact ⟨.alloc lower upper, u16_of_lt upper⟩
  | push _ data done ih =>
    obtain ⟨stores, same⟩ := ih
    rcases stores.push data with ⟨_, next, pushed, after, size⟩ | ⟨_, refused⟩
    · cases pushed.symm.trans done
      rw [if_pos rfl]
      exact ⟨after, size.trans same⟩
    · cases refused.symm.trans done
      rw [if_neg (by decide)]
      exact ⟨stores, same⟩
  | popAtMost _ done ih =>
    obtain ⟨stores, same⟩ := ih
    obtain ⟨next, popped, after, size⟩ := stores.popAtMost _
    cases popped.symm.trans done
    exact ⟨after, size.trans same⟩
  | popAtomic _ done ih =>
    obtain ⟨stores, same⟩ := ih
    rcases stores.popAtomic _ with ⟨_, next, popped, after, size⟩ | ⟨_, refused⟩
    · cases popped.symm.trans done
      rw [if_pos rfl]
      exact ⟨after, size.trans same⟩
    · cases refused.symm.trans done
      rw [if_neg (by decide)]
      exact ⟨stores, same⟩
  | popByte _ done ih =>
    obtain ⟨stores, same⟩ := ih
    rcases stores.popByte with ⟨byte, rest, next, rfl, popped, after, size⟩ | ⟨rfl, refused⟩
    · cases popped.symm.trans done
      rw [if_neg (by omega)]
      exact ⟨after, size.trans same⟩
    · cases refused.symm.trans done
      rw [if_pos rfl]
      exact ⟨stores, same⟩
  | advance _ available inside done ih =>
    obtain ⟨stores, same⟩ := ih
    obtain ⟨ret, found, within, cont, _⟩ := stores.available
    cases found.symm.trans available
    obtain ⟨advanced, after⟩ := stores.advance (Nat.le_trans inside within) (by omega)
    cases advanced.symm.trans done
    exact ⟨after, same⟩
  | clear _ ih => exact ⟨ih.1.clear, ih.2⟩

/-- In every reachable state the byte queue is a FIFO of the bytes pushed with
success and not popped since, and no operation fails an assertion. -/
theorem byte_queue_is_fifo (lower : 1 ≤ capacity) (upper : capacity ≤ 65535)
    (run : ByteQueueRun capacity queue bytes) :
    queue.occupiedBytes = bytes.length ∧
    queue.validate = .ok () ∧
    (∀ data, ∃ ret next, queue.push data = .ok (ret, next) ∧
      (ret = 0 ↔ data.length ≤ capacity - 1 - queue.occupiedBytes) ∧ (ret ≠ 0 → next = queue)) ∧
    (∀ maxsize, ∃ next, queue.popAtMost maxsize = .ok (bytes.take maxsize, next)) ∧
    (∀ size, if size ≤ bytes.length then ∃ next, queue.popAtomic size = .ok (0, bytes.take size, next)
      else queue.popAtomic size = .ok (-1, [], queue)) ∧
    (∃ next, queue.popByte = .ok ((bytes.head?.map fun byte => (byte.toNat : Int)).getD (-1), next)) ∧
    (∃ ret, queue.availableContData = .ok ret ∧ queue.data.read queue.front ret = bytes.take ret ∧
      ∀ sz ≤ ret, ∃ next, queue.contDataAdvance sz = .ok next) := by
  obtain ⟨stores, size⟩ := run.stores lower upper
  have occupied : queue.occupiedBytes = bytes.length := stores.filled
  refine ⟨occupied, stores.validate, ?_, ?_, ?_, ?_, ?_⟩
  · intro data
    rw [occupied, ← size]
    rcases stores.push data with ⟨fits, next, pushed, _⟩ | ⟨full, refused⟩
    · exact ⟨0, next, pushed, by simp [fits], fun nonzero => absurd rfl nonzero⟩
    · exact ⟨-1, queue, refused, by simp [full], fun _ => rfl⟩
  · intro maxsize
    obtain ⟨next, popped, _⟩ := stores.popAtMost maxsize
    exact ⟨next, popped⟩
  · intro count
    rcases stores.popAtomic count with ⟨enough, next, popped, _⟩ | ⟨few, refused⟩
    · rw [if_pos enough]
      exact ⟨next, popped⟩
    · rw [if_neg (by omega)]
      exact refused
  · rcases stores.popByte with ⟨byte, rest, next, rfl, popped, _⟩ | ⟨rfl, refused⟩
    · exact ⟨next, popped⟩
    · exact ⟨queue, refused⟩
  · obtain ⟨ret, available, within, cont, _, oldest⟩ := stores.available
    refine ⟨ret, available, oldest ret (Nat.le_refl ret), fun sz inside => ?_⟩
    obtain ⟨advanced, _⟩ := stores.advance (Nat.le_trans inside within) (by omega)
    exact ⟨_, advanced⟩

/-- A queue of four bytes after pushing three. -/
theorem byte_queue_is_fifo_three :
    ∃ queue next, ByteQueueRun 4 queue [7, 8, 9] ∧ queue.popAtMost 2 = .ok ([7, 8], next) := by
  have run := ByteQueueRun.push (@ByteQueueRun.alloc 4) [7, 8, 9] rfl
  obtain ⟨next, popped⟩ := (byte_queue_is_fifo (by decide) (by decide) run).2.2.2.1 2
  exact ⟨_, next, run, popped⟩

end Jacdac
