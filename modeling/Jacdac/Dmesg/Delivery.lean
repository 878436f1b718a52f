import Jacdac.Dmesg.Ring

/-! One reader of the log ring sees what was written, as long as it is never a
whole buffer behind. The byte written as number `i` sits in cell `i` modulo the
size of the buffer. -/

namespace Jacdac

/-- Numbers less than a period apart fall into different cells. -/
private theorem cells_differ {size first second : Nat} (order : first < second)
    (near : second < first + size) : first % size ≠ second % size := by
  intro same
  have gap : (second - first) % size = 0 := Nat.sub_mod_eq_zero_of_mod_eq same.symm
  rw [Nat.mod_eq_of_lt (by omega)] at gap
  omega

/-- A cell of the ring that is not behind the physical end. -/
private theorem cell_before {size ptr offset : Nat} (inside : ptr + offset < size) :
    (ptr + offset) % size = ptr + offset := Nat.mod_eq_of_lt inside

private theorem cell_after {size ptr offset : Nat} (bound : ptr < size) (beyond : size ≤ ptr + offset)
    (near : offset < size) : (ptr + offset) % size = ptr + offset - size := by
  rw [Nat.mod_eq_sub_mod beyond, Nat.mod_eq_of_lt (by omega)]

/-- What a write does to the ring: the message and its terminator go to
consecutive cells, and no other cell changes. -/
structure Appends (log next : DmesgLog) (msg : List UInt8) : Prop where
  bufferSize : next.bufferSize = log.bufferSize
  ptr : next.ptr = (log.ptr + msg.length) % log.bufferSize
  stored : ∀ offset (inside : offset < msg.length),
    next.buffer ((log.ptr + offset) % log.bufferSize) = msg[offset]
  ended : next.buffer next.ptr = 0
  kept : ∀ cell < log.bufferSize,
    (∀ offset ≤ msg.length, (log.ptr + offset) % log.bufferSize ≠ cell) → next.buffer cell = log.buffer cell

private theorem write_terminator (memory : Memory) (cell : Nat) : memory.write cell [0] cell = 0 := by
  simp [Memory.write]

/-- A message that ends before the physical end. -/
private theorem appends_straight {log : DmesgLog} {msg : List UInt8}
    (room : log.ptr + msg.length < log.bufferSize) : Appends log (jdDmesgWrite log msg) msg := by
  have eq : jdDmesgWrite log msg =
      { log with
        ptr := log.ptr + msg.length
        buffer := (log.buffer.write log.ptr msg).write (log.ptr + msg.length) [0] } := by
    have stays : ¬ log.bufferSize - log.ptr < msg.length + 1 := by omega
    simp only [jdDmesgWrite, DmesgLog.split, if_neg stays]
  rw [eq]
  refine ⟨rfl, (cell_before room).symm, ?_, write_terminator _ _, ?_⟩
  · intro offset inside
    rw [cell_before (by omega)]
    show Memory.write _ _ _ (log.ptr + offset) = _
    rw [Memory.write_outside (.inl (by omega)), Memory.write_inside inside]
  · intro cell _ free
    show Memory.write _ _ _ cell = _
    have outside : cell < log.ptr ∨ log.ptr + msg.length < cell := by
      by_contra within
      apply free (cell - log.ptr) (by omega)
      rw [cell_before (by omega)]
      omega
    rw [Memory.write_outside (by simp; omega), Memory.write_outside (by omega)]

/-- A message that reaches the physical end goes on at the start. -/
private theorem appends_wrapped {log : DmesgLog} {msg : List UInt8} (bound : log.ptr < log.bufferSize)
    (short : msg.length + 2 ≤ log.bufferSize) (wraps : log.bufferSize ≤ log.ptr + msg.length) :
    Appends log (jdDmesgWrite log msg) msg := by
  have rest : (msg.drop (log.bufferSize - log.ptr)).length = log.ptr + msg.length - log.bufferSize := by
    rw [List.length_drop]
    omega
  have head : (msg.take (log.bufferSize - log.ptr)).length = log.bufferSize - log.ptr := by
    rw [List.length_take]
    omega
  have place : (log.ptr + msg.length) % log.bufferSize = log.ptr + msg.length - log.bufferSize :=
    cell_after bound wraps (by omega)
  have eq : jdDmesgWrite log msg =
      { log with
        ptr := log.ptr + msg.length - log.bufferSize
        buffer := ((log.buffer.write log.ptr (msg.take (log.bufferSize - log.ptr))).write 0
          (msg.drop (log.bufferSize - log.ptr))).write (log.ptr + msg.length - log.bufferSize) [0] } := by
    have splits : log.bufferSize - log.ptr < msg.length + 1 := by omega
    have fits : ¬ (msg.drop (log.bufferSize - log.ptr)).length + 2 > log.bufferSize := by omega
    simp only [jdDmesgWrite, DmesgLog.split, if_pos splits, if_neg fits, Nat.zero_add]
    rw [rest]
  rw [eq]
  refine ⟨rfl, place.symm, ?_, write_terminator _ _, ?_⟩
  · intro offset inside
    by_cases before : log.ptr + offset < log.bufferSize
    · rw [cell_before before]
      show Memory.write _ _ _ (log.ptr + offset) = _
      rw [Memory.write_outside (.inr (by simp; omega)), Memory.write_outside (.inr (by omega)),
        Memory.write_inside (by omega), List.getElem_take]
    · rw [cell_after bound (by omega) (by omega)]
      show Memory.write _ _ _ (log.ptr + offset - log.bufferSize) = _
      have cell : log.ptr + offset - log.bufferSize = 0 + (log.ptr + offset - log.bufferSize) := by omega
      rw [Memory.write_outside (.inl (by omega)), cell, Memory.write_inside (by omega), List.getElem_drop]
      congr 1
      omega
  · intro cell inside free
    show Memory.write _ _ _ cell = _
    have last := free msg.length (Nat.le_refl _)
    rw [place] at last
    have high : cell < log.ptr := by
      by_contra above
      apply free (cell - log.ptr) (by omega)
      rw [cell_before (by omega)]
      omega
    have low : log.ptr + msg.length - log.bufferSize ≤ cell := by
      by_contra below
      apply free (cell + log.bufferSize - log.ptr) (by omega)
      rw [cell_after bound (by omega) (by omega)]
      omega
    rw [Memory.write_outside (by simp; omega), Memory.write_outside (.inr (by omega)),
      Memory.write_outside (.inl high)]

theorem jdDmesgWrite_appends (log : DmesgLog) (msg : List UInt8) (bound : log.ptr < log.bufferSize)
    (short : msg.length + 2 ≤ log.bufferSize) : Appends log (jdDmesgWrite log msg) msg := by
  by_cases room : log.ptr + msg.length < log.bufferSize
  · exact appends_straight room
  · exact appends_wrapped bound short (by omega)

/-- The ring, the reader's `*state`, and all bytes written and read so far. -/
structure Tracks (log : DmesgLog) (state : Nat) (written received : List UInt8) : Prop where
  taken : received = written.take received.length
  close : written.length < received.length + log.bufferSize
  ptr : log.ptr = written.length % log.bufferSize
  state_le : state ≤ log.bufferSize
  state_mod : state % log.bufferSize = received.length % log.bufferSize
  unread : ∀ index (inside : index < written.length), received.length ≤ index →
    log.buffer (index % log.bufferSize) = written[index]
  ended : log.buffer log.ptr = 0

namespace Tracks

variable {log : DmesgLog} {written received : List UInt8}

theorem ptr_lt (tracks : Tracks log state written received) (positive : 0 < log.bufferSize) :
    log.ptr < log.bufferSize := by
  rw [tracks.ptr]
  exact Nat.mod_lt _ positive

theorem received_le (tracks : Tracks log state written received) : received.length ≤ written.length := by
  have length := congrArg List.length tracks.taken
  rw [List.length_take] at length
  omega

theorem write (tracks : Tracks log state written received) (short : msg.length + 2 ≤ log.bufferSize)
    (close : written.length + msg.length < received.length + log.bufferSize) :
    Tracks (jdDmesgWrite log msg) state (written ++ msg) received := by
  have ordered := tracks.received_le
  obtain ⟨bufferSize, ptr, stored, ended, kept⟩ :=
    jdDmesgWrite_appends log msg (tracks.ptr_lt (by omega)) short
  -- the cell of byte `written.length + offset` is `offset` cells after the write index
  have cell : ∀ offset, (log.ptr + offset) % log.bufferSize = (written.length + offset) % log.bufferSize := by
    intro offset
    rw [tracks.ptr, Nat.mod_add_mod]
  refine ⟨?_, ?_, ?_, ?_, ?_, ?_, ended⟩
  · rw [List.take_append_of_le_length ordered]
    exact tracks.taken
  · rw [bufferSize, List.length_append]
    exact close
  · rw [ptr, cell, bufferSize, List.length_append]
  · rw [bufferSize]
    exact tracks.state_le
  · rw [bufferSize]
    exact tracks.state_mod
  · intro index inside unread
    rw [bufferSize]
    by_cases old : index < written.length
    · rw [List.getElem_append_left old, kept _ (Nat.mod_lt _ (by omega)), tracks.unread index old unread]
      intro offset within
      rw [cell]
      exact (cells_differ (by omega) (by omega)).symm
    · obtain ⟨offset, rfl⟩ := Nat.exists_eq_add_of_le (Nat.le_of_not_lt old)
      rw [List.length_append] at inside
      rw [← cell, stored offset (by omega), List.getElem_append_right (by omega)]
      simp

/-- The reader's position as a cell. -/
private theorem start_eq (tracks : Tracks log state written received) :
    (if state ≥ log.bufferSize then 0 else state) = received.length % log.bufferSize := by
  have upper := tracks.state_le
  rw [← tracks.state_mod]
  split
  · have same : state = log.bufferSize := by omega
    rw [same, Nat.mod_self]
  · rw [Nat.mod_eq_of_lt (by omega)]

/-- The bytes `jd_dmesg_read` sees: no more than are unread, up to the physical
end, and at least one if there is any. -/
private theorem towrite_le (tracks : Tracks log state written received) (positive : 0 < log.bufferSize)
    (start : Nat) (place : start = received.length % log.bufferSize) :
    let towrite := (if log.ptr < start then log.bufferSize else log.ptr) - start
    start + towrite ≤ log.bufferSize ∧ received.length + towrite ≤ written.length ∧
      (received.length < written.length → 0 < towrite) := by
  have ordered := tracks.received_le
  have close := tracks.close
  have ptr := tracks.ptr_lt positive
  have below : start < log.bufferSize := place ▸ Nat.mod_lt _ positive
  obtain ⟨unread, total⟩ := Nat.exists_eq_add_of_le ordered
  have write : log.ptr = (start + unread) % log.bufferSize := by
    rw [tracks.ptr, total, place, Nat.mod_add_mod]
  dsimp only
  by_cases inside : start + unread < log.bufferSize
  · rw [Nat.mod_eq_of_lt inside] at write
    rw [if_neg (by omega)]
    omega
  · rw [cell_after below (by omega) (by omega)] at write
    rw [if_pos (by omega)]
    omega

theorem read (tracks : Tracks log state written received) (positive : 0 < log.bufferSize) (space : Nat) :
    Tracks log (jdDmesgRead log space state).2 written (received ++ (jdDmesgRead log space state).1) ∧
      (0 < space → received.length < written.length → (jdDmesgRead log space state).1 ≠ []) := by
  have ordered := tracks.received_le
  unfold jdDmesgRead
  dsimp only
  rw [tracks.start_eq]
  generalize place : received.length % log.bufferSize = start
  obtain ⟨fits, available, progress⟩ := tracks.towrite_le positive start place.symm
  generalize (if log.ptr < start then log.bufferSize else log.ptr) - start = towrite at *
  have begins : start % log.bufferSize = received.length % log.bufferSize := by
    rw [← place, Nat.mod_mod]
  split
  · generalize chosen : (if towrite > space then space else towrite) = count
    have less : count ≤ towrite := by
      rw [← chosen]
      split <;> omega
    -- the cells read are those of the next `count` unread bytes
    have bytes : log.buffer.read start count = (written.drop received.length).take count := by
      apply List.ext_getElem
      · simp only [Memory.read_length, List.length_take, List.length_drop]
        omega
      · intro offset inside _
        rw [Memory.read_length] at inside
        rw [Memory.read_getElem, List.getElem_take, List.getElem_drop, ← tracks.unread _ (by omega) (by omega),
          ← Nat.mod_add_mod, place, Nat.mod_eq_of_lt (by omega)]
    refine ⟨⟨?_, ?_, tracks.ptr, by omega, ?_, ?_, tracks.ended⟩, ?_⟩
    · rw [bytes]
      have length : ((written.drop received.length).take count).length = count := by
        simp only [List.length_take, List.length_drop]
        omega
      rw [List.length_append, length, List.take_add, ← tracks.taken]
    · have close := tracks.close
      simp only [List.length_append, Memory.read_length]
      omega
    · rw [List.length_append, Memory.read_length, Nat.add_mod, begins, ← Nat.add_mod]
    · intro index inside unread
      rw [List.length_append] at unread
      exact tracks.unread index inside (by omega)
    · intro room _ empty
      have none := congrArg List.length empty
      rw [Memory.read_length, List.length_nil, ← chosen] at none
      split at none <;> omega
  · refine ⟨⟨?_, ?_, tracks.ptr, by omega, ?_, ?_, tracks.ended⟩, ?_⟩
    · simpa using tracks.taken
    · simpa using tracks.close
    · simpa using begins
    · simpa using tracks.unread
    · intro _ behind
      have := progress behind
      omega

end Tracks

/-- A reader that goes on: one `jd_dmesg_read` for each size. -/
def readAll (log : DmesgLog) : Nat → List Nat → List UInt8
  | _, [] => []
  | state, space :: spaces =>
    (jdDmesgRead log space state).1 ++ readAll log (jdDmesgRead log space state).2 spaces

theorem Tracks.drain (tracks : Tracks log state written received) (positive : 0 < log.bufferSize)
    (sizes : ∀ space ∈ spaces, 0 < space) (enough : written.length ≤ received.length + spaces.length) :
    received ++ readAll log state spaces = written := by
  have ordered := tracks.received_le
  induction spaces generalizing state received with
  | nil =>
    rw [List.length_nil] at enough
    rw [readAll, List.append_nil, tracks.taken, List.take_of_length_le (by omega)]
  | cons space spaces ih =>
    obtain ⟨next, progress⟩ := tracks.read positive space
    rw [readAll, ← List.append_assoc]
    apply ih next (fun space member => sizes space (List.mem_cons_of_mem _ member))
    · rw [List.length_append]
      rw [List.length_cons] at enough
      by_cases behind : received.length < written.length
      · have some := List.length_pos_iff.mpr (progress (sizes space (List.mem_cons_self ..)) behind)
        omega
      · omega
    · exact next.received_le

def DmesgLog.empty (bufferSize : Nat) : DmesgLog := { bufferSize, ptr := 0, buffer := fun _ => 0 }

/-- Runs of writers and one reader, with all bytes written and read. The reader
is never a whole buffer behind. -/
inductive DmesgRun (bufferSize : Nat) : DmesgLog → Nat → List UInt8 → List UInt8 → Prop where
  | boot : DmesgRun bufferSize (.empty bufferSize) 0 [] []
  | write (run : DmesgRun bufferSize log state written received) (msg : List UInt8)
      (short : msg.length ≤ 160) (close : (written ++ msg).length - received.length < bufferSize) :
      DmesgRun bufferSize (jdDmesgWrite log msg) state (written ++ msg) received
  | read (run : DmesgRun bufferSize log state written received) (space : Nat) :
      DmesgRun bufferSize log (jdDmesgRead log space state).2 written
        (received ++ (jdDmesgRead log space state).1)

theorem DmesgRun.tracks (run : DmesgRun bufferSize log state written received)
    (large : 256 ≤ bufferSize) :
    log.bufferSize = bufferSize ∧ Tracks log state written received := by
  induction run with
  | boot =>
    refine ⟨rfl, rfl, ?_, (Nat.zero_mod _).symm, Nat.zero_le _, rfl, nofun, rfl⟩
    show 0 < 0 + bufferSize
    omega
  | write _ msg short close ih =>
    obtain ⟨size, tracks⟩ := ih
    have ordered := tracks.received_le
    rw [List.length_append] at close
    have next : Tracks (jdDmesgWrite _ msg) _ (_ ++ msg) _ := tracks.write (by omega) (by omega)
    exact ⟨(jdDmesgWrite_appends _ msg (tracks.ptr_lt (by omega)) (by omega)).bufferSize.trans size, next⟩
  | read _ space ih =>
    obtain ⟨size, tracks⟩ := ih
    exact ⟨size, (tracks.read (by omega) space).1⟩

/-- The log ring delivers what was written: nothing is skipped or repeated, and
reads of positive sizes drain it. -/
theorem dmesg_delivers (large : 256 ≤ bufferSize)
    (run : DmesgRun bufferSize log state written received) :
    received <+: written ∧ log.ptr < bufferSize ∧ log.buffer log.ptr = 0 ∧
      ∀ spaces : List Nat, (∀ space ∈ spaces, 0 < space) →
        written.length - received.length ≤ spaces.length →
        received ++ readAll log state spaces = written := by
  obtain ⟨size, tracks⟩ := run.tracks large
  have ptr := tracks.ptr_lt (by omega)
  refine ⟨?_, by omega, tracks.ended, ?_⟩
  · rw [tracks.taken]
    exact List.take_prefix _ _
  · intro spaces sizes enough
    exact tracks.drain (by omega) sizes (by omega)

/-- The second message goes past the physical end of a log of the least size, up to offset 44. -/
theorem dmesg_delivers_first :
    ∃ log state received, DmesgRun 256 log state (List.replicate 150 1 ++ List.replicate 150 2) received ∧
      log.ptr = 44 ∧ received ++ readAll log state (List.replicate 150 1) =
        List.replicate 150 1 ++ List.replicate 150 2 := by
  have read := ((@DmesgRun.boot 256).write (List.replicate 150 1) (by simp) (by simp)).read 200
  have run := read.write (List.replicate 150 2) (by simp) (by decide +kernel)
  obtain ⟨_, _, _, drain⟩ := dmesg_delivers (by decide) run
  refine ⟨_, _, _, run, by decide +kernel, drain (List.replicate 150 1) (by simp) ?_⟩
  decide +kernel

end Jacdac
