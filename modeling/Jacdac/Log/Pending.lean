import Jacdac.Log.Panic

/-! A block with a pending entry of the panic log, whose bytes are stored before its header. -/

namespace Jacdac

/-- Behind the entries there are the header of the next one, still zero, its bytes, and zeros; where it
has no bytes yet, one byte of an earlier one may be left. -/
structure Pending (data : Memory) (dataSize dataPtr : Nat) (raws : List RawEntry) (pending : List UInt8) : Prop where
  ptr : dataPtr = (raws.flatMap RawEntry.bytes).length
  bound : dataPtr ≤ dataSize
  entries : data.read 0 dataPtr = raws.flatMap RawEntry.bytes
  valid : ∀ raw ∈ raws, raw.Valid
  header : ∀ cell, dataPtr ≤ cell → cell < dataPtr + 4 → cell < dataSize → data cell = 0
  bytes : data.read (dataPtr + 4) pending.length = pending
  clear : ∀ cell, dataPtr + 4 + max pending.length 1 ≤ cell → cell < dataSize → data cell = 0

section Pending

variable {data : Memory} {dataSize dataPtr : Nat} {raws : List RawEntry} {pending : List UInt8}

theorem Holding.zero (holding : Holding data dataSize dataPtr raws) (cell : Nat) (behind : dataPtr ≤ cell)
    (inside : cell < dataSize) : data cell = 0 := by
  have value := data.read_getElem? 0 dataSize cell inside
  rw [holding.content, List.getElem?_append_right (holding.ptr ▸ behind), List.getElem?_replicate,
    if_pos (by rw [← holding.ptr]; omega), Nat.zero_add] at value
  exact (Option.some.inj value).symm

theorem Holding.toPending (holding : Holding data dataSize dataPtr raws) : Pending data dataSize dataPtr raws [] where
  ptr := holding.ptr
  bound := holding.bound
  entries := by
    rw [← Memory.read_take data 0 dataSize dataPtr holding.bound, holding.content]
    exact List.take_left' holding.ptr.symm
  valid := holding.valid
  header cell behind _ inside := holding.zero cell behind inside
  bytes := rfl
  clear cell behind inside := holding.zero cell (by omega) inside

namespace Pending

theorem parse (blocks : Pending data dataSize dataPtr raws pending) :
    parseEntries dataSize (data.read 0 dataSize) = raws := by
  have ptr := blocks.ptr
  have bound := blocks.bound
  have count := length_le_flatMap raws
  obtain ⟨rest, rfl⟩ := Nat.exists_eq_add_of_le bound
  rw [Memory.read_append, blocks.entries, Nat.zero_add]
  refine parseEntries_append blocks.valid (fun byte first => ?_) (by omega)
  cases rest with
  | zero => cases first
  | succ rest =>
    rw [Memory.read_succ] at first
    rw [← Option.some.inj first]
    exact blocks.header dataPtr (Nat.le_refl _) (by omega) (by omega)

theorem eq_nil (blocks : Pending data dataSize 0 raws pending) : raws = [] := by
  have count := length_le_flatMap raws
  rw [← blocks.ptr] at count
  exact List.eq_nil_of_length_eq_zero (by omega)

/-- The next byte of the entry. -/
theorem store (blocks : Pending data dataSize dataPtr raws pending) (ch : UInt8) :
    Pending (data.write (dataPtr + (4 + pending.length)) [ch]) dataSize dataPtr raws (pending ++ [ch]) where
  ptr := blocks.ptr
  bound := blocks.bound
  entries := by
    rw [Memory.read_write_disjoint (.inl (by omega))]
    exact blocks.entries
  valid := blocks.valid
  header cell behind before inside := by
    rw [Memory.write_outside (.inl (by omega))]
    exact blocks.header cell behind before inside
  bytes := by
    rw [List.length_append, Memory.read_append, Memory.read_write_disjoint (.inl (by omega)), blocks.bytes, Nat.add_assoc]
    exact congrArg (pending ++ ·) (Memory.read_write_self _ _ _)
  clear cell behind inside := by
    rw [List.length_append, List.length_singleton] at behind
    rw [Memory.write_outside (.inr (by rw [List.length_singleton]; omega))]
    exact blocks.clear cell (by omega) inside

/-- A single byte may be forgotten. -/
theorem forget {ch : UInt8} (blocks : Pending data dataSize dataPtr raws [ch]) : Pending data dataSize dataPtr raws [] where
  ptr := blocks.ptr
  bound := blocks.bound
  entries := blocks.entries
  valid := blocks.valid
  header := blocks.header
  bytes := rfl
  clear := blocks.clear

/-- The entry gets its header. -/
theorem close (blocks : Pending data dataSize dataPtr raws pending) (some : pending ≠ []) (short : pending.length < 256)
    (room : dataPtr + 4 + pending.length ≤ dataSize) :
    Pending (data.write dataPtr (LogFile.entryBytes typePanicLog pending.length 0 [])) dataSize
      (dataPtr + 4 + pending.length) (raws ++ [⟨typePanicLog, 0, pending⟩]) [] := by
  have positive := List.length_pos_iff.mpr some
  have typed : 1 ≤ typePanicLog ∧ typePanicLog < 256 := by decide
  have header : (LogFile.entryBytes typePanicLog pending.length 0 []).length = 4 := rfl
  have whole : RawEntry.bytes ⟨typePanicLog, 0, pending⟩ = LogFile.entryBytes typePanicLog pending.length 0 [] ++ pending := by
    rw [RawEntry.bytes, LogFile.entryBytes, LogFile.entryBytes, List.append_nil]
  constructor
  case ptr => rw [List.flatMap_append, List.length_append, ← blocks.ptr, List.flatMap_singleton, RawEntry.bytes_length, Nat.add_assoc]
  case bound => exact room
  case entries =>
    rw [Nat.add_assoc, Memory.read_append, Memory.read_append, Nat.zero_add, Memory.read_write_disjoint (.inl (by omega)),
      blocks.entries, Memory.read_write_block header, Memory.read_write_disjoint (.inr (by omega)), blocks.bytes,
      List.flatMap_append, List.flatMap_singleton, whole]
  case valid =>
    intro raw member
    rcases List.mem_append.mp member with old | new
    · exact blocks.valid raw old
    · rw [List.mem_singleton.mp new]
      exact ⟨typed, Nat.zero_lt_succ _, short⟩
  case header =>
    intro cell behind before inside
    rw [Memory.write_outside (.inr (by omega))]
    exact blocks.clear cell (by omega) inside
  case bytes => rfl
  case clear =>
    intro cell behind inside
    rw [Memory.write_outside (.inr (by omega))]
    exact blocks.clear cell (by rw [List.length_nil] at behind; omega) inside

end Pending

end Pending

end Jacdac
