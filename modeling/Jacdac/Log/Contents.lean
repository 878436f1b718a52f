import Jacdac.Log.File

/-! Reading a log back: the entries in the data areas of its blocks. -/

namespace Jacdac

/-- One appended entry, with the time of the append. -/
structure LogEntry where
  type : Nat
  time : Nat
  data : List UInt8
  deriving DecidableEq, Repr

/-- One entry as stored, with its time relative to the block. -/
structure RawEntry where
  type : Nat
  tdelta : Nat
  data : List UInt8

namespace RawEntry

def bytes (raw : RawEntry) : List UInt8 := LogFile.entryBytes raw.type raw.data.length raw.tdelta raw.data

structure Valid (raw : RawEntry) : Prop where
  type : 1 ≤ raw.type ∧ raw.type < 256
  tdelta : raw.tdelta < 65536
  data : raw.data.length < 256

@[simp] theorem bytes_length (raw : RawEntry) : raw.bytes.length = 4 + raw.data.length := by
  simp [bytes, LogFile.entryBytes]; omega

/-- The entry with absolute time. -/
def entry (timestamp : Nat) (raw : RawEntry) : LogEntry := ⟨raw.type, u64 (timestamp + raw.tdelta), raw.data⟩

end RawEntry

/-- Entries of a data area, up to its end or a zero type. -/
def parseEntries : Nat → List UInt8 → List RawEntry
  | fuel + 1, type :: size :: low :: high :: rest =>
    if type = 0 then []
    else
      ⟨type.toNat, fromLittle [low, high], rest.take size.toNat⟩ ::
        parseEntries fuel (rest.drop size.toNat)
  | _, _ => []

def Block.entries (block : Block) (dataSize : Nat) : List LogEntry :=
  (parseEntries dataSize (block.data.read 0 dataSize)).map (RawEntry.entry block.timestamp)

/-- Fewer than four bytes, or a zero type, end the entries. -/
theorem parseEntries_stop {rest : List UInt8} (stop : ∀ byte ∈ rest.head?, byte = 0) (fuel : Nat) :
    parseEntries fuel rest = [] := by
  match fuel, rest with
  | 0, _ => rfl
  | fuel + 1, [] => rfl
  | fuel + 1, [_] => rfl
  | fuel + 1, [_, _] => rfl
  | fuel + 1, [_, _, _] => rfl
  | fuel + 1, type :: size :: low :: high :: rest =>
    rw [parseEntries, if_pos (stop type rfl)]

theorem parseEntries_bytes {raw : RawEntry} (valid : raw.Valid) (fuel : Nat) (rest : List UInt8) :
    parseEntries (fuel + 1) (raw.bytes ++ rest) = raw :: parseEntries fuel rest := by
  have type := valid.type
  have nonzero : UInt8.ofNat raw.type ≠ 0 := by
    intro zero
    have value := congrArg UInt8.toNat zero
    rw [UInt8.toNat_ofNat'] at value
    simp at value
    omega
  have typeValue : (UInt8.ofNat raw.type).toNat = raw.type := by
    rw [UInt8.toNat_ofNat']; omega
  have sizeValue : (UInt8.ofNat raw.data.length).toNat = raw.data.length := by
    have := valid.data
    rw [UInt8.toNat_ofNat']; omega
  have delta : fromLittle (littleEndian 2 raw.tdelta) = raw.tdelta := by
    rw [fromLittle_littleEndian]
    exact Nat.mod_eq_of_lt valid.tdelta
  have shape : raw.bytes ++ rest = UInt8.ofNat raw.type :: UInt8.ofNat raw.data.length ::
      UInt8.ofNat raw.tdelta :: UInt8.ofNat (raw.tdelta / 256) :: (raw.data ++ rest) := by
    simp [RawEntry.bytes, LogFile.entryBytes, littleEndian]
  rw [shape, parseEntries, if_neg nonzero, typeValue, sizeValue, List.take_left, List.drop_left]
  exact congrArg (· :: parseEntries fuel rest) (by rw [show fromLittle [_, _] = _ from delta])

/-- The data area holds these entries and zeros after them. -/
structure Holding (data : Memory) (dataSize dataPtr : Nat) (raws : List RawEntry) : Prop where
  ptr : dataPtr = (raws.flatMap RawEntry.bytes).length
  bound : dataPtr ≤ dataSize
  content : data.read 0 dataSize = raws.flatMap RawEntry.bytes ++ List.replicate (dataSize - dataPtr) 0
  valid : ∀ raw ∈ raws, raw.Valid

/-- Entries read back, with anything behind them that ends them. -/
theorem parseEntries_append (valid : ∀ raw ∈ raws, RawEntry.Valid raw) {rest : List UInt8}
    (stop : ∀ byte ∈ rest.head?, byte = 0) (enough : raws.length ≤ fuel) :
    parseEntries fuel (raws.flatMap RawEntry.bytes ++ rest) = raws := by
  induction raws generalizing fuel with
  | nil => exact parseEntries_stop stop fuel
  | cons raw raws ih =>
    obtain ⟨less, rfl⟩ : ∃ less, fuel = less + 1 := ⟨fuel - 1, by simp at enough; omega⟩
    rw [List.flatMap_cons, List.append_assoc, parseEntries_bytes (valid raw (by simp)),
      ih (fun other member => valid other (by simp [member])) (by simpa using enough)]

theorem length_le_flatMap (raws : List RawEntry) :
    raws.length ≤ (raws.flatMap RawEntry.bytes).length := by
  induction raws with
  | nil => exact Nat.zero_le _
  | cons raw rest ih =>
    rw [List.flatMap_cons, List.length_append, RawEntry.bytes_length, List.length_cons]
    omega

namespace Holding

theorem parse (holding : Holding data dataSize dataPtr raws) :
    parseEntries dataSize (data.read 0 dataSize) = raws := by
  have count := length_le_flatMap raws
  have ptr := holding.ptr
  have bound := holding.bound
  rw [holding.content]
  refine parseEntries_append holding.valid (fun byte first => ?_) (by omega)
  exact List.eq_of_mem_replicate (List.mem_of_mem_head? first)

theorem empty (clear : data.read 0 dataSize = List.replicate dataSize 0) :
    Holding data dataSize 0 [] :=
  ⟨rfl, Nat.zero_le _, clear, by simp⟩

theorem eq_nil (holding : Holding data dataSize 0 raws) : raws = [] := by
  have count := length_le_flatMap raws
  rw [← holding.ptr] at count
  exact List.eq_nil_of_length_eq_zero (by omega)

/-- The next entry goes where the last one ended. -/
theorem append (holding : Holding data dataSize dataPtr raws) (valid : raw.Valid)
    (room : dataPtr + raw.bytes.length ≤ dataSize) :
    Holding (data.write dataPtr raw.bytes) dataSize (dataPtr + raw.bytes.length) (raws ++ [raw]) := by
  have ptr := holding.ptr
  obtain ⟨rest, rfl⟩ := Nat.exists_eq_add_of_le room
  have content := holding.content
  rw [Nat.add_assoc, Nat.add_sub_cancel_left, List.replicate_add, Memory.read_append,
    Memory.read_append, Nat.zero_add] at content
  obtain ⟨before, tail⟩ := List.append_inj content (by simpa using ptr)
  obtain ⟨_, zeros⟩ := List.append_inj tail (by simp)
  refine ⟨by simp [ptr], by omega, ?_, ?_⟩
  · rw [Nat.add_sub_cancel_left, Nat.add_assoc, Memory.read_append, Memory.read_append,
      Nat.zero_add, Memory.read_write_disjoint (.inl (by omega)), before, Memory.read_write_block rfl,
      Memory.read_write_disjoint (.inr (by omega)), zeros]
    simp
  · intro other member
    rcases List.mem_append.mp member with old | new
    · exact holding.valid other old
    · rw [List.mem_singleton.mp new]
      exact valid

end Holding

/-- The blocks of a mounted file that are not on disk yet: the one waiting to be
flushed, if any, and the one being filled. -/
def LogFile.unflushed (file : LogFile) : List Block :=
  (if file.needsFlushing ≠ 0 then [file.blockAlt] else []) ++ [file.block]

/-- Everything a reader finds: the blocks on disk in write order, then the
blocks still in memory. -/
def LogFile.contents (file : LogFile) (written : List Block) : List LogEntry :=
  (written ++ file.unflushed).flatMap (·.entries file.blockDataSize)

/-- A mounted file between two calls. -/
structure LogFile.Orderly (file : LogFile) : Prop where
  size : 259 ≤ file.blockDataSize
  small : file.blockDataSize < 65536
  current : ∃ raws, Holding file.block.data file.blockDataSize file.dataPtr raws
  alternate : (file.needsFlushing = 0 ∧ Holding file.blockAlt.data file.blockDataSize 0 []) ∨
    (file.needsFlushing = 1 ∧ ∃ ptr raws, Holding file.blockAlt.data file.blockDataSize ptr raws)
  time : file.dataPtr ≠ 0 → file.block.timestamp < 18446744073709551616

namespace LogFile

variable {file : LogFile}

theorem entries_empty {block : Block} (holding : Holding block.data dataSize 0 raws) :
    block.entries dataSize = [] := by
  rw [Block.entries, holding.parse, holding.eq_nil]
  rfl

def swapped (file : LogFile) : LogFile :=
  { file with block := file.blockAlt, blockAlt := file.block, needsFlushing := 1, dataPtr := 0 }

theorem requestFlush_free (used : file.dataPtr ≠ 0) (free : file.needsFlushing = 0) :
    file.requestFlush = .ok (0, file.swapped) := by
  rw [requestFlush, if_neg used, if_neg (by simp [free])]
  rfl

theorem requestFlush_busy (used : file.dataPtr ≠ 0) (busy : file.needsFlushing ≠ 0) :
    file.requestFlush = .ok (-1, file) := by
  rw [requestFlush, if_neg used, if_pos busy]

theorem Orderly.free (orderly : file.Orderly) (free : file.needsFlushing = 0) :
    Holding file.blockAlt.data file.blockDataSize 0 [] := by
  rcases orderly.alternate with ⟨_, clear⟩ | ⟨busy, _⟩
  · exact clear
  · omega

theorem Orderly.swapped (orderly : file.Orderly) (free : file.needsFlushing = 0) :
    file.swapped.Orderly where
  size := orderly.size
  small := orderly.small
  current := ⟨[], orderly.free free⟩
  alternate := .inr ⟨rfl, file.dataPtr, orderly.current⟩
  time := fun used => absurd rfl used

/-- Swapping the buffers changes nothing for a reader when the other one has no entries. -/
theorem contents_swapped (free : file.needsFlushing = 0) (clear : file.blockAlt.entries file.blockDataSize = [])
    (written : List Block) : file.swapped.contents written = file.contents written := by
  have size : file.swapped.blockDataSize = file.blockDataSize := rfl
  have later : file.swapped.unflushed = [file.block, file.blockAlt] := rfl
  have now : file.unflushed = [file.block] := by simp [unflushed, free]
  rw [contents, contents, size, later, now]
  simp [clear]

theorem Orderly.swapped_contents (orderly : file.Orderly) (free : file.needsFlushing = 0)
    (written : List Block) : file.swapped.contents written = file.contents written :=
  contents_swapped free (entries_empty (orderly.free free)) written

/-- Entries that the current block gets come last. -/
theorem contents_grown {block : Block} {entries : List LogEntry} (dataPtr : Nat)
    (grown : block.entries file.blockDataSize = file.block.entries file.blockDataSize ++ entries) (written : List Block) :
    ({ file with block, dataPtr } : LogFile).contents written = file.contents written ++ entries := by
  have size : ({ file with block, dataPtr } : LogFile).blockDataSize = file.blockDataSize := rfl
  simp only [contents, unflushed, size, List.flatMap_append, List.flatMap_singleton, grown, List.append_assoc]

theorem Orderly.begun (orderly : file.Orderly) (clock : now < 18446744073709551616) :
    (file.begun now).Orderly ∧ (file.begun now).block.timestamp < 18446744073709551616 := by
  unfold LogFile.begun
  split
  · exact ⟨⟨orderly.size, orderly.small, orderly.current, orderly.alternate, fun _ => clock⟩, clock⟩
  · rename_i used
    exact ⟨orderly, orderly.time used⟩

theorem Orderly.begun_contents (orderly : file.Orderly) (now : Nat) (written : List Block) :
    (file.begun now).contents written = file.contents written := by
  unfold LogFile.begun
  split
  · rename_i empty
    obtain ⟨raws, holding⟩ := orderly.current
    rw [empty] at holding
    have before : file.block.entries file.blockDataSize = [] := entries_empty holding
    have after : { file.block with timestamp := now, generation := file.blockGeneration }.entries
        file.blockDataSize = [] := entries_empty holding
    rw [@contents_grown file _ [] file.dataPtr (by rw [before, after, List.append_nil]), List.append_nil]
  · rfl

def stored (file : LogFile) (raw : RawEntry) : LogFile :=
  { file with
    block := { file.block with data := file.block.data.write file.dataPtr raw.bytes }
    dataPtr := file.dataPtr + raw.bytes.length }

theorem Orderly.stored (orderly : file.Orderly) (valid : raw.Valid)
    (room : file.dataPtr + raw.bytes.length ≤ file.blockDataSize)
    (time : file.block.timestamp < 18446744073709551616) : (file.stored raw).Orderly where
  size := orderly.size
  small := orderly.small
  current := by
    obtain ⟨raws, holding⟩ := orderly.current
    exact ⟨raws ++ [raw], holding.append valid room⟩
  alternate := orderly.alternate
  time := fun _ => time

theorem Orderly.stored_contents (orderly : file.Orderly) (valid : raw.Valid)
    (room : file.dataPtr + raw.bytes.length ≤ file.blockDataSize) (written : List Block) :
    (file.stored raw).contents written = file.contents written ++ [raw.entry file.block.timestamp] := by
  obtain ⟨raws, holding⟩ := orderly.current
  have before : file.block.entries file.blockDataSize = raws.map (RawEntry.entry file.block.timestamp) := by
    rw [Block.entries, holding.parse]
  have after : (file.stored raw).block.entries file.blockDataSize =
      (raws ++ [raw]).map (RawEntry.entry file.block.timestamp) := by
    exact congrArg (List.map (RawEntry.entry file.block.timestamp)) (holding.append valid room).parse
  refine contents_grown _ ?_ written
  rw [before]
  exact after.trans List.map_append

end LogFile

end Jacdac
