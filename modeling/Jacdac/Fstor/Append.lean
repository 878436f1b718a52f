import Jacdac.Fstor.Mount

/-! Storing a value in the gap of a mounted area. -/

namespace Jacdac

namespace Fstor

variable {config : FstorConfig} {store next : Fstor} {flash : Memory} {base count : Nat} {key : CString}
  {val : List UInt8}

theorem align_spec (small : size < 4294967288) : size ≤ align size ∧ 0 < align size := by
  unfold align alignCore
  split
  · omega
  · rw [u32_of_lt (by omega)]
    omega

theorem keyOk_length (ok : keyOk key = true) : key.1.length ≤ 15 := by
  simp [keyOk, fstorKeysize] at ok
  exact ok.1

theorem newEntry_length (short : key.1.length ≤ 15) (offset size : Nat) :
    (newEntry key offset size).length = 24 := by
  simp [newEntry]
  omega

theorem entryOffset_newEntry (short : key.1.length ≤ 15) (flash : Memory) (entry size : Nat)
    (small : offset < 4294967296) :
    entryOffset (flash.write entry (newEntry key offset size)) entry = offset := by
  have length : (key.1 ++ List.replicate (16 - key.1.length) 0).length = 16 := by
    simp
    omega
  have number := Memory.number_write_part (show offset < 256 ^ 4 from small) flash entry
    (key.1 ++ List.replicate (16 - key.1.length) 0) (littleEndian 4 size)
  rwa [length] at number

theorem entrySize_newEntry (short : key.1.length ≤ 15) (flash : Memory) (entry offset : Nat)
    (small : size < 4294967296) :
    entrySize (flash.write entry (newEntry key offset size)) entry = size := by
  have length : (key.1 ++ List.replicate (16 - key.1.length) 0 ++ littleEndian 4 offset).length = 20 := by
    simp
    omega
  have number := Memory.number_write_part (show size < 256 ^ 4 from small) flash entry
    (key.1 ++ List.replicate (16 - key.1.length) 0 ++ littleEndian 4 offset) []
  rwa [length, List.append_nil] at number

/-- The key ends at the first of the zeros behind it. -/
theorem entryKey_newEntry (short : key.1.length ≤ 15) (flash : Memory) (entry offset size : Nat) :
    entryKey (flash.write entry (newEntry key offset size)) entry = key.1 := by
  have block : (flash.write entry (newEntry key offset size)).read entry fstorEntrySize =
      newEntry key offset size := Memory.read_write_block (newEntry_length short offset size)
  obtain ⟨zeros, split⟩ : ∃ zeros, 16 - key.1.length = zeros + 1 := ⟨15 - key.1.length, by omega⟩
  have stop : List.replicate (16 - key.1.length) (0 : UInt8) = 0 :: List.replicate zeros 0 := by
    rw [split, List.replicate_succ]
  rw [entryKey, block, newEntry, stop, List.append_assoc, List.append_assoc,
    List.takeWhile_append_of_pos]
  · simp
  · intro byte member
    exact decide_eq_true fun zero => key.2 (zero ▸ member)

/-- The store after a value was stored. -/
def appended (config : FstorConfig) (store : Fstor) (key : CString) (val : List UInt8) : Fstor :=
  let dataStart := store.dataStart - align val.length
  let lastEntry := store.lastEntry + 24
  { ({ store with dataStart }.issue config (.program dataStart val)).issue config
      (.program lastEntry (newEntry key dataStart val.length)) with lastEntry }

/-- A mounted area with room for the value and its entry. -/
structure Appendable (config : FstorConfig) (store : Fstor) (base count : Nat) (key : CString)
    (val : List UInt8) : Prop where
  mounted : Mounted config store base count
  area : Area config base
  short : key.1.length ≤ 15
  size : val.length < config.headerSize
  space : align val.length + 24 ≤ store.freeSpace

namespace Appendable

theorem room (able : Appendable config store base count key val) :
    base + 24 + 24 * count + 48 + align val.length ≤ store.dataStart ∧ val.length ≤ align val.length ∧
      0 < align val.length ∧ store.dataStart ≤ base + config.headerSize ∧
      base + config.headerSize < 4294967295 := by
  have space := able.space
  have last := able.mounted.last
  have small : val.length < 4294967288 := by
    have size := able.size
    have words := config.areas_lt
    have room := config.headerSize_le
    omega
  have aligned := align_spec small
  have top := able.mounted.scan.belowTop
  have words := able.area.lt
  simp only [freeSpace, fstorEntrySize] at space
  omega

/-- The table before the new entry and the values before the new one stay as they are. -/
theorem outside (able : Appendable config store base count key val)
    (cell : Nat) (out : cell < base + 24 + 24 * count ∨ store.dataStart ≤ cell) :
    (store.appended config key val).flash cell = store.flash cell := by
  obtain ⟨room, fits, positive, _, _⟩ := able.room
  have last := able.mounted.last
  have length := newEntry_length able.short (store.dataStart - align val.length) val.length
  refine (Memory.write_outside ?_).trans (Memory.write_outside ?_)
  · rw [length]
    omega
  · omega

/-- Between the new entry and the new value nothing is stored. -/
theorem gap (able : Appendable config store base count key val) :
    Erased (store.appended config key val).flash (base + 24 + 24 * (count + 1))
      (store.dataStart - align val.length) := by
  intro cell lower upper
  obtain ⟨room, fits, positive, _, _⟩ := able.room
  have last := able.mounted.last
  have length := newEntry_length able.short (store.dataStart - align val.length) val.length
  refine (Memory.write_outside (.inr ?_)).trans ((Memory.write_outside (.inl upper)).trans ?_)
  · rw [length]
    omega
  · exact able.mounted.gap cell (by omega) (by omega)

theorem entry (able : Appendable config store base count key val) :
    entryKey (store.appended config key val).flash (base + 24 + 24 * count) = key.1 ∧
      entryOffset (store.appended config key val).flash (base + 24 + 24 * count) =
        store.dataStart - align val.length ∧
      entrySize (store.appended config key val).flash (base + 24 + 24 * count) = val.length := by
  obtain ⟨room, fits, positive, _, _⟩ := able.room
  have here : base + 24 + 24 * count = store.lastEntry + 24 := by
    rw [able.mounted.last]
    omega
  rw [here]
  exact ⟨entryKey_newEntry able.short .., entryOffset_newEntry able.short _ _ _ (by omega),
    entrySize_newEntry able.short _ _ _ (by omega)⟩

theorem field (able : Appendable config store base count key val) :
    (store.appended config key val).flash.read (base + 24 + 24 * count) 16 =
      key.1 ++ List.replicate (16 - key.1.length) 0 := by
  have short := able.short
  have here : base + 24 + 24 * count = store.lastEntry + 24 := by
    rw [able.mounted.last]
    omega
  have length : (key.1 ++ List.replicate (16 - key.1.length) 0).length = 16 := by
    simp
    omega
  have part := Memory.read_write_part
    ({ store with dataStart := store.dataStart - align val.length }.issue config
      (.program (store.dataStart - align val.length) val)).flash (store.lastEntry + 24) []
    (key.1 ++ List.replicate (16 - key.1.length) 0)
    (littleEndian 4 (store.dataStart - align val.length) ++ littleEndian 4 val.length)
  rw [length, List.nil_append, ← List.append_assoc] at part
  rw [here]
  exact part

theorem value (able : Appendable config store base count key val) :
    (store.appended config key val).flash.read (store.dataStart - align val.length) val.length = val := by
  obtain ⟨room, fits, positive, _, _⟩ := able.room
  have last := able.mounted.last
  have length := newEntry_length able.short (store.dataStart - align val.length) val.length
  refine (Memory.read_write_disjoint (.inr ?_)).trans (Memory.read_write_self ..)
  rw [length]
  omega

/-- The new table has one entry more. -/
theorem appended (able : Appendable config store base count key val) :
    Mounted config (store.appended config key val) base (count + 1) := by
  obtain ⟨room, fits, positive, top, words⟩ := able.room
  obtain ⟨_, offset, _⟩ := able.entry
  have scan := able.mounted.scan
  have old (index : Nat) (inside : index < count) :
      entryOffset (store.appended config key val).flash (base + 24 + 24 * index) =
        entryOffset store.flash (base + 24 + 24 * index) :=
    entryOffset_congr fun cell lower upper => able.outside cell (.inl (by omega))
  refine ⟨able.mounted.settings, ?_, ⟨?_, ?_, ?_, ?_, ?_, ?_⟩, able.gap⟩
  · change store.lastEntry + 24 = _
    rw [able.mounted.last]
    omega
  · intro index inside
    rcases Nat.lt_succ_iff_lt_or_eq.mp inside with before | rfl
    · rw [old index before]
      exact scan.valid index before
    · rw [offset]
      omega
  · exact able.gap.number (by omega) (by omega)
  · intro index inside
    change store.dataStart - align val.length ≤ _
    rcases Nat.lt_succ_iff_lt_or_eq.mp inside with before | rfl
    · rw [old index before]
      have above := scan.above index before
      omega
    · rw [offset]
  · change store.dataStart - align val.length ≤ _
    omega
  · exact .inr ⟨count, by omega, offset.symm⟩
  · change _ ≤ store.dataStart - align val.length
    omega

theorem appendEntry (able : Appendable config store base count key val) :
    store.appendEntry config key val = .ok (0, store.appended config key val) := by
  obtain ⟨room, fits, positive, _, _⟩ := able.room
  have last := able.mounted.last
  have above : store.lastEntry + 24 + 24 ≤ store.dataStart - align val.length := by omega
  exact if_pos above

/-- The headers are not touched, so the same area is picked. -/
theorem picks (able : Appendable config store base count key val) :
    pickHeader config (store.appended config key val).flash = pickHeader config store.flash := by
  obtain ⟨room, fits, positive, top, words⟩ := able.room
  refine pickHeader_congr fun header area cell lower upper => able.outside cell ?_
  have low := config.headerSize_le
  rcases area with rfl | rfl <;> rcases able.area with rfl | rfl <;> omega

theorem generation (able : Appendable config store base count key val) :
    generation (store.appended config key val).flash base = generation store.flash base :=
  generation_congr fun cell _ upper => able.outside cell (.inl (by omega))

end Appendable

end Fstor

end Jacdac
