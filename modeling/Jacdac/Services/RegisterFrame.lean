import Jacdac.Services.RegisterLayout

/-! What a packet can change and what a reply depends on: the bits of one
register. Registers are independent where their bits are. -/

namespace Jacdac

/-- A description of an object in memory; its size is a `uint32_t`. -/
structure RegDescription (ptrSize : Nat) where
  entries : List RegEntry
  ptr : ptrSize = 4 ∨ ptrSize = 8
  fits : (RegEntry.finish ptrSize entries ⟨0, 0⟩).offset < 4294967296

namespace RegDescription

/-- The pointers of a 32-bit device. -/
theorem ptr_four : 4 = 4 ∨ 4 = 8 := .inl rfl

variable {ptrSize : Nat} (desc : RegDescription ptrSize)

def sdesc : List Nat := RegEntry.encodeAll desc.entries

def layout : List RegSlot := RegEntry.layout ptrSize desc.entries ⟨0, 0⟩

include desc in
theorem ptr_pos : 0 < ptrSize := by
  have := desc.ptr
  omega

def find (reg : Nat) : Option RegSlot := desc.layout.find? fun slot => slot.entry.code = reg

theorem findRegister_eq (reg : Nat) :
    findRegister ptrSize reg desc.sdesc ⟨0, 0⟩ = .ok ((desc.find reg).map (RegSlot.toPlace ptrSize)) :=
  RegEntry.findRegister_encodeAll desc.entries desc.ptr_pos (by decide) desc.fits

theorem layout_bitoffset {slot : RegSlot} (member : slot ∈ desc.layout) : slot.cursor.bitoffset < 8 := by
  obtain ⟨before, after, _, place⟩ := RegEntry.mem_layout_iff.mp member
  have inside : (RegEntry.finish ptrSize before ⟨0, 0⟩).bitoffset < 8 :=
    RegEntry.finish_bitoffset before desc.ptr_pos (by decide)
  rw [place]
  rcases slot.entry.start_offset desc.ptr_pos (RegEntry.finish ptrSize before ⟨0, 0⟩) with
    ⟨_, same⟩ | ⟨_, zero, _⟩
  · rw [same]
    exact inside
  · omega

/-- The codes that a SET is not refused for. -/
def settable (reg : Nat) : Prop := reg < 0xf00 ∧ reg / 256 ≠ 1

instance (reg : Nat) : Decidable (settable reg) := inferInstanceAs (Decidable (_ ∧ _))

/-- The register that a SET packet writes. -/
def target (pkt : RegPacket) : Option RegSlot :=
  if pkt.data.length = 0 ∨ ¬ settable (regCode pkt.serviceCommand) then none
  else desc.find (regCode pkt.serviceCommand)

theorem handle_set (pkt : RegPacket) (set : isSet pkt.serviceCommand = true) (state : Memory) :
    serviceHandleRegister ptrSize state pkt desc.sdesc =
      .ok ⟨(desc.target pkt).elim 0 fun _ => regCode pkt.serviceCommand,
        (desc.target pkt).elim state fun slot => setRegister state (slot.toPlace ptrSize) pkt.data,
        none⟩ := by
  have other : isGet pkt.serviceCommand = false := by
    have kind := of_decide_eq_true set
    exact decide_eq_false (by omega)
  by_cases accepted : pkt.data.length ≠ 0 ∧ settable (regCode pkt.serviceCommand)
  · obtain ⟨payload, writable⟩ := accepted
    rw [target, if_neg (not_or.mpr ⟨payload, not_not.mpr writable⟩)]
    simp only [serviceHandleRegister, set, other, Bool.false_eq_true, not_true, not_false_eq_true, and_false,
      if_false, true_and, desc.findRegister_eq, if_neg payload, if_neg (Nat.not_le.mpr writable.1),
      if_neg writable.2]
    cases desc.find (regCode pkt.serviceCommand) <;> rfl
  · have refused : pkt.data.length = 0 ∨ ¬ settable (regCode pkt.serviceCommand) := by
      by_contra both
      exact accepted ⟨(not_or.mp both).1, not_not.mp (not_or.mp both).2⟩
    rw [target, if_pos refused]
    simp only [serviceHandleRegister, set, other, Bool.false_eq_true, not_true, not_false_eq_true, and_false,
      if_false, true_and]
    split
    · rfl
    · rename_i payload
      split
      · rfl
      · rename_i reserved
        split
        · rfl
        · rename_i readonly
          exact absurd ⟨payload, Nat.lt_of_not_le reserved, readonly⟩ accepted

/-- The reply to a GET of `reg`. -/
def reply (state : Memory) (reg : Nat) : Option (List UInt8) :=
  (if reg ≥ 0xf00 then none else desc.find reg).bind fun slot => getRegister state (slot.toPlace ptrSize)

theorem handle_get (pkt : RegPacket) (get : isGet pkt.serviceCommand = true) (state : Memory) :
    serviceHandleRegister ptrSize state pkt desc.sdesc =
      .ok ⟨(desc.reply state (regCode pkt.serviceCommand)).elim 0 fun _ => -regCode pkt.serviceCommand,
        state, desc.reply state (regCode pkt.serviceCommand)⟩ := by
  have other : isSet pkt.serviceCommand = false := by
    have kind := of_decide_eq_true get
    exact decide_eq_false (by omega)
  simp only [serviceHandleRegister, get, other, Bool.false_eq_true, not_true, not_false_eq_true, false_and,
    if_false, desc.findRegister_eq, if_true, reply]
  split
  · rfl
  · cases desc.find (regCode pkt.serviceCommand) with
    | none => rfl
    | some slot =>
      simp only [Option.map_some, Option.bind_some]
      cases getRegister state (slot.toPlace ptrSize) <;> rfl

end RegDescription

namespace RegSlot

variable {ptrSize : Nat} {slot : RegSlot} {state other : Memory}

/-- A SET of anything but a bit stores as many bytes as the register has. -/
theorem setRegister_whole (ptrSize : Nat) (whole : slot.entry.type ≠ .bit) (data : List UInt8) :
    ∃ bytes, bytes.length = slot.entry.size ptrSize ∧
      ∀ state, setRegister state (slot.toPlace ptrSize) data = state.write slot.cursor.offset bytes := by
  have number : (slot.toPlace ptrSize).tp ≠ regBit := mt slot.entry.number_eq_bit_iff.mp whole
  unfold setRegister
  simp only [if_neg number]
  by_cases enough : (slot.toPlace ptrSize).regsz ≤ data.length
  · simp only [if_pos enough]
    exact ⟨_, List.length_take_of_le enough, fun _ => rfl⟩
  · simp only [if_neg enough]
    refine ⟨_, ?_, fun _ => rfl⟩
    rw [List.length_append, List.length_replicate]
    exact Nat.add_sub_of_le (Nat.le_of_not_le enough)

theorem setRegister_head (whole : slot.entry.type ≠ .bit) (positive : 0 < slot.entry.size ptrSize)
    (state : Memory) (byte : UInt8) (data : List UInt8) :
    setRegister state (slot.toPlace ptrSize) (byte :: data) slot.cursor.offset = byte := by
  have number : (slot.toPlace ptrSize).tp ≠ regBit := mt slot.entry.number_eq_bit_iff.mp whole
  have first : ∀ rest : List UInt8,
      Memory.write state slot.cursor.offset (byte :: rest) slot.cursor.offset = byte := by
    intro rest
    simp [Memory.write]
  obtain ⟨count, more⟩ : ∃ count, (slot.toPlace ptrSize).regsz = count + 1 :=
    Nat.exists_eq_add_one_of_ne_zero (Nat.ne_of_gt positive)
  unfold setRegister
  rw [if_neg number]
  split
  · rw [more, List.take_succ_cons]
    exact first _
  · rw [List.cons_append]
    exact first _

theorem setRegister_bit (bit : slot.entry.type = .bit) (state : Memory) (data : List UInt8) :
    setRegister state (slot.toPlace ptrSize) data = state.write slot.cursor.offset
      [setBit (state slot.cursor.offset) slot.cursor.bitoffset (data.headD 0 ≠ 0)] :=
  if_pos (slot.entry.number_eq_bit_iff.mpr bit)

theorem setRegister_frame (small : slot.cursor.bitoffset < 8) (data : List UInt8)
    (outside : bit < slot.firstBit ∨ slot.lastBit ptrSize ≤ bit) :
    bitAt (setRegister state (slot.toPlace ptrSize) data) bit = bitAt state bit := by
  by_cases single : slot.entry.type = .bit
  · rw [firstBit, if_pos single, lastBit, if_pos single] at outside
    rw [setRegister_bit single, bitAt, bitAt]
    by_cases cell : bit / 8 = slot.cursor.offset
    · have apart : bit % 8 ≠ slot.cursor.bitoffset := by omega
      rw [cell, Memory.write_byte, getBit_setBit _ _ small (Nat.mod_lt _ (by decide)), if_neg apart]
    · rw [Memory.write_outside (by simp; omega)]
  · rw [firstBit, if_neg single, lastBit, if_neg single] at outside
    obtain ⟨bytes, length, stored⟩ := setRegister_whole ptrSize single data
    rw [stored, bitAt, bitAt, Memory.write_outside (by omega)]

/-- A reply depends on the bits of the register only. -/
theorem getRegister_congr (small : slot.cursor.bitoffset < 8)
    (same : ∀ bit, slot.firstBit ≤ bit → bit < slot.lastBit ptrSize → bitAt state bit = bitAt other bit) :
    getRegister state (slot.toPlace ptrSize) = getRegister other (slot.toPlace ptrSize) := by
  unfold getRegister
  by_cases single : slot.entry.type = .bit
  · have number : (slot.toPlace ptrSize).tp = regBit := slot.entry.number_eq_bit_iff.mpr single
    rw [firstBit, if_pos single, lastBit, if_pos single] at same
    have agree := same _ (Nat.le_refl _) (Nat.lt_succ_self _)
    have cell : (8 * slot.cursor.offset + slot.cursor.bitoffset) / 8 = slot.cursor.offset := by omega
    have index : (8 * slot.cursor.offset + slot.cursor.bitoffset) % 8 = slot.cursor.bitoffset := by omega
    rw [bitAt, bitAt, cell, index] at agree
    simp only [if_pos number]
    show some [if getBit (state slot.cursor.offset) slot.cursor.bitoffset then 1 else 0] = _
    rw [agree]
    rfl
  · have number : (slot.toPlace ptrSize).tp ≠ regBit := mt slot.entry.number_eq_bit_iff.mp single
    rw [firstBit, if_neg single, lastBit, if_neg single] at same
    have bytes : state.read slot.cursor.offset (slot.entry.size ptrSize) =
        other.read slot.cursor.offset (slot.entry.size ptrSize) := by
      apply Memory.read_congr
      intro cell lower upper
      exact cell_eq_of_bits fun bit from_ below => same bit (by omega) (by omega)
    have stored : state.read (slot.toPlace ptrSize).cursor.offset (slot.toPlace ptrSize).regsz =
        other.read (slot.toPlace ptrSize).cursor.offset (slot.toPlace ptrSize).regsz := bytes
    simp only [if_neg number, stored]

/-- The reply of a bit or a byte array shows all its bits. -/
theorem bits_of_getRegister (small : slot.cursor.bitoffset < 8) (packed : slot.entry.type.packed = true)
    (same : getRegister state (slot.toPlace ptrSize) = getRegister other (slot.toPlace ptrSize))
    (lower : slot.firstBit ≤ bit) (upper : bit < slot.lastBit ptrSize) :
    bitAt state bit = bitAt other bit := by
  by_cases single : slot.entry.type = .bit
  · have number : (slot.toPlace ptrSize).tp = regBit := slot.entry.number_eq_bit_iff.mpr single
    rw [firstBit, if_pos single] at lower
    rw [lastBit, if_pos single] at upper
    have cell : bit / 8 = slot.cursor.offset := by omega
    have index : bit % 8 = slot.cursor.bitoffset := by omega
    simp only [getRegister, if_pos number, Option.some.injEq, List.cons.injEq, and_true] at same
    rw [bitAt, bitAt, cell, index]
    have shown : (if getBit (state slot.cursor.offset) slot.cursor.bitoffset then (1 : UInt8) else 0) =
        if getBit (other slot.cursor.offset) slot.cursor.bitoffset then 1 else 0 := same
    revert shown
    cases getBit (state slot.cursor.offset) slot.cursor.bitoffset <;>
      cases getBit (other slot.cursor.offset) slot.cursor.bitoffset <;> decide
  · have number : (slot.toPlace ptrSize).tp = regBytes :=
      (slot.entry.packed_iff.mp packed).resolve_left (mt slot.entry.number_eq_bit_iff.mp single)
    have apart : ¬ regBytes = regBit := by decide
    have plain : regIsOpt regBytes = false := by decide
    rw [firstBit, if_neg single] at lower
    rw [lastBit, if_neg single] at upper
    simp only [getRegister, number, if_neg apart, plain, Bool.false_eq_true, false_and, if_false,
      Option.some.injEq] at same
    have bytes : state.read slot.cursor.offset (slot.entry.size ptrSize) =
        other.read slot.cursor.offset (slot.entry.size ptrSize) := same
    have cells := Memory.read_eq_iff.mp bytes (bit / 8 - slot.cursor.offset) (by omega)
    have place : slot.cursor.offset + (bit / 8 - slot.cursor.offset) = bit / 8 := by omega
    rw [place] at cells
    rw [bitAt, bitAt, cells]

end RegSlot

end Jacdac
