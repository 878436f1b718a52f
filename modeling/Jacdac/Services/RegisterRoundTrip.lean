import Jacdac.Numfmt.Format
import Jacdac.Services.RegisterEffects

/-! What a GET of a register answers after a SET of it. -/

namespace Jacdac

theorem fromLittle_zeros (count : Nat) : fromLittle (List.replicate count 0) = 0 := by
  induction count with
  | zero => rfl
  | succ count ih => simp [List.replicate_succ, fromLittle, ih]

theorem fromLittle_ones (count : Nat) : fromLittle (List.replicate count 0xff) + 1 = 256 ^ count := by
  induction count with
  | zero => rfl
  | succ count ih =>
    have byte : (0xff : UInt8).toNat = 255 := rfl
    rw [List.replicate_succ, fromLittle, byte, Nat.pow_succ', ← ih]
    omega

private theorem sign_table : ∀ byte : Fin 256, (UInt8.ofNat byte &&& 0x80 ≠ 0 ↔ 128 ≤ byte.val) := by decide +kernel

theorem sign_iff (byte : UInt8) : byte &&& 0x80 ≠ 0 ↔ 128 ≤ byte.toNat := by
  have entry := sign_table ⟨byte.toNat, byte.toNat_lt⟩
  rwa [UInt8.ofNat_toNat] at entry

/-- The sign of a number is the highest bit of its last byte. -/
theorem last_sign_iff (payload : data ≠ []) :
    data.getLastD 0 &&& 0x80 ≠ 0 ↔ 256 ^ data.length ≤ 2 * fromLittle data := by
  obtain ⟨front, last, rfl⟩ := List.eq_nil_or_concat' data |>.resolve_left payload
  have low := fromLittle_lt front
  have power : 256 ^ (front ++ [last]).length = 256 * 256 ^ front.length := by
    rw [List.length_append, List.length_singleton, Nat.pow_succ']
  have value : fromLittle (front ++ [last]) = fromLittle front + 256 ^ front.length * last.toNat := by
    simp [fromLittle_append, fromLittle]
  rw [List.getLastD_concat, sign_iff, power, value]
  generalize 256 ^ front.length = unit at low
  constructor
  · intro high
    have scaled : unit * 128 ≤ unit * last.toNat := Nat.mul_le_mul_left unit high
    omega
  · intro high
    by_contra below
    have scaled : unit * last.toNat ≤ unit * 127 := Nat.mul_le_mul_left unit (by omega)
    omega

/-- The number in a payload, read as the type of the register says. -/
def payloadInt (tp : Nat) (data : List UInt8) : Int :=
  if regIsSigned tp then loadSigned data.length data else loadUnsigned data.length data

/-- The fill of a short payload extends its number. -/
theorem storeInt_payloadInt (tp : Nat) (payload : data ≠ []) (more : Nat) :
    storeInt (data.length + more) (payloadInt tp data) = data ++ List.replicate more (regFill tp data) := by
  suffices same : (payloadInt tp data % 256 ^ (data.length + more)).toNat =
      fromLittle (data ++ List.replicate more (regFill tp data)) by
    have whole := littleEndian_fromLittle (data ++ List.replicate more (regFill tp data))
    rwa [List.length_append, List.length_replicate, ← same] at whole
  have small := fromLittle_lt data
  have power : (256 : Nat) ^ (data.length + more) = 256 ^ data.length * 256 ^ more := Nat.pow_add ..
  have above : 256 ^ data.length ≤ 256 ^ (data.length + more) := Nat.pow_le_pow_right (by decide) (Nat.le_add_right ..)
  by_cases negative : regIsSigned tp = true ∧ data.getLastD 0 &&& 0x80 ≠ 0
  · have ones := fromLittle_ones more
    have high := (last_sign_iff payload).mp negative.2
    have value : payloadInt tp data = fromLittle data - 256 ^ data.length := by
      have high : ¬ 2 * (fromLittle data : Int) < 256 ^ data.length := by exact_mod_cast Nat.not_lt.mpr high
      rw [payloadInt, if_pos negative.1, loadSigned, List.take_length, if_neg high]
    have wrapped : payloadInt tp data % 256 ^ (data.length + more) =
        fromLittle data - 256 ^ data.length + 256 ^ (data.length + more) := by
      have bound : (256 : Int) ^ data.length ≤ 256 ^ (data.length + more) := by exact_mod_cast above
      have low : (fromLittle data : Int) < 256 ^ data.length := by exact_mod_cast small
      rw [value, ← Int.add_emod_right, Int.emod_eq_of_lt] <;> omega
    rw [wrapped, regFill, if_pos negative.1, if_pos negative.2, fromLittle_append]
    have total : 256 ^ data.length * fromLittle (List.replicate more 0xff) + 256 ^ data.length =
        256 ^ (data.length + more) := by
      rw [power, ← ones, Nat.mul_add, Nat.mul_one]
    have cast : (256 : Int) ^ (data.length + more) = (256 ^ (data.length + more) : Nat) := by push_cast; rfl
    have unit : (256 : Int) ^ data.length = (256 ^ data.length : Nat) := by push_cast; rfl
    rw [cast, unit]
    omega
  · have fill : regFill tp data = 0 := by
      unfold regFill
      split
      · rename_i signed
        exact if_neg fun sign => negative ⟨signed, sign⟩
      · rfl
    have value : payloadInt tp data = fromLittle data := by
      unfold payloadInt
      split
      · rename_i signed
        have low : ¬ 256 ^ data.length ≤ 2 * fromLittle data := fun high =>
          negative ⟨signed, (last_sign_iff payload).mpr high⟩
        have low : 2 * (fromLittle data : Int) < 256 ^ data.length := by exact_mod_cast Nat.lt_of_not_le low
        rw [loadSigned, List.take_length, if_pos low]
      · rw [loadUnsigned, List.take_length]
    rw [fill, fromLittle_append, fromLittle_zeros, Nat.mul_zero, Nat.add_zero, value]
    have cast : (256 : Int) ^ (data.length + more) = (256 ^ (data.length + more) : Nat) := by push_cast; rfl
    rw [cast, Int.emod_eq_of_lt (by omega) (by omega), Int.toNat_natCast]

/-- What a register holds after a SET, as a GET shows it. -/
def registerValue (ptrSize : Nat) (type : RegType) (data : List UInt8) : List UInt8 :=
  if type = .bit then [if data.headD 0 ≠ 0 then 1 else 0]
  else if type.size ptrSize ≤ data.length then data.take (type.size ptrSize)
  else storeInt (type.size ptrSize) (payloadInt type.number data)

namespace RegSlot

variable {ptrSize : Nat} {slot : RegSlot}

theorem getRegister_setRegister (ptrSize : Nat) (small : slot.cursor.bitoffset < 8) (payload : data ≠ [])
    (state : Memory) :
    getRegister (setRegister state (slot.toPlace ptrSize) data) (slot.toPlace ptrSize) =
      let value := registerValue ptrSize slot.entry.type data
      if regIsOpt slot.entry.type.number ∧ value.all (· = 0) then none else some value := by
  by_cases single : slot.entry.type = .bit
  · have number : (slot.toPlace ptrSize).tp = regBit := slot.entry.number_eq_bit_iff.mpr single
    have plain : regIsOpt slot.entry.type.number = false := by
      rw [single]
      decide
    have shown : getBit (setRegister state (slot.toPlace ptrSize) data slot.cursor.offset) slot.cursor.bitoffset =
        decide (data.headD 0 ≠ 0) := by
      rw [setRegister_bit single, Memory.write_byte, getBit_setBit _ _ small small, if_pos rfl]
    rw [getRegister, if_pos number]
    simp only [registerValue, if_pos single, plain, Bool.false_eq_true, false_and, if_false]
    show some [if getBit (setRegister state (slot.toPlace ptrSize) data slot.cursor.offset) slot.cursor.bitoffset then 1
      else 0] = _
    rw [shown]
    simp only [decide_eq_true_eq]
  · have number : (slot.toPlace ptrSize).tp ≠ regBit := mt slot.entry.number_eq_bit_iff.mp single
    have held : (setRegister state (slot.toPlace ptrSize) data).read (slot.toPlace ptrSize).cursor.offset
        (slot.toPlace ptrSize).regsz = registerValue ptrSize slot.entry.type data := by
      unfold setRegister registerValue
      rw [if_neg number, if_neg single]
      by_cases enough : slot.entry.type.size ptrSize ≤ data.length
      · have within : (slot.toPlace ptrSize).regsz ≤ data.length := enough
        rw [if_pos enough, if_pos within]
        exact Memory.read_write_block (List.length_take_of_le enough)
      · have within : ¬ (slot.toPlace ptrSize).regsz ≤ data.length := enough
        obtain ⟨more, size⟩ := Nat.exists_eq_add_of_le (Nat.le_of_not_le enough)
        rw [if_neg enough, if_neg within, size, storeInt_payloadInt _ payload]
        have fill : (slot.toPlace ptrSize).regsz - data.length = more := by
          show slot.entry.type.size ptrSize - data.length = more
          omega
        rw [fill]
        refine Memory.read_write_block ?_
        rw [List.length_append, List.length_replicate]
        exact size.symm
    rw [getRegister, if_neg number]
    simp only [held]
    rfl

end RegSlot

namespace RegDescription

variable {ptrSize : Nat} {desc : RegDescription ptrSize} {slot : RegSlot}

/-- After a SET of a register a GET answers with the value that was set; only an
optional register that is all zeros is not answered. -/
theorem register_set_get (distinct : desc.Distinct) (member : slot ∈ desc.layout)
    (writable : settable slot.entry.code) (_ : slot.entry.code ≠ 0) (data : List UInt8) (payload : 1 ≤ data.length)
    (state : Memory) :
    ∃ after, serviceHandleRegister ptrSize state ⟨0x2000 + slot.entry.code, data⟩ desc.sdesc =
        .ok ⟨slot.entry.code, after, none⟩ ∧
      regReply ptrSize after desc.sdesc slot.entry.code =
        let value := registerValue ptrSize slot.entry.type data
        .ok (if regIsOpt slot.entry.type.number ∧ value.all (· = 0) then (0, none)
          else (-slot.entry.code, some value)) := by
  have small := writable.1
  have set : isSet (0x2000 + slot.entry.code) = true := decide_eq_true (by omega)
  have code : regCode (0x2000 + slot.entry.code) = slot.entry.code := by
    unfold regCode
    omega
  have found := distinct.find_eq member small
  have chosen : desc.target ⟨0x2000 + slot.entry.code, data⟩ = some slot := by
    have present : data.length ≠ 0 := by omega
    simp only [target, code, present, writable, not_true, or_self, if_false, found]
  have handled := desc.handle_set ⟨0x2000 + slot.entry.code, data⟩ set state
  rw [chosen, code] at handled
  refine ⟨_, handled, ?_⟩
  have shown := RegSlot.getRegister_setRegister ptrSize (desc.layout_bitoffset member)
    (List.ne_nil_of_length_pos payload) state
  rw [desc.regReply_eq _ small, reply, if_neg (Nat.not_le.mpr small), found, Option.bind_some, Option.elim_some, shown]
  dsimp only
  split <;> rfl

end RegDescription

/-- A bit, a signed number, an optional one and three bytes. -/
def fourRegisters : RegDescription 4 where
  entries := [⟨.bit, 0x80, RegEntry.first_lt, RegEntry.bit_positive, RegEntry.bit_ongoing⟩, ⟨.i32, 0x81, RegEntry.second_lt, nofun, by decide⟩,
    ⟨.opt16, 0x82, by decide, nofun, by decide⟩,
    ⟨.bytes 3, 0x83, by decide, fun _ same => by cases same; decide, by decide⟩]
  ptr := RegDescription.ptr_four
  fits := by decide

/-- A short payload with its sign bit set, and the optional register set to zero. -/
theorem register_set_get_four :
    (∃ after, serviceHandleRegister 4 (fun _ => 7) ⟨0x2081, [0xfe]⟩ fourRegisters.sdesc = .ok ⟨0x81, after, none⟩ ∧
      regReply 4 after fourRegisters.sdesc 0x81 = .ok (-0x81, some [0xfe, 0xff, 0xff, 0xff])) ∧
    ∃ after, serviceHandleRegister 4 (fun _ => 7) ⟨0x2082, [0]⟩ fourRegisters.sdesc = .ok ⟨0x82, after, none⟩ ∧
      regReply 4 after fourRegisters.sdesc 0x82 = .ok (0, none) := by
  have distinct : fourRegisters.Distinct := by decide +kernel
  have number : (⟨⟨.i32, 0x81, RegEntry.second_lt, nofun, by decide⟩, ⟨4, 0⟩⟩ : RegSlot) ∈ fourRegisters.layout :=
    List.mem_cons_of_mem _ (List.mem_cons_self ..)
  have optional : (⟨⟨.opt16, 0x82, by decide, nofun, by decide⟩, ⟨8, 0⟩⟩ : RegSlot) ∈ fourRegisters.layout :=
    List.mem_cons_of_mem _ (List.mem_cons_of_mem _ (List.mem_cons_self ..))
  have extended : registerValue 4 .i32 [0xfe] = [0xfe, 0xff, 0xff, 0xff] := by decide +kernel
  have zero : registerValue 4 .opt16 [0] = [0, 0] := by decide +kernel
  constructor
  · obtain ⟨after, handled, shown⟩ := RegDescription.register_set_get distinct number (by decide) (by decide)
      [0xfe] (by decide) fun _ => 7
    rw [extended] at shown
    exact ⟨after, handled, shown⟩
  · obtain ⟨after, handled, shown⟩ := RegDescription.register_set_get distinct optional (by decide)
      (by decide) [0] (by decide) fun _ => 7
    rw [zero] at shown
    exact ⟨after, handled, shown⟩

end Jacdac
