import Mathlib.Data.List.Pairwise
import Jacdac.Services.RegisterFrame

/-! Writes to a register against the other registers of the description and the
padding. A byte array starts at the cursor's byte even when bits have already
used a part of it; these are the only places where storage is shared. -/

namespace Jacdac

/-- The reply to a GET packet, with the return code. -/
def regReply (ptrSize : Nat) (state : Memory) (sdesc : List Nat) (reg : Nat) :
    Except RegFault (Int × Option (List UInt8)) :=
  (serviceHandleRegister ptrSize state ⟨0x1000 + reg, []⟩ sdesc).map fun result => (result.ret, result.sent)

/-- A register that a GET can read, or padding. -/
def observable (reg : Nat) : Prop := reg < 0xf00 ∨ reg = regPadding

/-- One of the entries can be written and the other one is visible. -/
def Interferes (first second : RegEntry) : Prop :=
  (RegDescription.settable first.code ∧ observable second.code) ∨
    (RegDescription.settable second.code ∧ observable first.code)

theorem Interferes.symm (interferes : Interferes first second) : Interferes second first :=
  interferes.elim .inr .inl

/-- The bits in use in the byte behind the entries. -/
def openBits (entries : List RegEntry) : Nat :=
  entries.foldl (fun bits entry =>
    match entry.type with
    | .bit => (bits + 1) % 8
    | .bytes _ => bits
    | _ => 0) 0

/-- Where a byte array follows bits that leave a byte unfinished, none of the
bits in that byte and the array interfere. -/
def ArraysApart (entries : List RegEntry) : Prop :=
  ∀ (before : List RegEntry) (bit : RegEntry) (run : List RegEntry) (array : RegEntry)
    (after : List RegEntry) (size : Nat),
    entries = before ++ bit :: (run ++ array :: after) → bit.type = .bit →
    (∀ entry ∈ run, entry.type = .bit) → array.type = .bytes size →
    run.length < openBits (before ++ bit :: run) → ¬ Interferes bit array

theorem finish_openBits (ptr : 0 < ptrSize) (entries : List RegEntry) :
    (RegEntry.finish ptrSize entries ⟨0, 0⟩).bitoffset = openBits entries := by
  suffices general : ∀ cursor : RegCursor, cursor.bitoffset < 8 →
      (RegEntry.finish ptrSize entries cursor).bitoffset = entries.foldl (fun bits entry =>
        match entry.type with
        | .bit => (bits + 1) % 8
        | .bytes _ => bits
        | _ => 0) cursor.bitoffset from general ⟨0, 0⟩ (by decide)
  induction entries with
  | nil => exact fun _ _ => rfl
  | cons entry rest ih =>
    intro cursor small
    rw [RegEntry.finish_cons, ih _ (entry.step_bitoffset ptr small), List.foldl_cons]
    congr 1
    by_cases bit : entry.type = .bit
    · rw [RegEntry.step_bit bit small, bit]
    · rw [RegEntry.step_whole bit]
      dsimp only
      rcases entry.start_offset ptr cursor with ⟨packed, same⟩ | ⟨scalar, zero, _⟩
      · rw [same]
        cases type : entry.type with
        | bit => exact absurd type bit
        | bytes size => rfl
        | _ => rw [type] at packed; cases packed
      · rw [zero]
        cases type : entry.type with
        | bit => exact absurd type bit
        | bytes size => rw [type] at scalar; cases scalar
        | _ => rfl

namespace RegDescription

variable {ptrSize : Nat} {desc : RegDescription ptrSize}

/-- A SET changes no other register's reply and no padding. -/
def Independent (desc : RegDescription ptrSize) : Prop :=
  ∀ (state : Memory) (pkt : RegPacket) (result : RegResult), isSet pkt.serviceCommand = true →
    serviceHandleRegister ptrSize state pkt desc.sdesc = .ok result →
    (∀ reg < 0xf00, reg ≠ regCode pkt.serviceCommand →
      regReply ptrSize result.state desc.sdesc reg = regReply ptrSize state desc.sdesc reg) ∧
    ∀ slot ∈ desc.layout, slot.entry.code = regPadding →
      ∀ bit, slot.firstBit ≤ bit → bit < slot.lastBit ptrSize →
        bitAt result.state bit = bitAt state bit

theorem regReply_eq (desc : RegDescription ptrSize) (state : Memory) (small : reg < 0xf00) :
    regReply ptrSize state desc.sdesc reg =
      .ok ((desc.reply state reg).elim 0 fun _ => -reg, desc.reply state reg) := by
  have get : isGet (0x1000 + reg) = true := decide_eq_true (by omega)
  have code : regCode (0x1000 + reg) = reg := by
    unfold regCode
    omega
  have handled := desc.handle_get ⟨0x1000 + reg, []⟩ get state
  rw [code] at handled
  rw [regReply, handled]
  rfl

theorem find_some (found : desc.find reg = some slot) : slot ∈ desc.layout ∧ slot.entry.code = reg := by
  refine ⟨List.mem_of_find?_eq_some found, ?_⟩
  have named := List.find?_some found
  exact of_decide_eq_true named

theorem target_some (chosen : desc.target pkt = some slot) :
    settable (regCode pkt.serviceCommand) ∧ desc.find (regCode pkt.serviceCommand) = some slot := by
  unfold target at chosen
  split at chosen
  · cases chosen
  · rename_i accepted
    exact ⟨not_not.mp (not_or.mp accepted).2, chosen⟩

/-- Slots that interfere share no bit. -/
def ApartIfInterfering (ptrSize : Nat) (first second : RegSlot) : Prop :=
  Interferes first.entry second.entry →
    first.lastBit ptrSize ≤ second.firstBit ∨ second.lastBit ptrSize ≤ first.firstBit

instance : Std.Symm (ApartIfInterfering ptrSize) :=
  ⟨fun _ _ apart interferes => (apart interferes.symm).symm⟩

theorem slots_disjoint (apart : ArraysApart desc.entries) :
    desc.layout.Pairwise (ApartIfInterfering ptrSize) := by
  have ptr := desc.ptr_pos
  -- the suffix of the description that is laid out, with what comes before it
  suffices general : ∀ before suffix, desc.entries = before ++ suffix →
      (RegEntry.layout ptrSize suffix (RegEntry.finish ptrSize before ⟨0, 0⟩)).Pairwise
        (ApartIfInterfering ptrSize) from
    general [] desc.entries rfl
  intro before suffix split
  induction suffix generalizing before with
  | nil => exact List.Pairwise.nil
  | cons entry rest ih =>
    have small : (RegEntry.finish ptrSize before ⟨0, 0⟩).bitoffset < 8 :=
      RegEntry.finish_bitoffset before ptr (by decide)
    rw [RegEntry.layout, List.pairwise_cons]
    constructor
    · intro later member interferes
      obtain ⟨between, after, within, place⟩ := RegEntry.mem_layout_iff.mp member
      rcases RegEntry.separated entry later.entry between ptr small with disjoint | shared
      · rw [← place] at disjoint
        exact .inl disjoint
      · obtain ⟨bit, run, ⟨size, array⟩, count, _⟩ := shared
        refine absurd interferes (apart before entry between later.entry after size ?_ bit run array ?_)
        · rw [split, within]
        · rw [← finish_openBits ptr, RegEntry.finish_append]
          exact count
    · have next := ih (before ++ [entry]) (by rw [split, List.append_assoc]; rfl)
      rwa [RegEntry.finish_append] at next

/-- Where arrays are apart, writes do not interfere. -/
theorem independent_of_apart (apart : ArraysApart desc.entries) : desc.Independent := by
  intro state pkt result set handled
  rw [desc.handle_set pkt set state] at handled
  obtain rfl := Except.ok.inj handled
  dsimp only
  cases chosen : desc.target pkt with
  | none => exact ⟨fun _ _ _ => rfl, fun _ _ _ _ _ _ => rfl⟩
  | some slot =>
    obtain ⟨writable, found⟩ := target_some chosen
    obtain ⟨member, code⟩ := find_some found
    have frame : ∀ other ∈ desc.layout, observable other.entry.code → other.entry.code ≠ slot.entry.code →
        ∀ bit, other.firstBit ≤ bit → bit < other.lastBit ptrSize →
          bitAt (setRegister state (slot.toPlace ptrSize) pkt.data) bit = bitAt state bit := by
      intro other present visible different bit lower upper
      have disjoint := (slots_disjoint apart).forall present member (fun same => different (same ▸ rfl))
        (.inr ⟨code ▸ writable, visible⟩)
      exact RegSlot.setRegister_frame (desc.layout_bitoffset member) _ (by omega)
    constructor
    · intro reg small different
      rw [desc.regReply_eq _ small, desc.regReply_eq _ small]
      have same : desc.reply (setRegister state (slot.toPlace ptrSize) pkt.data) reg = desc.reply state reg := by
        unfold reply
        rw [if_neg (by omega)]
        cases other : desc.find reg with
        | none => rfl
        | some register =>
          obtain ⟨present, named⟩ := find_some other
          exact RegSlot.getRegister_congr (desc.layout_bitoffset present)
            (frame register present (.inl (by omega)) (by rw [named, code]; exact different))
      rw [Option.elim_some, same]
    · intro padding present named
      refine frame padding present (.inr named) ?_
      intro same
      have := writable.1
      rw [same, code] at named
      unfold regPadding at named
      omega

/-- Slots of different registers have different codes. -/
def CodesDiffer (first second : RegSlot) : Prop :=
  first.entry.code = second.entry.code → 0xf00 ≤ first.entry.code

instance : Std.Symm CodesDiffer := ⟨fun _ _ differ same => same ▸ differ same.symm⟩

/-- The registers of the description have different codes; padding may repeat. -/
def Distinct (desc : RegDescription ptrSize) : Prop :=
  desc.entries.Pairwise fun first second => first.code = second.code → 0xf00 ≤ first.code

instance (desc : RegDescription ptrSize) : Decidable desc.Distinct :=
  inferInstanceAs (Decidable (List.Pairwise _ _))

theorem Distinct.slot_eq (distinct : desc.Distinct) (first : slot ∈ desc.layout) (second : other ∈ desc.layout)
    (small : slot.entry.code < 0xf00) (same : slot.entry.code = other.entry.code) : slot = other := by
  have differ : desc.layout.Pairwise CodesDiffer := by
    unfold Distinct at distinct
    rw [← RegEntry.layout_map_entry ptrSize desc.entries ⟨0, 0⟩, List.pairwise_map] at distinct
    exact distinct
  by_contra apart
  have := differ.forall first second apart same
  omega

theorem Distinct.find_eq (distinct : desc.Distinct) (member : slot ∈ desc.layout)
    (small : slot.entry.code < 0xf00) : desc.find slot.entry.code = some slot := by
  cases found : desc.find slot.entry.code with
  | none =>
    have missing := List.find?_eq_none.mp found slot member
    simp at missing
  | some other =>
    obtain ⟨present, named⟩ := find_some found
    rw [distinct.slot_eq member present small named.symm]

private theorem shared_bit (independent : desc.Independent) (distinct : desc.Distinct)
    {writer reader : RegSlot} (bit : Nat) (data : List UInt8) (writes : writer ∈ desc.layout)
    (reads : reader ∈ desc.layout) (different : writer ≠ reader) (writable : settable writer.entry.code)
    (visible : observable reader.entry.code) (packed : reader.entry.type.packed = true)
    (lower : reader.firstBit ≤ bit) (upper : bit < reader.lastBit ptrSize) (payload : data ≠ [])
    (changes : bitAt (setRegister (fun _ => 0) (writer.toPlace ptrSize) data) bit = true) : False := by
  have small := writable.1
  have set : isSet (0x2000 + writer.entry.code) = true := decide_eq_true (by omega)
  have code : regCode (0x2000 + writer.entry.code) = writer.entry.code := by
    unfold regCode
    omega
  have chosen : desc.target ⟨0x2000 + writer.entry.code, data⟩ = some writer := by
    have present : data.length ≠ 0 := fun empty => payload (List.length_eq_zero_iff.mp empty)
    simp only [target, code, present, writable, not_true, or_self, if_false, distinct.find_eq writes small]
  have handled := desc.handle_set ⟨0x2000 + writer.entry.code, data⟩ set fun _ => 0
  rw [chosen] at handled
  obtain ⟨replies, padding⟩ := independent _ _ _ set handled
  have kept : bitAt (setRegister (fun _ => 0) (writer.toPlace ptrSize) data) bit =
      bitAt (fun _ => 0) bit := by
    rcases visible with register | pad
    · have apart : reader.entry.code ≠ writer.entry.code := fun same =>
        different (distinct.slot_eq writes reads small same.symm)
      have same := replies reader.entry.code register (by rw [code]; exact apart)
      rw [desc.regReply_eq _ register, desc.regReply_eq _ register] at same
      have shown := (Prod.mk.inj (Except.ok.inj same)).2
      simp only [reply, if_neg (Nat.not_le.mpr register), distinct.find_eq reads register,
        Option.bind_some] at shown
      exact RegSlot.bits_of_getRegister (desc.layout_bitoffset reads) packed shown lower upper
    · exact padding reader reads pad bit lower upper
  rw [changes] at kept
  have zero : bitAt (fun _ => 0) bit = false := by simp [bitAt, getBit]
  rw [zero] at kept
  cases kept

/-- Where a bit and an array share a byte and interfere, one of them is changed
by a SET of the other. -/
theorem apart_of_independent (distinct : desc.Distinct) (independent : desc.Independent) :
    ArraysApart desc.entries := by
  intro before bit run array after size split isBit bits isArray count interferes
  have ptr := desc.ptr_pos
  rw [← finish_openBits ptr, RegEntry.finish_append] at count
  have small : (RegEntry.finish ptrSize before ⟨0, 0⟩).bitoffset < 8 :=
    RegEntry.finish_bitoffset before ptr (by decide)
  generalize start : RegEntry.finish ptrSize before ⟨0, 0⟩ = cursor at count small
  have all : ∀ entry ∈ bit :: run, entry.type = .bit := by
    intro entry member
    rcases List.mem_cons.mp member with rfl | later
    · exact isBit
    · exact bits entry later
  have behind : RegEntry.finish ptrSize (bit :: run) cursor =
      ⟨cursor.offset, cursor.bitoffset + (run.length + 1)⟩ := by
    have counted : RegEntry.finish ptrSize (bit :: run) cursor = _ := RegEntry.finish_bits _ all small
    rw [counted, List.length_cons] at count
    rw [counted, List.length_cons, RegCursor.mk.injEq]
    dsimp only at count
    omega
  have packed : array.type.packed = true := by
    rw [isArray]
    rfl
  have bitSlot : (⟨bit, cursor⟩ : RegSlot) ∈ desc.layout := by
    refine RegEntry.mem_layout_iff.mpr ⟨before, run ++ array :: after, split, ?_⟩
    rw [start, RegEntry.start_bit isBit]
  have arraySlot : (⟨array, ⟨cursor.offset, cursor.bitoffset + (run.length + 1)⟩⟩ : RegSlot) ∈
      desc.layout := by
    refine RegEntry.mem_layout_iff.mpr ⟨before ++ bit :: run, after, ?_, ?_⟩
    · rw [split, List.append_assoc]
      rfl
    · rw [RegEntry.finish_append, start, behind, RegEntry.start, if_pos packed]
  have notBit : array.type ≠ .bit := by
    rw [isArray]
    exact fun same => RegType.noConfusion same
  have positive : 0 < array.size ptrSize := array.size_pos ptr
  have cell : (8 * cursor.offset + cursor.bitoffset) / 8 = cursor.offset := by omega
  have index : (8 * cursor.offset + cursor.bitoffset) % 8 = cursor.bitoffset := by omega
  rcases interferes with ⟨writable, visible⟩ | ⟨writable, visible⟩
  · refine shared_bit independent distinct (8 * cursor.offset + cursor.bitoffset) [1]
      bitSlot arraySlot ?_ writable visible packed ?_ ?_ (by decide) ?_
    · intro same
      exact notBit ((RegSlot.mk.inj same).1 ▸ isBit)
    · rw [RegSlot.firstBit, if_neg notBit]
      exact Nat.le_add_right _ _
    · rw [RegSlot.lastBit, if_neg notBit]
      dsimp only
      omega
    · rw [RegSlot.setRegister_bit isBit, bitAt, cell, index]
      rw [Memory.write_byte, getBit_setBit _ _ small small, if_pos rfl]
      decide
  · refine shared_bit independent distinct (8 * cursor.offset + cursor.bitoffset) [0xff]
      arraySlot bitSlot ?_ writable visible (RegEntry.packed_bit isBit) ?_ ?_ (by decide) ?_
    · intro same
      exact notBit ((RegSlot.mk.inj same).1 ▸ isBit)
    · rw [RegSlot.firstBit, if_pos isBit]
    · rw [RegSlot.lastBit, if_pos isBit]
      exact Nat.lt_succ_self _
    · have stored : setRegister (fun _ => 0) (RegSlot.toPlace ptrSize
          ⟨array, ⟨cursor.offset, cursor.bitoffset + (run.length + 1)⟩⟩) [0xff] cursor.offset = 0xff :=
        RegSlot.setRegister_head notBit positive (fun _ => 0) 0xff []
      have ones : ∀ bit : Fin 8, getBit 0xff bit = true := by decide
      rw [bitAt, cell, index, stored]
      exact ones ⟨cursor.bitoffset, small⟩

/-- Writes to registers do not interfere exactly when no byte array shares a
byte with a bit that it interferes with. -/
theorem registers_independent_iff (desc : RegDescription ptrSize) (distinct : desc.Distinct) :
    desc.Independent ↔ ArraysApart desc.entries :=
  ⟨apart_of_independent distinct, independent_of_apart⟩

end RegDescription

/-- A bit register with code 0x80, followed by two bytes with code 0x81. -/
def bitThenBytes : RegDescription 4 where
  entries := [⟨.bit, 0x80, RegEntry.first_lt, RegEntry.bit_positive, RegEntry.bit_ongoing⟩,
    ⟨.bytes 2, 0x81, RegEntry.second_lt, fun _ same => by cases same; decide, by decide⟩]
  ptr := RegDescription.ptr_four
  fits := by decide

/-- Setting the two bytes to ones sets the bit. -/
theorem bytes_overwrite_bit :
    bitThenBytes.Distinct ∧
    (regReply 4 (fun _ => 0) bitThenBytes.sdesc 0x80).toOption = some (-0x80, some [0]) ∧
    (serviceHandleRegister 4 (fun _ => 0) ⟨0x2081, [0xff, 0xff]⟩ bitThenBytes.sdesc).toOption.map
        (fun result => (result.ret, (regReply 4 result.state bitThenBytes.sdesc 0x80).toOption)) =
      some (0x81, some (-0x80, some [1])) := by
  decide +kernel

/-- With the bytes first, both registers are independent. -/
def bytesThenBit : RegDescription 4 where
  entries := [⟨.bytes 2, 0x81, RegEntry.second_lt, fun _ same => by cases same; decide, by decide⟩,
    ⟨.bit, 0x80, RegEntry.first_lt, RegEntry.bit_positive, RegEntry.bit_ongoing⟩]
  ptr := RegDescription.ptr_four
  fits := by decide

theorem registers_independent_iff_bytes_first : bytesThenBit.Independent :=
  (RegDescription.registers_independent_iff bytesThenBit (by decide +kernel)).mpr <| by
    intro before bit run array after size split isBit _ _ _
    have total := congrArg List.length split
    simp only [bytesThenBit, List.length_append, List.length_cons, List.length_nil] at total
    obtain rfl : before = [] := List.length_eq_zero_iff.mp (by omega)
    have first := (List.cons.inj split).1
    rw [← first] at isBit
    cases isBit

end Jacdac
