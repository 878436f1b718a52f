import Jacdac.Services.RegisterEffects

/-! The fields a description starts with as padding (`vt`, `service_index` and
the flags) are out of reach of the bus, for reading and for writing. -/

namespace Jacdac

/-- Packets passed to `service_handle_register` one after another, with the
return codes and replies. -/
def handleRegisters (ptrSize : Nat) (sdesc : List Nat) :
    Memory → List RegPacket → Except RegFault (Memory × List (Int × Option (List UInt8)))
  | state, [] => .ok (state, [])
  | state, pkt :: pkts =>
    match serviceHandleRegister ptrSize state pkt sdesc with
    | .error fault => .error fault
    | .ok result =>
      match handleRegisters ptrSize sdesc result.state pkts with
      | .error fault => .error fault
      | .ok (last, replies) => .ok (last, (result.ret, result.sent) :: replies)

/-- The size of `REG_SRV_COMMON`. -/
def regSrvCommon (ptrSize : Nat) : Nat := ptrSize + 2

/-- The size of `REG_SENSOR_COMMON`. -/
def regSensorCommon (ptrSize : Nat) : Nat := ptrSize + 2 + 2 + 4 + ptrSize + 4

/-- A description that starts with `size` bytes of padding. -/
structure RegDescription.Leads (desc : RegDescription ptrSize) (header : RegEntry) (size : Nat) : Prop where
  first : ∃ rest, desc.entries = header :: rest
  array : header.type = .bytes size
  padding : header.code = regPadding

/-- Two states that agree from byte `size` on. -/
def AgreeFrom (size : Nat) (first second : Memory) : Prop := ∀ cell, size ≤ cell → first cell = second cell

theorem AgreeFrom.write (agree : AgreeFrom size first second) (address : Nat) (bytes : List UInt8) :
    AgreeFrom size (first.write address bytes) (second.write address bytes) := by
  intro cell inside
  unfold Memory.write
  rw [agree cell inside]

theorem AgreeFrom.bitAt_eq (agree : AgreeFrom size first second) (inside : 8 * size ≤ bit) :
    bitAt first bit = bitAt second bit := by
  unfold bitAt
  rw [agree (bit / 8) (by omega)]

namespace RegDescription.Leads

variable {ptrSize : Nat} {desc : RegDescription ptrSize} {header : RegEntry}

/-- Every register a packet can name lies behind the header. -/
theorem firstBit_le (leads : desc.Leads header size) (found : desc.find reg = some slot)
    (small : reg < 0xf00) : 8 * size ≤ slot.firstBit := by
  obtain ⟨rest, entries⟩ := leads.first
  obtain ⟨member, named⟩ := find_some found
  have ptr := desc.ptr_pos
  have step : header.step ptrSize ⟨0, 0⟩ = ⟨size, 0⟩ := by
    have whole : header.type ≠ .bit := by
      rw [leads.array]
      nofun
    have packed : header.type.packed = true := by
      rw [leads.array]
      rfl
    rw [RegEntry.step_whole whole, RegEntry.start, if_pos packed, RegEntry.size, leads.array]
    simp [RegType.size]
  rw [RegDescription.layout, entries, RegEntry.layout, step] at member
  rcases List.mem_cons.mp member with same | later
  · have code : slot.entry.code = regPadding := by
      rw [same]
      exact leads.padding
    unfold regPadding at code
    omega
  · obtain ⟨before, after, _, place⟩ := RegEntry.mem_layout_iff.mp later
    have small : (⟨size, 0⟩ : RegCursor).bitoffset < 8 := Nat.zero_lt_succ _
    have onward : size ≤ (RegEntry.finish ptrSize before ⟨size, 0⟩).offset :=
      RegEntry.finish_offset before ptr small
    have begins : size ≤ slot.cursor.offset := by
      rw [place]
      rcases slot.entry.start_offset ptr (RegEntry.finish ptrSize before ⟨size, 0⟩) with
        ⟨_, same⟩ | ⟨_, _, lower, _⟩
      · rw [same]
        exact onward
      · exact onward.trans lower
    unfold RegSlot.firstBit
    split <;> omega

/-- A SET of such a register keeps the header, and does the same to states that
differ only in the header. -/
theorem setRegister_agree (leads : desc.Leads header size) (found : desc.find reg = some slot)
    (small : reg < 0xf00) (agree : AgreeFrom size state other) (data : List UInt8) :
    (∀ cell < size, setRegister state (slot.toPlace ptrSize) data cell = state cell) ∧
      AgreeFrom size (setRegister state (slot.toPlace ptrSize) data)
        (setRegister other (slot.toPlace ptrSize) data) := by
  have behind := leads.firstBit_le found small
  have bitoffset := desc.layout_bitoffset (find_some found).1
  constructor
  · intro cell inside
    apply cell_eq_of_bits
    intro bit lower upper
    exact RegSlot.setRegister_frame bitoffset data (.inl (by omega))
  · by_cases single : slot.entry.type = .bit
    · rw [RegSlot.firstBit, if_pos single] at behind
      rw [RegSlot.setRegister_bit single, RegSlot.setRegister_bit single, agree _ (by omega)]
      exact agree.write _ _
    · obtain ⟨bytes, _, stored⟩ := RegSlot.setRegister_whole ptrSize single data
      rw [stored, stored]
      exact agree.write _ _

/-- One packet, from two states that differ only in the header. -/
theorem handle_agree (leads : desc.Leads header size) (agree : AgreeFrom size state other)
    (pkt : RegPacket) :
    ∃ ret sent after afterOther,
      serviceHandleRegister ptrSize state pkt desc.sdesc = .ok ⟨ret, after, sent⟩ ∧
      serviceHandleRegister ptrSize other pkt desc.sdesc = .ok ⟨ret, afterOther, sent⟩ ∧
      (∀ cell < size, after cell = state cell) ∧ (∀ cell < size, afterOther cell = other cell) ∧
      AgreeFrom size after afterOther := by
  by_cases get : isGet pkt.serviceCommand = true
  · rw [desc.handle_get pkt get, desc.handle_get pkt get]
    have same : desc.reply state (regCode pkt.serviceCommand) =
        desc.reply other (regCode pkt.serviceCommand) := by
      unfold RegDescription.reply
      split
      · rfl
      · rename_i open_
        cases found : desc.find (regCode pkt.serviceCommand) with
        | none => rfl
        | some slot =>
          have behind := leads.firstBit_le found (Nat.lt_of_not_le open_)
          exact RegSlot.getRegister_congr (desc.layout_bitoffset (find_some found).1)
            fun bit lower _ => agree.bitAt_eq (behind.trans lower)
    rw [same]
    exact ⟨_, _, state, other, rfl, rfl, fun _ _ => rfl, fun _ _ => rfl, agree⟩
  · by_cases set : isSet pkt.serviceCommand = true
    · rw [desc.handle_set pkt set, desc.handle_set pkt set]
      cases chosen : desc.target pkt with
      | none => exact ⟨_, _, state, other, rfl, rfl, fun _ _ => rfl, fun _ _ => rfl, agree⟩
      | some slot =>
        obtain ⟨writable, found⟩ := target_some chosen
        obtain ⟨kept, same⟩ := leads.setRegister_agree found writable.1 agree pkt.data
        obtain ⟨keptOther, _⟩ := leads.setRegister_agree found writable.1 (fun _ _ => rfl : AgreeFrom size other other)
          pkt.data
        exact ⟨_, _, _, _, rfl, rfl, kept, keptOther, same⟩
    · have neither : ¬ isGet pkt.serviceCommand = true ∧ ¬ isSet pkt.serviceCommand = true := ⟨get, set⟩
      simp only [serviceHandleRegister, if_pos neither]
      exact ⟨_, _, state, other, rfl, rfl, fun _ _ => rfl, fun _ _ => rfl, agree⟩

end RegDescription.Leads

/-- No sequence of packets changes a byte of the header, and none of the replies
or of the other bytes depends on it. -/
theorem service_header_out_of_reach (desc : RegDescription ptrSize) (leads : desc.Leads header size)
    (pkts : List RegPacket) (state other : Memory)
    (agree : ∀ cell, size ≤ cell → state cell = other cell) :
    ∃ last lastOther replies,
      handleRegisters ptrSize desc.sdesc state pkts = .ok (last, replies) ∧
      handleRegisters ptrSize desc.sdesc other pkts = .ok (lastOther, replies) ∧
      (∀ cell < size, last cell = state cell) ∧ (∀ cell < size, lastOther cell = other cell) ∧
      ∀ cell, size ≤ cell → last cell = lastOther cell := by
  induction pkts generalizing state other with
  | nil => exact ⟨state, other, [], rfl, rfl, fun _ _ => rfl, fun _ _ => rfl, agree⟩
  | cons pkt pkts ih =>
    obtain ⟨ret, sent, after, afterOther, first, second, kept, keptOther, same⟩ :=
      leads.handle_agree agree pkt
    obtain ⟨last, lastOther, replies, ran, ranOther, later, laterOther, final⟩ := ih after afterOther same
    refine ⟨last, lastOther, (ret, sent) :: replies, ?_, ?_, ?_, ?_, final⟩
    · simp only [handleRegisters, first, ran]
    · simp only [handleRegisters, second, ranOther]
    · exact fun cell inside => (later cell inside).trans (kept cell inside)
    · exact fun cell inside => (laterOther cell inside).trans (keptOther cell inside)

/-- A service with one register behind its header. -/
def oneRegister : RegDescription 4 where
  entries := [⟨.bytes (regSrvCommon 4), regPadding, RegEntry.padding_lt, fun _ same => by cases same; decide, by decide⟩,
    ⟨.u16, 0x01, by decide, nofun, by decide⟩]
  ptr := RegDescription.ptr_four
  fits := by decide

theorem service_header_out_of_reach_one :
    ∃ last lastOther replies,
      handleRegisters 4 oneRegister.sdesc (fun _ => 0) [⟨0x2001, [5]⟩, ⟨0x1001, []⟩] = .ok (last, replies) ∧
      handleRegisters 4 oneRegister.sdesc (fun cell => if cell < 6 then 7 else 0)
        [⟨0x2001, [5]⟩, ⟨0x1001, []⟩] = .ok (lastOther, replies) ∧ last 0 = 0 ∧ lastOther 0 = 7 := by
  obtain ⟨last, lastOther, replies, ran, ranOther, kept, keptOther, _⟩ :=
    service_header_out_of_reach oneRegister ⟨⟨_, rfl⟩, rfl, rfl⟩ [⟨0x2001, [5]⟩, ⟨0x1001, []⟩] (fun _ => 0)
      (fun cell => if cell < 6 then 7 else 0) (fun cell behind => by
        have : ¬ cell < 6 := Nat.not_lt.mpr behind
        simp [this])
  exact ⟨last, lastOther, replies, ran, ranOther, kept 0 (by decide), keptOther 0 (by decide)⟩

end Jacdac
