import Jacdac.Base.Endian
import Jacdac.Client.Roles
import Mathlib.Data.List.Infix

/-! The `SET_ROLE` command as bytes: which bytes of the packet and of the names of the
roles `rolemgr_set_role` reads. A pointer is the bytes from there to the end of what it
points into; the name of a role ends with its NUL. -/

namespace Jacdac

/-- A byte was read that is not in the packet, or not in the name of a role. -/
inductive RoleFault where
  | outsidePacket
  | outsideName
  deriving DecidableEq, Repr

/-- `memcmp(…) == 0` for a name and the bytes of a packet: it stops at the first difference. -/
def memcmpZero : Nat → List UInt8 → List UInt8 → Except RoleFault Bool
  | 0, _, _ => .ok true
  | _ + 1, [], _ => .error .outsideName
  | _ + 1, _ :: _, [] => .error .outsidePacket
  | count + 1, c :: text, d :: bytes => if c = d then memcmpZero count text bytes else .ok false

/-- `r->name[name_len] == 0`. -/
def endsAt (text : List UInt8) (nameLen : Int) : Except RoleFault Bool :=
  if nameLen < 0 then .error .outsideName
  else
    match text[nameLen.toNat]? with
    | none => .error .outsideName
    | some c => .ok (c = 0)

/-- The test of `rolemgr_lookup` for one role; the count of `memcmp` is an unsigned 32-bit number. -/
def roleMatches (text bytes : List UInt8) (nameLen : Int) : Except RoleFault Bool :=
  match memcmpZero (nameLen % 4294967296).toNat text bytes with
  | .error fault => .error fault
  | .ok false => .ok false
  | .ok true => endsAt text nameLen

/-- `rolemgr_lookup` for the name at a pointer, with the place of the role that it finds. -/
def rolemgrLookup (bytes : List UInt8) (nameLen : Int) : List Role → Except RoleFault (Option Nat)
  | [] => .ok none
  | role :: rest =>
    match roleMatches (role.name ++ [0]) bytes nameLen with
    | .error fault => .error fault
    | .ok true => .ok (some 0)
    | .ok false =>
      match rolemgrLookup bytes nameLen rest with
      | .error fault => .error fault
      | .ok found => .ok (found.map (· + 1))

/-- The size of `jd_role_manager_set_role_t`, which has `device_id`, `service_idx` and then the name. -/
def setRoleHeader : Nat := 9

def headerField (place count : Nat) (data : List UInt8) : Except RoleFault Nat :=
  if place + count ≤ data.length then .ok (fromLittle ((data.drop place).take count)) else .error .outsidePacket

namespace ClientState

/-- `rolemgr_set_role` for a packet with this payload. -/
def setRoleCommand (data : List UInt8) (state : ClientState) : Except RoleFault ClientState :=
  let nameLen : Int := data.length - setRoleHeader
  match rolemgrLookup (data.drop setRoleHeader) nameLen state.roles with
  | .error fault => .error fault
  | .ok none => .ok state
  | .ok (some index) =>
    match headerField 0 8 data with
    | .error fault => .error fault
    | .ok deviceId =>
      if deviceId = 0 then .ok (state.rolemgrSet index none)
      else
        match headerField 8 1 data with
        | .error fault => .error fault
        | .ok serviceIdx =>
          match state.setRoleTarget deviceId serviceIdx with
          | none => .ok state
          | some serv => .ok (state.rolemgrSet index (some serv))

end ClientState

section Names

variable {name bytes : List UInt8} {roles : List Role}

theorem memcmpZero_same (count : Nat) (c : UInt8) : memcmpZero (count + 1) (c :: text) (c :: bytes) = memcmpZero count text bytes :=
  if_pos rfl

theorem memcmpZero_other (count : Nat) (different : c ≠ d) :
    memcmpZero (count + 1) (c :: text) (d :: bytes) = .ok false := if_neg different

theorem endsAt_nat (text : List UInt8) (count : Nat) :
    endsAt text count = match text[count]? with
      | none => .error .outsideName
      | some c => .ok (c = 0) := if_neg (Int.not_lt.mpr (Int.natCast_nonneg count))

/-- A name that is as long as a packet allows, compared with that of a role. -/
def nameMatches (text bytes : List UInt8) : Except RoleFault Bool :=
  match memcmpZero bytes.length text bytes with
  | .error fault => .error fault
  | .ok false => .ok false
  | .ok true => endsAt text bytes.length

theorem roleMatches_eq (text : List UInt8) (small : bytes.length < 4294967296) :
    roleMatches text bytes bytes.length = nameMatches text bytes := by
  have count : ((bytes.length : Int) % 4294967296).toNat = bytes.length := by omega
  rw [roleMatches, count, nameMatches]

theorem nameMatches_same (c : UInt8) (text bytes : List UInt8) :
    nameMatches (c :: text) (c :: bytes) = nameMatches text bytes := by
  rw [nameMatches, nameMatches, List.length_cons, memcmpZero_same, endsAt_nat, endsAt_nat, List.getElem?_cons_succ]

/-- A name is read past its NUL where the packet goes on as the name does, its NUL included. -/
theorem nameMatches_spec (text : 0 ∉ name) (bytes : List UInt8) :
    nameMatches (name ++ [0]) bytes =
      if name ++ [0] <+: bytes then .error .outsideName else .ok (decide (name = bytes)) := by
  induction name generalizing bytes with
  | nil =>
    cases bytes with
    | nil => rfl
    | cons d rest =>
      by_cases zero : (0 : UInt8) = d
      · subst zero
        rw [List.nil_append, nameMatches_same, if_pos (by simp)]
        cases rest with
        | nil => rfl
        | cons => rfl
      · have apart : ¬ [(0 : UInt8)] <+: d :: rest := fun starts => zero (List.cons_prefix_cons.mp starts).1
        rw [List.nil_append, nameMatches, List.length_cons, memcmpZero_other _ zero, if_neg apart]
        rfl
  | cons c name ih =>
    obtain ⟨nonzero, others⟩ := not_or.mp fun member => text (List.mem_cons.mpr member)
    cases bytes with
    | nil =>
      rw [List.cons_append, if_neg (by simp)]
      simp [nameMatches, memcmpZero, endsAt, Ne.symm nonzero]
    | cons d rest =>
      by_cases same : c = d
      · subst same
        rw [List.cons_append, nameMatches_same, ih others]
        simp
      · have apart : ¬ (c :: (name ++ [0])) <+: d :: rest := fun starts => same (List.cons_prefix_cons.mp starts).1
        rw [List.cons_append, nameMatches, List.length_cons, memcmpZero_other _ same, if_neg apart]
        simp [same]

/-- The name of some role, its NUL included, is where the name in the packet starts. -/
def RunsPast (roles : List Role) (bytes : List UInt8) : Prop := ∃ role ∈ roles, role.name ++ [0] <+: bytes

theorem rolemgrLookup_spec (texts : ∀ role ∈ roles, 0 ∉ role.name) (small : bytes.length < 4294967296) :
    (RunsPast roles bytes ∧ rolemgrLookup bytes bytes.length roles = .error .outsideName) ∨
      (¬ RunsPast roles bytes ∧ rolemgrLookup bytes bytes.length roles = .ok (Role.lookup bytes roles)) := by
  induction roles with
  | nil => exact .inr ⟨fun ⟨_, member, _⟩ => (List.not_mem_nil member).elim, rfl⟩
  | cons role rest ih =>
    have text := texts role List.mem_cons_self
    rw [rolemgrLookup, roleMatches_eq _ small, nameMatches_spec text]
    by_cases past : role.name ++ [0] <+: bytes
    · rw [if_pos past]
      exact .inl ⟨⟨role, List.mem_cons_self, past⟩, rfl⟩
    · rw [if_neg past, Role.lookup, List.findIdx?_cons]
      by_cases same : role.name = bytes
      · -- a name without a NUL has none of the other names in front of it
        refine .inr ⟨?_, by simp [same]⟩
        rintro ⟨other, member, starts⟩
        have zero : 0 ∈ bytes := starts.subset (List.mem_append_right _ List.mem_cons_self)
        rw [← same] at zero
        exact text zero
      · simp only [same, decide_false]
        rcases ih fun other member => texts other (List.mem_cons_of_mem _ member) with
          ⟨⟨other, member, starts⟩, faulted⟩ | ⟨inside, found⟩
        · rw [faulted]
          exact .inl ⟨⟨other, List.mem_cons_of_mem _ member, starts⟩, rfl⟩
        · rw [found]
          refine .inr ⟨?_, rfl⟩
          rintro ⟨other, member, starts⟩
          rcases List.mem_cons.mp member with rfl | later
          · exact past starts
          · exact inside ⟨other, later, starts⟩

/-- Without its header a packet has no byte of a name, and the count is not a length. -/
theorem rolemgrLookup_short (short : size < setRoleHeader) (role : Role) (rest : List Role) :
    rolemgrLookup [] ((size : Int) - setRoleHeader) (role :: rest) = .error .outsidePacket := by
  have positive : (((size : Int) - setRoleHeader) % 4294967296).toNat ≠ 0 := by
    unfold setRoleHeader at short ⊢
    omega
  obtain ⟨count, same⟩ := Nat.exists_eq_succ_of_ne_zero positive
  have faulted : roleMatches (role.name ++ [0]) [] ((size : Int) - setRoleHeader) = .error .outsidePacket := by
    rw [roleMatches, same]
    cases role.name <;> rfl
  rw [rolemgrLookup, faulted]

end Names

theorem headerField_inside {data : List UInt8} (inside : place + count ≤ data.length) :
    headerField place count data = .ok (fromLittle ((data.drop place).take count)) := if_pos inside

namespace ClientState

variable {state after : ClientState} {data : List UInt8}

/-- Where all reads stay inside, the command is the one on the name of the packet. -/
theorem setRoleCommand_spec (texts : ∀ role ∈ state.roles, 0 ∉ role.name) (size : data.length < 256)
    (header : setRoleHeader ≤ data.length) :
    (RunsPast state.roles (data.drop setRoleHeader) ∧ state.setRoleCommand data = .error .outsideName) ∨
      (¬ RunsPast state.roles (data.drop setRoleHeader) ∧ state.setRoleCommand data =
        .ok (state.rolemgrSetRole (fromLittle (data.take 8)) (fromLittle ((data.drop 8).take 1))
          (data.drop setRoleHeader))) := by
  have nameLen : (data.length : Int) - setRoleHeader = (data.drop setRoleHeader).length := by
    rw [List.length_drop]
    omega
  have small : (data.drop setRoleHeader).length < 4294967296 := by
    rw [List.length_drop]
    omega
  have nine : 9 ≤ data.length := header
  unfold setRoleCommand rolemgrSetRole
  dsimp only
  rw [nameLen]
  rcases rolemgrLookup_spec texts small with ⟨past, faulted⟩ | ⟨inside, found⟩
  · rw [faulted]
    exact .inl ⟨past, rfl⟩
  · rw [found, headerField_inside (by omega), headerField_inside (by omega), List.drop_zero]
    refine .inr ⟨inside, ?_⟩
    cases Role.lookup (data.drop setRoleHeader) state.roles with
    | none => rfl
    | some index =>
      dsimp only
      split
      · rfl
      · cases state.setRoleTarget (fromLittle (data.take 8)) (fromLittle ((data.drop 8).take 1)) <;> rfl

/-- The only thing that may happen is that a role with the name in the packet is cleared, or bound
to the service that the packet addresses. -/
def Harmless (data : List UInt8) (state after : ClientState) : Prop :=
  after = state ∨ ∃ index role, setRoleHeader ≤ data.length ∧ state.roles[index]? = some role ∧
    role.name = data.drop setRoleHeader ∧
    ((fromLittle (data.take 8) = 0 ∧ after = state.rolemgrSet index none) ∨
      (fromLittle (data.take 8) ≠ 0 ∧ ∃ serv,
        state.setRoleTarget (fromLittle (data.take 8)) (fromLittle ((data.drop 8).take 1)) = some serv ∧
        after = state.rolemgrSet index (some serv)))

theorem Harmless.setRole (header : setRoleHeader ≤ data.length) :
    Harmless data state (state.rolemgrSetRole (fromLittle (data.take 8)) (fromLittle ((data.drop 8).take 1))
      (data.drop setRoleHeader)) := by
  unfold rolemgrSetRole
  cases found : Role.lookup (data.drop setRoleHeader) state.roles with
  | none => exact .inl rfl
  | some index =>
    obtain ⟨inside, named, _⟩ := List.findIdx?_eq_some_iff_getElem.mp found
    have name : state.roles[index].name = data.drop setRoleHeader := of_decide_eq_true named
    have role := List.getElem?_eq_getElem inside
    dsimp only
    by_cases zero : fromLittle (data.take 8) = 0
    · rw [if_pos zero]
      exact .inr ⟨index, _, header, role, name, .inl ⟨zero, rfl⟩⟩
    · rw [if_neg zero]
      split
      · exact .inl rfl
      · rename_i serv target
        exact .inr ⟨index, _, header, role, name, .inr ⟨zero, serv, target, rfl⟩⟩

/-- The name in the packet does not go on behind the NUL of a role's name. -/
def TakesName (data : List UInt8) (state : ClientState) : Prop :=
  state.roles = [] ∨ setRoleHeader ≤ data.length ∧
    ∀ role ∈ state.roles, ¬ role.name ++ [0] <+: data.drop setRoleHeader

instance : Decidable (TakesName data state) := inferInstanceAs (Decidable (_ ∨ _))

end ClientState

/-- A `SET_ROLE` command is harmless exactly where there are no roles, or it has its header and its
name does not start with that of a role and a NUL. -/
theorem set_role_harmless_iff {state : ClientState} {data : List UInt8}
    (texts : ∀ role ∈ state.roles, 0 ∉ role.name) (size : data.length < 256) :
    (∃ after, state.setRoleCommand data = .ok after ∧ ClientState.Harmless data state after) ↔
      state.TakesName data := by
  rcases Nat.lt_or_ge data.length setRoleHeader with short | header
  · have nothing : data.drop setRoleHeader = [] := List.drop_eq_nil_of_le (Nat.le_of_lt short)
    cases roles : state.roles with
    | nil =>
      have ran : state.setRoleCommand data = .ok state := by
        rw [ClientState.setRoleCommand, roles]
        rfl
      exact ⟨fun _ => .inl roles, fun _ => ⟨state, ran, .inl rfl⟩⟩
    | cons role rest =>
      have faulted : state.setRoleCommand data = .error .outsidePacket := by
        rw [ClientState.setRoleCommand, roles, nothing, rolemgrLookup_short short]
      constructor
      · rintro ⟨after, ran, _⟩
        rw [faulted] at ran
        cases ran
      · rintro (none_ | ⟨header, _⟩)
        · rw [roles] at none_
          cases none_
        · exact absurd header (Nat.not_le.mpr short)
  · rcases ClientState.setRoleCommand_spec texts size header with ⟨past, faulted⟩ | ⟨inside, ran⟩
    · constructor
      · rintro ⟨after, ran, _⟩
        rw [faulted] at ran
        cases ran
      · obtain ⟨role, member, starts⟩ := past
        rintro (none_ | ⟨_, apart⟩)
        · rw [none_] at member
          cases member
        · exact absurd starts (apart role member)
    · exact ⟨fun _ => .inr ⟨header, fun role member starts => inside ⟨role, member, starts⟩⟩,
        fun _ => ⟨_, ran, .setRole header⟩⟩

/-- A device with one service besides its control service, and a role without a service. -/
def lampState : ClientState where
  devices := [⟨1, 7, 0, 0, [⟨0, false⟩, ⟨5, false⟩]⟩]
  roles := [⟨[97], 5, .none, 0, none⟩]
  autoBindEnabled := true
  forceHints := false
  appDeviceId := 0
  changed := false

theorem lampState_texts : ∀ role ∈ lampState.roles, 0 ∉ role.name := by decide

theorem set_role_harmless_iff_lamp :
    ∃ after, lampState.setRoleCommand [7, 0, 0, 0, 0, 0, 0, 0, 1, 97] = .ok after ∧
      ClientState.Harmless [7, 0, 0, 0, 0, 0, 0, 0, 1, 97] lampState after :=
  (set_role_harmless_iff lampState_texts (by decide)).mpr (by decide)

/-- An empty packet makes `memcmp` read what is behind it, and a name with a NUL inside makes it read
behind the name of the role. -/
theorem set_role_reads_outside :
    lampState.setRoleCommand [] = .error .outsidePacket ∧
    lampState.setRoleCommand [7, 0, 0, 0, 0, 0, 0, 0, 1, 97, 0, 98] = .error .outsideName := ⟨rfl, rfl⟩

end Jacdac
