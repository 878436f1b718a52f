import Jacdac.Client.RoleListing
import Jacdac.Pipe.Delivery

/-! A list of roles that is streamed to its end has every visible role once, in the
order of the names. -/

namespace Jacdac

def ClientState.roleNames (client : ClientState) : List (List UInt8) := client.roles.map (·.name)

/-- The names are in strictly increasing order. -/
def Sorted (names : List (List UInt8)) : Prop := names.Pairwise (· < ·)

theorem Role.lookup_none {name : List UInt8} {roles : List Role} (absent : Role.lookup name roles = none) :
    name ∉ roles.map (·.name) := by
  intro member
  obtain ⟨role, inside, same⟩ := List.mem_map.mp member
  have other := List.findIdx?_eq_none_iff.mp absent role inside
  simp [same] at other

/-- The insertion of `jd_role_alloc` keeps the order. -/
theorem Role.insert_sorted {role : Role} {roles : List Role} (sorted : Sorted (roles.map (·.name)))
    (absent : role.name ∉ roles.map (·.name)) : Sorted ((Role.insert role roles).map (·.name)) := by
  induction roles with
  | nil => exact List.pairwise_singleton _ _
  | cons other rest ih =>
    obtain ⟨least, tail⟩ := List.pairwise_cons.mp sorted
    unfold Role.insert
    split
    · rename_i less
      refine List.pairwise_cons.mpr ⟨fun name member => ?_, sorted⟩
      rcases List.mem_cons.mp member with rfl | later
      · exact less
      · exact List.lt_trans less (least name later)
    · rename_i notLess
      have behind : role.name ∉ rest.map (·.name) := fun member => absent (List.mem_cons_of_mem _ member)
      refine List.pairwise_cons.mpr ⟨fun name member => ?_, ih tail behind⟩
      obtain ⟨inserted, here, rfl⟩ := List.mem_map.mp member
      rcases Role.mem_insert.mp here with rfl | later
      · have different : other.name ≠ inserted.name := fun same => absent (same ▸ List.mem_cons_self ..)
        exact (List.le_iff_lt_or_eq.mp (List.not_lt.mp notLess)).resolve_right different
      · exact least inserted.name (List.mem_map.mpr ⟨inserted, later, rfl⟩)

namespace ClientState

theorem rolemgrSet_names (index : Nat) (serv : Option ServicePointer) (state : ClientState) :
    (state.rolemgrSet index serv).roleNames = state.roleNames := by
  unfold rolemgrSet
  cases found : state.roles[index]? with
  | none => rfl
  | some role =>
    dsimp only
    split
    · rfl
    · obtain ⟨inside, here⟩ := List.getElem?_eq_some_iff.mp found
      have length : index < (state.roles.map (·.name)).length := (List.length_map ..).symm ▸ inside
      have same : (state.roles.map (·.name))[index] = role.name := by
        rw [List.getElem_map, here]
      rw [roleNames, List.map_set]
      exact same ▸ List.set_getElem_self length

theorem names_stable (names : List (List UInt8)) : BindStable fun state => state.roleNames = names where
  clear state index same := (state.rolemgrSet_names index none).trans same
  bind state index pointer _ same := (state.rolemgrSet_names index (some pointer)).trans same

theorem rolemgrAutobind_names (config : ClientConfig) (state : ClientState) :
    (state.rolemgrAutobind config).roleNames = state.roleNames :=
  (names_stable state.roleNames).autobind rfl config

theorem jdRoleFree_names (index : Nat) (state : ClientState) :
    (state.jdRoleFree index).roleNames.Sublist state.roleNames := by
  rw [← state.rolemgrSet_names index none]
  exact (List.eraseIdx_sublist _ index).map _

end ClientState

theorem jdComputeCrc_size (frame : Frame) : (jdComputeCrc frame).size = frame.size :=
  congrArg UInt8.toNat (jdComputeCrc_outside frame (Nat.le_refl 2))

namespace ListEntry

variable {client : ClientState} {pipe : OPipe}

theorem gained_none (kept : pipe.frame.size ≤ start) : gained client start pipe = [] := by
  rw [gained, Frame.walk_stop (.inl kept), List.map_nil]

theorem gained_written {frame : Frame} {packet : Packet} (fits : frame.size + (packet.serviceSize + 4) ≤ serialPayloadSize)
    (appended : appendPacket frame packet.serviceIndex.toNat packet.serviceCommand packet.payload = .ok (some filled)) :
    gained client frame.size (pipe.written filled) = [⟨client, packet⟩] := by
  obtain ⟨laid, valid⟩ := appendPacket_laid fits appended
  show (filled.walk frame.size).map _ = _
  rw [laid.walk fun other member => List.mem_singleton.mp member ▸ valid]
  rfl

theorem gained_flushed (now : Nat) : gained client start (pipe.flushed now) = gained client start pipe := by
  have same : (jdComputeCrc pipe.frame).walk start = pipe.frame.walk start :=
    Frame.walk_congr (jdComputeCrc_size _) fun cell beyond =>
      jdComputeCrc_outside _ (by simp only [Frame.dataOffset] at beyond; omega)
  unfold gained OPipe.flushed
  dsimp only
  rw [same]

end ListEntry

namespace OPipe

/-- The counter is in range and has no flag set. -/
structure Plain (pipe : OPipe) : Prop where
  bound : pipe.counter < 65536
  flags : pipe.counter % 128 < 32

variable {pipe next : OPipe}

theorem Plain.counted (plain : pipe.Plain) (same : next.counter = nextCounter pipe.counter) : next.Plain := by
  obtain ⟨bound, flags⟩ := plain
  unfold nextCounter at same
  exact ⟨by omega, by omega⟩

theorem plain_zero : zero.Plain := ⟨by decide, by decide⟩

theorem CallOutcome.plain (outcome : CallOutcome now pipe next packets) (plain : pipe.Plain) : next.Plain := by
  cases outcome with
  | kept => exact plain
  | deferred => exact ⟨plain.bound, plain.flags⟩
  | wrote => exact plain.counted rfl
  | flushed _ _ left =>
    rcases left with rfl | rfl
    · exact ⟨plain.bound, plain.flags⟩
    · exact ⟨plain.bound, plain.flags⟩
  | closed => exact plain.counted rfl
  | unlinked => exact plain_zero

theorem jdOpipeSendClosePkt_gained {pipe : OPipe} (sent : jdOpipeSendClosePkt now pipe = .ok (result, next))
    (client : ClientState) :
    next.status = .closedUnsent ∧ ListEntry.gained client pipe.frame.size next = [] ∨
      next.status = .closedWaiting ∧ ∃ entry : ListEntry, closes entry.packet.serviceCommand = true ∧
        ListEntry.gained client pipe.frame.size next = [entry] := by
  rcases jdOpipeSendClosePkt_cases sent with ⟨_, fits, frame, appended, rfl⟩ | ⟨_, rfl⟩ | ⟨_, rfl⟩
  · have close : closes (pipe.counter ||| (pipeCloseMask ||| pipeMetadataMask)) = true := by
      rw [closes, Nat.testBit_or]
      exact Bool.or_eq_true_iff.mpr (.inr (by decide))
    have whole : u32 (pipe.frame.size + 4) = pipe.frame.size + 4 := size_check pipe (by decide : 0 < 1048577)
    refine .inr ⟨rfl, ⟨client, ⟨serviceIndexStream, pipe.counter ||| (pipeCloseMask ||| pipeMetadataMask), []⟩⟩, close, ?_⟩
    rw [ListEntry.gained_flushed]
    exact ListEntry.gained_written (whole ▸ fits) appended
  · exact .inl ⟨rfl, ListEntry.gained_none (Nat.le_refl _)⟩
  · refine .inl ⟨rfl, ?_⟩
    rw [ListEntry.gained_flushed]
    exact ListEntry.gained_none (Nat.le_refl _)

theorem jdOpipeClose_opened (plain : pipe.Plain) (opened : pipe.status = .opened) (now : Nat) (client : ClientState) :
    ∃ result next, pipe.jdOpipeClose now = .ok (result, next) ∧ next.Plain ∧
      (next.status = .closedUnsent ∧ ListEntry.gained client pipe.frame.size next = [] ∨
        next.status = .closedWaiting ∧ ∃ entry : ListEntry, closes entry.packet.serviceCommand = true ∧
          ListEntry.gained client pipe.frame.size next = [entry]) := by
  have total : ∃ result next, jdOpipeSendClosePkt now pipe = .ok (result, next) ∧ Kept False pipe next :=
    sendClosePkt_kept pipe plain.bound False.elim (by simp [opened]) now
  obtain ⟨result, next, done, _⟩ := total
  have close : pipe.jdOpipeClose now = .ok (result, next) := by
    rw [jdOpipeClose, opened]
    exact done
  have outcome : CallOutcome now pipe next (Exchange.closePacket pipe next) :=
    @call_outcome .close now pipe result next trivial close
  exact ⟨result, next, close, outcome.plain plain, jdOpipeSendClosePkt_gained done client⟩

/-- Closing a dropped pipe frees it. -/
theorem jdOpipeClose_dropped (dropped : pipe.status = .dropped) (now : Nat) :
    pipe.jdOpipeClose now = .ok (.ok, zero) := by
  rw [jdOpipeClose, dropped]
  dsimp only
  rw [unlink, if_neg (by simp [dropped])]

theorem checkSpace_dropped (dropped : pipe.status = .dropped) (now len : Nat) :
    jdOpipeCheckSpace now pipe len = .ok (.timeout, pipe) := if_pos dropped

/-- Whether an open pipe has room; if it has not, the packet comes later. -/
theorem checkSpace_opened (opened : pipe.status = .opened) (now len : Nat) :
    (∃ next, jdOpipeCheckSpace now pipe len = .ok (.tryAgain, next) ∧ next.counter = pipe.counter ∧
      next.status = .opened) ∨
    jdOpipeCheckSpace now pipe len = .ok (.ok, pipe) ∧ u32 (pipe.frame.size + 4 + len) ≤ serialPayloadSize := by
  unfold jdOpipeCheckSpace
  rw [if_neg (by simp [opened]), if_neg (by simp [opened])]
  split
  · exact .inl ⟨pipe, rfl, rfl, opened⟩
  · rename_i idle
    split
    · rename_i fits
      exact .inr ⟨rfl, fits⟩
    · rw [doFlush_eq (not_not.mp idle)]
      exact .inl ⟨_, rfl, rfl, opened⟩

theorem jdOpipeWrite_checked (plain : pipe.Plain) (short : data.length ≤ 232)
    (checked : jdOpipeCheckSpace now pipe data.length = .ok (.ok, pipe))
    (fits : u32 (pipe.frame.size + 4 + data.length) ≤ serialPayloadSize) (client : ClientState) :
    ∃ frame, pipe.jdOpipeWrite now data = .ok (.ok, pipe.written frame) ∧
      ListEntry.gained client pipe.frame.size (pipe.written frame) = [⟨client, ⟨serviceIndexStream, pipe.counter, data⟩⟩] := by
  rw [size_check pipe (by omega)] at fits
  have index : serviceIndexStream.toNat < 256 := by decide
  obtain ⟨frame, pushed, _⟩ := appendPacket_fits index (command_lt plain.bound (by decide : 0 < 65536)) fits
  refine ⟨frame, ?_, ?_⟩
  · rw [jdOpipeWrite, jdOpipeWriteEx, checked]
    dsimp only
    rw [pushed]
    rfl
  · have room : pipe.frame.size + (data.length + 4) ≤ serialPayloadSize := by omega
    have stored : ListEntry.gained client pipe.frame.size (pipe.written frame) =
        [⟨client, ⟨serviceIndexStream, pipe.counter ||| 0, data⟩⟩] := ListEntry.gained_written room pushed
    rw [stored, Nat.or_zero]

end OPipe

namespace RoleLister

def visibleNames (hidden : List UInt8 → Bool) (roles : List Role) : List (List UInt8) :=
  (roles.map (·.name)).filter fun name => !hidden name

theorem visibleNames_append (hidden : List UInt8 → Bool) (first second : List Role) :
    visibleNames hidden (first ++ second) = visibleNames hidden first ++ visibleNames hidden second := by
  rw [visibleNames, List.map_append, List.filter_append]
  rfl

theorem nextVisible_some {hidden : List UInt8 → Bool} {roles : List Role}
    (found : nextVisible hidden roles start = some ptr) :
    ∃ skipped role rest, roles = skipped ++ role :: rest ∧ ptr = start + skipped.length ∧
      visibleNames hidden skipped = [] ∧ hidden role.name = false := by
  induction roles generalizing start with
  | nil => cases found
  | cons first roles ih =>
    unfold nextVisible at found
    split at found
    · rename_i concealed
      obtain ⟨skipped, role, rest, rfl, rfl, none_, shown⟩ := ih found
      refine ⟨first :: skipped, role, rest, rfl, by rw [List.length_cons]; omega, ?_, shown⟩
      rw [visibleNames, List.map_cons, List.filter_cons_of_neg (by simp [concealed])]
      exact none_
    · rename_i shown
      exact ⟨[], first, roles, rfl, (Option.some.inj found).symm, rfl, Bool.eq_false_iff.mpr shown⟩

theorem nextVisible_none {hidden : List UInt8 → Bool} {roles : List Role}
    (ended : nextVisible hidden roles start = none) : visibleNames hidden roles = [] := by
  induction roles generalizing start with
  | nil => rfl
  | cons first roles ih =>
    unfold nextVisible at ended
    split at ended
    · rename_i concealed
      rw [visibleNames, List.map_cons, List.filter_cons_of_neg (by simp [concealed])]
      exact ih ended
    · cases ended

/-- The entry is the data packet of the role with that name, as it was when it was written. -/
structure Lists (report : RoleReport) (entry : ListEntry) (name : List UInt8) : Prop where
  data : entry.packet.serviceIndex = serviceIndexStream ∧ entry.packet.serviceCommand % 128 < 32
  serialized : ∃ role ∈ entry.client.roles, role.name = name ∧
    entry.packet.payload = report.serializeRole entry.client role

/-- The state that no assertion fails in. -/
structure Steady (report : RoleReport) (lister : RoleLister) : Prop where
  plain : lister.listPipe.Plain
  sorted : Sorted lister.client.roleNames
  short : ∀ name ∈ lister.client.roleNames, report.offset + name.length ≤ 232
  pointer : ∀ ptr, lister.listPtr = some ptr → ptr < lister.client.roles.length ∧
    (lister.listPipe.status = .opened ∨ lister.listPipe.status = .dropped)

/-- There is no close packet. -/
def Unclosed (written : List ListEntry) : Prop := ∀ entry ∈ written, closes entry.packet.serviceCommand = false

/-- How far a list is that nothing disturbs, with the packets written to its pipe. -/
inductive Phase (report : RoleReport) (lister : RoleLister) : List ListEntry → Prop where
  | listing (pointer : lister.listPtr = some ptr) (found : lister.client.roles[ptr]? = some role)
      (shown : lister.hidden role.name = false)
      (data : List.Forall₂ (Lists report) written (visibleNames lister.hidden (lister.client.roles.take ptr))) :
      Phase report lister written
  | closing (pointer : lister.listPtr = none) (status : lister.listPipe.status = .closedUnsent)
      (data : List.Forall₂ (Lists report) written (visibleNames lister.hidden lister.client.roles)) :
      Phase report lister written
  | closed (pointer : lister.listPtr = none) (unsent : lister.listPipe.status ≠ .closedUnsent)
      (unopened : lister.listPipe.status ≠ .opened) (last : ListEntry) (closing : closes last.packet.serviceCommand = true)
      (data : List.Forall₂ (Lists report) written (visibleNames lister.hidden lister.client.roles)) :
      Phase report lister (written ++ [last])
  | ended (pointer : lister.listPtr = none) (unsent : lister.listPipe.status ≠ .closedUnsent)
      (unopened : lister.listPipe.status ≠ .opened) (unclosed : Unclosed written) :
      Phase report lister written

variable {report : RoleReport} {lister : RoleLister} {written : List ListEntry}

theorem lists_unclosed (data : List.Forall₂ (Lists report) written names) : Unclosed written := by
  induction data with
  | nil => exact nofun
  | @cons entry _ _ _ head tail ih =>
    intro other member
    rcases List.mem_cons.mp member with rfl | later
    · have flags := head.data.2
      unfold closes
      rw [Nat.testBit_eq_decide_div_mod_eq]
      exact decide_eq_false (by omega)
    · exact ih other later

/-- The end of the list, while the pipe is open: everything was written. -/
theorem Steady.closeList_opened (steady : Steady report lister) (opened : lister.listPipe.status = .opened) (now : Nat) :
    ∃ next entries, lister.closeList now = .ok (next, entries) ∧ Steady report next ∧ next.client = lister.client ∧
      next.hidden = lister.hidden ∧ ∀ written,
        List.Forall₂ (Lists report) written (visibleNames lister.hidden lister.client.roles) →
        Phase report next (written ++ entries) := by
  obtain ⟨result, pipe, close, plain, outcome⟩ := OPipe.jdOpipeClose_opened steady.plain opened now lister.client
  unfold closeList
  rw [close]
  refine ⟨_, _, rfl, ⟨plain, steady.sorted, steady.short, nofun⟩, rfl, rfl, fun written data => ?_⟩
  rcases outcome with ⟨unsent, nothing⟩ | ⟨waiting, last, closing, one⟩
  · rw [nothing, List.append_nil]
    exact .closing rfl unsent data
  · rw [one]
    exact .closed rfl (by simp [waiting]) (by simp [waiting]) last closing data

theorem Steady.closeList_dropped (steady : Steady report lister) (dropped : lister.listPipe.status = .dropped) (now : Nat) :
    ∃ next entries, lister.closeList now = .ok (next, entries) ∧ Steady report next ∧ next.client = lister.client ∧
      next.hidden = lister.hidden ∧ ∀ written, Unclosed written → Phase report next (written ++ entries) := by
  unfold closeList
  rw [OPipe.jdOpipeClose_dropped dropped]
  refine ⟨_, _, rfl, ⟨OPipe.plain_zero, steady.sorted, steady.short, nofun⟩, rfl, rfl, fun written unclosed => ?_⟩
  rw [ListEntry.gained_none (Nat.zero_le _), List.append_nil]
  exact .ended rfl (by simp [OPipe.zero]) (by simp [OPipe.zero]) unclosed

theorem Steady.stopList (steady : Steady report lister) (now : Nat) :
    ∃ next entries, lister.stopList now = .ok (next, entries) ∧ Steady report next ∧ next.client = lister.client ∧
      next.hidden = lister.hidden ∧ next.listPtr = none := by
  unfold RoleLister.stopList
  cases pointer : lister.listPtr with
  | none => exact ⟨lister, [], rfl, steady, rfl, rfl, pointer⟩
  | some ptr =>
    have done : ∃ next entries, lister.closeList now = .ok (next, entries) ∧ Steady report next ∧
        next.client = lister.client ∧ next.hidden = lister.hidden := by
      rcases (steady.pointer ptr pointer).2 with opened | dropped
      · obtain ⟨next, entries, closed, kept, client, hidden, _⟩ := steady.closeList_opened opened now
        exact ⟨next, entries, closed, kept, client, hidden⟩
      · obtain ⟨next, entries, closed, kept, client, hidden, _⟩ := steady.closeList_dropped dropped now
        exact ⟨next, entries, closed, kept, client, hidden⟩
    obtain ⟨next, entries, closed, kept, client, hidden⟩ := done
    refine ⟨next, entries, closed, kept, client, hidden, ?_⟩
    unfold closeList at closed
    split at closed
    · cases closed
    · cases closed
      rfl

/-- The pointer after a role was written. -/
theorem nextVisible_next {hidden : List UInt8 → Bool} {roles : List Role} (found : roles[ptr]? = some role)
    (next : nextVisible hidden (roles.drop (ptr + 1)) (ptr + 1) = some place) :
    ptr < place ∧ (∃ other, roles[place]? = some other ∧ hidden other.name = false) ∧
      visibleNames hidden (roles.take place) = visibleNames hidden (roles.take (ptr + 1)) := by
  have inside := (List.getElem?_eq_some_iff.mp found).1
  obtain ⟨skipped, other, rest, split, rfl, none_, shown⟩ := nextVisible_some next
  have whole : roles = (roles.take (ptr + 1) ++ skipped) ++ other :: rest := by
    rw [List.append_assoc, ← split, List.take_append_drop]
  have length : (roles.take (ptr + 1) ++ skipped).length = ptr + 1 + skipped.length := by
    rw [List.length_append, List.length_take, Nat.min_eq_left inside]
  refine ⟨by omega, ⟨other, ?_, shown⟩, ?_⟩
  · rw [← length]
    nth_rewrite 1 [whole]
    rw [List.getElem?_append_right (Nat.le_refl _), Nat.sub_self, List.getElem?_cons_zero]
  · nth_rewrite 1 [whole]
    rw [← length, List.take_left, visibleNames_append, none_, List.append_nil]

/-- A role that is written comes next in the list of names. -/
theorem visibleNames_take {hidden : List UInt8 → Bool} {roles : List Role} (found : roles[ptr]? = some role)
    (shown : hidden role.name = false) :
    visibleNames hidden (roles.take (ptr + 1)) = visibleNames hidden (roles.take ptr) ++ [role.name] := by
  have one : visibleNames hidden [role] = [role.name] := by simp [visibleNames, shown]
  rw [List.take_add_one, found, visibleNames_append, Option.toList_some, one]

/-- What a call leaves: the roles, and a list that went on. -/
structure Advances (report : RoleReport) (lister next : RoleLister) (entries : List ListEntry) : Prop where
  steady : Steady report next
  client : next.client = lister.client
  hidden : next.hidden = lister.hidden
  phase : ∀ written, Phase report lister written → Phase report next (written ++ entries)

theorem Phase.at_pointer (phase : Phase report lister written) (pointer : lister.listPtr = some ptr)
    (found : lister.client.roles[ptr]? = some role) : lister.hidden role.name = false ∧
      List.Forall₂ (Lists report) written (visibleNames lister.hidden (lister.client.roles.take ptr)) := by
  cases phase with
  | listing here present shown data =>
    obtain rfl := Option.some.inj (pointer.symm.trans here)
    obtain rfl := Option.some.inj (found.symm.trans present)
    exact ⟨shown, data⟩
  | closing none_ => exact absurd (pointer.symm.trans none_) nofun
  | closed none_ => exact absurd (pointer.symm.trans none_) nofun
  | ended none_ => exact absurd (pointer.symm.trans none_) nofun

theorem Advances.refl (steady : Steady report lister) : Advances report lister lister [] where
  steady := steady
  client := rfl
  hidden := rfl
  phase := by
    intro written phase
    rwa [List.append_nil]

theorem Advances.trans (first : Advances report lister middle entries) (second : Advances report middle next others) :
    Advances report lister next (entries ++ others) where
  steady := second.steady
  client := second.client.trans first.client
  hidden := second.hidden.trans first.hidden
  phase := by
    intro written phase
    rw [← List.append_assoc]
    exact second.phase _ (first.phase written phase)

/-- A pipe without room keeps the pointer where it is. -/
theorem Steady.waits (steady : Steady report lister) (pipe : OPipe) (counter : pipe.counter = lister.listPipe.counter)
    (opened : pipe.status = .opened) (pointer : lister.listPtr = some ptr) :
    Advances report lister { lister with listPipe := pipe } [] where
  steady := ⟨⟨counter ▸ steady.plain.bound, counter ▸ steady.plain.flags⟩, steady.sorted, steady.short,
    fun place here => ⟨(steady.pointer place here).1, .inl opened⟩⟩
  client := rfl
  hidden := rfl
  phase := by
    intro written phase
    obtain ⟨role, found⟩ : ∃ role, lister.client.roles[ptr]? = some role :=
      ⟨_, List.getElem?_eq_getElem (steady.pointer ptr pointer).1⟩
    obtain ⟨shown, data⟩ := phase.at_pointer pointer found
    rw [List.append_nil]
    exact .listing pointer found shown data

/-- What the frame gains when a role is written. -/
def roleEntry (report : RoleReport) (lister : RoleLister) (role : Role) : ListEntry :=
  ⟨lister.client, ⟨serviceIndexStream, lister.listPipe.counter, report.serializeRole lister.client role⟩⟩

theorem Steady.lists (steady : Steady report lister) (phase : Phase report lister written)
    (pointer : lister.listPtr = some ptr) (found : lister.client.roles[ptr]? = some role) :
    List.Forall₂ (Lists report) (written ++ [lister.roleEntry report role])
      (visibleNames lister.hidden (lister.client.roles.take (ptr + 1))) := by
  obtain ⟨shown, data⟩ := phase.at_pointer pointer found
  have entry : Lists report (lister.roleEntry report role) role.name :=
    ⟨⟨rfl, steady.plain.flags⟩, role, List.mem_of_getElem? found, rfl, rfl⟩
  rw [visibleNames_take found shown]
  exact List.rel_append data (.cons entry .nil)

theorem Steady.moves (steady : Steady report lister) (pointer : lister.listPtr = some ptr)
    (found : lister.client.roles[ptr]? = some role) (opened : lister.listPipe.status = .opened) (frame : Frame)
    (next : nextVisible lister.hidden (lister.client.roles.drop (ptr + 1)) (ptr + 1) = some place) :
    Advances report lister { lister with listPipe := lister.listPipe.written frame, listPtr := some place }
      [lister.roleEntry report role] := by
  obtain ⟨_, ⟨other, present, shown⟩, names⟩ := nextVisible_next found next
  have inside := (List.getElem?_eq_some_iff.mp present).1
  refine ⟨⟨steady.plain.counted rfl, steady.sorted, steady.short, fun here same => ?_⟩, rfl, rfl, fun written phase => ?_⟩
  · obtain rfl := Option.some.inj same
    exact ⟨inside, .inl opened⟩
  · refine .listing rfl present shown ?_
    show List.Forall₂ _ _ (visibleNames lister.hidden (lister.client.roles.take place))
    rw [names]
    exact steady.lists phase pointer found

theorem Steady.finishes (steady : Steady report lister) (pointer : lister.listPtr = some ptr)
    (found : lister.client.roles[ptr]? = some role) (opened : lister.listPipe.status = .opened) (frame : Frame)
    (last : nextVisible lister.hidden (lister.client.roles.drop (ptr + 1)) (ptr + 1) = none) (now : Nat) :
    ∃ next entries,
      { lister with listPipe := lister.listPipe.written frame, listPtr := none }.closeList now = .ok (next, entries) ∧
      Advances report lister next (lister.roleEntry report role :: entries) := by
  have after : Steady report { lister with listPipe := lister.listPipe.written frame, listPtr := none } :=
    ⟨steady.plain.counted rfl, steady.sorted, steady.short, nofun⟩
  obtain ⟨next, entries, closed, kept, client, hidden, phases⟩ := after.closeList_opened opened now
  refine ⟨next, entries, closed, kept, client, hidden, fun written phase => ?_⟩
  have all : visibleNames lister.hidden lister.client.roles =
      visibleNames lister.hidden (lister.client.roles.take (ptr + 1)) := by
    nth_rewrite 1 [← List.take_append_drop (ptr + 1) lister.client.roles]
    rw [visibleNames_append, nextVisible_none last, List.append_nil]
  have listed := steady.lists phase pointer found
  rw [← all] at listed
  rw [List.append_cons]
  exact phases _ listed

/-- One turn of the loop either ends it or writes a role and moves on. -/
theorem Steady.turn (steady : Steady report lister) (pointer : lister.listPtr = some ptr) (now fuel : Nat) :
    (∃ next entries, lister.listLoop report now (fuel + 1) = .ok (next, entries) ∧ Advances report lister next entries) ∨
    ∃ next entry place, lister.listLoop report now (fuel + 1) =
        (next.listLoop report now fuel).map (fun rest => (rest.1, entry :: rest.2)) ∧
      Advances report lister next [entry] ∧ next.listPtr = some place ∧ ptr < place := by
  obtain ⟨inside, status⟩ := steady.pointer ptr pointer
  obtain ⟨role, found⟩ : ∃ role, lister.client.roles[ptr]? = some role := ⟨_, List.getElem?_eq_getElem inside⟩
  have name : role.name ∈ lister.client.roleNames := List.mem_map.mpr ⟨role, List.mem_of_getElem? found, rfl⟩
  have short := steady.short role.name name
  have size := report.serializeRole_length lister.client role
  have sized : report.serializedRoleSize role = report.offset + role.name.length := rfl
  simp only [RoleLister.listLoop, pointer, found]
  rcases status with opened | dropped
  · rcases OPipe.checkSpace_opened opened now (report.serializedRoleSize role) with
      ⟨pipe, checked, counter, still⟩ | ⟨checked, fits⟩
    · rw [checked]
      refine .inl ⟨_, _, rfl, ?_⟩
      rw [← pointer]
      exact steady.waits pipe counter still pointer
    · rw [checked]
      rw [← size] at checked fits
      obtain ⟨frame, wrote, gained⟩ := OPipe.jdOpipeWrite_checked steady.plain (by omega) checked fits lister.client
      dsimp only
      rw [wrote]
      dsimp only
      rw [gained]
      cases next : nextVisible lister.hidden (lister.client.roles.drop (ptr + 1)) (ptr + 1) with
      | some place =>
        rw [if_neg nofun]
        exact .inr ⟨_, _, place, rfl, steady.moves pointer found opened frame next, rfl, (nextVisible_next found next).1⟩
      | none =>
        rw [if_pos rfl]
        obtain ⟨next, entries, closed, advances⟩ := steady.finishes pointer found opened frame next now
        rw [closed]
        exact .inl ⟨next, _, rfl, advances⟩
  · rw [OPipe.checkSpace_dropped dropped]
    obtain ⟨next, entries, closed, kept, client, hidden, phases⟩ := steady.closeList_dropped dropped now
    refine .inl ⟨next, entries, closed, kept, client, hidden, fun written phase => phases written ?_⟩
    exact lists_unclosed (phase.at_pointer pointer found).2

/-- The loop ends, and the assertion in it holds. -/
theorem Steady.listLoop (steady : Steady report lister) (now : Nat) (some_ : 0 < fuel)
    (enough : ∀ ptr, lister.listPtr = some ptr → lister.client.roles.length < fuel + ptr) :
    ∃ next entries, lister.listLoop report now fuel = .ok (next, entries) ∧ Advances report lister next entries := by
  induction fuel generalizing lister with
  | zero => exact absurd some_ (Nat.lt_irrefl 0)
  | succ fuel ih =>
    cases pointer : lister.listPtr with
    | none =>
      refine ⟨lister, [], ?_, .refl steady⟩
      rw [RoleLister.listLoop, pointer]
    | some ptr =>
      rcases steady.turn pointer now fuel with ended | ⟨next, entry, place, loop, advances, moved, further⟩
      · exact ended
      · have inside := (advances.steady.pointer place moved).1
        have less := enough ptr pointer
        have roles : next.client.roles.length = lister.client.roles.length := by rw [advances.client]
        obtain ⟨final, entries, ran, rest⟩ := ih advances.steady (by omega) fun here same => by
          obtain rfl := Option.some.inj (moved.symm.trans same)
          omega
        refine ⟨final, entry :: entries, ?_, advances.trans rest⟩
        rw [loop, ran]
        rfl

theorem visibleNames_take_names (hidden : List UInt8 → Bool) (client : ClientState) (ptr : Nat) :
    visibleNames hidden (client.roles.take ptr) = (client.roleNames.take ptr).filter fun name => !hidden name := by
  rw [visibleNames, List.map_take]
  rfl

theorem Steady.rebind {client : ClientState} (steady : Steady report lister) (names : client.roleNames = lister.client.roleNames) :
    Steady report { lister with client } where
  plain := steady.plain
  sorted := names ▸ steady.sorted
  short := names ▸ steady.short
  pointer := by
    intro ptr pointer
    have length := congrArg List.length names
    rw [ClientState.roleNames, ClientState.roleNames, List.length_map, List.length_map] at length
    obtain ⟨inside, status⟩ := steady.pointer ptr pointer
    exact ⟨length ▸ inside, status⟩

/-- New bindings do not disturb a list. -/
theorem Phase.rebind {client : ClientState} (phase : Phase report lister written) (names : client.roleNames = lister.client.roleNames) :
    Phase report { lister with client } written := by
  have same (hidden : List UInt8 → Bool) (ptr : Nat) : visibleNames hidden (client.roles.take ptr) =
      visibleNames hidden (lister.client.roles.take ptr) := by
    rw [visibleNames_take_names, visibleNames_take_names, names]
  have all : visibleNames lister.hidden client.roles = visibleNames lister.hidden lister.client.roles :=
    congrArg (List.filter _) names
  cases phase with
  | @listing ptr role _ pointer found shown data =>
    have place : client.roleNames[ptr]? = some role.name := by
      rw [names, ClientState.roleNames, List.getElem?_map, found]
      rfl
    rw [ClientState.roleNames, List.getElem?_map] at place
    obtain ⟨other, present, named⟩ := Option.map_eq_some_iff.mp place
    refine .listing pointer present (named ▸ shown) ?_
    show List.Forall₂ _ _ (visibleNames lister.hidden (client.roles.take ptr))
    rwa [same]
  | closing pointer status data =>
    exact @Phase.closing _ { lister with client } _ pointer status (all.symm ▸ data)
  | closed pointer unsent unopened last closing data =>
    exact @Phase.closed _ { lister with client } _ pointer unsent unopened last closing (all.symm ▸ data)
  | ended pointer unsent unopened unclosed => exact .ended pointer unsent unopened unclosed

/-- `rolemgr_process` fails no assertion and writes the next roles. -/
theorem Steady.rolemgrProcess (steady : Steady report lister) (config : ClientConfig) (now : Nat) (autobind timeout : Bool) :
    ∃ next entries, lister.rolemgrProcess report config now autobind timeout = .ok (next, entries) ∧
      Steady report next ∧ ∀ written, Phase report lister written → Phase report next (written ++ entries) := by
  obtain ⟨listed, entries, ran, advances⟩ := steady.listLoop now (Nat.succ_pos lister.client.roles.length)
    (fun ptr _ => by omega)
  have names : ClientState.roleNames (if timeout then
      { (if autobind then listed.client.rolemgrAutobind config else listed.client) with changed := false }
      else if autobind then listed.client.rolemgrAutobind config else listed.client) = listed.client.roleNames := by
    have bound := listed.client.rolemgrAutobind_names config
    cases timeout <;> cases autobind
    · rfl
    · exact bound
    · rfl
    · exact bound
  refine ⟨_, entries, ?_, advances.steady.rebind names, fun written phase => (advances.phase written phase).rebind names⟩
  rw [RoleLister.rolemgrProcess, ran]
  rfl

/-- The `LIST_ROLES` command on a pipe that was just opened. -/
theorem Steady.startList (steady : Steady report lister) {pipe : OPipe} (plain : pipe.Plain)
    (opened : pipe.status = .opened) (now : Nat) :
    ∃ next entries, lister.startList now pipe = .ok (next, entries) ∧ Steady report next ∧ Phase report next entries := by
  cases first : nextVisible lister.hidden lister.client.roles 0 with
  | none =>
    have after : Steady report { lister with listPipe := pipe, listPtr := none } :=
      ⟨plain, steady.sorted, steady.short, nofun⟩
    obtain ⟨next, entries, closed, kept, _, _, phases⟩ := after.closeList_opened opened now
    refine ⟨next, entries, ?_, kept, phases [] ?_⟩
    · rw [RoleLister.startList, first]
      exact (if_pos rfl).trans closed
    · rw [nextVisible_none first]
      exact .nil
  | some ptr =>
    obtain ⟨skipped, role, rest, split, place, none_, shown⟩ := nextVisible_some first
    rw [Nat.zero_add] at place
    subst place
    have found : lister.client.roles[skipped.length]? = some role := by
      rw [split, List.getElem?_append_right (Nat.le_refl _), Nat.sub_self, List.getElem?_cons_zero]
    refine ⟨{ lister with listPipe := pipe, listPtr := some skipped.length }, [], ?_, ⟨plain, steady.sorted, steady.short, ?_⟩, ?_⟩
    · rw [RoleLister.startList, first]
      exact if_neg nofun
    · intro ptr same
      obtain rfl := Option.some.inj same
      exact ⟨(List.getElem?_eq_some_iff.mp found).1, .inl opened⟩
    · refine .listing rfl found shown ?_
      show List.Forall₂ _ _ (visibleNames lister.hidden (lister.client.roles.take skipped.length))
      rw [split, List.take_left, none_]
      exact .nil

theorem jdOpipeOpenCmd_plain {pipe next : OPipe} (opened : jdOpipeOpenCmd pipe data = (.ok, next)) :
    next.Plain ∧ next.status = .opened := by
  unfold jdOpipeOpenCmd at opened
  split at opened
  · cases opened
  · unfold OPipe.jdOpipeOpen at opened
    split at opened
    · cases opened
    · cases opened
      refine ⟨⟨Nat.mod_lt _ (by decide), ?_⟩, rfl⟩
      simp only [u16]
      omega

/-- An acknowledgement keeps the status of the pipe, writes the close packet that was left for it, or frees the pipe. -/
theorem jdOpipeHandlePacket_status {pipe next : OPipe} {ack : OPipe.Ack}
    (handled : pipe.jdOpipeHandlePacket now ack = .ok next) (plain : pipe.Plain) (client : ClientState) :
    next.Plain ∧ (next.status = pipe.status ∧ ListEntry.gained client (ListEntry.ackStart pipe ack) next = [] ∨
      pipe.status = .closedUnsent ∧ next.status = .closedWaiting ∧ (∃ entry : ListEntry,
        closes entry.packet.serviceCommand = true ∧ ListEntry.gained client (ListEntry.ackStart pipe ack) next = [entry]) ∨
      pipe.status = .closedWaiting ∧ next.status = .free ∧
        ListEntry.gained client (ListEntry.ackStart pipe ack) next = []) := by
  have reset : (jdResetFrame pipe.frame).size = 0 := Frame.setSize_size _ _
  by_cases matched : (ack.isCrcAck && pipe.acknowledges ack) = true
  · have start : ListEntry.ackStart pipe ack = 0 := if_pos matched
    have outcome := OPipe.jdOpipeHandlePacket_outcome handled matched
    refine ⟨outcome.plain ⟨plain.bound, plain.flags⟩, ?_⟩
    rw [start]
    rcases OPipe.jdOpipeHandlePacket_cases handled with
      ⟨ignored, _⟩ | ⟨_, ⟨waiting, rfl⟩ | ⟨unsent, _, sent⟩ | ⟨_, _, rfl⟩⟩
    · exact absurd (ignored.symm.trans matched) Bool.false_ne_true
    · exact .inr (.inr ⟨waiting, rfl, ListEntry.gained_none (Nat.zero_le _)⟩)
    · have gained := OPipe.jdOpipeSendClosePkt_gained sent client
      rw [reset] at gained
      rcases gained with ⟨still, nothing⟩ | ⟨closed, entry⟩
      · exact .inl ⟨still.trans unsent.symm, nothing⟩
      · exact .inr (.inl ⟨unsent, closed, entry⟩)
    · exact .inl ⟨rfl, ListEntry.gained_none (Nat.le_of_eq reset)⟩
  · have start : ListEntry.ackStart pipe ack = pipe.frame.size := if_neg matched
    rw [start, OPipe.jdOpipeHandlePacket_ignored handled (Bool.eq_false_iff.mpr matched)]
    exact ⟨plain, .inl ⟨rfl, ListEntry.gained_none (Nat.le_refl _)⟩⟩

theorem Steady.acknowledged (steady : Steady report lister) {pipe : OPipe} {ack : OPipe.Ack}
    (handled : lister.listPipe.jdOpipeHandlePacket now ack = .ok pipe) : Steady report { lister with listPipe := pipe } := by
  obtain ⟨plain, outcome⟩ := jdOpipeHandlePacket_status handled steady.plain lister.client
  refine ⟨plain, steady.sorted, steady.short, fun ptr pointer => ?_⟩
  obtain ⟨inside, status⟩ := steady.pointer ptr pointer
  refine ⟨inside, ?_⟩
  rcases outcome with ⟨same, _⟩ | ⟨unsent, _⟩ | ⟨waiting, _⟩
  · exact same ▸ status
  · rw [unsent] at status
    exact absurd status (by decide)
  · rw [waiting] at status
    exact absurd status (by decide)

theorem Phase.kept (phase : Phase report lister written) {pipe : OPipe} (same : pipe.status = lister.listPipe.status) :
    Phase report { lister with listPipe := pipe } written := by
  cases phase with
  | listing pointer found shown data => exact .listing pointer found shown data
  | closing pointer status data => exact .closing pointer (same.trans status) data
  | closed pointer unsent unopened last closing data =>
    exact @Phase.closed _ { lister with listPipe := pipe } _ pointer (same ▸ unsent) (same ▸ unopened) last closing data
  | ended pointer unsent unopened unclosed =>
    exact @Phase.ended _ { lister with listPipe := pipe } _ pointer (same ▸ unsent) (same ▸ unopened) unclosed

/-- The pipe was dropped or freed: a close packet that is not written yet never will be. -/
theorem Phase.lost (phase : Phase report lister written) {pipe : OPipe} (unsent : pipe.status ≠ .closedUnsent)
    (unopened : pipe.status ≠ .opened) : Phase report { lister with listPipe := pipe } written := by
  cases phase with
  | listing pointer found shown data => exact .listing pointer found shown data
  | closing pointer _ data =>
    exact @Phase.ended _ { lister with listPipe := pipe } _ pointer unsent unopened (lists_unclosed data)
  | closed pointer _ _ last closing data =>
    exact @Phase.closed _ { lister with listPipe := pipe } _ pointer unsent unopened last closing data
  | ended pointer _ _ unclosed => exact @Phase.ended _ { lister with listPipe := pipe } _ pointer unsent unopened unclosed

theorem Phase.acknowledged (phase : Phase report lister written) (steady : Steady report lister) {pipe : OPipe}
    {ack : OPipe.Ack} (handled : lister.listPipe.jdOpipeHandlePacket now ack = .ok pipe) :
    Phase report { lister with listPipe := pipe }
      (written ++ ListEntry.gained lister.client (ListEntry.ackStart lister.listPipe ack) pipe) := by
  rcases (jdOpipeHandlePacket_status handled steady.plain lister.client).2 with
    ⟨same, nothing⟩ | ⟨unsent, waiting, last, closing, one⟩ | ⟨_, free, nothing⟩
  · rw [nothing, List.append_nil]
    exact phase.kept same
  · rw [one]
    have now_ : pipe.status ≠ .closedUnsent ∧ pipe.status ≠ .opened := by simp [waiting]
    cases phase with
    | listing pointer =>
      have status := (steady.pointer _ pointer).2
      rw [unsent] at status
      exact absurd status (by decide)
    | closing pointer _ data =>
      exact @Phase.closed _ { lister with listPipe := pipe } _ pointer now_.1 now_.2 last closing data
    | closed _ other => exact absurd unsent other
    | ended _ other => exact absurd unsent other
  · rw [nothing, List.append_nil]
    exact phase.lost (by simp [free]) (by simp [free])

theorem Steady.ticks (steady : Steady report lister) {pipe : OPipe} (outcome : OPipe.ProcessOutcome lister.listPipe pipe copy) :
    Steady report { lister with listPipe := pipe } where
  plain := ⟨outcome.counter ▸ steady.plain.bound, outcome.counter ▸ steady.plain.flags⟩
  sorted := steady.sorted
  short := steady.short
  pointer := by
    intro ptr pointer
    obtain ⟨inside, status⟩ := steady.pointer ptr pointer
    rcases outcome.status with same | ⟨dropped, _⟩
    · exact ⟨inside, same ▸ status⟩
    · exact ⟨inside, .inr dropped⟩

theorem Phase.ticks (phase : Phase report lister written) {pipe : OPipe}
    (outcome : OPipe.ProcessOutcome lister.listPipe pipe copy) : Phase report { lister with listPipe := pipe } written := by
  rcases outcome.status with same | ⟨dropped, _⟩
  · exact phase.kept same
  · exact phase.lost (by simp [dropped]) (by simp [dropped])

/-- With no list in progress any roles will do that are sorted and short. -/
theorem Steady.rearrange {client : ClientState} (steady : Steady report lister) (idle : lister.listPtr = none)
    (sorted : Sorted client.roleNames) (short : ∀ name ∈ client.roleNames, report.offset + name.length ≤ 232)
    (hidden : List UInt8 → Bool) : Steady report { lister with client, hidden } where
  plain := steady.plain
  sorted := sorted
  short := short
  pointer := fun _ pointer => absurd (idle.symm.trans pointer) nofun

theorem Steady.roleAlloc (steady : Steady report lister) (idle : lister.listPtr = none) {name : List UInt8}
    (short : report.offset + name.length ≤ 232) (absent : Role.lookup name lister.client.roles = none)
    (serviceClass : Nat) (hidden : List UInt8 → Bool) :
    Steady report { lister with client := lister.client.jdRoleAlloc name serviceClass, hidden } := by
  refine steady.rearrange idle ?_ ?_ hidden
  · exact Role.insert_sorted steady.sorted (Role.lookup_none absent)
  · intro other member
    obtain ⟨role, inside, rfl⟩ := List.mem_map.mp member
    rcases Role.mem_insert.mp inside with rfl | old
    · exact short
    · exact steady.short role.name (List.mem_map.mpr ⟨role, old, rfl⟩)

theorem Steady.rolesFreed {client : ClientState} (steady : Steady report lister) (idle : lister.listPtr = none)
    (part : client.roleNames.Sublist lister.client.roleNames) : Steady report { lister with client } :=
  steady.rearrange idle (steady.sorted.sublist part) (fun name member => steady.short name (part.subset member)) lister.hidden

end RoleLister

namespace ListRun

open RoleLister

variable {report : RoleReport} {config : ClientConfig} {world : ListWorld}

/-- What every run keeps. -/
theorem sound (run : ListRun report config world) :
    Steady report world.lister ∧ (world.disturbed = false → Phase report world.lister world.written) := by
  induction run with
  | init =>
    have free : RoleLister.init.listPipe.status = .free := rfl
    refine ⟨⟨OPipe.plain_zero, List.Pairwise.nil, nofun, nofun⟩, fun _ => ?_⟩
    exact .ended rfl (by simp [free]) (by simp [free]) nofun
  | command _ now data opened started ih =>
    obtain ⟨plain, status⟩ := jdOpipeOpenCmd_plain opened
    obtain ⟨next, entries, done, steady, phase⟩ := ih.1.startList plain status now
    cases done.symm.trans started
    exact ⟨steady, fun _ => phase⟩
  | process _ now autobind timeout processed ih =>
    obtain ⟨next, entries, done, steady, phases⟩ := ih.1.rolemgrProcess config now autobind timeout
    cases done.symm.trans processed
    exact ⟨steady, fun quiet => phases _ (ih.2 quiet)⟩
  | ack _ now ack handled ih => exact ⟨ih.1.acknowledged handled, fun quiet => (ih.2 quiet).acknowledged ih.1 handled⟩
  | tick _ txConfig now link processed ih =>
    have outcome := OPipe.jdOpipeProcess_outcome processed
    exact ⟨ih.1.ticks outcome, fun quiet => (ih.2 quiet).ticks outcome⟩
  | client _ step kept ih => exact ⟨ih.1.rebind kept, fun quiet => (ih.2 quiet).rebind kept⟩
  | hide _ hidden ih => exact ⟨⟨ih.1.plain, ih.1.sorted, ih.1.short, ih.1.pointer⟩, nofun⟩
  | roleAlloc _ now name serviceClass short absent stopped ih =>
    obtain ⟨next, entries, done, steady, client, _, idle⟩ := ih.1.stopList now
    cases done.symm.trans stopped
    exact ⟨steady.roleAlloc idle short (client ▸ absent) serviceClass _, nofun⟩
  | roleFree _ now index present stopped ih =>
    obtain ⟨next, entries, done, steady, client, _, idle⟩ := ih.1.stopList now
    cases done.symm.trans stopped
    exact ⟨steady.rolesFreed idle (ClientState.jdRoleFree_names index _), nofun⟩
  | roleFreeAll _ now stopped ih =>
    obtain ⟨next, entries, done, steady, client, _, idle⟩ := ih.1.stopList now
    cases done.symm.trans stopped
    exact ⟨steady.rolesFreed idle (List.nil_sublist _), nofun⟩

/-- In every run `rolemgr_process` fails no assertion, and once a close packet came into the frame of a list that
nothing disturbed, the packets before it are those of the visible roles, each once and in the order of the names. -/
theorem list_streams_visible_roles (run : ListRun report config world) :
    (∀ now autobind timeout, ∃ next entries,
      world.lister.rolemgrProcess report config now autobind timeout = .ok (next, entries)) ∧
    (world.disturbed = false → ∀ before last after, world.written = before ++ last :: after →
      closes last.packet.serviceCommand = true → after = [] ∧
      List.Forall₂ (Lists report) before (visibleNames world.lister.hidden world.lister.client.roles) ∧
      (visibleNames world.lister.hidden world.lister.client.roles).Pairwise (· < ·)) := by
  obtain ⟨steady, phase⟩ := run.sound
  constructor
  · intro now autobind timeout
    obtain ⟨next, entries, done, _⟩ := steady.rolemgrProcess config now autobind timeout
    exact ⟨next, entries, done⟩
  · intro quiet before last after split closing
    have sorted := steady.sorted.filter fun name => !world.lister.hidden name
    have phase := phase quiet
    have closed (unclosed : Unclosed world.written) : False := by
      have open_ := unclosed last (split ▸ List.mem_append_right _ (List.mem_cons_self ..))
      exact absurd (closing.symm.trans open_) nofun
    generalize written : world.written = all at phase split closed
    cases phase with
    | listing _ _ _ data => exact (closed (lists_unclosed data)).elim
    | closing _ _ data => exact (closed (lists_unclosed data)).elim
    | ended _ _ _ unclosed => exact (closed unclosed).elim
    | closed _ _ _ final closes_ data =>
      rcases List.eq_nil_or_concat after with rfl | ⟨front, back, rfl⟩
      · obtain ⟨rfl, _⟩ := List.append_inj' split rfl
        exact ⟨rfl, data, sorted⟩
      · rw [List.concat_eq_append, ← List.cons_append, ← List.append_assoc] at split
        obtain ⟨rfl, _⟩ := List.append_inj' split rfl
        have open_ := lists_unclosed data last (List.mem_append_right _ (List.mem_cons_self ..))
        exact absurd (closing.symm.trans open_) nofun

private def plainReport : RoleReport where
  offset := 13
  fields := fun deviceId serviceClass serviceIdx =>
    littleEndian 8 deviceId ++ littleEndian 4 serviceClass ++ littleEndian 1 serviceIdx
  fields_length := by simp

/-- Three roles, of which the middle one is hidden, are listed as two packets before the close packet. -/
theorem list_streams_two_roles : ∃ world : ListWorld, ∃ first second last,
    ListRun plainReport ⟨1, (· % 16)⟩ world ∧ world.written = [first, second, last] ∧
      closes last.packet.serviceCommand = true ∧
      List.Forall₂ (Lists plainReport) [first, second] [[97], [99]] := by
  have one : ListRun plainReport ⟨1, (· % 16)⟩ _ := ListRun.init.roleAlloc 0 [99] 7 (by decide) (by decide) (by rfl)
  have two := one.roleAlloc 0 [97] 7 (by decide) (by decide) (by rfl)
  have three := two.roleAlloc 0 [98] 7 (by decide) (by decide) (by rfl)
  have hidden := three.hide fun name => name == [98]
  have opened := hidden.command 0 [2, 0, 0, 0, 0, 0, 0, 0, 5, 0, 0, 0] (by rfl) (by rfl)
  have listed := opened.process 0 false false (by rfl)
  generalize reached : ListWorld.mk _ _ _ = world at listed
  have commands : world.written.map (·.packet.serviceCommand) = [640, 641, 738] := by
    rw [← reached]
    decide +kernel
  obtain ⟨first, second, last, split⟩ := List.length_eq_three.mp (by simpa using congrArg List.length commands)
  rw [split] at commands
  have closing : closes last.packet.serviceCommand = true := by
    have command : last.packet.serviceCommand = 738 := (List.cons.inj (List.cons.inj (List.cons.inj commands).2).2).1
    rw [command]
    decide
  have quiet : world.disturbed = false := by rw [← reached]
  have visible : visibleNames world.lister.hidden world.lister.client.roles = [[97], [99]] := by rw [← reached]; decide
  have streamed := (list_streams_visible_roles listed).2 quiet [first, second] last [] split closing
  exact ⟨world, first, second, last, listed, split, closing, visible ▸ streamed.2.1⟩

end ListRun

end Jacdac
