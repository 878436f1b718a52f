import Jacdac.Client.RoleInvariant

/-! What one run of `rolemgr_autobind` does: it binds roles that have no service, each
to a service that no role has, and stops only where no such service is left. -/

namespace Jacdac

namespace Vacant

variable {devices : List Device} {pointer other : ServicePointer}

theorem of_setFlag (vacant : Vacant (Device.setFlag other true devices) pointer serviceClass) :
    pointer ≠ other ∧ Vacant devices pointer serviceClass := by
  obtain ⟨after, member, address, serv, found, suits, clear⟩ := vacant
  obtain ⟨device, present, rfl⟩ := List.mem_map.mp member
  split at found
  · rename_i here
    rw [if_pos here] at address
    rw [List.getElem?_modify, Option.map_eq_map, Option.map_eq_some_iff] at found
    obtain ⟨old, before, rfl⟩ := found
    have elsewhere : other.index ≠ pointer.index := by
      intro same
      rw [if_pos same] at clear
      cases clear
    rw [if_neg elsewhere] at suits clear
    refine ⟨fun same => elsewhere (congrArg ServicePointer.index same.symm), ?_⟩
    exact ⟨device, present, address, old, before, suits, clear⟩
  · rename_i elsewhere
    rw [if_neg elsewhere] at address
    refine ⟨fun same => elsewhere ?_, device, present, address, serv, found, suits, clear⟩
    rw [address, same]

end Vacant

namespace ClientState

/-- The role at a place had no service before, and has this one after. -/
def NewlyBound (before after : ClientState) (index : Nat) (pointer : ServicePointer) : Prop :=
  ∃ old new, before.roles[index]? = some old ∧ old.service = none ∧
    after.roles[index]? = some new ∧ new.service = some pointer

/-- Roles were bound, and nothing else was done to roles and services. -/
structure Bound (before after : ClientState) : Prop where
  count : after.roles.length = before.roles.length
  roles : ∀ (index : Nat) (old : Role), before.roles[index]? = some old → ∃ service, after.roles[index]? = some { old with service } ∧
    (service = old.service ∨ old.service = none ∧
      ∃ pointer, service = some pointer ∧ Vacant before.devices pointer old.serviceClass)
  once : ∀ first second pointer, before.NewlyBound after first pointer → before.NewlyBound after second pointer →
    first = second
  vacant : ∀ pointer serviceClass, Vacant after.devices pointer serviceClass →
    Vacant before.devices pointer serviceClass ∧ ∀ index, ¬ before.NewlyBound after index pointer
  forced : after.forceHints = before.forceHints

variable {before state : ClientState} {index place : Nat} {role : Role} {pointer : ServicePointer}

theorem Bound.refl (state : ClientState) : state.Bound state := by
  have unchanged : ∀ index pointer, ¬ state.NewlyBound state index pointer := by
    rintro index pointer ⟨old, new, found, open_, again, points⟩
    obtain rfl := Option.some.inj (found.symm.trans again)
    rw [open_] at points
    cases points
  refine ⟨rfl, fun index old found => ⟨old.service, found, .inl rfl⟩, fun first second pointer new _ => ?_, ?_, rfl⟩
  · exact absurd new (unchanged first pointer)
  · exact fun pointer serviceClass vacant => ⟨vacant, fun index => unchanged index pointer⟩

theorem rolemgrSet_bind (found : state.roles[index]? = some role) (open_ : role.service = none) :
    state.rolemgrSet index (some pointer) =
      { state with
        devices := Device.setFlag pointer true state.devices
        roles := state.roles.set index { role with service := some pointer }
        changed := true } := by
  rw [rolemgrSet, found]
  dsimp only
  rw [open_, if_neg nofun]

theorem Bound.bind (bound : before.Bound state) (found : state.roles[index]? = some role) (open_ : role.service = none)
    (vacant : Vacant state.devices pointer role.serviceClass) :
    before.Bound (state.rolemgrSet index (some pointer)) := by
  obtain ⟨inside, _⟩ := List.getElem?_eq_some_iff.mp found
  obtain ⟨earlier, unused⟩ := bound.vacant pointer role.serviceClass vacant
  rw [rolemgrSet_bind found open_]
  have cases_ : ∀ {place other}, before.NewlyBound
      { state with
        devices := Device.setFlag pointer true state.devices
        roles := state.roles.set index { role with service := some pointer }
        changed := true } place other →
      place = index ∧ other = pointer ∨ before.NewlyBound state place other := by
    rintro place other ⟨old, new, first, none_, second, points⟩
    dsimp only at second
    rw [List.getElem?_set] at second
    split at second
    · rename_i here
      obtain rfl := Option.some.inj second
      exact .inl ⟨here.symm, (Option.some.inj points).symm⟩
    · exact .inr ⟨old, new, first, none_, second, points⟩
  refine ⟨(List.length_set ..).trans bound.count, fun place old first => ?_, fun first second other one two => ?_,
    fun other serviceClass free => ?_, bound.forced⟩
  · obtain ⟨service, second, kept⟩ := bound.roles place old first
    dsimp only
    rw [List.getElem?_set]
    split
    · rename_i here
      subst here
      obtain rfl := Option.some.inj (found.symm.trans second)
      refine ⟨some pointer, rfl, .inr ⟨?_, pointer, rfl, earlier⟩⟩
      rcases kept with same | ⟨none_, _⟩
      · exact same.symm.trans open_
      · exact none_
    · exact ⟨service, second, kept⟩
  · rcases cases_ one with ⟨rfl, rfl⟩ | old
    · rcases cases_ two with ⟨rfl, _⟩ | other
      · rfl
      · exact absurd other (unused _)
    · rcases cases_ two with ⟨rfl, rfl⟩ | other
      · exact absurd old (unused _)
      · exact bound.once _ _ _ old other
  · obtain ⟨different, still⟩ := free.of_setFlag
    obtain ⟨free, unbound⟩ := bound.vacant other serviceClass still
    refine ⟨free, fun place new => ?_⟩
    rcases cases_ new with ⟨_, same⟩ | old
    · exact different same
    · exact unbound place old

theorem Bound.useHint (bound : before.Bound state) (config : ClientConfig) (index : Nat) :
    before.Bound (state.rolemgrUseHint config index) := by
  rcases state.rolemgrUseHint_cases config index with same | ⟨role, pointer, found, open_, vacant, set⟩
  · rwa [same]
  · rw [set]
    exact bound.bind found open_ vacant

theorem Bound.autobindRole (bound : before.Bound state) (index : Nat) : before.Bound (state.autobindRole index) := by
  rcases state.autobindRole_cases index with same | ⟨role, pointer, found, open_, vacant, set⟩
  · rwa [same]
  · rw [set]
    exact bound.bind found open_ vacant

/-- A role that no enforced hint is for has a service, or there is none for it. -/
def Served (state : ClientState) (index : Nat) : Prop :=
  ∀ role, state.roles[index]? = some role → role.service = none → ¬ (role.hintDev ≠ .none ∧ state.forceHints) →
    ∀ pointer : ServicePointer, 1 ≤ pointer.index → ¬ Vacant state.devices pointer role.serviceClass

/-- Binding other roles does not take that away. -/
theorem Served.bind (served : state.Served place) (found : state.roles[index]? = some role)
    (open_ : role.service = none) (pointer : ServicePointer) :
    (state.rolemgrSet index (some pointer)).Served place := by
  rw [rolemgrSet_bind found open_]
  intro other here none_ unforced service behind vacant
  dsimp only at here
  rw [List.getElem?_set] at here
  split at here
  · split at here
    · obtain rfl := Option.some.inj here
      cases none_
    · cases here
  · exact served other here none_ unforced service behind vacant.of_setFlag.2

theorem findSome_freeService (none_ : state.devices.findSome? (freeService serviceClass) = none)
    (behind : 1 ≤ pointer.index) : ¬ Vacant state.devices pointer serviceClass := by
  rintro ⟨device, member, address, serv, found, suits, clear⟩
  obtain ⟨inside, _⟩ := List.getElem?_eq_some_iff.mp found
  have absent := List.findSome?_eq_none_iff.mp none_ device member
  have skipped := List.find?_eq_none.mp (Option.map_eq_none_iff.mp absent) pointer.index (List.mem_range.mpr inside)
  simp [behind, found, suits, clear] at skipped

theorem served_autobindRole (index : Nat) (state : ClientState) : (state.autobindRole index).Served index := by
  unfold ClientState.autobindRole
  split
  · rename_i absent
    intro role found
    rw [absent] at found
    cases found
  · rename_i role found
    split
    · rename_i passed
      intro other here open_ unforced
      obtain rfl := Option.some.inj (found.symm.trans here)
      rcases passed with bound | forced
      · rw [open_] at bound
        cases bound
      · exact absurd forced unforced
    · rename_i passed
      have open_ : role.service = none := by simpa using (not_or.mp passed).1
      split
      · rename_i nothing
        intro other here _ _ pointer behind
        obtain rfl := Option.some.inj (found.symm.trans here)
        exact findSome_freeService nothing behind
      · obtain ⟨inside, _⟩ := List.getElem?_eq_some_iff.mp found
        rw [rolemgrSet_bind found open_]
        intro other here none_
        dsimp only at here
        rw [List.getElem?_set_self inside] at here
        obtain rfl := Option.some.inj here
        cases none_

theorem Served.autobindRole (served : state.Served place) (index : Nat) : (state.autobindRole index).Served place := by
  rcases state.autobindRole_cases index with same | ⟨role, pointer, found, open_, _, set⟩
  · rwa [same]
  · rw [set]
    exact served.bind found open_ pointer

/-- A loop over the roles, with what holds after so many of them. -/
theorem forRoles_upTo (Holds : Nat → ClientState → Prop) {body : Nat → ClientState → ClientState}
    (start : Holds 0 state) (turn : ∀ index state, Holds index state → Holds (index + 1) (body index state)) :
    Holds state.roles.length (state.forRoles body) := by
  unfold forRoles
  generalize state.roles.length = count
  induction count with
  | zero => exact start
  | succ count ih =>
    rw [List.range_succ, List.foldl_append, List.foldl_cons, List.foldl_nil]
    exact turn count _ ih

/-- The flag of a service is set exactly if one role is bound to it. -/
def FlagsAgree (state : ClientState) : Prop :=
  ∀ device ∈ state.devices, ∀ index serv, device.services[index]? = some serv →
    (serv.roleAssigned = true ↔ state.bound.count ⟨device.address, index⟩ = 1)

/-- Bound roles stay as they were, newly bound ones have a service of their class each that was not
assigned, and a role without an enforced hint lacks a service only if none is left. -/
structure Autobound (before after : ClientState) : Prop where
  count : after.roles.length = before.roles.length
  unchanged : ∀ (index : Nat) (role : Role), before.roles[index]? = some role → role.service.isSome → after.roles[index]? = some role
  suits : ∀ (index : Nat) (role : Role), before.roles[index]? = some role → role.service = none →
    after.roles[index]? = some role ∨ ∃ pointer, after.roles[index]? = some { role with service := some pointer } ∧
      Vacant before.devices pointer role.serviceClass
  once : ∀ first second pointer, before.NewlyBound after first pointer → before.NewlyBound after second pointer →
    first = second
  single : before.bound.Nodup → after.bound.Nodup
  maximal : ∀ index, after.Served index

theorem Bound.autobind (config : ClientConfig) (enabled : state.autoBindEnabled = true) :
    state.Bound (state.rolemgrAutobind config) ∧ ∀ index, (state.rolemgrAutobind config).Served index := by
  rw [rolemgrAutobind, if_pos enabled]
  have hints : state.Bound (state.forRoles (rolemgrUseHint config)) :=
    forRoles_holds (Bound.refl state) fun index _ bound => bound.useHint config index
  generalize state.forRoles (rolemgrUseHint config) = middle at hints
  have turns : state.Bound (middle.forRoles ClientState.autobindRole) ∧
      ∀ index < middle.roles.length, (middle.forRoles ClientState.autobindRole).Served index := by
    refine forRoles_upTo (fun count after => state.Bound after ∧ ∀ index < count, after.Served index)
      ⟨hints, fun index early => absurd early (Nat.not_lt_zero index)⟩ fun index after holds => ?_
    refine ⟨holds.1.autobindRole index, fun place early => ?_⟩
    rcases Nat.lt_succ_iff_lt_or_eq.mp early with earlier | rfl
    · exact (holds.2 place earlier).autobindRole index
    · exact served_autobindRole place after
  obtain ⟨bound, served⟩ := turns
  refine ⟨bound, fun index => ?_⟩
  by_cases early : index < middle.roles.length
  · exact served index early
  · intro role found
    have inside := (List.getElem?_eq_some_iff.mp found).1
    rw [bound.count, ← hints.count] at inside
    exact absurd inside early

/-- Where no service was bound twice, none is after. -/
theorem autobind_nodup (config : ClientConfig) (agree : state.FlagsAgree) (single : state.bound.Nodup) :
    (state.rolemgrAutobind config).bound.Nodup := by
  have consistent : state.Consistent fun _ => True := by
    refine ⟨fun pointer _ => .inl trivial, single, fun device member index serv found => ?_⟩
    rw [agree device member index serv found]
    refine ⟨fun one => List.count_pos_iff.mp (one ▸ Nat.one_pos), fun listed => ?_⟩
    exact List.count_eq_one_of_mem single listed
  exact ((consistent_stable _).autobind consistent config).single

end ClientState

/-- Autobind is conservative and maximal. -/
theorem rolemgr_autobind_greedy {state : ClientState} (config : ClientConfig) (enabled : state.autoBindEnabled = true)
    (agree : state.FlagsAgree) : state.Autobound (state.rolemgrAutobind config) := by
  obtain ⟨bound, served⟩ := ClientState.Bound.autobind config enabled
  refine ⟨bound.count, fun index role found has => ?_, fun index role found open_ => ?_, bound.once,
    ClientState.autobind_nodup config agree, served⟩
  · obtain ⟨service, after, rfl | ⟨open_, _⟩⟩ := bound.roles index role found
    · exact after
    · rw [open_] at has
      cases has
  · obtain ⟨service, after, rfl | ⟨_, pointer, rfl, vacant⟩⟩ := bound.roles index role found
    · exact .inl after
    · exact .inr ⟨pointer, after, vacant⟩

/-- Three roles for two services of their class, one of which is bound already. -/
def threeRoles : ClientState where
  devices := [⟨1, 7, 0, 0, [⟨0, false⟩, ⟨5, false⟩, ⟨5, true⟩]⟩]
  roles := [⟨[97], 5, .none, 0, some ⟨1, 2⟩⟩, ⟨[98], 5, .none, 0, none⟩, ⟨[99], 5, .none, 0, none⟩]
  autoBindEnabled := true
  forceHints := false
  appDeviceId := 0
  changed := false

theorem threeRoles_agree : threeRoles.FlagsAgree := by
  intro device member index serv found
  obtain rfl := List.mem_singleton.mp member
  rcases index with _ | _ | _ | index
  · obtain rfl := Option.some.inj found
    decide
  · obtain rfl := Option.some.inj found
    decide
  · obtain rfl := Option.some.inj found
    decide
  · cases found

theorem rolemgr_autobind_greedy_three :
    threeRoles.FlagsAgree ∧ threeRoles.Autobound (threeRoles.rolemgrAutobind ⟨0, fun _ => 0⟩) ∧
    (threeRoles.rolemgrAutobind ⟨0, fun _ => 0⟩).bound = [⟨1, 2⟩, ⟨1, 1⟩] :=
  ⟨threeRoles_agree, rolemgr_autobind_greedy ⟨0, fun _ => 0⟩ rfl threeRoles_agree, by decide⟩

end Jacdac
