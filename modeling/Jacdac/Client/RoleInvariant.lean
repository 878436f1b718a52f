import Jacdac.Client.Roles
import Mathlib.Data.List.Nodup

/-! What the role manager keeps true of bindings: a bound role points to a
service of a listed device, and the flags of the services agree with the roles. -/

namespace Jacdac

/-- The pointer is to a service of a listed device. -/
def Listed (devices : List Device) (pointer : ServicePointer) : Prop :=
  ∃ device ∈ devices, device.address = pointer.device ∧ pointer.index < device.numServices

/-- The pointer is to a service of a listed device that has its flag clear. -/
def Unassigned (devices : List Device) (pointer : ServicePointer) : Prop :=
  ∃ device ∈ devices, device.address = pointer.device ∧
    ∃ serv, device.services[pointer.index]? = some serv ∧ serv.roleAssigned = false

theorem Unassigned.listed {devices : List Device} {pointer : ServicePointer} (free : Unassigned devices pointer) :
    Listed devices pointer := by
  obtain ⟨device, member, address, serv, found, _⟩ := free
  exact ⟨device, member, address, (List.getElem?_eq_some_iff.mp found).1⟩

/-- The pointer is to a service of a listed device that has this class. -/
def Offers (devices : List Device) (pointer : ServicePointer) (serviceClass : Nat) : Prop :=
  ∃ device ∈ devices, device.address = pointer.device ∧
    ∃ serv, device.services[pointer.index]? = some serv ∧ serv.serviceClass = serviceClass

/-- The pointer is to a service of this class that has its flag clear. -/
def Vacant (devices : List Device) (pointer : ServicePointer) (serviceClass : Nat) : Prop :=
  ∃ device ∈ devices, device.address = pointer.device ∧
    ∃ serv, device.services[pointer.index]? = some serv ∧ serv.serviceClass = serviceClass ∧ serv.roleAssigned = false

theorem Vacant.unassigned {devices : List Device} {pointer : ServicePointer}
    (vacant : Vacant devices pointer serviceClass) : Unassigned devices pointer := by
  obtain ⟨device, member, address, serv, found, _, clear⟩ := vacant
  exact ⟨device, member, address, serv, found, clear⟩

theorem Vacant.offers {devices : List Device} {pointer : ServicePointer}
    (vacant : Vacant devices pointer serviceClass) : Offers devices pointer serviceClass := by
  obtain ⟨device, member, address, serv, found, suits, _⟩ := vacant
  exact ⟨device, member, address, serv, found, suits⟩

namespace Device

theorem mem_setFlag {pointer : ServicePointer} {assigned : Bool} {devices : List Device} {after : Device}
    (member : after ∈ setFlag pointer assigned devices) :
    ∃ device ∈ devices, after.address = device.address ∧ after.numServices = device.numServices ∧
      ∀ index serv, after.services[index]? = some serv → ∃ old, device.services[index]? = some old ∧
        serv.roleAssigned = if pointer = ⟨device.address, index⟩ then assigned else old.roleAssigned := by
  obtain ⟨device, present, rfl⟩ := List.mem_map.mp member
  refine ⟨device, present, ?_⟩
  split
  · rename_i here
    refine ⟨rfl, by simp [numServices], fun index serv found => ?_⟩
    rw [List.getElem?_modify, Option.map_eq_map, Option.map_eq_some_iff] at found
    obtain ⟨old, before, rfl⟩ := found
    refine ⟨old, before, ?_⟩
    by_cases same : pointer.index = index
    · have target : pointer = ⟨device.address, index⟩ := by rw [here, ← same]
      rw [if_pos same, if_pos target]
    · rw [if_neg same, if_neg fun target => same (congrArg ServicePointer.index target)]
  · rename_i elsewhere
    refine ⟨rfl, rfl, fun index serv found => ⟨serv, found, ?_⟩⟩
    rw [if_neg fun target => elsewhere (congrArg ServicePointer.device target).symm]

theorem listed_setFlag {pointer other : ServicePointer} {assigned : Bool} {devices : List Device}
    (listed : Listed devices other) : Listed (setFlag pointer assigned devices) other := by
  obtain ⟨device, member, address, bound⟩ := listed
  refine ⟨_, List.mem_map.mpr ⟨device, member, rfl⟩, ?_⟩
  split
  · exact ⟨address, by simpa [numServices] using bound⟩
  · exact ⟨address, bound⟩

theorem lookup_mem {identifier : Nat} {devices : List Device} {device : Device}
    (found : lookup identifier devices = some device) : device ∈ devices :=
  List.mem_of_find?_eq_some found

end Device

namespace ClientState

def bound (state : ClientState) : List ServicePointer := state.roles.filterMap (·.service)

/-- The devices after a role has moved from one service to another. -/
def moveFlags (old new : Option ServicePointer) (devices : List Device) : List Device :=
  let devices := match old with
    | none => devices
    | some old => Device.setFlag old false devices
  match new with
    | none => devices
    | some new => Device.setFlag new true devices

/-- A call of `rolemgr_set` does nothing, or it moves one role. -/
theorem rolemgrSet_cases (index : Nat) (serv : Option ServicePointer) (state : ClientState) :
    state.rolemgrSet index serv = state ∨
      ∃ early role late, state.roles = early ++ role :: late ∧
        state.rolemgrSet index serv =
          { state with
            devices := moveFlags role.service serv state.devices
            roles := early ++ { role with service := serv } :: late
            changed := true } := by
  unfold rolemgrSet
  cases found : state.roles[index]? with
  | none => exact .inl rfl
  | some role =>
    dsimp only
    split
    · exact .inl rfl
    · obtain ⟨inside, here⟩ := List.getElem?_eq_some_iff.mp found
      refine .inr ⟨state.roles.take index, role, state.roles.drop (index + 1), ?_, ?_⟩
      · rw [← here, List.getElem_cons_drop, List.take_append_drop]
      · rw [List.set_eq_take_append_cons_drop, if_pos inside]
        rfl

theorem bound_split {state : ClientState} {early late : List Role} {role : Role}
    (roles : state.roles = early ++ role :: late) :
    state.bound = early.filterMap (·.service) ++ (role.service.toList ++ late.filterMap (·.service)) := by
  rw [bound, roles, List.filterMap_append, List.filterMap_cons]
  cases role.service <;> rfl

/-- Every bound role points to a listed service, or to one that is spared
because its device is just being freed. -/
def Placed (spare : ServicePointer → Prop) (state : ClientState) : Prop :=
  ∀ pointer ∈ state.bound, spare pointer ∨ Listed state.devices pointer

theorem listed_moveFlags {old new : Option ServicePointer} {devices : List Device} {pointer : ServicePointer}
    (listed : Listed devices pointer) : Listed (moveFlags old new devices) pointer := by
  cases old <;> cases new
  · exact listed
  · exact Device.listed_setFlag listed
  · exact Device.listed_setFlag listed
  · exact Device.listed_setFlag (Device.listed_setFlag listed)

theorem Placed.rolemgrSet {spare : ServicePointer → Prop} {state : ClientState} (placed : state.Placed spare)
    (index : Nat) {serv : Option ServicePointer} (listed : ∀ pointer, serv = some pointer → Listed state.devices pointer) :
    (state.rolemgrSet index serv).Placed spare := by
  rcases state.rolemgrSet_cases index serv with same | ⟨early, role, late, roles, moved⟩
  · rwa [same]
  · have before := bound_split roles
    have after := bound_split (congrArg ClientState.roles moved)
    intro pointer member
    rw [after] at member
    rw [moved]
    rcases List.mem_append.mp member with inEarly | rest
    · exact (placed pointer (before ▸ List.mem_append_left _ inEarly)).imp id listed_moveFlags
    · rcases List.mem_append.mp rest with inServ | inLate
      · exact .inr (listed_moveFlags (listed pointer (Option.mem_toList.mp inServ)))
      · exact (placed pointer (before ▸ List.mem_append_right _ (List.mem_append_right _ inLate))).imp id
          listed_moveFlags

/-- In addition no service is bound twice, and a service of a listed device has
its flag set exactly if it is bound. -/
structure Consistent (spare : ServicePointer → Prop) (state : ClientState) : Prop where
  placed : state.Placed spare
  single : state.bound.Nodup
  agrees : ∀ device ∈ state.devices, ∀ index serv, device.services[index]? = some serv →
    (serv.roleAssigned = true ↔ ⟨device.address, index⟩ ∈ state.bound)

theorem mem_moveFlags {old new : Option ServicePointer} {devices : List Device} {after : Device}
    (member : after ∈ moveFlags old new devices) :
    ∃ device ∈ devices, after.address = device.address ∧
      ∀ index serv, after.services[index]? = some serv → ∃ before, device.services[index]? = some before ∧
        serv.roleAssigned =
          if new = some ⟨device.address, index⟩ then true
          else if old = some ⟨device.address, index⟩ then false
          else before.roleAssigned := by
  have cleared : ∀ middle ∈ moveFlags old none devices, ∃ device ∈ devices, middle.address = device.address ∧
      ∀ index serv, middle.services[index]? = some serv → ∃ before, device.services[index]? = some before ∧
        serv.roleAssigned = if old = some ⟨device.address, index⟩ then false else before.roleAssigned := by
    intro middle present
    cases old with
    | none => exact ⟨middle, present, rfl, fun index serv found => ⟨serv, found, by simp⟩⟩
    | some old =>
      obtain ⟨device, listed, address, _, flags⟩ := Device.mem_setFlag present
      exact ⟨device, listed, address, by simpa using flags⟩
  cases new with
  | none =>
    obtain ⟨device, listed, address, flags⟩ := cleared after member
    exact ⟨device, listed, address, by simpa using flags⟩
  | some new =>
    obtain ⟨middle, present, same, _, set⟩ := Device.mem_setFlag member
    obtain ⟨device, listed, address, flags⟩ := cleared middle present
    refine ⟨device, listed, same.trans address, fun index serv found => ?_⟩
    obtain ⟨between, foundBetween, assigned⟩ := set index serv found
    obtain ⟨before, foundBefore, kept⟩ := flags index between foundBetween
    refine ⟨before, foundBefore, ?_⟩
    rw [assigned, kept, address]
    simp

/-- Membership after one place of a list without repetitions is replaced. -/
private theorem mem_replace {early late : List ServicePointer} {old new : Option ServicePointer}
    (single : (early ++ (old.toList ++ late)).Nodup) (pointer : ServicePointer) :
    pointer ∈ early ++ (new.toList ++ late) ↔
      new = some pointer ∨ (old ≠ some pointer ∧ pointer ∈ early ++ (old.toList ++ late)) := by
  have apart : old = some pointer → pointer ∉ early ∧ pointer ∉ late := by
    rintro rfl
    simp only [Option.toList_some, List.singleton_append, List.nodup_middle, List.nodup_cons, List.mem_append] at single
    exact not_or.mp single.1
  simp only [List.mem_append, Option.mem_toList]
  constructor
  · rintro (inEarly | inNew | inLate)
    · exact .inr ⟨fun same => (apart same).1 inEarly, .inl inEarly⟩
    · exact .inl inNew
    · exact .inr ⟨fun same => (apart same).2 inLate, .inr (.inr inLate)⟩
  · rintro (inNew | ⟨other, inEarly | inOld | inLate⟩)
    · exact .inr (.inl inNew)
    · exact .inl inEarly
    · exact absurd inOld other
    · exact .inr (.inr inLate)

private theorem nodup_replace {early late : List ServicePointer} {old new : Option ServicePointer}
    (single : (early ++ (old.toList ++ late)).Nodup)
    (absent : ∀ pointer, new = some pointer → pointer ∉ early ++ (old.toList ++ late)) :
    (early ++ (new.toList ++ late)).Nodup := by
  have rest : (early ++ late).Nodup :=
    single.sublist ((List.Sublist.refl early).append (List.sublist_append_right _ late))
  cases new with
  | none => exact rest
  | some new =>
    have apart := absent new rfl
    simp only [List.mem_append, not_or] at apart
    simp only [Option.toList_some, List.singleton_append, List.nodup_middle, List.nodup_cons, List.mem_append]
    exact ⟨not_or.mpr ⟨apart.1, apart.2.2⟩, rest⟩

theorem Consistent.unbound {spare : ServicePointer → Prop} {state : ClientState} (consistent : state.Consistent spare)
    {pointer : ServicePointer} (free : Unassigned state.devices pointer) : pointer ∉ state.bound := by
  obtain ⟨device, member, address, serv, found, clear⟩ := free
  intro isBound
  have assigned := (consistent.agrees device member pointer.index serv found).mpr (by rwa [address])
  simp [clear] at assigned

theorem Consistent.rolemgrSet {spare : ServicePointer → Prop} {state : ClientState} (consistent : state.Consistent spare)
    (index : Nat) {serv : Option ServicePointer}
    (free : ∀ pointer, serv = some pointer → Unassigned state.devices pointer) :
    (state.rolemgrSet index serv).Consistent spare := by
  have placed := consistent.placed.rolemgrSet index fun pointer same => (free pointer same).listed
  rcases state.rolemgrSet_cases index serv with same | ⟨early, role, late, roles, moved⟩
  · rwa [same]
  have before := bound_split roles
  have after := bound_split (congrArg ClientState.roles moved)
  have single := consistent.single
  rw [before] at single
  refine ⟨placed, ?_, ?_⟩
  · rw [after]
    exact nodup_replace single fun pointer same => before ▸ consistent.unbound (free pointer same)
  · rw [after, moved]
    intro device member place flag found
    obtain ⟨old, listed, address, flags⟩ := mem_moveFlags member
    obtain ⟨beforeFlag, foundBefore, assigned⟩ := flags place flag found
    have agreed := consistent.agrees old listed place beforeFlag foundBefore
    rw [mem_replace single, assigned, address, ← before, ← agreed]
    by_cases isNew : serv = some ⟨old.address, place⟩
    · simp [isNew]
    · by_cases isOld : role.service = some ⟨old.address, place⟩
      · simp [isNew, isOld]
      · simp [isNew, isOld]

/-- A property that unbinding a role keeps, and binding one to a free service. -/
structure BindStable (Holds : ClientState → Prop) : Prop where
  clear : ∀ state index, Holds state → Holds (state.rolemgrSet index none)
  bind : ∀ state index pointer, Unassigned state.devices pointer → Holds state →
    Holds (state.rolemgrSet index (some pointer))

theorem placed_stable (spare : ServicePointer → Prop) : BindStable (Placed spare) where
  clear _ index placed := placed.rolemgrSet index nofun
  bind _ index _ free placed := placed.rolemgrSet index fun _ same => Option.some.inj same ▸ free.listed

theorem consistent_stable (spare : ServicePointer → Prop) : BindStable (Consistent spare) where
  clear _ index consistent := consistent.rolemgrSet index nofun
  bind _ index _ free consistent := consistent.rolemgrSet index fun _ same => Option.some.inj same ▸ free

theorem hinted_spec {serviceClass off place : Nat} {services : List DeviceService} {serv : DeviceService}
    (found : hinted serviceClass off services = some (place, serv)) :
    services[place]? = some serv ∧ serv.serviceClass = serviceClass := by
  induction services generalizing off place with
  | nil => exact absurd found nofun
  | cons head rest ih =>
    have later : ∀ off, (hinted serviceClass off rest).map (fun found => (found.1 + 1, found.2)) = some (place, serv) →
        (head :: rest)[place]? = some serv ∧ serv.serviceClass = serviceClass := by
      intro off mapped
      obtain ⟨⟨before, same⟩, foundRest, pair⟩ := Option.map_eq_some_iff.mp mapped
      obtain ⟨rfl, rfl⟩ := Prod.mk.inj pair
      exact ih foundRest
    unfold hinted at found
    split at found
    · rename_i suits
      cases off with
      | zero =>
        obtain ⟨rfl, rfl⟩ := Prod.mk.inj (Option.some.inj found)
        exact ⟨rfl, suits⟩
      | succ off => exact later off found
    · exact later off found

theorem hintedDevice_mem {config : ClientConfig} {hint : RoleHint} {state : ClientState} {device : Device}
    (named : state.hintedDevice config hint = some device) : device ∈ state.devices := by
  have lookedUp : ∀ dev, (if dev = 0 then none else Device.lookup dev state.devices) = some device →
      device ∈ state.devices := by
    intro dev found
    split at found
    · exact absurd found nofun
    · exact Device.lookup_mem found
  exact lookedUp _ named

theorem freeService_spec {serviceClass : Nat} {devices : List Device} {pointer : ServicePointer}
    (found : devices.findSome? (freeService serviceClass) = some pointer) : Vacant devices pointer serviceClass := by
  obtain ⟨device, member, free⟩ := List.exists_of_findSome?_eq_some found
  obtain ⟨place, chosen, rfl⟩ := Option.map_eq_some_iff.mp free
  have suits := List.find?_some chosen
  simp only [decide_eq_true_eq, Option.any_eq_true] at suits
  obtain ⟨_, serv, here, suitable⟩ := suits
  simp only [Bool.not_eq_true'] at suitable
  exact ⟨device, member, rfl, serv, here, suitable⟩

/-- Following a hint binds an unbound role to a free service of its class, or does nothing. -/
theorem rolemgrUseHint_cases (config : ClientConfig) (index : Nat) (state : ClientState) :
    state.rolemgrUseHint config index = state ∨
      ∃ role pointer, state.roles[index]? = some role ∧ role.service = none ∧
        Vacant state.devices pointer role.serviceClass ∧
        state.rolemgrUseHint config index = state.rolemgrSet index (some pointer) := by
  unfold rolemgrUseHint
  split
  · exact .inl rfl
  · rename_i role here
    split
    · exact .inl rfl
    · rename_i hinting
      have open_ : role.service = none := by simpa using (not_or.mp hinting).1
      split
      · exact .inl rfl
      · rename_i device named
        split
        · exact .inl rfl
        · rename_i offset serv found
          obtain ⟨place, suits⟩ := hinted_spec found
          have member := hintedDevice_mem named
          split
          · exact .inl rfl
          · rename_i clear
            exact .inr ⟨role, _, here, open_, ⟨device, member, rfl, serv, place, suits, by simpa using clear⟩, rfl⟩

/-- So does looking for any free service. -/
theorem autobindRole_cases (index : Nat) (state : ClientState) :
    state.autobindRole index = state ∨
      ∃ role pointer, state.roles[index]? = some role ∧ role.service = none ∧
        Vacant state.devices pointer role.serviceClass ∧
        state.autobindRole index = state.rolemgrSet index (some pointer) := by
  unfold autobindRole
  split
  · exact .inl rfl
  · rename_i role here
    split
    · exact .inl rfl
    · rename_i passed
      split
      · exact .inl rfl
      · rename_i serv found
        exact .inr ⟨role, serv, here, by simpa using (not_or.mp passed).1, freeService_spec found, rfl⟩

section Stable

variable {Holds : ClientState → Prop} (stable : BindStable Holds) {state : ClientState} (holds : Holds state)

include stable holds

theorem BindStable.useHint (config : ClientConfig) (index : Nat) : Holds (state.rolemgrUseHint config index) := by
  rcases state.rolemgrUseHint_cases config index with same | ⟨role, pointer, _, _, vacant, set⟩
  · rwa [same]
  · rw [set]
    exact stable.bind state index pointer vacant.unassigned holds

theorem BindStable.autobindRole (index : Nat) : Holds (state.autobindRole index) := by
  rcases state.autobindRole_cases index with same | ⟨role, pointer, _, _, vacant, set⟩
  · rwa [same]
  · rw [set]
    exact stable.bind state index pointer vacant.unassigned holds

theorem BindStable.clearRoleOf (device index : Nat) : Holds (state.clearRoleOf device index) := by
  unfold ClientState.clearRoleOf
  split
  · exact holds
  · split
    · exact holds
    · split
      · exact stable.clear state index holds
      · exact holds

omit stable in
theorem forRoles_holds {body : Nat → ClientState → ClientState}
    (kept : ∀ index state, Holds state → Holds (body index state)) : Holds (state.forRoles body) := by
  unfold forRoles
  generalize List.range state.roles.length = places
  induction places generalizing state with
  | nil => exact holds
  | cons index rest ih => exact ih (kept index state holds)

theorem BindStable.autobind (config : ClientConfig) : Holds (state.rolemgrAutobind config) := by
  unfold rolemgrAutobind
  split
  · refine forRoles_holds (forRoles_holds holds ?_) ?_
    · exact fun index _ holds => stable.useHint holds config index
    · exact fun index _ holds => stable.autobindRole holds index
  · exact holds

theorem BindStable.clearAllRoles : Holds state.clearAllRoles :=
  forRoles_holds holds fun index state holds => stable.clear state index holds

theorem BindStable.deviceDestroyed (device : Nat) : Holds (state.rolemgrDeviceDestroyed device) :=
  forRoles_holds holds fun index _ holds => stable.clearRoleOf holds device index

end Stable

theorem forRoles_roles {body : Nat → ClientState → ClientState} {change : Role → Role}
    (changes : ∀ index state, (body index state).roles = state.roles.modify index change) (state : ClientState) :
    (state.forRoles body).roles = state.roles.map change := by
  have upTo : ∀ count place, ((List.range count).foldl (fun state index => body index state) state).roles[place]? =
      (state.roles[place]?).map fun role => if place < count then change role else role := by
    intro count place
    induction count with
    | zero => simp
    | succ count ih =>
      rw [List.range_succ, List.foldl_append, List.foldl_cons, List.foldl_nil, changes, List.getElem?_modify, ih,
        Option.map_eq_map, Option.map_map]
      congr 1
      funext role
      simp only [Function.comp_apply]
      by_cases here : count = place
      · rw [if_pos here, if_neg (by omega), if_pos (by omega)]
      · rw [if_neg here]
        by_cases earlier : place < count
        · rw [if_pos earlier, if_pos (by omega)]
        · rw [if_neg earlier, if_neg (by omega)]
  apply List.ext_getElem?
  intro place
  rw [forRoles, upTo, List.getElem?_map]
  by_cases inside : place < state.roles.length
  · simp only [if_pos inside]
  · rw [List.getElem?_eq_none (Nat.not_lt.mp inside)]
    rfl

def unbound (role : Role) : Role := { role with service := none }

theorem modify_congr {change other : Role → Role} {roles : List Role}
    (same : ∀ role, roles[index]? = some role → change role = other role) :
    roles.modify index change = roles.modify index other := by
  apply List.ext_getElem?
  intro place
  rw [List.getElem?_modify, List.getElem?_modify]
  cases found : roles[place]? with
  | none => rfl
  | some role =>
    simp only [Option.map_eq_map, Option.map_some]
    by_cases here : index = place
    · rw [if_pos here, if_pos here, same role (here ▸ found)]
    · rw [if_neg here, if_neg here]

theorem modify_same {change : Role → Role} {roles : List Role}
    (same : ∀ role, roles[index]? = some role → change role = role) : roles.modify index change = roles :=
  (modify_congr same).trans (List.modify_id index roles)

theorem modify_absent {change : Role → Role} {roles : List Role} (absent : roles[index]? = none) :
    roles.modify index change = roles :=
  modify_same fun role here => by
    rw [absent] at here
    cases here

theorem rolemgrSet_none_roles (index : Nat) (state : ClientState) :
    (state.rolemgrSet index none).roles = state.roles.modify index unbound := by
  unfold rolemgrSet
  cases found : state.roles[index]? with
  | none => exact (modify_absent found).symm
  | some role =>
    dsimp only
    split
    · rename_i already
      refine (modify_same fun other here => ?_).symm
      obtain rfl := Option.some.inj (found.symm.trans here)
      rw [unbound, ← already]
    · obtain ⟨inside, here⟩ := List.getElem?_eq_some_iff.mp found
      rw [List.modify_eq_take_cons_drop inside, here]
      exact (List.set_eq_take_append_cons_drop ..).trans (if_pos inside)

/-- The role as `rolemgr_device_destroyed` leaves it. -/
def unboundFrom (device : Nat) (role : Role) : Role :=
  if role.service.any (·.device = device) then unbound role else role

theorem clearRoleOf_roles (device index : Nat) (state : ClientState) :
    (state.clearRoleOf device index).roles = state.roles.modify index (unboundFrom device) := by
  unfold clearRoleOf
  cases found : state.roles[index]? with
  | none => exact (modify_absent found).symm
  | some role =>
    dsimp only
    cases service : role.service with
    | none =>
      refine (modify_same fun other here => ?_).symm
      obtain rfl := Option.some.inj (found.symm.trans here)
      simp [unboundFrom, service]
    | some serv =>
      dsimp only
      split
      · rename_i owned
        rw [rolemgrSet_none_roles]
        refine modify_congr fun other here => ?_
        obtain rfl := Option.some.inj (found.symm.trans here)
        simp [unboundFrom, service, owned]
      · rename_i elsewhere
        refine (modify_same fun other here => ?_).symm
        obtain rfl := Option.some.inj (found.symm.trans here)
        simp [unboundFrom, service, elsewhere]

end ClientState

end Jacdac
