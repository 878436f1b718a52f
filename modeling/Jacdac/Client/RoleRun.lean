import Jacdac.Client.RoleInvariant

/-! Runs of the client: packets, garbage collections and role functions in any
order. -/

namespace Jacdac

namespace ClientState

/-- No device is just being freed. -/
def spareNone (_ : ServicePointer) : Prop := False

/-- The device at that address is just being freed. -/
def spareDevice (address : Nat) (pointer : ServicePointer) : Prop := pointer.device = address

theorem bound_insert (role : Role) (roles : List Role) (free : role.service = none) :
    (Role.insert role roles).filterMap (·.service) = roles.filterMap (·.service) := by
  induction roles with
  | nil => simp [Role.insert, free]
  | cons other rest ih =>
    unfold Role.insert
    split
    · rw [List.filterMap_cons_none free]
    · rw [List.filterMap_cons, List.filterMap_cons, ih]

theorem bound_erase (index : Nat) (roles : List Role) :
    ((roles.modify index unbound).eraseIdx index).filterMap (·.service) =
      (roles.modify index unbound).filterMap (·.service) := by
  induction roles generalizing index with
  | nil => simp
  | cons role rest ih =>
    cases index with
    | zero => simp [unbound]
    | succ index => simp only [List.modify_succ_cons, List.eraseIdx_cons_succ, List.filterMap_cons, ih]

theorem clearAllRoles_roles (state : ClientState) : state.clearAllRoles.roles = state.roles.map unbound :=
  forRoles_roles rolemgrSet_none_roles state

theorem freeRoles_unbound (roles : List Role) (devices : List Device) :
    freeRoles (roles.map unbound) devices = devices := by
  induction roles with
  | nil => rfl
  | cons role rest ih => exact ih

theorem bound_unbound (roles : List Role) : (roles.map unbound).filterMap (·.service) = [] := by
  simp [List.filterMap_map, Function.comp_def, unbound]

/-- A property of the bindings and the devices only. -/
structure BindingStable (Holds : ClientState → Prop) : Prop extends BindStable Holds where
  congr : ∀ state other : ClientState, other.bound = state.bound → other.devices = state.devices → Holds state →
    Holds other

theorem Placed.of_same {spare : ServicePointer → Prop} {state other : ClientState} (placed : state.Placed spare)
    (bound : other.bound = state.bound) (devices : other.devices = state.devices) : other.Placed spare := by
  intro pointer member
  rw [bound] at member
  rw [devices]
  exact placed pointer member

theorem placed_binding (spare : ServicePointer → Prop) : BindingStable (Placed spare) where
  toBindStable := placed_stable spare
  congr _ _ bound devices placed := placed.of_same bound devices

theorem consistent_binding (spare : ServicePointer → Prop) : BindingStable (Consistent spare) where
  toBindStable := consistent_stable spare
  congr state other bound devices consistent := by
    refine ⟨consistent.placed.of_same bound devices, bound ▸ consistent.single, ?_⟩
    rw [bound, devices]
    exact consistent.agrees

section Stable

variable {Holds : ClientState → Prop} (stable : BindingStable Holds) {state : ClientState} (holds : Holds state)

include stable holds

theorem BindingStable.roleAlloc (name : List UInt8) (serviceClass : Nat) : Holds (state.jdRoleAlloc name serviceClass) :=
  stable.congr state _ (bound_insert _ state.roles rfl) rfl holds

theorem BindingStable.roleFree (index : Nat) : Holds (state.jdRoleFree index) := by
  refine stable.congr (state.rolemgrSet index none) _ ?_ rfl (stable.clear state index holds)
  have erased := bound_erase index state.roles
  rw [← rolemgrSet_none_roles] at erased
  exact erased

theorem BindingStable.roleFreeAll : Holds state.jdRoleFreeAll := by
  refine stable.congr state.clearAllRoles _ ?_ ?_ (stable.clearAllRoles holds)
  · show [] = state.clearAllRoles.roles.filterMap (·.service)
    rw [clearAllRoles_roles, bound_unbound]
  · show freeRoles state.clearAllRoles.roles state.clearAllRoles.devices = state.clearAllRoles.devices
    rw [clearAllRoles_roles, freeRoles_unbound]

end Stable

theorem deviceDestroyed_bound {address : Nat} {state : ClientState} {pointer : ServicePointer}
    (member : pointer ∈ (state.rolemgrDeviceDestroyed address).bound) : pointer.device ≠ address := by
  have roles : (state.rolemgrDeviceDestroyed address).roles = state.roles.map (unboundFrom address) :=
    forRoles_roles (clearRoleOf_roles address) state
  rw [bound, roles, List.filterMap_map] at member
  obtain ⟨role, _, points⟩ := List.mem_filterMap.mp member
  simp only [Function.comp_apply, unboundFrom] at points
  split at points
  · cases points
  · rename_i elsewhere
    rw [points] at elsewhere
    simpa using elsewhere

theorem Placed.settled {address : Nat} {state : ClientState} (placed : state.Placed (spareDevice address))
    (gone : ∀ pointer ∈ state.bound, pointer.device ≠ address) : state.Placed spareNone :=
  fun pointer member => .inr ((placed pointer member).resolve_left (gone pointer member))

theorem listed_unlink {address : Nat} {devices : List Device} {pointer : ServicePointer}
    (listed : Listed devices pointer) : pointer.device = address ∨ Listed (Device.unlink address devices) pointer := by
  obtain ⟨device, member, here, inside⟩ := listed
  by_cases same : device.address = address
  · exact .inl (here ▸ same)
  · refine .inr ⟨device, ?_, here, inside⟩
    exact (List.mem_eraseP_of_neg (by simpa using same)).mpr member

theorem Placed.dropDevice {state : ClientState} (placed : state.Placed spareNone) (device : Device) :
    (state.dropDevice device).Placed spareNone := by
  have unlinked : { state with devices := Device.unlink device.address state.devices }.Placed
      (spareDevice device.address) :=
    fun pointer member => listed_unlink ((placed pointer member).resolve_left id)
  have destroyed := (placed_stable _).deviceDestroyed unlinked device.address
  exact destroyed.settled fun _ => deviceDestroyed_bound

theorem Consistent.dropDevice {state : ClientState} (consistent : state.Consistent spareNone) (device : Device) :
    (state.dropDevice device).Consistent spareNone := by
  have unlinked : { state with devices := Device.unlink device.address state.devices }.Consistent
      (spareDevice device.address) := by
    refine ⟨fun pointer member => ?_, consistent.single, fun other member => ?_⟩
    · exact listed_unlink ((consistent.placed pointer member).resolve_left id)
    · exact consistent.agrees other (List.mem_of_mem_eraseP member)
  have destroyed := (consistent_stable _).deviceDestroyed unlinked device.address
  exact ⟨destroyed.placed.settled fun _ => deviceDestroyed_bound, destroyed.single, destroyed.agrees⟩

theorem mem_insert {config : ClientConfig} {fresh device : Device} {devices : List Device} :
    device ∈ Device.insert config fresh devices ↔ device = fresh ∨ device ∈ devices := by
  induction devices with
  | nil => simp [Device.insert]
  | cons existing rest ih =>
    unfold Device.insert
    split
    · simp
    · rw [List.mem_cons, ih, List.mem_cons]
      exact or_left_comm

theorem Placed.deviceAlloc {state : ClientState} (placed : state.Placed spareNone) (config : ClientConfig)
    (allocator : Allocator) (now : Nat) (announce : ClientPacket) :
    (state.jdDeviceAlloc config allocator now announce).Placed spareNone := by
  intro pointer member
  obtain ⟨device, present, here, inside⟩ := (placed pointer member).resolve_left id
  exact .inr ⟨device, mem_insert.mpr (.inr present), here, inside⟩

/-- The memory of a new device is in no role's service. -/
theorem Consistent.deviceAlloc {state : ClientState} (consistent : state.Consistent spareNone) (config : ClientConfig)
    (allocator : Allocator) (now : Nat) (announce : ClientPacket) :
    (state.jdDeviceAlloc config allocator now announce).Consistent spareNone := by
  refine ⟨consistent.placed.deviceAlloc config allocator now announce, consistent.single, ?_⟩
  intro device member index serv found
  rcases mem_insert.mp member with rfl | present
  · constructor
    · intro assigned
      simp only [Device.ofAnnounce, List.getElem?_map, Option.map_eq_some_iff] at found
      obtain ⟨_, _, rfl⟩ := found
      exact absurd assigned nofun
    · intro isBound
      obtain ⟨old, listed, here, _⟩ := (consistent.placed _ isBound).resolve_left id
      exact absurd (List.mem_map.mpr ⟨old, listed, here⟩) (allocator.fresh _)
  · exact consistent.agrees device present index serv found

theorem Placed.updateDevice {state : ClientState} (placed : state.Placed spareNone) (address : Nat)
    {update : Device → Device} (addresses : ∀ device, (update device).address = device.address)
    (services : ∀ device, (update device).services = device.services) :
    (state.updateDevice address update).Placed spareNone := by
  intro pointer member
  obtain ⟨device, present, here, inside⟩ := (placed pointer member).resolve_left id
  refine .inr ⟨_, List.mem_map.mpr ⟨device, present, rfl⟩, ?_⟩
  split
  · exact ⟨(addresses device).trans here, by rwa [Device.numServices, services]⟩
  · exact ⟨here, inside⟩

theorem Consistent.updateDevice {state : ClientState} (consistent : state.Consistent spareNone) (address : Nat)
    {update : Device → Device} (addresses : ∀ device, (update device).address = device.address)
    (services : ∀ device, (update device).services = device.services) :
    (state.updateDevice address update).Consistent spareNone := by
  refine ⟨consistent.placed.updateDevice address addresses services, consistent.single, ?_⟩
  intro after member index serv found
  obtain ⟨device, present, rfl⟩ := List.mem_map.mp member
  split at found
  · rename_i here
    rw [services] at found
    rw [if_pos here, addresses]
    exact consistent.agrees device present index serv found
  · rename_i elsewhere
    rw [if_neg elsewhere]
    exact consistent.agrees device present index serv found

/-- A property that the changes to the list of devices keep too. -/
structure ClientStable (Holds : ClientState → Prop) : Prop extends BindingStable Holds where
  drop : ∀ state device, Holds state → Holds (state.dropDevice device)
  alloc : ∀ state config allocator now announce, Holds state → Holds (state.jdDeviceAlloc config allocator now announce)
  update : ∀ state address update, (∀ device, (update device).address = device.address) →
    (∀ device, (update device).services = device.services) → Holds state → Holds (state.updateDevice address update)

theorem placed_client : ClientStable (Placed spareNone) where
  toBindingStable := placed_binding spareNone
  drop _ device placed := placed.dropDevice device
  alloc _ config allocator now announce placed := placed.deviceAlloc config allocator now announce
  update _ address _ addresses services placed := placed.updateDevice address addresses services

theorem consistent_client : ClientStable (Consistent spareNone) where
  toBindingStable := consistent_binding spareNone
  drop _ device consistent := consistent.dropDevice device
  alloc _ config allocator now announce consistent := consistent.deviceAlloc config allocator now announce
  update _ address _ addresses services consistent := consistent.updateDevice address addresses services

section Stable

variable {Holds : ClientState → Prop} (stable : ClientStable Holds) {state : ClientState} (holds : Holds state)

include stable holds

theorem ClientStable.gc (now : Nat) : Holds (state.jdDeviceGc now) := by
  unfold jdDeviceGc
  generalize Device.gcVictims now state.devices = victims
  induction victims generalizing state with
  | nil => exact holds
  | cons device rest ih => exact ih (stable.drop state device holds)

theorem ClientStable.handlePacket (config : ClientConfig) (allocator : Allocator) (now : Nat) (pkt : ClientPacket) :
    Holds (state.jdClientHandlePacket config allocator now pkt) := by
  unfold jdClientHandlePacket
  split
  · exact holds
  · split
    · dsimp only
      split
      · exact stable.alloc state config allocator now pkt holds
      · split
        · exact stable.alloc _ config allocator now pkt (stable.drop state _ holds)
        · exact stable.update state _ _ (fun _ => rfl) (fun _ => rfl) holds
    · exact holds

end Stable

theorem setRoleTarget_listed {deviceId serviceIdx : Nat} {state : ClientState} {pointer : ServicePointer}
    (target : state.setRoleTarget deviceId serviceIdx = some pointer) : Listed state.devices pointer := by
  unfold setRoleTarget Device.getService at target
  split at target
  · exact absurd target nofun
  · rename_i device found
    split at target
    · rename_i inside
      obtain rfl := Option.some.inj target
      exact ⟨device, Device.lookup_mem found, rfl, inside⟩
    · exact absurd target nofun

/-- The service that the command names is the role's own or has its flag clear. -/
def SetsFree (deviceId serviceIdx : Nat) (name : List UInt8) (state : ClientState) : Prop :=
  ∀ index role pointer, Role.lookup name state.roles = some index → state.roles[index]? = some role → deviceId ≠ 0 →
    state.setRoleTarget deviceId serviceIdx = some pointer → role.service ≠ some pointer →
      Unassigned state.devices pointer

theorem Placed.setRole {state : ClientState} (placed : state.Placed spareNone) (deviceId serviceIdx : Nat)
    (name : List UInt8) : (state.rolemgrSetRole deviceId serviceIdx name).Placed spareNone := by
  unfold rolemgrSetRole
  split
  · exact placed
  · split
    · exact placed.rolemgrSet _ nofun
    · split
      · exact placed
      · rename_i serv target
        exact placed.rolemgrSet _ fun _ same => Option.some.inj same ▸ setRoleTarget_listed target

theorem rolemgrSet_same {index : Nat} {serv : Option ServicePointer} {state : ClientState}
    (same : ∀ role, state.roles[index]? = some role → role.service = serv) : state.rolemgrSet index serv = state := by
  unfold rolemgrSet
  cases found : state.roles[index]? with
  | none => rfl
  | some role => exact if_pos (same role found)

theorem Consistent.setRole {state : ClientState} (consistent : state.Consistent spareNone)
    {deviceId serviceIdx : Nat} {name : List UInt8} (free : state.SetsFree deviceId serviceIdx name) :
    (state.rolemgrSetRole deviceId serviceIdx name).Consistent spareNone := by
  unfold rolemgrSetRole
  split
  · exact consistent
  · rename_i index found
    split
    · exact consistent.rolemgrSet index nofun
    · rename_i nonzero
      split
      · exact consistent
      · rename_i serv target
        by_cases own : ∀ role, state.roles[index]? = some role → role.service = some serv
        · rwa [rolemgrSet_same own]
        · obtain ⟨role, here, other⟩ := not_forall.mp own |>.imp fun _ => Classical.not_imp.mp
          exact consistent.rolemgrSet index fun _ same =>
            Option.some.inj same ▸ free index role serv found here nonzero target other

end ClientState

/-- Runs of the client and the role manager, with the condition that the
`SET_ROLE` commands met. -/
inductive ClientRun (config : ClientConfig) : ClientState → Prop → Prop where
  | init : ClientRun config .init True
  | packet (run : ClientRun config state met) (allocator : Allocator) (now : Nat) (pkt : ClientPacket) :
    ClientRun config (state.jdClientHandlePacket config allocator now pkt) met
  | gc (run : ClientRun config state met) (now : Nat) : ClientRun config (state.jdDeviceGc now) met
  | roleAlloc (run : ClientRun config state met) (name : List UInt8) (serviceClass : Nat)
      (absent : Role.lookup name state.roles = none) : ClientRun config (state.jdRoleAlloc name serviceClass) met
  | roleFree (run : ClientRun config state met) (index : Nat) (present : index < state.roles.length) :
    ClientRun config (state.jdRoleFree index) met
  | roleFreeAll (run : ClientRun config state met) : ClientRun config state.jdRoleFreeAll met
  | autobind (run : ClientRun config state met) : ClientRun config (state.rolemgrAutobind config) met
  | setRole (run : ClientRun config state met) (deviceId serviceIdx : Nat) (name : List UInt8) :
    ClientRun config (state.rolemgrSetRole deviceId serviceIdx name) (met ∧ state.SetsFree deviceId serviceIdx name)
  | clearAllRoles (run : ClientRun config state met) : ClientRun config state.clearAllRoles met
  | setHints (run : ClientRun config state met) (force : Bool) (appDeviceId : Nat) :
    ClientRun config (state.jdRoleSetHints force appDeviceId) met
  | setAutoBind (run : ClientRun config state met) (enabled : Bool) :
    ClientRun config { state with autoBindEnabled := enabled } met

/-- What every step keeps, given what `SET_ROLE` keeps, holds along a run. -/
theorem ClientRun.holds {config : ClientConfig} {Holds : ClientState → Prop} (Allowed : Prop → Prop)
    (stable : ClientState.ClientStable Holds) (start : Holds .init)
    (earlier : ∀ {met condition}, Allowed (met ∧ condition) → Allowed met)
    (setRole : ∀ {met state} deviceId serviceIdx name, Allowed (met ∧ state.SetsFree deviceId serviceIdx name) →
      Holds state → Holds (state.rolemgrSetRole deviceId serviceIdx name))
    (run : ClientRun config state met) (allowed : Allowed met) : Holds state := by
  induction run with
  | init => exact start
  | packet run allocator now pkt ih => exact stable.handlePacket (ih allowed) config allocator now pkt
  | gc run now ih => exact stable.gc (ih allowed) now
  | roleAlloc run name serviceClass absent ih => exact stable.roleAlloc (ih allowed) name serviceClass
  | roleFree run index present ih => exact stable.roleFree (ih allowed) index
  | roleFreeAll run ih => exact stable.roleFreeAll (ih allowed)
  | autobind run ih => exact stable.autobind (ih allowed) config
  | setRole run deviceId serviceIdx name ih => exact setRole deviceId serviceIdx name allowed (ih (earlier allowed))
  | clearAllRoles run ih => exact stable.clearAllRoles (ih allowed)
  | @setHints state met run force appDeviceId ih => exact stable.congr state _ rfl rfl (ih allowed)
  | @setAutoBind state met run enabled ih => exact stable.congr state _ rfl rfl (ih allowed)

private theorem le_sum (live : List Nat) : ∀ address ∈ live, address ≤ live.sum := by
  induction live with
  | nil => nofun
  | cons first rest ih =>
    intro address member
    rw [List.sum_cons]
    rcases List.mem_cons.mp member with rfl | later
    · exact Nat.le_add_right _ _
    · exact (ih address later).trans (Nat.le_add_left _ _)

/-- An allocator that takes memory after all that is in use. -/
def freshAllocator : Allocator where
  alloc live := live.sum + 1
  fresh live member := absurd (le_sum live _ member) (Nat.not_succ_le_self _)

/-- A client that has seen a device with one service of class 7, and has two
roles for that class. -/
def twoRoles : ClientState :=
  ((ClientState.init.jdClientHandlePacket ⟨1, (· % 16)⟩ freshAllocator 0
    ⟨false, false, 5, 0, 0, 8, fun index => if index = 0 then 0 else 7⟩).jdRoleAlloc [97] 7).jdRoleAlloc [98] 7

theorem twoRoles_run : ClientRun ⟨1, (· % 16)⟩ twoRoles True :=
  .roleAlloc (.roleAlloc (.packet .init _ _ _) _ _ (by decide)) _ _ (by decide)

/-- Every bound role points to a service of a listed device. -/
theorem roles_point_to_listed {config : ClientConfig} {state : ClientState} {met : Prop}
    (run : ClientRun config state met) (role : Role) (member : role ∈ state.roles) (pointer : ServicePointer)
    (points : role.service = some pointer) :
    ∃ device ∈ state.devices, device.address = pointer.device ∧ pointer.index < device.numServices := by
  have placed : state.Placed ClientState.spareNone :=
    ClientRun.holds (fun _ => True) ClientState.placed_client nofun (fun _ => trivial)
      (fun deviceId serviceIdx name _ placed => placed.setRole deviceId serviceIdx name) run trivial
  exact (placed pointer (List.mem_filterMap.mpr ⟨role, member, points⟩)).resolve_left id

theorem roles_point_to_listed_bound :
    ∃ device ∈ (twoRoles.rolemgrSetRole 5 1 [97]).devices, device.address = 1 ∧ 1 < device.numServices :=
  roles_point_to_listed (.setRole twoRoles_run 5 1 [97]) ⟨[97], 7, .none, 0, some ⟨1, 1⟩⟩ (by decide) ⟨1, 1⟩ rfl

/-- In a run whose `SET_ROLE` commands name a service that is the role's own or
not assigned, the flags agree with the bindings and no service is bound twice. -/
theorem role_flags_agree {config : ClientConfig} {state : ClientState} {met : Prop}
    (run : ClientRun config state met) (good : met) :
    (∀ device ∈ state.devices, ∀ index serv, device.services[index]? = some serv →
      (serv.roleAssigned = true ↔ ∃ role ∈ state.roles, role.service = some ⟨device.address, index⟩)) ∧
    state.roles.Pairwise (fun role other => ∀ pointer, role.service = some pointer → other.service ≠ some pointer) := by
  have consistent : state.Consistent ClientState.spareNone :=
    ClientRun.holds id ClientState.consistent_client ⟨nofun, List.nodup_nil, nofun⟩ And.left
      (fun _ _ _ allowed consistent => consistent.setRole allowed.2) run good
  constructor
  · intro device member index serv found
    rw [consistent.agrees device member index serv found]
    exact List.mem_filterMap
  · refine (List.pairwise_filterMap.mp consistent.single).imp ?_
    intro role other apart pointer first second
    exact apart pointer first pointer second rfl

theorem role_flags_agree_bound :
    (∃ role ∈ (twoRoles.rolemgrSetRole 5 1 [97]).roles, role.service = some ⟨1, 1⟩) ∧
    ∀ device ∈ (twoRoles.rolemgrSetRole 5 1 [97]).devices, ∀ index serv, device.services[index]? = some serv →
      (serv.roleAssigned = true ↔
        ∃ role ∈ (twoRoles.rolemgrSetRole 5 1 [97]).roles, role.service = some ⟨device.address, index⟩) := by
  refine ⟨by decide, (role_flags_agree (.setRole twoRoles_run 5 1 [97]) ⟨trivial, ?_⟩).1⟩
  intro index role pointer _ _ _ target _
  obtain rfl : ⟨1, 1⟩ = pointer := Option.some.inj target
  exact ⟨⟨1, 5, 0, 2000000, [⟨0, false⟩, ⟨7, false⟩]⟩, by decide, rfl, ⟨7, false⟩, rfl, rfl⟩

/-- Two `SET_ROLE` commands bind both roles to one service; once the first role is
cleared the service has its flag clear and the second role is still bound to it. -/
theorem service_bound_twice :
    let both := (twoRoles.rolemgrSetRole 5 1 [97]).rolemgrSetRole 5 1 [98]
    let one := both.rolemgrSetRole 0 0 [97]
    (∃ met, ClientRun ⟨1, (· % 16)⟩ one met) ∧
    both.roles.map (·.service) = [some ⟨1, 1⟩, some ⟨1, 1⟩] ∧
    one.roles.map (·.service) = [none, some ⟨1, 1⟩] ∧
    one.devices.map (fun device => (device.address, device.services)) = [(1, [⟨0, false⟩, ⟨7, false⟩])] := by
  refine ⟨⟨_, .setRole (.setRole (.setRole twoRoles_run 5 1 [97]) 5 1 [98]) 0 0 [97]⟩, ?_⟩
  decide

end Jacdac
