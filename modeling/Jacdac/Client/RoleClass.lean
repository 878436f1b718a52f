import Jacdac.Client.AnnounceAccess
import Mathlib.Logic.Relation

/-! The class of a role and the class of the service that it is bound to. -/

namespace Jacdac

/-- The class of the service at a pointer, as `r->service->service_class` reads it. -/
def serviceClassAt (devices : List Device) (pointer : ServicePointer) : Option Nat :=
  ((devices.find? (·.address = pointer.device)).bind fun device => device.services[pointer.index]?).map
    (·.serviceClass)

namespace Offers

theorem setFlag {devices : List Device} {pointer : ServicePointer} (offers : Offers devices pointer serviceClass)
    (other : ServicePointer) (assigned : Bool) :
    Offers (Device.setFlag other assigned devices) pointer serviceClass := by
  obtain ⟨device, member, address, serv, found, suits⟩ := offers
  refine ⟨_, List.mem_map.mpr ⟨device, member, rfl⟩, ?_⟩
  split
  · refine ⟨address, _, (List.getElem?_modify ..).trans (by rw [found]; rfl), ?_⟩
    split
    · exact suits
    · exact suits
  · exact ⟨address, serv, found, suits⟩

theorem moveFlags {devices : List Device} {pointer : ServicePointer} (offers : Offers devices pointer serviceClass)
    (old new : Option ServicePointer) :
    Offers (ClientState.moveFlags old new devices) pointer serviceClass := by
  cases old <;> cases new
  · exact offers
  · exact offers.setFlag _ _
  · exact offers.setFlag _ _
  · exact (offers.setFlag _ _).setFlag _ _

theorem unlink {devices : List Device} {pointer : ServicePointer} (offers : Offers devices pointer serviceClass)
    (address : Nat) : pointer.device = address ∨ Offers (Device.unlink address devices) pointer serviceClass := by
  obtain ⟨device, member, here, suits⟩ := offers
  by_cases same : device.address = address
  · exact .inl (here ▸ same)
  · exact .inr ⟨device, (List.mem_eraseP_of_neg (by simpa using same)).mpr member, here, suits⟩

/-- With distinct addresses there is only one service to read. -/
theorem serviceClassAt {state : ClientState} {pointer : ServicePointer}
    (offers : Offers state.devices pointer serviceClass) (apart : state.Apart) :
    serviceClassAt state.devices pointer = some serviceClass := by
  obtain ⟨device, member, address, serv, found, suits⟩ := offers
  unfold Jacdac.serviceClassAt
  cases first : state.devices.find? (·.address = pointer.device) with
  | none => exact absurd address (by simpa using List.find?_eq_none.mp first device member)
  | some other =>
    have same : other.address = device.address := by
      rw [address]
      simpa using List.find?_some first
    obtain rfl := List.inj_on_of_nodup_map apart (List.mem_of_find?_eq_some first) member same
    rw [Option.bind_some, found, Option.map_some, suits]

end Offers

theorem offers_of_serviceClassAt {devices : List Device} {pointer : ServicePointer}
    (reads : serviceClassAt devices pointer = some serviceClass) : Offers devices pointer serviceClass := by
  obtain ⟨serv, found, suits⟩ := Option.map_eq_some_iff.mp reads
  obtain ⟨device, first, here⟩ := Option.bind_eq_some_iff.mp found
  exact ⟨device, List.mem_of_find?_eq_some first, by simpa using List.find?_some first, serv, here, suits⟩

theorem Role.mem_insert {role other : Role} {roles : List Role} :
    other ∈ Role.insert role roles ↔ other = role ∨ other ∈ roles := by
  induction roles with
  | nil => simp [Role.insert]
  | cons first rest ih =>
    unfold Role.insert
    split
    · exact List.mem_cons
    · rw [List.mem_cons, ih, List.mem_cons]
      exact or_left_comm

namespace ClientState

/-- Every bound role points to a service of its class, or to one that is spared
because its device is just being freed. -/
def Matched (spare : ServicePointer → Prop) (state : ClientState) : Prop :=
  ∀ role ∈ state.roles, ∀ pointer, role.service = some pointer →
    spare pointer ∨ Offers state.devices pointer role.serviceClass

namespace Matched

variable {spare : ServicePointer → Prop} {state : ClientState}

theorem rolemgrSet (matched : state.Matched spare) (index : Nat) {serv : Option ServicePointer}
    (suits : ∀ role pointer, state.roles[index]? = some role → serv = some pointer →
      Offers state.devices pointer role.serviceClass) : (state.rolemgrSet index serv).Matched spare := by
  unfold ClientState.rolemgrSet
  cases found : state.roles[index]? with
  | none => exact matched
  | some role =>
    dsimp only
    split
    · exact matched
    · intro other member pointer points
      have kept : ∀ serviceClass, Offers state.devices pointer serviceClass →
          Offers (moveFlags role.service serv state.devices) pointer serviceClass :=
        fun _ offers => offers.moveFlags role.service serv
      rcases List.mem_or_eq_of_mem_set member with old | rfl
      · exact (matched other old pointer points).imp id (kept _)
      · exact .inr (kept _ (suits role pointer found points))

theorem clear (matched : state.Matched spare) (index : Nat) : (state.rolemgrSet index none).Matched spare :=
  matched.rolemgrSet index nofun

theorem bind {pointer : ServicePointer} (matched : state.Matched spare) (found : state.roles[index]? = some role)
    (suits : Offers state.devices pointer role.serviceClass) :
    (state.rolemgrSet index (some pointer)).Matched spare := by
  refine matched.rolemgrSet index fun other target here points => ?_
  obtain rfl := Option.some.inj (found.symm.trans here)
  obtain rfl := Option.some.inj points
  exact suits

theorem useHint (matched : state.Matched spare) (config : ClientConfig) (index : Nat) :
    (state.rolemgrUseHint config index).Matched spare := by
  rcases state.rolemgrUseHint_cases config index with same | ⟨role, pointer, found, _, vacant, set⟩
  · rwa [same]
  · rw [set]
    exact matched.bind found vacant.offers

theorem autobindRole (matched : state.Matched spare) (index : Nat) : (state.autobindRole index).Matched spare := by
  rcases state.autobindRole_cases index with same | ⟨role, pointer, found, _, vacant, set⟩
  · rwa [same]
  · rw [set]
    exact matched.bind found vacant.offers

theorem autobind (matched : state.Matched spare) (config : ClientConfig) :
    (state.rolemgrAutobind config).Matched spare := by
  unfold rolemgrAutobind
  split
  · refine forRoles_holds (forRoles_holds matched ?_) ?_
    · exact fun index _ matched => matched.useHint config index
    · exact fun index _ matched => matched.autobindRole index
  · exact matched

theorem deviceDestroyed (matched : state.Matched spare) (address : Nat) :
    (state.rolemgrDeviceDestroyed address).Matched spare := by
  refine forRoles_holds matched fun index state matched => ?_
  unfold clearRoleOf
  split
  · exact matched
  · split
    · exact matched
    · split
      · exact matched.clear index
      · exact matched

theorem clearAllRoles (matched : state.Matched spare) : state.clearAllRoles.Matched spare :=
  forRoles_holds matched fun index _ matched => matched.clear index

theorem roleAlloc (matched : state.Matched spare) (name : List UInt8) (serviceClass : Nat) :
    (state.jdRoleAlloc name serviceClass).Matched spare := by
  intro role member pointer points
  have known : role = .fresh name serviceClass ∨ role ∈ state.roles := Role.mem_insert.mp member
  rcases known with rfl | old
  · exact absurd points nofun
  · exact matched role old pointer points

theorem roleFree (matched : state.Matched spare) (index : Nat) : (state.jdRoleFree index).Matched spare :=
  fun role member => matched.clear index role (List.mem_of_mem_eraseIdx member)

theorem dropDevice (matched : state.Matched spareNone) (device : Device) :
    (state.dropDevice device).Matched spareNone := by
  have unlinked : { state with devices := Device.unlink device.address state.devices }.Matched
      (spareDevice device.address) :=
    fun role member pointer points => ((matched role member pointer points).resolve_left id).unlink device.address
  intro role member pointer points
  have destroyed := unlinked.deviceDestroyed device.address role member pointer points
  exact .inr (destroyed.resolve_left (deviceDestroyed_bound (List.mem_filterMap.mpr ⟨role, member, points⟩)))

theorem gc (matched : state.Matched spareNone) (now : Nat) : (state.jdDeviceGc now).Matched spareNone := by
  unfold jdDeviceGc
  generalize Device.gcVictims now state.devices = victims
  induction victims generalizing state with
  | nil => exact matched
  | cons device rest ih => exact ih (matched.dropDevice device)

theorem deviceAlloc (matched : state.Matched spareNone) (config : ClientConfig) (allocator : Allocator) (now : Nat)
    (announce : ClientPacket) : (state.jdDeviceAlloc config allocator now announce).Matched spareNone := by
  intro role member pointer points
  obtain ⟨device, present, offers⟩ := (matched role member pointer points).resolve_left id
  exact .inr ⟨device, mem_insert.mpr (.inr present), offers⟩

theorem updateDevice (matched : state.Matched spareNone) (address : Nat) {update : Device → Device}
    (addresses : ∀ device, (update device).address = device.address)
    (services : ∀ device, (update device).services = device.services) :
    (state.updateDevice address update).Matched spareNone := by
  intro role member pointer points
  obtain ⟨device, present, here, serv, found, suits⟩ := (matched role member pointer points).resolve_left id
  refine .inr ⟨_, List.mem_map.mpr ⟨device, present, rfl⟩, ?_⟩
  split
  · exact ⟨(addresses device).trans here, serv, by rw [services]; exact found, suits⟩
  · exact ⟨here, serv, found, suits⟩

/-- An announce creates a device, replaces one, or changes no service. -/
theorem handlePacket (matched : state.Matched spareNone) (config : ClientConfig) (allocator : Allocator) (now : Nat)
    (pkt : ClientPacket) : (state.jdClientHandlePacket config allocator now pkt).Matched spareNone := by
  unfold jdClientHandlePacket
  split
  · exact matched
  · split
    · dsimp only
      split
      · exact matched.deviceAlloc config allocator now pkt
      · split
        · exact (matched.dropDevice _).deviceAlloc config allocator now pkt
        · exact matched.updateDevice _ (fun _ => rfl) (fun _ => rfl)
    · exact matched

end Matched

/-- The service that the command binds the role to has the role's class. -/
def SetsClass (deviceId serviceIdx : Nat) (name : List UInt8) (state : ClientState) : Prop :=
  ∀ index role pointer, Role.lookup name state.roles = some index → state.roles[index]? = some role → deviceId ≠ 0 →
    state.setRoleTarget deviceId serviceIdx = some pointer →
      serviceClassAt state.devices pointer = some role.serviceClass

theorem Matched.setRole {state : ClientState} (matched : state.Matched spareNone) {deviceId serviceIdx : Nat}
    {name : List UInt8} (suits : state.SetsClass deviceId serviceIdx name) :
    (state.rolemgrSetRole deviceId serviceIdx name).Matched spareNone := by
  unfold rolemgrSetRole
  split
  · exact matched
  · rename_i index found
    split
    · exact matched.clear index
    · rename_i nonzero
      split
      · exact matched
      · rename_i serv target
        refine matched.rolemgrSet index fun role pointer here points => ?_
        obtain rfl := Option.some.inj points
        exact offers_of_serviceClassAt (suits index role serv found here nonzero target)

end ClientState

/-- One step of the client and the role manager; `admits` says which `SET_ROLE`
commands come in. -/
inductive ClientStep (config : ClientConfig) (admits : Nat → Nat → List UInt8 → ClientState → Prop) :
    ClientState → ClientState → Prop where
  | packet (allocator : Allocator) (now : Nat) (pkt : ClientPacket) :
    ClientStep config admits state (state.jdClientHandlePacket config allocator now pkt)
  | gc (now : Nat) : ClientStep config admits state (state.jdDeviceGc now)
  | roleAlloc (name : List UInt8) (serviceClass : Nat) (absent : Role.lookup name state.roles = none) :
    ClientStep config admits state (state.jdRoleAlloc name serviceClass)
  | roleFree (index : Nat) (present : index < state.roles.length) : ClientStep config admits state (state.jdRoleFree index)
  | roleFreeAll : ClientStep config admits state state.jdRoleFreeAll
  | autobind : ClientStep config admits state (state.rolemgrAutobind config)
  | setRole (deviceId serviceIdx : Nat) (name : List UInt8) (admitted : admits deviceId serviceIdx name state) :
    ClientStep config admits state (state.rolemgrSetRole deviceId serviceIdx name)
  | clearAllRoles : ClientStep config admits state state.clearAllRoles
  | setHints (force : Bool) (appDeviceId : Nat) :
    ClientStep config admits state (state.jdRoleSetHints force appDeviceId)
  | setAutoBind (enabled : Bool) : ClientStep config admits state { state with autoBindEnabled := enabled }

namespace ClientStep

variable {config : ClientConfig} {state next : ClientState}

theorem matched (step : ClientStep config (fun deviceId serviceIdx name state => state.SetsClass deviceId serviceIdx name)
    state next) (matched : state.Matched ClientState.spareNone) : next.Matched ClientState.spareNone := by
  cases step with
  | packet allocator now pkt => exact matched.handlePacket config allocator now pkt
  | gc now => exact matched.gc now
  | roleAlloc name serviceClass => exact matched.roleAlloc name serviceClass
  | roleFree index => exact matched.roleFree index
  | roleFreeAll => exact nofun
  | autobind => exact matched.autobind config
  | setRole _ _ _ suits => exact matched.setRole suits
  | clearAllRoles => exact matched.clearAllRoles
  | setHints => exact matched
  | setAutoBind => exact matched

theorem apart {admits : Nat → Nat → List UInt8 → ClientState → Prop} (step : ClientStep config admits state next)
    (apart : state.Apart) : next.Apart := by
  have stable := ClientState.apart_client
  cases step with
  | packet allocator now pkt => exact stable.handlePacket apart config allocator now pkt
  | gc now => exact stable.gc apart now
  | roleAlloc name serviceClass => exact stable.roleAlloc apart name serviceClass
  | roleFree index => exact stable.roleFree apart index
  | roleFreeAll => exact stable.roleFreeAll apart
  | autobind => exact stable.autobind apart config
  | setRole deviceId serviceIdx name => exact apart.setRole deviceId serviceIdx name
  | clearAllRoles => exact stable.clearAllRoles apart
  | setHints => exact apart
  | setAutoBind => exact apart

theorem run_matched (run : Relation.ReflTransGen (ClientStep config fun deviceId serviceIdx name state =>
    state.SetsClass deviceId serviceIdx name) .init state) : state.Matched ClientState.spareNone ∧ state.Apart := by
  induction run with
  | refl => exact ⟨nofun, List.nodup_nil⟩
  | tail _ step ih => exact ⟨step.matched ih.1, step.apart ih.2⟩

end ClientStep

/-- In a run whose `SET_ROLE` commands name services of the role's class, every
bound role has the class of its service. -/
theorem bound_roles_match_class {config : ClientConfig} {state : ClientState}
    (run : Relation.ReflTransGen (ClientStep config fun deviceId serviceIdx name state =>
      state.SetsClass deviceId serviceIdx name) .init state)
    (role : Role) (member : role ∈ state.roles) (pointer : ServicePointer) (points : role.service = some pointer) :
    serviceClassAt state.devices pointer = some role.serviceClass := by
  obtain ⟨matched, apart⟩ := ClientStep.run_matched run
  exact ((matched role member pointer points).resolve_left id).serviceClassAt apart

/-- The steps to a client that knows a device with a service of class 7, and has
two roles for that class. -/
theorem twoRoles_steps (admits : Nat → Nat → List UInt8 → ClientState → Prop) :
    Relation.ReflTransGen (ClientStep ⟨1, (· % 16)⟩ admits) .init twoRoles :=
  ((Relation.ReflTransGen.single (.packet freshAllocator 0 _)).tail (.roleAlloc _ _ (by decide))).tail
    (.roleAlloc _ _ (by decide))

theorem bound_roles_match_class_set :
    serviceClassAt (twoRoles.rolemgrSetRole 5 1 [97]).devices ⟨1, 1⟩ = some 7 := by
  refine bound_roles_match_class ((twoRoles_steps _).tail (.setRole 5 1 [97] ?_)) ⟨[97], 7, .none, 0, some ⟨1, 1⟩⟩
    (by decide) ⟨1, 1⟩ rfl
  intro index role pointer found here _ target
  obtain rfl := Option.some.inj (show some 0 = some index from found)
  obtain rfl := Option.some.inj here
  obtain rfl : ⟨1, 1⟩ = pointer := Option.some.inj target
  decide

/-- `SET_ROLE` binds a role for class 7 to the control service of a device. -/
theorem set_role_ignores_class :
    Relation.ReflTransGen (ClientStep ⟨1, (· % 16)⟩ fun _ _ _ _ => True) .init (twoRoles.rolemgrSetRole 5 0 [97]) ∧
    (⟨[97], 7, .none, 0, some ⟨1, 0⟩⟩ : Role) ∈ (twoRoles.rolemgrSetRole 5 0 [97]).roles ∧
    serviceClassAt (twoRoles.rolemgrSetRole 5 0 [97]).devices ⟨1, 0⟩ = some 0 :=
  ⟨(twoRoles_steps _).tail (.setRole 5 0 [97] trivial), by decide, by decide⟩

end Jacdac
