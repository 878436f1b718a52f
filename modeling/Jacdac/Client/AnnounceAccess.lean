import Jacdac.Client.DeviceRefinement
import Jacdac.Services.Registers

/-! What `jd_client_handle_packet` reads of a packet, and which services of which
devices it touches on the way. -/

namespace Jacdac

/-- An access to the payload of the packet, or to `dev->services[index]` of a
device with `count` services. -/
inductive ClientAccess where
  | payload (offset length : Nat)
  | service (count index : Nat)
  deriving DecidableEq, Repr

def ClientAccess.Inside (serviceSize : Nat) : ClientAccess → Prop
  | .payload offset length => offset + length ≤ serviceSize
  | .service count index => index < count

instance (serviceSize : Nat) : DecidablePred (ClientAccess.Inside serviceSize)
  | .payload offset length => inferInstanceAs (Decidable (offset + length ≤ serviceSize))
  | .service count index => inferInstanceAs (Decidable (index < count))

/-- Every access stays in its bounds. -/
def AllInside (serviceSize : Nat) (accesses : List ClientAccess) : Prop :=
  ∀ access ∈ accesses, access.Inside serviceSize

instance (serviceSize : Nat) (accesses : List ClientAccess) : Decidable (AllInside serviceSize accesses) :=
  inferInstanceAs (Decidable (∀ access ∈ accesses, access.Inside serviceSize))

theorem allInside_append : AllInside size (first ++ second) ↔ AllInside size first ∧ AllInside size second := by
  simp only [AllInside, List.mem_append, or_imp, forall_and]

theorem allInside_cons : AllInside size (access :: rest) ↔ access.Inside size ∧ AllInside size rest := by
  simp only [AllInside, List.mem_cons, forall_eq_or_imp]

theorem allInside_nil : AllInside size [] := nofun

/-- `JD_SERVICE_INDEX_MASK`, applied. -/
def serviceIndexOf (index : Nat) : Nat := index % 64

namespace ClientState

/-- The accesses of `jd_device_alloc`: the first word of the announce, and the
services one after the other. -/
def allocAccesses (announce : ClientPacket) : List ClientAccess :=
  let count := announce.serviceSize / 4
  .payload 0 4 :: (List.range count).flatMap fun index =>
    (if index = 0 then [] else [.payload (4 * index) 4]) ++ [.service count index, .service count index]

def servicesAt (address : Nat) (devices : List Device) : Nat :=
  match devices.find? (·.address = address) with
  | none => 0
  | some device => device.numServices

/-- The accesses of `rolemgr_device_destroyed`: `jd_service_parent` reads the
service of every bound role, and `rolemgr_set` clears its flag. -/
def destroyedAccesses (address : Nat) (state : ClientState) : List ClientAccess :=
  state.roles.flatMap fun role =>
    match role.service with
    | none => []
    | some serv =>
      let access := ClientAccess.service (servicesAt serv.device state.devices) serv.index
      if serv.device = address then [access, access] else [access]

/-- The accesses of `handle_register`, where `query` gives the size of the last
response of a query and `notImplemented` is `JD_CMD_COMMAND_NOT_IMPLEMENTED`. -/
def registerAccesses (notImplemented : Nat) (query : Nat → Option Nat) (count index : Nat) (pkt : ClientPacket) :
    List ClientAccess :=
  if 4 ≤ pkt.serviceSize ∧ pkt.serviceCommand = notImplemented then
    .payload 0 2 :: (if isGet (pkt.word 0 % 65536) then [.service count index] else [])
  else if isGet pkt.serviceCommand then
    .service count index :: (match query (regCode pkt.serviceCommand) with
      | none => []
      | some size => (if size = pkt.serviceSize then [.payload 0 size] else []) ++ [.payload 0 pkt.serviceSize])
  else []

/-- `jd_client_handle_packet` with its accesses. -/
def handlePacketTraced (config : ClientConfig) (allocator : Allocator) (notImplemented : Nat)
    (query : Nat → Option Nat) (now : Nat) (pkt : ClientPacket) (state : ClientState) :
    ClientState × List ClientAccess :=
  if pkt.identifierIsServiceClass then (state, [])
  else
    let dev := Device.lookup pkt.deviceIdentifier state.devices
    let idx := serviceIndexOf pkt.serviceIndex
    let serv := match dev with
      | none => none
      | some dev => if idx < dev.numServices then some (dev.numServices, idx) else none
    let taken := match serv with
      | none => []
      | some (count, index) => [.service count index]
    if pkt.command then (state, taken)
    else if pkt.serviceIndex = 0 ∧ pkt.serviceCommand = 0 then
      let newFlags := pkt.word 0 % 65536
      let count := pkt.serviceSize / 4
      match dev with
      | none =>
        (state.jdDeviceAlloc config allocator now pkt,
          taken ++ allocAccesses pkt ++ [.payload 0 2, .service count 0] ++
            registerAccesses notImplemented query count 0 pkt)
      | some dev =>
        if dev.announceFlags ≠ newFlags ∧
            config.restartCounter dev.announceFlags > config.restartCounter newFlags then
          ((state.dropDevice dev).jdDeviceAlloc config allocator now pkt,
            taken ++ [.payload 0 2] ++ state.destroyedAccesses dev.address ++ allocAccesses pkt ++
              [.service count 0] ++ registerAccesses notImplemented query count 0 pkt)
        else
          (state.updateDevice dev.address fun device =>
              { device with announceFlags := newFlags, expires := u32 (now + expiresUsec) },
            taken ++ [.payload 0 2, .service dev.numServices 0] ++
              registerAccesses notImplemented query dev.numServices 0 pkt)
    else
      (state, taken ++ match serv with
        | none => []
        | some (count, index) => registerAccesses notImplemented query count index pkt)

/-- The trace belongs to the state machine of the client. -/
theorem handlePacketTraced_fst (config : ClientConfig) (allocator : Allocator) (notImplemented : Nat)
    (query : Nat → Option Nat) (now : Nat) (pkt : ClientPacket) (state : ClientState) :
    (state.handlePacketTraced config allocator notImplemented query now pkt).1 =
      state.jdClientHandlePacket config allocator now pkt := by
  unfold handlePacketTraced jdClientHandlePacket
  by_cases broadcast : pkt.identifierIsServiceClass = true
  · simp only [if_pos broadcast, if_pos (Or.inl broadcast : _ ∨ pkt.command = true)]
  by_cases command : pkt.command = true
  · simp only [if_neg broadcast, if_pos command, if_pos (Or.inr command : pkt.identifierIsServiceClass = true ∨ _)]
  simp only [if_neg broadcast, if_neg command, if_neg (not_or.mpr ⟨broadcast, command⟩)]
  by_cases announce : pkt.serviceIndex = 0 ∧ pkt.serviceCommand = 0
  · simp only [if_pos announce]
    cases Device.lookup pkt.deviceIdentifier state.devices with
    | none => rfl
    | some dev => dsimp only; split <;> rfl
  · simp only [if_neg announce]

/-- An announce is handled inside the record and the packet. -/
def Carries (config : ClientConfig) (pkt : ClientPacket) (state : ClientState) : Prop :=
  match Device.lookup pkt.deviceIdentifier state.devices with
  | none => 4 ≤ pkt.serviceSize
  | some dev =>
    if dev.announceFlags ≠ pkt.word 0 % 65536 ∧
        config.restartCounter dev.announceFlags > config.restartCounter (pkt.word 0 % 65536) then
      4 ≤ pkt.serviceSize
    else 2 ≤ pkt.serviceSize ∧ 0 < dev.numServices

/-- `jd_device_alloc` stays inside exactly if there is a first word. -/
theorem allocAccesses_inside (pkt : ClientPacket) :
    AllInside pkt.serviceSize (allocAccesses pkt) ↔ 4 ≤ pkt.serviceSize := by
  unfold allocAccesses
  rw [allInside_cons]
  refine and_iff_left_of_imp fun _ access member => ?_
  obtain ⟨index, inside, here⟩ := List.mem_flatMap.mp member
  rw [List.mem_range] at inside
  rcases List.mem_append.mp here with word | record
  · split at word
    · cases word
    · rw [List.mem_singleton.mp word]
      show 4 * index + 4 ≤ pkt.serviceSize
      omega
  · have touched : access = .service (pkt.serviceSize / 4) index := by simpa using record
    rw [touched]
    exact inside

/-- For an announce, `handle_register` touches no more than its caller did. -/
theorem registerAccesses_inside (notImplemented : Nat) (query : Nat → Option Nat) (pkt : ClientPacket)
    (announce : pkt.serviceCommand = 0) (present : 0 < count) :
    AllInside pkt.serviceSize (registerAccesses notImplemented query count 0 pkt) := by
  unfold registerAccesses
  split
  · rename_i long
    refine allInside_cons.mpr ⟨?_, ?_⟩
    · show 0 + 2 ≤ pkt.serviceSize
      omega
    · split
      · exact allInside_cons.mpr ⟨present, allInside_nil⟩
      · exact allInside_nil
  · rw [if_neg (by rw [announce]; decide)]
    exact allInside_nil

theorem outlines_addresses (state : ClientState) : state.outlines.map Prod.fst = Device.addresses state.devices := by
  rw [outlines, List.map_map]
  rfl

/-- Every listed device has memory of its own. -/
def Apart (state : ClientState) : Prop := (Device.addresses state.devices).Nodup

theorem Apart.rolemgrSet {state : ClientState} (apart : state.Apart) (index : Nat) (serv : Option ServicePointer) :
    (state.rolemgrSet index serv).Apart := by
  rwa [Apart, ← outlines_addresses, rolemgrSet_outlines, outlines_addresses]

theorem Apart.updateDevice {state : ClientState} (apart : state.Apart) (address : Nat) (update : Device → Device)
    (addresses : ∀ device, (update device).address = device.address) : (state.updateDevice address update).Apart := by
  have same : Device.addresses (state.updateDevice address update).devices = Device.addresses state.devices :=
    Device.addresses_update addresses address state.devices
  rwa [Apart, same]

theorem apart_client : ClientStable Apart where
  clear _ index apart := apart.rolemgrSet index none
  bind _ index pointer _ apart := apart.rolemgrSet index (some pointer)
  congr _ _ _ devices apart := by rwa [Apart, devices]
  drop state device apart := by
    rw [Apart, ← outlines_addresses, dropDevice_outlines]
    rw [Apart, ← outlines_addresses] at apart
    exact apart.sublist ((List.eraseP_sublist).map Prod.fst)
  alloc state config allocator now announce apart := by
    refine (Device.addresses_insert config _ state.devices).nodup_iff.mpr (List.nodup_cons.mpr ⟨?_, apart⟩)
    exact allocator.fresh _
  update _ address update addresses _ apart := apart.updateDevice address update addresses

theorem Apart.setRole {state : ClientState} (apart : state.Apart) (deviceId serviceIdx : Nat) (name : List UInt8) :
    (state.rolemgrSetRole deviceId serviceIdx name).Apart := by
  unfold rolemgrSetRole
  split
  · exact apart
  · split
    · exact apart.rolemgrSet _ none
    · split
      · exact apart
      · exact apart.rolemgrSet _ _

theorem servicesAt_of_mem {state : ClientState} (apart : state.Apart) {device : Device}
    (member : device ∈ state.devices) : servicesAt device.address state.devices = device.numServices := by
  unfold servicesAt
  cases found : state.devices.find? (·.address = device.address) with
  | none => simpa using List.find?_eq_none.mp found device member
  | some other =>
    have address : other.address = device.address := by simpa using List.find?_some found
    rw [List.inj_on_of_nodup_map apart (List.mem_of_find?_eq_some found) member address]

/-- The roles of a reachable state point to services that exist. -/
theorem destroyedAccesses_inside {state : ClientState} (apart : state.Apart) (placed : state.Placed spareNone)
    (address size : Nat) : AllInside size (state.destroyedAccesses address) := by
  intro access member
  obtain ⟨role, present, here⟩ := List.mem_flatMap.mp member
  cases points : role.service with
  | none => simp [points] at here
  | some serv =>
    obtain ⟨device, listed, address, inside⟩ :=
      (placed serv (List.mem_filterMap.mpr ⟨role, present, points⟩)).resolve_left id
    have touched : access = .service (servicesAt serv.device state.devices) serv.index := by
      rw [points] at here
      dsimp only at here
      split at here <;> simpa using here
    rw [touched, ← address, servicesAt_of_mem apart listed]
    exact inside

end ClientState

/-- Handling an announce stays inside the packet and the device records exactly
when a device that it creates has a first service, and a device that is kept has
one and the announce has its flags. -/
theorem announce_inside_iff {config : ClientConfig} {state : ClientState} {met : Prop}
    (run : ClientRun config state met) (allocator : Allocator) (notImplemented : Nat) (query : Nat → Option Nat)
    (now : Nat) (pkt : ClientPacket) (report : pkt.identifierIsServiceClass = false ∧ pkt.command = false)
    (announce : pkt.serviceIndex = 0 ∧ pkt.serviceCommand = 0) :
    AllInside pkt.serviceSize (state.handlePacketTraced config allocator notImplemented query now pkt).2 ↔
      state.Carries config pkt := by
  have apart : state.Apart :=
    ClientRun.holds (fun _ => True) ClientState.apart_client List.nodup_nil (fun _ => trivial)
      (fun deviceId serviceIdx name _ apart => apart.setRole deviceId serviceIdx name) run trivial
  have placed : state.Placed ClientState.spareNone :=
    ClientRun.holds (fun _ => True) ClientState.placed_client nofun (fun _ => trivial)
      (fun deviceId serviceIdx name _ placed => placed.setRole deviceId serviceIdx name) run trivial
  have first : serviceIndexOf pkt.serviceIndex = 0 := by rw [announce.1]; rfl
  unfold ClientState.handlePacketTraced ClientState.Carries
  simp only [report.1, report.2, if_pos announce, first, Bool.false_eq_true, if_false]
  cases Device.lookup pkt.deviceIdentifier state.devices with
  | none =>
    dsimp only
    simp only [allInside_append, allInside_cons, ClientState.allocAccesses_inside]
    constructor
    · rintro ⟨⟨⟨_, long⟩, _⟩, _⟩
      exact long
    · intro long
      have present : 0 < pkt.serviceSize / 4 := Nat.div_pos long (by decide)
      exact ⟨⟨⟨allInside_nil, long⟩, (by omega : 2 ≤ pkt.serviceSize), present, allInside_nil⟩,
        ClientState.registerAccesses_inside notImplemented query pkt announce.2 present⟩
  | some dev =>
    dsimp only
    have taken : AllInside pkt.serviceSize
        (match if 0 < dev.numServices then some (dev.numServices, 0) else none with
          | none => []
          | some (count, index) => [ClientAccess.service count index]) := by
      split
      · exact allInside_nil
      · rename_i count index chosen
        obtain ⟨present, same⟩ := Option.ite_none_right_eq_some.mp chosen
        obtain ⟨rfl, rfl⟩ := Prod.mk.inj (Option.some.inj same)
        exact allInside_cons.mpr ⟨present, allInside_nil⟩
    split
    · simp only [allInside_append, allInside_cons, ClientState.allocAccesses_inside]
      constructor
      · rintro ⟨⟨⟨_, long⟩, _⟩, _⟩
        exact long
      · intro long
        have present : 0 < pkt.serviceSize / 4 := Nat.div_pos long (by decide)
        exact ⟨⟨⟨⟨⟨taken, (by omega : 2 ≤ pkt.serviceSize), allInside_nil⟩,
          ClientState.destroyedAccesses_inside apart placed dev.address pkt.serviceSize⟩, long⟩,
          present, allInside_nil⟩,
          ClientState.registerAccesses_inside notImplemented query pkt announce.2 present⟩
    · simp only [allInside_append, allInside_cons]
      constructor
      · rintro ⟨⟨_, flags, present, _⟩, _⟩
        exact ⟨(by omega : 0 + 2 ≤ pkt.serviceSize → 2 ≤ pkt.serviceSize) flags, present⟩
      · rintro ⟨flags, present⟩
        exact ⟨⟨taken, (by omega : 0 + 2 ≤ pkt.serviceSize), present, allInside_nil⟩,
          ClientState.registerAccesses_inside notImplemented query pkt announce.2 present⟩

/-- An announce with its first word, from a device that is not known yet. -/
theorem announce_inside_iff_first :
    AllInside 4 (ClientState.init.handlePacketTraced ⟨1, (· % 16)⟩ freshAllocator 3 (fun _ => none) 0
      ⟨false, false, 5, 0, 0, 4, fun _ => 0⟩).2 :=
  (announce_inside_iff (.init : ClientRun ⟨1, (· % 16)⟩ .init True) freshAllocator 3 (fun _ => none) 0
    ⟨false, false, 5, 0, 0, 4, fun _ => 0⟩ ⟨rfl, rfl⟩ ⟨rfl, rfl⟩).mpr (Nat.le_refl 4)

/-- An empty announce: four bytes of its payload are read, and the new device's
first service is taken although it has none. -/
theorem empty_announce_outside :
    let pkt : ClientPacket := ⟨false, false, 5, 0, 0, 0, fun _ => 0⟩
    let traced := ClientState.init.handlePacketTraced ⟨1, (· % 16)⟩ freshAllocator 3 (fun _ => none) 0 pkt
    (traced.1.devices.map fun device => (device.deviceIdentifier, device.numServices)) = [(5, 0)] ∧
    traced.2 = [.payload 0 4, .payload 0 2, .service 0 0] ∧ ¬ AllInside pkt.serviceSize traced.2 := by
  decide

end Jacdac
