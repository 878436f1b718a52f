import Jacdac.Client.Devices
import Jacdac.Text.Decimal

/-! The role manager of `rolemgr.c` and the part of `routing.c` that creates and
frees devices. Every change of a binding goes through `rolemgr_set`. -/

namespace Jacdac

/-- The `JD_ROLE_HINT_*` values. -/
inductive RoleHint where
  | none
  | int
  | app
  deriving DecidableEq, Repr

/-- The used fields of `jd_role_t`. -/
structure Role where
  name : List UInt8
  serviceClass : Nat
  hintDev : RoleHint
  hintSrvo : Nat
  service : Option ServicePointer
  deriving DecidableEq, Repr

/-- `jd_devices` and the used fields of the role manager's state. -/
structure ClientState where
  devices : List Device
  roles : List Role
  autoBindEnabled : Bool
  forceHints : Bool
  appDeviceId : Nat
  changed : Bool

/-- `jd_atoi`, as the 8-bit field keeps it. -/
def jdAtoi (text : List UInt8) : Nat :=
  let digits (text : List UInt8) : Nat :=
    (text.takeWhile fun c => 48 ≤ c ∧ c ≤ 57).foldl (fun r c => r * 10 + (c.toNat - 48)) 0
  match text with
  | 45 :: rest => u8 (256 - u8 (digits rest))
  | text => u8 (digits text)

theorem atoiLoop_byte (signed : Bool) (text : List UInt8) {r : Int} {n : Nat} (same : r % 256 = n % 256) :
    Text.atoiLoop signed r text % 256 =
      ((text.takeWhile fun c => 48 ≤ c ∧ c ≤ 57).foldl (fun r c => r * 10 + (c.toNat - 48)) n : Nat) % 256 := by
  induction text generalizing r n with
  | nil => exact same
  | cons c rest ih =>
    have value : Text.charInt signed c = c.toNat ∨ 128 ≤ c.toNat ∧ Text.charInt signed c = (c.toNat : Int) - 256 := by
      unfold Text.charInt
      split
      · rename_i high
        exact .inr ⟨UInt8.le_iff_toNat_le.mp high.2, rfl⟩
      · exact .inl rfl
    have digit : (48 ≤ c ∧ c ≤ 57) ↔ 0 ≤ Text.charInt signed c - 48 ∧ Text.charInt signed c - 48 ≤ 9 := by
      rw [UInt8.le_iff_toNat_le, UInt8.le_iff_toNat_le]
      have := c.toNat_lt
      simp only [UInt8.toNat_ofNat]
      omega
    rw [Text.atoiLoop, List.takeWhile_cons]
    by_cases more : 48 ≤ c ∧ c ≤ 57
    · rw [if_pos (digit.mp more), if_pos (decide_eq_true more), List.foldl_cons]
      refine ih ?_
      have := digit.mp more
      unfold i32
      omega
    · rw [if_neg fun inside => more (digit.mpr inside), if_neg (by simpa using more)]
      exact same

theorem jdAtoi_byte (signed : Bool) (text : List UInt8) : (jdAtoi text : Int) = Text.jdAtoi signed text % 256 := by
  by_cases minus : text.head? = some 45
  · obtain ⟨rest, rfl⟩ := List.head?_eq_some_iff.mp minus
    have loop := @atoiLoop_byte signed rest 0 0 rfl
    have number : Text.jdAtoi signed (45 :: rest) = i32 (-Text.atoiLoop signed 0 rest) := rfl
    have byte : jdAtoi (45 :: rest) =
        u8 (256 - u8 ((rest.takeWhile fun c => 48 ≤ c ∧ c ≤ 57).foldl (fun r c => r * 10 + (c.toNat - 48)) 0)) := rfl
    rw [byte, number]
    unfold u8 i32
    omega
  · have loop := @atoiLoop_byte signed text 0 0 rfl
    have number : Text.jdAtoi signed text = Text.atoiLoop signed 0 text := by
      unfold Text.jdAtoi
      split
      · exact absurd rfl minus
      · rfl
    rw [number, loop]
    unfold jdAtoi
    dsimp only
    split
    · exact absurd rfl minus
    · unfold u8
      omega

namespace Role

/-- The hint in a name: `[app:X` or `[int:X`. -/
def hintOf (name : List UInt8) : RoleHint × Nat :=
  match name.dropWhile (· ≠ 91) with
  | 91 :: 97 :: 112 :: 112 :: 58 :: offset => (.app, jdAtoi offset)
  | 91 :: 105 :: 110 :: 116 :: 58 :: offset => (.int, jdAtoi offset)
  | _ => (.none, 0)

/-- The role that `jd_role_alloc` fills in. -/
def fresh (name : List UInt8) (serviceClass : Nat) : Role where
  name := name
  serviceClass := serviceClass
  hintDev := (hintOf name).1
  hintSrvo := (hintOf name).2
  service := Option.none

/-- The list insertion of `jd_role_alloc`, in the order of `strcmp`. -/
def insert (role : Role) : List Role → List Role
  | [] => [role]
  | other :: rest => if role.name < other.name then role :: other :: rest else other :: insert role rest

/-- `rolemgr_lookup`. -/
def lookup (name : List UInt8) (roles : List Role) : Option Nat := roles.findIdx? (·.name = name)

end Role

namespace ClientState

def init : ClientState where
  devices := []
  roles := []
  autoBindEnabled := true
  forceHints := false
  appDeviceId := 0
  changed := false

/-- `rolemgr_set`, on the role at a place of the list. -/
def rolemgrSet (index : Nat) (serv : Option ServicePointer) (state : ClientState) : ClientState :=
  match state.roles[index]? with
  | none => state
  | some role =>
    if role.service = serv then state
    else
      let devices := match role.service with
        | none => state.devices
        | some old => Device.setFlag old false state.devices
      let devices := match serv with
        | none => devices
        | some new => Device.setFlag new true devices
      { state with devices, roles := state.roles.set index { role with service := serv }, changed := true }

/-- A `for` loop over the list of roles. -/
def forRoles (body : Nat → ClientState → ClientState) (state : ClientState) : ClientState :=
  (List.range state.roles.length).foldl (fun state index => body index state) state

/-- The service that `rolemgr_use_hint` looks for on a device: `off` services of
the class come before it. -/
def hinted (serviceClass : Nat) : Nat → List DeviceService → Option (Nat × DeviceService)
  | _, [] => none
  | off, serv :: rest =>
    if serv.serviceClass = serviceClass then
      match off with
      | 0 => some (0, serv)
      | off + 1 => (hinted serviceClass off rest).map fun found => (found.1 + 1, found.2)
    else (hinted serviceClass off rest).map fun found => (found.1 + 1, found.2)

def hintedDevice (config : ClientConfig) (hint : RoleHint) (state : ClientState) : Option Device :=
  let dev := match hint with
    | .none => 0
    | .app => state.appDeviceId
    | .int => config.deviceId
  if dev = 0 then none else Device.lookup dev state.devices

def rolemgrUseHint (config : ClientConfig) (index : Nat) (state : ClientState) : ClientState :=
  match state.roles[index]? with
  | none => state
  | some role =>
    if role.service.isSome ∨ role.hintDev = .none then state
    else
      match state.hintedDevice config role.hintDev with
      | none => state
      | some device =>
        match hinted role.serviceClass role.hintSrvo device.services with
        | none => state
        | some (offset, serv) =>
          if serv.roleAssigned then state else state.rolemgrSet index (some ⟨device.address, offset⟩)

/-- The first service of a device, after service 0, that a role can be bound to. -/
def freeService (serviceClass : Nat) (device : Device) : Option ServicePointer :=
  ((List.range device.numServices).find? fun index => 1 ≤ index ∧
    device.services[index]?.any fun serv => serv.serviceClass = serviceClass ∧ !serv.roleAssigned).map
      fun index => ⟨device.address, index⟩

/-- The body of the second loop of `rolemgr_autobind`. -/
def autobindRole (index : Nat) (state : ClientState) : ClientState :=
  match state.roles[index]? with
  | none => state
  | some role =>
    if role.service.isSome ∨ (role.hintDev ≠ .none ∧ state.forceHints) then state
    else
      match state.devices.findSome? (freeService role.serviceClass) with
      | none => state
      | some serv => state.rolemgrSet index (some serv)

def rolemgrAutobind (config : ClientConfig) (state : ClientState) : ClientState :=
  if state.autoBindEnabled then
    (state.forRoles (rolemgrUseHint config)).forRoles autobindRole
  else state

/-- The service that a `SET_ROLE` command names. -/
def setRoleTarget (deviceId serviceIdx : Nat) (state : ClientState) : Option ServicePointer :=
  Device.getService (Device.lookup deviceId state.devices) serviceIdx

/-- `rolemgr_set_role`. A payload without its fixed fields reads what follows it,
as if it were some longer one. -/
def rolemgrSetRole (deviceId serviceIdx : Nat) (name : List UInt8) (state : ClientState) : ClientState :=
  match Role.lookup name state.roles with
  | none => state
  | some index =>
    if deviceId = 0 then state.rolemgrSet index none
    else
      match state.setRoleTarget deviceId serviceIdx with
      | none => state
      | some serv => state.rolemgrSet index (some serv)

/-- The `CLEAR_ALL_ROLES` command. -/
def clearAllRoles (state : ClientState) : ClientState := state.forRoles fun index => rolemgrSet index none

/-- The body of the loop in `rolemgr_device_destroyed`. -/
def clearRoleOf (device index : Nat) (state : ClientState) : ClientState :=
  match state.roles[index]? with
  | none => state
  | some role =>
    match role.service with
    | none => state
    | some serv => if serv.device = device then state.rolemgrSet index none else state

def rolemgrDeviceDestroyed (device : Nat) (state : ClientState) : ClientState := state.forRoles (clearRoleOf device)

/-- `jd_role_alloc`, for a name that is not taken. -/
def jdRoleAlloc (name : List UInt8) (serviceClass : Nat) (state : ClientState) : ClientState :=
  { state with roles := Role.insert (.fresh name serviceClass) state.roles, changed := true }

/-- `jd_role_free`, of the role at a place of the list. -/
def jdRoleFree (index : Nat) (state : ClientState) : ClientState :=
  let state := state.rolemgrSet index none
  { state with roles := state.roles.eraseIdx index }

/-- The second loop of `jd_role_free_all`. -/
def freeRoles : List Role → List Device → List Device
  | [], devices => devices
  | role :: rest, devices =>
    freeRoles rest (match role.service with
      | none => devices
      | some serv => Device.setFlag serv false devices)

def jdRoleFreeAll (state : ClientState) : ClientState :=
  let state := state.clearAllRoles
  { state with devices := freeRoles state.roles state.devices, roles := [], changed := true }

def jdRoleSetHints (force : Bool) (appDeviceId : Nat) (state : ClientState) : ClientState :=
  { state with forceHints := force, appDeviceId }

/-- `jd_device_unlink` and `jd_device_free`. -/
def dropDevice (state : ClientState) (device : Device) : ClientState :=
  { state with devices := Device.unlink device.address state.devices }.rolemgrDeviceDestroyed device.address

def jdDeviceGc (now : Nat) (state : ClientState) : ClientState :=
  (Device.gcVictims now state.devices).foldl dropDevice state

def jdDeviceAlloc (config : ClientConfig) (allocator : Allocator) (now : Nat) (announce : ClientPacket)
    (state : ClientState) : ClientState :=
  let address := allocator.alloc (state.devices.map (·.address))
  { state with devices := Device.insert config (.ofAnnounce address now announce) state.devices }

/-- Stores to the flags and the expiry of a device. -/
def updateDevice (address : Nat) (update : Device → Device) (state : ClientState) : ClientState :=
  { state with devices := state.devices.map fun device => if device.address = address then update device else device }

/-- `jd_client_handle_packet`; event counters and register queries are left out. -/
def jdClientHandlePacket (config : ClientConfig) (allocator : Allocator) (now : Nat) (pkt : ClientPacket)
    (state : ClientState) : ClientState :=
  if pkt.identifierIsServiceClass ∨ pkt.command then state
  else if pkt.serviceIndex = 0 ∧ pkt.serviceCommand = 0 then
    let newFlags := pkt.word 0 % 65536
    match Device.lookup pkt.deviceIdentifier state.devices with
    -- the new device has the flags and the expiry of this packet
    | none => state.jdDeviceAlloc config allocator now pkt
    | some dev =>
      if dev.announceFlags ≠ newFlags ∧
          config.restartCounter dev.announceFlags > config.restartCounter newFlags then
        (state.dropDevice dev).jdDeviceAlloc config allocator now pkt
      else
        state.updateDevice dev.address fun device =>
          { device with announceFlags := newFlags, expires := u32 (now + expiresUsec) }
  else state

end ClientState

end Jacdac
