import Jacdac.Base.Endian
import Jacdac.Pipe.Output

/-! The devices of `routing.c`: the list `jd_devices` and the services in it.
A device has the address of its memory, so that a pointer to a service is an
address and an index; memory is used again after `jd_free`. -/

namespace Jacdac

/-- The used fields of `jd_device_service_t`. -/
structure DeviceService where
  serviceClass : Nat
  /-- `JD_DEVICE_SERVICE_FLAG_ROLE_ASSIGNED`. -/
  roleAssigned : Bool
  deriving DecidableEq, Repr

/-- The used fields of `jd_device_t`. -/
structure Device where
  address : Nat
  deviceIdentifier : Nat
  announceFlags : Nat
  expires : Nat
  services : List DeviceService
  deriving DecidableEq, Repr

/-- A pointer to a service: the address of its device, and its index. -/
structure ServicePointer where
  device : Nat
  index : Nat
  deriving DecidableEq, Repr

/-- The fields of a received packet that `jd_client_handle_packet` uses;
`word` reads the payload as 32-bit numbers. -/
structure ClientPacket where
  identifierIsServiceClass : Bool
  command : Bool
  deviceIdentifier : Nat
  serviceIndex : Nat
  serviceCommand : Nat
  serviceSize : Nat
  word : Nat → Nat

/-- What does not change while the client runs: `jd_device_id`, and the restart
counter's part of the announce flags. -/
structure ClientConfig where
  deviceId : Nat
  restartCounter : Nat → Nat

/-- `jd_alloc`: it returns memory that no listed device has. -/
structure Allocator where
  alloc : List Nat → Nat
  fresh : ∀ live, alloc live ∉ live

def expiresUsec : Nat := 2000 * 1000

namespace Device

def numServices (device : Device) : Nat := device.services.length

/-- The device that `jd_device_alloc` fills in. -/
def ofAnnounce (address now : Nat) (announce : ClientPacket) : Device where
  address := address
  deviceIdentifier := announce.deviceIdentifier
  announceFlags := announce.word 0 % 65536
  expires := u32 (now + expiresUsec)
  services := (List.range (announce.serviceSize / 4)).map fun index =>
    { serviceClass := if index = 0 then 0 else announce.word index, roleAssigned := false }

/-- `fits_at`, before an existing device. -/
def fitsBefore (config : ClientConfig) (existing fresh : Device) : Bool :=
  fresh.deviceIdentifier = config.deviceId ∨
    (existing.deviceIdentifier ≠ config.deviceId ∧
      littleEndian 8 fresh.deviceIdentifier < littleEndian 8 existing.deviceIdentifier)

/-- The list insertion of `jd_device_alloc`. -/
def insert (config : ClientConfig) (fresh : Device) : List Device → List Device
  | [] => [fresh]
  | existing :: rest =>
    if fitsBefore config existing fresh then fresh :: existing :: rest
    else existing :: insert config fresh rest

/-- `jd_device_unlink`. -/
def unlink (address : Nat) (devices : List Device) : List Device := devices.eraseP (·.address = address)

/-- `jd_device_lookup`. -/
def lookup (identifier : Nat) (devices : List Device) : Option Device :=
  devices.find? (·.deviceIdentifier = identifier)

/-- `jd_device_get_service`. -/
def getService (device : Option Device) (index : Nat) : Option ServicePointer :=
  match device with
  | none => none
  | some device => if index < device.numServices then some ⟨device.address, index⟩ else none

def setFlag (pointer : ServicePointer) (assigned : Bool) (devices : List Device) : List Device :=
  devices.map fun device =>
    if device.address = pointer.device then
      { device with
        services := device.services.modify pointer.index fun service => { service with roleAssigned := assigned } }
    else device

/-- The tail of a list after the second loop of `jd_device_gc`: the device after
one that was freed is not looked at. -/
def sweepVictims (now : Nat) : List Device → List Device
  | [] => []
  | [last] => if inPast now last.expires then [last] else []
  | device :: next :: rest =>
    if inPast now device.expires then device :: sweepVictims now rest
    else sweepVictims now (next :: rest)

/-- The devices that `jd_device_gc` frees, in order. -/
def gcVictims (now : Nat) (devices : List Device) : List Device :=
  devices.takeWhile (fun device => inPast now device.expires) ++
    sweepVictims now (devices.dropWhile fun device => inPast now device.expires).tail

end Device

end Jacdac
