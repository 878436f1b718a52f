import Jacdac.Base.Chain
import Jacdac.Client.Roles

/-! The list `jd_devices` as it is in memory: a head pointer, and a link in each
device. Every loop over it takes the number of devices that it may visit; the
result `none` means that it would have gone on. -/

namespace Jacdac

/-- The fields of `jd_device_t` that `routing.c` itself decides on. -/
structure DeviceNode where
  deviceIdentifier : Nat
  announceFlags : Nat
  expires : Nat
  deriving DecidableEq, Repr

/-- A packet from the bus; its `device_identifier` has 64 bits. -/
structure BusPacket extends ClientPacket where
  identifier_lt : deviceIdentifier < 2 ^ 64

/-- The devices in memory: `live` is what `jd_alloc` returned and `jd_free` did
not get back yet. -/
structure DeviceHeap where
  jdDevices : Option Nat
  next : Nat → Option Nat
  node : Nat → DeviceNode
  live : List Nat

namespace DeviceHeap

def init : DeviceHeap where
  jdDevices := none
  next _ := none
  node _ := ⟨0, 0, 0⟩
  live := []

/-- The identifiers of two devices, compared with `memcmp`. -/
def memcmpLess (first second : Nat) : Prop := littleEndian 8 first < littleEndian 8 second

instance : Decidable (memcmpLess first second) := inferInstanceAs (Decidable (_ < _))

def fitsAt (config : ClientConfig) (existing : Option Nat) (fresh : Nat) (heap : DeviceHeap) : Bool :=
  match existing with
  | none => true
  | some existing =>
    (heap.node fresh).deviceIdentifier = config.deviceId ∨
      ((heap.node existing).deviceIdentifier ≠ config.deviceId ∧
        memcmpLess (heap.node fresh).deviceIdentifier (heap.node existing).deviceIdentifier)

/-- The loop of `jd_device_alloc` that links the device behind another one. -/
def linkLoop (config : ClientConfig) (fresh : Nat) : Nat → Option Nat → DeviceHeap → Option DeviceHeap
  | _, none, heap => some heap
  | 0, some _, _ => none
  | limit + 1, some q, heap =>
    if heap.fitsAt config (heap.next q) fresh then
      some { heap with next := Function.update (Function.update heap.next fresh (heap.next q)) q (some fresh) }
    else linkLoop config fresh limit (heap.next q) heap

/-- The list insertion of `jd_device_alloc`. -/
def linkDevice (limit : Nat) (config : ClientConfig) (d : Nat) (heap : DeviceHeap) : Option DeviceHeap :=
  if heap.fitsAt config heap.jdDevices d then
    some { heap with next := Function.update heap.next d heap.jdDevices, jdDevices := some d }
  else linkLoop config d limit heap.jdDevices heap

/-- The memory from `jd_alloc` with the fields filled in; it comes zeroed. -/
def fillDevice (d now : Nat) (announce : ClientPacket) (heap : DeviceHeap) : DeviceHeap :=
  { heap with
    next := Function.update heap.next d none
    node := Function.update heap.node d
      ⟨announce.deviceIdentifier, announce.word 0 % 65536, u32 (now + expiresUsec)⟩
    live := d :: heap.live }

def jdDeviceAlloc (limit : Nat) (config : ClientConfig) (allocator : Allocator) (now : Nat)
    (announce : ClientPacket) (heap : DeviceHeap) : Option (Nat × DeviceHeap) :=
  let d := allocator.alloc heap.live
  ((heap.fillDevice d now announce).linkDevice limit config d).map (d, ·)

/-- `jd_device_free`, as far as the devices go. -/
def jdDeviceFree (d : Nat) (heap : DeviceHeap) : DeviceHeap := { heap with live := heap.live.erase d }

def jdDeviceUnlink (limit : Nat) (d : Nat) (heap : DeviceHeap) : Option DeviceHeap :=
  if heap.jdDevices = some d then some { heap with jdDevices := heap.next d }
  else
    match findLink heap.next d limit heap.jdDevices with
    | none => none
    | some none => some heap
    | some (some p) => some { heap with next := Function.update heap.next p (heap.next d) }

/-- The first loop of `jd_device_gc`. -/
def gcHead (now : Nat) : Nat → DeviceHeap → Option DeviceHeap
  | limit, heap =>
    match heap.jdDevices with
    | none => some heap
    | some p =>
      if inPast now (heap.node p).expires then
        match limit with
        | 0 => none
        | limit + 1 => gcHead now limit ({ heap with jdDevices := heap.next p }.jdDeviceFree p)
      else some heap

/-- The second loop of `jd_device_gc`. -/
def gcTail (now : Nat) : Nat → Option Nat → DeviceHeap → Option DeviceHeap
  | _, none, heap => some heap
  | limit, some p, heap =>
    match heap.next p with
    | none => some heap
    | some q =>
      match limit with
      | 0 => none
      | limit + 1 =>
        if inPast now (heap.node q).expires then
          let heap := { heap with next := Function.update heap.next p (heap.next q) }.jdDeviceFree q
          gcTail now limit (heap.next p) heap
        else gcTail now limit (some q) heap

def jdDeviceGc (limit : Nat) (now : Nat) (heap : DeviceHeap) : Option DeviceHeap :=
  (gcHead now limit heap).bind fun heap => gcTail now limit heap.jdDevices heap

/-- The loop of `jd_device_lookup`. -/
def lookupLoop (identifier : Nat) (heap : DeviceHeap) : Nat → Option Nat → Option (Option Nat)
  | _, none => some none
  | 0, some _ => none
  | limit + 1, some p =>
    if (heap.node p).deviceIdentifier = identifier then some (some p)
    else lookupLoop identifier heap limit (heap.next p)

def jdDeviceLookup (limit : Nat) (identifier : Nat) (heap : DeviceHeap) : Option (Option Nat) :=
  lookupLoop identifier heap limit heap.jdDevices

/-- A store to a device. -/
def setNode (d : Nat) (node : DeviceNode) (heap : DeviceHeap) : DeviceHeap :=
  { heap with node := Function.update heap.node d node }

def compareFlags (limit : Nat) (config : ClientConfig) (allocator : Allocator) (now : Nat) (pkt : ClientPacket)
    (dev : Nat) (heap : DeviceHeap) : Option (Nat × DeviceHeap) :=
  let newFlags := pkt.word 0 % 65536
  if (heap.node dev).announceFlags ≠ newFlags then
    if config.restartCounter (heap.node dev).announceFlags > config.restartCounter newFlags then
      (heap.jdDeviceUnlink limit dev).bind fun heap =>
        (heap.jdDeviceFree dev).jdDeviceAlloc limit config allocator now pkt
    else some (dev, heap.setNode dev { heap.node dev with announceFlags := newFlags })
  else some (dev, heap)

/-- The part of `jd_client_handle_packet` for announce packets. -/
def handleAnnounce (limit : Nat) (config : ClientConfig) (allocator : Allocator) (now : Nat) (pkt : ClientPacket)
    (dev : Option Nat) (heap : DeviceHeap) : Option DeviceHeap :=
  let present := match dev with
    | none => heap.jdDeviceAlloc limit config allocator now pkt
    | some dev => some (dev, heap)
  present.bind fun (dev, heap) =>
    (heap.compareFlags limit config allocator now pkt dev).map fun (dev, heap) =>
      heap.setNode dev { heap.node dev with expires := u32 (now + expiresUsec) }

/-- `jd_client_handle_packet`, as far as the devices go. -/
def jdClientHandlePacket (limit : Nat) (config : ClientConfig) (allocator : Allocator) (now : Nat)
    (pkt : ClientPacket) (heap : DeviceHeap) : Option DeviceHeap :=
  if pkt.identifierIsServiceClass then some heap
  else
    (heap.jdDeviceLookup limit pkt.deviceIdentifier).bind fun dev =>
      if pkt.command then some heap
      else if pkt.serviceIndex = 0 ∧ pkt.serviceCommand = 0 then
        heap.handleAnnounce limit config allocator now pkt dev
      else some heap

end DeviceHeap

end Jacdac
