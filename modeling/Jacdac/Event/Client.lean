import Jacdac.Event.Queue

/-! The client side of `routing.c`, for one device. Register queries, role
assignment and expiry are left out: none of them looks at events. -/

namespace Jacdac

/-- The part of `jd_device_t` that packet handling reads and writes. -/
structure ClientDevice where
  numServices : Nat
  announceFlags : Nat
  eventCounter : Nat
  deriving DecidableEq, Repr

/-- The `JD_CLIENT_EV_*` codes emitted for packets. -/
inductive ClientEvent where
  | deviceCreated
  | deviceDestroyed
  | deviceReset
  | servicePacket
  | nonServicePacket
  | broadcastPacket
  | repeatedEventPacket
  deriving DecidableEq, Repr

/-- `JD_FRAME_FLAG_IDENTIFIER_IS_SERVICE_CLASS`. -/
def Frame.flagServiceClass : UInt8 := 0x04

/-- `JD_SERVICE_INDEX_MAX_NORMAL`. -/
def serviceIndexMaxNormal : UInt8 := 0x30

def jdIsEvent (flags : UInt8) (packet : Packet) : Bool :=
  flags &&& Frame.flagCommand = 0 ∧ packet.serviceIndex ≤ serviceIndexMaxNormal ∧
    packet.serviceCommand / 32768 % 2 = 1

def eventCounterOf (packet : Packet) : Nat := packet.serviceCommand / 256 % 128

/-- The decision on an event with counter `pec`: masking with `0x7f` is the
remainder modulo 128, also of a negative difference. -/
def acceptsEvent (eventCounter pec : Nat) : Bool :=
  let ec : Int := (if eventCounter = 0xff then (pec : Int) - 1 else eventCounter) + 1
  let ahead := ((pec : Int) - ec) % 128
  let behind := (ec - (pec : Int)) % 128
  ¬ (ahead > 0 ∧ (behind < 60 ∨ ahead < 5))

def jdDeviceAlloc (announce : Packet) : ClientDevice where
  numServices := announce.serviceSize / 4
  announceFlags := fromLittle (announce.payload.take 2)
  eventCounter := 0xff

/-- The handling of an announce report; `steady` is the restart counter mask of
the generated headers. -/
def handleAnnounce (steady : Nat) (device : Option ClientDevice) (packet : Packet) :
    ClientDevice × List ClientEvent :=
  match device with
  | none => (jdDeviceAlloc packet, [.deviceCreated])
  | some device =>
    let newFlags := fromLittle (packet.payload.take 2)
    if device.announceFlags ≠ newFlags then
      if device.announceFlags &&& steady > newFlags &&& steady then
        (jdDeviceAlloc packet, [.deviceReset, .deviceDestroyed, .deviceCreated])
      else ({ device with announceFlags := newFlags }, [])
    else (device, [])

/-- `jd_client_handle_packet` for the device the packet came from. -/
def jdClientHandlePacket (steady : Nat) (device : Option ClientDevice) (flags : UInt8)
    (packet : Packet) : Option ClientDevice × List ClientEvent :=
  let named (device : ClientDevice) : Bool := (packet.serviceIndex &&& 0x3f).toNat < device.numServices
  if flags &&& Frame.flagServiceClass ≠ 0 then (device, [.broadcastPacket])
  else if flags &&& Frame.flagCommand ≠ 0 then
    if device.any named then (device, [.servicePacket]) else (device, [.nonServicePacket])
  else if packet.serviceIndex = 0 ∧ packet.serviceCommand = 0 then
    let (device, events) := handleAnnounce steady device packet
    (some device, events ++ [.servicePacket])
  else
    match device with
    | none => (none, [.nonServicePacket])
    | some device =>
      if named device then
        if jdIsEvent flags packet then
          if acceptsEvent device.eventCounter (eventCounterOf packet) then
            (some { device with eventCounter := eventCounterOf packet }, [.servicePacket])
          else (some device, [.repeatedEventPacket])
        else (some device, [.servicePacket])
      else (some device, [.nonServicePacket])

/-- An event report of a registered service. -/
theorem jdClientHandlePacket_event {packet : Packet} (event : jdIsEvent 0 packet = true)
    (named : packet.serviceIndex.toNat < device.numServices) :
    jdClientHandlePacket steady (some device) 0 packet =
      if acceptsEvent device.eventCounter (eventCounterOf packet) then
        (some { device with eventCounter := eventCounterOf packet }, [.servicePacket])
      else (some device, [.repeatedEventPacket]) := by
  have facts := event
  simp only [jdIsEvent, decide_eq_true_eq] at facts
  obtain ⟨_, normal, command⟩ := facts
  have masked : (packet.serviceIndex &&& 0x3f).toNat < device.numServices := by
    have smaller : (packet.serviceIndex &&& 0x3f).toNat ≤ packet.serviceIndex.toNat := by
      rw [UInt8.toNat_and]
      exact Nat.and_le_left
    omega
  have report : ¬ ((0 : UInt8) &&& Frame.flagServiceClass ≠ 0) := by decide
  have notCommand : ¬ ((0 : UInt8) &&& Frame.flagCommand ≠ 0) := by decide
  have notAnnounce : ¬ (packet.serviceIndex = 0 ∧ packet.serviceCommand = 0) := by omega
  simp only [jdClientHandlePacket, if_neg report, if_neg notCommand, if_neg notAnnounce, masked,
    decide_true, event, ↓reduceIte]

/-- An old event, at most 58 behind the last one handled, is repeated. -/
theorem acceptsEvent_old {last event : Nat} (old : event ≤ last) (recent : last ≤ event + 58) :
    acceptsEvent ((last + 1) % 128) ((event + 1) % 128) = false := by
  have real : (last + 1) % 128 ≠ 0xff := by omega
  simp only [acceptsEvent, if_neg real, decide_eq_false_iff_not, not_not]
  omega

theorem acceptsEvent_next (last : Nat) :
    acceptsEvent ((last + 1) % 128) ((last + 1 + 1) % 128) = true := by
  have real : (last + 1) % 128 ≠ 0xff := by omega
  simp only [acceptsEvent, if_neg real, decide_eq_true_eq]
  omega

/-- A fresh device handles whatever event comes first. -/
theorem acceptsEvent_first (pec : Nat) : acceptsEvent 0xff pec = true := by
  simp [acceptsEvent]

end Jacdac
