import Jacdac.Base.Endian
import Jacdac.Queue.Ring
import Jacdac.Services.RegisterFrame

/-! Services whose replies have a length that depends on a command, on a stored
value or on their configuration: the flood ping of the control service, I2C, the
LED display and the settings. -/

namespace Jacdac

/-- A packet as a service's handler gets it. -/
structure ServiceRequest where
  serviceIndex : UInt8
  serviceCommand : Nat
  /-- `JD_FRAME_FLAG_IDENTIFIER_IS_SERVICE_CLASS`. -/
  identifierIsServiceClass : Bool
  crc : Nat
  data : List UInt8
  size_le : data.length ≤ 236

/-- The fields of `jd_control_flood_ping_t`. -/
structure FloodPing where
  numResponses : Nat
  startCounter : Nat
  size : Nat

/-- The fields of `jd_i2c_transaction_t`. -/
structure I2cTransaction where
  address : Nat
  numRead : Nat
  writeBuf : List UInt8

/-- A register code of the specification submodule. -/
structure RegCode where
  code : Nat
  code_lt : code < 0xf00

/-- What the services take from the specification submodule, and the size of a
pointer. `floodPing` overlays the structure on a payload that is long enough, and
`i2cTransaction` on one of at least two bytes. -/
structure ServiceSpec where
  ptrSize : Nat
  ptr : ptrSize = 4 ∨ ptrSize = 8
  cmdNotImplemented : Nat
  cmdFloodPing : Nat
  floodPing : List UInt8 → Option FloodPing
  cmdTransaction : Nat
  i2cTransaction : List UInt8 → I2cTransaction
  statusOk : UInt8
  statusNackAddr : UInt8
  statusNackData : UInt8
  statusNoI2c : UInt8
  i2cRegOk : RegCode
  ledRegPixels : RegCode
  ledRegBrightness : RegCode
  ledRegActualBrightness : RegCode
  ledRegVariant : RegCode
  ledRegNumPixels : RegCode
  ledRegMaxPower : RegCode
  cmdGet : Nat
  cmdSet : Nat
  cmdDelete : Nat
  settingsDistinct : [cmdGet, cmdSet, cmdDelete].Nodup

def jdGet (reg : RegCode) : Nat := 0x1000 + reg.code
/-- `JD_SET`. -/
def jdSet (reg : RegCode) : Nat := 0x2000 + reg.code

namespace ServiceRequest

/-- A `jd_send` in reply to the packet. -/
def respond (pkt : ServiceRequest) (payload : List UInt8) : Packet := ⟨pkt.serviceIndex, pkt.serviceCommand, payload⟩

def jdSendNotImplemented (spec : ServiceSpec) (pkt : ServiceRequest) : List Packet :=
  if pkt.identifierIsServiceClass then []
  else [⟨pkt.serviceIndex, spec.cmdNotImplemented, littleEndian 2 pkt.serviceCommand ++ littleEndian 2 pkt.crc⟩]

end ServiceRequest

/-- `service_handle_register_final`: the return code, the state and what is sent. -/
def serviceHandleRegisterFinal (spec : ServiceSpec) (state : Memory) (pkt : ServiceRequest) (sdesc : List Nat) :
    Except RegFault (Int × Memory × List Packet) :=
  match serviceHandleRegister spec.ptrSize state ⟨pkt.serviceCommand, pkt.data⟩ sdesc with
  | .error fault => .error fault
  | .ok result =>
    let reply := match result.sent with
      | none => []
      | some value => [pkt.respond value]
    .ok (result.ret, result.state, reply ++ if result.ret = 0 then pkt.jdSendNotImplemented spec else [])

/-- `REG_SRV_COMMON`. -/
def srvCommonEntry (ptrSize : Nat) (positive : 0 < ptrSize + 2) : RegEntry where
  type := .bytes (ptrSize + 2)
  code := regPadding
  code_lt := RegEntry.padding_lt
  positive size same := by cases same; exact positive
  ongoing := nofun

/-- An entry for a register of one or two bytes. -/
def numberEntry (wide : Bool) (reg : RegCode) : RegEntry where
  type := if wide then .u16 else .u8
  code := reg.code
  code_lt := Nat.lt_trans reg.code_lt (by decide)
  positive size same := by cases wide <;> cases same
  ongoing both := by cases wide <;> cases both.1

/-- The flood fields of the control service's state. -/
structure ControlState where
  floodSize : Nat
  floodCounter : Nat
  floodRemaining : Nat

namespace ControlState

/-- The `FLOOD_PING` case of `jd_ctrl_handle_packet`. -/
def handlePacket (spec : ServiceSpec) (state : ControlState) (pkt : ServiceRequest) : ControlState :=
  if pkt.serviceCommand = spec.cmdFloodPing then
    match spec.floodPing pkt.data with
    | none => state
    | some arg => ⟨u8 arg.size, u32 arg.startCounter, u32 arg.numResponses⟩
  else state

def processFlood (spec : ServiceSpec) (state : ControlState) (jdTxIsIdle : Bool) : ControlState × List Packet :=
  if state.floodRemaining ≠ 0 ∧ jdTxIsIdle then
    let tmp := littleEndian 4 state.floodCounter ++ (List.range state.floodSize).map UInt8.ofNat
    ({ state with floodCounter := u32 (state.floodCounter + 1), floodRemaining := state.floodRemaining - 1 },
      [⟨0, spec.cmdFloodPing, tmp⟩])
  else (state, [])

end ControlState

/-- The answers of the I2C bus to the transfers of one transaction. -/
structure I2cBus where
  /-- `i2c_write_ex` returned 0. -/
  writes : Nat → List UInt8 → Bool → Bool
  /-- The bytes that `i2c_read_ex` read, if it returned 0. -/
  reads : Nat → Nat → Option (List UInt8)
  reads_length : ∀ address count bytes, reads address count = some bytes → bytes.length = count

/-- The device, how many bytes it is to send, and the bytes for it. -/
def i2cAddress (spec : ServiceSpec) (pkt : ServiceRequest) : Nat := (spec.i2cTransaction pkt.data).address % 128
def i2cNumRead (spec : ServiceSpec) (pkt : ServiceRequest) : Nat := (spec.i2cTransaction pkt.data).numRead
def i2cWriteBuf (spec : ServiceSpec) (pkt : ServiceRequest) : List UInt8 :=
  (spec.i2cTransaction pkt.data).writeBuf.take (pkt.data.length - 2)

/-- The write part of a transaction was refused. -/
def i2cRefused (spec : ServiceSpec) (bus : I2cBus) (pkt : ServiceRequest) : Prop :=
  0 < pkt.data.length - 2 ∧ bus.writes (i2cAddress spec pkt) (i2cWriteBuf spec pkt) (i2cNumRead spec pkt > 0) = false

instance (spec : ServiceSpec) (bus : I2cBus) (pkt : ServiceRequest) : Decidable (i2cRefused spec bus pkt) :=
  inferInstanceAs (Decidable (_ ∧ _))

def i2cservTransaction (spec : ServiceSpec) (bus : I2cBus) (pkt : ServiceRequest) : List Packet :=
  if i2cRefused spec bus pkt then [pkt.respond [spec.statusNackAddr]]
  else if i2cNumRead spec pkt > 0 then
    match bus.reads (i2cAddress spec pkt) (i2cNumRead spec pkt) with
    | none => [pkt.respond [spec.statusNackData]]
    | some rdbuf => [pkt.respond (spec.statusOk :: rdbuf)]
  else [pkt.respond [spec.statusOk]]

/-- The state of the I2C service: its registers, and `enabled`. -/
structure I2cState where
  registers : Memory
  enabled : Bool

def i2cservRegs (spec : ServiceSpec) : RegDescription spec.ptrSize where
  entries := [srvCommonEntry spec.ptrSize (Nat.succ_pos _), numberEntry false spec.i2cRegOk]
  ptr := spec.ptr
  fits := by
    rcases spec.ptr with size | size <;>
      simp [size, RegEntry.finish, RegEntry.step, RegEntry.start, RegEntry.next, srvCommonEntry, numberEntry,
        RegEntry.size, RegType.packed, RegType.size, RegType.number, regSize, roundUp]

def i2cservHandlePacket (spec : ServiceSpec) (bus : I2cBus) (state : I2cState) (pkt : ServiceRequest) :
    Except RegFault (I2cState × List Packet) :=
  if pkt.serviceCommand = spec.cmdTransaction then
    if ¬ state.enabled then .ok (state, [pkt.respond [spec.statusNoI2c]])
    else if pkt.data.length ≥ 2 then .ok (state, i2cservTransaction spec bus pkt)
    else .ok (state, [])
  else
    match serviceHandleRegisterFinal spec state.registers pkt (i2cservRegs spec).sdesc with
    | .error fault => .error fault
    | .ok (_, registers, sends) => .ok ({ state with registers }, sends)

/-- The registers of the LED display, and the pixels. -/
structure LedDisplayState where
  registers : Memory
  pxbuffer : Memory

/-- The field `numpixels`, behind three bytes and aligned. -/
def LedDisplayState.numpixels (spec : ServiceSpec) (state : LedDisplayState) : Nat := state.registers.number (spec.ptrSize + 6) 2

def leddisplayRegs (spec : ServiceSpec) : RegDescription spec.ptrSize where
  entries := [srvCommonEntry spec.ptrSize (Nat.succ_pos _), numberEntry false spec.ledRegBrightness,
    numberEntry false spec.ledRegActualBrightness, numberEntry false spec.ledRegVariant,
    numberEntry true spec.ledRegNumPixels, numberEntry true spec.ledRegMaxPower]
  ptr := spec.ptr
  fits := by
    rcases spec.ptr with size | size <;>
      simp [size, RegEntry.finish, RegEntry.step, RegEntry.start, RegEntry.next, srvCommonEntry, numberEntry,
        RegEntry.size, RegType.packed, RegType.size, RegType.number, regSize, roundUp]

def leddisplayHandlePacket (spec : ServiceSpec) (state : LedDisplayState) (pkt : ServiceRequest) :
    Except RegFault (LedDisplayState × List Packet) :=
  if pkt.serviceCommand = jdGet spec.ledRegPixels then
    .ok (state, [pkt.respond (state.pxbuffer.read 0 (state.numpixels spec * 3))])
  else if pkt.serviceCommand = jdSet spec.ledRegPixels then
    .ok ({ state with pxbuffer := state.pxbuffer.write 0 (pkt.data.take (state.numpixels spec * 3)) }, [])
  else
    match serviceHandleRegisterFinal spec state.registers pkt (leddisplayRegs spec).sdesc with
    | .error fault => .error fault
    | .ok (ret, registers, sends) =>
      let registers :=
        if ret = spec.ledRegBrightness.code then registers.write (spec.ptrSize + 3) [registers (spec.ptrSize + 2)]
        else registers
      .ok ({ state with registers }, sends)

/-- The registers of the settings service, and the values in flash. -/
structure SettingsState where
  registers : Memory
  stored : List UInt8 → Option (List UInt8)

def settingsRegs (spec : ServiceSpec) : RegDescription spec.ptrSize where
  entries := [srvCommonEntry spec.ptrSize (Nat.succ_pos _)]
  ptr := spec.ptr
  fits := by
    rcases spec.ptr with size | size <;>
      simp [size, RegEntry.finish, RegEntry.step, RegEntry.start, RegEntry.next, srvCommonEntry, RegEntry.size,
        RegType.packed, RegType.size]

def maxKeySize : Nat := 14

/-- The key in a packet, up to a NUL and without the colon in front. -/
def settingsKey (pkt : ServiceRequest) : List UInt8 := (pkt.data.take (maxKeySize + 1)).takeWhile (· ≠ 0)

/-- The value that `jd_settings_get_bin` finds. -/
def SettingsState.value (state : SettingsState) (key : List UInt8) : List UInt8 := (state.stored (58 :: key)).getD []

/-- `settings_handle_packet`; `accepted` says if the flash took the value. -/
def settingsHandlePacket (spec : ServiceSpec) (accepted : Bool) (state : SettingsState) (pkt : ServiceRequest) :
    Except RegFault (SettingsState × List Packet) :=
  let cmd := pkt.serviceCommand
  if cmd = spec.cmdDelete ∨ cmd = spec.cmdSet ∨ cmd = spec.cmdGet then
    let key := settingsKey pkt
    if key.length > maxKeySize then .ok (state, [])
    else if cmd = spec.cmdGet then .ok (state, [pkt.respond (key ++ 0 :: state.value key)])
    else
      let value := if cmd = spec.cmdDelete then [] else pkt.data.drop (key.length + 1)
      let stored := fun other => if other = 58 :: key ∧ accepted then some value else state.stored other
      .ok ({ state with stored }, [])
  else
    match serviceHandleRegisterFinal spec state.registers pkt (settingsRegs spec).sdesc with
    | .error fault => .error fault
    | .ok (_, registers, sends) => .ok ({ state with registers }, sends)

end Jacdac
