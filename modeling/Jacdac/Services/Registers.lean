import Jacdac.Frame.Packets

/-! `service_handle_register`: a register description is scanned for the code of
the packet, and the register's place in the service state follows from the scan. -/

namespace Jacdac

/-- `_JD_REG_BIT`. -/
def regBit : Nat := 8
/-- `_JD_REG_BYTES`. -/
def regBytes : Nat := 9
/-- `_JD_REG_OPT8`, the first of the optional types. -/
def regOpt8 : Nat := 10
/-- `JD_REG_PADDING`. -/
def regPadding : Nat := 0xff0
/-- `JD_REG_END`. -/
def regEnd : Nat := 0xff1

/-- `regSize`; the types past the table have size 0. -/
def regSize (ptrSize tp : Nat) : Nat := [1, 1, 2, 2, 4, 4, 4, 8, 1, 0, 1, 2, 4, ptrSize].getD tp 0

def regIsSigned (tp : Nat) : Bool := tp ≤ 4 ∧ tp % 2 = 0

def regIsOpt (tp : Nat) : Bool := tp ≥ regOpt8

/-- The fields of a packet that the register functions use. -/
structure RegPacket where
  serviceCommand : Nat
  data : List UInt8

/-- `JD_IS_GET`. -/
def isGet (cmd : Nat) : Bool := cmd / 4096 = 1
/-- `JD_IS_SET`. -/
def isSet (cmd : Nat) : Bool := cmd / 4096 = 2
/-- `JD_REG_CODE`. -/
def regCode (cmd : Nat) : Nat := cmd % 4096

/-- `offset` and `bitoffset` of the scan. -/
structure RegCursor where
  offset : Nat
  bitoffset : Nat
  deriving DecidableEq, Repr

namespace RegCursor

/-- Where a register of the type starts. `align` is one less than a power of two,
so masking with its complement rounds down to a multiple. -/
def place (ptrSize tp regsz : Nat) (cursor : RegCursor) : RegCursor :=
  if tp ≠ regBit ∧ tp ≠ regBytes then
    let offset := if cursor.bitoffset ≠ 0 then u32 (cursor.offset + 1) else cursor.offset
    let align := if regsz < ptrSize then regsz - 1 else ptrSize - 1
    { offset := u32 (offset + align) / (align + 1) * (align + 1), bitoffset := 0 }
  else cursor

/-- The step behind a register. -/
def advance (tp regsz : Nat) (cursor : RegCursor) : RegCursor :=
  if tp = regBit then
    if cursor.bitoffset + 1 = 8 then { offset := u32 (cursor.offset + 1), bitoffset := 0 }
    else { cursor with bitoffset := cursor.bitoffset + 1 }
  else { cursor with offset := u32 (cursor.offset + regsz) }

end RegCursor

/-- A register the scan has found. -/
structure RegPlace where
  tp : Nat
  regsz : Nat
  cursor : RegCursor
  deriving DecidableEq, Repr

/-- The panic for a type without a size, and a description without its end. -/
inductive RegFault where
  | panic
  | unterminated
  deriving DecidableEq, Repr

/-- The body of the scan; `rest` is the scan of the entries behind this one. -/
def visitRegister (ptrSize reg sd regsz : Nat) (cursor : RegCursor)
    (rest : RegCursor → Except RegFault (Option RegPlace)) : Except RegFault (Option RegPlace) :=
  if regsz = 0 then .error .panic
  else
    let cursor := cursor.place ptrSize (sd / 4096) regsz
    if sd % 4096 = reg then .ok (some ⟨sd / 4096, regsz, cursor⟩)
    else rest (cursor.advance (sd / 4096) regsz)

/-- The loop of `service_handle_register` over the description. -/
def findRegister (ptrSize reg : Nat) : List Nat → RegCursor → Except RegFault (Option RegPlace)
  | [], _ => .error .unterminated
  | sd :: rest, cursor =>
    if sd = regEnd then .ok none
    else if sd / 4096 = regBytes then
      match rest with
      | [] => .error .unterminated
      | size :: rest => visitRegister ptrSize reg sd size cursor (findRegister ptrSize reg rest)
    else
      visitRegister ptrSize reg sd (regSize ptrSize (sd / 4096)) cursor (findRegister ptrSize reg rest)

/-- `1 << bit`. -/
def bitMask (bit : Nat) : UInt8 := 1 <<< UInt8.ofNat bit

def getBit (byte : UInt8) (bit : Nat) : Bool := byte &&& bitMask bit ≠ 0

def setBit (byte : UInt8) (bit : Nat) (value : Bool) : UInt8 :=
  if value then byte ||| bitMask bit else byte &&& ~~~ bitMask bit

def getRegister (state : Memory) (place : RegPlace) : Option (List UInt8) :=
  let offset := place.cursor.offset
  if place.tp = regBit then some [if getBit (state offset) place.cursor.bitoffset then 1 else 0]
  else
    let bytes := state.read offset place.regsz
    if regIsOpt place.tp ∧ bytes.all (· = 0) then none else some bytes

/-- The fill for a payload shorter than the register. -/
def regFill (tp : Nat) (data : List UInt8) : UInt8 :=
  if regIsSigned tp then if data.getLastD 0 &&& 0x80 ≠ 0 then 0xff else 0 else 0

def setRegister (state : Memory) (place : RegPlace) (data : List UInt8) : Memory :=
  let offset := place.cursor.offset
  if place.tp = regBit then
    state.write offset [setBit (state offset) place.cursor.bitoffset (data.headD 0 ≠ 0)]
  else if place.regsz ≤ data.length then state.write offset (data.take place.regsz)
  else
    state.write offset (data ++ List.replicate (place.regsz - data.length) (regFill place.tp data))

/-- What `service_handle_register` returns, leaves and sends. -/
structure RegResult where
  ret : Int
  state : Memory
  sent : Option (List UInt8)

def serviceHandleRegister (ptrSize : Nat) (state : Memory) (pkt : RegPacket) (sdesc : List Nat) :
    Except RegFault RegResult :=
  let cmd := pkt.serviceCommand
  let reg := regCode cmd
  if ¬ isGet cmd ∧ ¬ isSet cmd then .ok ⟨0, state, none⟩
  else if isSet cmd ∧ pkt.data.length = 0 then .ok ⟨0, state, none⟩
  else if reg ≥ 0xf00 then .ok ⟨0, state, none⟩
  else if isSet cmd ∧ reg / 256 = 1 then .ok ⟨0, state, none⟩
  else
    match findRegister ptrSize reg sdesc ⟨0, 0⟩ with
    | .error fault => .error fault
    | .ok none => .ok ⟨0, state, none⟩
    | .ok (some place) =>
      if isGet cmd then
        match getRegister state place with
        | none => .ok ⟨0, state, none⟩
        | some value => .ok ⟨-reg, state, some value⟩
      else .ok ⟨reg, setRegister state place pkt.data, none⟩

end Jacdac
