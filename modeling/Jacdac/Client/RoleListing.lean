import Jacdac.Client.RoleClass
import Jacdac.Frame.Walk
import Jacdac.Pipe.TableInvariant

/-! The `LIST_ROLES` command of `rolemgr.c`: the roles are written one by one into
an output pipe, as far as it has room. -/

namespace Jacdac

/-- The layout of `jd_role_manager_roles_t`, from the generated service headers:
the fields before the name take `offset` bytes. -/
structure RoleReport where
  offset : Nat
  fields : (deviceId serviceClass serviceIdx : Nat) → List UInt8
  fields_length : ∀ deviceId serviceClass serviceIdx, (fields deviceId serviceClass serviceIdx).length = offset

namespace RoleReport

/-- `rolemgr_serialized_role_size`. -/
def serializedRoleSize (report : RoleReport) (role : Role) : Nat := report.offset + role.name.length

/-- The device of a service, as `jd_service_parent` finds it; a bound role has one. -/
def parentIdentifier (client : ClientState) (serv : ServicePointer) : Nat :=
  ((client.devices.find? (·.address = serv.device)).map (·.deviceIdentifier)).getD 0

/-- `rolemgr_serialize_role`; the fields of a role without a service stay zero. -/
def serializeRole (report : RoleReport) (client : ClientState) (role : Role) : List UInt8 :=
  match role.service with
  | none => report.fields 0 role.serviceClass 0 ++ role.name
  | some serv => report.fields (parentIdentifier client serv) role.serviceClass serv.index ++ role.name

theorem serializeRole_length (report : RoleReport) (client : ClientState) (role : Role) :
    (report.serializeRole client role).length = report.serializedRoleSize role := by
  unfold serializeRole
  split
  · rw [List.length_append, report.fields_length]
    rfl
  · rw [List.length_append, report.fields_length]
    rfl

end RoleReport

/-- A packet that came into the frame of the listing pipe, with the roles at that time. -/
structure ListEntry where
  client : ClientState
  packet : Packet

namespace ListEntry

/-- What a call left in the frame behind the first `start` bytes of data. -/
def gained (client : ClientState) (start : Nat) (pipe : OPipe) : List ListEntry :=
  (pipe.frame.walk start).map fun packet => ⟨client, packet⟩

/-- Where the data stands that an acknowledgement leaves in the frame: a frame that it acknowledges is reset. -/
def ackStart (pipe : OPipe) (ack : OPipe.Ack) : Nat :=
  if ack.isCrcAck && pipe.acknowledges ack then 0 else pipe.frame.size

end ListEntry

/-- What can stop `rolemgr_process`: a fault of the pipe, the assertion after
`jd_opipe_write`, or a loop that does not end or leaves the list. -/
inductive ListFault where
  | pipe (fault : PipeFault)
  | writeFailed
  | dangling
  | endless
  deriving DecidableEq, Repr

/-- The role manager with the fields that `LIST_ROLES` uses. `hidden` is the bit of
the role with that name; `listPtr` is the place of a role in the list. -/
structure RoleLister where
  client : ClientState
  hidden : List UInt8 → Bool
  listPipe : OPipe
  listPtr : Option Nat

namespace RoleLister

def init : RoleLister where
  client := .init
  hidden := fun _ => false
  listPipe := .zero
  listPtr := none

/-- `next_visible`, from the role at place `ptr` on. -/
def nextVisible (hidden : List UInt8 → Bool) : List Role → Nat → Option Nat
  | [], _ => none
  | role :: rest, ptr => if hidden role.name then nextVisible hidden rest (ptr + 1) else some ptr

/-- `list_ptr = NULL` and `jd_opipe_close`. -/
def closeList (now : Nat) (lister : RoleLister) : Except ListFault (RoleLister × List ListEntry) :=
  match lister.listPipe.jdOpipeClose now with
  | .error fault => .error (.pipe fault)
  | .ok (_, listPipe) =>
    .ok ({ lister with listPipe, listPtr := none }, ListEntry.gained lister.client lister.listPipe.frame.size listPipe)

/-- The `while` loop of `rolemgr_process`, with the packets that came into the frame. -/
def listLoop (report : RoleReport) (now : Nat) : Nat → RoleLister → Except ListFault (RoleLister × List ListEntry)
  | 0, _ => .error .endless
  | fuel + 1, lister =>
    match lister.listPtr with
    | none => .ok (lister, [])
    | some ptr =>
      match lister.client.roles[ptr]? with
      | none => .error .dangling
      | some role =>
        match lister.listPipe.jdOpipeCheckSpace now (report.serializedRoleSize role) with
        | .error fault => .error (.pipe fault)
        | .ok (.tryAgain, listPipe) => .ok ({ lister with listPipe }, [])
        | .ok (.ok, listPipe) =>
          let tmp := report.serializeRole lister.client role
          match listPipe.jdOpipeWrite now tmp with
          | .error fault => .error (.pipe fault)
          | .ok (.ok, written) =>
            let gained := ListEntry.gained lister.client listPipe.frame.size written
            let listPtr := nextVisible lister.hidden (lister.client.roles.drop (ptr + 1)) (ptr + 1)
            let lister := { lister with listPipe := written, listPtr }
            let result := if listPtr = none then lister.closeList now else listLoop report now fuel lister
            result.map fun rest => (rest.1, gained ++ rest.2)
          -- the assertion that `err == 0`
          | .ok _ => .error .writeFailed
        | .ok (_, listPipe) => { lister with listPipe }.closeList now

/-- `rolemgr_process`; `autobind` and `timeout` tell whether the two calls of
`jd_should_sample` return true. -/
def rolemgrProcess (report : RoleReport) (config : ClientConfig) (now : Nat) (autobind timeout : Bool)
    (lister : RoleLister) : Except ListFault (RoleLister × List ListEntry) :=
  (lister.listLoop report now (lister.client.roles.length + 1)).map fun listed =>
    let client := if autobind then listed.1.client.rolemgrAutobind config else listed.1.client
    let client := if timeout then { client with changed := false } else client
    ({ listed.1 with client }, listed.2)

def stopList (now : Nat) (lister : RoleLister) : Except ListFault (RoleLister × List ListEntry) :=
  match lister.listPtr with
  | none => .ok (lister, [])
  | some _ => lister.closeList now

/-- `jd_opipe_open_cmd`, with the payload of the command. -/
def jdOpipeOpenCmd (pipe : OPipe) (data : List UInt8) : PipeResult × OPipe :=
  if data.length < 12 then (.error, pipe)
  else pipe.jdOpipeOpen (data.take 8) (fromLittle ((data.drop 8).take 2))

/-- The `LIST_ROLES` command, when the pipe could be opened. -/
def startList (now : Nat) (listPipe : OPipe) (lister : RoleLister) : Except ListFault (RoleLister × List ListEntry) :=
  let listPtr := nextVisible lister.hidden lister.client.roles 0
  let lister := { lister with listPipe, listPtr }
  if listPtr = none then lister.closeList now else .ok (lister, [])

end RoleLister

/-- The role manager, the packets that came into the frame of its pipe since that was opened,
and whether roles came, went, were hidden or shown since then. -/
structure ListWorld where
  lister : RoleLister
  written : List ListEntry
  disturbed : Bool

/-- The runs of the role manager: roles and bindings change, and lists are started
and streamed, in any order. -/
inductive ListRun (report : RoleReport) (config : ClientConfig) : ListWorld → Prop where
  | init : ListRun report config ⟨.init, [], false⟩
  | command (run : ListRun report config world) (now : Nat) (data : List UInt8)
      (opened : RoleLister.jdOpipeOpenCmd world.lister.listPipe data = (.ok, listPipe))
      (started : world.lister.startList now listPipe = .ok (next, entries)) :
      ListRun report config ⟨next, entries, false⟩
  | process (run : ListRun report config world) (now : Nat) (autobind timeout : Bool)
      (processed : world.lister.rolemgrProcess report config now autobind timeout = .ok (next, entries)) :
      ListRun report config { world with lister := next, written := world.written ++ entries }
  | ack (run : ListRun report config world) (now : Nat) (ack : OPipe.Ack)
      (handled : world.lister.listPipe.jdOpipeHandlePacket now ack = .ok listPipe) :
      ListRun report config { world with
        lister := { world.lister with listPipe }
        written := world.written ++
          ListEntry.gained world.lister.client (ListEntry.ackStart world.lister.listPipe ack) listPipe }
  | tick (run : ListRun report config world) (txConfig : TxConfig) (now : Nat) (link : Link)
      (processed : world.lister.listPipe.jdOpipeProcess txConfig now link = .ok (listPipe, after, copy)) :
      ListRun report config { world with lister := { world.lister with listPipe } }
  | client (run : ListRun report config world) (step : ClientStep config (fun _ _ _ _ => True) world.lister.client next)
      (kept : next.roles.map (·.name) = world.lister.client.roles.map (·.name)) :
      ListRun report config { world with lister := { world.lister with client := next } }
  | hide (run : ListRun report config world) (hidden : List UInt8 → Bool) :
      ListRun report config { world with lister := { world.lister with hidden }, disturbed := true }
  | roleAlloc (run : ListRun report config world) (now : Nat) (name : List UInt8) (serviceClass : Nat)
      (short : report.offset + name.length ≤ 232) (absent : Role.lookup name world.lister.client.roles = none)
      (stopped : world.lister.stopList now = .ok (next, entries)) :
      ListRun report config
        ⟨{ next with
            client := next.client.jdRoleAlloc name serviceClass
            hidden := Function.update next.hidden name false }, world.written ++ entries, true⟩
  | roleFree (run : ListRun report config world) (now index : Nat) (present : index < world.lister.client.roles.length)
      (stopped : world.lister.stopList now = .ok (next, entries)) :
      ListRun report config ⟨{ next with client := next.client.jdRoleFree index }, world.written ++ entries, true⟩
  | roleFreeAll (run : ListRun report config world) (now : Nat)
      (stopped : world.lister.stopList now = .ok (next, entries)) :
      ListRun report config ⟨{ next with client := next.client.jdRoleFreeAll }, world.written ++ entries, true⟩

end Jacdac
