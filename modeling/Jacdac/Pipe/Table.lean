import Jacdac.Base.Chain
import Jacdac.Pipe.Output

/-! The list of output pipes of `jd_opipe.c`: descriptors are known by their
address, linked by `next` from `opipes`. -/

namespace Jacdac

structure PipeTable where
  descs : Nat → OPipe
  next : Nat → Option Nat
  opipes : Option Nat

/-- A loop that visits more nodes than allowed, or a fault of one pipe. -/
inductive TableFault where
  | endless
  | pipe (fault : PipeFault)
  deriving DecidableEq, Repr

def OPipe.Call.isClose : OPipe.Call → Bool
  | .close => true
  | _ => false

namespace PipeTable

def initial : PipeTable := { descs := fun _ => .zero, next := fun _ => none, opipes := none }

def set (table : PipeTable) (str : Nat) (pipe : OPipe) : PipeTable :=
  { table with descs := Function.update table.descs str pipe }

/-- The `memset` of `jd_opipe_unlink`. -/
def erase (table : PipeTable) (str : Nat) : PipeTable :=
  { table with
    descs := Function.update table.descs str .zero
    next := Function.update table.next str none }

/-- `jd_opipe_unlink`, whose loop may visit `limit` nodes. -/
def jdOpipeUnlink (limit : Nat) (table : PipeTable) (str : Nat) : Except TableFault PipeTable :=
  if (table.descs str).status = .free then .ok table
  else if table.opipes = some str then .ok ({ table with opipes := table.next str }.erase str)
  else
    match findLink table.next str limit table.opipes with
    | none => .error .endless
    | some none => .ok (table.erase str)
    | some (some ss) =>
      .ok ({ table with next := Function.update table.next ss (table.next str) }.erase str)

def jdOpipeOpen (limit : Nat) (table : PipeTable) (str : Nat) (deviceId : List UInt8) (portNum : Nat) :
    Except TableFault (PipeResult × PipeTable) :=
  if deviceId.all (· == 0) then .ok (.error, table)
  else
    (table.jdOpipeUnlink limit str).map fun table =>
      (.ok, { table.set str ((table.descs str).jdOpipeOpen deviceId portNum).2 with
        next := Function.update table.next str table.opipes
        opipes := some str })

def call (limit : Nat) (now : Nat) (table : PipeTable) (str : Nat) (call : OPipe.Call) :
    Except TableFault (PipeResult × PipeTable) :=
  if (table.descs str).status = .dropped ∧ call.isClose then
    (table.jdOpipeUnlink limit str).map (.ok, ·)
  else
    match (table.descs str).call now call with
    | .error fault => .error (.pipe fault)
    | .ok (result, pipe) => .ok (result, table.set str pipe)

/-- The loop body of `jd_opipe_handle_packet`. -/
def handleAt (limit : Nat) (now : Nat) (ack : OPipe.Ack) (table : PipeTable) (str : Nat) :
    Except TableFault PipeTable :=
  if ack.isCrcAck ∧ (table.descs str).acknowledges ack ∧ (table.descs str).status = .closedWaiting then
    table.jdOpipeUnlink limit str
  else
    match (table.descs str).jdOpipeHandlePacket now ack with
    | .error fault => .error (.pipe fault)
    | .ok pipe => .ok (table.set str pipe)

/-- The loop of `jd_opipe_handle_packet`; the link is read after the body. -/
def handleLoop (limit : Nat) (now : Nat) (ack : OPipe.Ack) :
    Nat → Option Nat → PipeTable → Except TableFault PipeTable
  | _, none, table => .ok table
  | 0, some _, _ => .error .endless
  | fuel + 1, some str, table =>
    (table.handleAt limit now ack str).bind fun table => handleLoop limit now ack fuel (table.next str) table

def jdOpipeHandlePacket (limit : Nat) (now : Nat) (ack : OPipe.Ack) (table : PipeTable) :
    Except TableFault PipeTable :=
  if ack.isCrcAck then handleLoop limit now ack limit table.opipes table else .ok table

/-- The loop of `jd_opipe_process`. -/
def processLoop (config : TxConfig) (now : Nat) :
    Nat → Option Nat → Link → PipeTable → Except TableFault (Link × PipeTable)
  | _, none, link, table => .ok (link, table)
  | 0, some _, _, _ => .error .endless
  | fuel + 1, some str, link, table =>
    match (table.descs str).jdOpipeProcess config now link with
    | .error fault => .error (.pipe fault)
    | .ok (pipe, link, _) => processLoop config now fuel (table.next str) link (table.set str pipe)

def jdOpipeProcess (limit : Nat) (config : TxConfig) (now : Nat) (link : Link) (table : PipeTable) :
    Except TableFault (Link × PipeTable) :=
  processLoop config now limit table.opipes link table

end PipeTable

end Jacdac
