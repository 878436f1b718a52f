import Jacdac.Base.Chain
import Jacdac.Client.Devices
import Jacdac.Services.Registers

/-! The register queries of `routing.c` as they are in memory: each device has a
list of them, and values of more than four bytes have a buffer of their own. Every
loop takes the number of queries that it may visit. -/

namespace Jacdac

/-- A `jd_free` or a use of a buffer that is not live, a pointer read from a `value`
that holds bytes (or the other way round), an unlink without a previous query, and a
loop that would have gone on. -/
inductive QueryFault where
  | badFree
  | deadBuffer
  | wrongMember
  | nullPrevious
  | endless
  deriving DecidableEq, Repr

/-- The union `value`; of its bytes those that were stored last. -/
inductive QueryValue where
  | data (bytes : List UInt8)
  | buffer (address : Nat)
  deriving DecidableEq, Repr

/-- `jd_register_query_t` without its link. -/
structure RegisterQuery where
  regCode : Nat
  serviceIndex : Nat
  respSize : Nat
  lastQueryMs : Nat
  value : QueryValue
  deriving DecidableEq, Repr

/-- `JD_REGISTER_QUERY_MAX_INLINE`. -/
def registerQueryMaxInline : Nat := 4

namespace RegisterQuery

/-- `jd_register_not_implemented`. -/
def notImplemented (query : RegisterQuery) : Bool := query.serviceIndex.testBit 7

/-- The test of `jd_service_query_lookup`; the mask is `JD_SERVICE_INDEX_MASK`. -/
def isFor (idx : Nat) (regCode : Int) (query : RegisterQuery) : Bool :=
  query.regCode = regCode ∧ query.serviceIndex % 64 = idx

/-- The test of `jd_device_clear_queries`. -/
def clearedBy (serviceIdx : Nat) (query : RegisterQuery) : Bool :=
  serviceIdx = 0xff ∨ query.serviceIndex = serviceIdx

def buffer? (query : RegisterQuery) : Option Nat :=
  if query.respSize > registerQueryMaxInline then
    match query.value with
    | .buffer address => some address
    | .data _ => none
  else none

end RegisterQuery

/-- The queries in memory: `queries` is the field `_queries` of a device, `live` and
`buffers` are the queries and the buffers that `jd_free` did not get back yet. -/
structure QueryHeap where
  queries : Nat → Option Nat
  next : Nat → Option Nat
  query : Nat → RegisterQuery
  live : List Nat
  buffers : List Nat
  bytes : Nat → List UInt8

namespace QueryHeap

def init : QueryHeap where
  queries _ := none
  next _ := none
  query _ := ⟨0, 0, 0, 0, .data []⟩
  live := []
  buffers := []
  bytes _ := []

/-- A store to a query. -/
def setQuery (q : Nat) (query : RegisterQuery) (heap : QueryHeap) : QueryHeap :=
  { heap with query := Function.update heap.query q query }

/-- `value.buffer`, for a use of the memory there. -/
def valueBuffer (q : Nat) (heap : QueryHeap) : Except QueryFault Nat :=
  match (heap.query q).value with
  | .data _ => .error .wrongMember
  | .buffer address => if address ∈ heap.buffers then .ok address else .error .deadBuffer

/-- The bytes at `jd_register_data`. -/
def jdRegisterData (q : Nat) (heap : QueryHeap) : Except QueryFault (List UInt8) :=
  if (heap.query q).respSize > registerQueryMaxInline then
    match heap.valueBuffer q with
    | .error fault => .error fault
    | .ok address => .ok (heap.bytes address)
  else
    match (heap.query q).value with
    | .data bytes => .ok bytes
    | .buffer _ => .error .wrongMember

/-- `jd_free(q->value.buffer)`. -/
def freeBuffer (q : Nat) (heap : QueryHeap) : Except QueryFault QueryHeap :=
  match (heap.query q).value with
  | .data _ => .error .wrongMember
  | .buffer address =>
    if address ∈ heap.buffers then .ok { heap with buffers := heap.buffers.erase address } else .error .badFree

/-- `jd_free(q->value.buffer)` where there is one. -/
def freeValue (q : Nat) (heap : QueryHeap) : Except QueryFault QueryHeap :=
  if (heap.query q).respSize > registerQueryMaxInline then heap.freeBuffer q else .ok heap

/-- The `jd_free` calls of `jd_device_clear_queries` for one query. -/
def freeQuery (q : Nat) (heap : QueryHeap) : Except QueryFault QueryHeap :=
  match heap.freeValue q with
  | .error fault => .error fault
  | .ok heap => if q ∈ heap.live then .ok { heap with live := heap.live.erase q } else .error .badFree

/-- Redirecting the link that leads to `q`. -/
def unlinkQuery (d : Nat) (prev : Option Nat) (q : Nat) (heap : QueryHeap) : Except QueryFault QueryHeap :=
  if heap.queries d = some q then .ok { heap with queries := Function.update heap.queries d (heap.next q) }
  else
    match prev with
    | none => .error .nullPrevious
    | some prev => .ok { heap with next := Function.update heap.next prev (heap.next q) }

/-- The loop of `jd_device_clear_queries`. -/
def clearLoop (d serviceIdx : Nat) : Nat → Option Nat → Option Nat → QueryHeap → Except QueryFault QueryHeap
  | _, _, none, heap => .ok heap
  | 0, _, some _, _ => .error .endless
  | limit + 1, prev, some q, heap =>
    if (heap.query q).clearedBy serviceIdx then
      match heap.unlinkQuery d prev q with
      | .error fault => .error fault
      | .ok unlinked =>
        match unlinked.freeQuery q with
        | .error fault => .error fault
        | .ok freed => clearLoop d serviceIdx limit prev (heap.next q) freed
    else clearLoop d serviceIdx limit (some q) (heap.next q) heap

def jdDeviceClearQueries (d serviceIdx : Nat) (heap : QueryHeap) : Except QueryFault QueryHeap :=
  clearLoop d serviceIdx heap.live.length none (heap.queries d) heap

/-- The loop of `jd_service_query_lookup`. -/
def lookupLoop (idx : Nat) (regCode : Int) (heap : QueryHeap) : Nat → Option Nat → Except QueryFault (Option Nat)
  | _, none => .ok none
  | 0, some _ => .error .endless
  | limit + 1, some q =>
    if (heap.query q).isFor idx regCode then .ok (some q) else lookupLoop idx regCode heap limit (heap.next q)

/-- `jd_service_query_lookup`, for service `idx` of the device at `d`. -/
def jdServiceQueryLookup (d idx : Nat) (regCode : Int) (heap : QueryHeap) : Except QueryFault (Option Nat) :=
  lookupLoop idx regCode heap heap.live.length (heap.queries d)

/-- The query that `jd_service_query` links in front. `devices` is other memory that is in use. -/
def addQuery (allocator : Allocator) (devices : List Nat) (d idx : Nat) (regCode : Int) (heap : QueryHeap) :
    Nat × QueryHeap :=
  let q := allocator.alloc (devices ++ heap.live ++ heap.buffers)
  (q, { heap with
    query := Function.update heap.query q ⟨(regCode % 65536).toNat, idx, 0, 0, .data []⟩
    next := Function.update heap.next q (heap.queries d)
    queries := Function.update heap.queries d (some q)
    live := q :: heap.live })

/-- The end of `jd_service_query`; the flag says that the register is asked for. -/
def refreshQuery (nowMs refreshMs q : Nat) (heap : QueryHeap) : Bool × QueryHeap :=
  let query := heap.query q
  if ¬ query.notImplemented ∧
      (query.lastQueryMs = 0 ∨ (refreshMs ≠ 0 ∧ inPast nowMs (u32 (query.lastQueryMs + refreshMs)))) then
    (true, heap.setQuery q { query with lastQueryMs := nowMs })
  else (false, heap)

/-- `jd_service_query`: the query, whether the register is asked for, and the memory. -/
def jdServiceQuery (allocator : Allocator) (devices : List Nat) (nowMs d idx : Nat) (regCode : Int) (refreshMs : Nat)
    (heap : QueryHeap) : Except QueryFault (Nat × Bool × QueryHeap) :=
  match heap.jdServiceQueryLookup d idx regCode with
  | .error fault => .error fault
  | .ok found =>
    let (q, heap) := match found with
      | some q => (q, heap)
      | none => heap.addQuery allocator devices d idx regCode
    .ok (q, heap.refreshQuery nowMs refreshMs q)

/-- Whether a report differs from the value that is stored. -/
def valueChanged (q : Nat) (data : List UInt8) (heap : QueryHeap) : Except QueryFault Bool :=
  if (heap.query q).respSize ≠ data.length then .ok true
  else
    match heap.jdRegisterData q with
    | .error fault => .error fault
    | .ok bytes => .ok (decide (data ≠ bytes))

/-- The new buffer for a long value of another size. -/
def growValue (allocator : Allocator) (devices : List Nat) (q size : Nat) (heap : QueryHeap) :
    Except QueryFault QueryHeap :=
  if size > registerQueryMaxInline ∧ (heap.query q).respSize ≠ size then
    match heap.freeValue q with
    | .error fault => .error fault
    | .ok heap =>
      let address := allocator.alloc (devices ++ heap.live ++ heap.buffers)
      .ok ({ heap with buffers := address :: heap.buffers }.setQuery q { heap.query q with value := .buffer address })
  else .ok heap

/-- The copy of a report to `jd_register_data`, with the new `resp_size`. -/
def storeValue (q : Nat) (data : List UInt8) (heap : QueryHeap) : Except QueryFault QueryHeap :=
  let heap := heap.setQuery q { heap.query q with respSize := data.length }
  if data.length > registerQueryMaxInline then
    match heap.valueBuffer q with
    | .error fault => .error fault
    | .ok address => .ok { heap with bytes := Function.update heap.bytes address data }
  else .ok (heap.setQuery q { heap.query q with value := .data data })

/-- The value part of `handle_register`; the flag says that the value has changed. -/
def storeReport (allocator : Allocator) (devices : List Nat) (q : Nat) (data : List UInt8) (heap : QueryHeap) :
    Except QueryFault (Bool × QueryHeap) :=
  match heap.valueChanged q data with
  | .error fault => .error fault
  | .ok changed =>
    match heap.growValue allocator devices q data.length with
    | .error fault => .error fault
    | .ok heap =>
      match heap.storeValue q data with
      | .error fault => .error fault
      | .ok heap => .ok (changed, heap)

/-- `service_index |= 0x80`, for a register that is not marked yet. -/
def markNotImplemented (q : Nat) (heap : QueryHeap) : QueryHeap :=
  let query := heap.query q
  if query.notImplemented then heap
  else heap.setQuery q { query with serviceIndex := query.serviceIndex ||| 0x80 }

/-- `handle_register` for a report of service `idx` of the device at `d`; `commandNotImplemented` is
`JD_CMD_COMMAND_NOT_IMPLEMENTED`. The flag says that the value of a register has changed. -/
def handleRegister (allocator : Allocator) (commandNotImplemented : Nat) (devices : List Nat) (d idx : Nat)
    (pkt : RegPacket) (heap : QueryHeap) : Except QueryFault (Bool × QueryHeap) :=
  if pkt.data.length ≥ 4 ∧ pkt.serviceCommand = commandNotImplemented then
    let cmd := (pkt.data.getD 0 0).toNat + 256 * (pkt.data.getD 1 0).toNat
    if isGet cmd then
      match heap.jdServiceQueryLookup d idx (regCode cmd) with
      | .error fault => .error fault
      | .ok none => .ok (false, heap)
      | .ok (some q) => .ok (false, heap.markNotImplemented q)
    else .ok (false, heap)
  else if isGet pkt.serviceCommand then
    match heap.jdServiceQueryLookup d idx (regCode pkt.serviceCommand) with
    | .error fault => .error fault
    | .ok none => .ok (false, heap)
    | .ok (some q) => heap.storeReport allocator devices q pkt.data
  else .ok (false, heap)

/-- The queries of a device, in the order of their links. -/
def walk (heap : QueryHeap) : Nat → Option Nat → List Nat
  | limit + 1, some q => q :: walk heap limit (heap.next q)
  | _, _ => []

def queryList (d : Nat) (heap : QueryHeap) : List Nat := heap.walk heap.live.length (heap.queries d)

end QueryHeap

end Jacdac
