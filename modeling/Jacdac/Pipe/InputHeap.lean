import Jacdac.Base.Chain
import Jacdac.Pipe.Input

/-! The input pipes of `jd_ipipe.c` as they are in memory: descriptors by their address,
linked from `ipipes`, where a handler may close the pipe that it was called for. Every
loop over the list takes the number of descriptors that it may visit; `none` means that
it would have gone on. -/

namespace Jacdac

structure PipeHeap where
  ipipes : Option Nat
  next : Nat → Option Nat
  counter : Nat → Nat

def HandlerCall.name : HandlerCall → Nat
  | .handler name _ => name
  | .metaHandler name _ => name
  | .eof name => name

namespace PipeHeap

def setCounter (str value : Nat) (heap : PipeHeap) : PipeHeap :=
  { heap with counter := Function.update heap.counter str value }

@[simp] theorem setCounter_self (str value : Nat) (heap : PipeHeap) : (heap.setCounter str value).counter str = value :=
  Function.update_self ..

theorem setCounter_ne (apart : other ≠ str) (value : Nat) (heap : PipeHeap) :
    (heap.setCounter str value).counter other = heap.counter other := Function.update_of_ne apart _ _

/-- The list part of `jd_ipipe_free`. -/
def unlink (limit str : Nat) (heap : PipeHeap) : Option PipeHeap :=
  if heap.ipipes = some str then some { heap with ipipes := heap.next str }
  else
    match findLink heap.next str limit heap.ipipes with
    | none => none
    | some none => some heap
    | some (some ss) => some { heap with next := Function.update heap.next ss (heap.next str) }

/-- `jd_ipipe_free`, and so `jd_ipipe_close`. -/
def jdIpipeFree (limit str : Nat) (heap : PipeHeap) : Option PipeHeap :=
  (heap.unlink limit str).map (setCounter str 0)

/-- The loop of `is_free_port`. -/
def freeLoop (p : Nat) (heap : PipeHeap) : Nat → Option Nat → Option Bool
  | _, none => some true
  | 0, some _ => none
  | limit + 1, some ss =>
    if portOf (heap.counter ss) = p then some false else freeLoop p heap limit (heap.next ss)

def isFreePort (limit p : Nat) (heap : PipeHeap) : Option Bool :=
  if p = 0 then some false else freeLoop p heap limit heap.ipipes

/-- The loop of `jd_ipipe_open`, given what `jd_random` returns from now on; it does not end
where no free port comes up. -/
def drawPort (limit : Nat) (heap : PipeHeap) : List Nat → Option Nat
  | [] => none
  | draw :: rest =>
    match heap.isFreePort limit (draw % 512) with
    | none => none
    | some true => some (draw % 512)
    | some false => drawPort limit heap rest

def jdIpipeOpen (limit str : Nat) (draws : List Nat) (heap : PipeHeap) : Option (Nat × PipeHeap) :=
  (heap.jdIpipeFree limit str).bind fun heap =>
    (heap.drawPort limit draws).map fun p =>
      let heap := heap.setCounter str (p * 128)
      (portOf (heap.counter str), { heap with next := Function.update heap.next str heap.ipipes, ipipes := some str })

/-- A call of a handler; `closing` says in which of them the pipe is closed. -/
def callHandler (limit : Nat) (closing : HandlerCall → Bool) (call : HandlerCall) (heap : PipeHeap) : Option PipeHeap :=
  if closing call then heap.jdIpipeFree limit call.name else some heap

def packetCall (str : Nat) (packet : Packet) : HandlerCall :=
  if isMetadata packet.serviceCommand then .metaHandler str packet else .handler str packet

/-- What `jd_ipipe_handle_packet` does for the pipe that accepts the packet. -/
def deliver (limit : Nat) (closing : HandlerCall → Bool) (packet : Packet) (s : Nat) (heap : PipeHeap) :
    Option (PipeHeap × List HandlerCall) :=
  ((heap.setCounter s (nextCounter (heap.counter s))).callHandler limit closing (packetCall s packet)).bind fun heap =>
    if closes packet.serviceCommand then
      (heap.callHandler limit closing (.eof s)).bind fun heap =>
        (heap.jdIpipeFree limit s).map (·, [packetCall s packet, .eof s])
    else some (heap, [packetCall s packet])

/-- The loop of `jd_ipipe_handle_packet`. -/
def routeLoop (limit : Nat) (closing : HandlerCall → Bool) (packet : Packet) (heap : PipeHeap) :
    Nat → Option Nat → Option (PipeHeap × List HandlerCall)
  | _, none => some (heap, [])
  | 0, some _ => none
  | fuel + 1, some s =>
    if portOf (heap.counter s) = portOf packet.serviceCommand then
      if heap.counter s % 32 = packet.serviceCommand % 32 then heap.deliver limit closing packet s
      else some (heap, [])
    else routeLoop limit closing packet heap fuel (heap.next s)

/-- `jd_ipipe_handle_packet` on the device `deviceId`. -/
def jdIpipeHandlePacket (limit : Nat) (deviceId : List UInt8) (frame : Frame) (closing : HandlerCall → Bool)
    (packet : Packet) (heap : PipeHeap) : Option (PipeHeap × List HandlerCall) :=
  if packet.serviceIndex ≠ serviceIndexStream ∨ frame.flags &&& Frame.flagCommand = 0 ∨
      frame.deviceIdentifier ≠ deviceId then some (heap, [])
  else routeLoop limit closing packet heap limit heap.ipipes

/-- The list in memory: these descriptors, each on a port of its own. -/
structure PortsApart (heap : PipeHeap) (names : List Nat) : Prop where
  chain : Chain heap.next heap.ipipes names
  apart : (names.map fun s => portOf (heap.counter s)).Nodup
  range : ∀ s ∈ names, 1 ≤ portOf (heap.counter s) ∧ portOf (heap.counter s) ≤ 511

variable {heap next : PipeHeap} {names : List Nat} {str s limit : Nat}

def pipes (heap : PipeHeap) (names : List Nat) : List IPipe := names.map fun s => ⟨s, heap.counter s⟩

theorem pipes_cons (heap : PipeHeap) (s : Nat) (names : List Nat) :
    heap.pipes (s :: names) = ⟨s, heap.counter s⟩ :: heap.pipes names := rfl

theorem pipes_congr (same : ∀ s ∈ names, next.counter s = heap.counter s) : next.pipes names = heap.pipes names :=
  List.map_congr_left fun s member => by rw [same s member]

theorem PortsApart.nodup (holds : heap.PortsApart names) : names.Nodup := holds.chain.nodup

/-- The counters are those of other pipes, and the list has become this one. -/
structure Freed (heap next : PipeHeap) (str : Nat) (left : List Nat) : Prop where
  holds : next.PortsApart left
  zero : next.counter str = 0
  others : ∀ other ≠ str, next.counter other = heap.counter other

theorem PortsApart.sublist (holds : heap.PortsApart names) {left : List Nat} (chain : Chain next.next next.ipipes left)
    (fewer : left.Sublist names) (same : ∀ s ∈ left, next.counter s = heap.counter s) : next.PortsApart left := by
  have ports : left.map (fun s => portOf (next.counter s)) = left.map fun s => portOf (heap.counter s) :=
    List.map_congr_left fun s member => by rw [same s member]
  refine ⟨chain, ?_, fun s member => ?_⟩
  · rw [ports]
    exact holds.apart.sublist (fewer.map _)
  · rw [same s member]
    exact holds.range s (fewer.subset member)

/-- Freeing takes the descriptor out of the list, if it is there. -/
theorem PortsApart.free (holds : heap.PortsApart names) (enough : names.length ≤ limit) (str : Nat) :
    ∃ next, heap.jdIpipeFree limit str = some next ∧ Freed heap next str (names.erase str) := by
  have distinct := holds.nodup
  have freed : ∀ {next : PipeHeap}, heap.unlink limit str = some next → next.counter = heap.counter →
      Chain next.next next.ipipes (names.erase str) →
      ∃ next, heap.jdIpipeFree limit str = some next ∧ Freed heap next str (names.erase str) := by
    intro next unlinked counter chain
    have others : ∀ other ≠ str, (next.setCounter str 0).counter other = heap.counter other := by
      intro other apart
      rw [setCounter_ne apart, counter]
    refine ⟨next.setCounter str 0, by rw [jdIpipeFree, unlinked]; rfl, ?_, setCounter_self .., others⟩
    refine holds.sublist chain List.erase_sublist fun s member => others s ?_
    rintro rfl
    exact distinct.not_mem_erase member
  by_cases member : str ∈ names
  · obtain ⟨before, after, rfl⟩ := List.append_of_mem member
    have absent : str ∉ before := fun early =>
      (List.nodup_append.mp distinct).2.2 str early str List.mem_cons_self rfl
    have erased : (before ++ str :: after).erase str = before ++ after := by
      rw [List.erase_append_right _ absent, List.erase_cons_head]
    rw [erased] at freed ⊢
    rcases holds.chain.unlink with ⟨first, rest⟩ | ⟨behind, previous, found, rest⟩
    · exact freed (if_pos first) rfl rest
    · have unlinked : heap.unlink limit str =
          some { heap with next := Function.update heap.next previous (heap.next str) } := by
        rw [unlink, if_neg behind, found limit enough]
      exact freed unlinked rfl rest
  · have behind : heap.ipipes ≠ some str := by
      intro first
      have start := holds.chain.head_eq
      rw [first] at start
      exact member (List.mem_of_head? start.symm)
    have erased := List.erase_of_not_mem member
    rw [erased] at freed ⊢
    refine freed ?_ rfl holds.chain
    rw [unlink, if_neg behind, findLink_absent holds.chain member enough]

theorem freeLoop_spec (chain : Chain heap.next head names) (enough : names.length ≤ limit) (p : Nat) :
    freeLoop p heap limit head = some (decide (∀ pipe ∈ heap.pipes names, portOf pipe.counter ≠ p)) := by
  induction names generalizing head limit with
  | nil =>
    rw [show head = none from chain, freeLoop]
    simp [pipes]
  | cons s rest ih =>
    obtain ⟨rfl, tail⟩ := chain
    obtain ⟨limit, rfl⟩ := Nat.exists_eq_succ_of_ne_zero (by simp at enough; omega : limit ≠ 0)
    rw [freeLoop]
    by_cases taken : portOf (heap.counter s) = p
    · simp [taken, pipes]
    · rw [if_neg taken, ih tail (by simpa using enough)]
      simp [taken, pipes]

theorem isFreePort_spec (chain : Chain heap.next heap.ipipes names) (enough : names.length ≤ limit) (p : Nat) :
    heap.isFreePort limit p = some (Jacdac.isFreePort (heap.pipes names) p) := by
  rw [PipeHeap.isFreePort, Jacdac.isFreePort, freeLoop_spec chain enough]
  by_cases zero : p = 0
  · simp [zero]
  · simp [zero]

/-- The loop takes the first number that gives a free port. -/
theorem drawPort_spec (chain : Chain heap.next heap.ipipes names) (enough : names.length ≤ limit) (draws : List Nat) :
    heap.drawPort limit draws =
      (draws.find? fun draw => Jacdac.isFreePort (heap.pipes names) (draw % 512)).map (· % 512) := by
  induction draws with
  | nil => rfl
  | cons draw rest ih =>
    rw [drawPort, isFreePort_spec chain enough, List.find?_cons]
    cases Jacdac.isFreePort (heap.pipes names) (draw % 512) with
    | true => rfl
    | false => exact ih

theorem PortsApart.draw (holds : heap.PortsApart names) (enough : names.length ≤ limit) (draws : List Nat)
    (drawn : heap.drawPort limit draws = some p) :
    p ≠ 0 ∧ p < 512 ∧ ∀ s ∈ names, portOf (heap.counter s) ≠ p := by
  rw [drawPort_spec holds.chain enough, Option.map_eq_some_iff] at drawn
  obtain ⟨draw, found, rfl⟩ := drawn
  have unused := List.find?_some found
  simp only [Jacdac.isFreePort, decide_eq_true_eq] at unused
  exact ⟨unused.1, Nat.mod_lt _ (Nat.zero_lt_succ _), fun s member => unused.2 _ (List.mem_map_of_mem member)⟩

theorem portOf_shift (p : Nat) : portOf (p * 128) = p := Nat.mul_div_cancel p (Nat.zero_lt_succ _)

/-- An opened pipe is the first in the list, and its port is that of no other pipe. -/
theorem PortsApart.open (holds : heap.PortsApart names) (enough : names.length ≤ limit)
    (opened : heap.jdIpipeOpen limit str draws = some (p, next)) :
    next.PortsApart (str :: names.erase str) ∧ portOf (next.counter str) = p := by
  obtain ⟨freed, done, left, zero, others⟩ := holds.free enough str
  have fewer : (names.erase str).length ≤ limit := Nat.le_trans List.length_erase_le enough
  have absent : str ∉ names.erase str := holds.nodup.not_mem_erase
  rw [jdIpipeOpen, done, Option.bind_some, Option.map_eq_some_iff] at opened
  obtain ⟨port, drawn, pair⟩ := opened
  obtain ⟨positive, small, unused⟩ := left.draw fewer draws drawn
  obtain ⟨rfl, rfl⟩ := Prod.mk.inj pair
  have rest : ∀ s ∈ names.erase str, (freed.setCounter str (port * 128)).counter s = freed.counter s := by
    refine fun s member => setCounter_ne ?_ _ _
    rintro rfl
    exact absent member
  have ports : (names.erase str).map (fun s => portOf ((freed.setCounter str (port * 128)).counter s)) =
      (names.erase str).map fun s => portOf (freed.counter s) :=
    List.map_congr_left fun s member => by rw [rest s member]
  refine ⟨⟨left.chain.push absent, ?_, fun s member => ?_⟩, rfl⟩
  · dsimp only
    rw [List.map_cons, setCounter_self, portOf_shift, ports]
    refine List.nodup_cons.mpr ⟨fun member => ?_, left.apart⟩
    obtain ⟨s, listed, same⟩ := List.mem_map.mp member
    exact unused s listed same
  · dsimp only
    rcases List.mem_cons.mp member with rfl | listed
    · rw [setCounter_self, portOf_shift]
      omega
    · rw [rest s listed]
      exact left.range s listed

theorem PortsApart.advance (holds : heap.PortsApart names) (s : Nat) :
    (heap.setCounter s (nextCounter (heap.counter s))).PortsApart names := by
  have ports : ∀ other, portOf ((heap.setCounter s (nextCounter (heap.counter s))).counter other) =
      portOf (heap.counter other) := by
    intro other
    by_cases same : other = s
    · rw [same, setCounter_self, portOf_nextCounter]
    · rw [setCounter_ne same]
  refine ⟨holds.chain, ?_, fun other member => ?_⟩
  · simp only [ports]
    exact holds.apart
  · rw [ports]
    exact holds.range other member

/-- A handler leaves the list, or takes its own pipe out. -/
theorem PortsApart.callHandler (holds : heap.PortsApart names) (enough : names.length ≤ limit)
    (closing : HandlerCall → Bool) (call : HandlerCall) :
    ∃ next, heap.callHandler limit closing call = some next ∧
      next.PortsApart (if closing call then names.erase call.name else names) ∧
      (closing call = false → next = heap) ∧ ∀ other ≠ call.name, next.counter other = heap.counter other := by
  unfold PipeHeap.callHandler
  cases closing call with
  | false => exact ⟨heap, rfl, holds, fun _ => rfl, fun _ _ => rfl⟩
  | true =>
    obtain ⟨next, freed, left, _, others⟩ := holds.free enough call.name
    exact ⟨next, freed, left, nofun, others⟩

theorem packetCall_name (s : Nat) (packet : Packet) : (packetCall s packet).name = s := by
  unfold packetCall
  split <;> rfl

/-- What an accepted packet does: it goes to the handlers of this pipe, whose counter goes on if it
stays in the list; the other pipes stay as they are. -/
structure Accepted (closing : HandlerCall → Bool) (packet : Packet) (s : Nat) (heap next : PipeHeap)
    (names left : List Nat) (calls : List HandlerCall) : Prop where
  listed : s ∈ names
  port : portOf (heap.counter s) = portOf packet.serviceCommand
  counter : heap.counter s % 32 = packet.serviceCommand % 32
  calls : calls = packetCall s packet :: if closes packet.serviceCommand then [.eof s] else []
  stays : left = if closes packet.serviceCommand ∨ closing (packetCall s packet) then names.erase s else names
  advanced : s ∈ left → next.counter s % 32 = (heap.counter s + 1) % 32 ∧ next.counter s / 32 = heap.counter s / 32
  others : ∀ other ≠ s, next.counter other = heap.counter other

theorem nextCounter_upper (counter : Nat) : nextCounter counter / 32 = counter / 32 := by
  unfold nextCounter
  omega

theorem PortsApart.deliver (holds : heap.PortsApart names) (enough : names.length ≤ limit)
    (closing : HandlerCall → Bool) (packet : Packet) (listed : s ∈ names)
    (port : portOf (heap.counter s) = portOf packet.serviceCommand)
    (counter : heap.counter s % 32 = packet.serviceCommand % 32) :
    ∃ next calls left, heap.deliver limit closing packet s = some (next, calls) ∧ next.PortsApart left ∧
      Accepted closing packet s heap next names left calls := by
  obtain ⟨first, called, middle, same, others⟩ :=
    (holds.advance s).callHandler enough closing (packetCall s packet)
  rw [packetCall_name] at middle others
  have fewer : (if closing (packetCall s packet) then names.erase s else names).length ≤ limit := by
    split
    · exact Nat.le_trans List.length_erase_le enough
    · exact enough
  have advance : ∀ other ≠ s, first.counter other = heap.counter other := fun other apart =>
    (others other apart).trans (setCounter_ne apart _ _)
  rw [PipeHeap.deliver, called, Option.bind_some]
  by_cases last : closes packet.serviceCommand = true
  · obtain ⟨second, eof, behind, _, kept⟩ := middle.callHandler fewer closing (.eof s)
    have short : (if closing (.eof s) then (if closing (packetCall s packet) then names.erase s else names).erase s
        else if closing (packetCall s packet) then names.erase s else names).length ≤ limit := by
      split
      · exact Nat.le_trans List.length_erase_le fewer
      · exact fewer
    obtain ⟨next, freed, final, _, rest⟩ := behind.free short s
    -- however often the pipe was closed before, it is gone now
    have gone : (if closing (.eof s) then (if closing (packetCall s packet) then names.erase s else names).erase s
        else if closing (packetCall s packet) then names.erase s else names).erase s = names.erase s := by
      have once : (names.erase s).erase s = names.erase s := List.erase_of_not_mem holds.nodup.not_mem_erase
      cases closing (packetCall s packet) <;> cases closing (.eof s) <;> simp [once]
    rw [show (HandlerCall.eof s).name = s from rfl, gone] at final
    rw [if_pos last, eof, Option.bind_some, freed]
    refine ⟨next, _, _, rfl, final, listed, port, counter, by rw [if_pos last], by rw [if_pos (.inl last)], ?_, ?_⟩
    · exact fun member => absurd member holds.nodup.not_mem_erase
    · exact fun other apart => (rest other apart).trans ((kept other apart).trans (advance other apart))
  · rw [if_neg last]
    refine ⟨first, _, _, rfl, middle, listed, port, counter, by rw [if_neg last], by simp [last], ?_, advance⟩
    intro member
    cases closed : closing (packetCall s packet) with
    | true =>
      rw [closed] at member
      exact absurd member holds.nodup.not_mem_erase
    | false =>
      rw [same closed, setCounter_self]
      exact ⟨nextCounter_mod _, nextCounter_upper _⟩

end PipeHeap

end Jacdac
