import Jacdac.Pipe.InputHeap

/-! Runs of the input pipes in memory: pipes are opened and closed and packets come in,
in any order, and handlers close their own pipes. Where they do not, the memory does
what the list of pipes does. -/

namespace Jacdac

namespace PipeHeap

variable {heap next : PipeHeap} {names left : List Nat} {packet : Packet} {closing : HandlerCall → Bool}

/-- The packet has the port and the counter of this pipe. -/
def Matches (packet : Packet) (heap : PipeHeap) (s : Nat) : Prop :=
  portOf (heap.counter s) = portOf packet.serviceCommand ∧ heap.counter s % 32 = packet.serviceCommand % 32

instance : Decidable (Matches packet heap s) := inferInstanceAs (Decidable (_ ∧ _))

theorem routeLoop_spec (chain : Chain heap.next head names) (enough : names.length ≤ fuel) :
    routeLoop limit closing packet heap fuel head =
      match names.find? fun s => portOf (heap.counter s) = portOf packet.serviceCommand with
      | none => some (heap, [])
      | some s =>
        if heap.counter s % 32 = packet.serviceCommand % 32 then heap.deliver limit closing packet s
        else some (heap, []) := by
  induction names generalizing head fuel with
  | nil =>
    rw [show head = none from chain]
    cases fuel <;> rfl
  | cons s rest ih =>
    obtain ⟨rfl, tail⟩ := chain
    obtain ⟨fuel, rfl⟩ := Nat.exists_eq_succ_of_ne_zero (by simp at enough; omega : fuel ≠ 0)
    rw [routeLoop, List.find?_cons]
    by_cases here : portOf (heap.counter s) = portOf packet.serviceCommand
    · simp [here]
    · rw [if_neg here, ih tail (by simpa using enough)]
      simp [here]

/-- The frame and the packet are for the input pipes of this device. -/
structure ForPipes (deviceId : List UInt8) (frame : Frame) (packet : Packet) : Prop where
  stream : packet.serviceIndex = serviceIndexStream
  addressed : Addressed deviceId frame

/-- What a packet does: a pipe accepts it, or nothing happens and none would have. -/
inductive Outcome (deviceId : List UInt8) (frame : Frame) (closing : HandlerCall → Bool) (packet : Packet)
    (heap next : PipeHeap) (names left : List Nat) (calls : List HandlerCall) : Prop where
  | ignored (same : next = heap) (stays : left = names) (silent : calls = [])
      (unmatched : ForPipes deviceId frame packet → ∀ s ∈ names, ¬ heap.Matches packet s)
  | accepted (s : Nat) (meant : ForPipes deviceId frame packet)
      (accepted : Accepted closing packet s heap next names left calls)

theorem PortsApart.handlePacket (holds : heap.PortsApart names) (enough : names.length ≤ limit)
    (deviceId : List UInt8) (frame : Frame) (closing : HandlerCall → Bool) (packet : Packet) :
    ∃ next calls left, heap.jdIpipeHandlePacket limit deviceId frame closing packet = some (next, calls) ∧
      next.PortsApart left ∧ Outcome deviceId frame closing packet heap next names left calls := by
  unfold PipeHeap.jdIpipeHandlePacket
  by_cases other : packet.serviceIndex ≠ serviceIndexStream ∨ frame.flags &&& Frame.flagCommand = 0 ∨
      frame.deviceIdentifier ≠ deviceId
  · rw [if_pos other]
    refine ⟨heap, [], names, rfl, holds, .ignored rfl rfl rfl fun meant => ?_⟩
    rcases other with index | flags | device
    · exact absurd meant.stream index
    · exact absurd flags meant.addressed.command
    · exact absurd meant.addressed.device device
  · have meant : ForPipes deviceId frame packet := by
      simp only [not_or, not_not] at other
      exact ⟨other.1, other.2.1, other.2.2⟩
    rw [if_neg other, routeLoop_spec holds.chain enough]
    cases found : names.find? fun s => decide (portOf (heap.counter s) = portOf packet.serviceCommand) with
    | none =>
      refine ⟨heap, [], names, rfl, holds, .ignored rfl rfl rfl fun _ s member matched => ?_⟩
      exact List.find?_eq_none.mp found s member (decide_eq_true matched.1)
    | some s =>
      have listed := List.mem_of_find?_eq_some found
      have port : portOf (heap.counter s) = portOf packet.serviceCommand := by simpa using List.find?_some found
      dsimp only
      by_cases counter : heap.counter s % 32 = packet.serviceCommand % 32
      · rw [if_pos counter]
        obtain ⟨next, calls, left, delivered, after, accepted⟩ := holds.deliver enough closing packet listed port counter
        exact ⟨next, calls, left, delivered, after, .accepted s meant accepted⟩
      · rw [if_neg counter]
        refine ⟨heap, [], names, rfl, holds, .ignored rfl rfl rfl fun _ other member matched => ?_⟩
        -- no other pipe is on that port
        have same := List.inj_on_of_nodup_map holds.apart member listed (matched.1.trans port.symm)
        exact counter (same ▸ matched.2)

theorem Outcome.single {calls : List HandlerCall}
    (outcome : Outcome deviceId frame closing packet heap next names left calls) : (passed calls).length ≤ 1 := by
  cases outcome with
  | ignored same stays silent unmatched =>
    rw [silent]
    exact Nat.zero_le _
  | accepted s meant accepted =>
    rw [accepted.calls, packetCall]
    cases isMetadata packet.serviceCommand <;> cases closes packet.serviceCommand <;> simp [passed, HandlerCall.packet?]

theorem Outcome.length_le {calls : List HandlerCall}
    (outcome : Outcome deviceId frame closing packet heap next names left calls) : left.length ≤ names.length := by
  cases outcome with
  | ignored same stays silent unmatched => rw [stays]
  | accepted s meant accepted =>
    rw [accepted.stays]
    split
    · exact List.length_erase_le
    · exact Nat.le_refl _

theorem pipes_erase (heap : PipeHeap) (names : List Nat) (str : Nat) :
    heap.pipes (names.erase str) = Jacdac.jdIpipeFree (heap.pipes names) str := by
  unfold pipes Jacdac.jdIpipeFree
  rw [List.eraseP_map, List.erase_eq_eraseP']
  rfl

/-- Freeing in memory is freeing on the list. -/
theorem Freed.pipes (freed : Freed heap next str (names.erase str)) (distinct : names.Nodup) :
    next.pipes (names.erase str) = Jacdac.jdIpipeFree (heap.pipes names) str := by
  rw [← pipes_erase]
  refine pipes_congr fun s member => freed.others s ?_
  rintro rfl
  exact distinct.not_mem_erase member

theorem PortsApart.open_pipes (holds : heap.PortsApart names) (enough : names.length ≤ limit)
    (opened : heap.jdIpipeOpen limit str draws = some (p, next)) :
    Jacdac.jdIpipeOpen (heap.pipes names) str draws = some (p, next.pipes (str :: names.erase str)) := by
  obtain ⟨freed, done, after⟩ := holds.free enough str
  have fewer : (names.erase str).length ≤ limit := Nat.le_trans List.length_erase_le enough
  have absent : str ∉ names.erase str := holds.nodup.not_mem_erase
  have list := after.pipes holds.nodup
  rw [PipeHeap.jdIpipeOpen, done, Option.bind_some, drawPort_spec after.holds.chain fewer, list, Option.map_map,
    Option.map_eq_some_iff] at opened
  obtain ⟨draw, found, pair⟩ := opened
  obtain ⟨rfl, same⟩ := Prod.mk.inj pair
  have counter : next.counter = (freed.setCounter str (draw % 512 * 128)).counter := by rw [← same]
  have others : ∀ s ∈ names.erase str, next.counter s = freed.counter s := by
    intro s member
    rw [counter]
    refine setCounter_ne ?_ _ _
    rintro rfl
    exact absent member
  unfold Jacdac.jdIpipeOpen
  dsimp only
  rw [found, setCounter_self, portOf_shift, pipes_cons, counter, setCounter_self, pipes_congr others, list]

theorem routePacket_split {before after : List IPipe} {pipe : IPipe}
    (early : ∀ other ∈ before, portOf other.counter ≠ portOf packet.serviceCommand) :
    routePacket packet (before ++ pipe :: after) =
      (before ++ (routePacket packet (pipe :: after)).1, (routePacket packet (pipe :: after)).2) := by
  induction before with
  | nil => rfl
  | cons other rest ih =>
    rw [List.cons_append, routePacket, if_neg (early other List.mem_cons_self),
      ih fun pipe member => early pipe (List.mem_cons_of_mem _ member)]
    rfl

/-- A pipe that its handlers do not close takes a packet as the list does. -/
theorem Accepted.routePacket {calls : List HandlerCall} (holds : heap.PortsApart names)
    (accepted : Accepted closing packet s heap next names left calls) (stays : closing (packetCall s packet) = false) :
    Jacdac.routePacket packet (heap.pipes names) = (next.pipes left, calls) := by
  obtain ⟨before, after, rfl⟩ := List.append_of_mem accepted.listed
  have distinct := holds.nodup
  have apart : ∀ other ∈ before ++ after, other ≠ s := by
    rintro other member rfl
    exact (List.nodup_cons.mp (List.nodup_middle.mp distinct)).1 member
  have erased : (before ++ s :: after).erase s = before ++ after := by
    rw [List.erase_append_right _ fun early => apart s (List.mem_append_left _ early) rfl, List.erase_cons_head]
  have early : ∀ pipe ∈ heap.pipes before, portOf pipe.counter ≠ portOf packet.serviceCommand := by
    intro pipe member same
    obtain ⟨other, listed, rfl⟩ := List.mem_map.mp member
    have ports := holds.apart
    rw [List.map_append, List.map_cons] at ports
    refine (List.nodup_append.mp ports).2.2 _ (List.mem_map_of_mem listed) _ List.mem_cons_self ?_
    exact same.trans accepted.port.symm
  have others : ∀ names ⊆ before ++ after, next.pipes names = heap.pipes names := fun names fewer =>
    pipes_congr fun other member => accepted.others other (apart other (fewer member))
  have split : heap.pipes (before ++ s :: after) = heap.pipes before ++ ⟨s, heap.counter s⟩ :: heap.pipes after := by
    simp [pipes]
  have call : (if isMetadata packet.serviceCommand = true then HandlerCall.metaHandler s packet
      else HandlerCall.handler s packet) = packetCall s packet := rfl
  rw [split, routePacket_split early, Jacdac.routePacket, if_pos accepted.port, if_pos accepted.counter]
  dsimp only
  rw [call, accepted.calls]
  have list := accepted.stays
  rw [stays, erased] at list
  by_cases last : closes packet.serviceCommand = true
  · rw [if_pos (.inl last)] at list
    rw [if_pos last, if_pos last, list, others _ (List.Subset.refl _)]
    simp [pipes]
  · rw [if_neg (by simp [last])] at list
    have moved : next.counter s = nextCounter (heap.counter s) := by
      obtain ⟨lower, upper⟩ := accepted.advanced (by rw [list]; simp)
      unfold nextCounter
      omega
    have whole : next.pipes (before ++ s :: after) = next.pipes before ++ ⟨s, next.counter s⟩ :: next.pipes after := by
      simp [pipes]
    rw [if_neg last, if_neg last, list, whole, moved, others _ (List.subset_append_left _ _),
      others _ (List.subset_append_right _ _)]

end PipeHeap

/-- Runs from an empty list; `opens` is the number of pipes that were opened so far, and no loop
visits more descriptors. -/
inductive InputRun (deviceId : List UInt8) : Nat → PipeHeap → Prop where
  | init (heap : PipeHeap) (empty : heap.ipipes = none) : InputRun deviceId 0 heap
  | open (run : InputRun deviceId opens heap) (str : Nat) (draws : List Nat)
      (done : heap.jdIpipeOpen opens str draws = some (p, next)) : InputRun deviceId (opens + 1) next
  | close (run : InputRun deviceId opens heap) (str : Nat) (done : heap.jdIpipeFree opens str = some next) :
      InputRun deviceId opens next
  | packet (run : InputRun deviceId opens heap) (frame : Frame) (closing : HandlerCall → Bool) (packet : Packet)
      (done : heap.jdIpipeHandlePacket opens deviceId frame closing packet = some (next, calls)) :
      InputRun deviceId opens next

theorem InputRun.holds (run : InputRun deviceId opens heap) :
    ∃ names, heap.PortsApart names ∧ names.length ≤ opens := by
  induction run with
  | init heap empty => exact ⟨[], ⟨empty, List.nodup_nil, fun s member => (List.not_mem_nil member).elim⟩, Nat.le_refl 0⟩
  | «open» run str draws done ih =>
    obtain ⟨names, holds, enough⟩ := ih
    refine ⟨_, (holds.open enough done).1, ?_⟩
    exact Nat.succ_le_succ (Nat.le_trans List.length_erase_le enough)
  | close run str done ih =>
    obtain ⟨names, holds, enough⟩ := ih
    obtain ⟨next, freed, after⟩ := holds.free enough str
    obtain rfl := Option.some.inj (freed.symm.trans done)
    exact ⟨_, after.holds, Nat.le_trans List.length_erase_le enough⟩
  | packet run frame closing packet done ih =>
    obtain ⟨names, holds, enough⟩ := ih
    obtain ⟨next, calls, left, handled, after, outcome⟩ := holds.handlePacket enough _ frame closing packet
    obtain ⟨rfl, _⟩ := Prod.mk.inj (Option.some.inj (handled.symm.trans done))
    exact ⟨left, after, Nat.le_trans outcome.length_le enough⟩

/-- Input pipes are isolated from each other: the listed ones are on ports of their own, and a packet
is for one of them at most. -/
theorem input_pipes_isolated {heap : PipeHeap} (run : InputRun deviceId opens heap) :
    ∃ names, heap.PortsApart names ∧ names.Nodup ∧
      ∀ (frame : Frame) (closing : HandlerCall → Bool) (packet : Packet), ∃ next calls left,
        heap.jdIpipeHandlePacket opens deviceId frame closing packet = some (next, calls) ∧
        next.PortsApart left ∧ (passed calls).length ≤ 1 ∧
        PipeHeap.Outcome deviceId frame closing packet heap next names left calls := by
  obtain ⟨names, holds, enough⟩ := run.holds
  refine ⟨names, holds, holds.nodup, fun frame closing packet => ?_⟩
  obtain ⟨next, calls, left, handled, after, outcome⟩ := holds.handlePacket enough deviceId frame closing packet
  exact ⟨next, calls, left, handled, after, outcome.single, outcome⟩

def noPipes : PipeHeap := ⟨none, fun _ => none, fun _ => 0⟩

/-- The second pipe draws the port of the first before one of its own. -/
theorem twoPipes_run : ∃ heap, InputRun [] 2 heap ∧ heap.ipipes = some 2 ∧ heap.next 2 = some 1 ∧
    heap.counter 1 = 640 ∧ heap.counter 2 = 896 :=
  ⟨_, .open (.open (.init noPipes rfl) 1 [5] rfl) 2 [5, 7] rfl, rfl, rfl, rfl, rfl⟩

theorem input_pipes_isolated_two : ∃ heap, InputRun [] 2 heap ∧ ∃ names, heap.PortsApart names ∧ names.Nodup := by
  obtain ⟨heap, run, _⟩ := twoPipes_run
  obtain ⟨names, holds, distinct, _⟩ := input_pipes_isolated run
  exact ⟨heap, run, names, holds, distinct⟩

end Jacdac
