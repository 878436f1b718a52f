import Mathlib.Data.List.Nodup
import Jacdac.Client.DeviceRefinement

/-! The order of the device list: the own device first, all others by their
identifiers, and no identifier twice. -/

namespace Jacdac

theorem littleEndian_inj (first second : Nat) (small : first < 256 ^ count) (other : second < 256 ^ count)
    (same : littleEndian count first = littleEndian count second) : first = second := by
  have values := congrArg fromLittle same
  rwa [fromLittle_littleEndian, fromLittle_littleEndian, Nat.mod_eq_of_lt small, Nat.mod_eq_of_lt other] at values

namespace DeviceHeap

theorem memcmpLess_irrefl (identifier : Nat) : ¬ memcmpLess identifier identifier := List.lt_irrefl _

theorem memcmpLess_trans (less : memcmpLess first second) (more : memcmpLess second third) :
    memcmpLess first third := List.lt_trans less more

theorem memcmpLess_total (small : first < 2 ^ 64) (other : second < 2 ^ 64) (apart : first ≠ second)
    (notLess : ¬ memcmpLess first second) : memcmpLess second first := by
  have ge : littleEndian 8 second ≤ littleEndian 8 first := List.not_lt.mp notLess
  by_contra notMore
  have le : littleEndian 8 first ≤ littleEndian 8 second := List.not_lt.mp notMore
  exact apart (littleEndian_inj first second small other (List.le_antisymm le ge))

/-- The identifiers of devices that may follow each other. -/
def Before (config : ClientConfig) (first second : Nat) : Prop :=
  second ≠ config.deviceId ∧ (first = config.deviceId ∨ memcmpLess first second)

variable {config : ClientConfig}

theorem Before.trans (first : Before config one two) (second : Before config two three) : Before config one three := by
  refine ⟨second.1, first.2.imp_right fun less => ?_⟩
  exact memcmpLess_trans less (second.2.resolve_left first.1)

theorem Before.ne (before : Before config first second) : first ≠ second := by
  rintro rfl
  exact memcmpLess_irrefl first (before.2.resolve_left before.1)

/-- The devices are in order. -/
structure Ordered (config : ClientConfig) (devices : List Device) : Prop where
  sorted : devices.Pairwise fun first second => Before config first.deviceIdentifier second.deviceIdentifier
  small : ∀ device ∈ devices, device.deviceIdentifier < 2 ^ 64

namespace Ordered

theorem init : Ordered config [] := ⟨.nil, nofun⟩

variable {devices : List Device}

theorem sublist (ordered : Ordered config devices) (fewer : others.Sublist devices) : Ordered config others :=
  ⟨ordered.sorted.sublist fewer, fun device member => ordered.small device (fewer.subset member)⟩

theorem of_outline (ordered : Ordered config devices)
    (same : others.map Device.outline = devices.map Device.outline) : Ordered config others := by
  have identifiers : others.map (·.deviceIdentifier) = devices.map (·.deviceIdentifier) := by
    have second := congrArg (List.map fun entry => entry.2.deviceIdentifier) same
    rwa [List.map_map, List.map_map] at second
  have sorted : (devices.map (·.deviceIdentifier)).Pairwise (Before config) := List.pairwise_map.mpr ordered.sorted
  rw [← identifiers] at sorted
  refine ⟨List.pairwise_map.mp sorted, fun device member => ?_⟩
  have outlined := List.mem_map_of_mem (f := Device.outline) member
  rw [same] at outlined
  obtain ⟨other, present, matching⟩ := List.mem_map.mp outlined
  have identifier : other.deviceIdentifier = device.deviceIdentifier :=
    congrArg (fun entry : Nat × DeviceNode => entry.2.deviceIdentifier) matching
  exact identifier ▸ ordered.small other present

theorem nodup (ordered : Ordered config devices) : (devices.map (·.deviceIdentifier)).Nodup :=
  List.pairwise_map.mpr (ordered.sorted.imp Before.ne)

theorem before_of_fits {existing fresh : Device} (apart : existing.deviceIdentifier ≠ fresh.deviceIdentifier)
    (fits : Device.fitsBefore config existing fresh = true) :
    Before config fresh.deviceIdentifier existing.deviceIdentifier := by
  rcases of_decide_eq_true fits with own | ⟨other, less⟩
  · exact ⟨fun same => apart (same.trans own.symm), .inl own⟩
  · exact ⟨other, .inr less⟩

theorem before_of_not_fits {existing fresh : Device} (apart : existing.deviceIdentifier ≠ fresh.deviceIdentifier)
    (small : existing.deviceIdentifier < 2 ^ 64) (smallFresh : fresh.deviceIdentifier < 2 ^ 64)
    (fits : ¬ Device.fitsBefore config existing fresh = true) :
    Before config existing.deviceIdentifier fresh.deviceIdentifier := by
  obtain ⟨other, notLess⟩ := not_or.mp fun holds => fits (decide_eq_true holds)
  refine ⟨other, or_iff_not_imp_left.mpr fun foreign => ?_⟩
  exact memcmpLess_total smallFresh small apart.symm fun less => notLess ⟨foreign, less⟩

theorem insert {fresh : Device} (ordered : Ordered config devices) (small : fresh.deviceIdentifier < 2 ^ 64)
    (absent : ∀ device ∈ devices, device.deviceIdentifier ≠ fresh.deviceIdentifier) :
    Ordered config (Device.insert config fresh devices) := by
  refine ⟨?_, fun device member => ?_⟩
  · induction devices with
    | nil => exact List.pairwise_singleton _ _
    | cons existing rest ih =>
      obtain ⟨first, others⟩ := List.pairwise_cons.mp ordered.sorted
      have apart := absent existing List.mem_cons_self
      unfold Device.insert
      split
      · rename_i fits
        have before := before_of_fits apart fits
        refine List.pairwise_cons.mpr ⟨fun other member => ?_, ordered.sorted⟩
        rcases List.mem_cons.mp member with rfl | later
        · exact before
        · exact before.trans (first other later)
      · rename_i fits
        refine List.pairwise_cons.mpr ⟨fun other member => ?_, ?_⟩
        · rcases ClientState.mem_insert.mp member with rfl | later
          · exact before_of_not_fits apart (ordered.small existing List.mem_cons_self) small fits
          · exact first other later
        · exact ih (ordered.sublist (List.sublist_cons_self existing rest))
            fun device member => absent device (List.mem_cons_of_mem _ member)
  · rcases ClientState.mem_insert.mp member with rfl | present
    · exact small
    · exact ordered.small device present

/-- Stores that keep the identifiers. -/
theorem map (ordered : Ordered config devices) (update : Device → Device)
    (kept : ∀ device, (update device).deviceIdentifier = device.deviceIdentifier) :
    Ordered config (devices.map update) := by
  refine ⟨List.pairwise_map.mpr (ordered.sorted.imp ?_), fun device member => ?_⟩
  · intro first second before
    rwa [kept, kept]
  · obtain ⟨other, present, rfl⟩ := List.mem_map.mp member
    exact kept other ▸ ordered.small other present

theorem deviceAlloc {state : ClientState} (ordered : Ordered config state.devices) (allocator : Allocator) (now : Nat)
    (pkt : BusPacket) (absent : ∀ device ∈ state.devices, device.deviceIdentifier ≠ pkt.deviceIdentifier) :
    Ordered config (state.jdDeviceAlloc config allocator now pkt.toClientPacket).devices :=
  ordered.insert pkt.identifier_lt absent

/-- A device that is dropped takes its identifier with it. -/
theorem dropDevice {state : ClientState} {dev : Device} (ordered : Ordered config state.devices)
    (addresses : (Device.addresses state.devices).Nodup) (member : dev ∈ state.devices) :
    Ordered config (state.dropDevice dev).devices ∧
      ∀ device ∈ (state.dropDevice dev).devices, device.deviceIdentifier ≠ dev.deviceIdentifier := by
  obtain ⟨before, after, split⟩ := List.append_of_mem member
  have outlines : (state.dropDevice dev).devices.map Device.outline = (before ++ after).map Device.outline := by
    rw [← Device.unlink_middle before after dev (split ▸ addresses), ← split, Device.unlink_outline]
    exact state.dropDevice_outlines dev
  have fewer : (before ++ after).Sublist state.devices := by
    rw [split]
    exact (List.sublist_cons_self dev after).append_left before
  refine ⟨(ordered.sublist fewer).of_outline outlines, fun device present same => ?_⟩
  have distinct := ordered.nodup
  rw [split, List.map_append, List.map_cons] at distinct
  have outlined := List.mem_map_of_mem (f := Device.outline) present
  rw [outlines] at outlined
  obtain ⟨other, left, matching⟩ := List.mem_map.mp outlined
  have identifier : other.deviceIdentifier = dev.deviceIdentifier :=
    (congrArg (fun entry : Nat × DeviceNode => entry.2.deviceIdentifier) matching).trans same
  refine (List.nodup_middle.mp distinct).notMem ?_
  rw [← identifier, ← List.map_append]
  exact List.mem_map_of_mem left

theorem handlePacket {state : ClientState} (ordered : Ordered config state.devices)
    (addresses : (Device.addresses state.devices).Nodup) (allocator : Allocator) (now : Nat) (pkt : BusPacket) :
    Ordered config (state.jdClientHandlePacket config allocator now pkt.toClientPacket).devices := by
  unfold ClientState.jdClientHandlePacket
  split
  · exact ordered
  · split
    · dsimp only
      split
      · rename_i missing
        refine ordered.deviceAlloc allocator now pkt fun device member => ?_
        simpa using List.find?_eq_none.mp missing device member
      · rename_i dev found
        have member : dev ∈ state.devices := Device.lookup_mem found
        have identifier : dev.deviceIdentifier = pkt.deviceIdentifier := by simpa using List.find?_some found
        split
        · obtain ⟨left, absent⟩ := ordered.dropDevice addresses member
          exact left.deviceAlloc allocator now pkt (identifier ▸ absent)
        · refine ordered.map _ fun device => ?_
          split <;> rfl
    · exact ordered

theorem gc {state : ClientState} (ordered : Ordered config state.devices)
    (addresses : (Device.addresses state.devices).Nodup) (now : Nat) :
    Ordered config (state.jdDeviceGc now).devices :=
  (ordered.sublist (Device.gcKept_sublist now state.devices)).of_outline (state.gc_outlines now addresses)

end Ordered

end DeviceHeap

/-- Received packets and garbage collections, from the start of the client. The
loops may visit at least as many devices as there are in memory. -/
inductive DeviceRun (config : ClientConfig) : DeviceHeap → Prop where
  | init : DeviceRun config .init
  | packet (run : DeviceRun config heap) (allocator : Allocator) (now : Nat) (pkt : BusPacket)
      (enough : heap.live.length ≤ limit)
      (done : heap.jdClientHandlePacket limit config allocator now pkt.toClientPacket = some after) :
    DeviceRun config after
  | gc (run : DeviceRun config heap) (now : Nat) (enough : heap.live.length ≤ limit)
      (done : heap.jdDeviceGc limit now = some after) : DeviceRun config after

namespace DeviceHeap

variable {config : ClientConfig} {heap : DeviceHeap}

theorem Represents.length (represents : heap.Represents devices) : heap.live.length = devices.length := by
  rw [represents.live.length_eq, Device.addresses, List.length_map]

end DeviceHeap

/-- The devices in memory are those of a run of the client on lists, in order. -/
theorem DeviceRun.simulates {config : ClientConfig} {heap : DeviceHeap} (run : DeviceRun config heap) :
    ∃ state, ClientRun config state True ∧ heap.Represents state.devices ∧
      DeviceHeap.Ordered config state.devices := by
  induction run with
  | init => exact ⟨.init, .init, .init, .init⟩
  | packet run allocator now pkt enough done ih =>
    obtain ⟨state, listRun, represents, ordered⟩ := ih
    obtain ⟨after, listed, handled, refined⟩ :=
      represents.handlePacket (represents.length ▸ enough) config allocator now pkt.toClientPacket
    obtain rfl := Option.some.inj (done.symm.trans handled)
    exact ⟨_, listRun.packet listed now pkt.toClientPacket, refined, ordered.handlePacket represents.distinct listed now pkt⟩
  | gc run now enough done ih =>
    obtain ⟨state, listRun, represents, ordered⟩ := ih
    obtain ⟨after, collected, refined⟩ := represents.collect (represents.length ▸ enough) now
    obtain rfl := Option.some.inj (done.symm.trans collected)
    exact ⟨_, listRun.gc now, refined, ordered.gc represents.distinct now⟩

/-- In every run the links lead through a list that ends, with the own device
first, all others in the order of `memcmp` and no identifier twice. Every
operation ends, and `jd_device_alloc` always links the new device. -/
theorem device_list_ordered {config : ClientConfig} {heap : DeviceHeap} (run : DeviceRun config heap) :
    ∃ nodes, Chain heap.next heap.jdDevices nodes ∧
      (nodes.map fun node => (heap.node node).deviceIdentifier).Nodup ∧
      (∀ node ∈ nodes.tail, (heap.node node).deviceIdentifier ≠ config.deviceId) ∧
      ((nodes.map fun node => (heap.node node).deviceIdentifier).filter (· ≠ config.deviceId)).Pairwise
        DeviceHeap.memcmpLess ∧
      ∀ limit, heap.live.length ≤ limit →
        (∀ now, ∃ after, heap.jdDeviceGc limit now = some after) ∧
        (∀ allocator now (pkt : BusPacket), ∃ after,
          heap.jdClientHandlePacket limit config allocator now pkt.toClientPacket = some after) ∧
        ∀ allocator now (pkt : BusPacket), ∃ d after linked,
          heap.jdDeviceAlloc limit config allocator now pkt.toClientPacket = some (d, after) ∧
          Chain after.next after.jdDevices linked ∧ d ∈ linked ∧ ∀ node ∈ nodes, node ∈ linked := by
  obtain ⟨state, _, represents, ordered⟩ := run.simulates
  have identifiers : (Device.addresses state.devices).map (fun node => (heap.node node).deviceIdentifier) =
      state.devices.map (·.deviceIdentifier) := by
    rw [Device.addresses, List.map_map]
    refine List.map_congr_left fun device member => ?_
    rw [Function.comp_apply, represents.stored device member]
    rfl
  have sorted : (state.devices.map (·.deviceIdentifier)).Pairwise (DeviceHeap.Before config) :=
    List.pairwise_map.mpr ordered.sorted
  refine ⟨Device.addresses state.devices, represents.chain, ?_, ?_, ?_, fun limit enough => ⟨?_, ?_, ?_⟩⟩
  · rw [identifiers]
    exact ordered.nodup
  · intro node member
    have later := List.mem_map_of_mem (f := fun node => (heap.node node).deviceIdentifier) member
    rw [List.map_tail, identifiers] at later
    cases listed : state.devices.map (·.deviceIdentifier) with
    | nil =>
      rw [listed] at later
      cases later
    | cons first rest =>
      rw [listed] at sorted later
      exact ((List.pairwise_cons.mp sorted).1 _ later).1
  · rw [identifiers]
    refine List.Pairwise.imp_of_mem (fun {first second} one _ before => ?_) (sorted.filter _)
    exact before.2.resolve_left (by simpa using (List.mem_filter.mp one).2)
  · intro now
    obtain ⟨after, collected, _⟩ := represents.collect (represents.length ▸ enough) now
    exact ⟨after, collected⟩
  · intro allocator now pkt
    obtain ⟨after, _, handled, _⟩ :=
      represents.handlePacket (represents.length ▸ enough) config allocator now pkt.toClientPacket
    exact ⟨after, handled⟩
  · intro allocator now pkt
    obtain ⟨after, allocated, refined⟩ :=
      represents.alloc (represents.length ▸ enough) config allocator now pkt.toClientPacket
    refine ⟨_, after, _, allocated, refined.chain, ?_, fun node member => ?_⟩
    · exact List.mem_map.mpr ⟨_, ClientState.mem_insert.mpr (.inl rfl), rfl⟩
    · obtain ⟨device, present, rfl⟩ := List.mem_map.mp member
      exact List.mem_map_of_mem (ClientState.mem_insert.mpr (.inr present))

def announceOf (identifier : Nat) (small : identifier < 2 ^ 64) : BusPacket where
  identifierIsServiceClass := false
  command := false
  deviceIdentifier := identifier
  serviceIndex := 0
  serviceCommand := 0
  serviceSize := 4
  word _ := 0
  identifier_lt := small

theorem device_list_ordered_two : ∃ heap : DeviceHeap, heap.live.length = 2 ∧
    ∃ nodes, Chain heap.next heap.jdDevices nodes ∧
      ∀ node ∈ nodes.tail, (heap.node node).deviceIdentifier ≠ 7 := by
  have one : DeviceRun ⟨7, id⟩ _ := .packet .init freshAllocator 0 (announceOf 3 (by decide)) (Nat.le_refl 0) rfl
  have two : DeviceRun ⟨7, id⟩ _ := .packet one freshAllocator 0 (announceOf 7 (by decide)) (Nat.le_refl 1) rfl
  obtain ⟨nodes, chain, _, first, _⟩ := device_list_ordered two
  exact ⟨_, rfl, nodes, chain, first⟩

end Jacdac
