import Jacdac.Client.DeviceHeap
import Jacdac.Client.RoleRun

/-! The devices in memory against the list of devices that the role manager's
state has: each operation on the links is the operation on the list. -/

namespace Jacdac

namespace Device

def toNode (device : Device) : DeviceNode := ⟨device.deviceIdentifier, device.announceFlags, device.expires⟩

/-- What of a device the memory model has. -/
def outline (device : Device) : Nat × DeviceNode := (device.address, device.toNode)

def addresses (devices : List Device) : List Nat := devices.map (·.address)

theorem addresses_update {update : Device → Device} (kept : ∀ device, (update device).address = device.address) (d : Nat)
    (devices : List Device) :
    addresses (devices.map fun device => if device.address = d then update device else device) = addresses devices := by
  rw [addresses, List.map_map]
  refine List.map_congr_left fun device _ => ?_
  dsimp only [Function.comp_apply]
  split
  · exact kept device
  · rfl

/-- The devices that the second loop of `jd_device_gc` keeps behind the first. -/
def sweepKept (now : Nat) : List Device → List Device
  | [] => []
  | [last] => if inPast now last.expires then [] else [last]
  | device :: next :: rest =>
    if inPast now device.expires then next :: sweepKept now rest
    else device :: sweepKept now (next :: rest)

/-- The devices that `jd_device_gc` keeps. -/
def gcKept (now : Nat) (devices : List Device) : List Device :=
  match devices.dropWhile fun device => inPast now device.expires with
  | [] => []
  | first :: rest => first :: sweepKept now rest

theorem addresses_insert (config : ClientConfig) (fresh : Device) (devices : List Device) :
    (addresses (insert config fresh devices)).Perm (fresh.address :: addresses devices) := by
  induction devices with
  | nil => exact .refl _
  | cons existing rest ih =>
    unfold insert
    split
    · exact .refl _
    · exact (ih.cons existing.address).trans (.swap _ _ _)

theorem unlink_middle (before after : List Device) (device : Device)
    (distinct : (addresses (before ++ device :: after)).Nodup) :
    unlink device.address (before ++ device :: after) = before ++ after := by
  have absent : ∀ other ∈ before, ¬ (other.address = device.address) := by
    intro other member same
    rw [addresses, List.map_append, List.map_cons] at distinct
    exact (List.nodup_append.mp distinct).2.2 _ (List.mem_map_of_mem member) _ List.mem_cons_self same
  rw [unlink, List.eraseP_append_right _ (by simpa using absent), List.eraseP_cons_of_pos (by simp)]

theorem unlink_outline (address : Nat) (devices : List Device) :
    (unlink address devices).map outline = (devices.map outline).eraseP (·.1 = address) := by
  rw [unlink, List.eraseP_map]
  rfl

/-- Erasing the devices that the second loop frees leaves those that it keeps. -/
theorem foldl_unlink_sweep (now : Nat) (before rest : List Device)
    (distinct : (addresses (before ++ rest)).Nodup) :
    (sweepVictims now rest).foldl (fun devices victim => unlink victim.address devices) (before ++ rest) =
      before ++ sweepKept now rest := by
  fun_induction sweepVictims now rest generalizing before with
  | case1 => rfl
  | case2 last expired =>
    rw [List.foldl_cons, List.foldl_nil, unlink_middle before [] last distinct, sweepKept, if_pos expired]
  | case3 last kept => rw [List.foldl_nil, sweepKept, if_neg kept]
  | case4 device next rest expired ih =>
    have fewer : (addresses ((before ++ [next]) ++ rest)).Nodup := by
      refine distinct.sublist (List.Sublist.map _ ?_)
      simp
    rw [List.foldl_cons, unlink_middle before _ device distinct, sweepKept, if_pos expired]
    simpa using ih (before ++ [next]) fewer
  | case5 device next rest kept ih =>
    rw [sweepKept, if_neg kept]
    simpa using ih (before ++ [device]) (by simpa using distinct)

theorem foldl_unlink_gc (now : Nat) (devices : List Device) (distinct : (addresses devices).Nodup) :
    (gcVictims now devices).foldl (fun devices victim => unlink victim.address devices) devices =
      gcKept now devices := by
  unfold gcVictims gcKept
  induction devices with
  | nil => rfl
  | cons first rest ih =>
    by_cases expired : inPast now first.expires = true
    · simp only [List.takeWhile_cons, List.dropWhile_cons, if_pos expired]
      have dropped : unlink first.address (first :: rest) = rest := unlink_middle [] rest first distinct
      rw [List.cons_append, List.foldl_cons, dropped]
      exact ih (List.nodup_cons.mp distinct).2
    · simp only [List.takeWhile_cons, List.dropWhile_cons, if_neg expired]
      exact foldl_unlink_sweep now [first] rest distinct

theorem sweepKept_sublist (now : Nat) (rest : List Device) : (sweepKept now rest).Sublist rest := by
  fun_induction sweepKept now rest with
  | case1 => exact .refl _
  | case2 last _ => exact List.nil_sublist _
  | case3 last _ => exact .refl _
  | case4 device next rest _ ih => exact (ih.cons_cons next).cons device
  | case5 device next rest _ ih => exact ih.cons_cons device

theorem gcKept_sublist (now : Nat) (devices : List Device) : (gcKept now devices).Sublist devices := by
  have dropped := List.dropWhile_sublist (fun device : Device => inPast now device.expires) (l := devices)
  unfold gcKept
  split
  · exact List.nil_sublist _
  · rename_i first rest found
    rw [found] at dropped
    exact ((sweepKept_sublist now rest).cons_cons first).trans dropped

end Device

namespace DeviceHeap

/-- The memory holds these devices, linked in this order, and no others. -/
structure Represents (heap : DeviceHeap) (devices : List Device) : Prop where
  chain : Chain heap.next heap.jdDevices (Device.addresses devices)
  stored : ∀ device ∈ devices, heap.node device.address = device.toNode
  live : heap.live.Perm (Device.addresses devices)

namespace Represents

theorem init : DeviceHeap.init.Represents [] := ⟨rfl, nofun, .refl _⟩

variable {heap : DeviceHeap} {devices : List Device}

theorem distinct (represents : heap.Represents devices) : (Device.addresses devices).Nodup :=
  represents.chain.nodup

/-- The flags of the services do not matter. -/
theorem of_outline (represents : heap.Represents devices)
    (same : others.map Device.outline = devices.map Device.outline) : heap.Represents others := by
  have addresses : Device.addresses others = Device.addresses devices := by
    have first := congrArg (List.map Prod.fst) same
    rwa [List.map_map, List.map_map] at first
  refine ⟨addresses ▸ represents.chain, fun device member => ?_, addresses ▸ represents.live⟩
  have outlined := List.mem_map_of_mem (f := Device.outline) member
  rw [same] at outlined
  obtain ⟨other, present, matching⟩ := List.mem_map.mp outlined
  obtain ⟨address, node⟩ := Prod.mk.inj matching
  rw [← address, ← node]
  exact represents.stored other present

theorem lookupLoop_spec (stored : ∀ device ∈ devices, heap.node device.address = device.toNode)
    (chain : Chain heap.next start (Device.addresses devices)) (enough : devices.length ≤ limit) :
    lookupLoop identifier heap limit start = some ((Device.lookup identifier devices).map (·.address)) := by
  induction devices generalizing start limit with
  | nil =>
    rw [show start = none from chain]
    cases limit <;> rfl
  | cons device rest ih =>
    obtain ⟨rfl, tail⟩ := chain
    obtain ⟨limit, rfl⟩ := Nat.exists_eq_add_of_lt (Nat.lt_of_lt_of_le (Nat.zero_lt_succ _) enough)
    rw [Nat.zero_add, lookupLoop, stored device List.mem_cons_self, Device.lookup, List.find?_cons]
    by_cases found : device.deviceIdentifier = identifier
    · simp [Device.toNode, found]
    · rw [if_neg (by exact found), ih (fun other member => stored other (List.mem_cons_of_mem _ member)) tail
        (by simp at enough; omega)]
      simp [Device.lookup, found]

theorem lookup (represents : heap.Represents devices) (enough : devices.length ≤ limit) (identifier : Nat) :
    heap.jdDeviceLookup limit identifier = some ((Device.lookup identifier devices).map (·.address)) :=
  lookupLoop_spec represents.stored represents.chain enough

theorem fitsAt_none (config : ClientConfig) (fresh : Nat) (heap : DeviceHeap) :
    heap.fitsAt config none fresh = true := rfl

theorem linkLoop_spec {fresh : Device} (before rest : List Device) (q : Device)
    (chain : Chain heap.next heap.jdDevices (Device.addresses (before ++ q :: rest)))
    (stored : ∀ device ∈ before ++ q :: rest, heap.node device.address = device.toNode)
    (own : heap.node fresh.address = fresh.toNode)
    (unused : fresh.address ∉ Device.addresses (before ++ q :: rest)) (enough : rest.length < limit) :
    ∃ links, linkLoop config fresh.address limit (some q.address) heap = some { heap with next := links } ∧
      Chain links heap.jdDevices (Device.addresses (before ++ q :: Device.insert config fresh rest)) := by
  induction rest generalizing before q limit with
  | nil =>
    obtain ⟨limit, rfl⟩ := Nat.exists_eq_add_of_lt enough
    have split : Chain heap.next heap.jdDevices (Device.addresses before ++ [q.address]) := by
      simpa [Device.addresses] using chain
    have last : heap.next q.address = none := split.suffix.2
    rw [List.length_nil, Nat.zero_add, linkLoop, last, if_pos (fitsAt_none ..)]
    refine ⟨_, rfl, ?_⟩
    rw [← last]
    simpa [Device.addresses, Device.insert] using split.link (by simpa [Device.addresses] using unused)
  | cons existing rest ih =>
    obtain ⟨limit, rfl⟩ := Nat.exists_eq_add_of_lt (Nat.lt_of_le_of_lt (Nat.zero_le _) enough)
    have split : Chain heap.next heap.jdDevices
        (Device.addresses before ++ q.address :: existing.address :: Device.addresses rest) := by
      simpa [Device.addresses] using chain
    have link : heap.next q.address = some existing.address := split.suffix.2.1
    have fits : heap.fitsAt config (some existing.address) fresh.address =
        Device.fitsBefore config existing fresh := by
      rw [fitsAt, own, stored existing (by simp)]
      rfl
    rw [Nat.zero_add, linkLoop, link, fits, Device.insert]
    by_cases before_ : Device.fitsBefore config existing fresh = true
    · rw [if_pos before_, if_pos before_]
      refine ⟨_, rfl, ?_⟩
      rw [← link]
      simpa [Device.addresses] using split.link (by simpa [Device.addresses] using unused)
    · rw [if_neg before_, if_neg before_]
      have again := ih (before ++ [q]) existing (by simpa using chain) (by simpa using stored) (by simpa using unused)
        (by simp at enough; omega)
      simpa using again

theorem linkDevice_spec (fresh : Device) (chain : Chain heap.next heap.jdDevices (Device.addresses devices))
    (stored : ∀ device ∈ devices, heap.node device.address = device.toNode)
    (own : heap.node fresh.address = fresh.toNode) (unused : fresh.address ∉ Device.addresses devices)
    (enough : devices.length ≤ limit) (config : ClientConfig) :
    ∃ links head, heap.linkDevice limit config fresh.address = some { heap with next := links, jdDevices := head } ∧
      Chain links head (Device.addresses (Device.insert config fresh devices)) := by
  unfold linkDevice
  cases devices with
  | nil =>
    rw [show heap.jdDevices = none from chain, if_pos (fitsAt_none ..)]
    exact ⟨_, _, rfl, rfl, Function.update_self ..⟩
  | cons first rest =>
    have fits : heap.fitsAt config (some first.address) fresh.address = Device.fitsBefore config first fresh := by
      rw [fitsAt, own, stored first List.mem_cons_self]
      rfl
    rw [chain.1, fits, Device.insert]
    by_cases before : Device.fitsBefore config first fresh = true
    · rw [if_pos before, if_pos before]
      refine ⟨_, _, rfl, ?_⟩
      rw [chain.1] at chain
      exact chain.push unused
    · rw [if_neg before, if_neg before]
      obtain ⟨links, linked, after⟩ := linkLoop_spec [] rest first chain stored own unused enough
      exact ⟨links, heap.jdDevices, linked, after⟩

/-- `jd_device_alloc` always links the new device. -/
theorem alloc (represents : heap.Represents devices) (enough : devices.length ≤ limit) (config : ClientConfig)
    (allocator : Allocator) (now : Nat) (announce : ClientPacket) :
    ∃ after, heap.jdDeviceAlloc limit config allocator now announce = some (allocator.alloc heap.live, after) ∧
      after.Represents (Device.insert config (.ofAnnounce (allocator.alloc heap.live) now announce) devices) := by
  have unused : allocator.alloc heap.live ∉ Device.addresses devices :=
    fun member => allocator.fresh heap.live (represents.live.mem_iff.mpr member)
  unfold jdDeviceAlloc
  dsimp only
  generalize allocator.alloc heap.live = d at unused ⊢
  have chain : Chain (heap.fillDevice d now announce).next heap.jdDevices (Device.addresses devices) := by
    refine represents.chain.congr fun other member => Function.update_of_ne ?_ _ _
    rintro rfl
    exact unused member
  have own : (heap.fillDevice d now announce).node d = (Device.ofAnnounce d now announce).toNode :=
    Function.update_self ..
  have others : ∀ other ∈ devices, (heap.fillDevice d now announce).node other.address = other.toNode := by
    intro other present
    have apart : other.address ≠ d := fun same => unused (same ▸ List.mem_map_of_mem present)
    exact (Function.update_of_ne apart ..).trans (represents.stored other present)
  obtain ⟨links, head, linked, after⟩ :=
    linkDevice_spec (.ofAnnounce d now announce) chain others own unused enough config
  have address : (Device.ofAnnounce d now announce).address = d := rfl
  rw [address] at linked
  rw [linked]
  refine ⟨_, rfl, after, ?_, ?_⟩
  · intro other member
    rcases ClientState.mem_insert.mp member with rfl | present
    · exact own
    · exact others other present
  · exact (represents.live.cons d).trans (Device.addresses_insert config (.ofAnnounce d now announce) devices).symm

theorem freed (before after : List Device) (device : Device)
    (live : heap.live.Perm (Device.addresses (before ++ device :: after)))
    (stored : ∀ other ∈ before ++ device :: after, heap.node other.address = other.toNode)
    (chain : Chain links head (Device.addresses (before ++ after))) :
    (jdDeviceFree device.address { heap with next := links, jdDevices := head }).Represents (before ++ after) := by
  refine ⟨chain, fun other member => stored other ?_, ?_⟩
  · rcases List.mem_append.mp member with early | late
    · exact List.mem_append_left _ early
    · exact List.mem_append_right _ (List.mem_cons_of_mem _ late)
  · have erased := live.erase device.address
    rw [Device.addresses, List.map_append, List.map_cons] at erased
    have moved : (before.map (·.address) ++ device.address :: after.map (·.address)).Perm
        (device.address :: (before.map (·.address) ++ after.map (·.address))) := List.perm_middle
    have middle := moved.erase device.address
    rw [List.erase_cons_head] at middle
    have joined := erased.trans middle
    rwa [← List.map_append] at joined

theorem unlink_split (represents : heap.Represents (before ++ device :: after))
    (enough : (before ++ device :: after).length ≤ limit) :
    ∃ links head, heap.jdDeviceUnlink limit device.address = some { heap with next := links, jdDevices := head } ∧
      Chain links head (Device.addresses (before ++ after)) := by
  have chain : Chain heap.next heap.jdDevices
      (Device.addresses before ++ device.address :: Device.addresses after) := by
    simpa [Device.addresses] using represents.chain
  have left : Device.addresses (before ++ after) = Device.addresses before ++ Device.addresses after := List.map_append
  unfold jdDeviceUnlink
  rw [left]
  rcases chain.unlink with ⟨first, rest⟩ | ⟨behind, previous, found, rest⟩
  · rw [if_pos first]
    exact ⟨_, _, rfl, rest⟩
  · rw [if_neg behind, found limit (by simpa [Device.addresses] using enough)]
    exact ⟨_, _, rfl, rest⟩

/-- `jd_device_unlink` followed by `jd_device_free`. -/
theorem unlink (represents : heap.Represents devices) (member : device ∈ devices)
    (enough : devices.length ≤ limit) :
    ∃ after, heap.jdDeviceUnlink limit device.address = some after ∧
      (after.jdDeviceFree device.address).Represents (Device.unlink device.address devices) := by
  obtain ⟨before, rest, rfl⟩ := List.append_of_mem member
  obtain ⟨links, head, unlinked, chain⟩ := represents.unlink_split enough
  refine ⟨_, unlinked, ?_⟩
  rw [Device.unlink_middle before rest device represents.distinct]
  exact freed before rest device represents.live represents.stored chain

theorem gcHead_spec (represents : heap.Represents devices) (enough : devices.length ≤ limit) (now : Nat) :
    ∃ after, gcHead now limit heap = some after ∧
      after.Represents (devices.dropWhile fun device => inPast now device.expires) := by
  induction devices generalizing heap limit with
  | nil =>
    have head : heap.jdDevices = none := represents.chain
    unfold gcHead
    rw [head]
    exact ⟨heap, rfl, represents⟩
  | cons device rest ih =>
    have head : heap.jdDevices = some device.address := represents.chain.1
    have node := represents.stored device List.mem_cons_self
    unfold gcHead
    rw [head]
    dsimp only
    rw [node, List.dropWhile_cons]
    by_cases expired : inPast now device.expires = true
    · obtain ⟨limit, rfl⟩ := Nat.exists_eq_add_of_lt (Nat.lt_of_lt_of_le (Nat.zero_lt_succ _) enough)
      have smaller : ({ heap with jdDevices := heap.next device.address }.jdDeviceFree device.address).Represents rest :=
        freed [] rest device represents.live represents.stored represents.chain.2
      rw [if_pos (show inPast now device.toNode.expires = true from expired), if_pos expired, Nat.zero_add]
      exact ih smaller (by simp at enough; omega)
    · rw [if_neg (show ¬ inPast now device.toNode.expires = true from expired), if_neg expired]
      exact ⟨heap, rfl, represents⟩

/-- The link of a device leads to the next one. -/
theorem next_eq (represents : heap.Represents (before ++ p :: rest)) :
    heap.next p.address = (rest.head?).map (·.address) := by
  have split : Chain heap.next heap.jdDevices (Device.addresses before ++ p.address :: Device.addresses rest) := by
    simpa [Device.addresses] using represents.chain
  cases rest with
  | nil => exact split.suffix.2
  | cons q more => exact split.suffix.2.1

/-- The second loop frees a device by leading the link before it past it. -/
theorem bypassed (represents : heap.Represents (before ++ p :: q :: rest)) :
    ({ heap with next := Function.update heap.next p.address (heap.next q.address) }.jdDeviceFree q.address).Represents
      (before ++ p :: rest) := by
  have split : Chain heap.next heap.jdDevices
      (Device.addresses before ++ p.address :: q.address :: Device.addresses rest) := by
    simpa [Device.addresses] using represents.chain
  have chain : Chain (Function.update heap.next p.address (heap.next q.address)) heap.jdDevices
      (Device.addresses ((before ++ [p]) ++ rest)) := by
    simpa [Device.addresses] using split.bypass
  have after := freed (before ++ [p]) rest q (by simpa using represents.live) (by simpa using represents.stored) chain
  simpa using after

/-- A turn of the second loop that frees a device. -/
theorem gcTail_expired (represents : heap.Represents (before ++ p :: q :: rest)) (expired : inPast now q.expires = true)
    (limit : Nat) :
    ∃ after, gcTail now (limit + 1) (some p.address) heap = gcTail now limit ((rest.head?).map (·.address)) after ∧
      after.Represents (before ++ p :: rest) := by
  have node : heap.node q.address = q.toNode := represents.stored q (by simp)
  have smaller := represents.bypassed
  refine ⟨_, ?_, smaller⟩
  rw [← smaller.next_eq, gcTail, represents.next_eq]
  simp only [List.head?_cons, Option.map_some, node]
  rw [if_pos (show inPast now q.toNode.expires = true from expired)]

/-- A turn of the second loop that goes on. -/
theorem gcTail_kept (represents : heap.Represents (before ++ p :: q :: rest)) (kept : ¬ inPast now q.expires = true)
    (limit : Nat) : gcTail now (limit + 1) (some p.address) heap = gcTail now limit (some q.address) heap := by
  have node : heap.node q.address = q.toNode := represents.stored q (by simp)
  rw [gcTail, represents.next_eq]
  simp only [List.head?_cons, Option.map_some, node]
  rw [if_neg (show ¬ inPast now q.toNode.expires = true from kept)]

/-- The second loop ends at the last device. -/
theorem gcTail_last (represents : heap.Represents (before ++ [p])) (now limit : Nat) :
    gcTail now limit (some p.address) heap = some heap := by
  unfold gcTail
  rw [represents.next_eq]
  rfl

theorem gcTail_spec (before : List Device) (p : Device) (rest : List Device) (represents : heap.Represents (before ++ p :: rest))
    (enough : rest.length ≤ limit) :
    ∃ after, gcTail now limit (some p.address) heap = some after ∧
      after.Represents (before ++ p :: Device.sweepKept now rest) := by
  fun_induction Device.sweepKept now rest generalizing heap before p limit with
  | case1 => exact ⟨heap, represents.gcTail_last now limit, represents⟩
  | case2 q expired =>
    obtain ⟨limit, rfl⟩ := Nat.exists_eq_add_of_lt enough
    obtain ⟨after, turn, smaller⟩ := represents.gcTail_expired expired (0 + limit)
    exact ⟨after, turn.trans (by unfold gcTail; rfl), smaller⟩
  | case3 q kept =>
    obtain ⟨limit, rfl⟩ := Nat.exists_eq_add_of_lt enough
    have onward : heap.Represents ((before ++ [p]) ++ [q]) := by simpa using represents
    exact ⟨heap, (represents.gcTail_kept kept (0 + limit)).trans (onward.gcTail_last now _), represents⟩
  | case4 q next rest expired ih =>
    obtain ⟨limit, rfl⟩ := Nat.exists_eq_add_of_lt (Nat.lt_of_lt_of_le (Nat.zero_lt_succ _) enough)
    obtain ⟨smaller, turn, kept⟩ := represents.gcTail_expired expired (0 + limit)
    have onward : smaller.Represents ((before ++ [p]) ++ next :: rest) := by simpa using kept
    have fewer : rest.length ≤ 0 + limit := by
      simp at enough
      omega
    obtain ⟨after, done, final⟩ := ih _ _ onward fewer
    exact ⟨after, turn.trans done, by simpa using final⟩
  | case5 q next rest kept ih =>
    obtain ⟨limit, rfl⟩ := Nat.exists_eq_add_of_lt (Nat.lt_of_lt_of_le (Nat.zero_lt_succ _) enough)
    have onward : heap.Represents ((before ++ [p]) ++ q :: next :: rest) := by simpa using represents
    have fewer : (next :: rest).length ≤ 0 + limit := by
      simp at enough ⊢
      omega
    obtain ⟨after, done, final⟩ := ih _ _ onward fewer
    exact ⟨after, (represents.gcTail_kept kept (0 + limit)).trans done, by simpa using final⟩

theorem gc (represents : heap.Represents devices) (enough : devices.length ≤ limit) (now : Nat) :
    ∃ after, heap.jdDeviceGc limit now = some after ∧ after.Represents (Device.gcKept now devices) := by
  obtain ⟨middle, first, kept⟩ := represents.gcHead_spec enough now
  have shorter := (List.dropWhile_sublist (fun device : Device => inPast now device.expires) (l := devices)).length_le
  unfold jdDeviceGc Device.gcKept
  rw [first, Option.bind_some]
  cases left : devices.dropWhile fun device => inPast now device.expires with
  | nil =>
    rw [left] at kept
    rw [show middle.jdDevices = none from kept.chain]
    exact ⟨middle, by unfold gcTail; rfl, kept⟩
  | cons p rest =>
    rw [left] at kept shorter
    rw [show middle.jdDevices = some p.address from kept.chain.1]
    exact gcTail_spec [] p rest kept (by simp at shorter; omega)

/-- A store to a device of the list. -/
theorem setNode (represents : heap.Represents devices) (d : Nat) (update : Device → Device)
    (value : DeviceNode) (addresses : ∀ device, (update device).address = device.address)
    (stored : ∀ device ∈ devices, device.address = d → (update device).toNode = value) :
    (heap.setNode d value).Represents
      (devices.map fun device => if device.address = d then update device else device) := by
  have same : Device.addresses (devices.map fun device => if device.address = d then update device else device) =
      Device.addresses devices := Device.addresses_update addresses d devices
  refine ⟨same ▸ represents.chain, ?_, same ▸ represents.live⟩
  intro after member
  obtain ⟨device, present, rfl⟩ := List.mem_map.mp member
  by_cases here : device.address = d
  · rw [if_pos here, addresses, here]
    exact (Function.update_self ..).trans (stored device present here).symm
  · rw [if_neg here]
    exact (Function.update_of_ne here ..).trans (represents.stored device present)

end Represents

end DeviceHeap

namespace ClientState

def outlines (state : ClientState) : List (Nat × DeviceNode) := state.devices.map Device.outline

theorem setFlag_outline (pointer : ServicePointer) (assigned : Bool) (devices : List Device) :
    (Device.setFlag pointer assigned devices).map Device.outline = devices.map Device.outline := by
  rw [Device.setFlag, List.map_map]
  refine List.map_congr_left fun device _ => ?_
  dsimp only [Function.comp_apply]
  split <;> rfl

theorem rolemgrSet_outlines (index : Nat) (serv : Option ServicePointer) (state : ClientState) :
    (state.rolemgrSet index serv).outlines = state.outlines := by
  rcases rolemgrSet_cases index serv state with same | ⟨_, role, _, _, moved⟩
  · rw [same]
  · rw [moved, outlines]
    dsimp only
    unfold moveFlags
    cases role.service <;> cases serv <;> simp only [setFlag_outline, outlines]

theorem outlines_stable (fixed : List (Nat × DeviceNode)) : BindStable fun state => state.outlines = fixed where
  clear state index same := (rolemgrSet_outlines index none state).trans same
  bind state index pointer _ same := (rolemgrSet_outlines index (some pointer) state).trans same

theorem dropDevice_outlines (state : ClientState) (device : Device) :
    (state.dropDevice device).outlines = state.outlines.eraseP (·.1 = device.address) := by
  have unlinked : { state with devices := Device.unlink device.address state.devices }.outlines =
      state.outlines.eraseP (·.1 = device.address) := Device.unlink_outline device.address state.devices
  exact (outlines_stable _).deviceDestroyed unlinked device.address

theorem gc_outlines (now : Nat) (state : ClientState) (distinct : (Device.addresses state.devices).Nodup) :
    (state.jdDeviceGc now).outlines = (Device.gcKept now state.devices).map Device.outline := by
  rw [← Device.foldl_unlink_gc now state.devices distinct, jdDeviceGc]
  have general : ∀ (victims devices : List Device) (state : ClientState), state.outlines = devices.map Device.outline →
      (victims.foldl dropDevice state).outlines =
        (victims.foldl (fun devices victim => Device.unlink victim.address devices) devices).map Device.outline := by
    intro victims
    induction victims with
    | nil => exact fun _ _ same => same
    | cons victim rest ih =>
      intro devices state same
      refine ih _ _ ?_
      rw [dropDevice_outlines, same, Device.unlink_outline]
  exact general _ state.devices state rfl

end ClientState

def Allocator.returning (allocator : Allocator) (live : List Nat) (address : Nat) (unused : address ∉ live) :
    Allocator where
  alloc others := if others = live then address else allocator.alloc others
  fresh others := by
    split
    · rename_i same
      rw [same]
      exact unused
    · exact allocator.fresh others

namespace DeviceHeap

variable {heap : DeviceHeap} {state : ClientState}

theorem setNode_self (heap : DeviceHeap) (d : Nat) : heap.setNode d (heap.node d) = heap := by
  unfold setNode
  rw [Function.update_eq_self]

/-- A new device, and the rest of `jd_client_handle_packet` after it was created. -/
theorem Represents.announced (represents : heap.Represents state.devices) (enough : state.devices.length ≤ limit)
    (config : ClientConfig) (allocator : Allocator) (now : Nat) (pkt : ClientPacket) :
    ∃ after listed, heap.jdDeviceAlloc limit config allocator now pkt = some (allocator.alloc heap.live, after) ∧
      after.Represents (state.jdDeviceAlloc config listed now pkt).devices ∧
      after.node (allocator.alloc heap.live) =
        ⟨pkt.deviceIdentifier, pkt.word 0 % 65536, u32 (now + expiresUsec)⟩ := by
  have unused : allocator.alloc heap.live ∉ Device.addresses state.devices :=
    fun member => allocator.fresh heap.live (represents.live.mem_iff.mpr member)
  obtain ⟨after, allocated, refined⟩ := represents.alloc enough config allocator now pkt
  have address : (allocator.returning (Device.addresses state.devices) _ unused).alloc
      (Device.addresses state.devices) = allocator.alloc heap.live := if_pos rfl
  refine ⟨after, allocator.returning (Device.addresses state.devices) _ unused, allocated, ?_, ?_⟩
  · unfold ClientState.jdDeviceAlloc
    dsimp only
    rw [← Device.addresses, address]
    exact refined
  · exact refined.stored _ (ClientState.mem_insert.mpr (.inl rfl))

theorem Represents.announceNew (represents : heap.Represents state.devices) (enough : state.devices.length ≤ limit)
    (config : ClientConfig) (allocator : Allocator) (now : Nat) (pkt : ClientPacket) :
    ∃ after listed, heap.handleAnnounce limit config allocator now pkt none = some after ∧
      after.Represents (state.jdDeviceAlloc config listed now pkt).devices := by
  obtain ⟨after, listed, allocated, refined, node⟩ := represents.announced enough config allocator now pkt
  refine ⟨after, listed, ?_, refined⟩
  simp only [handleAnnounce, allocated, Option.bind_some, compareFlags, node, ne_eq, not_true, if_false,
    Option.map_some]
  rw [← node, setNode_self]

theorem Represents.announceRestarted (represents : heap.Represents state.devices)
    (enough : state.devices.length ≤ limit) (config : ClientConfig) (allocator : Allocator) (now : Nat)
    (pkt : ClientPacket) (member : dev ∈ state.devices) (changed : dev.announceFlags ≠ pkt.word 0 % 65536)
    (restarted : config.restartCounter dev.announceFlags > config.restartCounter (pkt.word 0 % 65536)) :
    ∃ after listed, heap.handleAnnounce limit config allocator now pkt (some dev.address) = some after ∧
      after.Represents ((state.dropDevice dev).jdDeviceAlloc config listed now pkt).devices := by
  have flags : (heap.node dev.address).announceFlags = dev.announceFlags := by rw [represents.stored dev member]; rfl
  obtain ⟨unlinked, cut, smaller⟩ := represents.unlink member enough
  have dropped : (unlinked.jdDeviceFree dev.address).Represents (state.dropDevice dev).devices := by
    refine smaller.of_outline ?_
    rw [Device.unlink_outline]
    exact state.dropDevice_outlines dev
  have shorter : (state.dropDevice dev).devices.length ≤ limit := by
    have fewer := congrArg List.length (state.dropDevice_outlines dev)
    have erased := (List.eraseP_sublist (p := fun entry => decide (entry.1 = dev.address)) (l := state.outlines)).length_le
    simp only [ClientState.outlines, List.length_map] at fewer erased
    omega
  obtain ⟨after, listed, allocated, refined, node⟩ := dropped.announced shorter config allocator now pkt
  refine ⟨after, listed, ?_, refined⟩
  simp only [handleAnnounce, Option.bind_some, compareFlags, flags, if_pos changed, if_pos restarted, cut,
    allocated, Option.map_some]
  rw [node, ← node, setNode_self]

theorem Represents.announceKnown (represents : heap.Represents state.devices)
    (config : ClientConfig) (allocator : Allocator) (now : Nat) (pkt : ClientPacket) (member : dev ∈ state.devices)
    (same : ¬ (dev.announceFlags ≠ pkt.word 0 % 65536 ∧
      config.restartCounter dev.announceFlags > config.restartCounter (pkt.word 0 % 65536))) :
    ∃ after, heap.handleAnnounce limit config allocator now pkt (some dev.address) = some after ∧
      after.Represents (state.updateDevice dev.address fun device =>
        { device with announceFlags := pkt.word 0 % 65536, expires := u32 (now + expiresUsec) }).devices := by
  have node : heap.node dev.address = dev.toNode := represents.stored dev member
  refine ⟨heap.setNode dev.address ⟨dev.deviceIdentifier, pkt.word 0 % 65536, u32 (now + expiresUsec)⟩, ?_, ?_⟩
  · simp only [handleAnnounce, Option.bind_some, compareFlags, node, Device.toNode]
    by_cases changed : dev.announceFlags ≠ pkt.word 0 % 65536
    · have going := not_and.mp same changed
      rw [if_pos changed, if_neg going, Option.map_some]
      simp only [DeviceHeap.setNode, Function.update_self, Function.update_idem]
    · rw [if_neg changed, Option.map_some, node, Device.toNode, ← not_not.mp changed]
  · refine represents.setNode _ _ _ (fun _ => rfl) fun device present here => ?_
    have stored := represents.stored device present
    rw [here, node] at stored
    have identifier : device.deviceIdentifier = dev.deviceIdentifier := (DeviceNode.mk.inj stored).1.symm
    rw [← identifier]
    rfl

theorem Represents.handlePacket (represents : heap.Represents state.devices) (enough : state.devices.length ≤ limit)
    (config : ClientConfig) (allocator : Allocator) (now : Nat) (pkt : ClientPacket) :
    ∃ after listed, heap.jdClientHandlePacket limit config allocator now pkt = some after ∧
      after.Represents (state.jdClientHandlePacket config listed now pkt).devices := by
  unfold DeviceHeap.jdClientHandlePacket ClientState.jdClientHandlePacket
  by_cases broadcast : pkt.identifierIsServiceClass = true
  · rw [if_pos broadcast]
    exact ⟨heap, allocator, rfl, by rwa [if_pos (.inl broadcast)]⟩
  rw [if_neg broadcast, represents.lookup enough, Option.bind_some]
  by_cases command : pkt.command = true
  · rw [if_pos command]
    exact ⟨heap, allocator, rfl, by rwa [if_pos (.inr command)]⟩
  rw [if_neg command]
  simp only [if_neg (not_or.mpr ⟨broadcast, command⟩)]
  by_cases announce : pkt.serviceIndex = 0 ∧ pkt.serviceCommand = 0
  · simp only [if_pos announce]
    cases found : Device.lookup pkt.deviceIdentifier state.devices with
    | none => exact represents.announceNew enough config allocator now pkt
    | some dev =>
      have member : dev ∈ state.devices := Device.lookup_mem found
      by_cases restarted : dev.announceFlags ≠ pkt.word 0 % 65536 ∧
          config.restartCounter dev.announceFlags > config.restartCounter (pkt.word 0 % 65536)
      · simp only [if_pos restarted]
        exact represents.announceRestarted enough config allocator now pkt member restarted.1 restarted.2
      · simp only [if_neg restarted]
        obtain ⟨after, handled, refined⟩ := represents.announceKnown config allocator now pkt member restarted
        exact ⟨after, allocator, handled, refined⟩
  · simp only [if_neg announce]
    exact ⟨heap, allocator, rfl, represents⟩

/-- A garbage collection in memory is one on the list. -/
theorem Represents.collect (represents : heap.Represents state.devices) (enough : state.devices.length ≤ limit)
    (now : Nat) :
    ∃ after, heap.jdDeviceGc limit now = some after ∧ after.Represents (state.jdDeviceGc now).devices := by
  obtain ⟨after, collected, refined⟩ := represents.gc enough now
  exact ⟨after, collected, refined.of_outline (ClientState.gc_outlines now state represents.distinct)⟩

end DeviceHeap

end Jacdac
