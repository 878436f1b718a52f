import Jacdac.Client.DeviceRefinement
import Jacdac.Client.QueryRun

/-! `jd_device_gc` with all that `jd_device_free` does to memory: the events it sends
and the register queries it frees. What the role manager does when a device goes is
in `ClientState.dropDevice`. -/

namespace Jacdac

/-- The devices and their register queries in memory, and the devices that a
`JD_CLIENT_EV_DEVICE_DESTROYED` event was sent for, in order. -/
structure ClientHeap where
  list : DeviceHeap
  cache : QueryHeap
  destroyed : List Nat

namespace ClientHeap

def jdDeviceFree (d : Nat) (heap : ClientHeap) : Except QueryFault ClientHeap :=
  match heap.cache.jdDeviceClearQueries d 0xff with
  | .error fault => .error fault
  | .ok cache => .ok { list := heap.list.jdDeviceFree d, cache, destroyed := heap.destroyed ++ [d] }

/-- The first loop of `jd_device_gc`. -/
def gcHead (now : Nat) : Nat → ClientHeap → Except QueryFault ClientHeap
  | limit, heap =>
    match heap.list.jdDevices with
    | none => .ok heap
    | some p =>
      if inPast now (heap.list.node p).expires then
        match limit with
        | 0 => .error .endless
        | limit + 1 =>
          match jdDeviceFree p { heap with list := { heap.list with jdDevices := heap.list.next p } } with
          | .error fault => .error fault
          | .ok heap => gcHead now limit heap
      else .ok heap

/-- The second loop of `jd_device_gc`. -/
def gcTail (now : Nat) : Nat → Option Nat → ClientHeap → Except QueryFault ClientHeap
  | _, none, heap => .ok heap
  | limit, some p, heap =>
    match heap.list.next p with
    | none => .ok heap
    | some q =>
      match limit with
      | 0 => .error .endless
      | limit + 1 =>
        if inPast now (heap.list.node q).expires then
          let links := Function.update heap.list.next p (heap.list.next q)
          match jdDeviceFree q { heap with list := { heap.list with next := links } } with
          | .error fault => .error fault
          | .ok heap => gcTail now limit (heap.list.next p) heap
        else gcTail now limit (some q) heap

def jdDeviceGc (now : Nat) (heap : ClientHeap) : Except QueryFault ClientHeap :=
  match gcHead now heap.list.live.length heap with
  | .error fault => .error fault
  | .ok heap => gcTail now heap.list.live.length heap.list.jdDevices heap

/-- The memory holds these devices, with these queries. -/
structure Holds (heap : ClientHeap) (devices : List Device) (nodes : Nat → List Nat) (lost : List Nat) : Prop where
  list : heap.list.Represents devices
  cache : QueriesHold heap.cache (Device.addresses devices) nodes lost

/-- Some devices were destroyed, and these are left. -/
structure Collects (heap next : ClientHeap) (victims kept : List Device) (nodes : Nat → List Nat)
    (lost : List Nat) : Prop where
  holds : next.Holds kept nodes lost
  destroyed : next.destroyed = heap.destroyed ++ Device.addresses victims
  query : next.cache.query = heap.cache.query

end ClientHeap

namespace QueriesHold

variable {heap : QueryHeap} {devices : List Nat} {nodes others : Nat → List Nat} {lost : List Nat} {d : Nat}

theorem congr (holds : QueriesHold heap devices nodes lost) (same : ∀ d ∈ devices, others d = nodes d) :
    QueriesHold heap devices others lost := by
  refine ⟨holds.apart, fun d member => ?_, ?_, holds.distinct, holds.values, holds.indexed, holds.buffers, holds.single⟩
  · rw [same d member]
    exact holds.chain d member
  · rw [List.flatMap_congr same]
    exact holds.live

theorem spared_all (heap : QueryHeap) (nodes : List Nat) : heap.spared 0xff nodes = [] := by
  refine List.filter_eq_nil_iff.mpr fun q _ => ?_
  simp [RegisterQuery.clearedBy]

theorem destroy (holds : QueriesHold heap devices nodes lost) (member : d ∈ devices) :
    ∃ next, heap.jdDeviceClearQueries d 0xff = .ok next ∧ QueriesHold next (devices.erase d) nodes lost ∧
      next.query = heap.query := by
  obtain ⟨next, cleared, relinked, after⟩ := holds.clear member 0xff
  refine ⟨next, cleared, ?_, relinked.query⟩
  rw [spared_all] at after
  have gone := after.remove member (Function.update_self ..)
  refine gone.congr fun other left => (Function.update_of_ne ?_ _ _).symm
  rintro rfl
  exact holds.apart.not_mem_erase left

theorem buffer_gone {after : QueryHeap} {left : List Nat} (holds : QueriesHold heap devices nodes lost)
    (next : QueriesHold after left nodes lost) (query : after.query = heap.query) (fewer : after.live ⊆ heap.live)
    (present : q ∈ heap.live) (gone : q ∉ after.live) (owned : (heap.query q).buffer? = some address) :
    address ∉ after.buffers := by
  have split := holds.split_buffers present
  rw [owned] at split
  have apart : (address :: (heap.owned (heap.live.erase q) ++ lost)).Nodup := split.nodup_iff.mp holds.single
  intro live
  refine (List.nodup_cons.mp apart).1 ?_
  rcases List.mem_append.mp (next.buffers.mem_iff.mp live) with other | other
  · obtain ⟨node, listed, points⟩ := List.mem_filterMap.mp other
    rw [query] at points
    have different : node ≠ q := by
      rintro rfl
      exact gone listed
    exact List.mem_append_left _ (List.mem_filterMap.mpr
      ⟨node, (List.mem_erase_of_ne different).mpr (fewer listed), points⟩)
  · exact List.mem_append_right _ other

end QueriesHold

namespace ClientHeap

variable {heap next : ClientHeap} {before rest devices kept victims : List Device} {p q : Device}
  {nodes : Nat → List Nat} {lost : List Nat} {now limit : Nat}

theorem Collects.refl (holds : heap.Holds devices nodes lost) : heap.Collects heap [] devices nodes lost :=
  ⟨holds, (List.append_nil _).symm, rfl⟩

theorem Collects.trans {middle : ClientHeap} {others : List Device} (first : heap.Collects middle victims kept nodes lost)
    (second : middle.Collects next others left nodes lost) :
    heap.Collects next (victims ++ others) left nodes lost := by
  refine ⟨second.holds, ?_, second.query.trans first.query⟩
  rw [second.destroyed, first.destroyed, List.append_assoc, Device.addresses, Device.addresses, Device.addresses,
    List.map_append]

/-- `jd_device_free` for a device that the links have been led past. -/
theorem Holds.free (holds : heap.Holds (before ++ q :: rest) nodes lost) {list : DeviceHeap}
    (unlinked : (list.jdDeviceFree q.address).Represents (before ++ rest)) :
    ∃ next, jdDeviceFree q.address { heap with list } = .ok next ∧ next.list = list.jdDeviceFree q.address ∧
      heap.Collects next [q] (before ++ rest) nodes lost := by
  have distinct := holds.list.distinct
  have split : Device.addresses (before ++ q :: rest) = Device.addresses before ++ q.address :: Device.addresses rest := by
    simp [Device.addresses]
  rw [split] at distinct
  have absent : q.address ∉ Device.addresses before := fun listed =>
    (List.nodup_append.mp distinct).2.2 _ listed _ List.mem_cons_self rfl
  have erased : (Device.addresses (before ++ q :: rest)).erase q.address = Device.addresses (before ++ rest) := by
    rw [split, List.erase_append_right _ absent, List.erase_cons_head]
    simp [Device.addresses]
  obtain ⟨cache, cleared, after, query⟩ := holds.cache.destroy (d := q.address) (by simp [split])
  unfold jdDeviceFree
  dsimp only
  rw [cleared]
  exact ⟨_, rfl, rfl, ⟨unlinked, erased ▸ after⟩, rfl, query⟩

theorem gcHead_spec (holds : heap.Holds devices nodes lost) (enough : devices.length ≤ limit) (now : Nat) :
    ∃ next, gcHead now limit heap = .ok next ∧
      heap.Collects next (devices.takeWhile fun device => inPast now device.expires)
        (devices.dropWhile fun device => inPast now device.expires) nodes lost := by
  induction devices generalizing heap limit with
  | nil =>
    have head : heap.list.jdDevices = none := holds.list.chain
    unfold gcHead
    rw [head]
    exact ⟨heap, rfl, .refl holds⟩
  | cons q rest ih =>
    have head : heap.list.jdDevices = some q.address := holds.list.chain.1
    have node := holds.list.stored q List.mem_cons_self
    unfold gcHead
    rw [head]
    dsimp only
    rw [node, List.dropWhile_cons, List.takeWhile_cons]
    by_cases expired : inPast now q.expires = true
    · obtain ⟨limit, rfl⟩ := Nat.exists_eq_succ_of_ne_zero (by simp at enough; omega : limit ≠ 0)
      have behind : heap.Holds ([] ++ q :: rest) nodes lost := holds
      obtain ⟨middle, freed, _, one⟩ := behind.free
        (DeviceHeap.Represents.freed [] rest q holds.list.live holds.list.stored holds.list.chain.2)
      obtain ⟨next, done, others⟩ := ih one.holds (by simpa using enough)
      rw [if_pos (show inPast now q.toNode.expires = true from expired), if_pos expired, if_pos expired]
      refine ⟨next, ?_, one.trans others⟩
      dsimp only
      rw [freed]
      exact done
    · rw [if_neg (show ¬ inPast now q.toNode.expires = true from expired), if_neg expired, if_neg expired]
      exact ⟨heap, rfl, .refl holds⟩

/-- A turn of the second loop that frees a device. -/
theorem gcTail_expired (holds : heap.Holds (before ++ p :: q :: rest) nodes lost)
    (expired : inPast now q.expires = true) (limit : Nat) :
    ∃ next, gcTail now (limit + 1) (some p.address) heap = gcTail now limit ((rest.head?).map (·.address)) next ∧
      heap.Collects next [q] (before ++ p :: rest) nodes lost := by
  have node : heap.list.node q.address = q.toNode := holds.list.stored q (by simp)
  have smaller := holds.list.bypassed
  have moved : before ++ p :: q :: rest = (before ++ [p]) ++ q :: rest := by simp
  obtain ⟨next, freed, list, one⟩ := Holds.free (moved ▸ holds) (by simpa using smaller)
  have onward : before ++ p :: rest = (before ++ [p]) ++ rest := by simp
  refine ⟨next, ?_, onward ▸ one⟩
  have link : next.list.next p.address = (rest.head?).map (·.address) := by
    rw [list]
    exact smaller.next_eq
  rw [gcTail, holds.list.next_eq]
  simp only [List.head?_cons, Option.map_some, node]
  rw [if_pos (show inPast now q.toNode.expires = true from expired), freed]
  dsimp only
  rw [link]

/-- A turn of the second loop that goes on. -/
theorem gcTail_kept (holds : heap.Holds (before ++ p :: q :: rest) nodes lost) (kept : ¬ inPast now q.expires = true)
    (limit : Nat) : gcTail now (limit + 1) (some p.address) heap = gcTail now limit (some q.address) heap := by
  have node : heap.list.node q.address = q.toNode := holds.list.stored q (by simp)
  rw [gcTail, holds.list.next_eq]
  simp only [List.head?_cons, Option.map_some, node]
  rw [if_neg (show ¬ inPast now q.toNode.expires = true from kept)]

theorem gcTail_last (holds : heap.Holds (before ++ [p]) nodes lost) (now limit : Nat) :
    gcTail now limit (some p.address) heap = .ok heap := by
  unfold gcTail
  rw [holds.list.next_eq]
  rfl

theorem gcTail_spec (before : List Device) (p : Device) (rest : List Device)
    (holds : heap.Holds (before ++ p :: rest) nodes lost) (enough : rest.length ≤ limit) :
    ∃ next, gcTail now limit (some p.address) heap = .ok next ∧
      heap.Collects next (Device.sweepVictims now rest) (before ++ p :: Device.sweepKept now rest) nodes lost := by
  fun_induction Device.sweepKept now rest generalizing heap before p limit with
  | case1 => exact ⟨heap, gcTail_last holds now limit, .refl holds⟩
  | case2 q expired =>
    obtain ⟨limit, rfl⟩ := Nat.exists_eq_succ_of_ne_zero (by simp at enough; omega : limit ≠ 0)
    obtain ⟨next, turn, one⟩ := gcTail_expired holds expired limit
    rw [Device.sweepVictims, if_pos expired]
    exact ⟨next, turn.trans (by unfold gcTail; rfl), one⟩
  | case3 q kept =>
    obtain ⟨limit, rfl⟩ := Nat.exists_eq_succ_of_ne_zero (by simp at enough; omega : limit ≠ 0)
    have onward : heap.Holds ((before ++ [p]) ++ [q]) nodes lost := by simpa using holds
    rw [Device.sweepVictims, if_neg kept]
    exact ⟨heap, (gcTail_kept holds kept limit).trans (gcTail_last onward now _), .refl holds⟩
  | case4 q after rest expired ih =>
    obtain ⟨limit, rfl⟩ := Nat.exists_eq_succ_of_ne_zero (by simp at enough; omega : limit ≠ 0)
    obtain ⟨middle, turn, one⟩ := gcTail_expired holds expired limit
    have onward : middle.Holds ((before ++ [p]) ++ after :: rest) nodes lost := by simpa using one.holds
    have fewer : rest.length ≤ limit := by
      simp only [List.length_cons] at enough
      omega
    obtain ⟨next, done, others⟩ := ih _ _ onward fewer
    rw [Device.sweepVictims, if_pos expired]
    refine ⟨next, turn.trans done, ?_⟩
    simpa using one.trans others
  | case5 q after rest kept ih =>
    obtain ⟨limit, rfl⟩ := Nat.exists_eq_succ_of_ne_zero (by simp at enough; omega : limit ≠ 0)
    have onward : heap.Holds ((before ++ [p]) ++ q :: after :: rest) nodes lost := by simpa using holds
    obtain ⟨next, done, others⟩ := ih _ _ onward (by simpa using enough)
    rw [Device.sweepVictims, if_neg kept]
    exact ⟨next, (gcTail_kept holds kept limit).trans done, by simpa using others⟩

theorem Holds.enough (holds : heap.Holds devices nodes lost) : devices.length ≤ heap.list.live.length := by
  rw [holds.list.live.length_eq, Device.addresses, List.length_map]

/-- A collection destroys the victims and leaves the others. -/
theorem jdDeviceGc_spec (holds : heap.Holds devices nodes lost) (now : Nat) :
    ∃ next, heap.jdDeviceGc now = .ok next ∧
      heap.Collects next (Device.gcVictims now devices) (Device.gcKept now devices) nodes lost := by
  obtain ⟨middle, heads, first⟩ := gcHead_spec holds holds.enough now
  unfold jdDeviceGc Device.gcVictims Device.gcKept
  rw [heads]
  dsimp only
  generalize devices.dropWhile (fun device => inPast now device.expires) = left at first
  have enough := first.holds.enough
  cases left with
  | nil =>
    have head : middle.list.jdDevices = none := first.holds.list.chain
    rw [head, gcTail, List.tail_nil, Device.sweepVictims]
    exact ⟨middle, rfl, first.trans (.refl first.holds)⟩
  | cons p rest =>
    have head : middle.list.jdDevices = some p.address := first.holds.list.chain.1
    obtain ⟨next, tails, second⟩ := gcTail_spec [] p rest first.holds (Nat.le_of_succ_le enough)
    rw [head, tails]
    exact ⟨next, rfl, first.trans second⟩

end ClientHeap

namespace Device

/-- Behind the first device that has not expired, no two neighbours both have. -/
def ExpiredApart (now : Nat) (devices : List Device) : Prop :=
  (devices.dropWhile fun device => inPast now device.expires).IsChain
    fun device next => ¬ (inPast now device.expires ∧ inPast now next.expires)

instance : Decidable (ExpiredApart now devices) := inferInstanceAs (Decidable (List.IsChain _ _))

def live (now : Nat) (device : Device) : Bool := !inPast now device.expires

variable {now : Nat} {first : Device} {rest devices : List Device}

theorem chain_of_live (kept : ¬ inPast now first.expires = true) :
    (first :: rest).IsChain (fun device next : Device => ¬ (inPast now device.expires ∧ inPast now next.expires)) ↔
      rest.IsChain fun device next => ¬ (inPast now device.expires ∧ inPast now next.expires) := by
  cases rest with
  | nil => simp
  | cons next rest => simp [kept]

/-- The second loop lets an expired device pass where it stands behind one that was freed. -/
theorem sweepKept_live_iff (now : Nat) (rest : List Device) :
    (∀ device ∈ sweepKept now rest, device.live now = true) ↔
      rest.IsChain fun device next => ¬ (inPast now device.expires ∧ inPast now next.expires) := by
  fun_induction sweepKept now rest with
  | case1 => simp
  | case2 last expired => simp
  | case3 last kept => simp [live, kept]
  | case4 device next rest expired ih =>
    by_cases again : inPast now next.expires = true
    · simp [live, expired, again]
    · rw [List.isChain_cons_cons, chain_of_live again, ← ih]
      simp [live, again]
  | case5 device next rest kept ih =>
    rw [chain_of_live kept, ← ih]
    simp [live, kept]

theorem sweepKept_eq (apart : rest.IsChain fun device next => ¬ (inPast now device.expires ∧ inPast now next.expires)) :
    sweepKept now rest = rest.filter (·.live now) := by
  fun_induction sweepKept now rest with
  | case1 => rfl
  | case2 last expired => simp [live, expired]
  | case3 last kept => simp [live, kept]
  | case4 device next rest expired ih =>
    obtain ⟨both, behind⟩ := List.isChain_cons_cons.mp apart
    have again : ¬ inPast now next.expires = true := fun late => both ⟨expired, late⟩
    rw [ih ((chain_of_live again).mp behind)]
    simp [live, expired, again]
  | case5 device next rest kept ih =>
    rw [ih ((chain_of_live kept).mp apart)]
    simp [live, kept]

theorem gcKept_live_iff (now : Nat) (devices : List Device) :
    (∀ device ∈ gcKept now devices, device.live now = true) ↔ ExpiredApart now devices := by
  unfold gcKept ExpiredApart
  induction devices with
  | nil => simp
  | cons first rest ih =>
    rw [List.dropWhile_cons]
    by_cases expired : inPast now first.expires = true
    · rw [if_pos expired]
      exact ih
    · rw [if_neg expired, chain_of_live expired, ← sweepKept_live_iff]
      simp [live, expired]

theorem gcKept_eq (apart : ExpiredApart now devices) : gcKept now devices = devices.filter (·.live now) := by
  unfold gcKept
  unfold ExpiredApart at apart
  induction devices with
  | nil => rfl
  | cons first rest ih =>
    rw [List.dropWhile_cons] at apart ⊢
    by_cases expired : inPast now first.expires = true
    · rw [if_pos expired] at apart ⊢
      rw [List.filter_cons_of_neg (by simp [live, expired])]
      exact ih apart
    · rw [if_neg expired] at apart ⊢
      rw [List.filter_cons_of_pos (by simp [live, expired])]
      exact congrArg (first :: ·) (sweepKept_eq ((chain_of_live expired).mp apart))

theorem sweep_perm (now : Nat) (rest : List Device) : (sweepVictims now rest ++ sweepKept now rest).Perm rest := by
  fun_induction sweepKept now rest with
  | case1 => exact .refl _
  | case2 last expired => simp [sweepVictims, expired]
  | case3 last kept => simp [sweepVictims, kept]
  | case4 device next rest expired ih =>
    rw [sweepVictims, if_pos expired]
    exact (List.perm_middle.trans (ih.cons next)).cons device
  | case5 device next rest kept ih =>
    rw [sweepVictims, if_neg kept]
    exact List.perm_middle.trans (ih.cons device)

/-- Every device is either freed or kept. -/
theorem gc_perm (now : Nat) (devices : List Device) : (gcVictims now devices ++ gcKept now devices).Perm devices := by
  have split := List.takeWhile_append_dropWhile (p := fun device : Device => inPast now device.expires) (l := devices)
  unfold gcVictims gcKept
  rw [List.append_assoc]
  refine List.Perm.trans (List.Perm.append_left _ ?_) (List.Perm.of_eq split)
  cases devices.dropWhile fun device => inPast now device.expires with
  | nil => exact .refl _
  | cons first rest => exact List.perm_middle.trans ((sweep_perm now rest).cons first)

theorem gcVictims_perm (apart : ExpiredApart now devices) :
    (gcVictims now devices).Perm (devices.filter fun device => !device.live now) := by
  have split := gc_perm now devices
  rw [gcKept_eq apart] at split
  have halves : (devices.filter (fun device => !device.live now) ++ devices.filter (·.live now)).Perm devices :=
    List.perm_append_comm.trans (List.filter_append_perm _ devices)
  exact (List.perm_append_right_iff _).mp (split.trans halves.symm)

end Device

/-- No device that has expired is left, the others are linked as before, and each expired one got
one event and has none of its queries and their buffers in memory. -/
structure GcComplete (now : Nat) (devices : List Device) (nodes : Nat → List Nat) (heap next : ClientHeap) : Prop where
  kept : next.list.Represents (devices.filter (·.live now))
  destroyed : ∃ events, next.destroyed = heap.destroyed ++ events ∧
    events.Perm (Device.addresses (devices.filter fun device => !device.live now))
  freed : ∀ device ∈ devices, device.live now = false → ∀ q ∈ nodes device.address, q ∉ next.cache.live ∧
    ∀ address, (heap.cache.query q).buffer? = some address → address ∉ next.cache.buffers

namespace ClientHeap

variable {heap next : ClientHeap} {devices : List Device} {nodes : Nat → List Nat} {lost : List Nat} {now : Nat}

theorem Holds.same_device (holds : heap.Holds devices nodes lost) (first : d ∈ devices) (second : e ∈ devices)
    (same : d.address = e.address) : d = e :=
  List.inj_on_of_nodup_map holds.list.distinct first second same

theorem Collects.complete (holds : heap.Holds devices nodes lost) (apart : Device.ExpiredApart now devices)
    (collects : heap.Collects next (Device.gcVictims now devices) (Device.gcKept now devices) nodes lost) :
    GcComplete now devices nodes heap next := by
  obtain ⟨⟨list, cache⟩, destroyed, query⟩ := collects
  rw [Device.gcKept_eq apart] at list cache
  refine ⟨list, ⟨_, destroyed, (Device.gcVictims_perm apart).map _⟩, fun device member expired q listed => ?_⟩
  have fewer : next.cache.live ⊆ heap.cache.live := by
    intro q present
    obtain ⟨address, left, linked⟩ := List.mem_flatMap.mp (cache.live.mem_iff.mp present)
    have sublist := (List.filter_sublist (p := fun device : Device => device.live now) (l := devices)).map (·.address)
    exact holds.cache.mem_live (sublist.subset left) linked
  have gone : q ∉ next.cache.live := by
    intro present
    obtain ⟨address, left, linked⟩ := List.mem_flatMap.mp (cache.live.mem_iff.mp present)
    obtain ⟨other, kept, rfl⟩ := List.mem_map.mp left
    obtain ⟨there, live⟩ := List.mem_filter.mp kept
    by_cases same : other.address = device.address
    · rw [holds.same_device there member same, expired] at live
      cases live
    · exact holds.cache.separate (List.mem_map_of_mem member) (List.mem_map_of_mem there) same linked listed
  have present := holds.cache.mem_live (List.mem_map_of_mem member) listed
  exact ⟨gone, fun address owned => holds.cache.buffer_gone cache query fewer present gone owned⟩

theorem Collects.apart (holds : heap.Holds devices nodes lost)
    (collects : heap.Collects next (Device.gcVictims now devices) (Device.gcKept now devices) nodes lost)
    (complete : GcComplete now devices nodes heap next) : Device.ExpiredApart now devices := by
  refine (Device.gcKept_live_iff now devices).mp fun device kept => ?_
  have addresses := collects.holds.list.chain.unique complete.kept.chain
  have listed : device.address ∈ Device.addresses (devices.filter (·.live now)) :=
    addresses ▸ List.mem_map_of_mem kept
  obtain ⟨other, left, same⟩ := List.mem_map.mp listed
  obtain ⟨member, live⟩ := List.mem_filter.mp left
  rwa [holds.same_device member ((Device.gcKept_sublist now devices).subset kept) same] at live

end ClientHeap

/-- Garbage collection is complete exactly where no two devices in a row have expired behind a live one. -/
theorem jd_device_gc_complete_iff {heap : ClientHeap} {devices : List Device} {nodes : Nat → List Nat} {lost : List Nat}
    (holds : heap.Holds devices nodes lost) (now : Nat) :
    ∃ next, heap.jdDeviceGc now = .ok next ∧
      (GcComplete now devices nodes heap next ↔ Device.ExpiredApart now devices) := by
  obtain ⟨next, done, collects⟩ := ClientHeap.jdDeviceGc_spec holds now
  exact ⟨next, done, collects.apart holds, collects.complete holds⟩

/-- Three devices without services or queries; the first is the last to expire. -/
def threeDevices : List Device := [⟨1, 1, 0, 1000, []⟩, ⟨2, 2, 0, 500, []⟩, ⟨3, 3, 0, 500, []⟩]

def threeHeap : ClientHeap where
  list :=
    { jdDevices := some 1
      next := fun d => if d = 1 then some 2 else if d = 2 then some 3 else none
      node := fun d => ⟨d, 0, if d = 1 then 1000 else 500⟩
      live := [1, 2, 3] }
  cache := .init
  destroyed := []

theorem threeHeap_holds : threeHeap.Holds threeDevices (fun _ => []) [] where
  list := ⟨⟨rfl, rfl, rfl, rfl⟩, by simp [threeDevices, threeHeap, Device.toNode], .refl _⟩
  cache :=
    { apart := by decide
      chain := fun _ _ => rfl
      live := .refl _
      distinct := List.nodup_nil
      values := fun _ present => (List.not_mem_nil present).elim
      indexed := fun _ present => (List.not_mem_nil present).elim
      buffers := .refl _
      single := List.nodup_nil }

theorem jd_device_gc_complete_iff_three :
    threeHeap.Holds threeDevices (fun _ => []) [] ∧
    ∃ next, threeHeap.jdDeviceGc 2000 = .ok next ∧ GcComplete 2000 threeDevices (fun _ => []) threeHeap next := by
  obtain ⟨next, done, complete⟩ := jd_device_gc_complete_iff threeHeap_holds 2000
  exact ⟨threeHeap_holds, next, done, complete.mpr (by decide)⟩

/-- Two devices have expired behind a live one: the second of them stays, and gets no event. -/
theorem jd_device_gc_incomplete :
    threeHeap.Holds threeDevices (fun _ => []) [] ∧ inPast 700 500 = true ∧
    ∃ next, threeHeap.jdDeviceGc 700 = .ok next ∧ ¬ GcComplete 700 threeDevices (fun _ => []) threeHeap next ∧
      next.list.Represents [⟨1, 1, 0, 1000, []⟩, ⟨3, 3, 0, 500, []⟩] ∧ next.destroyed = [2] := by
  obtain ⟨next, done, collects⟩ := ClientHeap.jdDeviceGc_spec threeHeap_holds 700
  refine ⟨threeHeap_holds, by decide, next, done, fun complete => ?_, collects.holds.list, collects.destroyed⟩
  exact absurd (collects.apart threeHeap_holds complete) (by decide)

end Jacdac
