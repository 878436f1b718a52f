import Jacdac.Client.Announce

/-! A device that announces its services over a bus that loses packets and keeps their
order, and a client that keeps a record of it. Both may restart what they know at any
time: the device when it is reset, the client when it drops an expired record. -/

namespace Jacdac

variable {id : Nat}

def ownRecords (id : Nat) (devices : List Device) : List DeviceRecord :=
  (devices.map Device.record).filter (·.deviceIdentifier = id)

theorem ownRecords_append (id : Nat) (first second : List Device) :
    ownRecords id (first ++ second) = ownRecords id first ++ ownRecords id second := by
  rw [ownRecords, List.map_append, List.filter_append, ownRecords, ownRecords]

theorem ownRecords_cons (id : Nat) (device : Device) (rest : List Device) :
    ownRecords id (device :: rest) =
      (if device.deviceIdentifier = id then [device.record] else []) ++ ownRecords id rest := by
  rw [ownRecords, List.map_cons, List.filter_cons, ownRecords]
  by_cases named : device.deviceIdentifier = id
  · rw [if_pos named]
    exact if_pos (decide_eq_true named)
  · rw [if_neg named]
    exact if_neg fun same => named (of_decide_eq_true same)

theorem ownRecords_around {known : Option DeviceRecord} {before after : List Device} {device : Device}
    (own : ownRecords id (before ++ device :: after) = known.toList) :
    if device.deviceIdentifier = id then ownRecords id before = [] ∧ ownRecords id after = []
    else ownRecords id before ++ ownRecords id after = known.toList := by
  rw [ownRecords_append, ownRecords_cons] at own
  split
  · rename_i named
    rw [if_pos named] at own
    have single := congrArg List.length own
    have most : known.toList.length ≤ 1 := by cases known <;> simp
    simp only [List.length_append, List.length_cons, List.length_nil] at single
    exact ⟨List.eq_nil_of_length_eq_zero (by omega), List.eq_nil_of_length_eq_zero (by omega)⟩
  · rename_i other
    rwa [if_neg other, List.nil_append] at own

theorem ownRecords_insert {fresh : Device} {devices : List Device} (config : ClientConfig)
    (room : fresh.deviceIdentifier = id → ownRecords id devices = []) :
    ownRecords id (Device.insert config fresh devices) =
      if fresh.deviceIdentifier = id then [fresh.record] else ownRecords id devices := by
  induction devices with
  | nil =>
    rw [Device.insert, ownRecords_cons]
    split <;> rfl
  | cons existing rest ih =>
    unfold Device.insert
    split
    · rw [ownRecords_cons id fresh]
      split
      · rename_i named
        rw [room named, List.append_nil]
      · rw [List.nil_append]
    · rw [ownRecords_cons] at room
      rw [ownRecords_cons, ih fun named => (List.append_eq_nil_iff.mp (room named)).2]
      by_cases named : fresh.deviceIdentifier = id
      · rw [if_pos named, if_pos named, (List.append_eq_nil_iff.mp (room named)).1, List.nil_append]
      · rw [if_neg named, if_neg named, ownRecords_cons]

namespace ClientState

variable {state : ClientState} {known : Option DeviceRecord} {device : Device}

/-- The client's record of the device with this identifier. -/
structure Keeps (id : Nat) (state : ClientState) (known : Option DeviceRecord) : Prop where
  apart : state.Apart
  own : ownRecords id state.devices = known.toList

theorem Keeps.of_records {other : ClientState} (keeps : state.Keeps id known) (same : other.records = state.records) :
    other.Keeps id known := by
  have addresses (state : ClientState) : Device.addresses state.devices = state.records.map (·.address) := by
    rw [records, List.map_map]
    rfl
  constructor
  · rw [Apart, addresses, same, ← addresses]
    exact keeps.apart
  · unfold records at same
    rw [ownRecords, same]
    exact keeps.own

theorem Keeps.of_mem (keeps : state.Keeps id known) (listed : device ∈ state.devices)
    (named : device.deviceIdentifier = id) : known = some device.record := by
  have member : device.record ∈ ownRecords id state.devices :=
    List.mem_filter.mpr ⟨List.mem_map_of_mem listed, decide_eq_true named⟩
  rw [keeps.own] at member
  exact Option.mem_toList.mp member

theorem Keeps.listed {record : DeviceRecord} (keeps : state.Keeps id (some record)) :
    ∃ device ∈ state.devices, device.deviceIdentifier = id ∧ device.record = record := by
  have member : record ∈ ownRecords id state.devices := by rw [keeps.own]; simp
  obtain ⟨present, named⟩ := List.mem_filter.mp member
  obtain ⟨device, listed, rfl⟩ := List.mem_map.mp present
  exact ⟨device, listed, of_decide_eq_true named, rfl⟩

theorem Keeps.lookup (keeps : state.Keeps id known) :
    (Device.lookup id state.devices).map Device.record = known := by
  cases found : Device.lookup id state.devices with
  | none =>
    cases known with
    | none => rfl
    | some record =>
      obtain ⟨device, listed, named, _⟩ := keeps.listed
      exact absurd (decide_eq_true named) (List.find?_eq_none.mp found device listed)
  | some device =>
    have named : device.deviceIdentifier = id := by simpa using List.find?_some found
    exact (keeps.of_mem (Device.lookup_mem found) named).symm

theorem Keeps.dropDevice (keeps : state.Keeps id known) (listed : device ∈ state.devices) :
    (state.dropDevice device).Keeps id (if device.deviceIdentifier = id then none else known) := by
  refine ⟨apart_client.drop state device keeps.apart, ?_⟩
  obtain ⟨before, after, split⟩ := List.mem_iff_append.mp listed
  have apart : (Device.addresses (before ++ device :: after)).Nodup := split ▸ keeps.apart
  have left : (state.dropDevice device).records = (before ++ after).map Device.record := by
    rw [dropDevice_records, records, ← Device.unlink_record, split, Device.unlink_middle before after device apart]
  have around := ownRecords_around (split ▸ keeps.own)
  unfold records at left
  rw [ownRecords, left]
  change ownRecords id (before ++ after) = _
  rw [ownRecords_append]
  split at around
  · rename_i named
    rw [around.1, around.2, if_pos named]
    rfl
  · rename_i other
    rw [around, if_neg other]

/-- A new device. -/
theorem Keeps.deviceAlloc (keeps : state.Keeps id known) (config : ClientConfig) (allocator : Allocator) (now : Nat)
    (announce : ClientPacket) (room : announce.deviceIdentifier = id → known = none) :
    (state.jdDeviceAlloc config allocator now announce).Keeps id
      (if announce.deviceIdentifier = id then
        some (Device.ofAnnounce (allocator.alloc (Device.addresses state.devices)) now announce).record
      else known) := by
  refine ⟨apart_client.alloc state config allocator now announce keeps.apart, ?_⟩
  have inserted := @ownRecords_insert id
    (Device.ofAnnounce (allocator.alloc (Device.addresses state.devices)) now announce) state.devices config
    (fun named => by rw [keeps.own, room named]; rfl)
  refine inserted.trans ?_
  rw [keeps.own]
  change (if announce.deviceIdentifier = id then _ else _) = _
  split <;> rfl

theorem Keeps.updateDevice (keeps : state.Keeps id known) (listed : device ∈ state.devices) (announceFlags expires : Nat) :
    (state.updateDevice device.address fun device => { device with announceFlags, expires }).Keeps id
      (if device.deviceIdentifier = id then some { device.record with announceFlags, expires } else known) := by
  refine ⟨keeps.apart.updateDevice _ _ fun _ => rfl, ?_⟩
  obtain ⟨before, after, split⟩ := List.mem_iff_append.mp listed
  have around := ownRecords_around (split ▸ keeps.own)
  have apart : (Device.addresses (before ++ device :: after)).Nodup := split ▸ keeps.apart
  rw [Device.addresses, List.map_append, List.map_cons] at apart
  obtain ⟨_, behind, between⟩ := List.nodup_append.mp apart
  have untouched (others : List Device) (elsewhere : ∀ other ∈ others, other.address ≠ device.address) :
      others.map (fun other => if other.address = device.address then { other with announceFlags, expires } else other) =
        others :=
    (List.map_congr_left fun other member => if_neg (elsewhere other member)).trans (List.map_id' others)
  have early := untouched before fun other member => between _ (List.mem_map_of_mem member) _ List.mem_cons_self
  have late := untouched after fun other member same =>
    (List.nodup_cons.mp behind).1 (same ▸ List.mem_map_of_mem member)
  have stored : (state.updateDevice device.address fun device => { device with announceFlags, expires }).devices =
      before ++ { device with announceFlags, expires } :: after := by
    unfold ClientState.updateDevice
    dsimp only
    rw [split, List.map_append, List.map_cons, if_pos rfl, early, late]
  rw [stored, ownRecords_append, ownRecords_cons]
  split at around
  · rename_i named
    rw [around.1, around.2, if_pos named, if_pos named]
    rfl
  · rename_i other
    rw [if_neg other, if_neg other]
    exact around

/-- A garbage collection drops the record, if it has expired, or leaves it. -/
theorem Keeps.gc (keeps : state.Keeps id known) (now : Nat) :
    (state.jdDeviceGc now).Keeps id known ∨
      (state.jdDeviceGc now).Keeps id none ∧ ∃ record, known = some record ∧ inPast now record.expires = true := by
  have apart := apart_client.gc keeps.apart now
  have left := gc_records now state keeps.apart
  have fewer := ((Device.gcKept_sublist now state.devices).map Device.record).filter (·.deviceIdentifier = id)
  have own := keeps.own
  unfold records at left
  cases known with
  | none =>
    refine .inl ⟨apart, ?_⟩
    rw [ownRecords] at own ⊢
    rw [own] at fewer
    rw [left]
    exact List.sublist_nil.mp fewer
  | some record =>
    obtain ⟨device, listed, named, rfl⟩ := keeps.listed
    rcases List.mem_append.mp ((Device.gc_perm now state.devices).mem_iff.mpr listed) with freed | kept
    · rw [ownRecords] at own
      rw [own] at fewer
      rcases List.sublist_singleton.mp fewer with gone | same
      · refine .inr ⟨⟨apart, ?_⟩, _, rfl, Device.gcVictims_expired freed⟩
        rw [ownRecords, left]
        exact gone
      · refine .inl ⟨apart, ?_⟩
        rw [ownRecords, left]
        exact same
    · refine .inl ⟨apart, ?_⟩
      have member : device.record ∈ ((Device.gcKept now state.devices).map Device.record).filter (·.deviceIdentifier = id) :=
        List.mem_filter.mpr ⟨List.mem_map_of_mem kept, decide_eq_true named⟩
      rw [ownRecords] at own
      rw [own] at fewer
      rw [ownRecords, left]
      rcases List.sublist_singleton.mp fewer with gone | same
      · rw [gone] at member
        cases member
      · exact same

/-- Whether `JD_CLIENT_EV_DEVICE_RESET` is sent for an announce. -/
def emitsReset (config : ClientConfig) (pkt : ClientPacket) (state : ClientState) : Bool :=
  match Device.lookup pkt.deviceIdentifier state.devices with
  | none => false
  | some dev =>
    dev.announceFlags ≠ pkt.word 0 % 65536 ∧
      config.restartCounter dev.announceFlags > config.restartCounter (pkt.word 0 % 65536)

def announced (flags : AnnounceFlags) (deviceId address now : Nat) (classes : List Nat) (counter : Nat) :
    Option DeviceRecord → DeviceRecord
  | none => ⟨address, deviceId, counter ||| flags.others, u32 (now + expiresUsec), 0 :: classes.tail⟩
  | some record =>
    if record.announceFlags &&& flags.steady > counter then
      ⟨address, deviceId, counter ||| flags.others, u32 (now + expiresUsec), 0 :: classes.tail⟩
    else { record with announceFlags := counter ||| flags.others, expires := u32 (now + expiresUsec) }

theorem Keeps.announce {flags : AnnounceFlags} {classes : List Nat} {counter : Nat} {pkt : ClientPacket}
    (keeps : state.Keeps id known) (announces : pkt.Announces flags id classes counter) (within : counter ≤ flags.steady)
    (deviceId : Nat) (allocator : Allocator) (now : Nat) :
    (state.emitsReset (flags.clientConfig deviceId) pkt = true ↔
      ∃ record, known = some record ∧ record.announceFlags &&& flags.steady > counter) ∧
    ∃ address, (state.jdClientHandlePacket (flags.clientConfig deviceId) allocator now pkt).Keeps id
      (some (announced flags id address now classes counter known)) := by
  have own := announces.deviceIdentifier
  have word := announces.flags
  have fresh (address : Nat) : (Device.ofAnnounce address now pkt).record =
      ⟨address, id, counter ||| flags.others, u32 (now + expiresUsec), 0 :: classes.tail⟩ := by
    have services : (Device.ofAnnounce address now pkt).services.map (·.serviceClass) = 0 :: classes.tail := by
      rw [← announces.classes, Device.ofAnnounce, List.map_map]
      rfl
    rw [Device.record, services, ← word, ← own]
    rfl
  have found := keeps.lookup
  unfold jdClientHandlePacket emitsReset
  rw [if_neg announces.report, if_pos announces.announce, own, word]
  simp only [AnnounceFlags.clientConfig, AnnounceFlags.restartCounter_or within]
  cases listed : Device.lookup id state.devices with
  | none =>
    rw [listed] at found
    obtain rfl : none = known := found
    refine ⟨by simp, ?_⟩
    have created := keeps.deviceAlloc (flags.clientConfig deviceId) allocator now pkt fun _ => rfl
    rw [if_pos own, fresh] at created
    exact ⟨_, created⟩
  | some dev =>
    rw [listed] at found
    obtain rfl : some dev.record = known := found
    have member := Device.lookup_mem listed
    have named : dev.deviceIdentifier = id := by simpa using List.find?_some listed
    have differ : dev.announceFlags &&& flags.steady > counter → dev.announceFlags ≠ counter ||| flags.others := by
      intro more same
      rw [same, AnnounceFlags.restartCounter_or within] at more
      exact Nat.lt_irrefl _ more
    dsimp only
    by_cases less : dev.announceFlags &&& flags.steady > counter
    · refine ⟨by simp [less, differ less, Device.record], ?_⟩
      rw [if_pos ⟨differ less, less⟩]
      have dropped := keeps.dropDevice member
      rw [if_pos named] at dropped
      have created := dropped.deviceAlloc (flags.clientConfig deviceId) allocator now pkt fun _ => rfl
      rw [if_pos own, fresh] at created
      refine ⟨allocator.alloc (Device.addresses (state.dropDevice dev).devices), ?_⟩
      change Keeps id _ (some (if dev.announceFlags &&& flags.steady > counter then _ else _))
      rw [if_pos less]
      exact created
    · refine ⟨by simp [less, Device.record], ?_⟩
      rw [if_neg fun both => less both.2]
      have updated := keeps.updateDevice member (counter ||| flags.others) (u32 (now + expiresUsec))
      rw [if_pos named] at updated
      refine ⟨0, ?_⟩
      change Keeps id _ (some (if dev.announceFlags &&& flags.steady > counter then _ else _))
      rw [if_neg less]
      exact updated

/-- No other packet touches the record. -/
theorem Keeps.other {pkt : ClientPacket} (keeps : state.Keeps id known)
    (other : pkt.identifierIsServiceClass = true ∨ pkt.command = true ∨ pkt.serviceIndex ≠ 0 ∨ pkt.serviceCommand ≠ 0 ∨
      pkt.deviceIdentifier ≠ id)
    (config : ClientConfig) (allocator : Allocator) (now : Nat) :
    (state.jdClientHandlePacket config allocator now pkt).Keeps id known := by
  unfold jdClientHandlePacket
  split
  · exact keeps
  · rename_i report
    split
    · rename_i announce
      have elsewhere : pkt.deviceIdentifier ≠ id := by
        obtain ⟨plain, broadcast⟩ := not_or.mp report
        obtain ⟨index, command⟩ := announce
        simpa [plain, broadcast, index, command] using other
      dsimp only
      split
      · have created := keeps.deviceAlloc config allocator now pkt fun same => absurd same elsewhere
        rwa [if_neg elsewhere] at created
      · rename_i dev listed
        have member := Device.lookup_mem listed
        have named : dev.deviceIdentifier = pkt.deviceIdentifier := by simpa using List.find?_some listed
        split
        · have dropped := keeps.dropDevice member
          rw [if_neg (named ▸ elsewhere)] at dropped
          have created := dropped.deviceAlloc config allocator now pkt fun same => absurd same elsewhere
          rwa [if_neg elsewhere] at created
        · have updated := keeps.updateDevice member (pkt.word 0 % 65536) (u32 (now + expiresUsec))
          rwa [if_neg (named ▸ elsewhere)] at updated
    · exact keeps

end ClientState

end Jacdac
