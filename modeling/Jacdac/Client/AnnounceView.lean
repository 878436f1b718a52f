import Jacdac.Client.AnnounceRun

/-! Runs of the device, the bus and the client, and how far the client's record can
be behind the device. -/

namespace Jacdac

/-- An announce on the bus: how often the device had been reset before, and how many
times it had announced since. -/
structure Announcement where
  epoch : Nat
  count : Nat
  packet : ClientPacket

/-- An announce that the client has handled. -/
structure Heard where
  epoch : Nat
  count : Nat
  time : Nat
  /-- The client had a record of the device. -/
  known : Bool
  /-- The client sent `JD_CLIENT_EV_DEVICE_RESET`. -/
  reported : Bool

structure AnnounceWorld where
  epoch : Nat
  count : Nat
  announcer : Announcer
  bus : List Announcement
  now : Nat
  client : ClientState
  heard : List Heard

namespace AnnounceWorld

def start : AnnounceWorld where
  epoch := 0
  count := 0
  announcer := ⟨0, 0⟩
  bus := []
  now := 0
  client := .init
  heard := []

/-- `jd_services_announce`; a packet that `jd_send` refused is not on the bus. -/
def announce (flags : AnnounceFlags) (id : Nat) (services : Nat → List Nat) (sent : Bool) (world : AnnounceWorld) :
    AnnounceWorld :=
  let (packet, announcer) := world.announcer.jdServicesAnnounce flags id (services world.epoch) sent
  { world with
    count := world.count + 1
    announcer
    bus := if sent then world.bus ++ [⟨world.epoch, world.count + 1, packet⟩] else world.bus }

def heardAs (config : ClientConfig) (announcement : Announcement) (world : AnnounceWorld) : Heard where
  epoch := announcement.epoch
  count := announcement.count
  time := world.now
  known := (Device.lookup announcement.packet.deviceIdentifier world.client.devices).isSome
  reported := world.client.emitsReset config announcement.packet

def hear (config : ClientConfig) (allocator : Allocator) (announcement : Announcement) (rest : List Announcement)
    (world : AnnounceWorld) : AnnounceWorld :=
  { world with
    bus := rest
    client := world.client.jdClientHandlePacket config allocator (u32 world.now) announcement.packet
    heard := world.heard ++ [world.heardAs config announcement] }

end AnnounceWorld

/-- What the role manager does. -/
inductive RoleStep (config : ClientConfig) (state : ClientState) : ClientState → Prop where
  | roleAlloc (name : List UInt8) (serviceClass : Nat) : RoleStep config state (state.jdRoleAlloc name serviceClass)
  | roleFree (index : Nat) : RoleStep config state (state.jdRoleFree index)
  | roleFreeAll : RoleStep config state state.jdRoleFreeAll
  | autobind : RoleStep config state (state.rolemgrAutobind config)
  | setRole (deviceId serviceIdx : Nat) (name : List UInt8) :
    RoleStep config state (state.rolemgrSetRole deviceId serviceIdx name)
  | clearAllRoles : RoleStep config state state.clearAllRoles
  | setHints (force : Bool) (appDeviceId : Nat) : RoleStep config state (state.jdRoleSetHints force appDeviceId)
  | setAutoBind (enabled : Bool) : RoleStep config state { state with autoBindEnabled := enabled }

/-- Runs of a device with this identifier, which has these services after each reset,
and of a client on another device or on the same. -/
inductive AnnounceRun (flags : AnnounceFlags) (deviceId id : Nat) (services : Nat → List Nat) : AnnounceWorld → Prop where
  | start : AnnounceRun flags deviceId id services .start
  | announce (run : AnnounceRun flags deviceId id services world) (sent : Bool) :
    AnnounceRun flags deviceId id services (world.announce flags id services sent)
  | queued (run : AnnounceRun flags deviceId id services world) :
    AnnounceRun flags deviceId id services { world with announcer := world.announcer.jdServicesPacketQueued }
  | reset (run : AnnounceRun flags deviceId id services world) :
    AnnounceRun flags deviceId id services { world with epoch := world.epoch + 1, count := 0, announcer := ⟨0, 0⟩ }
  | lose (run : AnnounceRun flags deviceId id services world) (waits : world.bus = before ++ lost :: after) :
    AnnounceRun flags deviceId id services { world with bus := before ++ after }
  | hear (run : AnnounceRun flags deviceId id services world) (allocator : Allocator)
      (waits : world.bus = announcement :: rest) :
    AnnounceRun flags deviceId id services (world.hear (flags.clientConfig deviceId) allocator announcement rest)
  | other (run : AnnounceRun flags deviceId id services world) (allocator : Allocator) (pkt : ClientPacket)
      (other : pkt.identifierIsServiceClass = true ∨ pkt.command = true ∨ pkt.serviceIndex ≠ 0 ∨ pkt.serviceCommand ≠ 0 ∨
        pkt.deviceIdentifier ≠ id) :
    AnnounceRun flags deviceId id services
      { world with
        client := world.client.jdClientHandlePacket (flags.clientConfig deviceId) allocator (u32 world.now) pkt }
  | wait (run : AnnounceRun flags deviceId id services world) (later : world.now ≤ now) :
    AnnounceRun flags deviceId id services { world with now }
  | gc (run : AnnounceRun flags deviceId id services world) :
    AnnounceRun flags deviceId id services { world with client := world.client.jdDeviceGc (u32 world.now) }
  | roles (run : AnnounceRun flags deviceId id services world)
      (step : RoleStep (flags.clientConfig deviceId) world.client client) :
    AnnounceRun flags deviceId id services { world with client }

/-- Sent earlier: before a reset, or after the same one. -/
def Earlier (first second : Nat × Nat) : Prop := first.1 < second.1 ∨ first.1 = second.1 ∧ first.2 < second.2

def Announcement.place (announcement : Announcement) : Nat × Nat := (announcement.epoch, announcement.count)

def Heard.place (heard : Heard) : Nat × Nat := (heard.epoch, heard.count)

/-- Between two of these announces there is a reset that the restart counter does not show, because it stops at its
largest value: the device had announced as often again as the counter could tell. -/
def Masked (flags : AnnounceFlags) (heard : List Heard) : Prop :=
  ∃ early one other late, heard = early ++ one :: other :: late ∧ one.epoch < other.epoch ∧
    min flags.steady one.count ≤ other.count

variable {flags : AnnounceFlags} {deviceId id : Nat} {services : Nat → List Nat}

/-- The record was made when this announce was heard: the client had none, or a reset was reported. It was kept when
the later ones were. -/
structure MadeAt (heard : List Heard) (made : Heard) (later : List Heard) : Prop where
  part : ∃ early, heard = early ++ made :: later
  made : made.known = false ∨ made.reported = true
  kept : ∀ other ∈ later, other.known = true ∧ other.reported = false

/-- What the record says about the announces that were heard. -/
structure Records (flags : AnnounceFlags) (services : Nat → List Nat) (heard : List Heard) (last : Heard)
    (record : DeviceRecord) : Prop where
  latest : heard.getLast? = some last
  announceFlags : record.announceFlags = min flags.steady last.count ||| flags.others
  expires : record.expires = u32 (u32 last.time + expiresUsec)
  classes : ∃ made later, MadeAt heard made later ∧ record.classes = 0 :: (services made.epoch).tail ∧
    (made.epoch = last.epoch ∨ Masked flags (made :: later))

/-- The client has a record, or has not heard from the device for a while. -/
inductive AnnounceWorld.View (flags : AnnounceFlags) (id : Nat) (services : Nat → List Nat) (world : AnnounceWorld) :
    Prop where
  | unknown (keeps : world.client.Keeps id none)
      (silent : ∀ last, world.heard.getLast? = some last → last.time + expiresUsec ≤ world.now)
  | known (keeps : world.client.Keeps id (some record)) (records : Records flags services world.heard last record)

structure AnnounceWorld.Follows (flags : AnnounceFlags) (id : Nat) (services : Nat → List Nat) (world : AnnounceWorld) :
    Prop where
  counter : world.announcer.resetCounter = min flags.steady world.count
  ordered : (world.heard.map Heard.place ++ world.bus.map Announcement.place).Pairwise Earlier
  sent : ∀ place ∈ world.heard.map Heard.place ++ world.bus.map Announcement.place,
    place.1 < world.epoch ∨ place.1 = world.epoch ∧ place.2 ≤ world.count
  carried : ∀ announcement ∈ world.bus, announcement.packet.Announces flags id (services announcement.epoch)
    (min flags.steady announcement.count)
  past : ∀ heard ∈ world.heard, heard.time ≤ world.now
  reports : ∀ before heard after, world.heard = before ++ heard :: after → heard.reported = true →
    ∃ earlier last, before = earlier ++ [last] ∧ last.epoch < heard.epoch
  view : world.View flags id services

theorem MadeAt.now {new : Heard} (heard : List Heard) (made : new.known = false ∨ new.reported = true) :
    MadeAt (heard ++ [new]) new [] := ⟨⟨heard, rfl⟩, made, nofun⟩

theorem MadeAt.append {heard later : List Heard} {made new : Heard} (at_ : MadeAt heard made later)
    (kept : new.known = true ∧ new.reported = false) : MadeAt (heard ++ [new]) made (later ++ [new]) where
  part := by
    obtain ⟨early, rfl⟩ := at_.part
    exact ⟨early, by rw [List.append_assoc, List.cons_append]⟩
  made := at_.made
  kept other member := by
    rcases List.mem_append.mp member with before | last
    · exact at_.kept other before
    · rw [List.mem_singleton.mp last]
      exact kept

/-- The announce heard last is among those since the record was made. -/
theorem MadeAt.split_last {heard later : List Heard} {made last : Heard} (at_ : MadeAt heard made later)
    (latest : heard.getLast? = some last) : ∃ front, made :: later = front ++ [last] := by
  obtain ⟨early, rfl⟩ := at_.part
  rw [List.getLast?_append_of_ne_nil _ (List.cons_ne_nil _ _)] at latest
  exact ⟨_, (List.dropLast_append_getLast? last latest).symm⟩

theorem Masked.append (masked : Masked flags heard) (more : List Heard) : Masked flags (heard ++ more) := by
  obtain ⟨early, one, other, late, rfl, reset, hidden⟩ := masked
  exact ⟨early, one, other, late ++ more, by simp, reset, hidden⟩

/-- The role manager does not touch the record. -/
theorem RoleStep.keeps {config : ClientConfig} {state next : ClientState} (step : RoleStep config state next)
    (keeps : state.Keeps id known) : next.Keeps id known := by
  have stable := ClientState.records_stable state.records
  cases step with
  | roleAlloc name serviceClass => exact keeps.of_records (stable.roleAlloc rfl name serviceClass)
  | roleFree index => exact keeps.of_records (stable.roleFree rfl index)
  | roleFreeAll => exact keeps.of_records (stable.roleFreeAll rfl)
  | autobind => exact keeps.of_records (stable.autobind rfl config)
  | setRole deviceId serviceIdx name => exact keeps.of_records (ClientState.setRole_records deviceId serviceIdx name state)
  | clearAllRoles => exact keeps.of_records (stable.clearAllRoles rfl)
  | setHints force appDeviceId => exact keeps.of_records rfl
  | setAutoBind enabled => exact keeps.of_records rfl

theorem concat_split {α : Type} {items early late : List α} {item new : α}
    (split : items ++ [new] = early ++ item :: late) :
    (late = [] ∧ early = items ∧ item = new) ∨ ∃ rest, late = rest ++ [new] ∧ items = early ++ item :: rest := by
  rcases List.eq_nil_or_concat late with rfl | ⟨rest, final, rfl⟩
  · obtain ⟨rfl, single⟩ := List.append_inj' split rfl
    exact .inl ⟨rfl, rfl, (List.cons.inj single).1.symm⟩
  · rw [List.concat_eq_append] at split ⊢
    rw [← List.cons_append, ← List.append_assoc] at split
    obtain ⟨rfl, single⟩ := List.append_inj' split rfl
    exact .inr ⟨rest, by rw [(List.cons.inj single).1], rfl⟩

namespace AnnounceWorld

variable {world : AnnounceWorld}

theorem View.of_client {client : ClientState} (view : world.View flags id services)
    (kept : ∀ known, world.client.Keeps id known → client.Keeps id known) :
    View flags id services { world with client } := by
  cases view with
  | unknown keeps silent => exact .unknown (kept _ keeps) silent
  | known keeps records => exact .known (kept _ keeps) records

theorem Follows.start (flags : AnnounceFlags) (id : Nat) (services : Nat → List Nat) : start.Follows flags id services where
  counter := by simp [AnnounceWorld.start]
  ordered := .nil
  sent := nofun
  carried := nofun
  past := nofun
  reports before heard after split := absurd split (by simp [AnnounceWorld.start])
  view := .unknown ⟨.nil, rfl⟩ nofun

/-- An announce takes its place behind all that were sent. -/
theorem Follows.announce (follows : world.Follows flags id services) (offered : ∀ epoch, services epoch ≠ []) (sent : Bool) :
    (world.announce flags id services sent).Follows flags id services := by
  have within : world.announcer.resetCounter ≤ flags.steady := follows.counter ▸ Nat.min_le_left _ _
  have counted := @Announcer.jdServicesAnnounce_counter flags id (services world.epoch) world.announcer within sent
  have announces := @Announcer.jdServicesAnnounce_announces flags id (services world.epoch) world.announcer within
    (offered world.epoch) sent
  have next : min flags.steady (world.announcer.resetCounter + 1) = min flags.steady (world.count + 1) := by
    rw [follows.counter]
    omega
  rw [next] at counted announces
  have behind : ∀ place ∈ world.heard.map Heard.place ++ world.bus.map Announcement.place,
      Earlier place (world.epoch, world.count + 1) := by
    intro place member
    rcases follows.sent place member with before | ⟨same, upTo⟩
    · exact .inl before
    · exact .inr ⟨same, Nat.lt_succ_of_le upTo⟩
  have still : ∀ place ∈ world.heard.map Heard.place ++ world.bus.map Announcement.place,
      place.1 < world.epoch ∨ place.1 = world.epoch ∧ place.2 ≤ world.count + 1 := by
    intro place member
    exact (follows.sent place member).imp_right fun ⟨same, upTo⟩ => ⟨same, Nat.le_succ_of_le upTo⟩
  cases sent with
  | false =>
    exact
      { counter := counted
        ordered := follows.ordered
        sent := still
        carried := follows.carried
        past := follows.past
        reports := follows.reports
        view := by
          cases follows.view with
          | unknown keeps silent => exact .unknown keeps silent
          | known keeps records => exact .known keeps records }
  | true =>
    have places : (world.announce flags id services true).heard.map Heard.place ++
        (world.announce flags id services true).bus.map Announcement.place =
          (world.heard.map Heard.place ++ world.bus.map Announcement.place) ++ [(world.epoch, world.count + 1)] := by
      simp [AnnounceWorld.announce, Announcement.place]
    exact
      { counter := counted
        ordered := by
          rw [places, List.pairwise_append]
          refine ⟨follows.ordered, List.pairwise_singleton _ _, fun place member last single => ?_⟩
          rw [List.mem_singleton.mp single]
          exact behind place member
        sent := by
          rw [places]
          intro place member
          rcases List.mem_append.mp member with before | last
          · exact still place before
          · rw [List.mem_singleton.mp last]
            exact .inr ⟨rfl, Nat.le_refl _⟩
        carried := by
          intro announcement member
          rcases List.mem_append.mp member with before | last
          · exact follows.carried announcement before
          · rw [List.mem_singleton.mp last]
            exact announces
        past := follows.past
        reports := follows.reports
        view := by
          cases follows.view with
          | unknown keeps silent => exact .unknown keeps silent
          | known keeps records => exact .known keeps records }

/-- The client changed, but not its record. -/
theorem Follows.of_client {client : ClientState} (follows : world.Follows flags id services)
    (kept : ∀ known, world.client.Keeps id known → client.Keeps id known) :
    Follows flags id services { world with client } where
  counter := follows.counter
  ordered := follows.ordered
  sent := follows.sent
  carried := follows.carried
  past := follows.past
  reports := follows.reports
  view := follows.view.of_client kept

theorem Follows.lose (follows : world.Follows flags id services) {bus : List Announcement} (fewer : bus.Sublist world.bus) :
    Follows flags id services { world with bus } := by
  have places : (world.heard.map Heard.place ++ bus.map Announcement.place).Sublist
      (world.heard.map Heard.place ++ world.bus.map Announcement.place) :=
    (List.Sublist.refl _).append (fewer.map _)
  exact
    { counter := follows.counter
      ordered := follows.ordered.sublist places
      sent := fun place member => follows.sent place (places.subset member)
      carried := fun announcement member => follows.carried announcement (fewer.subset member)
      past := follows.past
      reports := follows.reports
      view := by
        cases follows.view with
        | unknown keeps silent => exact .unknown keeps silent
        | known keeps records => exact .known keeps records }

/-- A record that expires has not been renewed for two seconds. -/
theorem expired_silent {time now : Nat} (past : time ≤ now)
    (expired : inPast (u32 now) (u32 (u32 time + expiresUsec)) = true) : time + expiresUsec ≤ now := by
  have usec : expiresUsec = 2000000 := rfl
  simp only [inPast, beq_iff_eq] at expired
  unfold u32 at expired
  omega

theorem Follows.gc (follows : world.Follows flags id services) :
    Follows flags id services { world with client := world.client.jdDeviceGc (u32 world.now) } where
  counter := follows.counter
  ordered := follows.ordered
  sent := follows.sent
  carried := follows.carried
  past := follows.past
  reports := follows.reports
  view := by
    cases follows.view with
    | unknown keeps silent =>
      rcases keeps.gc (u32 world.now) with kept | ⟨_, _, unknown, _⟩
      · exact .unknown kept silent
      · cases unknown
    | @known record last keeps records =>
      rcases keeps.gc (u32 world.now) with kept | ⟨dropped, _, same, expired⟩
      · exact .known kept records
      · obtain rfl := Option.some.inj same
        refine .unknown dropped fun final latest => ?_
        obtain rfl : last = final := Option.some.inj (records.latest.symm.trans latest)
        rw [records.expires] at expired
        exact expired_silent (follows.past last (List.mem_of_getLast? records.latest)) expired

theorem Follows.wait {now : Nat} (follows : world.Follows flags id services) (later : world.now ≤ now) :
    Follows flags id services { world with now } where
  counter := follows.counter
  ordered := follows.ordered
  sent := follows.sent
  carried := follows.carried
  past heard member := (follows.past heard member).trans later
  reports := follows.reports
  view := by
    cases follows.view with
    | unknown keeps silent => exact .unknown keeps fun last latest => (silent last latest).trans later
    | known keeps records => exact .known keeps records

/-- The device starts to count again. -/
theorem Follows.reset (follows : world.Follows flags id services) :
    Follows flags id services { world with epoch := world.epoch + 1, count := 0, announcer := ⟨0, 0⟩ } where
  counter := by simp
  ordered := follows.ordered
  sent place member := by
    rcases follows.sent place member with before | ⟨same, _⟩
    · exact .inl (Nat.lt_succ_of_lt before)
    · exact .inl (same ▸ Nat.lt_succ_self _)
  carried := follows.carried
  past := follows.past
  reports := follows.reports
  view := by
    cases follows.view with
    | unknown keeps silent => exact .unknown keeps silent
    | known keeps records => exact .known keeps records

theorem Follows.hear {announcement : Announcement} {rest : List Announcement} (follows : world.Follows flags id services)
    (deviceId : Nat) (allocator : Allocator) (waits : world.bus = announcement :: rest) :
    (world.hear (flags.clientConfig deviceId) allocator announcement rest).Follows flags id services := by
  have within : min flags.steady announcement.count ≤ flags.steady := Nat.min_le_left _ _
  have announces := follows.carried announcement (waits ▸ List.mem_cons_self)
  have order := follows.ordered
  rw [waits, List.map_cons] at order
  have places : (world.hear (flags.clientConfig deviceId) allocator announcement rest).heard.map Heard.place ++
      rest.map Announcement.place = world.heard.map Heard.place ++ world.bus.map Announcement.place := by
    simp [AnnounceWorld.hear, AnnounceWorld.heardAs, waits, Heard.place, Announcement.place]
  have before (last : Heard) (latest : world.heard.getLast? = some last) :
      Earlier last.place announcement.place :=
    (List.pairwise_append.mp order).2.2 _ (List.mem_map_of_mem (List.mem_of_getLast? latest)) _ List.mem_cons_self
  have latest : (world.hear (flags.clientConfig deviceId) allocator announcement rest).heard.getLast? =
      some (world.heardAs (flags.clientConfig deviceId) announcement) := List.getLast?_concat ..
  have kept : ∀ known, world.client.Keeps id known →
      (world.client.emitsReset (flags.clientConfig deviceId) announcement.packet = true ↔
        ∃ record, known = some record ∧ record.announceFlags &&& flags.steady > min flags.steady announcement.count) ∧
      ∃ address, (world.hear (flags.clientConfig deviceId) allocator announcement rest).client.Keeps id
        (some (ClientState.announced flags id address (u32 world.now) (services announcement.epoch)
          (min flags.steady announcement.count) known)) :=
    fun known keeps => keeps.announce announces within deviceId allocator (u32 world.now)
  have counted {last : Heard} {record : DeviceRecord} (records : Records flags services world.heard last record) :
      record.announceFlags &&& flags.steady = min flags.steady last.count := by
    rw [records.announceFlags, AnnounceFlags.restartCounter_or (Nat.min_le_left _ _)]
  exact
    { counter := follows.counter
      ordered := places ▸ follows.ordered
      sent := places ▸ follows.sent
      carried := fun other member => follows.carried other (waits ▸ List.mem_cons_of_mem _ member)
      past := by
        intro heard member
        rcases List.mem_append.mp member with earlier | last
        · exact follows.past heard earlier
        · rw [List.mem_singleton.mp last]
          exact Nat.le_refl _
      reports := by
        intro early heard late split reported
        rcases concat_split split with ⟨_, rfl, rfl⟩ | ⟨rest, _, split⟩
        · cases follows.view with
          | unknown keeps silent =>
            obtain ⟨record, same, _⟩ := (kept _ keeps).1.mp reported
            cases same
          | @known record last keeps records =>
            obtain ⟨_, same, less⟩ := (kept _ keeps).1.mp reported
            obtain rfl := Option.some.inj same
            rw [counted records] at less
            refine ⟨_, last, (List.dropLast_append_getLast? last records.latest).symm, ?_⟩
            rcases before last records.latest with older | ⟨_, fewer⟩
            · exact older
            · change last.count < announcement.count at fewer
              omega
        · exact follows.reports early heard rest split reported
      view := by
        have lookup (known : Option DeviceRecord) (keeps : world.client.Keeps id known) :
            (world.heardAs (flags.clientConfig deviceId) announcement).known = known.isSome := by
          rw [← keeps.lookup, Option.isSome_map, ← announces.deviceIdentifier]
          rfl
        cases follows.view with
        | unknown keeps silent =>
          obtain ⟨_, address, next⟩ := kept _ keeps
          exact .known next ⟨latest, rfl, rfl, _, _, .now _ (.inl (lookup _ keeps)), rfl, .inl rfl⟩
        | @known record last keeps records =>
          obtain ⟨reported, address, next⟩ := kept _ keeps
          by_cases less : record.announceFlags &&& flags.steady > min flags.steady announcement.count
          · rw [ClientState.announced, if_pos less] at next
            exact .known next ⟨latest, rfl, rfl, _, _, .now _ (.inr (reported.mpr ⟨record, rfl, less⟩)), rfl, .inl rfl⟩
          · rw [ClientState.announced, if_neg less] at next
            have silent : (world.heardAs (flags.clientConfig deviceId) announcement).reported = false :=
              Bool.eq_false_iff.mpr fun told => by
                obtain ⟨_, same, more⟩ := reported.mp told
                exact less (Option.some.inj same ▸ more)
            obtain ⟨made, later, since, classes, current⟩ := records.classes
            refine .known next ⟨latest, rfl, rfl, made, _, since.append ⟨lookup _ keeps, silent⟩, classes, ?_⟩
            rcases current with current | masked
            · rcases before last records.latest with older | ⟨same, _⟩
              · obtain ⟨front, split⟩ := since.split_last records.latest
                refine .inr ⟨front, last, world.heardAs (flags.clientConfig deviceId) announcement, [], ?_, older, ?_⟩
                · rw [← List.cons_append, split, List.append_assoc]
                  rfl
                · rw [counted records] at less
                  exact (Nat.le_of_not_lt less).trans (Nat.min_le_right _ _)
              · exact .inl (current.trans same)
            · exact .inr (masked.append _) }

end AnnounceWorld

/-- Every run keeps the record as current as the restart counter allows. -/
theorem AnnounceRun.follows {world : AnnounceWorld} (offered : ∀ epoch, services epoch ≠ [])
    (run : AnnounceRun flags deviceId id services world) : world.Follows flags id services := by
  induction run with
  | start => exact .start flags id services
  | announce run sent ih => exact ih.announce offered sent
  | queued run ih => exact
      { counter := ih.counter
        ordered := ih.ordered
        sent := ih.sent
        carried := ih.carried
        past := ih.past
        reports := ih.reports
        view := by
          cases ih.view with
          | unknown keeps silent => exact .unknown keeps silent
          | known keeps records => exact .known keeps records }
  | reset run ih => exact ih.reset
  | @lose world before lost after run waits ih =>
    refine ih.lose ?_
    rw [waits]
    exact (List.Sublist.refl before).append (List.sublist_cons_self lost after)
  | hear run allocator waits ih => exact ih.hear deviceId allocator waits
  | other run allocator pkt other ih => exact ih.of_client fun known keeps => keeps.other other _ allocator _
  | wait run later ih => exact ih.wait later
  | gc run ih => exact ih.gc
  | roles run step ih => exact ih.of_client fun known keeps => step.keeps keeps

/-- Announces, resets, losses, other packets, garbage collections and role functions in
any order: a reset that the client reports has happened since it heard from the device
before; a device that it heard less than two seconds ago is in the list; and the record
of a listed device has the flags of the last announce that was heard, and the services at
the announce with which the record was made: those at the last one too, unless the restart
counter masked a reset since then. -/
theorem announced_view (offered : ∀ epoch, services epoch ≠ []) (run : AnnounceRun flags deviceId id services world) :
    (∀ before heard after, world.heard = before ++ heard :: after → heard.reported = true →
      ∃ earlier last, before = earlier ++ [last] ∧ last.epoch < heard.epoch) ∧
    (∀ last, world.heard.getLast? = some last → world.now < last.time + expiresUsec →
      ∃ device ∈ world.client.devices, device.deviceIdentifier = id) ∧
    ∀ device ∈ world.client.devices, device.deviceIdentifier = id →
      ∃ last, world.heard.getLast? = some last ∧
        device.announceFlags = min flags.steady last.count ||| flags.others ∧
        ∃ made later, MadeAt world.heard made later ∧
          device.services.map (·.serviceClass) = 0 :: (services made.epoch).tail ∧
          (made.epoch = last.epoch ∨ Masked flags (made :: later)) := by
  have follows := run.follows offered
  refine ⟨follows.reports, fun last latest recent => ?_, fun device listed named => ?_⟩
  · cases follows.view with
    | unknown keeps silent =>
      have := silent last latest
      omega
    | known keeps records =>
      obtain ⟨device, listed, named, _⟩ := keeps.listed
      exact ⟨device, listed, named⟩
  · cases follows.view with
    | unknown keeps silent => cases keeps.of_mem listed named
    | @known record last keeps records =>
      obtain rfl := Option.some.inj (keeps.of_mem listed named)
      exact ⟨last, records.latest, records.announceFlags, records.classes⟩

/-- The counter in four bits, and three flags above it. -/
def sampleFlags : AnnounceFlags := ⟨4, 0x700, by decide, by decide, by decide⟩

/-- A service of class 7 before the first reset, of class 8 after it. -/
def sampleServices (epoch : Nat) : List Nat := if epoch = 0 then [0, 7] else [0, 8]

/-- The device was heard twice, and once more after a reset. -/
def resetWorld : AnnounceWorld :=
  let announced (world : AnnounceWorld) := world.announce sampleFlags 5 sampleServices true
  let hear (world : AnnounceWorld) := match world.bus with
    | [] => world
    | announcement :: rest => world.hear (sampleFlags.clientConfig 1) freshAllocator announcement rest
  let twice := hear (announced (hear (announced .start)))
  hear (announced { twice with epoch := twice.epoch + 1, count := 0, announcer := ⟨0, 0⟩ })

theorem resetWorld_run : AnnounceRun sampleFlags 1 5 sampleServices resetWorld :=
  .hear (.announce (.reset (.hear (.announce (.hear (.announce .start true) freshAllocator rfl) true) freshAllocator rfl)) true)
    freshAllocator rfl

theorem announced_view_reset : resetWorld.heard.map (·.reported) = [false, false, true] ∧
    ∃ device ∈ resetWorld.client.devices, device.services.map (·.serviceClass) = [0, 8] := by
  have heard : resetWorld.heard = [⟨0, 1, 0, false, false⟩, ⟨0, 2, 0, true, false⟩, ⟨1, 1, 0, true, true⟩] := by rfl
  obtain ⟨_, listed, record⟩ := announced_view (fun epoch => by unfold sampleServices; split <;> decide) resetWorld_run
  refine ⟨by rw [heard]; rfl, ?_⟩
  obtain ⟨device, member, named⟩ := listed ⟨1, 1, 0, true, true⟩ (by rw [heard]; rfl) (by decide)
  obtain ⟨_, _, _, made, later, since, classes, _⟩ := record device member named
  refine ⟨device, member, classes.trans ?_⟩
  obtain ⟨early, split⟩ := since.part
  rw [heard] at split
  -- the last announce reported a reset, so the record was made with it
  rcases List.eq_nil_or_concat later with rfl | ⟨front, last, rfl⟩
  · have split : [_, _] ++ [(⟨1, 1, 0, true, true⟩ : Heard)] = early ++ [made] := split
    rw [← (List.cons.inj (List.append_inj' split rfl).2).1]
    rfl
  · rw [List.concat_eq_append, ← List.cons_append, ← List.append_assoc] at split
    have split : [_, _] ++ [(⟨1, 1, 0, true, true⟩ : Heard)] = (early ++ made :: front) ++ [last] := split
    have kept := (since.kept last (by simp)).2
    rw [← (List.cons.inj (List.append_inj' split rfl).2).1] at kept
    cases kept

end Jacdac
