import Jacdac.Client.AnnounceAccess
import Jacdac.Client.DeviceCollect

/-! The announce reports of `jd_services_announce`, and the record that `routing.c`
keeps of the device that sends them. -/

namespace Jacdac

/-- The announce flags of the generated headers: the restart counter in the lowest
bits, and the other flags that this build sets, above it. -/
structure AnnounceFlags where
  counterBits : Nat
  others : Nat
  byte : counterBits ≤ 8
  small : others < 65536
  above : others &&& 2 ^ counterBits - 1 = 0

namespace AnnounceFlags

/-- `JD_CONTROL_ANNOUNCE_FLAGS_RESTART_COUNTER_STEADY`. -/
def steady (flags : AnnounceFlags) : Nat := 2 ^ flags.counterBits - 1

def clientConfig (flags : AnnounceFlags) (deviceId : Nat) : ClientConfig := ⟨deviceId, fun word => word &&& flags.steady⟩

variable {flags : AnnounceFlags} {counter : Nat}

theorem steady_le (flags : AnnounceFlags) : flags.steady ≤ 255 := by
  have bound : 2 ^ flags.counterBits ≤ 2 ^ 8 := Nat.pow_le_pow_right (by decide) flags.byte
  unfold steady
  omega

/-- The client reads back the counter that was sent. -/
theorem restartCounter_or (within : counter ≤ flags.steady) : (counter ||| flags.others) &&& flags.steady = counter := by
  have positive : 0 < 2 ^ flags.counterBits := Nat.two_pow_pos _
  have small : counter < 2 ^ flags.counterBits := by
    unfold steady at within
    omega
  have apart : flags.others &&& flags.steady = 0 := flags.above
  rw [Nat.and_or_distrib_right, apart, Nat.or_zero, steady, Nat.and_two_pow_sub_one_eq_mod, Nat.mod_eq_of_lt small]

theorem or_others_lt (within : counter ≤ flags.steady) : counter ||| flags.others < 65536 := by
  have small : counter < 2 ^ 16 := by
    have := flags.steady_le
    omega
  exact Nat.or_lt_two_pow small flags.small

end AnnounceFlags

/-- `reset_counter` and `packets_sent`. -/
structure Announcer where
  resetCounter : Nat
  packetsSent : Nat
  deriving DecidableEq, Repr

namespace Announcer

def jdServicesPacketQueued (state : Announcer) : Announcer := { state with packetsSent := u8 (state.packetsSent + 1) }

/-- `jd_services_announce`, for services of these classes; `sent` says that `jd_send`
returned 0. -/
def jdServicesAnnounce (flags : AnnounceFlags) (deviceId : Nat) (classes : List Nat) (sent : Bool) (state : Announcer) :
    ClientPacket × Announcer :=
  let resetCounter := if state.resetCounter < flags.steady then u8 (state.resetCounter + 1) else state.resetCounter
  let adflags := resetCounter ||| flags.others
  let dst := classes.set 0 (adflags ||| u32 ((state.packetsSent + 1) * 65536))
  ({ identifierIsServiceClass := false, command := false, deviceIdentifier := deviceId, serviceIndex := 0,
     serviceCommand := 0, serviceSize := classes.length * 4, word := fun index => dst.getD index 0 },
   { resetCounter, packetsSent := if sent then 0 else state.packetsSent })

end Announcer

/-- An announce of a device with this identifier and these services, with this counter. -/
structure ClientPacket.Announces (pkt : ClientPacket) (flags : AnnounceFlags) (deviceId : Nat) (classes : List Nat)
    (counter : Nat) : Prop where
  report : ¬ (pkt.identifierIsServiceClass = true ∨ pkt.command = true)
  deviceIdentifier : pkt.deviceIdentifier = deviceId
  announce : pkt.serviceIndex = 0 ∧ pkt.serviceCommand = 0
  flags : pkt.word 0 % 65536 = counter ||| flags.others
  classes : ((List.range (pkt.serviceSize / 4)).map fun index => if index = 0 then 0 else pkt.word index) = 0 :: classes.tail

namespace Announcer

variable {flags : AnnounceFlags} {deviceId : Nat} {classes : List Nat} {state : Announcer}

theorem jdServicesAnnounce_counter (within : state.resetCounter ≤ flags.steady) (sent : Bool) :
    (state.jdServicesAnnounce flags deviceId classes sent).2.resetCounter = min flags.steady (state.resetCounter + 1) := by
  have bound := flags.steady_le
  unfold jdServicesAnnounce u8
  dsimp only
  split <;> omega

theorem jdServicesAnnounce_announces (within : state.resetCounter ≤ flags.steady) (some : classes ≠ []) (sent : Bool) :
    (state.jdServicesAnnounce flags deviceId classes sent).1.Announces flags deviceId classes
      (min flags.steady (state.resetCounter + 1)) := by
  obtain ⟨control, rest, rfl⟩ := List.exists_cons_of_ne_nil some
  have counted := @jdServicesAnnounce_counter flags deviceId (control :: rest) state within sent
  have small := @AnnounceFlags.or_others_lt flags _ (Nat.min_le_left flags.steady (state.resetCounter + 1))
  refine ⟨by simp [jdServicesAnnounce], rfl, ⟨rfl, rfl⟩, ?_, ?_⟩
  · rw [← counted] at small ⊢
    have high : u32 ((state.packetsSent + 1) * 65536) % 65536 = 0 := by
      unfold u32
      omega
    show (_ ||| u32 ((state.packetsSent + 1) * 65536)) % 2 ^ 16 = _
    rw [Nat.or_mod_two_pow, show u32 ((state.packetsSent + 1) * 65536) % 2 ^ 16 = 0 from high, Nat.or_zero]
    exact Nat.mod_eq_of_lt small
  · refine List.ext_getElem (by simp [jdServicesAnnounce]) fun index inside _ => ?_
    cases index with
    | zero => simp
    | succ index =>
      have within : index < rest.length := by simpa [jdServicesAnnounce] using inside
      simp [jdServicesAnnounce, within]

end Announcer

/-- What a device's record says; roles only change the flags of its services. -/
structure DeviceRecord where
  address : Nat
  deviceIdentifier : Nat
  announceFlags : Nat
  expires : Nat
  classes : List Nat

namespace Device

def record (device : Device) : DeviceRecord where
  address := device.address
  deviceIdentifier := device.deviceIdentifier
  announceFlags := device.announceFlags
  expires := device.expires
  classes := device.services.map (·.serviceClass)

theorem setFlag_record (pointer : ServicePointer) (assigned : Bool) (devices : List Device) :
    (setFlag pointer assigned devices).map record = devices.map record := by
  have kept (services : List DeviceService) (index : Nat) :
      (services.modify index fun service => { service with roleAssigned := assigned }).map (·.serviceClass) =
        services.map (·.serviceClass) := by
    induction services generalizing index with
    | nil => simp
    | cons service rest ih =>
      cases index with
      | zero => rfl
      | succ index => exact congrArg (service.serviceClass :: ·) (ih index)
  rw [setFlag, List.map_map]
  refine List.map_congr_left fun device _ => ?_
  dsimp only [Function.comp_apply]
  split
  · simp only [record, kept]
  · rfl

theorem unlink_record (address : Nat) (devices : List Device) :
    (unlink address devices).map record = (devices.map record).eraseP (·.address = address) := by
  rw [unlink, List.eraseP_map]
  rfl

theorem gcVictims_expired {now : Nat} {devices : List Device} {device : Device} (freed : device ∈ gcVictims now devices) :
    inPast now device.expires = true := by
  have sweep (rest : List Device) (later : device ∈ sweepVictims now rest) : inPast now device.expires = true := by
    fun_induction sweepVictims now rest with
    | case1 => cases later
    | case2 last expired =>
      rw [List.mem_singleton.mp later]
      exact expired
    | case3 last kept => cases later
    | case4 first next rest expired ih =>
      rcases List.mem_cons.mp later with rfl | further
      · exact expired
      · exact ih further
    | case5 first next rest kept ih => exact ih later
  rcases List.mem_append.mp freed with early | later
  · have all := List.all_takeWhile (p := fun device : Device => inPast now device.expires) (l := devices)
    exact List.all_eq_true.mp all device early
  · exact sweep _ later

end Device

namespace ClientState

def records (state : ClientState) : List DeviceRecord := state.devices.map Device.record

theorem rolemgrSet_records (index : Nat) (serv : Option ServicePointer) (state : ClientState) :
    (state.rolemgrSet index serv).records = state.records := by
  rcases rolemgrSet_cases index serv state with same | ⟨_, role, _, _, moved⟩
  · rw [same]
  · rw [moved, records]
    dsimp only
    unfold moveFlags
    cases role.service <;> cases serv <;> simp only [Device.setFlag_record, records]

theorem records_stable (fixed : List DeviceRecord) : BindingStable fun state => state.records = fixed where
  clear state index same := (rolemgrSet_records index none state).trans same
  bind state index pointer _ same := (rolemgrSet_records index (some pointer) state).trans same
  congr state other _ devices same := by rw [records, devices, ← same, records]

theorem setRole_records (deviceId serviceIdx : Nat) (name : List UInt8) (state : ClientState) :
    (state.rolemgrSetRole deviceId serviceIdx name).records = state.records := by
  unfold rolemgrSetRole
  split
  · rfl
  · split
    · exact rolemgrSet_records _ _ _
    · split
      · rfl
      · exact rolemgrSet_records _ _ _

theorem dropDevice_records (state : ClientState) (device : Device) :
    (state.dropDevice device).records = state.records.eraseP (·.address = device.address) := by
  have unlinked : { state with devices := Device.unlink device.address state.devices }.records =
      state.records.eraseP (·.address = device.address) := Device.unlink_record device.address state.devices
  exact (records_stable _).toBindStable.deviceDestroyed unlinked device.address

theorem gc_records (now : Nat) (state : ClientState) (apart : state.Apart) :
    (state.jdDeviceGc now).records = (Device.gcKept now state.devices).map Device.record := by
  rw [← Device.foldl_unlink_gc now state.devices apart, jdDeviceGc]
  have general : ∀ (victims devices : List Device) (state : ClientState), state.records = devices.map Device.record →
      (victims.foldl dropDevice state).records =
        (victims.foldl (fun devices victim => Device.unlink victim.address devices) devices).map Device.record := by
    intro victims
    induction victims with
    | nil => exact fun _ _ same => same
    | cons victim rest ih =>
      intro devices state same
      refine ih _ _ ?_
      rw [dropDevice_records, same, Device.unlink_record]
  exact general _ state.devices state rfl

end ClientState

end Jacdac
