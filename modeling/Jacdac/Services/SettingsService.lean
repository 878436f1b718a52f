import Jacdac.Fstor.Map
import Jacdac.Services.ReplySizes

/-! The settings service with its values in the settings store. -/

namespace Jacdac

/-- The registers of the service and the store. -/
structure SettingsService where
  registers : Memory
  store : Fstor

inductive SettingsFault where
  | flash (fault : FstorFault)
  | register (fault : RegFault)
  deriving DecidableEq

namespace SettingsService

open Fstor

variable {config : FstorConfig} {spec : ServiceSpec} {state next : SettingsService} {pkt other : ServiceRequest}
  {base : Nat} {entries : List Entry} {values : List UInt8 → List UInt8} {sends : List Packet} {store : Fstor}

def storeKey (pkt : ServiceRequest) : CString :=
  ⟨58 :: settingsKey pkt, fun member => by
    rcases List.mem_cons.mp member with colon | zero
    · exact absurd colon (by decide)
    · have within : 0 ∈ (pkt.data.take (maxKeySize + 1)).takeWhile (· ≠ 0) := zero
      exact absurd (List.all_eq_true.mp List.all_takeWhile _ within) (by decide)⟩

/-- The reply to a GET. The memory behind the key is zeroed by `jd_alloc`, and the
value is copied over it from the byte after the next on. -/
def getReply (config : FstorConfig) (pkt : ServiceRequest) (store : Fstor) : Except FstorFault (List UInt8 × Fstor) := do
  let (found, _, store) ← store.jdSettingsGetBin config (some (storeKey pkt)) 0
  let size := if found < 0 then 0 else found.toNat
  let (_, copied, store) ← store.jdSettingsGetBin config (some (storeKey pkt)) size
  .ok (settingsKey pkt ++ 0 :: (copied ++ List.replicate (size - copied.length) 0), store)

/-- What a SET stores; a DELETE stores nothing as the value. -/
def newValue (spec : ServiceSpec) (pkt : ServiceRequest) : List UInt8 :=
  if pkt.serviceCommand = spec.cmdDelete then [] else pkt.data.drop ((settingsKey pkt).length + 1)

def settingsHandlePacket (config : FstorConfig) (spec : ServiceSpec) (state : SettingsService) (pkt : ServiceRequest) :
    Except SettingsFault (SettingsService × List Packet) :=
  let cmd := pkt.serviceCommand
  if cmd = spec.cmdDelete ∨ cmd = spec.cmdSet ∨ cmd = spec.cmdGet then
    if (settingsKey pkt).length > maxKeySize then .ok (state, [])
    else if cmd = spec.cmdGet then
      match getReply config pkt state.store with
      | .error fault => .error (.flash fault)
      | .ok (reply, store) => .ok ({ state with store }, [pkt.respond reply])
    else
      match state.store.jdSettingsSetBin config (some (storeKey pkt)) (newValue spec pkt) with
      | .error fault => .error (.flash fault)
      | .ok (_, store) => .ok ({ state with store }, [])
  else
    match serviceHandleRegisterFinal spec state.registers pkt (settingsRegs spec).sdesc with
    | .error fault => .error (.register fault)
    | .ok (_, registers, sends) => .ok ({ state with registers }, sends)

/-- The key part of a packet: the bytes up to the first NUL or the end. -/
def keyPart (pkt : ServiceRequest) : List UInt8 := pkt.data.takeWhile (· ≠ 0)

theorem settingsKey_eq_take (pkt : ServiceRequest) : settingsKey pkt = (keyPart pkt).take (maxKeySize + 1) := by
  rw [settingsKey, keyPart]
  generalize maxKeySize + 1 = count
  generalize pkt.data = data
  induction data generalizing count with
  | nil => rw [List.take_nil, List.takeWhile_nil, List.take_nil]
  | cons byte rest ih =>
    cases count with
    | zero => rw [List.take_zero, List.takeWhile_nil, List.take_zero]
    | succ count =>
      rw [List.take_succ_cons, List.takeWhile_cons, List.takeWhile_cons]
      split
      · rw [List.take_succ_cons, ih]
      · rfl

/-- A short key is taken whole, a long one is noticed. -/
theorem settingsKey_short (short : (keyPart pkt).length ≤ 14) : settingsKey pkt = keyPart pkt := by
  rw [settingsKey_eq_take]
  exact List.take_of_length_le (Nat.le_succ_of_le short)

theorem settingsKey_long (long : 14 < (keyPart pkt).length) : (settingsKey pkt).length > maxKeySize := by
  rw [settingsKey_eq_take, List.length_take, maxKeySize]
  omega

theorem storeKey_ok (short : (keyPart pkt).length ≤ 14) : keyOk (storeKey pkt) = true := by
  rw [keyOk_iff]
  refine ⟨fun mark => absurd (Option.some.inj mark) (by decide), ?_⟩
  change (58 :: settingsKey pkt).length ≤ 15
  rw [settingsKey_short short, List.length_cons]
  omega

theorem storeKey_inj (one : (keyPart pkt).length ≤ 14) (two : (keyPart other).length ≤ 14) :
    storeKey pkt = storeKey other ↔ keyPart pkt = keyPart other := by
  rw [Subtype.ext_iff]
  change 58 :: settingsKey pkt = 58 :: settingsKey other ↔ _
  rw [settingsKey_short one, settingsKey_short two, List.cons.injEq]
  exact and_iff_right rfl

def Holds (config : FstorConfig) (store : Fstor) (values : List UInt8 → List UInt8) : Prop :=
  ∃ base entries, Represents config store base entries ∧
    ∀ pkt, (keyPart pkt).length ≤ 14 → values (keyPart pkt) = (mapOf entries (storeKey pkt)).getD []

theorem getReply_eq (represents : Represents config store base entries) (short : (keyPart pkt).length ≤ 14) :
    getReply config pkt store = .ok (keyPart pkt ++ 0 :: (mapOf entries (storeKey pkt)).getD [], store) := by
  have answers := represents.getBin (storeKey_ok short)
  rw [getReply, settingsKey_short short]
  cases value : mapOf entries (storeKey pkt) with
  | none =>
    rw [value] at answers
    rw [answers 0, ok_bind]
    dsimp only
    rw [if_pos (by decide), answers 0, ok_bind]
    rfl
  | some bytes =>
    rw [value] at answers
    obtain ⟨_, first, _⟩ := answers 0
    obtain ⟨copied, second, same⟩ := answers bytes.length
    have whole : copied = bytes := (List.take_of_length_le (same (Nat.le_refl _)).1.le).symm.trans (same (Nat.le_refl _)).2
    rw [first, ok_bind]
    dsimp only
    rw [if_neg (by omega), Int.toNat_natCast, second, ok_bind, whole, Nat.sub_self, List.replicate_zero,
      List.append_nil]
    rfl

/-- A GET replies with the value, and changes nothing. -/
theorem Holds.get (holds : Holds config state.store values) (get : pkt.serviceCommand = spec.cmdGet)
    (short : (keyPart pkt).length ≤ 14) :
    settingsHandlePacket config spec state pkt = .ok (state, [pkt.respond (keyPart pkt ++ 0 :: values (keyPart pkt))]) := by
  obtain ⟨base, entries, represents, map⟩ := holds
  have size : ¬ (settingsKey pkt).length > maxKeySize := by
    rw [settingsKey_short short, maxKeySize]
    omega
  rw [settingsHandlePacket, if_pos (.inr (.inr get)), if_neg size, if_pos get, getReply_eq represents short, map pkt short]

theorem handle_long (command : pkt.serviceCommand = spec.cmdDelete ∨ pkt.serviceCommand = spec.cmdSet ∨
      pkt.serviceCommand = spec.cmdGet) (long : 14 < (keyPart pkt).length) :
    settingsHandlePacket config spec state pkt = .ok (state, []) := by
  rw [settingsHandlePacket, if_pos command, if_pos (settingsKey_long long)]

/-- A SET or DELETE calls `jd_settings_set_bin` and ignores what it returns. -/
theorem handle_store (command : pkt.serviceCommand = spec.cmdDelete ∨ pkt.serviceCommand = spec.cmdSet)
    (short : (keyPart pkt).length ≤ 14) {result : Int}
    (done : state.store.jdSettingsSetBin config (some (storeKey pkt)) (newValue spec pkt) = .ok (result, store)) :
    settingsHandlePacket config spec state pkt = .ok ({ state with store }, []) := by
  have size : ¬ (settingsKey pkt).length > maxKeySize := by
    rw [settingsKey_short short, maxKeySize]
    omega
  have distinct := spec.settingsDistinct
  have other : pkt.serviceCommand ≠ spec.cmdGet := by
    intro get
    rw [get] at command
    simp only [List.nodup_cons, List.mem_cons, List.not_mem_nil, or_false, not_or] at distinct
    rcases command with delete | set
    · exact distinct.1.2 delete
    · exact distinct.1.1 set
  rw [settingsHandlePacket, if_pos (command.imp_right .inl), if_neg size, if_neg other, done]

theorem Holds.set (represents : Represents config store base entries)
    (map : ∀ pkt, (keyPart pkt).length ≤ 14 → values (keyPart pkt) = (mapOf entries (storeKey pkt)).getD [])
    (short : (keyPart pkt).length ≤ 14) {value : List UInt8} {result : Int} {after : Fstor}
    (step : SetStep config store base entries.length value (some (storeKey pkt)) result after) :
    Holds config after (if result = 0 then Function.update values (keyPart pkt) value else values) := by
  obtain ⟨area, later, represents, same, _⟩ := represents.step step
  refine ⟨area, later, represents, fun other fits => ?_⟩
  rw [same]
  by_cases stored : result = 0
  · rw [if_pos stored, if_pos stored, Function.update_apply, Function.update_apply]
    by_cases equal : keyPart other = keyPart pkt
    · rw [if_pos equal, if_pos ((storeKey_inj fits short).mpr equal)]
      rfl
    · rw [if_neg equal, if_neg (mt (storeKey_inj fits short).mp equal)]
      exact map other fits
  · rw [if_neg stored, if_neg stored]
    exact map other fits

/-- An empty value can be stored for the key, or its value is empty already. -/
def DeleteFits (config : FstorConfig) (store : Fstor) (key : CString) : Prop :=
  (∃ size copied after, store.jdSettingsGetBin config (some key) 0 = .ok (size, copied, after) ∧ size ≤ 0) ∨
    32 ≤ store.freeSpace ∨ ∃ collected, store.jdFstorGc config = .ok collected ∧ 32 ≤ collected.freeSpace

theorem empty_iff (represents : Represents config store base entries) {key : CString} (ok : keyOk key = true) :
    (∃ size copied after, store.jdSettingsGetBin config (some key) 0 = .ok (size, copied, after) ∧ size ≤ 0) ↔
      (mapOf entries key).getD [] = [] := by
  have answers := represents.getBin ok 0
  cases value : mapOf entries key with
  | none =>
    rw [value] at answers
    exact iff_of_true ⟨_, _, _, answers, by decide⟩ rfl
  | some bytes =>
    rw [value] at answers
    obtain ⟨copied, done, _⟩ := answers
    constructor
    · rintro ⟨size, _, _, same, small⟩
      cases done.symm.trans same
      change bytes = []
      exact List.eq_nil_of_length_eq_zero (by omega)
    · rintro rfl
      exact ⟨_, _, _, done, Int.le_refl _⟩

/-- The empty value is stored, or was there, exactly when it fits. -/
theorem deleted_iff (represents : Represents config store base entries) {key : CString} (ok : keyOk key = true)
    {result : Int} {after : Fstor} (step : SetStep config store base entries.length [] (some key) result after) :
    result = 0 ∨ (mapOf entries key).getD [] = [] ↔ DeleteFits config store key := by
  have need : Fstor.align ([] : List UInt8).length + 24 = 32 := by decide
  rw [DeleteFits, empty_iff represents ok]
  cases step with
  | badKey bad => exact absurd (bad.symm.trans (Option.filter_eq_some_iff.mpr ⟨rfl, ok⟩)) nofun
  | tooLarge _ large => exact absurd large (Nat.not_lt_zero _)
  | present _ same =>
    have empty : (mapOf entries key).getD [] = [] := by rw [represents.present same]; rfl
    exact iff_of_true (.inl rfl) (.inl empty)
  | append _ _ _ able =>
    have space := able.space
    exact iff_of_true (.inl rfl) (.inr (.inl (need ▸ space)))
  | full collects collected short =>
    have before := collects.short
    rw [need] at before short
    constructor
    · rintro (zero | empty)
      · cases zero
      · exact .inl empty
    · rintro (empty | room | ⟨other, done, room⟩)
      · exact .inr empty
      · omega
      · obtain ⟨again, same, twin⟩ := represents.collectable.collect represents.mounted represents.area
        cases same.symm.trans done
        have one := (represents_iff.mp represents).collected_space collected
        have two := (represents_iff.mp represents).collected_space twin
        omega
  | collect collects collected able =>
    obtain ⟨again, done, twin⟩ := represents.collectable.collect represents.mounted represents.area
    have one := (represents_iff.mp represents).collected_space collected
    have two := (represents_iff.mp represents).collected_space twin
    have space := able.space
    rw [need] at space
    exact iff_of_true (.inl rfl) (.inr (.inr ⟨again, done, by omega⟩))

/-- The bytes after the key and its NUL. -/
def valuePart (pkt : ServiceRequest) : List UInt8 := pkt.data.drop ((keyPart pkt).length + 1)

def storeSucceeds (config : FstorConfig) (store : Fstor) (pkt : ServiceRequest) : Bool :=
  match store.jdSettingsSetBin config (some (storeKey pkt)) (valuePart pkt) with
  | .ok (result, _) => result = 0
  | .error _ => false

/-- Packets handled from erased flash on, with the value that each key has: that of
the last SET whose store succeeded since the last DELETE. -/
inductive PacketRun (config : FstorConfig) (spec : ServiceSpec) (admits : Fstor → CString → Prop) :
    SettingsService → (List UInt8 → List UInt8) → Prop where
  | mounted (registers : Memory) {store : Fstor} (done : (boot erasedFlash).jdFstorInit config = .ok store) :
    PacketRun config spec admits ⟨registers, store⟩ fun _ => []
  | get {state next : SettingsService} {values : List UInt8 → List UInt8} {sends : List Packet}
      (run : PacketRun config spec admits state values) (pkt : ServiceRequest) (size : pkt.data.length ≤ 232)
      (get : pkt.serviceCommand = spec.cmdGet)
      (done : settingsHandlePacket config spec state pkt = .ok (next, sends)) : PacketRun config spec admits next values
  | set {state next : SettingsService} {values : List UInt8 → List UInt8} {sends : List Packet}
      (run : PacketRun config spec admits state values) (pkt : ServiceRequest) (size : pkt.data.length ≤ 232)
      (set : pkt.serviceCommand = spec.cmdSet)
      (done : settingsHandlePacket config spec state pkt = .ok (next, sends)) :
    PacketRun config spec admits next
      (if (keyPart pkt).length ≤ 14 ∧ storeSucceeds config state.store pkt then
        Function.update values (keyPart pkt) (valuePart pkt) else values)
  | delete {state next : SettingsService} {values : List UInt8 → List UInt8} {sends : List Packet}
      (run : PacketRun config spec admits state values) (pkt : ServiceRequest) (size : pkt.data.length ≤ 232)
      (delete : pkt.serviceCommand = spec.cmdDelete)
      (admitted : (keyPart pkt).length ≤ 14 → admits state.store (storeKey pkt))
      (done : settingsHandlePacket config spec state pkt = .ok (next, sends)) :
    PacketRun config spec admits next
      (if (keyPart pkt).length ≤ 14 then Function.update values (keyPart pkt) [] else values)

/-- The service answers with these values. -/
structure RepliesAs (config : FstorConfig) (spec : ServiceSpec) (state : SettingsService)
    (values : List UInt8 → List UInt8) : Prop where
  handled (pkt : ServiceRequest) : pkt.serviceCommand = spec.cmdDelete ∨ pkt.serviceCommand = spec.cmdSet ∨
      pkt.serviceCommand = spec.cmdGet →
    ∃ next sends, settingsHandlePacket config spec state pkt = .ok (next, sends)
  ignored (pkt : ServiceRequest) : pkt.serviceCommand = spec.cmdDelete ∨ pkt.serviceCommand = spec.cmdSet ∨
      pkt.serviceCommand = spec.cmdGet → 14 < (keyPart pkt).length →
    settingsHandlePacket config spec state pkt = .ok (state, [])
  get (pkt : ServiceRequest) : pkt.serviceCommand = spec.cmdGet → (keyPart pkt).length ≤ 14 →
    settingsHandlePacket config spec state pkt = .ok (state, [pkt.respond (keyPart pkt ++ 0 :: values (keyPart pkt))]) ∧
      (keyPart pkt ++ 0 :: values (keyPart pkt)).length ≤ 232

/-- A value came in one packet with its key. -/
def Fits (values : List UInt8 → List UInt8) : Prop := ∀ key, values key = [] ∨ key.length + 1 + (values key).length ≤ 232

theorem newValue_delete (delete : pkt.serviceCommand = spec.cmdDelete) : newValue spec pkt = [] :=
  if_pos delete

theorem newValue_set (set : pkt.serviceCommand = spec.cmdSet) (short : (keyPart pkt).length ≤ 14) :
    newValue spec pkt = valuePart pkt := by
  have distinct := spec.settingsDistinct
  have other : pkt.serviceCommand ≠ spec.cmdDelete := by
    rw [set]
    simp only [List.nodup_cons, List.mem_cons, List.not_mem_nil, or_false, not_or] at distinct
    exact distinct.2.1
  rw [newValue, if_neg other, settingsKey_short short, valuePart]

theorem store_step (represents : Represents config state.store base entries)
    (command : pkt.serviceCommand = spec.cmdDelete ∨ pkt.serviceCommand = spec.cmdSet)
    (short : (keyPart pkt).length ≤ 14) :
    ∃ result store, state.store.jdSettingsSetBin config (some (storeKey pkt)) (newValue spec pkt) = .ok (result, store) ∧
      settingsHandlePacket config spec state pkt = .ok ({ state with store }, []) ∧
      SetStep config state.store base entries.length (newValue spec pkt) (some (storeKey pkt)) result store := by
  obtain ⟨result, store, done, step⟩ := setStep represents.mounted represents.area (some (storeKey pkt))
    (newValue spec pkt) fun _ _ _ => represents.collectable
  exact ⟨result, store, done, handle_store command short done, step⟩

theorem Holds.set_packet (holds : Holds config state.store values) (set : pkt.serviceCommand = spec.cmdSet)
    (done : settingsHandlePacket config spec state pkt = .ok (next, sends)) :
    Holds config next.store (if (keyPart pkt).length ≤ 14 ∧ storeSucceeds config state.store pkt then
      Function.update values (keyPart pkt) (valuePart pkt) else values) := by
  by_cases short : (keyPart pkt).length ≤ 14
  · obtain ⟨base, entries, represents, map⟩ := holds
    obtain ⟨result, store, called, handled, step⟩ := store_step represents (.inr set) short
    cases handled.symm.trans done
    rw [newValue_set set short] at called step
    have after := Holds.set represents map short step
    have succeeds : storeSucceeds config state.store pkt = decide (result = 0) := by rw [storeSucceeds, called]
    by_cases stored : result = 0
    · rw [if_pos stored] at after
      rwa [if_pos ⟨short, succeeds.trans (decide_eq_true stored)⟩]
    · rw [if_neg stored] at after
      rwa [if_neg fun both => stored (of_decide_eq_true (succeeds.symm.trans both.2))]
  · cases (handle_long (.inr (.inl set)) (Nat.lt_of_not_le short)).symm.trans done
    rwa [if_neg fun both => short both.1]

/-- After a DELETE the key reads as empty exactly when the empty value fits. -/
theorem Holds.delete_packet (holds : Holds config state.store values) (delete : pkt.serviceCommand = spec.cmdDelete)
    (short : (keyPart pkt).length ≤ 14) (done : settingsHandlePacket config spec state pkt = .ok (next, sends)) :
    ∃ after, Holds config next.store after ∧ (∀ key, key ≠ keyPart pkt → after key = values key) ∧
      (after (keyPart pkt) = [] ↔ DeleteFits config state.store (storeKey pkt)) := by
  obtain ⟨base, entries, represents, map⟩ := holds
  obtain ⟨result, store, called, handled, step⟩ := store_step represents (.inl delete) short
  cases handled.symm.trans done
  rw [newValue_delete delete] at step
  refine ⟨_, Holds.set represents map short step, fun key other => ?_, ?_⟩
  · split
    · exact Function.update_of_ne other _ _
    · rfl
  · rw [← deleted_iff represents (storeKey_ok short) step, ← map pkt short]
    by_cases stored : result = 0
    · rw [if_pos stored, Function.update_self]
      exact iff_of_true rfl (.inl stored)
    · rw [if_neg stored]
      exact (or_iff_right stored).symm

theorem Holds.delete_fitting (holds : Holds config state.store values) (delete : pkt.serviceCommand = spec.cmdDelete)
    (admitted : (keyPart pkt).length ≤ 14 → DeleteFits config state.store (storeKey pkt))
    (done : settingsHandlePacket config spec state pkt = .ok (next, sends)) :
    Holds config next.store (if (keyPart pkt).length ≤ 14 then Function.update values (keyPart pkt) [] else values) := by
  by_cases short : (keyPart pkt).length ≤ 14
  · obtain ⟨after, holds, others, own⟩ := holds.delete_packet delete short done
    have same : after = Function.update values (keyPart pkt) [] := by
      funext key
      rw [Function.update_apply]
      by_cases equal : key = keyPart pkt
      · rw [if_pos equal, equal, own.mpr (admitted short)]
      · rw [if_neg equal, others key equal]
    rwa [if_pos short, ← same]
  · cases (handle_long (.inl delete) (Nat.lt_of_not_le short)).symm.trans done
    rwa [if_neg short]

theorem Fits.update {key value : List UInt8} (fits : Fits values) (small : value = [] ∨ key.length + 1 + value.length ≤ 232) :
    Fits (Function.update values key value) := by
  intro other
  by_cases equal : other = key
  · rw [equal, Function.update_self]
    exact small
  · rw [Function.update_of_ne equal]
    exact fits other

theorem valuePart_fits (size : pkt.data.length ≤ 232) :
    valuePart pkt = [] ∨ (keyPart pkt).length + 1 + (valuePart pkt).length ≤ 232 := by
  have length : (valuePart pkt).length = pkt.data.length - ((keyPart pkt).length + 1) := List.length_drop
  by_cases empty : valuePart pkt = []
  · exact .inl empty
  · have nonempty := List.length_pos_iff.mpr empty
    omega

theorem holds_init {store : Fstor} (done : (boot erasedFlash).jdFstorInit config = .ok store) :
    Holds config store fun _ => [] := by
  obtain ⟨base, entries, represents, _, map⟩ := holdsMap_init done
  refine ⟨base, entries, represents, fun pkt _ => ?_⟩
  rw [map]
  rfl

theorem PacketRun.holds (run : PacketRun config spec (DeleteFits config) state values) :
    Holds config state.store values ∧ Fits values := by
  induction run with
  | mounted registers done => exact ⟨holds_init done, fun _ => .inl rfl⟩
  | get _ pkt _ get done ih =>
    obtain ⟨holds, fits⟩ := ih
    by_cases short : (keyPart pkt).length ≤ 14
    · cases (holds.get get short).symm.trans done
      exact ⟨holds, fits⟩
    · cases (handle_long (.inr (.inr get)) (Nat.lt_of_not_le short)).symm.trans done
      exact ⟨holds, fits⟩
  | set _ pkt size set done ih =>
    obtain ⟨holds, fits⟩ := ih
    refine ⟨holds.set_packet set done, ?_⟩
    split
    · exact fits.update (valuePart_fits size)
    · exact fits
  | delete _ pkt _ delete admitted done ih =>
    obtain ⟨holds, fits⟩ := ih
    refine ⟨holds.delete_fitting delete admitted done, ?_⟩
    split
    · exact fits.update (.inl rfl)
    · exact fits

/-- The service with its values as a map: the same registers, and the values of the store. -/
structure Abstracts (config : FstorConfig) (service : SettingsService) (state : SettingsState) : Prop where
  registers : service.registers = state.registers
  holds : Holds config service.store state.value

/-- What the handler over a map stores. -/
theorem value_stored (state : SettingsState) (key value : List UInt8) (accepted : Bool) :
    SettingsState.value { state with
      stored := fun other => if other = 58 :: key ∧ accepted then some value else state.stored other } =
    if accepted then Function.update state.value key value else state.value := by
  funext other
  cases accepted with
  | false => simp [SettingsState.value]
  | true =>
    simp only [SettingsState.value, and_true, if_true, Function.update_apply, List.cons.injEq, true_and]
    split
    · rfl
    · rfl

/-- The handler over the store does what the handler over the map does, when the
flash takes a value exactly if `jd_settings_set_bin` returned 0. -/
theorem Abstracts.handle {service after : SettingsService} {state : SettingsState}
    (abstracts : Abstracts config service state)
    (done : settingsHandlePacket config spec service pkt = .ok (after, sends)) :
    ∃ accepted later, Jacdac.settingsHandlePacket spec accepted state pkt = .ok (later, sends) ∧
      Abstracts config after later := by
  obtain ⟨registers, holds⟩ := abstracts
  by_cases command : pkt.serviceCommand = spec.cmdDelete ∨ pkt.serviceCommand = spec.cmdSet ∨ pkt.serviceCommand = spec.cmdGet
  · by_cases long : 14 < (keyPart pkt).length
    · cases (handle_long command long).symm.trans done
      refine ⟨true, state, ?_, registers, holds⟩
      rw [Jacdac.settingsHandlePacket, if_pos command, if_pos (settingsKey_long long)]
    · have short : (keyPart pkt).length ≤ 14 := Nat.le_of_not_lt long
      have size : ¬ (settingsKey pkt).length > maxKeySize := by
        rw [settingsKey_short short, maxKeySize]
        omega
      by_cases get : pkt.serviceCommand = spec.cmdGet
      · cases (holds.get get short).symm.trans done
        refine ⟨true, state, ?_, registers, holds⟩
        rw [Jacdac.settingsHandlePacket, if_pos command, if_neg size, if_pos get, settingsKey_short short]
      · have stores : pkt.serviceCommand = spec.cmdDelete ∨ pkt.serviceCommand = spec.cmdSet :=
          command.imp_right fun other => other.resolve_right get
        obtain ⟨base, entries, represents, map⟩ := holds
        obtain ⟨result, store, _, handled, step⟩ := store_step represents stores short
        cases handled.symm.trans done
        refine ⟨result = 0, { state with
          stored := fun other => if other = 58 :: settingsKey pkt ∧ decide (result = 0) then some (newValue spec pkt)
            else state.stored other }, ?_, registers, ?_⟩
        · rw [Jacdac.settingsHandlePacket, if_pos command, if_neg size, if_neg get]
          rfl
        · have later := Holds.set represents map short step
          rw [value_stored, settingsKey_short short]
          simpa only [decide_eq_true_eq] using later
  · rw [settingsHandlePacket, if_neg command, registers] at done
    cases final : serviceHandleRegisterFinal spec state.registers pkt (settingsRegs spec).sdesc with
    | error fault =>
      rw [final] at done
      cases done
    | ok result =>
      rw [final] at done
      cases done
      refine ⟨true, { state with registers := result.2.1 }, ?_, rfl, holds⟩
      rw [Jacdac.settingsHandlePacket, if_neg command, final]

theorem Holds.handled (holds : Holds config state.store values) (command : pkt.serviceCommand = spec.cmdDelete ∨
      pkt.serviceCommand = spec.cmdSet ∨ pkt.serviceCommand = spec.cmdGet) :
    ∃ next sends, settingsHandlePacket config spec state pkt = .ok (next, sends) := by
  by_cases short : (keyPart pkt).length ≤ 14
  · have stored (command : pkt.serviceCommand = spec.cmdDelete ∨ pkt.serviceCommand = spec.cmdSet) :
        ∃ next sends, settingsHandlePacket config spec state pkt = .ok (next, sends) := by
      obtain ⟨base, entries, represents, _⟩ := holds
      obtain ⟨_, store, _, handled, _⟩ := store_step represents command short
      exact ⟨_, _, handled⟩
    rcases command with delete | set | get
    · exact stored (.inl delete)
    · exact stored (.inr set)
    · exact ⟨_, _, holds.get get short⟩
  · exact ⟨_, _, handle_long command (Nat.lt_of_not_le short)⟩

theorem Holds.replies (holds : Holds config state.store values) (fits : Fits values) :
    RepliesAs config spec state values where
  handled _ command := holds.handled command
  ignored _ command long := handle_long command long
  get pkt get short := by
    refine ⟨holds.get get short, ?_⟩
    rw [List.length_append, List.length_cons]
    rcases fits (keyPart pkt) with empty | small
    · rw [empty, List.length_nil]
      omega
    · omega

end SettingsService

/-- In every run in which each DELETE fits, the service answers as a map; and after
one more DELETE the key reads as deleted exactly when that one fits. -/
theorem settings_service_is_map (config : FstorConfig) (spec : ServiceSpec)
    (run : SettingsService.PacketRun config spec (SettingsService.DeleteFits config) state values) :
    SettingsService.RepliesAs config spec state values ∧
    ∀ pkt next sends, pkt.serviceCommand = spec.cmdDelete → (SettingsService.keyPart pkt).length ≤ 14 →
      SettingsService.settingsHandlePacket config spec state pkt = .ok (next, sends) →
      (SettingsService.RepliesAs config spec next (Function.update values (SettingsService.keyPart pkt) []) ↔
        SettingsService.DeleteFits config state.store (SettingsService.storeKey pkt)) := by
  obtain ⟨holds, fits⟩ := run.holds
  refine ⟨holds.replies fits, fun pkt next sends delete short done => ⟨fun replies => ?_, fun admitted => ?_⟩⟩
  · obtain ⟨after, later, _, own⟩ := holds.delete_packet delete short done
    have asked := (replies.get { pkt with serviceCommand := spec.cmdGet } rfl short).1
    have actual := @SettingsService.Holds.get config spec next { pkt with serviceCommand := spec.cmdGet } after later rfl short
    have same := congrArg Prod.snd (Except.ok.inj (actual.symm.trans asked))
    have payload := congrArg Packet.payload (List.cons.inj same).1
    have value := (List.cons.inj (List.append_cancel_left payload)).2
    exact own.mp (value.trans (Function.update_self ..))
  · have later := holds.delete_fitting delete (fun _ => admitted) done
    rw [if_pos short] at later
    exact later.replies (fits.update (.inl rfl))

/-- A SET of a key of one letter to forty zeros. -/
def setForty (letter : UInt8) : ServiceRequest :=
  ⟨0, 0x81, false, 0, letter :: 0 :: List.replicate 40 0, by rw [List.length_cons, List.length_cons, List.length_replicate]; omega⟩

/-- A GET and a DELETE of the key `1`. -/
def getOne : ServiceRequest := ⟨0, 0x80, false, 0, [49], by decide⟩
def deleteOne : ServiceRequest := ⟨0, 0x84, false, 0, [49], by decide⟩

namespace SettingsService

/-- SET the key `1`, DELETE it and GET it, with the free space before the DELETE. -/
def deleteWithSpace : Except SettingsFault (Nat × List Packet) := do
  let store ← ((Fstor.boot erasedFlash).jdFstorInit smallConfig).mapError .flash
  let (before, _) ← settingsHandlePacket smallConfig sampleSpec ⟨fun _ => 0, store⟩ (setForty 49)
  let (after, _) ← settingsHandlePacket smallConfig sampleSpec before deleteOne
  let (_, sends) ← settingsHandlePacket smallConfig sampleSpec after getOne
  return (before.store.freeSpace, sends)

/-- SET the keys `1`, `2` and `3`, DELETE `1` and GET it. -/
def deleteWhenFull : Except SettingsFault (List Packet) := do
  let store ← ((Fstor.boot erasedFlash).jdFstorInit smallConfig).mapError .flash
  let (state, _) ← settingsHandlePacket smallConfig sampleSpec ⟨fun _ => 0, store⟩ (setForty 49)
  let (state, _) ← settingsHandlePacket smallConfig sampleSpec state (setForty 50)
  let (state, _) ← settingsHandlePacket smallConfig sampleSpec state (setForty 51)
  let (state, _) ← settingsHandlePacket smallConfig sampleSpec state deleteOne
  let (_, sends) ← settingsHandlePacket smallConfig sampleSpec state getOne
  return sends

end SettingsService

theorem settings_service_is_map_deleted :
    ∃ state values, SettingsService.PacketRun smallConfig sampleSpec (SettingsService.DeleteFits smallConfig) state values ∧
      SettingsService.settingsHandlePacket smallConfig sampleSpec state getOne = .ok (state, [getOne.respond [49, 0]]) := by
  have done : SettingsService.deleteWithSpace = .ok (144, [getOne.respond [49, 0]]) := by decide +kernel
  obtain ⟨store, init, done⟩ := ok_of_bind done
  obtain ⟨⟨before, _⟩, set, done⟩ := ok_of_bind done
  obtain ⟨⟨after, _⟩, delete, done⟩ := ok_of_bind done
  obtain ⟨⟨_, _⟩, _, done⟩ := ok_of_bind done
  have space : before.store.freeSpace = 144 := congrArg Prod.fst (Except.ok.inj done)
  have start : SettingsService.PacketRun smallConfig sampleSpec (SettingsService.DeleteFits smallConfig) _ _ :=
    .mounted (fun _ => 0) (ok_of_mapError init)
  have run := SettingsService.PacketRun.delete (.set start (setForty 49) (by decide) rfl set) deleteOne (by decide) rfl
    (fun _ => .inr (.inl (by omega))) delete
  refine ⟨after, _, run, ?_⟩
  have replies := ((settings_service_is_map smallConfig sampleSpec run).1.get getOne rfl (by decide)).1
  rw [if_pos (by decide), show SettingsService.keyPart getOne = SettingsService.keyPart deleteOne from rfl,
    Function.update_self] at replies
  exact replies

/-- A DELETE of a full store leaves the value. -/
theorem delete_leaves_value :
    ¬ ∀ config spec state values, SettingsService.PacketRun config spec (fun _ _ => True) state values →
      SettingsService.RepliesAs config spec state values := by
  intro holds
  have done : SettingsService.deleteWhenFull = .ok [getOne.respond (49 :: 0 :: List.replicate 40 0)] := by decide +kernel
  obtain ⟨store, init, done⟩ := ok_of_bind done
  obtain ⟨⟨_, _⟩, one, done⟩ := ok_of_bind done
  obtain ⟨⟨_, _⟩, two, done⟩ := ok_of_bind done
  obtain ⟨⟨_, _⟩, three, done⟩ := ok_of_bind done
  obtain ⟨⟨after, _⟩, delete, done⟩ := ok_of_bind done
  obtain ⟨⟨_, sends⟩, get, done⟩ := ok_of_bind done
  have start : SettingsService.PacketRun smallConfig sampleSpec (fun _ _ => True) _ _ :=
    .mounted (fun _ => 0) (ok_of_mapError init)
  have filled := ((start.set (setForty 49) (by decide) rfl one).set (setForty 50) (by decide) rfl two).set
    (setForty 51) (by decide) rfl three
  have run := filled.delete deleteOne (by decide) rfl (fun _ => trivial) delete
  have replies := ((holds _ _ _ _ run).get getOne rfl (by decide)).1
  rw [if_pos (by decide), show SettingsService.keyPart getOne = SettingsService.keyPart deleteOne from rfl,
    Function.update_self] at replies
  have same : sends = [getOne.respond (SettingsService.keyPart deleteOne ++ [0])] :=
    congrArg Prod.snd (Except.ok.inj (get.symm.trans replies))
  have answer : sends = [getOne.respond (49 :: 0 :: List.replicate 40 0)] := Except.ok.inj done
  rw [answer] at same
  exact absurd same (by decide)

end Jacdac
