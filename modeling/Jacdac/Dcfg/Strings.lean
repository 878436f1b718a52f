import Jacdac.Dcfg.Lookup

/-! The user and the manufacturer configuration, and the strings a lookup returns
from them. -/

namespace Jacdac

/-- `configs`, with `dcfg_inited`. A configuration is constant memory. -/
structure DcfgState where
  dcfgInited : Bool
  userConfig : Option DcfgBlob
  mfrConfig : Option DcfgBlob

/-- What is stored at `JD_DCFG_BASE_ADDR`. -/
structure DcfgBase where
  baseAddr : Nat
  blob : DcfgBlob

/-- A pointer into a configuration, as its distance from the header, and `*sizep`. -/
structure DcfgString where
  base : DcfgBlob
  offset : Nat
  size : Nat

namespace DcfgBlob

/-- The entries the loop of `get_entry` reads, from `idx` on. -/
def visited (blob : DcfgBlob) (key : List UInt8) (idx : Nat) : List Nat :=
  if idx < blob.numEntries then
    if blob.hash idx ≤ keyhash key then
      if blob.hash idx = keyhash key ∧ blob.read (entry idx) key.length = key then [idx]
      else idx :: visited blob key (idx + 1)
    else [idx]
  else []
termination_by blob.numEntries - idx

end DcfgBlob

namespace DcfgState

open DcfgBlob

def start : DcfgState := ⟨false, none, none⟩

def dcfgInit (base : DcfgBase) (state : DcfgState) : DcfgState :=
  if state.dcfgInited then state
  else if dcfgValidate base.baseAddr base.blob = 0 then { state with dcfgInited := true, mfrConfig := some base.blob }
  else { state with dcfgInited := true }

/-- `dcfg_set_user_config` of the blob at `hd`. -/
def dcfgSetUserConfig (base : DcfgBase) (hd : Nat) (blob : DcfgBlob) (state : DcfgState) : Nat × DcfgState :=
  let state := { state.dcfgInit base with userConfig := none }
  let err := dcfgValidate hd blob
  (err, if err = 0 then { state with userConfig := some blob } else state)

def configs (state : DcfgState) : List (Option DcfgBlob) := [state.userConfig, state.mfrConfig]

/-- `get_entry`, where the configuration and the key can be `NULL`. -/
def getEntryOf (config : Option DcfgBlob) (key : Option (List UInt8)) : Option (DcfgBlob × Nat) := do
  let blob ← config
  let key ← key
  let index ← blob.getEntry key
  return (blob, index)

/-- `dcfg_get_entry`: the first configuration that has the key. -/
def dcfgGetEntry (base : DcfgBase) (key : Option (List UInt8)) (state : DcfgState) :
    Option (DcfgBlob × Nat) × DcfgState :=
  let state := state.dcfgInit base
  (state.configs.findSome? (getEntryOf · key), state)

/-- `dcfg_get_string`; a missing key and a number have no string. -/
def dcfgGetString (base : DcfgBase) (key : Option (List UInt8)) (state : DcfgState) :
    Option DcfgString × DcfgState :=
  let state := state.dcfgInit base
  match state.configs.findSome? (getEntryOf · key) with
  | none => (none, state)
  | some (blob, index) =>
    -- DCFG_TYPE_STRING and DCFG_TYPE_BLOB
    if blob.typeSize index % 4 = 2 ∨ blob.typeSize index % 4 = 3 then
      (some ⟨blob, blob.value index, blob.typeSize index / 4⟩, state)
    else (none, state)

end DcfgState

/-- A call of the module. -/
inductive DcfgCall where
  | setUserConfig (hd : Nat) (blob : DcfgBlob)
  | getEntry (key : Option (List UInt8))
  | getString (key : Option (List UInt8))

def DcfgState.call (base : DcfgBase) (state : DcfgState) : DcfgCall → DcfgState
  | .setUserConfig hd blob => (state.dcfgSetUserConfig base hd blob).2
  | .getEntry key => (state.dcfgGetEntry base key).2
  | .getString key => (state.dcfgGetString base key).2

def DcfgState.run (base : DcfgBase) (calls : List DcfgCall) : DcfgState :=
  calls.foldl (DcfgState.call base) DcfgState.start

namespace DcfgBlob

variable {blob : DcfgBlob} {key : List UInt8}

/-- The blob passed `dcfg_validate`, wherever it lies. -/
def Accepted (blob : DcfgBlob) : Prop := ∃ hd, dcfgValidate hd blob = 0

theorem visited_lt : ∀ index ∈ blob.visited key idx, index < blob.numEntries := by
  fun_induction visited blob key idx with
  | case1 idx inside _ _ => simpa using inside
  | case2 idx inside _ _ ih =>
    intro index member
    rcases List.mem_cons.mp member with rfl | later
    · exact inside
    · exact ih index later
  | case3 idx inside _ => simpa using inside
  | case4 => simp

/-- The loop of `get_entry` depends on the visited entries only. -/
theorem scan_congr {other : DcfgBlob} (short : key.length ≤ dcfgKeysize)
    (entries : other.numEntries = blob.numEntries)
    (same : ∀ index ∈ blob.visited key idx, ∀ cell, entry index ≤ cell → cell < entry index + entrySize →
      other cell = blob cell) :
    other.scan key idx = blob.scan key idx := by
  have hashes (index : Nat) (agree : ∀ cell, entry index ≤ cell → cell < entry index + entrySize →
      other cell = blob cell) : other.hash index = blob.hash index :=
    Memory.number_congr fun cell low high => agree cell (by omega) (by unfold entrySize; omega)
  have keys (index : Nat) (agree : ∀ cell, entry index ≤ cell → cell < entry index + entrySize →
      other cell = blob cell) : other.read (entry index) key.length = blob.read (entry index) key.length :=
    Memory.read_congr fun cell low high => agree cell low (by unfold entrySize dcfgKeysize at *; omega)
  fun_induction visited blob key idx with
  | case1 idx inside ordered found =>
    have here := same idx List.mem_cons_self
    have more : idx < blob.numEntries ∧ blob.hash idx ≤ keyhash key := ⟨inside, ordered⟩
    rw [scan, scan.eq_def blob, hashes idx here, keys idx here, entries, if_pos more, if_pos more,
      if_pos found, if_pos found]
  | case2 idx inside ordered missed ih =>
    have here := same idx List.mem_cons_self
    have more : idx < blob.numEntries ∧ blob.hash idx ≤ keyhash key := ⟨inside, ordered⟩
    rw [scan, scan.eq_def blob, hashes idx here, keys idx here, entries, if_pos more, if_pos more,
      if_neg missed, if_neg missed]
    exact ih fun index later => same index (List.mem_cons_of_mem _ later)
  | case3 idx inside beyond =>
    have here := same idx List.mem_cons_self
    rw [scan, scan.eq_def blob, hashes idx here, if_neg fun more => beyond more.2, if_neg fun more => beyond more.2]
  | case4 idx outside =>
    rw [scan, scan.eq_def blob, entries, if_neg fun more => outside more.1, if_neg fun more => outside more.1]

theorem Accepted.entry_inside (accepted : Accepted blob) (inside : index ≤ blob.numEntries) :
    entry index + entrySize ≤ blob.totalBytes := by
  obtain ⟨_, accepted⟩ := accepted
  have table := (dcfgValidate_passed accepted).1
  unfold dataStart at table
  unfold entry entrySize at *
  omega

theorem Accepted.jump_le (accepted : Accepted blob) (key : List UInt8) :
    blob.hashJump (hashBucket (keyhash key)) ≤ blob.numEntries := by
  obtain ⟨_, accepted⟩ := accepted
  exact (dcfgValidate_valid accepted).jump_le _ (hashBucket_lt key)

/-- The strings of an accepted blob lie inside it and end with a zero byte. -/
theorem Accepted.string_inside (accepted : Accepted blob) (inside : index < blob.numEntries)
    (text : blob.typeSize index % 4 = 2 ∨ blob.typeSize index % 4 = 3) :
    blob.value index + blob.typeSize index / 4 < blob.totalBytes ∧
      blob (blob.value index + blob.typeSize index / 4) = 0 := by
  obtain ⟨_, accepted⟩ := accepted
  have passed := (checkEntry_passed ((dcfgValidate_passed accepted).2.2 index inside)).2.2.2
  unfold checkValue at passed
  rw [if_neg (by omega)] at passed
  obtain ⟨_, passed⟩ := check_eq_zero passed (by decide)
  obtain ⟨_, passed⟩ := check_eq_zero passed (by decide)
  obtain ⟨small, passed⟩ := check_eq_zero passed (by decide)
  obtain ⟨ends, _⟩ := check_eq_zero passed (by decide)
  exact ⟨of_decide_eq_true small, of_decide_eq_true ends⟩

theorem Accepted.getEntry_lt (accepted : Accepted blob) (found : blob.getEntry key = some index) :
    index < blob.numEntries := by
  obtain ⟨_, accepted⟩ := accepted
  have short : key.length ≤ dcfgKeysize := by
    by_contra long
    rw [getEntry, if_pos (by omega)] at found
    cases found
  exact (((dcfgValidate_valid accepted).getEntry_spec short).1 index found).1

end DcfgBlob

namespace DcfgState

open DcfgBlob

variable {base : DcfgBase} {state : DcfgState} {key : Option (List UInt8)}

/-- The manufacturer configuration, if it is accepted. -/
def manufacturer (base : DcfgBase) : Option DcfgBlob :=
  if dcfgValidate base.baseAddr base.blob = 0 then some base.blob else none

/-- Only accepted blobs are in use; the manufacturer's is the one at the base address. -/
structure Sound (base : DcfgBase) (state : DcfgState) : Prop where
  user : ∀ blob, state.userConfig = some blob → Accepted blob
  mfr : state.mfrConfig = if state.dcfgInited then manufacturer base else none

theorem start_sound (base : DcfgBase) : Sound base start := ⟨nofun, rfl⟩

theorem dcfgInit_inited (base : DcfgBase) (state : DcfgState) : (state.dcfgInit base).dcfgInited = true := by
  unfold dcfgInit
  split
  · assumption
  · split <;> rfl

theorem dcfgInit_user (base : DcfgBase) (state : DcfgState) :
    (state.dcfgInit base).userConfig = state.userConfig := by
  unfold dcfgInit
  split
  · rfl
  · split <;> rfl

theorem Sound.init (sound : Sound base state) : Sound base (state.dcfgInit base) := by
  refine ⟨fun blob held => sound.user blob (dcfgInit_user base state ▸ held), ?_⟩
  have mfr := sound.mfr
  rw [if_pos (dcfgInit_inited base state)]
  unfold dcfgInit
  split
  · rename_i inited
    rwa [if_pos inited] at mfr
  · rename_i fresh
    rw [if_neg fresh] at mfr
    unfold manufacturer
    split
    · rfl
    · exact mfr

theorem Sound.setUserConfig (sound : Sound base state) (hd : Nat) (blob : DcfgBlob) :
    Sound base (state.dcfgSetUserConfig base hd blob).2 := by
  have init := sound.init
  unfold dcfgSetUserConfig
  dsimp only
  split
  · rename_i accepted
    refine ⟨fun other held => ?_, init.mfr⟩
    obtain rfl := Option.some.inj held
    exact ⟨hd, accepted⟩
  · exact ⟨nofun, init.mfr⟩

theorem dcfgGetString_state (base : DcfgBase) (key : Option (List UInt8)) (state : DcfgState) :
    (state.dcfgGetString base key).2 = state.dcfgInit base := by
  unfold dcfgGetString
  dsimp only
  split
  · rfl
  · split <;> rfl

theorem Sound.call (sound : Sound base state) (call : DcfgCall) : Sound base (state.call base call) := by
  cases call with
  | setUserConfig hd blob => exact sound.setUserConfig hd blob
  | getEntry key => exact sound.init
  | getString key =>
    rw [DcfgState.call, dcfgGetString_state]
    exact sound.init

theorem run_sound (base : DcfgBase) (calls : List DcfgCall) : Sound base (run base calls) := by
  suffices general : ∀ state, Sound base state → Sound base (calls.foldl (DcfgState.call base) state) from
    general start (start_sound base)
  induction calls with
  | nil => exact fun _ sound => sound
  | cons call rest ih => exact fun state sound => ih _ (sound.call call)

/-- The configurations a lookup searches have all been accepted. -/
theorem Sound.accepted (sound : Sound base state) (member : some blob ∈ state.configs) : Accepted blob := by
  unfold configs at member
  rcases List.mem_cons.mp member with user | later
  · exact sound.user blob user.symm
  · have mfr := sound.mfr
    rw [← List.mem_singleton.mp later] at mfr
    unfold manufacturer at mfr
    split at mfr
    · split at mfr
      · rename_i accepted
        obtain rfl := Option.some.inj mfr
        exact ⟨_, accepted⟩
      · cases mfr
    · cases mfr

theorem getEntryOf_some (found : getEntryOf config key = some (blob, index)) :
    config = some blob ∧ ∃ text, key = some text ∧ blob.getEntry text = some index := by
  unfold getEntryOf at found
  cases config with
  | none => cases found
  | some held =>
    cases key with
    | none => cases found
    | some text =>
      cases entry : held.getEntry text with
      | none => simp [entry] at found
      | some place =>
        simp only [Option.bind_eq_bind, Option.bind_some, entry, Option.pure_def, Option.some.injEq,
          Prod.mk.injEq] at found
        obtain ⟨rfl, rfl⟩ := found
        exact ⟨rfl, text, rfl, entry⟩

theorem Sound.found_inside (sound : Sound base state)
    (found : state.configs.findSome? (getEntryOf · key) = some (blob, index)) :
    Accepted blob ∧ index < blob.numEntries := by
  obtain ⟨config, member, hit⟩ := List.exists_of_findSome?_eq_some found
  obtain ⟨rfl, text, _, entry⟩ := getEntryOf_some hit
  have accepted := sound.accepted member
  exact ⟨accepted, accepted.getEntry_lt entry⟩

theorem Sound.string_inside (sound : Sound base state) {string : DcfgString}
    (returned : (state.dcfgGetString base key).1 = some string) :
    Accepted string.base ∧ string.offset + string.size < string.base.totalBytes ∧
      string.base (string.offset + string.size) = 0 := by
  unfold dcfgGetString at returned
  dsimp only at returned
  split at returned
  · cases returned
  · rename_i blob index found
    obtain ⟨accepted, inside⟩ := sound.init.found_inside found
    split at returned
    · rename_i text
      obtain rfl := Option.some.inj returned
      exact ⟨accepted, accepted.string_inside inside text⟩
    · cases returned

/-- A lookup changes nothing once the module is initialized. -/
theorem run_lookups (inited : state.dcfgInited = true) (later : List DcfgCall)
    (lookups : ∀ call ∈ later, ∀ hd blob, call ≠ .setUserConfig hd blob) :
    later.foldl (DcfgState.call base) state = state := by
  have same : state.dcfgInit base = state := if_pos inited
  induction later with
  | nil => rfl
  | cons call rest ih =>
    have kept : state.call base call = state := by
      cases call with
      | setUserConfig hd blob => exact absurd rfl (lookups _ (List.mem_cons_self ..) hd blob)
      | getEntry key => exact same
      | getString key => rw [DcfgState.call, dcfgGetString_state, same]
    rw [List.foldl_cons, kept]
    exact ih fun other member => lookups other (List.mem_cons_of_mem _ member)

theorem Sound.rejected (sound : Sound base state) (refused : dcfgValidate hd blob ≠ 0) :
    (state.dcfgSetUserConfig base hd blob).2 = ⟨true, none, manufacturer base⟩ := by
  have inited := dcfgInit_inited base state
  have mfr := sound.init.mfr
  have reset : (state.dcfgSetUserConfig base hd blob).2 =
      ⟨(state.dcfgInit base).dcfgInited, none, (state.dcfgInit base).mfrConfig⟩ := if_neg refused
  rw [if_pos inited] at mfr
  rw [reset, inited, mfr]

theorem findSome_manufacturer (key : Option (List UInt8)) :
    (configs ⟨true, none, manufacturer base⟩).findSome? (getEntryOf · key) = getEntryOf (manufacturer base) key := by
  have missing : getEntryOf none key = none := rfl
  simp only [configs, List.findSome?_cons, List.findSome?_nil, missing]
  cases getEntryOf (manufacturer base) key <;> rfl

/-- Then every lookup is one in that configuration. -/
theorem lookups_manufacturer (base : DcfgBase) (key : Option (List UInt8)) :
    (dcfgGetEntry base key ⟨true, none, manufacturer base⟩).1 = getEntryOf (manufacturer base) key ∧
      ∀ string, (dcfgGetString base key ⟨true, none, manufacturer base⟩).1 = some string →
        manufacturer base = some string.base := by
  constructor
  · exact findSome_manufacturer key
  · intro string returned
    unfold dcfgGetString dcfgInit at returned
    dsimp only at returned
    rw [if_pos rfl, findSome_manufacturer] at returned
    split at returned
    · cases returned
    · rename_i blob index found
      split at returned
      · obtain rfl := Option.some.inj returned
        exact (getEntryOf_some found).1
      · cases returned

/-- In every run, a string that a lookup returns lies inside an accepted blob and
ends with a zero byte there; the lookup starts at most at the sentinel and reads
only entries of the table; and from a rejected blob on, up to the next one, the
manufacturer's configuration alone answers. -/
theorem dcfg_strings_in_bounds (base : DcfgBase) (calls : List DcfgCall) (key : Option (List UInt8)) :
    let state := run base calls
    (∀ string, (state.dcfgGetString base key).1 = some string →
      Accepted string.base ∧ string.offset + string.size < string.base.totalBytes ∧
        string.base (string.offset + string.size) = 0) ∧
    (∀ blob, some blob ∈ (state.dcfgInit base).configs → ∀ text, key = some text →
      hashBucket (keyhash text) < hashJumpEntries ∧
      blob.hashJump (hashBucket (keyhash text)) ≤ blob.numEntries ∧
      ∀ index ∈ blob.visited text (blob.hashJump (hashBucket (keyhash text))),
        index < blob.numEntries ∧ entry index + entrySize ≤ blob.totalBytes) ∧
    ∀ hd blob, dcfgValidate hd blob ≠ 0 → ∀ later : List DcfgCall,
      (∀ call ∈ later, ∀ hd blob, call ≠ .setUserConfig hd blob) →
      let after := later.foldl (DcfgState.call base) (state.dcfgSetUserConfig base hd blob).2
      (after.dcfgGetEntry base key).1 = getEntryOf (manufacturer base) key ∧
        ∀ string, (after.dcfgGetString base key).1 = some string → manufacturer base = some string.base := by
  have sound := run_sound base calls
  refine ⟨fun string returned => sound.string_inside returned, ?_, ?_⟩
  · intro blob member text _
    have accepted := sound.init.accepted member
    refine ⟨hashBucket_lt text, accepted.jump_le text, fun index visit => ?_⟩
    have inside := visited_lt index visit
    exact ⟨inside, accepted.entry_inside (Nat.le_of_lt inside)⟩
  · intro hd blob refused later lookups
    dsimp only
    rw [sound.rejected refused, run_lookups rfl later lookups]
    exact lookups_manufacturer base key

/-- The blob of one entry, with the string `hi` in place of a number. -/
def textBlob : DcfgBlob := fun cell =>
  if cell = 8 then 139 else if cell = 106 then 10 else if cell = 108 then 136
  else if cell < 136 then shadowBlob cell else ([0x68, 0x69] : List UInt8).getD (cell - 136) 0

example : (dcfgGetString ⟨4, textBlob⟩ (some [0x67, 0x71, 0x6a, 0x62]) start).1.map
    (fun string => (string.offset, string.size)) = some (136, 2) := by
  decide +kernel

end DcfgState

end Jacdac
