import Jacdac.Fstor.Store
import Mathlib.Logic.Function.Basic

/-! The settings store with `JD_SETTINGS_LARGE`: large values have pages of their
own behind both header areas, and a bitmap says which of these pages are taken. -/

namespace Jacdac

/-- The assertions on pages and on the key of a large entry, and a loop without end. -/
inductive LargeFault where
  | core (fault : FstorFault)
  | page
  | notLarge
  | endless
  deriving DecidableEq, Repr

/-- The store and `used_data_pages`, by number of the data page. -/
structure LargeFstor where
  core : Fstor
  used : Nat → Bool

namespace Fstor

/-- `FSTOR_DATA_PAGES`. -/
def dataPages (config : FstorConfig) : Nat := config.totalPages - config.headerPages * 2

def numDataPages (config : FstorConfig) (size : Nat) : Nat := alignCore size config.pageSize / config.pageSize

def lkeyOk (key : CString) : Bool := ¬ (key.1.head? ≠ some largeMark ∨ key.1.length > fstorKeysize)

end Fstor

namespace LargeFstor

open Fstor

/-- The result of a function that knows nothing of large settings. -/
def lift (result : Except FstorFault α) : Except LargeFault α := result.mapError .core

def dataPageUsed (config : FstorConfig) (used : Nat → Bool) (off : Nat) : Except LargeFault Bool :=
  if off < dataPages config then .ok (used off) else .error .page

def markDataPage (config : FstorConfig) (flag : Bool) (used : Nat → Bool) (off : Nat) :
    Except LargeFault (Nat → Bool) := do
  let taken ← dataPageUsed config used off
  if taken ≠ flag then .ok (Function.update used off (!taken)) else .ok used

/-- `mark_large`, for an entry with this first character, offset and size. -/
def markLarge (config : FstorConfig) (mark : UInt8) (offset size : Nat) (flag : Bool) (used : Nat → Bool) :
    Except LargeFault (Nat → Bool) :=
  if mark ≠ largeMark then .error .notLarge
  else
    let off := u32 (offset / config.pageSize + 4294967296 - config.headerPages * 2)
    (List.range (numDataPages config size)).foldlM
      (fun used page => markDataPage config flag used (u32 (off + page))) used

/-- `mark_large`, for an entry in flash. -/
def markEntry (config : FstorConfig) (flash : Memory) (flag : Bool) (used : Nat → Bool) (entry : Nat) :
    Except LargeFault (Nat → Bool) :=
  markLarge config (flash entry) (entryOffset flash entry) (entrySize flash entry) flag used

/-- The end of `recompute_cache`: mark the pages of the latest large entries. -/
def recomputePages (config : FstorConfig) (core : Fstor) : Except LargeFault (Nat → Bool) :=
  match core.settings with
  | none => .error (.core .unmounted)
  | some base =>
    (entriesTo (base + fstorEntrySize) core.lastEntry).foldlM (fun used entry =>
      if isLarge core.flash entry ∧ hasLaterCopy core.flash core.lastEntry entry = false then
        markEntry config core.flash true used entry
      else .ok used) (fun _ => false)

/-- A store with its bitmap computed. -/
def recomputed (config : FstorConfig) (core : Fstor) : Except LargeFault LargeFstor := do
  let used ← recomputePages config core
  .ok ⟨core, used⟩

/-- `jd_fstor_init`; the last call of `recompute_cache` is on the area that is mounted. -/
def jdFstorInit (config : FstorConfig) (store : LargeFstor) : Except LargeFault LargeFstor :=
  match store.core.settings with
  | some _ => .ok store
  | none => do
    let core ← lift (store.core.jdFstorInit config)
    recomputed config core

def remount (config : FstorConfig) (store : LargeFstor) : Except LargeFault LargeFstor :=
  { store with core := { store.core with settings := none } }.jdFstorInit config

def jdFstorGc (config : FstorConfig) (store : LargeFstor) : Except LargeFault LargeFstor := do
  let core ← lift (store.core.jdFstorGc config)
  recomputed config core

def findEntry (config : FstorConfig) (key : CString) (store : LargeFstor) :
    Except LargeFault (Option Nat × LargeFstor) := do
  let store ← store.jdFstorInit config
  let (found, core) ← lift (store.core.findEntry config key)
  .ok (found, { store with core })

/-- `jd_settings_get_bin`: the result, the bytes copied to `dst`, and the store. -/
def jdSettingsGetBin (config : FstorConfig) (key : Option CString) (space : Nat) (store : LargeFstor) :
    Except LargeFault (Int × List UInt8 × LargeFstor) :=
  match key.filter keyOk with
  | none => .ok (-1, [], store)
  | some key => do
    let (found, store) ← store.findEntry config key
    match found with
    | none => .ok (-2, [], store)
    | some entry =>
      let size := entrySize store.core.flash entry
      let copied := if space ≥ size then store.core.flash.read (entryOffset store.core.flash entry) space else []
      .ok (signed32 size, copied, store)

def appendEntry (config : FstorConfig) (key : CString) (val : List UInt8) (store : LargeFstor) :
    Except LargeFault (Int × LargeFstor) := do
  let (result, core) ← lift (store.core.appendEntry config key val)
  .ok (result, { store with core })

def storeEntry (config : FstorConfig) (key : CString) (val : List UInt8) (store : LargeFstor) :
    Except LargeFault (Int × LargeFstor) :=
  let need := Fstor.align val.length + fstorEntrySize
  if store.core.freeSpace < need then do
    let store ← store.jdFstorGc config
    if store.core.freeSpace < need then .ok (-3, store) else store.appendEntry config key val
  else store.appendEntry config key val

def jdSettingsSetBin (config : FstorConfig) (key : Option CString) (val : List UInt8) (store : LargeFstor) :
    Except LargeFault (Int × LargeFstor) :=
  match key.filter keyOk with
  | none => .ok (-1, store)
  | some key =>
    if val.length > config.headerSize - 200 then .ok (-2, store)
    else do
      let (found, store) ← store.findEntry config key
      if found.any (holds store.core.flash val) then .ok (0, store) else store.storeEntry config key val

/-- `jd_settings_get_large`: the address and the size. -/
def jdSettingsGetLarge (config : FstorConfig) (key : Option CString) (store : LargeFstor) :
    Except LargeFault (Option (Nat × Nat) × LargeFstor) :=
  match key.filter lkeyOk with
  | none => .ok (none, store)
  | some key => do
    let (found, store) ← store.findEntry config key
    .ok (found.map fun entry => (entryOffset store.core.flash entry, entrySize store.core.flash entry), store)

/-- The inner loop of `find_free_data`: the first page from `i` on that is used. -/
def firstUsed (config : FstorConfig) (used : Nat → Bool) (off : Nat) : Nat → Nat → Except LargeFault (Option Nat)
  | 0, _ => .ok none
  | left + 1, i => do
    let taken ← dataPageUsed config used (off + i)
    if taken then .ok (some i) else firstUsed config used off left (i + 1)

/-- The outer loop of `find_free_data`. -/
def searchFrom (config : FstorConfig) (used : Nat → Bool) (pages bound off : Nat) : Except LargeFault (Option Nat) :=
  if off < bound then
    match firstUsed config used off pages 0 with
    | .error fault => .error fault
    | .ok (some i) => searchFrom config used pages bound (off + (i + 1))
    | .ok none => if pages = 0 then .error .endless else .ok (some off)
  else .ok none
termination_by bound - off

/-- The address of a free range, or 0. -/
def findFreeData (config : FstorConfig) (size : Nat) (used : Nat → Bool) : Except LargeFault Nat := do
  let pages := numDataPages config size
  let found ← searchFrom config used pages (u32 (dataPages config + 4294967296 - pages)) 0
  match found with
  | none => .ok 0
  | some off => .ok ((config.headerPages * 2 + off) * config.pageSize)

/-- The end of `jd_settings_prep_large`, when there is space for the entry. -/
def appendLarge (config : FstorConfig) (key : CString) (offset size : Nat) (store : LargeFstor) :
    Except LargeFault (Option Nat × LargeFstor) := do
  let lastEntry := store.core.lastEntry + fstorEntrySize
  let core := { store.core with lastEntry }.erasePages config offset (numDataPages config size)
  let core := core.issue config (.program lastEntry (newEntry key offset size))
  let used ← markLarge config (key.1.headD 0) offset size true store.used
  .ok (some offset, ⟨core, used⟩)

/-- The rest of `jd_settings_prep_large`, with a free range found. -/
def storeLarge (config : FstorConfig) (key : CString) (offset size : Nat) (store : LargeFstor) :
    Except LargeFault (Option Nat × LargeFstor) :=
  if store.core.freeSpace < fstorEntrySize then do
    let store ← store.jdFstorGc config
    if store.core.freeSpace < fstorEntrySize then .ok (none, store) else store.appendLarge config key offset size
  else store.appendLarge config key offset size

/-- `jd_settings_prep_large`: the address of the region, or `NULL`. -/
def jdSettingsPrepLarge (config : FstorConfig) (key : Option CString) (size : Nat) (store : LargeFstor) :
    Except LargeFault (Option Nat × LargeFstor) :=
  match key.filter lkeyOk with
  | none => .ok (none, store)
  | some key => do
    let (found, store) ← store.findEntry config key
    let released ← match found with
      | some entry => markEntry config store.core.flash false store.used entry
      | none => .ok store.used
    let offset ← findFreeData config size released
    if offset = 0 then
      let used ← match found with
        | some entry => markEntry config store.core.flash true released entry
        | none => .ok released
      .ok (none, { store with used })
    else storeLarge config key offset size { store with used := released }

def jdSettingsWriteLarge (config : FstorConfig) (dst : Nat) (src : List UInt8) (store : LargeFstor) : LargeFstor :=
  { store with core := store.core.issue config (.program dst src) }

end LargeFstor

end Jacdac
