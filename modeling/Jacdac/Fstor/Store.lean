import Jacdac.Base.Endian
import Jacdac.Base.Result
import Jacdac.Frame.Packets

/-! The settings store of `jd_fstor.c`. Addresses are offsets from `fstor_base`,
and every flash operation is recorded, so that an image between two of them can
be rebuilt. -/

namespace Jacdac

/-- The build-time constants. The size limit of `jd_settings_set_bin` does not
underflow, both header areas lie inside the storage, and the numbers of pages and
bytes fit the 16-bit and 32-bit fields that hold them. -/
structure FstorConfig where
  pageSize : Nat
  totalPages : Nat
  headerPages : Nat
  room : 200 ≤ headerPages * pageSize
  inside : 2 * headerPages ≤ totalPages
  pages : totalPages < 65536
  bytes : totalPages * pageSize < 4294967296

/-- The header of one page of 256 bytes. -/
theorem FstorConfig.small_room : 200 ≤ 1 * 256 := by decide

/-- `FSTOR_HEADER_SIZE`. -/
def FstorConfig.headerSize (config : FstorConfig) : Nat := config.headerPages * config.pageSize

/-- A `const char *` that is not `NULL`: the bytes before its terminator. -/
abbrev CString := { bytes : List UInt8 // 0 ∉ bytes }

def fstorKeysize : Nat := 15

/-- `sizeof(jd_fstor_entry_t)`, which is also the size of `jd_fstor_header_t`. -/
def fstorEntrySize : Nat := 24

/-- The character that starts the key of a large setting. -/
def largeMark : UInt8 := 42

inductive FlashOp where
  | erase (address : Nat)
  | program (address : Nat) (bytes : List UInt8)

/-- A page is set to `0xff`, or bytes are stored. -/
def FlashOp.apply (pageSize : Nat) : FlashOp → Memory → Memory
  | erase address, flash => flash.write address (List.replicate pageSize 0xff)
  | program address bytes, flash => flash.write address bytes

/-- The flash, the operations issued on it, and the static variables. `settings`
is the mounted header area. -/
structure Fstor where
  flash : Memory
  ops : List FlashOp
  settings : Option Nat
  lastEntry : Nat
  dataStart : Nat

/-- The assertions of the store, a `NULL` dereference, and a copy that leaves the storage. -/
inductive FstorFault where
  | format
  | gc
  | entry
  | unmounted
  | outside
  deriving DecidableEq, Repr

namespace Fstor

/-- `align_core`, for a power of two. -/
def alignCore (size sz : Nat) : Nat := if size = 0 then sz else u32 (size + sz - 1) / sz * sz

def align (size : Nat) : Nat := alignCore size 8

def entryOffset (flash : Memory) (entry : Nat) : Nat := flash.number (entry + 16) 4

def entrySize (flash : Memory) (entry : Nat) : Nat := flash.number (entry + 20) 4

/-- What `strcmp` sees of `key`: without a terminator it reads on into the other fields. -/
def entryKey (flash : Memory) (entry : Nat) : List UInt8 :=
  (flash.read entry fstorEntrySize).takeWhile (· ≠ 0)

def isValid (flash : Memory) (entry : Nat) : Bool := entryOffset flash entry ≠ 0xffffffff

def isLarge (flash : Memory) (entry : Nat) : Bool := flash entry = largeMark

def keyOk (key : CString) : Bool := ¬ (key.1.length > fstorKeysize ∨ key.1.head? = some largeMark)

/-- The bytes of a new `jd_fstor_entry_t`. -/
def newEntry (key : CString) (offset size : Nat) : List UInt8 :=
  key.1 ++ List.replicate (16 - key.1.length) 0 ++ littleEndian 4 offset ++ littleEndian 4 size

/-- The entries from `first` to `last`, as `for (e = first; e <= last; ++e)` visits them. -/
def entriesTo (first last : Nat) : List Nat :=
  (List.range ((last + fstorEntrySize - first) / fstorEntrySize)).map (first + fstorEntrySize * ·)

def hasLaterCopy (flash : Memory) (last entry : Nat) : Bool :=
  (entriesTo (entry + fstorEntrySize) last).any fun later => entryKey flash later = entryKey flash entry

def issue (config : FstorConfig) (store : Fstor) (op : FlashOp) : Fstor :=
  { store with flash := op.apply config.pageSize store.flash, ops := store.ops ++ [op] }

def erasePages (config : FstorConfig) (base num : Nat) (store : Fstor) : Fstor :=
  (List.range num).foldl (fun store page => store.issue config (.erase (base + page * config.pageSize))) store

/-- A difference below zero counts as no space. -/
def freeSpace (store : Fstor) : Nat := store.dataStart - store.lastEntry - fstorEntrySize * 2

/-- The first loop of `recompute_cache`: the entry after the last one and the
lowest offset; `none` is the failure `last-ent`. -/
def scanEntries (flash : Memory) (entry minoff : Nat) : Option (Nat × Nat) :=
  if isValid flash entry then
    let lower := min minoff (entryOffset flash entry)
    if entry + fstorEntrySize > lower then none
    else scanEntries flash (entry + fstorEntrySize) lower
  else some (entry, minoff)
termination_by minoff + fstorEntrySize - entry
decreasing_by
  simp only [fstorEntrySize] at *
  omega

/-- `recompute_cache` on the area at `base`; a failure unmounts it. -/
def recomputeCache (config : FstorConfig) (base : Nat) (store : Fstor) : Fstor :=
  match scanEntries store.flash (base + fstorEntrySize) (base + config.headerSize) with
  | none => { store with settings := none }
  | some (entry, minoff) =>
    let store := { store with lastEntry := entry - fstorEntrySize, dataStart := minoff }
    if (store.flash.read entry (minoff - entry)).all (· = 0xff) then { store with settings := some base }
    else { store with settings := none }

def fstorMagic0 : Nat := 0x52545346
def fstorMagic1 : Nat := 0x6becea0a

/-- The bytes of a new `jd_fstor_header_t`. -/
def newHeader (config : FstorConfig) (gen : Nat) : List UInt8 :=
  littleEndian 4 fstorMagic0 ++ littleEndian 4 fstorMagic1 ++ littleEndian 4 gen ++
    littleEndian 4 config.pageSize ++ littleEndian 2 config.totalPages ++
    littleEndian 2 config.headerPages ++ littleEndian 4 0

def writeHeader (config : FstorConfig) (base gen : Nat) (store : Fstor) : Fstor :=
  store.issue config (.program base (newHeader config gen))

def isValidHeader (config : FstorConfig) (flash : Memory) (header : Nat) : Bool :=
  flash.number header 4 = fstorMagic0 ∧ flash.number (header + 4) 4 = fstorMagic1 ∧
    flash.number (header + 12) 4 = config.pageSize ∧ flash.number (header + 16) 2 = config.totalPages ∧
    flash.number (header + 18) 2 = config.headerPages

def generation (flash : Memory) (header : Nat) : Nat := flash.number (header + 8) 4

/-- The header area that `jd_fstor_init` picks. -/
def pickHeader (config : FstorConfig) (flash : Memory) : Option Nat :=
  let s0 := isValidHeader config flash 0
  let s1 := isValidHeader config flash config.headerSize
  if s0 ∧ s1 then
    if generation flash 0 > generation flash config.headerSize then some 0 else some config.headerSize
  else if s0 then some 0
  else if s1 then some config.headerSize
  else none

/-- The second half of `jd_fstor_init`, with nothing mounted: format the first area. -/
def format (config : FstorConfig) (store : Fstor) : Except FstorFault Fstor :=
  let store := { store with settings := some 0 }.erasePages config 0 config.headerPages
  let store := (store.writeHeader config 0 1).recomputeCache config 0
  if store.settings = none then .error .format else .ok store

def jdFstorInit (config : FstorConfig) (store : Fstor) : Except FstorFault Fstor :=
  match store.settings with
  | some _ => .ok store
  | none =>
    let store :=
      match pickHeader config store.flash with
      | some base => { store with settings := some base }.recomputeCache config base
      | none => store
    if store.settings = none then store.format config else .ok store

def remount (config : FstorConfig) (store : Fstor) : Except FstorFault Fstor :=
  { store with settings := none }.jdFstorInit config

/-- One turn of the loop of `jd_fstor_gc`: the store, `dst_e` and `dst_data`. A
copy that would leave the storage is not followed further. -/
def gcTurn (config : FstorConfig) (last : Nat) : Fstor × Nat × Nat → Nat → Except FstorFault (Fstor × Nat × Nat)
  | (store, dstE, dstData), entry =>
    if hasLaterCopy store.flash last entry then .ok (store, dstE, dstData)
    else
      let size := entrySize store.flash entry
      let tmp := store.flash.read entry fstorEntrySize
      if isLarge store.flash entry then
        .ok (store.issue config (.program dstE tmp), dstE + fstorEntrySize, dstData)
      else if dstData < align size ∨ config.totalPages * config.pageSize < dstData - align size + size then
        .error .outside
      else
        let dstData := dstData - align size
        let store := store.issue config
          (.program dstData (store.flash.read (entryOffset store.flash entry) size))
        let tmp := tmp.take 16 ++ littleEndian 4 dstData ++ tmp.drop 20
        .ok (store.issue config (.program dstE tmp), dstE + fstorEntrySize, dstData)

/-- The area that is not mounted. -/
def otherArea (config : FstorConfig) (base : Nat) : Nat := if base = 0 then config.headerSize else 0

def jdFstorGc (config : FstorConfig) (store : Fstor) : Except FstorFault Fstor :=
  match store.settings with
  | none => .error .unmounted
  | some base => do
    let alt := otherArea config base
    let erased := store.erasePages config alt config.headerPages
    let (copied, _, _) ← (entriesTo (base + fstorEntrySize) store.lastEntry).foldlM
      (gcTurn config store.lastEntry) (erased, alt + fstorEntrySize, alt + config.headerSize)
    let newgen := u32 (generation copied.flash base + 1)
    let done := ({ copied with settings := some alt }.writeHeader config alt newgen).recomputeCache config alt
    if done.settings = none then .error .gc else .ok done

def findEntry (config : FstorConfig) (key : CString) (store : Fstor) :
    Except FstorFault (Option Nat × Fstor) := do
  let store ← store.jdFstorInit config
  match store.settings with
  | none => .error .unmounted
  | some base =>
    .ok ((entriesTo (base + fstorEntrySize) store.lastEntry).reverse.find?
      (entryKey store.flash · = key.1), store)

/-- A `uint32_t` returned as `int`. -/
def signed32 (value : Nat) : Int := if value < 2147483648 then value else (value : Int) - 4294967296

/-- `jd_settings_get_bin`: the result, the bytes copied to `dst`, and the store. -/
def jdSettingsGetBin (config : FstorConfig) (key : Option CString) (space : Nat) (store : Fstor) :
    Except FstorFault (Int × List UInt8 × Fstor) :=
  match key.filter keyOk with
  | none => .ok (-1, [], store)
  | some key => do
    let (found, store) ← store.findEntry config key
    match found with
    | none => .ok (-2, [], store)
    | some entry =>
      let size := entrySize store.flash entry
      let copied := if space ≥ size then store.flash.read (entryOffset store.flash entry) space else []
      .ok (signed32 size, copied, store)

/-- The end of `jd_settings_set_bin`, when there is space. -/
def appendEntry (config : FstorConfig) (key : CString) (val : List UInt8) (store : Fstor) :
    Except FstorFault (Int × Fstor) :=
  let dataStart := store.dataStart - align val.length
  let store := { store with dataStart }.issue config (.program dataStart val)
  let lastEntry := store.lastEntry + fstorEntrySize
  let store := { store with lastEntry }.issue config (.program lastEntry (newEntry key dataStart val.length))
  if lastEntry + fstorEntrySize ≤ dataStart then .ok (0, store) else .error .entry

/-- The rest of `jd_settings_set_bin`, when the value is not stored already. -/
def storeEntry (config : FstorConfig) (key : CString) (val : List UInt8) (store : Fstor) :
    Except FstorFault (Int × Fstor) :=
  let need := align val.length + fstorEntrySize
  if store.freeSpace < need then do
    let store ← store.jdFstorGc config
    if store.freeSpace < need then .ok (-3, store) else store.appendEntry config key val
  else store.appendEntry config key val

def holds (flash : Memory) (val : List UInt8) (entry : Nat) : Bool :=
  entrySize flash entry = val.length ∧ flash.read (entryOffset flash entry) val.length = val

def jdSettingsSetBin (config : FstorConfig) (key : Option CString) (val : List UInt8) (store : Fstor) :
    Except FstorFault (Int × Fstor) :=
  match key.filter keyOk with
  | none => .ok (-1, store)
  | some key =>
    if val.length > config.headerSize - 200 then .ok (-2, store)
    else do
      let (found, store) ← store.findEntry config key
      if found.any (holds store.flash val) then .ok (0, store) else store.storeEntry config key val

end Fstor

end Jacdac
