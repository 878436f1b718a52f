import Jacdac.Base.Endian

/-! The device configuration of `jd_dcfg.c`: the layout of a blob, the validator
and the lookup. A blob is memory addressed from its header. -/

namespace Jacdac

/-- One turn of the loop of `jd_hash_fnv1a`. -/
def fnvStep (h : UInt32) (d : UInt8) : UInt32 := (h ^^^ d.toUInt32) * 0x1000193

def jdHashFnv1a (data : List UInt8) : UInt32 := data.foldl fnvStep 0x811c9dc5

/-- `keyhash`: the 32-bit hash folded to 16 bits. -/
def keyhash (key : List UInt8) : Nat :=
  let h := jdHashFnv1a key
  (h ^^^ (h >>> 16)).toUInt16.toNat

def dcfgKeysize : Nat := 15

/-- `DCFG_HASH_SHIFT`, as a divisor. -/
def hashBucket (hash : Nat) : Nat := hash / 2048

/-- `DCFG_HASH_JUMP_ENTRIES`. -/
def hashJumpEntries : Nat := 32

abbrev DcfgBlob := Memory

namespace DcfgBlob

/-- `sizeof(dcfg_header_t)`. -/
def headerSize : Nat := 88

/-- `sizeof(dcfg_entry_t)`. -/
def entrySize : Nat := 24

def magic0 (blob : DcfgBlob) : Nat := blob.number 0 4

def magic1 (blob : DcfgBlob) : Nat := blob.number 4 4

def totalBytes (blob : DcfgBlob) : Nat := blob.number 8 4

def numEntries (blob : DcfgBlob) : Nat := blob.number 12 2

def hashJump (blob : DcfgBlob) (slot : Nat) : Nat := blob.number (24 + 2 * slot) 2

/-- Address of `entries[index]`, which starts with its key. -/
def entry (index : Nat) : Nat := headerSize + entrySize * index

def hash (blob : DcfgBlob) (index : Nat) : Nat := blob.number (entry index + 16) 2

def typeSize (blob : DcfgBlob) (index : Nat) : Nat := blob.number (entry index + 18) 2

def value (blob : DcfgBlob) (index : Nat) : Nat := blob.number (entry index + 20) 4

/-- The bytes of an entry's key before its first NUL. A key without a NUL in its
16 bytes counts as 16 bytes long: `strlen` goes on, and the validator rejects it. -/
def key (blob : DcfgBlob) (index : Nat) : List UInt8 :=
  (blob.read (entry index) (dcfgKeysize + 1)).takeWhile (· ≠ 0)

def check (code : Nat) (cond : Bool) (rest : Nat) : Nat := if cond then rest else code

/-- A loop that returns at the first code other than 0. -/
def checkAll : List Nat → Nat
  | [] => 0
  | code :: rest => if code = 0 then checkAll rest else code

def dataStart (blob : DcfgBlob) : Nat := headerSize + entrySize * (blob.numEntries + 1)

def checkJump (blob : DcfgBlob) (slot : Nat) : Nat :=
  let idx := blob.hashJump slot
  check 2017 (idx ≤ blob.numEntries) <|
  check 2018 (hashBucket (blob.hash idx) ≥ slot) <|
  check 2019 (idx = 0 ∨ hashBucket (blob.hash (idx - 1)) < slot) 0

def checkValue (blob : DcfgBlob) (index : Nat) : Nat :=
  let size := blob.typeSize index / 4
  let value := blob.value index
  -- DCFG_TYPE_U32 and DCFG_TYPE_I32, against DCFG_TYPE_STRING and DCFG_TYPE_BLOB
  if blob.typeSize index % 4 < 2 then check 2009 (size = 0) 0
  else
    check 2010 (value ≥ blob.dataStart) <|
    check 2011 (value < blob.totalBytes) <|
    check 2012 (value + size < blob.totalBytes) <|
    check 2013 (blob (value + size) = 0) 0

def checkEntry (blob : DcfgBlob) (index : Nat) : Nat :=
  let key := blob.key index
  check 2006 (key.length ≤ dcfgKeysize) <|
  check 2007 (keyhash key = blob.hash index) <|
  check 2008 (index = 0 ∨ blob.hash (index - 1) ≤ blob.hash index) (blob.checkValue index)

/-- `dcfg_validate` of the blob at address `hd`. -/
def dcfgValidate (hd : Nat) (blob : DcfgBlob) : Nat :=
  check 2000 (hd ≠ 0) <|
  check 2001 (hd % 4 = 0) <|
  check 2002 (blob.magic0 = 0x47464344) <|
  check 2003 (blob.magic1 = 0xcab49b0a) <|
  check 2004 (blob.totalBytes < 128 * 1024) <|
  check 2014 (blob.dataStart ≤ blob.totalBytes) <|
  check 2015 (blob.hash blob.numEntries = 0xffff) <|
  check 2016 (blob.typeSize blob.numEntries = 0xffff) <|
  let jumps := checkAll ((List.range hashJumpEntries).map blob.checkJump)
  if jumps ≠ 0 then jumps
  else if blob.numEntries = 0 then 0
  else checkAll ((List.range blob.numEntries).map blob.checkEntry)

/-- The loop of `get_entry`, from `idx` on. -/
def scan (blob : DcfgBlob) (key : List UInt8) (idx : Nat) : Option Nat :=
  if idx < blob.numEntries ∧ blob.hash idx ≤ keyhash key then
    if blob.hash idx = keyhash key ∧ blob.read (entry idx) key.length = key then some idx
    else scan blob key (idx + 1)
  else none
termination_by blob.numEntries - idx

/-- `get_entry`: the index of the entry found, for a key without its NUL. -/
def getEntry (blob : DcfgBlob) (key : List UInt8) : Option Nat :=
  if key.length > dcfgKeysize then none
  else blob.scan key (blob.hashJump (hashBucket (keyhash key)))

/-- The lookup that compares whole keys, entry by entry. -/
def exactEntry (blob : DcfgBlob) (key : List UInt8) : Option Nat :=
  (List.range blob.numEntries).find? fun index => blob.key index = key

end DcfgBlob

end Jacdac
