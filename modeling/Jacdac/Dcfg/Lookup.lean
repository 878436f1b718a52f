import Jacdac.Dcfg.Blob

/-! `get_entry` against the search for the exact key: the jump table and the
sorted hashes miss nothing, but the comparison stops at the end of the key that
is searched, so a longer key with the same hash can be taken for it. -/

namespace Jacdac.DcfgBlob

variable {blob : DcfgBlob} {key : List UInt8}

theorem check_eq_zero {cond : Bool} (passed : check code cond rest = 0) (coded : code ≠ 0) :
    cond = true ∧ rest = 0 := by
  unfold check at passed
  split at passed
  · rename_i holds
    exact ⟨holds, passed⟩
  · exact absurd passed coded

theorem checkAll_eq_zero (passed : checkAll codes = 0) : ∀ code ∈ codes, code = 0 := by
  induction codes with
  | nil => exact fun _ member => nomatch member
  | cons code rest ih =>
    unfold checkAll at passed
    split at passed
    · rename_i zero
      intro other member
      rcases List.mem_cons.mp member with rfl | later
      · exact zero
      · exact ih passed other later
    · rename_i failed
      exact absurd passed failed

/-- What the lookup needs of an accepted blob. -/
structure Valid (blob : DcfgBlob) : Prop where
  jump_ge : ∀ slot < hashJumpEntries, blob.hashJump slot = 0 ∨
    hashBucket (blob.hash (blob.hashJump slot - 1)) < slot
  jump_le : ∀ slot < hashJumpEntries, blob.hashJump slot ≤ blob.numEntries
  short : ∀ index < blob.numEntries, (blob.key index).length ≤ dcfgKeysize
  hashed : ∀ index < blob.numEntries, keyhash (blob.key index) = blob.hash index
  sorted : ∀ index, index + 1 < blob.numEntries → blob.hash index ≤ blob.hash (index + 1)

theorem checkJump_passed (passed : blob.checkJump slot = 0) :
    blob.hashJump slot ≤ blob.numEntries ∧
      (blob.hashJump slot = 0 ∨ hashBucket (blob.hash (blob.hashJump slot - 1)) < slot) := by
  obtain ⟨inside, passed⟩ := check_eq_zero passed (by decide)
  obtain ⟨_, passed⟩ := check_eq_zero passed (by decide)
  obtain ⟨before, _⟩ := check_eq_zero passed (by decide)
  exact ⟨of_decide_eq_true inside, of_decide_eq_true before⟩

theorem checkEntry_passed (passed : blob.checkEntry index = 0) :
    (blob.key index).length ≤ dcfgKeysize ∧ keyhash (blob.key index) = blob.hash index ∧
      (index = 0 ∨ blob.hash (index - 1) ≤ blob.hash index) ∧ blob.checkValue index = 0 := by
  obtain ⟨short, passed⟩ := check_eq_zero passed (by decide)
  obtain ⟨hashed, passed⟩ := check_eq_zero passed (by decide)
  obtain ⟨sorted, passed⟩ := check_eq_zero passed (by decide)
  exact ⟨of_decide_eq_true short, of_decide_eq_true hashed, of_decide_eq_true sorted, passed⟩

theorem dcfgValidate_passed (accepted : dcfgValidate hd blob = 0) :
    blob.dataStart ≤ blob.totalBytes ∧ (∀ slot < hashJumpEntries, blob.checkJump slot = 0) ∧
      ∀ index < blob.numEntries, blob.checkEntry index = 0 := by
  obtain ⟨_, accepted⟩ := check_eq_zero accepted (by decide)
  obtain ⟨_, accepted⟩ := check_eq_zero accepted (by decide)
  obtain ⟨_, accepted⟩ := check_eq_zero accepted (by decide)
  obtain ⟨_, accepted⟩ := check_eq_zero accepted (by decide)
  obtain ⟨_, accepted⟩ := check_eq_zero accepted (by decide)
  obtain ⟨table, accepted⟩ := check_eq_zero accepted (by decide)
  obtain ⟨_, accepted⟩ := check_eq_zero accepted (by decide)
  obtain ⟨_, accepted⟩ := check_eq_zero accepted (by decide)
  dsimp only at accepted
  split at accepted
  · rename_i failed
    exact absurd accepted failed
  · rename_i jumps
    refine ⟨of_decide_eq_true table, fun slot inside => ?_, fun index inside => ?_⟩
    · exact checkAll_eq_zero (not_not.mp jumps) _ (List.mem_map.mpr ⟨slot, List.mem_range.mpr inside, rfl⟩)
    · split at accepted
      · omega
      · exact checkAll_eq_zero accepted _ (List.mem_map.mpr ⟨index, List.mem_range.mpr inside, rfl⟩)

theorem dcfgValidate_valid (accepted : dcfgValidate hd blob = 0) : Valid blob := by
  obtain ⟨_, jump, entries⟩ := dcfgValidate_passed accepted
  refine ⟨fun slot inside => (checkJump_passed (jump slot inside)).2,
    fun slot inside => (checkJump_passed (jump slot inside)).1,
    fun index inside => (checkEntry_passed (entries index inside)).1,
    fun index inside => (checkEntry_passed (entries index inside)).2.1, fun index inside => ?_⟩
  have ordered := (checkEntry_passed (entries (index + 1) inside)).2.2.1
  simpa using ordered

theorem Valid.hash_le (valid : Valid blob) (order : first ≤ second) (inside : second < blob.numEntries) :
    blob.hash first ≤ blob.hash second := by
  induction second, order using Nat.le_induction with
  | base => exact Nat.le_refl _
  | succ second _ ih => exact (ih (by omega)).trans (valid.sorted second inside)

/-- An entry that `get_entry` takes for the key: same hash, and the same bytes as
far as the key goes. -/
def Matches (blob : DcfgBlob) (key : List UInt8) (index : Nat) : Prop :=
  blob.hash index = keyhash key ∧ blob.read (entry index) key.length = key

instance (blob : DcfgBlob) (key : List UInt8) (index : Nat) : Decidable (Matches blob key index) :=
  inferInstanceAs (Decidable (_ ∧ _))

/-- The loop of `get_entry` finds the first match from `idx` on. -/
theorem Valid.scan_spec (valid : Valid blob) (key : List UInt8) (idx : Nat) :
    (∀ found, blob.scan key idx = some found → idx ≤ found ∧ found < blob.numEntries ∧
      Matches blob key found ∧ ∀ index, idx ≤ index → index < found → ¬ Matches blob key index) ∧
    (blob.scan key idx = none →
      ∀ index, idx ≤ index → index < blob.numEntries → ¬ Matches blob key index) := by
  fun_induction scan blob key idx with
  | case1 idx more here =>
    refine ⟨?_, nofun⟩
    intro found same
    obtain rfl := Option.some.inj same
    exact ⟨Nat.le_refl _, more.1, here, fun index lower upper => by omega⟩
  | case2 idx more other ih =>
    obtain ⟨hit, miss⟩ := ih
    constructor
    · intro found same
      obtain ⟨lower, inside, matched, first⟩ := hit found same
      refine ⟨by omega, inside, matched, fun index from_ upper => ?_⟩
      by_cases same : index = idx
      · exact same ▸ other
      · exact first index (by omega) upper
    · intro none index from_ inside
      by_cases same : index = idx
      · exact same ▸ other
      · exact miss none index (by omega) inside
  | case3 idx stop =>
    refine ⟨nofun, fun _ index from_ inside matched => stop ⟨by omega, ?_⟩⟩
    exact matched.1 ▸ valid.hash_le from_ inside

theorem keyhash_lt (key : List UInt8) : keyhash key < 65536 := UInt16.toNat_lt _

/-- Every hash has its slot in the jump table. -/
theorem hashBucket_lt (key : List UInt8) : hashBucket (keyhash key) < hashJumpEntries := by
  have small := keyhash_lt key
  unfold hashBucket hashJumpEntries
  omega

/-- The jump table skips only entries of lower hashes. -/
theorem Valid.not_matches_before (valid : Valid blob)
    (before : index < blob.hashJump (hashBucket (keyhash key))) : ¬ Matches blob key index := by
  have slot := hashBucket_lt key
  have inside := valid.jump_le _ slot
  rcases valid.jump_ge _ slot with zero | lower
  · omega
  · intro matched
    have sorted : blob.hash index ≤ blob.hash (blob.hashJump (hashBucket (keyhash key)) - 1) :=
      valid.hash_le (by omega) (by omega)
    rw [matched.1] at sorted
    unfold hashBucket at *
    omega

/-- `get_entry` is the linear search for a match. -/
theorem Valid.getEntry_spec (valid : Valid blob) (short : key.length ≤ dcfgKeysize) :
    (∀ found, blob.getEntry key = some found → found < blob.numEntries ∧ Matches blob key found ∧
      ∀ index < found, ¬ Matches blob key index) ∧
    (blob.getEntry key = none → ∀ index < blob.numEntries, ¬ Matches blob key index) := by
  obtain ⟨hit, miss⟩ := valid.scan_spec key (blob.hashJump (hashBucket (keyhash key)))
  rw [getEntry, if_neg (by omega)]
  constructor
  · intro found same
    obtain ⟨_, inside, matched, first⟩ := hit found same
    refine ⟨inside, matched, fun index upper => ?_⟩
    by_cases before : index < blob.hashJump (hashBucket (keyhash key))
    · exact valid.not_matches_before before
    · exact first index (by omega) upper
  · intro none index inside
    by_cases before : index < blob.hashJump (hashBucket (keyhash key))
    · exact valid.not_matches_before before
    · exact miss none index (by omega) inside

/-- Comparing as many bytes as the searched key has compares it with a prefix of
the entry's key. -/
theorem read_eq_iff_starts (text : (0 : UInt8) ∉ key) (short : key.length ≤ dcfgKeysize) :
    blob.read (entry index) key.length = key ↔ key <+: blob.key index := by
  have whole : blob.read (entry index) key.length =
      (blob.read (entry index) (dcfgKeysize + 1)).take key.length :=
    (Memory.read_take _ _ _ _ (by omega)).symm
  rw [whole, DcfgBlob.key]
  generalize blob.read (entry index) (dcfgKeysize + 1) = bytes
  constructor
  · intro same
    obtain ⟨rest, rfl⟩ : key <+: bytes := same ▸ List.take_prefix _ _
    rw [List.takeWhile_append_of_pos]
    · exact List.prefix_append _ _
    · intro byte member
      exact decide_eq_true fun zero => text (zero ▸ member)
  · intro starts
    exact (List.prefix_iff_eq_take.mp (starts.trans (List.takeWhile_prefix _))).symm

theorem Valid.matches_of_key (valid : Valid blob) (text : (0 : UInt8) ∉ key)
    (short : key.length ≤ dcfgKeysize) (inside : index < blob.numEntries)
    (same : blob.key index = key) : Matches blob key index :=
  ⟨by rw [← valid.hashed index inside, same],
    (read_eq_iff_starts text short).mpr (same ▸ List.prefix_rfl)⟩

/-- For an accepted blob, `get_entry` is the exact search precisely when every
entry whose key is longer than the searched one, starts with it and has the same
hash comes after an entry with the searched key itself. -/
theorem get_entry_exact_iff (accepted : dcfgValidate hd blob = 0) (text : (0 : UInt8) ∉ key)
    (short : key.length ≤ dcfgKeysize) :
    blob.getEntry key = blob.exactEntry key ↔
      ∀ index < blob.numEntries, keyhash (blob.key index) = keyhash key → key <+: blob.key index →
        blob.key index ≠ key → ∃ earlier < index, blob.key earlier = key := by
  have valid := dcfgValidate_valid accepted
  obtain ⟨hit, miss⟩ := valid.getEntry_spec short
  constructor
  · intro agree index inside hashed starts longer
    have matched : Matches blob key index :=
      ⟨(valid.hashed index inside).symm.trans hashed, (read_eq_iff_starts text short).mpr starts⟩
    cases found : blob.getEntry key with
    | none => exact absurd matched (miss found index inside)
    | some first =>
      obtain ⟨_, _, earliest⟩ := hit first found
      rw [found] at agree
      obtain ⟨same, _, _⟩ := List.find?_range_eq_some.mp agree.symm
      have exact_ : blob.key first = key := of_decide_eq_true same
      refine ⟨first, ?_, exact_⟩
      by_contra late
      have apart : index ≠ first := fun same => longer (same ▸ exact_)
      exact earliest index (by omega) matched
  · intro unshadowed
    cases found : blob.getEntry key with
    | none =>
      symm
      apply List.find?_eq_none.mpr
      intro index member same
      have inside := List.mem_range.mp member
      exact miss found index inside (valid.matches_of_key text short inside (of_decide_eq_true same))
    | some first =>
      obtain ⟨inside, matched, earliest⟩ := hit first found
      have no_earlier : ∀ index < first, blob.key index ≠ key := fun index before same =>
        earliest index before (valid.matches_of_key text short (by omega) same)
      have exact_ : blob.key first = key := by
        by_contra longer
        obtain ⟨earlier, before, same⟩ := unshadowed first inside
          ((valid.hashed first inside).trans matched.1)
          ((read_eq_iff_starts text short).mp matched.2) longer
        exact no_earlier earlier before same
      symm
      apply List.find?_range_eq_some.mpr
      refine ⟨decide_eq_true exact_, List.mem_range.mpr inside, fun index before => ?_⟩
      simp [no_earlier index before]

/-- A blob with one entry, whose key is `gqjb`. -/
def shadowBlob : DcfgBlob := fun cell => (
  [0x44, 0x43, 0x46, 0x47, 0x0a, 0x9b, 0xb4, 0xca, 136, 0, 0, 0, 1, 0, 0, 0, 0, 0, 0, 0, 0, 0, 0, 0] ++
  (List.replicate 28 [0, 0]).flatten ++ [1, 0, 1, 0, 1, 0, 1, 0] ++
  [0x67, 0x71, 0x6a, 0x62, 0, 0, 0, 0, 0, 0, 0, 0, 0, 0, 0, 0, 0x75, 0xdd, 0, 0, 42, 0, 0, 0] ++
  List.replicate 24 0xff : List UInt8).getD cell 0

/-- The key `gq` has the hash of `gqjb`: the lookup returns that entry, although
no entry has the key `gq`. -/
theorem get_entry_takes_longer_key :
    dcfgValidate 4 shadowBlob = 0 ∧ getEntry shadowBlob [0x67, 0x71] = some 0 ∧
      exactEntry shadowBlob [0x67, 0x71] = none := by
  decide +kernel

/-- In the same blob the entry's own key is found. -/
theorem get_entry_exact_iff_own :
    getEntry shadowBlob [0x67, 0x71, 0x6a, 0x62] = exactEntry shadowBlob [0x67, 0x71, 0x6a, 0x62] :=
  (get_entry_exact_iff (show dcfgValidate 4 shadowBlob = 0 by decide +kernel) (by decide) (by decide)).mpr <| by
    have one : shadowBlob.numEntries = 1 := by decide +kernel
    have own : shadowBlob.key 0 = [0x67, 0x71, 0x6a, 0x62] := by decide +kernel
    intro index inside _ _ longer
    obtain rfl : index = 0 := by omega
    exact absurd own longer

end Jacdac.DcfgBlob
