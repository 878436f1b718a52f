import Jacdac.Fstor.Settings

/-! The bitmap of data pages: what marking a range does, and which range the
first-fit search finds. -/

namespace Jacdac

open Fstor

variable {config : FstorConfig} {used : Nat → Bool} {offset size pages bound off first : Nat}

theorem FstorConfig.dataPages_lt (config : FstorConfig) : dataPages config < 65536 := by
  have pages := config.pages
  rw [dataPages]
  omega

/-- The data pages follow both header areas. -/
theorem FstorConfig.dataPages_add (config : FstorConfig) :
    config.headerPages * 2 + dataPages config = config.totalPages := by
  have inside := config.inside
  rw [dataPages]
  omega

namespace Fstor

theorem pageAddress_div (config : FstorConfig) (page : Nat) :
    pageAddress config page / config.pageSize = config.headerPages * 2 + page :=
  Nat.mul_div_cancel _ config.positive.2

@[simp] theorem firstPage_pageAddress (config : FstorConfig) (page : Nat) :
    firstPage config (pageAddress config page) = page := by
  rw [firstPage, pageAddress_div, Nat.add_sub_cancel_left]

theorem pageAddress_ne_zero (config : FstorConfig) (page : Nat) : pageAddress config page ≠ 0 := by
  obtain ⟨pages, positive⟩ := config.positive
  exact Nat.ne_of_gt (Nat.mul_pos (by omega) positive)

theorem inData_pageAddress (fits : first + numDataPages config size ≤ dataPages config) :
    InData config (pageAddress config first) size := by
  rw [InData, firstPage_pageAddress]
  exact ⟨rfl, fits⟩

/-- The bytes of the pages of a large value lie behind both areas and in the storage. -/
theorem InData.within (inside : InData config offset size) :
    2 * config.headerSize ≤ offset ∧
      offset + numDataPages config size * config.pageSize ≤ config.totalPages * config.pageSize := by
  refine ⟨inside.above, ?_⟩
  obtain ⟨address, fits⟩ := inside
  have total := config.dataPages_add
  have pages := Nat.mul_le_mul_right config.pageSize
    (show config.headerPages * 2 + firstPage config offset + numDataPages config size ≤ config.totalPages by omega)
  rw [Nat.add_mul] at pages
  rw [pageAddress] at address
  omega

/-- The page is one of those of a large value. -/
def OnPage (config : FstorConfig) (offset size page : Nat) : Prop :=
  firstPage config offset ≤ page ∧ page < firstPage config offset + numDataPages config size

instance (config : FstorConfig) (offset size page : Nat) : Decidable (OnPage config offset size page) :=
  inferInstanceAs (Decidable (_ ∧ _))

end Fstor

namespace LargeFstor

/-- The bitmap with a range set to one value. -/
def marked (config : FstorConfig) (offset size : Nat) (flag : Bool) (used : Nat → Bool) : Nat → Bool :=
  fun page => if OnPage config offset size page then flag else used page

theorem markDataPage_ok (flag : Bool) (used : Nat → Bool) (inside : off < dataPages config) :
    markDataPage config flag used off = .ok (Function.update used off flag) := by
  rw [markDataPage, dataPageUsed, if_pos inside]
  simp only [bind, Except.bind]
  by_cases same : used off = flag
  · rw [if_neg (not_not_intro same), ← same, Function.update_eq_self]
  · rw [if_pos same, Bool.not_eq.mpr same]

theorem foldlM_mark (flag : Bool) (used : Nat → Bool) (count : Nat) (inside : first + count ≤ dataPages config) :
    (List.range count).foldlM (fun used page => markDataPage config flag used (u32 (first + page))) used =
      .ok (fun page => if first ≤ page ∧ page < first + count then flag else used page) := by
  have pages := config.dataPages_lt
  induction count with
  | zero =>
    refine congrArg Except.ok (funext fun page => ?_)
    rw [if_neg (by omega)]
  | succ count ih =>
    rw [List.range_succ, List.foldlM_append, ih (by omega)]
    simp only [bind, Except.bind, List.foldlM_cons, List.foldlM_nil]
    rw [u32_of_lt (by omega), markDataPage_ok flag _ (by omega)]
    refine congrArg Except.ok (funext fun page => ?_)
    rw [Function.update_apply]
    by_cases last : page = first + count
    · rw [if_pos last, if_pos (by omega)]
    · rw [if_neg last]
      by_cases before : first ≤ page ∧ page < first + count
      · rw [if_pos before, if_pos (by omega)]
      · rw [if_neg before, if_neg (by omega)]

/-- Marking a large value sets the bits of its pages. -/
theorem markLarge_ok (inside : InData config offset size) (flag : Bool) (used : Nat → Bool) :
    markLarge config largeMark offset size flag used = .ok (marked config offset size flag used) := by
  obtain ⟨address, fits⟩ := inside
  have pages := config.dataPages_lt
  have place : offset / config.pageSize = config.headerPages * 2 + firstPage config offset := by
    rw [address, pageAddress_div, ← address]
  have first : u32 (offset / config.pageSize + 4294967296 - config.headerPages * 2) = firstPage config offset := by
    rw [place, u32]
    omega
  rw [markLarge, if_neg (not_not_intro rfl), first]
  exact foldlM_mark flag used _ fits

/-- The pages from `off` on are data pages that are not marked. -/
def FreeRun (config : FstorConfig) (used : Nat → Bool) (pages off : Nat) : Prop :=
  off + pages ≤ dataPages config ∧ ∀ i < pages, used (off + i) = false

/-- The first of the free runs that end before the last data page. -/
structure FirstFree (config : FstorConfig) (used : Nat → Bool) (pages first : Nat) : Prop where
  some : 0 < pages
  before : first + pages < dataPages config
  free : FreeRun config used pages first
  first : ∀ place < first, ¬ FreeRun config used pages place

/-- A turn of the inner loop. -/
theorem firstUsed_succ (left i : Nat) : firstUsed config used off (left + 1) i =
    if off + i < dataPages config then
      if used (off + i) = true then .ok (some i) else firstUsed config used off left (i + 1)
    else .error .page := by
  rw [firstUsed, dataPageUsed]
  split <;> rfl

/-- The inner loop ends without an answer only over free pages. -/
theorem firstUsed_none {left i : Nat} (done : firstUsed config used off left i = .ok none) :
    ∀ j, i ≤ j → j < i + left → off + j < dataPages config ∧ used (off + j) = false := by
  induction left generalizing i with
  | zero => intro j lower upper; omega
  | succ left ih =>
    rw [firstUsed_succ] at done
    intro j lower upper
    split at done
    · rename_i inside
      split at done
      · cases done
      · rename_i free
        by_cases here : j = i
        · rw [here]
          exact ⟨inside, eq_false_of_ne_true free⟩
        · exact ih done j (by omega) (by omega)
    · cases done

/-- With an answer, that page is used. -/
theorem firstUsed_some {left i found : Nat} (done : firstUsed config used off left i = .ok (some found)) :
    i ≤ found ∧ found < i + left ∧ off + found < dataPages config ∧ used (off + found) = true := by
  induction left generalizing i with
  | zero => cases done
  | succ left ih =>
    rw [firstUsed_succ] at done
    split at done
    · rename_i inside
      split at done
      · rename_i taken
        cases done
        exact ⟨Nat.le_refl _, by omega, inside, taken⟩
      · obtain ⟨lower, upper, below, marked⟩ := ih done
        exact ⟨by omega, by omega, below, marked⟩
    · cases done

/-- The inner loop fails only by leaving the data pages. -/
theorem firstUsed_error {left i : Nat} {fault : LargeFault} (done : firstUsed config used off left i = .error fault) :
    fault = .page ∧ dataPages config < off + i + left := by
  induction left generalizing i with
  | zero => cases done
  | succ left ih =>
    rw [firstUsed_succ] at done
    split at done
    · split at done
      · cases done
      · obtain ⟨page, beyond⟩ := ih done
        exact ⟨page, by omega⟩
    · cases done
      exact ⟨rfl, by omega⟩

theorem searchFrom_found (done : searchFrom config used pages bound off = .ok (some first)) :
    first < bound ∧ 0 < pages ∧ FreeRun config used pages first := by
  fun_induction searchFrom config used pages bound off with
  | case1 off inside fault failed => cases done
  | case2 off inside i found ih => exact ih done
  | case3 off inside none empty => cases done
  | case4 off inside none some =>
    cases done
    have free := firstUsed_none none
    refine ⟨inside, by omega, ?_, fun i below => (free i (by omega) (by omega)).2⟩
    have last := (free (pages - 1) (by omega) (by omega)).1
    omega
  | case5 off beyond => cases done

/-- Nothing before the range that is found is free, and nothing at all below the
bound where none is found. -/
theorem searchFrom_before (done : searchFrom config used pages bound off = .ok result) :
    ∀ place, off ≤ place → place < result.getD bound → ¬ FreeRun config used pages place := by
  fun_induction searchFrom config used pages bound off with
  | case1 off inside fault failed => cases done
  | case2 off inside i found ih =>
    obtain ⟨_, below, _, taken⟩ := firstUsed_some found
    intro place lower upper free
    by_cases later : off + (i + 1) ≤ place
    · exact ih done place later upper free
    · have clear := free.2 (off + i - place) (by omega)
      rw [show place + (off + i - place) = off + i by omega, taken] at clear
      cases clear
  | case3 off inside none empty => cases done
  | case4 off inside none some =>
    cases done
    intro place lower upper
    rw [Option.getD_some] at upper
    omega
  | case5 off beyond =>
    cases done
    intro place lower upper
    rw [Option.getD_none] at upper
    omega

theorem searchFrom_ok (some : 0 < pages) (fits : bound + pages = dataPages config) (off : Nat) :
    ∃ result, searchFrom config used pages bound off = .ok result := by
  fun_induction searchFrom config used pages bound off with
  | case1 off inside fault failed =>
    have beyond := (firstUsed_error failed).2
    omega
  | case2 off inside i found ih => exact ih
  | case3 off inside none empty => omega
  | case4 off inside none some => exact ⟨_, rfl⟩
  | case5 off beyond => exact ⟨_, rfl⟩

theorem searchFrom_error (more : dataPages config < pages) (far : dataPages config < bound)
    (below : off ≤ dataPages config) : searchFrom config used pages bound off = .error .page := by
  fun_induction searchFrom config used pages bound off with
  | case1 off inside fault failed => rw [(firstUsed_error failed).1]
  | case2 off inside i found ih =>
    have page := (firstUsed_some found).2.2.1
    exact ih (by omega)
  | case3 off inside none empty => omega
  | case4 off inside none some =>
    have last := (firstUsed_none none (pages - 1) (by omega) (by omega)).1
    omega
  | case5 off beyond => omega

/-- A free range that is returned. -/
theorem findFreeData_found (done : findFreeData config size used = .ok offset) (some : offset ≠ 0) :
    ∃ page, offset = pageAddress config page ∧ 0 < numDataPages config size ∧
      FreeRun config used (numDataPages config size) page := by
  rw [findFreeData] at done
  cases search : searchFrom config used (numDataPages config size)
    (u32 (dataPages config + 4294967296 - numDataPages config size)) 0 with
  | error fault =>
    rw [search] at done
    cases done
  | ok found =>
    rw [search] at done
    cases found with
    | none => exact absurd (Except.ok.inj done).symm some
    | some page =>
      obtain ⟨_, positive, free⟩ := searchFrom_found search
      exact ⟨page, (Except.ok.inj done).symm, positive, free⟩

/-- With enough pages in the storage, a range is found exactly when a free one
ends before the last page. -/
theorem findFreeData_fits (some : 0 < numDataPages config size) (fits : numDataPages config size ≤ dataPages config)
    (used : Nat → Bool) :
    (∃ first, first + numDataPages config size < dataPages config ∧
        FreeRun config used (numDataPages config size) first ∧
        findFreeData config size used = .ok (pageAddress config first)) ∨
      (findFreeData config size used = .ok 0 ∧ ∀ first, first + numDataPages config size < dataPages config →
        ¬ FreeRun config used (numDataPages config size) first) := by
  have pages := config.dataPages_lt
  have bound : u32 (dataPages config + 4294967296 - numDataPages config size) =
      dataPages config - numDataPages config size := by
    rw [u32]
    omega
  obtain ⟨result, search⟩ := @searchFrom_ok config used _ (dataPages config - numDataPages config size) some (by omega) 0
  rw [findFreeData, bound, search]
  cases result with
  | none =>
    refine .inr ⟨rfl, fun first below => searchFrom_before search first (Nat.zero_le _) (Nat.lt_sub_of_add_lt below)⟩
  | some first =>
    obtain ⟨below, _, free⟩ := searchFrom_found search
    exact .inl ⟨first, by omega, free, rfl⟩

theorem FirstFree.unique (one : FirstFree config used pages first) (two : FirstFree config used pages second) :
    first = second := by
  by_contra differ
  rcases Nat.lt_or_gt_of_ne differ with less | more
  · exact two.first first less one.free
  · exact one.first second more two.free

/-- The search returns the first free run that ends before the last page, and
nothing else. -/
theorem findFreeData_iff : (findFreeData config size used = .ok offset ∧ offset ≠ 0) ↔
    ∃ first, FirstFree config used (numDataPages config size) first ∧ offset = pageAddress config first := by
  have pages := config.dataPages_lt
  have returned {offset : Nat} (done : findFreeData config size used = .ok offset) (place : offset ≠ 0) :
      ∃ first, FirstFree config used (numDataPages config size) first ∧ offset = pageAddress config first := by
    rw [findFreeData] at done
    obtain ⟨found, search, done⟩ := ok_of_bind done
    cases found with
    | none => exact absurd (Except.ok.inj done).symm place
    | some first =>
      obtain ⟨below, some, free⟩ := searchFrom_found search
      have fits := free.1
      rw [u32] at below
      exact ⟨first, ⟨some, by omega, free, fun place => searchFrom_before search place (Nat.zero_le _)⟩,
        (Except.ok.inj done).symm⟩
  refine ⟨fun ⟨done, place⟩ => returned done place, ?_⟩
  rintro ⟨first, free, rfl⟩
  have place := free.before
  rcases findFreeData_fits free.some (by omega) used with ⟨other, _, _, done⟩ | ⟨_, never⟩
  · obtain ⟨again, same, address⟩ := returned done (pageAddress_ne_zero config _)
    rw [free.unique same, ← address]
    exact ⟨done, address ▸ pageAddress_ne_zero config _⟩
  · exact absurd free.free (never first place)

/-- A request for more pages than there are fails an assertion. -/
theorem findFreeData_beyond (more : dataPages config < numDataPages config size)
    (small : numDataPages config size < 4294967296) (used : Nat → Bool) :
    findFreeData config size used = .error .page := by
  have pages := config.dataPages_lt
  have bound : u32 (dataPages config + 4294967296 - numDataPages config size) =
      dataPages config + 4294967296 - numDataPages config size := by
    rw [u32]
    omega
  rw [findFreeData, bound, searchFrom_error more (by omega) (Nat.zero_le _)]
  rfl

end LargeFstor

end Jacdac
