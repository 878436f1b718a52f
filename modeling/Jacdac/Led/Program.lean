import Jacdac.Queue.Ring
import Jacdac.Frame.Packets

/-! The byte programs of `ledstrip.c` and how they are fetched. -/

namespace Jacdac

structure Rgb where
  r : UInt8
  g : UInt8
  b : UInt8
  deriving DecidableEq, Repr

/-- `rgb`, on values of any width. -/
def rgb (r g b : Nat) : Rgb := ⟨.ofNat r, .ofNat g, .ofNat b⟩

/-- `prog_data` and `prog_size`; bytes past the size are left from before. -/
structure LedProgram where
  data : Nat → UInt8
  size : Nat
  size_le : size ≤ 236

def lightProgSetAll : Nat := 0xD0
def lightProgFade : Nat := 0xD1
def lightProgFadeHsv : Nat := 0xD2
def lightProgRotateFwd : Nat := 0xD3
def lightProgRotateBack : Nat := 0xD4
def lightProgShow : Nat := 0xD5
def lightProgRange : Nat := 0xD6
def lightProgMode : Nat := 0xD7
def lightProgMode1 : Nat := 0xD8
def lightProgCol1Set : Nat := 0xCF

/-- The `PROG_*` results of `prog_fetch`, with what it stores in `dst`. -/
inductive Fetched where
  | eof
  | cmd (code : Nat)
  | number (value : Nat)
  | colorBlock (count : Nat)
  deriving DecidableEq, Repr

namespace LedProgram

/-- `prog_fetch_color`, with the new `prog_ptr`. -/
def fetchColor (prog : LedProgram) (ptr : Nat) : Rgb × Nat :=
  if prog.size < ptr + 3 then (rgb 0 0 0, ptr)
  else (⟨prog.data ptr, prog.data (ptr + 1), prog.data (ptr + 2)⟩, u8 (ptr + 3))

/-- `prog_fetch`. -/
def fetch (prog : LedProgram) (ptr : Nat) : Fetched × Nat :=
  if prog.size ≤ ptr then (.eof, ptr)
  else
    let c := (prog.data ptr).toNat
    let ptr := u8 (ptr + 1)
    if c < 0x80 then (.number c, ptr)
    else if c < 0xc0 then (.number ((c - 0x80) * 256 + (prog.data ptr).toNat), u8 (ptr + 1))
    else if c = 0xC1 then (.colorBlock 1, ptr)
    else if c = 0xC2 then (.colorBlock 2, ptr)
    else if c = 0xC3 then (.colorBlock 3, ptr)
    else if c = 0xC0 then (.colorBlock (prog.data ptr).toNat, u8 (ptr + 1))
    else (.cmd c, ptr)

/-- `prog_fetch_num`. -/
def fetchNum (prog : LedProgram) (ptr defl : Nat) : Nat × Nat :=
  match prog.fetch ptr with
  | (.number value, after) => (value, after)
  | _ => (defl, ptr)

/-- `prog_ptr` after that many colors are fetched. -/
def skipColors (prog : LedProgram) : Nat → Nat → Nat
  | 0, ptr => ptr
  | count + 1, ptr => prog.skipColors count (prog.fetchColor ptr).2

theorem le_fetchColor (prog : LedProgram) (ptr : Nat) : ptr ≤ (prog.fetchColor ptr).2 := by
  have bound := prog.size_le
  unfold fetchColor
  split
  · exact Nat.le_refl ptr
  · simp only [u8]
    omega

theorem le_skipColors (prog : LedProgram) (count ptr : Nat) : ptr ≤ prog.skipColors count ptr := by
  induction count generalizing ptr with
  | zero => exact Nat.le_refl ptr
  | succ count ih => exact (prog.le_fetchColor ptr).trans (ih _)

/-- A fetch stops at the end or goes past the byte it read. -/
theorem fetch_cases (prog : LedProgram) (ptr : Nat) :
    (prog.size ≤ ptr ∧ prog.fetch ptr = (.eof, ptr)) ∨
      (ptr < prog.size ∧ (prog.fetch ptr).1 ≠ .eof ∧ ptr < (prog.fetch ptr).2) := by
  have bound := prog.size_le
  by_cases past : prog.size ≤ ptr
  · exact .inl ⟨past, if_pos past⟩
  · have one : u8 (ptr + 1) = ptr + 1 := Nat.mod_eq_of_lt (by omega)
    have two : u8 (ptr + 1 + 1) = ptr + 2 := Nat.mod_eq_of_lt (by omega)
    refine .inr ⟨by omega, ?_⟩
    simp only [fetch, if_neg past, one, two]
    repeat' split
    all_goals exact ⟨nofun, by dsimp only; omega⟩

theorem lt_of_fetch (prog : LedProgram) {ptr after : Nat} {kind : Fetched} (fetched : prog.fetch ptr = (kind, after))
    (found : kind ≠ .eof) : ptr < prog.size ∧ ptr < after := by
  rcases prog.fetch_cases ptr with ⟨_, ended⟩ | ⟨inside, _, advances⟩
  · exact absurd (congrArg Prod.fst (fetched.symm.trans ended)) found
  · rw [fetched] at advances
    exact ⟨inside, advances⟩

theorem le_fetch (prog : LedProgram) (ptr : Nat) : ptr ≤ (prog.fetch ptr).2 := by
  rcases prog.fetch_cases ptr with ⟨_, stays⟩ | ⟨_, _, advances⟩
  · rw [stays]
  · exact advances.le

theorem le_fetchNum (prog : LedProgram) (ptr defl : Nat) : ptr ≤ (prog.fetchNum ptr defl).2 := by
  have advances := prog.le_fetch ptr
  unfold fetchNum
  split
  · rename_i value after fetched
    rwa [fetched] at advances
  · exact Nat.le_refl ptr

/-- `prog_fetch_cmd`; the command is 0 at the end of the program. -/
def fetchCmd (prog : LedProgram) (ptr : Nat) : Nat × Nat :=
  match _fetched : prog.fetch ptr with
  | (.cmd code, after) => (code, after)
  | (.colorBlock count, after) => prog.fetchCmd (prog.skipColors count after)
  | (.number _, after) => prog.fetchCmd after
  | (.eof, after) => (0, after)
termination_by prog.size - ptr
decreasing_by
  · have skipped := prog.le_skipColors count after
    have advances := prog.lt_of_fetch _fetched nofun
    omega
  · have advances := prog.lt_of_fetch _fetched nofun
    omega

theorem fetchCmd_of_cmd (prog : LedProgram) {ptr code after : Nat} (fetched : prog.fetch ptr = (.cmd code, after)) :
    prog.fetchCmd ptr = (code, after) := by
  rw [fetchCmd]
  split <;> simp_all

/-- A command is found past where the search started, and inside the program. -/
theorem fetchCmd_cases (prog : LedProgram) (ptr : Nat) :
    (prog.fetchCmd ptr).1 = 0 ∨ (ptr < prog.size ∧ ptr < (prog.fetchCmd ptr).2) := by
  fun_induction fetchCmd prog ptr with
  | case1 ptr code after fetched => exact .inr (prog.lt_of_fetch fetched nofun)
  | case2 ptr count after fetched ih =>
    have skipped := prog.le_skipColors count after
    obtain ⟨inside, advances⟩ := prog.lt_of_fetch fetched nofun
    exact ih.imp id fun ⟨_, found⟩ => ⟨inside, by omega⟩
  | case3 ptr value after fetched ih =>
    obtain ⟨inside, advances⟩ := prog.lt_of_fetch fetched nofun
    exact ih.imp id fun ⟨_, found⟩ => ⟨inside, by omega⟩
  | case4 ptr after fetched => exact .inl rfl

/-- The range that a `range` command selects on a strip of that length. -/
def fetchRange (prog : LedProgram) (numpixels ptr : Nat) : (Nat × Nat) × Nat :=
  let start := prog.fetchNum ptr 0
  let len := prog.fetchNum start.2 numpixels
  let first := if start.1 > numpixels then numpixels else start.1
  let last := if first + len.1 > numpixels then numpixels else first + len.1
  ((first, last), len.2)

theorem fetchRange_le (prog : LedProgram) (numpixels ptr : Nat) :
    (prog.fetchRange numpixels ptr).1.1 ≤ (prog.fetchRange numpixels ptr).1.2 ∧
      (prog.fetchRange numpixels ptr).1.2 ≤ numpixels := by
  simp only [fetchRange]
  split <;> split <;> omega

end LedProgram

end Jacdac
