import Jacdac.Base.Loop
import Jacdac.Led.Pixels
import Jacdac.Pipe.Output
import Mathlib.Data.Finite.Prod

/-! The interpreter loop of `prog_process`, and when it ends. Where it goes next
depends on the program and on `prog_ptr` alone; only a fade can move
`prog_ptr` back, since the end of its colors is kept in eight bits. -/

namespace Jacdac

namespace LedState

def resetProg (now : Nat) (state : LedState) : LedState :=
  { state with
    progPtr := 0
    rangeStart := 0
    rangeEnd := state.numpixels
    rangeLen := state.numpixels
    progTmpmode := 0
    progMode := 0
    progNextStep := now
    range_le := Nat.zero_le _
    rangeEnd_lt := state.numpixels_lt
    rangeLen_eq := rfl }

/-- The state that `ledstrip_init` leaves. -/
def init (numpixels : Nat) (small : numpixels < 65536) : LedState where
  prog := ⟨fun _ => 0, 0, by decide⟩
  progPtr := 0
  numpixels := numpixels
  numRepeats := 1
  inTx := false
  dirty := false
  progMode := 0
  progTmpmode := 0
  rangeStart := 0
  rangeEnd := 0
  rangeLen := 0
  rangePtr := 0
  progNextStep := 0
  pxbuffer := fun _ => 0
  numpixels_lt := small
  range_le := Nat.le_refl 0
  rangeEnd_lt := by decide
  rangeLen_eq := rfl

/-- `handle_run_cmd`; `sync_config` only drives outputs. -/
def handleRunCmd (now : Nat) (data : List UInt8) (fits : data.length ≤ 236) (state : LedState) : LedState :=
  { state with
    prog :=
      { data := fun index => if index < data.length then data.getD index 0 else state.prog.data index
        size := data.length
        size_le := fits } }.resetProg now

/-- `fetch_mode`, with the new `prog_ptr`. -/
def fetchMode (state : LedState) : Nat × Nat :=
  let m := state.prog.fetchNum state.progPtr 0
  (if m.1 > 3 then 0 else m.1, m.2)

/-- The end of the loop's body, for all commands but `mode1`. -/
def endCommand (state : LedState) : LedState := { state with progTmpmode := state.progMode }

def colorCommand (cmd : Nat) (state : LedState) : Option LedState :=
  match state.prog.fetch state.progPtr with
  | (.colorBlock count, ptr) =>
    let state := { state with progPtr := ptr }
    if count = 0 then some state
    else if cmd = lightProgSetAll then some (state.progSet count).endCommand
    else (state.progFade count (cmd = lightProgFadeHsv)).map endCommand
  | (_, ptr) => some { state with progPtr := ptr }

def rotateCommand (cmd : Nat) (state : LedState) : LedState :=
  let k := state.prog.fetchNum state.progPtr 1
  let state := { state with progPtr := k.2 }
  if empty : state.rangeLen = 0 then state
  else
    let k := reduceShift state.rangeLen k.1 (Nat.pos_of_ne_zero empty)
    let k := if cmd = lightProgRotateFwd ∧ k ≠ 0 then state.rangeLen - k else k
    (state.progRot k).endCommand

def rangeCommand (state : LedState) : LedState :=
  let range := state.prog.fetchRange state.numpixels state.progPtr
  have ordered := state.prog.fetchRange_le state.numpixels state.progPtr
  { state with
    progPtr := range.2
    rangeStart := range.1.1
    rangeEnd := range.1.2
    rangeLen := range.1.2 - range.1.1
    progTmpmode := state.progMode
    range_le := ordered.1
    rangeEnd_lt := ordered.2.trans_lt state.numpixels_lt
    rangeLen_eq := rfl }

/-- The `switch` of `prog_process`. -/
def runCommand (cmd : Nat) (state : LedState) : Option LedState :=
  if cmd = lightProgCol1Set then
    let offset := state.prog.fetchNum state.progPtr 0
    some { state with
      progPtr := offset.2
      rangePtr := u16 (state.rangeStart + offset.1) }.setFetched.2.endCommand
  else if cmd = lightProgFade ∨ cmd = lightProgFadeHsv ∨ cmd = lightProgSetAll then state.colorCommand cmd
  else if cmd = lightProgRotateBack ∨ cmd = lightProgRotateFwd then some (state.rotateCommand cmd)
  else if cmd = lightProgMode1 then
    some { state with progPtr := state.fetchMode.2, progTmpmode := state.fetchMode.1 }
  else if cmd = lightProgMode then
    some { state with progPtr := state.fetchMode.2, progMode := state.fetchMode.1 }.endCommand
  else if cmd = lightProgRange then some state.rangeCommand
  else some state.endCommand

/-- A pass over the body of the loop in `prog_process`. -/
def command (state : LedState) : Option (Pass LedState LedState) :=
  let fetched := state.prog.fetchCmd state.progPtr
  let state := { state with progPtr := fetched.2 }
  if fetched.1 = 0 then some (.leave state)
  else if fetched.1 = lightProgShow then
    let k := state.prog.fetchNum state.progPtr 50
    some (.leave { state with
      progPtr := k.2
      progNextStep := u32 (state.progNextStep + k.1 * 1000)
      dirty := true })
  else (state.runCommand fetched.1).map .again

/-- The state in which the loop of `prog_process` starts, if it does. -/
def entry (now : Nat) (state : LedState) : Option LedState :=
  if state.inTx ∨ inFuture now state.progNextStep then none
  else if state.prog.size ≤ state.progPtr then
    if state.numRepeats ≠ 1 then
      some ({ state with
        numRepeats := if state.numRepeats ≠ 0 then state.numRepeats - 1 else 0 }.resetProg now)
    else none
  else some state

/-- `prog_process`, with a bound on the number of commands. -/
def progProcess (fuel now : Nat) (state : LedState) : Option LedState :=
  match state.entry now with
  | none => some state
  | some start => loop command fuel start

end LedState

/-- The part of the state that the run of a program depends on. -/
structure LedControl where
  ptr : Nat
  empty : Bool
  deriving DecidableEq, Repr

def LedState.control (state : LedState) : LedControl := ⟨state.progPtr, state.rangeLen = 0⟩

namespace LedProgram

/-- The number of colors that a command fades over, or 0. -/
def fadeCount (prog : LedProgram) (cmd ptr : Nat) : Nat :=
  if cmd = lightProgFade ∨ cmd = lightProgFadeHsv then
    match (prog.fetch ptr).1 with
    | .colorBlock count => count
    | _ => 0
  else 0

/-- The number of colors of the fade that is the first command from a position on, or 0. -/
def fadeLength (prog : LedProgram) (ptr : Nat) : Nat :=
  prog.fadeCount (prog.fetchCmd ptr).1 (prog.fetchCmd ptr).2

/-- The position after the three commands with colors. -/
def afterColors (prog : LedProgram) (cmd ptr : Nat) : Nat :=
  match prog.fetch ptr with
  | (.colorBlock count, ptr) =>
    if cmd = lightProgSetAll ∨ count < 2 then prog.skipColors count ptr else fadeEnd ptr count
  | (_, ptr) => ptr

/-- Where a command leads. -/
def after (prog : LedProgram) (numpixels cmd : Nat) (control : LedControl) : LedControl :=
  if cmd = lightProgCol1Set then
    { control with ptr := (prog.fetchColor (prog.fetchNum control.ptr 0).2).2 }
  else if cmd = lightProgFade ∨ cmd = lightProgFadeHsv ∨ cmd = lightProgSetAll then
    { control with ptr := prog.afterColors cmd control.ptr }
  else if cmd = lightProgRotateBack ∨ cmd = lightProgRotateFwd then
    { control with ptr := (prog.fetchNum control.ptr 1).2 }
  else if cmd = lightProgMode1 ∨ cmd = lightProgMode then
    { control with ptr := (prog.fetchNum control.ptr 0).2 }
  else if cmd = lightProgRange then
    let range := prog.fetchRange numpixels control.ptr
    ⟨range.2, range.1.2 - range.1.1 = 0⟩
  else control

/-- The next position at which a command is looked for. -/
def next (prog : LedProgram) (numpixels : Nat) (control : LedControl) : Option LedControl :=
  let fetched := prog.fetchCmd control.ptr
  if fetched.1 = 0 ∨ fetched.1 = lightProgShow then none
  else some (prog.after numpixels fetched.1 { control with ptr := fetched.2 })

theorem le_afterColors (prog : LedProgram) (cmd ptr : Nat)
    (colors : cmd = lightProgFade ∨ cmd = lightProgFadeHsv ∨ cmd = lightProgSetAll)
    (short : prog.fadeCount cmd ptr < 2) : ptr ≤ prog.afterColors cmd ptr := by
  have fetched := prog.le_fetch ptr
  simp only [fadeCount] at short
  unfold afterColors
  rcases found : prog.fetch ptr with ⟨kind, after⟩
  rw [found] at fetched short
  cases kind with
  | colorBlock count =>
    dsimp only
    split
    · exact fetched.trans (prog.le_skipColors count after)
    · rename_i long
      rw [not_or, Nat.not_lt] at long
      rw [if_pos (colors.imp_right fun rest => rest.resolve_right long.1)] at short
      exact absurd short (Nat.not_lt.mpr long.2)
  | eof => exact fetched
  | cmd code => exact fetched
  | number value => exact fetched

/-- Only a fade of two colors or more may move back. -/
theorem le_after (prog : LedProgram) (numpixels cmd : Nat) (control : LedControl)
    (short : prog.fadeCount cmd control.ptr < 2) : control.ptr ≤ (prog.after numpixels cmd control).ptr := by
  unfold after
  split
  · exact (prog.le_fetchNum control.ptr 0).trans (prog.le_fetchColor _)
  · split
    · rename_i colors
      exact prog.le_afterColors cmd control.ptr colors short
    · split
      · exact prog.le_fetchNum control.ptr 1
      · split
        · exact prog.le_fetchNum control.ptr 0
        · split
          · exact (prog.le_fetchNum control.ptr 0).trans (prog.le_fetchNum _ numpixels)
          · exact Nat.le_refl _

theorem next_cases (prog : LedProgram) {numpixels : Nat} {control successor : LedControl}
    (step : prog.next numpixels control = some successor) :
    control.ptr < prog.size ∧ (prog.fadeLength control.ptr < 2 → control.ptr < successor.ptr) := by
  simp only [next] at step
  split at step
  · exact absurd step nofun
  · rename_i runs
    rw [not_or] at runs
    obtain ⟨inside, advances⟩ := (prog.fetchCmd_cases control.ptr).resolve_left runs.1
    refine ⟨inside, fun short => ?_⟩
    rw [← Option.some.inj step]
    exact advances.trans_le (prog.le_after numpixels _ { control with ptr := (prog.fetchCmd control.ptr).2 } short)

/-- A fade over an empty range, which divides by zero. -/
def Faulty (prog : LedProgram) (control : LedControl) : Prop :=
  2 ≤ prog.fadeLength control.ptr ∧ control.empty = true

end LedProgram

namespace LedState

/-- The state goes on where the program alone tells. -/
structure Follows (cmd : Nat) (state after : LedState) : Prop where
  prog : after.prog = state.prog
  numpixels : after.numpixels = state.numpixels
  control : after.control = state.prog.after state.numpixels cmd state.control

theorem KeepsStrip.control {before after : LedState} (kept : KeepsStrip before after) {ptr : Nat}
    (moved : after.progPtr = ptr) : after.control = { before.control with ptr } := by
  simp only [LedState.control, kept.rangeLen, moved]

/-- A command with colors fails as a fade over an empty range only. -/
theorem colorCommand_cases (cmd : Nat) (state : LedState)
    (colors : cmd = lightProgFade ∨ cmd = lightProgFadeHsv ∨ cmd = lightProgSetAll) :
    (2 ≤ state.prog.fadeCount cmd state.progPtr ∧ state.rangeLen = 0 ∧ state.colorCommand cmd = none) ∨
      (¬ (2 ≤ state.prog.fadeCount cmd state.progPtr ∧ state.rangeLen = 0) ∧
        ∃ after, state.colorCommand cmd = some after ∧ KeepsStrip state after ∧
          after.progPtr = state.prog.afterColors cmd state.progPtr) := by
  unfold colorCommand LedProgram.fadeCount LedProgram.afterColors
  rcases found : state.prog.fetch state.progPtr with ⟨kind, ptr⟩
  cases kind with
  | eof => exact .inr ⟨by simp, _, rfl, ⟨rfl, rfl, rfl⟩, rfl⟩
  | cmd code => exact .inr ⟨by simp, _, rfl, ⟨rfl, rfl, rfl⟩, rfl⟩
  | number value => exact .inr ⟨by simp, _, rfl, ⟨rfl, rfl, rfl⟩, rfl⟩
  | colorBlock count =>
    dsimp only
    by_cases none : count = 0
    · subst none
      refine .inr ⟨by simp, _, if_pos rfl, ⟨rfl, rfl, rfl⟩, ?_⟩
      rw [if_pos (.inr Nat.zero_lt_two)]
      rfl
    · rw [if_neg none]
      by_cases set : cmd = lightProgSetAll
      · subst set
        obtain ⟨kept, moved⟩ := progSet_keeps count { state with progPtr := ptr }
        refine .inr ⟨by simp [lightProgSetAll, lightProgFade, lightProgFadeHsv], _, if_pos rfl,
          ⟨kept.prog, kept.numpixels, kept.rangeLen⟩, ?_⟩
        rw [if_pos (.inl rfl)]
        exact moved
      · rw [if_neg set, if_pos (colors.imp_right fun rest => rest.resolve_right set)]
        rcases progFade_cases count (cmd = lightProgFadeHsv) { state with progPtr := ptr } with
          ⟨long, empty, failed⟩ | ⟨fine, after, faded, kept, moved⟩
        · exact .inl ⟨long, empty, by rw [failed]; rfl⟩
        · refine .inr ⟨fine, after.endCommand, by rw [faded]; rfl, ⟨kept.prog, kept.numpixels, kept.rangeLen⟩, ?_⟩
          simp only [set, false_or]
          exact moved

theorem rotateCommand_keeps (cmd : Nat) (state : LedState) :
    KeepsStrip state (state.rotateCommand cmd) ∧
      (state.rotateCommand cmd).progPtr = (state.prog.fetchNum state.progPtr 1).2 := by
  unfold rotateCommand
  dsimp only
  split
  · exact ⟨⟨rfl, rfl, rfl⟩, rfl⟩
  · obtain ⟨kept, moved⟩ := progRot_keeps _ { state with progPtr := (state.prog.fetchNum state.progPtr 1).2 }
    exact ⟨⟨kept.prog, kept.numpixels, kept.rangeLen⟩, moved⟩

/-- The commands without a block of colors. -/
theorem runCommand_follows (cmd : Nat) (state : LedState)
    (plain : ¬ (cmd = lightProgFade ∨ cmd = lightProgFadeHsv ∨ cmd = lightProgSetAll)) :
    ∃ after, state.runCommand cmd = some after ∧ Follows cmd state after := by
  suffices ∃ after, state.runCommand cmd = some after ∧ after.prog = state.prog ∧ after.numpixels = state.numpixels ∧
      after.control = state.prog.after state.numpixels cmd state.control from
    this.imp fun after ⟨ran, prog, numpixels, control⟩ => ⟨ran, prog, numpixels, control⟩
  unfold runCommand LedProgram.after
  by_cases col1 : cmd = lightProgCol1Set
  · obtain ⟨kept, moved, _⟩ := setFetched_cases { state with
      progPtr := (state.prog.fetchNum state.progPtr 0).2
      rangePtr := u16 (state.rangeStart + (state.prog.fetchNum state.progPtr 0).1) }
    have strip : KeepsStrip state _ := ⟨kept.prog, kept.numpixels, kept.rangeLen⟩
    rw [if_pos col1, if_pos col1]
    exact ⟨_, rfl, kept.prog, kept.numpixels, strip.control moved⟩
  rw [if_neg col1, if_neg col1, if_neg plain, if_neg plain]
  by_cases rotates : cmd = lightProgRotateBack ∨ cmd = lightProgRotateFwd
  · obtain ⟨kept, moved⟩ := state.rotateCommand_keeps cmd
    rw [if_pos rotates, if_pos rotates]
    exact ⟨_, rfl, kept.prog, kept.numpixels, kept.control moved⟩
  rw [if_neg rotates, if_neg rotates]
  by_cases mode1 : cmd = lightProgMode1
  · rw [if_pos mode1, if_pos (.inl mode1)]
    exact ⟨_, rfl, rfl, rfl, rfl⟩
  rw [if_neg mode1]
  by_cases mode : cmd = lightProgMode
  · rw [if_pos mode, if_pos (.inr mode)]
    exact ⟨_, rfl, rfl, rfl, rfl⟩
  rw [if_neg mode, if_neg (not_or.mpr ⟨mode1, mode⟩)]
  by_cases range : cmd = lightProgRange
  · rw [if_pos range, if_pos range]
    exact ⟨_, rfl, rfl, rfl, rfl⟩
  · rw [if_neg range, if_neg range]
    exact ⟨_, rfl, rfl, rfl, rfl⟩

/-- A command moves to the position that the program alone tells, or it is a
fade over an empty range. -/
theorem runCommand_cases (cmd : Nat) (state : LedState) :
    (2 ≤ state.prog.fadeCount cmd state.progPtr ∧ state.rangeLen = 0 ∧ state.runCommand cmd = none) ∨
      (¬ (2 ≤ state.prog.fadeCount cmd state.progPtr ∧ state.rangeLen = 0) ∧
        ∃ after, state.runCommand cmd = some after ∧ Follows cmd state after) := by
  by_cases colors : cmd = lightProgFade ∨ cmd = lightProgFadeHsv ∨ cmd = lightProgSetAll
  · have other : cmd ≠ lightProgCol1Set := by
      rcases colors with rfl | rfl | rfl <;> decide
    unfold runCommand
    rw [if_neg other, if_pos colors]
    refine (state.colorCommand_cases cmd colors).imp id fun ⟨fine, after, ran, kept, moved⟩ =>
      ⟨fine, after, ran, kept.prog, kept.numpixels, ?_⟩
    unfold LedProgram.after
    rw [if_neg other, if_pos colors]
    exact kept.control moved
  · refine .inr ⟨?_, state.runCommand_follows cmd colors⟩
    rintro ⟨long, _⟩
    rw [LedProgram.fadeCount, if_neg fun fade => colors (fade.imp_right .inl)] at long
    exact absurd long (by decide)

theorem command_controls (prog : LedProgram) (numpixels : Nat) (state : LedState)
    (same : state.prog = prog ∧ state.numpixels = numpixels) :
    PassControls (prog.next numpixels) LedState.control prog.Faulty
      (fun state => state.prog = prog ∧ state.numpixels = numpixels) state state.command := by
  obtain ⟨rfl, rfl⟩ := same
  have quiet : (state.prog.fetchCmd state.progPtr).1 = 0 ∨ (state.prog.fetchCmd state.progPtr).1 = lightProgShow →
      ¬ state.prog.Faulty state.control ∧ state.prog.next state.numpixels state.control = none := by
    intro quiet
    refine ⟨fun faulty => absurd faulty.1 ?_, if_pos quiet⟩
    rw [LedProgram.fadeLength, LedProgram.fadeCount, if_neg]
    · decide
    · show ¬ ((state.prog.fetchCmd state.progPtr).1 = _ ∨ (state.prog.fetchCmd state.progPtr).1 = _)
      rcases quiet with zero | shows
      · rw [zero]
        decide
      · rw [shows]
        decide
  unfold command
  by_cases ended : (state.prog.fetchCmd state.progPtr).1 = 0
  · simp only [if_pos ended]
    exact .leave (quiet (.inl ended)).1 (quiet (.inl ended)).2
  by_cases shows : (state.prog.fetchCmd state.progPtr).1 = lightProgShow
  · simp only [if_neg ended, if_pos shows]
    exact .leave (quiet (.inr shows)).1 (quiet (.inr shows)).2
  simp only [if_neg ended, if_neg shows]
  have runs : state.prog.next state.numpixels state.control =
      some (state.prog.after state.numpixels (state.prog.fetchCmd state.progPtr).1
        { state.control with ptr := (state.prog.fetchCmd state.progPtr).2 }) :=
    if_neg (not_or.mpr ⟨ended, shows⟩)
  rcases runCommand_cases (state.prog.fetchCmd state.progPtr).1
      { state with progPtr := (state.prog.fetchCmd state.progPtr).2 } with
    ⟨long, empty, failed⟩ | ⟨fine, after, ran, follows⟩
  · rw [failed]
    exact .fails ⟨long, decide_eq_true empty⟩
  · rw [ran]
    refine .again (fun faulty => fine ⟨faulty.1, of_decide_eq_true faulty.2⟩) ?_ ⟨follows.prog, follows.numpixels⟩
    rw [runs, follows.control]
    rfl

end LedState

/-- Finitely many control states lie inside a program. -/
private theorem finite_inside (prog : LedProgram) : { control : LedControl | control.ptr < prog.size }.Finite := by
  have positions : { pair : Nat × Bool | pair.1 < prog.size }.Finite :=
    ((Set.finite_lt_nat prog.size).prod Set.finite_univ).subset fun pair inside => ⟨inside, trivial⟩
  refine (positions.image fun pair => (⟨pair.1, pair.2⟩ : LedControl)).subset ?_
  intro control inside
  exact ⟨(control.ptr, control.empty), inside, rfl⟩

/-- The loop comes to an end exactly if no fade leads back to itself. -/
theorem LedProgram.halts_iff (prog : LedProgram) (numpixels : Nat) (control : LedControl) :
    Halts (prog.next numpixels) control ↔
      ∀ state successor, Leads (prog.next numpixels) control state → 2 ≤ prog.fadeLength state.ptr →
        prog.next numpixels state = some successor → ¬ Leads (prog.next numpixels) successor state := by
  constructor
  · intro halts state successor leads _ step
    exact (halts.of_leads leads).no_return step
  · intro acyclic
    rw [halts_iff_no_cycle (finite_inside prog) (fun step => (prog.next_cases step).1) LedControl.ptr]
    intro state successor leads step back
    refine acyclic state successor leads ?_ step
    by_contra short
    exact absurd ((prog.next_cases step).2 (Nat.not_le.mp short)) (Nat.not_lt.mpr back)

/-- `prog_process` returns exactly if no fade that the program reaches runs over
an empty range or ends at a position that leads back to the same fade. -/
theorem prog_process_returns_iff (now : Nat) (state : LedState) :
    (∃ fuel after, state.progProcess fuel now = some after) ↔
      ∀ start, state.entry now = some start → ∀ control,
        Leads (start.prog.next start.numpixels) start.control control → 2 ≤ start.prog.fadeLength control.ptr →
          control.empty = false ∧ ∀ successor, start.prog.next start.numpixels control = some successor →
            ¬ Leads (start.prog.next start.numpixels) successor control := by
  unfold LedState.progProcess
  cases entered : state.entry now with
  | none => simp
  | some start =>
    have returns := loop_returns_iff (LedState.command_controls start.prog start.numpixels) ⟨rfl, rfl⟩
    rw [start.prog.halts_iff] at returns
    refine returns.trans ⟨?_, ?_⟩
    · rintro ⟨acyclic, clean⟩ other same control leads long
      cases same
      refine ⟨?_, fun successor => acyclic control successor leads long⟩
      exact Bool.eq_false_iff.mpr fun empty => clean control leads ⟨long, empty⟩
    · intro good
      refine ⟨fun control successor leads long => (good start rfl control leads long).2 successor, ?_⟩
      rintro control leads ⟨long, empty⟩
      exact absurd (good start rfl control leads long).1 (by simp [empty])

theorem ten_lt : 10 < 65536 := by decide

/-- A fade of 255 colors at the start of a program ends where it started. -/
def fadeForever : LedState :=
  (LedState.init 10 ten_lt).handleRunCmd 0 [0xD1, 0xC0, 0xFF] (by decide)

/-- The three bytes of that program keep `prog_process` busy for ever. -/
theorem prog_process_endless : ¬ ∃ fuel after, fadeForever.progProcess fuel 1 = some after := by
  have entered : fadeForever.entry 1 = some fadeForever := by
    unfold LedState.entry
    rw [if_neg (by decide), if_neg (by decide)]
  have fetched : fadeForever.prog.fetchCmd 0 = (lightProgFade, 1) := LedProgram.fetchCmd_of_cmd _ (by decide)
  have again : fadeForever.prog.next 10 ⟨0, false⟩ = some ⟨0, false⟩ := by
    unfold LedProgram.next
    rw [fetched]
    decide
  have returns := loop_returns_iff (LedState.command_controls fadeForever.prog 10) (⟨rfl, rfl⟩ : fadeForever.prog = _ ∧ _)
  unfold LedState.progProcess
  rw [entered]
  intro returned
  exact (returns.mp returned).1.no_return again .refl

end Jacdac
