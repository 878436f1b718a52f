import Jacdac.Led.Process

/-! The strip as a whole: the pixel buffer, the register for the number of pixels
and the program, command by command. Between two commands the range lies inside
the buffer; a fade over an empty range divides by zero. -/

namespace Jacdac

def pxWords (numPixels : Nat) : Nat := (numPixels * 3 + 3) / 4

/-- The number of bytes that `jd_alloc` provides. -/
def jdAlloc (size : Nat) : Nat := (size + 3) / 4 * 4

/-- The state of the service with `maxpixels` and the size of the block that
`pxbuffer` points to; `running` inside the loop of `prog_process`. -/
structure LedStrip where
  led : LedState
  maxpixels : Nat
  block : Nat
  running : Bool

namespace LedStrip

/-- `maxpixels`, from the value of `jd_available_memory`. The difference is
unsigned and read as an `int`, so it is -1 for less than three bytes. -/
def maxPixels (availableMemory : Nat) : Nat :=
  let maxpix : Int := (availableMemory / 3 : Nat) - 1
  let maxpix := if maxpix > 4096 then 4096 else maxpix
  (maxpix % 65536).toNat

def alloc (availableMemory : Nat) (strip : LedStrip) : LedStrip :=
  if strip.maxpixels ≠ 0 then strip
  else
    let maxpixels := maxPixels availableMemory
    let block := jdAlloc (pxWords maxpixels)
    { strip with
      maxpixels
      block
      led := { strip.led with
        pxbuffer := fun address => if address < block then 0 else strip.led.pxbuffer address } }

/-- A strip after `ledstrip_init` and the first `alloc`, which comes before any packet. -/
def start (numpixels : Nat) (small : numpixels < 65536) (availableMemory : Nat) : LedStrip :=
  alloc availableMemory ⟨LedState.init numpixels small, 0, 0, false⟩

/-- A SET of `NUM_PIXELS`. -/
def setNumPixels (value : Nat) (small : value < 65536) (strip : LedStrip) : LedStrip :=
  { strip with
    led := { strip.led with
      numpixels := if value > strip.maxpixels then strip.maxpixels else value
      numpixels_lt := by split <;> omega } }

end LedStrip

/-- What happens to the strip between packets and inside `prog_process`. The
register for `maxpixels` is a constant one, which no packet writes. -/
inductive LedStep : LedStrip → LedStrip → Prop where
  | runCmd {strip : LedStrip} (idle : strip.running = false) (now : Nat) (data : List UInt8)
      (fits : data.length ≤ 236) : LedStep strip { strip with led := strip.led.handleRunCmd now data fits }
  | setNumPixels {strip : LedStrip} (idle : strip.running = false) (value : Nat) (small : value < 65536) :
      LedStep strip (strip.setNumPixels value small)
  | setNumRepeats {strip : LedStrip} (idle : strip.running = false) (value : Nat) :
      LedStep strip { strip with led := { strip.led with numRepeats := value } }
  | alloc {strip : LedStrip} (idle : strip.running = false) (availableMemory : Nat) :
      LedStep strip (strip.alloc availableMemory)
  /-- The transmission and its end, and the refresh. -/
  | transmit {strip : LedStrip} (idle : strip.running = false) (inTx dirty : Bool) :
      LedStep strip { strip with led := { strip.led with inTx, dirty } }
  | enter {strip : LedStrip} (idle : strip.running = false) (now : Nat) {entered : LedState}
      (enters : strip.led.entry now = some entered) : LedStep strip { strip with led := entered, running := true }
  | again {strip : LedStrip} (busy : strip.running = true) {after : LedState}
      (ran : strip.led.command = some (.again after)) : LedStep strip { strip with led := after }
  | leave {strip : LedStrip} (busy : strip.running = true) {after : LedState}
      (ran : strip.led.command = some (.leave after)) : LedStep strip { strip with led := after, running := false }

/-- The states that a strip can come to. -/
def LedReaches : LedStrip → LedStrip → Prop := Relation.ReflTransGen LedStep

namespace LedState

variable {state after : LedState}

/-- A command leaves the range as it is, or selects one on the strip. -/
structure RangeKept (state after : LedState) : Prop where
  numpixels : after.numpixels = state.numpixels
  rangeEnd : after.rangeEnd = state.rangeEnd ∨ after.rangeEnd ≤ state.numpixels

theorem setLoop_rangeEnd (len first : Nat) (state : LedState) : (setLoop len first state).rangeEnd = state.rangeEnd :=
  (setLoop_keeps len first state).1.rangeEnd

theorem progFade_rangeEnd (faded : state.progFade len usehsv = some after) : after.rangeEnd = state.rangeEnd := by
  unfold progFade at faded
  split at faded
  · rw [← Option.some.inj faded]
    exact setLoop_rangeEnd len state.progPtr state.resetRange
  · dsimp only at faded
    split at faded
    · cases faded
    · rw [← Option.some.inj faded]
      exact (fadeLoop_keeps _ _ _ _).rangeEnd

theorem colorCommand_rangeEnd (ran : state.colorCommand cmd = some after) : after.rangeEnd = state.rangeEnd := by
  unfold colorCommand at ran
  split at ran
  · dsimp only at ran
    split at ran
    · rw [← Option.some.inj ran]
    · split at ran
      · rw [← Option.some.inj ran]
        exact setLoop_rangeEnd _ _ _
      · obtain ⟨faded, fade, rfl⟩ := Option.map_eq_some_iff.mp ran
        have kept := progFade_rangeEnd fade
        exact kept
  · rw [← Option.some.inj ran]

theorem rotateCommand_rangeEnd (cmd : Nat) (state : LedState) :
    (state.rotateCommand cmd).rangeEnd = state.rangeEnd := by
  unfold rotateCommand progRot endCommand
  dsimp only
  repeat' split
  all_goals rfl

theorem runCommand_range (ran : state.runCommand cmd = some after) :
    after.rangeEnd = state.rangeEnd ∨ after.rangeEnd ≤ state.numpixels := by
  unfold runCommand at ran
  split at ran
  · rw [← Option.some.inj ran]
    exact .inl (setFetched_cases _).1.rangeEnd
  split at ran
  · exact .inl (colorCommand_rangeEnd ran)
  split at ran
  · rw [← Option.some.inj ran]
    exact .inl (state.rotateCommand_rangeEnd cmd)
  split at ran
  · exact .inl (Option.some.inj ran ▸ rfl)
  split at ran
  · exact .inl (Option.some.inj ran ▸ rfl)
  split at ran
  · rw [← Option.some.inj ran]
    exact .inr (state.prog.fetchRange_le state.numpixels state.progPtr).2
  · exact .inl (Option.some.inj ran ▸ rfl)

theorem runCommand_numpixels (ran : state.runCommand cmd = some after) : after.numpixels = state.numpixels := by
  rcases runCommand_cases cmd state with ⟨_, _, failed⟩ | ⟨_, other, same, follows⟩
  · rw [failed] at ran
    cases ran
  · obtain rfl := Option.some.inj (same.symm.trans ran)
    exact follows.numpixels

/-- One pass of the loop, whether it is the last one or not. -/
theorem command_range {pass : Pass LedState LedState} (ran : state.command = some pass) :
    ∀ after, pass = .again after ∨ pass = .leave after → RangeKept state after := by
  unfold command at ran
  dsimp only at ran
  rintro after (rfl | rfl)
  · split at ran
    · cases Option.some.inj ran
    split at ran
    · cases Option.some.inj ran
    · obtain ⟨other, done, same⟩ := Option.map_eq_some_iff.mp ran
      obtain rfl := Pass.again.inj same
      have same := runCommand_numpixels done
      have kept := runCommand_range done
      exact ⟨same, kept⟩
  · split at ran
    · obtain rfl := Pass.leave.inj (Option.some.inj ran)
      exact ⟨rfl, .inl rfl⟩
    split at ran
    · obtain rfl := Pass.leave.inj (Option.some.inj ran)
      exact ⟨rfl, .inl rfl⟩
    · obtain ⟨other, _, same⟩ := Option.map_eq_some_iff.mp ran
      cases same

theorem entry_range (enters : state.entry now = some after) : RangeKept state after := by
  unfold entry at enters
  split at enters
  · cases enters
  split at enters
  · split at enters
    · rw [← Option.some.inj enters]
      exact ⟨rfl, .inr (Nat.le_refl _)⟩
    · cases enters
  · rw [← Option.some.inj enters]
    exact ⟨rfl, .inl rfl⟩

/-- A program starts right after the packet that brings it. -/
theorem entry_handleRunCmd (quiet : state.inTx = false) (fits : data.length ≤ 236) (some_ : 0 < data.length) :
    (state.handleRunCmd 0 data fits).entry 1 = some (state.handleRunCmd 0 data fits) := by
  have free : ¬ ((state.handleRunCmd 0 data fits).inTx = true ∨
      inFuture 1 (state.handleRunCmd 0 data fits).progNextStep = true) := by
    rintro (busy | future)
    · exact absurd (quiet.symm.trans busy) (by decide)
    · have never : inFuture 1 0 = false := by decide
      exact absurd (never.symm.trans future) (by decide)
  have ahead : ¬ (state.handleRunCmd 0 data fits).prog.size ≤ (state.handleRunCmd 0 data fits).progPtr :=
    Nat.not_le.mpr some_
  rw [entry, if_neg free, if_neg ahead]

theorem command_of_fetchCmd (fetched : state.prog.fetchCmd state.progPtr = (cmd, ptr)) (present : cmd ≠ 0)
    (other : cmd ≠ lightProgShow) :
    state.command = ({ state with progPtr := ptr }.runCommand cmd).map .again := by
  simp only [command, fetched, if_neg present, if_neg other]

/-- The next command is a fade of at least two colors over an empty range. -/
def EmptyFade (state : LedState) : Prop := 2 ≤ state.prog.fadeLength state.progPtr ∧ state.rangeLen = 0

theorem command_eq_none_iff (state : LedState) : state.command = none ↔ state.EmptyFade := by
  have pass := command_controls state.prog state.numpixels state ⟨rfl, rfl⟩
  generalize state.command = outcome at pass
  unfold EmptyFade
  cases pass with
  | fails faulty => exact ⟨fun _ => ⟨faulty.1, of_decide_eq_true faulty.2⟩, fun _ => rfl⟩
  | leave fine _ => exact ⟨nofun, fun faulty => absurd ⟨faulty.1, decide_eq_true faulty.2⟩ fine⟩
  | again fine _ _ => exact ⟨nofun, fun faulty => absurd ⟨faulty.1, decide_eq_true faulty.2⟩ fine⟩

end LedState

namespace LedStrip

variable {strip after : LedStrip}

/-- The strip and the range fit into the buffer. -/
structure Within (strip : LedStrip) : Prop where
  numpixels : strip.led.numpixels ≤ strip.maxpixels
  rangeEnd : strip.led.rangeEnd ≤ strip.maxpixels

theorem Within.kept (within : Within strip) {led : LedState} (kept : LedState.RangeKept strip.led led)
    (running : Bool) : Within { strip with led, running } := by
  have strips := within.numpixels
  have range := within.rangeEnd
  refine ⟨kept.numpixels ▸ strips, ?_⟩
  rcases kept.rangeEnd with same | inside
  · exact same ▸ range
  · exact inside.trans strips

theorem Within.alloc (within : Within strip) (availableMemory : Nat) : Within (strip.alloc availableMemory) := by
  unfold LedStrip.alloc
  split
  · exact within
  · rename_i empty
    rw [not_not] at empty
    have strips := within.numpixels
    have range := within.rangeEnd
    rw [empty, Nat.le_zero] at strips range
    exact ⟨strips ▸ Nat.zero_le _, range ▸ Nat.zero_le _⟩

theorem Within.step (within : Within strip) (step : LedStep strip after) : Within after := by
  cases step with
  | runCmd idle now data fits =>
    have kept : LedState.RangeKept strip.led (strip.led.handleRunCmd now data fits) := ⟨rfl, .inr (Nat.le_refl _)⟩
    exact within.kept kept _
  | setNumPixels idle value small =>
    refine ⟨?_, within.rangeEnd⟩
    unfold LedStrip.setNumPixels
    dsimp only
    split <;> omega
  | setNumRepeats idle value => exact ⟨within.numpixels, within.rangeEnd⟩
  | alloc idle availableMemory => exact within.alloc availableMemory
  | transmit idle inTx dirty => exact ⟨within.numpixels, within.rangeEnd⟩
  | enter idle now enters => exact within.kept (LedState.entry_range enters) true
  | again busy ran => exact within.kept (LedState.command_range ran _ (.inl rfl)) _
  | leave busy ran => exact within.kept (LedState.command_range ran _ (.inr rfl)) false

theorem Within.reaches (within : Within strip) (reaches : LedReaches strip after) : Within after := by
  induction reaches with
  | refl => exact within
  | tail _ step ih => exact ih.step step

/-- In every reachable state the range lies inside the buffer and its length is
the difference of its ends; and the next command divides by zero exactly if it
is a fade of two or more colors over an empty range. -/
theorem led_program_safe_iff (small : numpixels < 65536) (availableMemory : Nat)
    (fits : numpixels ≤ (start numpixels small availableMemory).maxpixels)
    (reaches : LedReaches (start numpixels small availableMemory) strip) :
    strip.led.rangeStart ≤ strip.led.rangeEnd ∧ strip.led.rangeEnd ≤ strip.maxpixels ∧
      strip.led.rangeLen = strip.led.rangeEnd - strip.led.rangeStart ∧
      (strip.running = true → (strip.led.command ≠ none ↔ ¬ strip.led.EmptyFade)) := by
  have begins : Within (start numpixels small availableMemory) := ⟨fits, Nat.zero_le _⟩
  have within := begins.reaches reaches
  exact ⟨strip.led.range_le, within.rangeEnd, strip.led.rangeLen_eq, fun _ => not_congr strip.led.command_eq_none_iff⟩

/-- A strip at the start of its first program. -/
def loaded (numpixels : Nat) (small : numpixels < 65536) (availableMemory : Nat) (data : List UInt8)
    (fits : data.length ≤ 236) : LedStrip :=
  { start numpixels small availableMemory with
    led := (start numpixels small availableMemory).led.handleRunCmd 0 data fits
    running := true }

theorem reaches_loaded (small : numpixels < 65536) (availableMemory : Nat) (data : List UInt8)
    (fits : data.length ≤ 236) (some_ : 0 < data.length) :
    LedReaches (start numpixels small availableMemory) (loaded numpixels small availableMemory data fits) := by
  have received : LedReaches (start numpixels small availableMemory)
      { start numpixels small availableMemory with
        led := (start numpixels small availableMemory).led.handleRunCmd 0 data fits } :=
    .single (.runCmd rfl 0 data fits)
  exact received.tail (.enter rfl 1 (LedState.entry_handleRunCmd rfl fits some_))

/-- The fade of two colors, on a strip of ten pixels. -/
def fadeTen : LedStrip := loaded 10 ten_lt 1000 [0xD1, 0xC2, 1, 2, 3, 4, 5, 6] (by decide)

/-- It does not fail. -/
theorem led_program_safe_iff_ten : fadeTen.led.rangeEnd ≤ maxPixels 1000 ∧ fadeTen.led.command ≠ none := by
  obtain ⟨_, inside, _, divides⟩ := led_program_safe_iff (by decide : 10 < 65536) 1000 (by decide)
    (reaches_loaded (by decide) 1000 [0xD1, 0xC2, 1, 2, 3, 4, 5, 6] (by decide) (by decide))
  exact ⟨inside, (divides rfl).mpr fun fade => absurd fade.2 (by decide)⟩

/-- The same strip before that fade, which comes after `range(0, 0)`. -/
def fadeNothing : LedStrip := loaded 10 ten_lt 1000 [0xD6, 0, 0, 0xD1, 0xC2, 1, 2, 3, 4, 5, 6] (by decide)

/-- The fade divides by zero. -/
theorem led_fade_divides_by_zero :
    ¬ ∀ (numpixels : Nat) (small : numpixels < 65536) (availableMemory : Nat) (strip : LedStrip),
      numpixels ≤ (start numpixels small availableMemory).maxpixels →
      LedReaches (start numpixels small availableMemory) strip → strip.running = true →
      strip.led.command ≠ none := by
  intro holds
  have selects : fadeNothing.led.prog.fetchCmd 0 = (lightProgRange, 1) := LedProgram.fetchCmd_of_cmd _ (by decide)
  have fades : fadeNothing.led.prog.fetchCmd 3 = (lightProgFade, 4) := LedProgram.fetchCmd_of_cmd _ (by decide)
  have ran : fadeNothing.led.command = some (.again { fadeNothing.led with progPtr := 1 }.rangeCommand) :=
    LedState.command_of_fetchCmd selects (by decide) (by decide)
  have reaches := (reaches_loaded (by decide : 10 < 65536) 1000 _ _ (by decide)).tail (.again rfl ran)
  refine holds 10 (by decide) 1000 _ (by decide) reaches rfl ((LedState.command_eq_none_iff _).mpr ⟨?_, by decide⟩)
  show 2 ≤ fadeNothing.led.prog.fadeLength 3
  rw [LedProgram.fadeLength, fades]
  decide

end LedStrip

end Jacdac
