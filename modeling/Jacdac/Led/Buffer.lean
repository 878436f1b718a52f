import Jacdac.Led.Strip

/-! The bytes of the pixel buffer that the service reads and writes, against the
block that `alloc` gets for it. `PX_WORDS` counts words and `jd_alloc` takes
bytes, so the block holds about a quarter of the pixels. -/

namespace Jacdac

/-- The words that `is_empty` reads from the word `index` on, and its result. -/
def isEmptyFrom (px : Nat → UInt8) : Nat → Nat → Bool × Nat
  | 0, index => (true, index)
  | left + 1, index =>
    if px (4 * index) = 0 ∧ px (4 * index + 1) = 0 ∧ px (4 * index + 2) = 0 ∧ px (4 * index + 3) = 0 then
      isEmptyFrom px left (index + 1)
    else (false, index + 1)

/-- `is_empty`, with the number of words it reads. -/
def isEmpty (px : Nat → UInt8) (size : Nat) : Bool × Nat := isEmptyFrom px size 0

namespace LedState

/-- The bytes that `set_next` reads and writes. -/
def setNextAccesses (state : LedState) : List Nat :=
  if state.rangeEnd ≤ state.rangePtr then []
  else [state.rangePtr * 3, state.rangePtr * 3 + 1, state.rangePtr * 3 + 2]

def setColorsAccesses : Nat → LedState → List Nat
  | 0, _ => []
  | count + 1, state => state.setNextAccesses ++ setColorsAccesses count state.setFetched.2

def setLoopAccesses (len start : Nat) (state : LedState) : List Nat :=
  let pass := setColors len false { state with progPtr := start }
  setColorsAccesses len { state with progPtr := start } ++
    if _ok : pass.1 then setLoopAccesses len start pass.2 else []
termination_by state.rangeEnd - state.rangePtr
decreasing_by exact setPass_shorter _ok

def progSetAccesses (len : Nat) (state : LedState) : List Nat :=
  setLoopAccesses len state.progPtr state.resetRange

def fadeLoopAccesses (usehsv : Bool) (colstep : Nat) (fade : Fade) (state : LedState) : List Nat :=
  let mixed := fadeColors fade state
  let set := mixed.2.setNext (mixed.1.shown usehsv)
  mixed.2.setNextAccesses ++
    if _set : set.1 then
      fadeLoopAccesses usehsv colstep { mixed.1 with colpos := u32 (mixed.1.colpos + colstep) } set.2
    else []
termination_by state.rangeEnd - state.rangePtr
decreasing_by exact fadePass_shorter _set

/-- A fade that fails has not touched the buffer. -/
def progFadeAccesses (len : Nat) (usehsv : Bool) (state : LedState) : List Nat :=
  if len < 2 then state.progSetAccesses len
  else
    let col0 := state.prog.fetchColor state.progPtr
    let col1 := state.prog.fetchColor col0.2
    if state.rangeLen = 0 then []
    else
      let colstep := u32 ((len - 1) * 65536) / state.rangeLen
      fadeLoopAccesses usehsv colstep ⟨0, 0, col0.1, col1.1⟩ { state with progPtr := col1.2 }.resetRange

/-- The bytes that the loop of `prog_rot` swaps. -/
def rotAccesses {last : Nat} (rotation : Rotation last) : List Nat :=
  if moving : rotation.first ≠ rotation.next then
    rotation.first :: rotation.next :: rotAccesses (rotation.step moving)
  else []
termination_by last - rotation.first
decreasing_by exact rotation.step_shorter moving

theorem rotation_ordered (shift : Nat) (state : LedState) (bounds : ¬(shift = 0 ∨ state.rangeLen ≤ shift)) :
    state.rangeStart * 3 = (state.rangeStart + shift) * 3 ∨
      state.rangeStart * 3 < (state.rangeStart + shift) * 3 ∧
        (state.rangeStart + shift) * 3 ≤ (state.rangeStart + shift) * 3 ∧
        (state.rangeStart + shift) * 3 < state.rangeEnd * 3 := by
  have start := state.range_le
  have len := state.rangeLen_eq
  omega

def progRotAccesses (shift : Nat) (state : LedState) : List Nat :=
  if bounds : shift = 0 ∨ state.rangeLen ≤ shift then []
  else
    let middle := (state.rangeStart + shift) * 3
    let rotation : Rotation (state.rangeEnd * 3) :=
      ⟨state.rangeStart * 3, middle, middle, rotation_ordered shift state bounds⟩
    rotAccesses rotation

def colorAccesses (cmd : Nat) (state : LedState) : List Nat :=
  match state.prog.fetch state.progPtr with
  | (.colorBlock count, ptr) =>
    let state := { state with progPtr := ptr }
    if count = 0 then []
    else if cmd = lightProgSetAll then state.progSetAccesses count
    else state.progFadeAccesses count (cmd = lightProgFadeHsv)
  | _ => []

def rotateAccesses (cmd : Nat) (state : LedState) : List Nat :=
  let k := state.prog.fetchNum state.progPtr 1
  if empty : state.rangeLen = 0 then []
  else
    let k := reduceShift state.rangeLen k.1 (Nat.pos_of_ne_zero empty)
    let k := if cmd = lightProgRotateFwd ∧ k ≠ 0 then state.rangeLen - k else k
    state.progRotAccesses k

/-- The bytes that a command reads and writes. -/
def runAccesses (cmd : Nat) (state : LedState) : List Nat :=
  if cmd = lightProgCol1Set then
    { state with rangePtr := u16 (state.rangeStart + (state.prog.fetchNum state.progPtr 0).1) }.setNextAccesses
  else if cmd = lightProgFade ∨ cmd = lightProgFadeHsv ∨ cmd = lightProgSetAll then state.colorAccesses cmd
  else if cmd = lightProgRotateBack ∨ cmd = lightProgRotateFwd then state.rotateAccesses cmd
  else []

/-- The bytes that the next pass of the loop in `prog_process` reads and writes. -/
def commandAccesses (state : LedState) : List Nat :=
  let fetched := state.prog.fetchCmd state.progPtr
  { state with progPtr := fetched.2 }.runAccesses fetched.1

/-- The bytes that are read to show the buffer: by `is_empty`, where the power
of the strip is switched, and by `limit_intensity` and `px_tx`. -/
def showAccesses (pinPwr : Bool) (state : LedState) : List Nat :=
  let shown := List.range (state.numpixels * 3)
  if pinPwr then
    let empty := isEmpty state.pxbuffer (pxWords state.numpixels)
    List.range (4 * empty.2) ++ if empty.1 then [] else shown
  else shown

variable {state : LedState}

theorem setNext_frame (c : Rgb) (state : LedState) (outside : address ∉ state.setNextAccesses) :
    (state.setNext c).2.pxbuffer address = state.pxbuffer address := by
  unfold setNextAccesses at outside
  unfold setNext
  split
  · rfl
  · rename_i inside
    simp only [if_neg inside, List.mem_cons, List.not_mem_nil, or_false, not_or] at outside
    simp only [storePixel, if_neg outside.1, if_neg outside.2.1, if_neg outside.2.2]

theorem setColors_frame (count : Nat) (ok : Bool) (state : LedState)
    (outside : address ∉ setColorsAccesses count state) :
    (setColors count ok state).2.pxbuffer address = state.pxbuffer address := by
  induction count generalizing ok state with
  | zero => rfl
  | succ count ih =>
    rw [setColorsAccesses, List.mem_append, not_or] at outside
    have kept : state.setFetched.2.pxbuffer address = state.pxbuffer address := setNext_frame _ _ outside.1
    exact (ih _ _ outside.2).trans kept

theorem setLoop_frame (len start : Nat) (state : LedState) (outside : address ∉ setLoopAccesses len start state) :
    (setLoop len start state).pxbuffer address = state.pxbuffer address := by
  fun_induction setLoop len start state with
  | case1 state pass more ih =>
    rw [setLoopAccesses, List.mem_append, not_or, dif_pos more] at outside
    exact (ih outside.2).trans (setColors_frame len false _ outside.1)
  | case2 state pass done =>
    rw [setLoopAccesses, List.mem_append, not_or] at outside
    exact setColors_frame len false _ outside.1

theorem fadeColors_frame (fade : Fade) (state : LedState) : (fadeColors fade state).2.pxbuffer = state.pxbuffer := by
  fun_induction fadeColors fade state with
  | case1 fade state more color ih => exact ih
  | case2 fade state enough => rfl

theorem fadeLoop_frame (usehsv : Bool) (colstep : Nat) (fade : Fade) (state : LedState)
    (outside : address ∉ fadeLoopAccesses usehsv colstep fade state) :
    (fadeLoop usehsv colstep fade state).pxbuffer address = state.pxbuffer address := by
  fun_induction fadeLoop usehsv colstep fade state with
  | case1 fade state mixed set more ih =>
    rw [fadeLoopAccesses, List.mem_append, not_or, dif_pos more] at outside
    have kept := setNext_frame (mixed.1.shown usehsv) mixed.2 outside.1
    rw [ih outside.2, kept, fadeColors_frame]
  | case2 fade state mixed set done =>
    rw [fadeLoopAccesses, List.mem_append, not_or] at outside
    have kept := setNext_frame (mixed.1.shown usehsv) mixed.2 outside.1
    rw [kept, fadeColors_frame]

theorem rotLoop_frame {last : Nat} (rotation : Rotation last) (px : Nat → UInt8)
    (outside : address ∉ rotAccesses rotation) : rotLoop rotation px address = px address := by
  fun_induction rotLoop rotation px with
  | case1 rotation px moving ih =>
    rw [rotAccesses, dif_pos moving, List.mem_cons, List.mem_cons, not_or, not_or] at outside
    obtain ⟨first, next, rest⟩ := outside
    rw [ih rest]
    simp only [storePixel, if_neg first, if_neg next]
  | case2 rotation px done => rfl

theorem progFade_frame (faded : state.progFade len usehsv = some after)
    (outside : address ∉ state.progFadeAccesses len usehsv) :
    after.pxbuffer address = state.pxbuffer address := by
  unfold progFade at faded
  unfold progFadeAccesses at outside
  split at faded
  · rename_i short
    rw [if_pos short] at outside
    rw [← Option.some.inj faded]
    exact setLoop_frame _ _ _ outside
  · rename_i long
    rw [if_neg long] at outside
    dsimp only at faded outside
    split at faded
    · cases faded
    · rename_i range
      rw [if_neg range] at outside
      rw [← Option.some.inj faded]
      exact fadeLoop_frame _ _ _ _ outside

theorem colorCommand_frame (ran : state.colorCommand cmd = some after) (outside : address ∉ state.colorAccesses cmd) :
    after.pxbuffer address = state.pxbuffer address := by
  unfold colorCommand at ran
  unfold colorAccesses at outside
  split at ran
  · rename_i count ptr fetched
    simp only [fetched] at outside
    dsimp only at ran
    split at ran
    · rw [← Option.some.inj ran]
    · rename_i colors
      rw [if_neg colors] at outside
      split at ran
      · rename_i all
        rw [if_pos all] at outside
        rw [← Option.some.inj ran]
        exact setLoop_frame _ _ _ outside
      · rename_i fade
        rw [if_neg fade] at outside
        obtain ⟨faded, done, rfl⟩ := Option.map_eq_some_iff.mp ran
        have kept := progFade_frame done outside
        exact kept
  · rw [← Option.some.inj ran]

theorem progRot_frame (shift : Nat) (state : LedState) (outside : address ∉ state.progRotAccesses shift) :
    (state.progRot shift).pxbuffer address = state.pxbuffer address := by
  unfold progRotAccesses at outside
  unfold progRot
  split
  · rfl
  · rename_i bounds
    rw [dif_neg bounds] at outside
    exact rotLoop_frame _ _ outside

theorem rotateCommand_frame (cmd : Nat) (state : LedState) (outside : address ∉ state.rotateAccesses cmd) :
    (state.rotateCommand cmd).pxbuffer address = state.pxbuffer address := by
  unfold rotateAccesses at outside
  unfold rotateCommand
  dsimp only at outside ⊢
  split
  · rfl
  · rename_i some_
    rw [dif_neg some_] at outside
    exact progRot_frame _ { state with progPtr := (state.prog.fetchNum state.progPtr 1).2 } outside

/-- A command changes only bytes that it is said to access. -/
theorem runCommand_frame (ran : state.runCommand cmd = some after) (outside : address ∉ state.runAccesses cmd) :
    after.pxbuffer address = state.pxbuffer address := by
  unfold runCommand at ran
  unfold runAccesses at outside
  split at ran
  · rename_i single
    rw [if_pos single] at outside
    rw [← Option.some.inj ran]
    exact setNext_frame _ _ outside
  rename_i single
  rw [if_neg single] at outside
  split at ran
  · rename_i colors
    rw [if_pos colors] at outside
    exact colorCommand_frame ran outside
  rename_i colors
  rw [if_neg colors] at outside
  split at ran
  · rename_i rotates
    rw [if_pos rotates] at outside
    rw [← Option.some.inj ran]
    exact rotateCommand_frame cmd state outside
  -- the other commands leave the buffer alone
  all_goals
    repeat' split at ran
    all_goals rw [← Option.some.inj ran]
    all_goals rfl

/-- So does a pass of the loop. -/
theorem command_frame {pass : Pass LedState LedState} (ran : state.command = some pass)
    (outside : address ∉ state.commandAccesses) :
    ∀ after, pass = .again after ∨ pass = .leave after → after.pxbuffer address = state.pxbuffer address := by
  unfold command at ran
  dsimp only at ran
  split at ran
  · obtain rfl := Option.some.inj ran
    rintro after (again | leave)
    · cases again
    · rw [← Pass.leave.inj leave]
  split at ran
  · obtain rfl := Option.some.inj ran
    rintro after (again | leave)
    · cases again
    · rw [← Pass.leave.inj leave]
  · obtain ⟨other, done, rfl⟩ := Option.map_eq_some_iff.mp ran
    rintro after (again | leave)
    · rw [← Pass.again.inj again]
      have kept := runCommand_frame done outside
      exact kept
    · cases leave

theorem entry_pxbuffer (enters : state.entry now = some after) : after.pxbuffer = state.pxbuffer := by
  unfold entry at enters
  split at enters
  · cases enters
  split at enters
  · split at enters
    · rw [← Option.some.inj enters]
      rfl
    · cases enters
  · rw [← Option.some.inj enters]

theorem setNextAccesses_lt (member : address ∈ state.setNextAccesses) : address < state.rangeEnd * 3 := by
  unfold setNextAccesses at member
  split at member
  · cases member
  · simp only [List.mem_cons, List.not_mem_nil, or_false] at member
    omega

theorem setColorsAccesses_lt (count : Nat) (state : LedState) (member : address ∈ setColorsAccesses count state) :
    address < state.rangeEnd * 3 := by
  induction count generalizing state with
  | zero => cases member
  | succ count ih =>
    rcases List.mem_append.mp member with here | later
    · exact setNextAccesses_lt here
    · have inside := ih _ later
      rwa [(setFetched_cases state).1.rangeEnd] at inside

theorem setLoopAccesses_lt (len start : Nat) (state : LedState) (member : address ∈ setLoopAccesses len start state) :
    address < state.rangeEnd * 3 := by
  fun_induction setLoopAccesses len start state with
  | case1 state pass ih =>
    rcases List.mem_append.mp member with here | later
    · have inside := setColorsAccesses_lt len _ here
      exact inside
    · by_cases more : pass.1 = true
      · rw [dif_pos more] at later
        have inside := ih more later
        rwa [(setColors_keeps len false _).1.rangeEnd] at inside
      · rw [dif_neg more] at later
        cases later

theorem fadeLoopAccesses_lt (usehsv : Bool) (colstep : Nat) (fade : Fade) (state : LedState)
    (member : address ∈ fadeLoopAccesses usehsv colstep fade state) : address < state.rangeEnd * 3 := by
  fun_induction fadeLoopAccesses usehsv colstep fade state with
  | case1 fade state mixed set ih =>
    have mixes : mixed.2.rangeEnd = state.rangeEnd := (fadeColors_keeps fade state).rangeEnd
    rcases List.mem_append.mp member with here | later
    · have inside := setNextAccesses_lt here
      rwa [mixes] at inside
    · by_cases more : set.1 = true
      · rw [dif_pos more] at later
        have inside := ih more later
        rwa [(setNext_cases _ mixed.2).1.rangeEnd, mixes] at inside
      · rw [dif_neg more] at later
        cases later

theorem rotAccesses_lt {last : Nat} (rotation : Rotation last) (member : address ∈ rotAccesses rotation) :
    address < last := by
  fun_induction rotAccesses rotation with
  | case1 rotation moving ih =>
    have ordered := rotation.ordered.resolve_left moving
    rcases List.mem_cons.mp member with rfl | others
    · omega
    · rcases List.mem_cons.mp others with rfl | later
      · omega
      · exact ih later
  | case2 rotation met => cases member

theorem progRotAccesses_lt (shift : Nat) (state : LedState) (member : address ∈ state.progRotAccesses shift) :
    address < state.rangeEnd * 3 := by
  unfold progRotAccesses at member
  split at member
  · cases member
  · exact rotAccesses_lt _ member

theorem progFadeAccesses_lt (len : Nat) (usehsv : Bool) (state : LedState)
    (member : address ∈ state.progFadeAccesses len usehsv) : address < state.rangeEnd * 3 := by
  unfold progFadeAccesses at member
  split at member
  · have inside := setLoopAccesses_lt len _ _ member
    exact inside
  · dsimp only at member
    split at member
    · cases member
    · have inside := fadeLoopAccesses_lt _ _ _ _ member
      exact inside

theorem colorAccesses_lt (cmd : Nat) (state : LedState) (member : address ∈ state.colorAccesses cmd) :
    address < state.rangeEnd * 3 := by
  unfold colorAccesses at member
  split at member
  · rename_i count ptr _
    dsimp only at member
    split at member
    · cases member
    split at member
    · have inside := setLoopAccesses_lt count _ _ member
      exact inside
    · exact progFadeAccesses_lt count _ { state with progPtr := ptr } member
  · cases member

theorem rotateAccesses_lt (cmd : Nat) (state : LedState) (member : address ∈ state.rotateAccesses cmd) :
    address < state.rangeEnd * 3 := by
  unfold rotateAccesses at member
  dsimp only at member
  split at member
  · cases member
  · exact progRotAccesses_lt _ state member

theorem commandAccesses_lt (state : LedState) (member : address ∈ state.commandAccesses) :
    address < state.rangeEnd * 3 := by
  unfold commandAccesses runAccesses at member
  dsimp only at member
  split at member
  · have inside := setNextAccesses_lt member
    exact inside
  split at member
  · exact colorAccesses_lt _ { state with progPtr := (state.prog.fetchCmd state.progPtr).2 } member
  split at member
  · exact rotateAccesses_lt _ { state with progPtr := (state.prog.fetchCmd state.progPtr).2 } member
  · cases member

/-- `is_empty` reads up to the first word that is not zero. -/
theorem isEmptyFrom_reads (px : Nat → UInt8) (left index : Nat) :
    (isEmptyFrom px left index).2 ≤ index + left ∧
      ((isEmptyFrom px left index).1 = true → (isEmptyFrom px left index).2 = index + left) := by
  induction left generalizing index with
  | zero => exact ⟨Nat.le_refl _, fun _ => rfl⟩
  | succ left ih =>
    unfold isEmptyFrom
    split
    · have rest := ih (index + 1)
      constructor
      · omega
      · intro empty
        have all := rest.2 empty
        omega
    · exact ⟨by dsimp only; omega, nofun⟩

/-- Showing the buffer stays inside a block of whole words exactly if the pixels fit. -/
theorem showAccesses_inside_iff (pinPwr : Bool) (state : LedState) (words : Nat) :
    (∀ address ∈ state.showAccesses pinPwr, address < 4 * words) ↔ state.numpixels * 3 ≤ 4 * words := by
  have fits : pxWords state.numpixels ≤ words ↔ state.numpixels * 3 ≤ 4 * words := by
    unfold pxWords
    omega
  have shown : (∀ address ∈ List.range (state.numpixels * 3), address < 4 * words) ↔
      state.numpixels * 3 ≤ 4 * words := by
    constructor
    · intro inside
      by_contra beyond
      have last := inside (4 * words) (List.mem_range.mpr (by omega))
      omega
    · intro enough address member
      have below := List.mem_range.mp member
      omega
  unfold showAccesses
  cases pinPwr with
  | false => exact shown
  | true =>
    obtain ⟨most, all⟩ := isEmptyFrom_reads state.pxbuffer (pxWords state.numpixels) 0
    dsimp only
    rw [if_pos rfl]
    unfold isEmpty
    constructor
    · intro inside
      cases empty : (isEmptyFrom state.pxbuffer (pxWords state.numpixels) 0).1 with
      | false =>
        refine shown.mp fun address member => inside address (List.mem_append_right _ ?_)
        rw [empty]
        exact member
      | true =>
        have read := all empty
        by_contra beyond
        have last := inside (4 * words) (List.mem_append_left _ (List.mem_range.mpr (by omega)))
        omega
    · intro enough address member
      have room := fits.mpr enough
      rcases List.mem_append.mp member with word | pixel
      · have below := List.mem_range.mp word
        omega
      · split at pixel
        · cases pixel
        · exact shown.mpr enough address pixel

end LedState

namespace LedStrip

variable {strip after : LedStrip}

/-- The bytes that the strip reads and writes next: by a command, or to show the buffer. -/
def accesses (pinPwr : Bool) (strip : LedStrip) : List Nat :=
  if strip.running then strip.led.commandAccesses else strip.led.showAccesses pinPwr

/-- The pixels fit into the block that `alloc` gets for `maxpixels`. -/
def Fits (strip : LedStrip) : Prop := strip.led.numpixels * 3 ≤ jdAlloc (pxWords strip.maxpixels)

instance (strip : LedStrip) : Decidable strip.Fits := inferInstanceAs (Decidable (_ ≤ _))

/-- A run in which the pixels fit at all times. -/
def FittingRun : LedStrip → LedStrip → Prop :=
  Relation.ReflTransGen fun before after => LedStep before after ∧ after.Fits

/-- The block is the one that `alloc` asked for. -/
def Backed (strip : LedStrip) : Prop := strip.block = jdAlloc (pxWords strip.maxpixels)

theorem Backed.step (backed : Backed strip) (step : LedStep strip after) : Backed after := by
  cases step with
  | alloc idle availableMemory =>
    unfold LedStrip.alloc
    split
    · exact backed
    · rfl
  | runCmd idle now data fits => exact backed
  | setNumPixels idle value small => exact backed
  | setNumRepeats idle value => exact backed
  | transmit idle inTx dirty => exact backed
  | enter idle now enters => exact backed
  | again busy ran => exact backed
  | leave busy ran => exact backed

theorem start_backed (small : numpixels < 65536) (availableMemory : Nat) :
    Backed (start numpixels small availableMemory) := rfl

theorem Backed.reaches (backed : Backed strip) (reaches : LedReaches strip after) : Backed after := by
  induction reaches with
  | refl => exact backed
  | tail _ step ih => exact ih.step step

/-- Before there is room for a pixel the block is empty. -/
theorem Backed.block_eq_zero (backed : Backed strip) (none_ : ¬ strip.maxpixels ≠ 0) : strip.block = 0 := by
  rw [Backed, not_not.mp none_] at backed
  exact backed

/-- The range ends inside the block. -/
structure Housed (strip : LedStrip) : Prop where
  backed : Backed strip
  fits : strip.Fits
  rangeEnd : strip.led.rangeEnd * 3 ≤ strip.block

theorem Housed.kept (housed : Housed strip) {led : LedState} (kept : LedState.RangeKept strip.led led) :
    led.rangeEnd * 3 ≤ strip.block := by
  have fits : strip.led.numpixels * 3 ≤ strip.block := housed.backed ▸ housed.fits
  have range := housed.rangeEnd
  rcases kept.rangeEnd with same | inside
  · rwa [same]
  · omega

theorem Housed.alloc (housed : Housed strip) (availableMemory : Nat) :
    (strip.alloc availableMemory).led.rangeEnd * 3 ≤ (strip.alloc availableMemory).block := by
  have range := housed.rangeEnd
  unfold LedStrip.alloc
  split
  · exact range
  · rename_i none_
    have empty := housed.backed.block_eq_zero none_
    dsimp only
    omega

theorem Housed.step (housed : Housed strip) (step : LedStep strip after) (fits : after.Fits) : Housed after := by
  refine ⟨housed.backed.step step, fits, ?_⟩
  cases step with
  | runCmd idle now data short =>
    have kept : LedState.RangeKept strip.led (strip.led.handleRunCmd now data short) := ⟨rfl, .inr (Nat.le_refl _)⟩
    exact housed.kept kept
  | setNumPixels idle value small => exact housed.rangeEnd
  | setNumRepeats idle value => exact housed.rangeEnd
  | alloc idle availableMemory => exact housed.alloc availableMemory
  | transmit idle inTx dirty => exact housed.rangeEnd
  | enter idle now enters => exact housed.kept (LedState.entry_range enters)
  | again busy ran => exact housed.kept (LedState.command_range ran _ (.inl rfl))
  | leave busy ran => exact housed.kept (LedState.command_range ran _ (.inr rfl))

theorem Housed.run (housed : Housed strip) (run : FittingRun strip after) : Housed after := by
  induction run with
  | refl => exact housed
  | tail _ step ih => exact ih.step step.1 step.2

/-- A step from a state that fits keeps the memory behind the block. -/
theorem Housed.step_frame (housed : Housed strip) (step : LedStep strip after) (behind : after.block ≤ address) :
    strip.block ≤ address ∧ after.led.pxbuffer address = strip.led.pxbuffer address := by
  have range := housed.rangeEnd
  cases step with
  | runCmd idle now data short => exact ⟨behind, rfl⟩
  | setNumPixels idle value small => exact ⟨behind, rfl⟩
  | setNumRepeats idle value => exact ⟨behind, rfl⟩
  | alloc idle availableMemory =>
    unfold LedStrip.alloc at behind ⊢
    split at behind
    · rename_i present
      rw [if_pos present]
      exact ⟨behind, rfl⟩
    · rename_i none_
      rw [if_neg none_]
      have empty := housed.backed.block_eq_zero none_
      exact ⟨empty ▸ Nat.zero_le _, if_neg (Nat.not_lt.mpr behind)⟩
  | transmit idle inTx dirty => exact ⟨behind, rfl⟩
  | enter idle now enters => exact ⟨behind, congrFun (LedState.entry_pxbuffer enters) address⟩
  | again busy ran =>
    refine ⟨behind, LedState.command_frame ran (fun member => ?_) _ (.inl rfl)⟩
    have below := strip.led.commandAccesses_lt member
    dsimp only at behind
    omega
  | leave busy ran =>
    refine ⟨behind, LedState.command_frame ran (fun member => ?_) _ (.inr rfl)⟩
    have below := strip.led.commandAccesses_lt member
    dsimp only at behind
    omega

theorem Housed.run_frame (housed : Housed strip) (run : FittingRun strip after) (behind : after.block ≤ address) :
    strip.block ≤ address ∧ after.led.pxbuffer address = strip.led.pxbuffer address := by
  induction run with
  | refl => exact ⟨behind, rfl⟩
  | tail before step ih =>
    obtain ⟨earlier, same⟩ := (housed.run before).step_frame step.1 behind
    obtain ⟨first, kept⟩ := ih earlier
    exact ⟨first, same.trans kept⟩

theorem Backed.show_inside_iff (backed : Backed strip) (pinPwr : Bool) :
    (∀ address ∈ strip.led.showAccesses pinPwr, address < strip.block) ↔ strip.Fits := by
  have words : strip.block = 4 * ((pxWords strip.maxpixels + 3) / 4) := backed.trans (Nat.mul_comm _ _)
  unfold Fits
  rw [← backed, words]
  exact LedState.showAccesses_inside_iff pinPwr strip.led _

theorem Housed.accesses_inside (housed : Housed strip) (pinPwr : Bool) :
    ∀ address ∈ strip.accesses pinPwr, address < strip.block := by
  intro address member
  unfold accesses at member
  split at member
  · have below := LedState.commandAccesses_lt strip.led member
    have range := housed.rangeEnd
    omega
  · exact (housed.backed.show_inside_iff pinPwr).mpr housed.fits address member

/-- In a run in which the pixels fit into the block at all times, every access to
the buffer is inside the block, and the memory behind it stays as it was; and the
buffer can be shown without an access behind the block exactly if they fit. -/
theorem pixel_accesses_inside_iff (numpixels : Nat) (small : numpixels < 65536) (availableMemory : Nat)
    (pinPwr : Bool) :
    ((start numpixels small availableMemory).Fits →
      ∀ strip, FittingRun (start numpixels small availableMemory) strip →
        (∀ address ∈ strip.accesses pinPwr, address < strip.block) ∧
        ∀ address, strip.block ≤ address →
          strip.led.pxbuffer address = (start numpixels small availableMemory).led.pxbuffer address) ∧
    ∀ strip, LedReaches (start numpixels small availableMemory) strip → strip.running = false →
      ((∀ address ∈ strip.accesses pinPwr, address < strip.block) ↔ strip.Fits) := by
  have backed := start_backed small availableMemory
  constructor
  · intro fits strip run
    have housed : Housed (start numpixels small availableMemory) := ⟨backed, fits, Nat.zero_le _⟩
    exact ⟨(housed.run run).accesses_inside pinPwr, fun address behind => (housed.run_frame run behind).2⟩
  · intro strip reaches idle
    rw [accesses, if_neg (by rw [idle]; decide)]
    exact (backed.reaches reaches).show_inside_iff pinPwr

/-- A program that sets the last of eighty pixels. -/
def setEightieth : LedStrip := loaded 80 (by decide) 1000 [0xCF, 79, 1, 2, 3] (by decide)

theorem accesses_first {strip : LedStrip} (busy : strip.running = true) (start : strip.led.progPtr = 0)
    (fetched : strip.led.prog.fetchCmd 0 = (lightProgCol1Set, 1)) (pinPwr : Bool) :
    strip.accesses pinPwr = LedState.runAccesses lightProgCol1Set { strip.led with progPtr := 1 } := by
  rw [accesses, if_pos busy, LedState.commandAccesses, start, fetched]

/-- Eighty pixels fit where there is room for 332 of them, and the last one is inside the block. -/
theorem pixel_accesses_inside_iff_eighty :
    FittingRun (start 80 (by decide) 1000) setEightieth ∧ setEightieth.accesses true = [237, 238, 239] ∧
      ∀ address ∈ setEightieth.accesses true, address < setEightieth.block := by
  have fits : (start 80 (by decide) 1000).Fits := by decide
  have received : FittingRun (start 80 (by decide) 1000) { start 80 (by decide) 1000 with
      led := (start 80 (by decide) 1000).led.handleRunCmd 0 [0xCF, 79, 1, 2, 3] (by decide) } :=
    .single ⟨.runCmd rfl 0 _ (by decide), fits⟩
  have run : FittingRun (start 80 (by decide) 1000) setEightieth :=
    received.tail ⟨.enter rfl 1 (LedState.entry_handleRunCmd rfl (by decide) (by decide)), fits⟩
  have touched : setEightieth.accesses true = [237, 238, 239] := by
    rw [accesses_first rfl rfl (LedProgram.fetchCmd_of_cmd _ (by decide))]
    decide
  exact ⟨run, touched, ((pixel_accesses_inside_iff 80 (by decide) 1000 true).1 fits _ run).1⟩

/-- A program that sets the last of a hundred pixels. -/
def setLast : LedStrip := loaded 100 (by decide) 1000 [0xCF, 99, 1, 2, 3] (by decide)

/-- It writes behind the block, which has 252 bytes. -/
theorem pixel_written_behind_block :
    ¬ ∀ (numpixels : Nat) (small : numpixels < 65536) (availableMemory : Nat) (pinPwr : Bool) (strip : LedStrip),
      numpixels ≤ (start numpixels small availableMemory).maxpixels →
      LedReaches (start numpixels small availableMemory) strip →
      ∀ address ∈ strip.accesses pinPwr, address < strip.block := by
  intro holds
  have touched : setLast.accesses true = [297, 298, 299] := by
    rw [accesses_first rfl rfl (LedProgram.fetchCmd_of_cmd _ (by decide))]
    decide
  have inside := holds 100 (by decide) 1000 true setLast (by decide)
    (reaches_loaded (by decide) 1000 _ _ (by decide)) 297 (by rw [touched]; decide)
  exact absurd inside (by decide)

end LedStrip

end Jacdac
