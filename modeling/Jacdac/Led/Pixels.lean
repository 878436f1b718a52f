import Jacdac.Led.Program

/-! The pixel commands of `ledstrip.c`: each is a loop over the selected range,
and each of these loops ends. -/

namespace Jacdac

/-- The fields of `srv_state` that a program reads or writes. -/
structure LedState where
  prog : LedProgram
  progPtr : Nat
  numpixels : Nat
  numRepeats : Nat
  inTx : Bool
  dirty : Bool
  progMode : Nat
  progTmpmode : Nat
  rangeStart : Nat
  rangeEnd : Nat
  rangeLen : Nat
  rangePtr : Nat
  progNextStep : Nat
  pxbuffer : Nat → UInt8
  numpixels_lt : numpixels < 65536
  range_le : rangeStart ≤ rangeEnd
  rangeEnd_lt : rangeEnd < 65536
  rangeLen_eq : rangeLen = rangeEnd - rangeStart

def hsv (hue sat val : UInt8) : Rgb :=
  let hue := hue.toNat * 192 / 256
  let invsat := 255 - sat.toNat
  let brightnessFloor := val.toNat * invsat / 256
  let colorAmplitude := val.toNat - brightnessFloor
  let section_ := hue / 0x40
  let offset := hue % 0x40
  let rampup := offset
  let rampdown := 0x40 - 1 - offset
  let rampupAmpAdj := rampup * colorAmplitude / (256 / 4)
  let rampdownAmpAdj := rampdown * colorAmplitude / (256 / 4)
  let rampupAdjWithFloor := rampupAmpAdj + brightnessFloor
  let rampdownAdjWithFloor := rampdownAmpAdj + brightnessFloor
  if section_ ≠ 0 then
    if section_ = 1 then rgb brightnessFloor rampdownAdjWithFloor rampupAdjWithFloor
    else rgb rampupAdjWithFloor brightnessFloor rampdownAdjWithFloor
  else rgb rampdownAdjWithFloor rampupAdjWithFloor brightnessFloor

def mulcol (c m : Int) : Int :=
  let c2 := c * m / 128
  if m < 128 ∧ c = c2 then c2 - 1
  else if m > 128 ∧ c = c2 then c2 + 1
  else c2

def clamp (c : Int) : Int := if c < 0 then 0 else if c > 255 then 255 else c

/-- One color channel of `set_next`, for the modes after the fast path. -/
def mixChannel (mode : Nat) (old new : UInt8) : UInt8 :=
  let result : Int :=
    if mode = 1 then old.toNat + new.toNat
    else if mode = 2 then old.toNat - new.toNat
    else if mode = 3 then mulcol old.toNat new.toNat
    else old.toNat
  .ofNat (clamp result).toNat

/-- The pixel bytes with one byte stored. -/
def storePixel (px : Nat → UInt8) (address : Nat) (value : UInt8) : Nat → UInt8 :=
  fun other => if other = address then value else px other

/-- The end of a fade, at the truncated `prog_ptr + 3 * len`. -/
def fadeEnd (ptr len : Nat) : Nat := u8 (ptr + 3 * len)

namespace LedState

def resetRange (state : LedState) : LedState := { state with rangePtr := state.rangeStart }

def setNext (c : Rgb) (state : LedState) : Bool × LedState :=
  if state.rangeEnd ≤ state.rangePtr then (false, state)
  else
    let p := state.rangePtr * 3
    let px := state.pxbuffer
    let channel (offset : Nat) (value : UInt8) :=
      if state.progTmpmode = 0 then value else mixChannel state.progTmpmode (px (p + offset)) value
    let px := storePixel (storePixel (storePixel px p (channel 0 c.r)) (p + 1) (channel 1 c.g)) (p + 2) (channel 2 c.b)
    (true, { state with rangePtr := u16 (state.rangePtr + 1), pxbuffer := px })

/-- What a loop over the range leaves alone. -/
structure KeepsRange (before after : LedState) : Prop where
  prog : after.prog = before.prog
  numpixels : after.numpixels = before.numpixels
  rangeEnd : after.rangeEnd = before.rangeEnd
  rangeLen : after.rangeLen = before.rangeLen
  rangePtr : before.rangePtr ≤ after.rangePtr

theorem KeepsRange.refl (state : LedState) : KeepsRange state state := ⟨rfl, rfl, rfl, rfl, Nat.le_refl _⟩

theorem KeepsRange.trans {first second third : LedState} (early : KeepsRange first second)
    (late : KeepsRange second third) : KeepsRange first third where
  prog := late.prog.trans early.prog
  numpixels := late.numpixels.trans early.numpixels
  rangeEnd := late.rangeEnd.trans early.rangeEnd
  rangeLen := late.rangeLen.trans early.rangeLen
  rangePtr := early.rangePtr.trans late.rangePtr

/-- Setting a pixel moves on to the next one, unless the range is used up. -/
theorem setNext_cases (c : Rgb) (state : LedState) :
    KeepsRange state (state.setNext c).2 ∧ (state.setNext c).2.progPtr = state.progPtr ∧
      ((state.setNext c).1 = true →
        state.rangePtr < state.rangeEnd ∧ state.rangePtr < (state.setNext c).2.rangePtr) := by
  have bound := state.rangeEnd_lt
  unfold setNext
  split
  · exact ⟨⟨rfl, rfl, rfl, rfl, Nat.le_refl _⟩, rfl, nofun⟩
  · have next : u16 (state.rangePtr + 1) = state.rangePtr + 1 := u16_of_lt (by omega)
    have moves : state.rangePtr < u16 (state.rangePtr + 1) := by omega
    exact ⟨⟨rfl, rfl, rfl, rfl, moves.le⟩, rfl, fun _ => ⟨by omega, moves⟩⟩

/-- `set_next(state, prog_fetch_color(state))`. -/
def setFetched (state : LedState) : Bool × LedState :=
  let color := state.prog.fetchColor state.progPtr
  { state with progPtr := color.2 }.setNext color.1

theorem setFetched_cases (state : LedState) :
    KeepsRange state state.setFetched.2 ∧ state.setFetched.2.progPtr = (state.prog.fetchColor state.progPtr).2 ∧
      (state.setFetched.1 = true →
        state.rangePtr < state.rangeEnd ∧ state.rangePtr < state.setFetched.2.rangePtr) := by
  obtain ⟨kept, ptr, moves⟩ := setNext_cases (state.prog.fetchColor state.progPtr).1
    { state with progPtr := (state.prog.fetchColor state.progPtr).2 }
  exact ⟨⟨kept.prog, kept.numpixels, kept.rangeEnd, kept.rangeLen, kept.rangePtr⟩, ptr, moves⟩

/-- The inner loop of `prog_set`. -/
def setColors : Nat → Bool → LedState → Bool × LedState
  | 0, ok, state => (ok, state)
  | count + 1, _, state => setColors count state.setFetched.1 state.setFetched.2

theorem setColors_keeps (count : Nat) (ok : Bool) (state : LedState) :
    KeepsRange state (setColors count ok state).2 ∧
      (setColors count ok state).2.progPtr = state.prog.skipColors count state.progPtr := by
  induction count generalizing ok state with
  | zero => exact ⟨.refl state, rfl⟩
  | succ count ih =>
    obtain ⟨kept, ptr, _⟩ := setFetched_cases state
    obtain ⟨rest, ends⟩ := ih state.setFetched.1 state.setFetched.2
    refine ⟨kept.trans rest, ?_⟩
    rw [kept.prog, ptr] at ends
    exact ends

/-- A pass that ends well used up some of the range. -/
theorem setColors_moves (count : Nat) (ok : Bool) (state : LedState) (well : (setColors count ok state).1 = true) :
    ok = true ∨ (state.rangePtr < state.rangeEnd ∧ state.rangePtr < (setColors count ok state).2.rangePtr) := by
  induction count generalizing ok state with
  | zero => exact .inl well
  | succ count ih =>
    obtain ⟨kept, _, moves⟩ := setFetched_cases state
    have rest := (setColors_keeps count state.setFetched.1 state.setFetched.2).1.rangePtr
    rcases ih state.setFetched.1 state.setFetched.2 well with set | ⟨inside, later⟩
    · obtain ⟨inside, moved⟩ := moves set
      exact .inr ⟨inside, moved.trans_le rest⟩
    · rw [kept.rangeEnd] at inside
      exact .inr ⟨kept.rangePtr.trans_lt inside, kept.rangePtr.trans_lt later⟩

/-- A pass over the colors that goes on leaves a shorter range. -/
theorem setPass_shorter {len start : Nat} {state : LedState}
    (ok : (setColors len false { state with progPtr := start }).1 = true) :
    (setColors len false { state with progPtr := start }).2.rangeEnd -
        (setColors len false { state with progPtr := start }).2.rangePtr < state.rangeEnd - state.rangePtr := by
  have kept := (setColors_keeps len false { state with progPtr := start }).1
  have moves := (setColors_moves len false { state with progPtr := start } ok).resolve_left nofun
  have ends := kept.rangeEnd
  simp only at moves ends
  omega

/-- The outer loop of `prog_set`. -/
def setLoop (len start : Nat) (state : LedState) : LedState :=
  let pass := setColors len false { state with progPtr := start }
  if _ok : pass.1 then setLoop len start pass.2 else pass.2
termination_by state.rangeEnd - state.rangePtr
decreasing_by exact setPass_shorter _ok

def progSet (len : Nat) (state : LedState) : LedState :=
  setLoop len state.progPtr state.resetRange

/-- What `prog_fade` keeps between its pixels. -/
structure Fade where
  colidx : Nat
  colpos : Nat
  col0 : Rgb
  col1 : Rgb

/-- The inner loop of `prog_fade`, which moves on to the next color. -/
def fadeColors (fade : Fade) (state : LedState) : Fade × LedState :=
  if fade.colidx < fade.colpos / 65536 then
    let color := state.prog.fetchColor state.progPtr
    fadeColors { fade with colidx := fade.colidx + 1, col0 := fade.col1, col1 := color.1 }
      { state with progPtr := color.2 }
  else (fade, state)
termination_by fade.colpos / 65536 - fade.colidx

theorem fadeColors_keeps (fade : Fade) (state : LedState) : KeepsRange state (fadeColors fade state).2 := by
  fun_induction fadeColors fade state with
  | case1 fade state more color ih => exact ⟨ih.prog, ih.numpixels, ih.rangeEnd, ih.rangeLen, ih.rangePtr⟩
  | case2 fade state enough => exact .refl state

def Fade.color (fade : Fade) : Rgb :=
  let fade1 := fade.colpos % 65536
  let fade0 := 0xffff - fade1
  let mix (first second : UInt8) := (first.toNat * fade0 + second.toNat * fade1 + 0x8000) / 65536
  rgb (mix fade.col0.r fade.col1.r) (mix fade.col0.g fade.col1.g) (mix fade.col0.b fade.col1.b)

def Fade.shown (usehsv : Bool) (fade : Fade) : Rgb :=
  if usehsv then hsv fade.color.r fade.color.g fade.color.b else fade.color

/-- So does a pixel of a fade. -/
theorem fadePass_shorter {usehsv : Bool} {fade : Fade} {state : LedState}
    (set : ((fadeColors fade state).2.setNext ((fadeColors fade state).1.shown usehsv)).1 = true) :
    ((fadeColors fade state).2.setNext ((fadeColors fade state).1.shown usehsv)).2.rangeEnd -
        ((fadeColors fade state).2.setNext ((fadeColors fade state).1.shown usehsv)).2.rangePtr <
      state.rangeEnd - state.rangePtr := by
  have kept := fadeColors_keeps fade state
  obtain ⟨keeps, _, moves⟩ := setNext_cases ((fadeColors fade state).1.shown usehsv) (fadeColors fade state).2
  have moves := moves set
  have ends := keeps.rangeEnd
  have inside := kept.rangeEnd
  have later := kept.rangePtr
  omega

/-- The outer loop of `prog_fade`. -/
def fadeLoop (usehsv : Bool) (colstep : Nat) (fade : Fade) (state : LedState) : LedState :=
  let mixed := fadeColors fade state
  let set := mixed.2.setNext (mixed.1.shown usehsv)
  if _set : set.1 then
    fadeLoop usehsv colstep { mixed.1 with colpos := u32 (mixed.1.colpos + colstep) } set.2
  else set.2
termination_by state.rangeEnd - state.rangePtr
decreasing_by exact fadePass_shorter _set

theorem fadeLoop_keeps (usehsv : Bool) (colstep : Nat) (fade : Fade) (state : LedState) :
    KeepsRange state (fadeLoop usehsv colstep fade state) := by
  fun_induction fadeLoop usehsv colstep fade state with
  | case1 fade state mixed set more ih =>
    exact ((fadeColors_keeps fade state).trans (setNext_cases _ mixed.2).1).trans ih
  | case2 fade state mixed set done =>
    exact (fadeColors_keeps fade state).trans (setNext_cases _ mixed.2).1

/-- `prog_fade`; an empty range divides by zero. -/
def progFade (len : Nat) (usehsv : Bool) (state : LedState) : Option LedState :=
  if len < 2 then some (state.progSet len)
  else
    let endp := fadeEnd state.progPtr len
    let col0 := state.prog.fetchColor state.progPtr
    let col1 := state.prog.fetchColor col0.2
    if state.rangeLen = 0 then none
    else
      let colstep := u32 ((len - 1) * 65536) / state.rangeLen
      let state := { state with progPtr := col1.2 }.resetRange
      some { fadeLoop usehsv colstep ⟨0, 0, col0.1, col1.1⟩ state with progPtr := endp }

/-- The pointers of `prog_rot`: the block before `middle` is swapped along the
range until it has passed through it. -/
structure Rotation (last : Nat) where
  first : Nat
  middle : Nat
  next : Nat
  ordered : first = next ∨ (first < middle ∧ middle ≤ next ∧ next < last)

def Rotation.step {last : Nat} (rotation : Rotation last) (moving : rotation.first ≠ rotation.next) : Rotation last :=
  have ordered := rotation.ordered.resolve_left moving
  if atEnd : rotation.next + 1 = last then ⟨rotation.first + 1, rotation.middle, rotation.middle, by omega⟩
  else if passed : rotation.first + 1 = rotation.middle then
    ⟨rotation.first + 1, rotation.next + 1, rotation.next + 1, by omega⟩
  else ⟨rotation.first + 1, rotation.middle, rotation.next + 1, by omega⟩

theorem Rotation.step_first {last : Nat} (rotation : Rotation last) (moving : rotation.first ≠ rotation.next) :
    (rotation.step moving).first = rotation.first + 1 := by
  unfold Rotation.step
  split
  · rfl
  · split <;> rfl

theorem Rotation.step_shorter {last : Nat} (rotation : Rotation last) (moving : rotation.first ≠ rotation.next) :
    last - (rotation.step moving).first < last - rotation.first := by
  have ordered := rotation.ordered.resolve_left moving
  rw [rotation.step_first moving]
  omega

/-- The loop of `prog_rot`. -/
def rotLoop {last : Nat} (rotation : Rotation last) (px : Nat → UInt8) : Nat → UInt8 :=
  if moving : rotation.first ≠ rotation.next then
    rotLoop (rotation.step moving)
      (storePixel (storePixel px rotation.first (px rotation.next)) rotation.next (px rotation.first))
  else px
termination_by last - rotation.first
decreasing_by exact rotation.step_shorter moving

def progRot (shift : Nat) (state : LedState) : LedState :=
  if bounds : shift = 0 ∨ state.rangeLen ≤ shift then state
  else
    have ends : state.rangeEnd = state.rangeStart + state.rangeLen := by
      have start := state.range_le
      have len := state.rangeLen_eq
      omega
    let middle := (state.rangeStart + shift) * 3
    let rotation : Rotation (state.rangeEnd * 3) :=
      ⟨state.rangeStart * 3, middle, middle, .inr ⟨by omega, Nat.le_refl _, by omega⟩⟩
    { state with pxbuffer := rotLoop rotation state.pxbuffer }

/-- The loop that brings a rotation below the length of the range. -/
def reduceShift (len shift : Nat) (positive : 0 < len) : Nat :=
  if len ≤ shift then reduceShift len (shift - len) positive else shift
termination_by shift

/-- The setLoop pointer ends after the colors of one pass. -/
theorem setLoop_keeps (len start : Nat) (state : LedState) :
    KeepsRange state (setLoop len start state) ∧
      (setLoop len start state).progPtr = state.prog.skipColors len start := by
  fun_induction setLoop len start state with
  | case1 state pass more ih =>
    obtain ⟨kept, _⟩ := setColors_keeps len false { state with progPtr := start }
    have kept : KeepsRange state pass.2 := ⟨kept.prog, kept.numpixels, kept.rangeEnd, kept.rangeLen, kept.rangePtr⟩
    refine ⟨kept.trans ih.1, ?_⟩
    rw [← kept.prog]
    exact ih.2
  | case2 state pass done =>
    obtain ⟨kept, ptr⟩ := setColors_keeps len false { state with progPtr := start }
    exact ⟨⟨kept.prog, kept.numpixels, kept.rangeEnd, kept.rangeLen, kept.rangePtr⟩, ptr⟩

/-- What every pixel command leaves alone. -/
structure KeepsStrip (before after : LedState) : Prop where
  prog : after.prog = before.prog
  numpixels : after.numpixels = before.numpixels
  rangeLen : after.rangeLen = before.rangeLen

theorem progSet_keeps (len : Nat) (state : LedState) :
    KeepsStrip state (state.progSet len) ∧ (state.progSet len).progPtr = state.prog.skipColors len state.progPtr := by
  obtain ⟨kept, ptr⟩ := setLoop_keeps len state.progPtr state.resetRange
  exact ⟨⟨kept.prog, kept.numpixels, kept.rangeLen⟩, ptr⟩

/-- A fade fails on an empty range only, and ends where its colors should. -/
theorem progFade_cases (len : Nat) (usehsv : Bool) (state : LedState) :
    (2 ≤ len ∧ state.rangeLen = 0 ∧ state.progFade len usehsv = none) ∨
      (¬ (2 ≤ len ∧ state.rangeLen = 0) ∧ ∃ after, state.progFade len usehsv = some after ∧ KeepsStrip state after ∧
        after.progPtr =
          if len < 2 then state.prog.skipColors len state.progPtr else fadeEnd state.progPtr len) := by
  unfold progFade
  by_cases short : len < 2
  · obtain ⟨kept, ptr⟩ := state.progSet_keeps len
    refine .inr ⟨by omega, state.progSet len, if_pos short, kept, ?_⟩
    rw [if_pos short, ptr]
  · by_cases empty : state.rangeLen = 0
    · refine .inl ⟨by omega, empty, ?_⟩
      rw [if_neg short, if_pos empty]
    · simp only [if_neg short, if_neg empty]
      refine .inr ⟨fun both => empty both.2, _, rfl, ?_, rfl⟩
      have kept := fadeLoop_keeps usehsv (u32 ((len - 1) * 65536) / state.rangeLen)
        ⟨0, 0, (state.prog.fetchColor state.progPtr).1,
          (state.prog.fetchColor (state.prog.fetchColor state.progPtr).2).1⟩
        { state with progPtr := (state.prog.fetchColor (state.prog.fetchColor state.progPtr).2).2 }.resetRange
      exact ⟨kept.prog, kept.numpixels, kept.rangeLen⟩

theorem progRot_keeps (shift : Nat) (state : LedState) :
    KeepsStrip state (state.progRot shift) ∧ (state.progRot shift).progPtr = state.progPtr := by
  unfold progRot
  split
  · exact ⟨⟨rfl, rfl, rfl⟩, rfl⟩
  · exact ⟨⟨rfl, rfl, rfl⟩, rfl⟩

end LedState

end Jacdac
