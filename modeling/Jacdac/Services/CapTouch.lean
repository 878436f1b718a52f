import Jacdac.Frame.Packets

/-! The capacitive touch pads of `multicaptouch.c`: `update` over whole runs. The logs
and the history are left out. -/

namespace Jacdac

/-- `pin_t`, as far as events depend on it. -/
structure TouchPin where
  ticksPressed : Int
  startDebounced : Nat
  deriving DecidableEq, Repr

inductive TouchEvent where
  | touch (pin : Nat)
  | release (pin : Nat)
  | swipePos
  | swipeNeg
  deriving DecidableEq, Repr

namespace TouchPin

/-- `PRESS_TICKS` is 1. -/
def isPressed (pin : TouchPin) : Bool := pin.ticksPressed ≥ 1

def tick (reading : Nat) (pin : TouchPin) : TouchPin :=
  let ticks := if reading > 100 then pin.ticksPressed + 1 else pin.ticksPressed - 1
  { pin with ticksPressed := if ticks > 2 then 2 else if ticks < 0 then 0 else ticks }

end TouchPin

/-- The difference of two times, as an `int`. -/
def signedDelta (later earlier : Nat) : Int :=
  let delta := u32 (later + 4294967296 - earlier)
  if delta < 2147483648 then delta else (delta : Int) - 4294967296

/-- The loop of `detect_swipe` over neighbouring pins; `none` where it returns. -/
def swipeDelta (delta : Int) : List TouchPin → Option Int
  | first :: second :: rest =>
    let d0 := signedDelta second.startDebounced first.startDebounced
    if d0.natAbs ≤ 500 then swipeDelta (delta + d0.sign) (second :: rest) else none
  | _ => some delta

def detectSwipe (pins : List TouchPin) : List TouchPin × List TouchEvent :=
  if pins.length < 3 then (pins, [])
  else
    match swipeDelta 0 pins with
    | none => (pins, [])
    | some delta =>
      (pins.map fun pin => { pin with startDebounced := 0 },
        if -2 < delta ∧ delta < 2 then [] else if delta > 0 then [.swipePos] else [.swipeNeg])

/-- `start_debounced` of a pin that is touched. -/
def TouchPin.touched (nowms : Nat) (pin : TouchPin) : TouchPin :=
  if u32 (nowms + 4294967296 - pin.startDebounced) > 500 then { pin with startDebounced := nowms } else pin

/-- A finger has come down on a pin. -/
def touchDown (nowms index : Nat) (pins : List TouchPin) : List TouchPin × List TouchEvent :=
  let pins := pins.modify index (TouchPin.touched nowms)
  ((detectSwipe pins).1, .touch index :: (detectSwipe pins).2)

/-- One turn of the loop of `update`. -/
def updatePin (nowms index reading : Nat) (pins : List TouchPin) : List TouchPin × List TouchEvent :=
  match pins[index]? with
  | none => (pins, [])
  | some pin =>
    let moved := pins.modify index (TouchPin.tick reading)
    if (pin.tick reading).isPressed ≠ pin.isPressed then
      if (pin.tick reading).isPressed then touchDown nowms index moved else (moved, [.release index])
    else (moved, [])

/-- `update`, on the readings of all pins from an index on. -/
def updateFrom (nowms : Nat) : Nat → List Nat → List TouchPin → List TouchPin × List TouchEvent
  | _, [], pins => (pins, [])
  | index, reading :: readings, pins =>
    let first := updatePin nowms index reading pins
    let rest := updateFrom nowms (index + 1) readings first.1
    (rest.1, first.2 ++ rest.2)

/-- The calls of `update`, at these times and with these readings. -/
def touchRun (pins : List TouchPin) : List (Nat × List Nat) → List TouchPin × List TouchEvent
  | [] => (pins, [])
  | (nowms, readings) :: later =>
    let first := updateFrom nowms 0 readings pins
    let rest := touchRun first.1 later
    (rest.1, first.2 ++ rest.2)

/-- The count of a pin. -/
def ticksAt (index : Nat) (pins : List TouchPin) : Option Int := pins[index]?.map TouchPin.ticksPressed

def pressedAt (index : Nat) (pins : List TouchPin) : Bool := (ticksAt index pins).getD 0 ≥ 1

/-- A count after a reading. -/
def tickNext (ticks : Int) (reading : Nat) : Int :=
  let ticks := if reading > 100 then ticks + 1 else ticks - 1
  if ticks > 2 then 2 else if ticks < 0 then 0 else ticks

/-- The events of one pin on its way from released or pressed to released or pressed. -/
inductive TouchPath (index : Nat) : Bool → List TouchEvent → Bool → Prop where
  | same : TouchPath index pressed [] pressed
  | touch (path : TouchPath index true events last) : TouchPath index false (.touch index :: events) last
  | release (path : TouchPath index false events last) : TouchPath index true (.release index :: events) last
  /-- Swipes, and the events of other pins. -/
  | other (apart : event ≠ .touch index ∧ event ≠ .release index) (path : TouchPath index first events last) :
    TouchPath index first (event :: events) last

namespace TouchPath

variable {index : Nat} {first second last : Bool} {events later : List TouchEvent}

theorem append (early : TouchPath index first events second) (late : TouchPath index second later last) :
    TouchPath index first (events ++ later) last := by
  induction early with
  | same => exact late
  | touch _ ih => exact .touch (ih late)
  | release _ ih => exact .release (ih late)
  | other apart _ ih => exact .other apart (ih late)

theorem others (apart : ∀ event ∈ events, event ≠ .touch index ∧ event ≠ .release index) :
    TouchPath index first events first := by
  induction events with
  | nil => exact .same
  | cons event rest ih =>
    exact .other (apart event List.mem_cons_self) (ih fun other member => apart other (List.mem_cons_of_mem event member))

end TouchPath

/-- Only swipes come out of `detect_swipe`, and no count changes. -/
theorem detectSwipe_pins (pins : List TouchPin) (index : Nat) :
    (∀ event ∈ (detectSwipe pins).2, event = .swipePos ∨ event = .swipeNeg) ∧
      ticksAt index (detectSwipe pins).1 = ticksAt index pins := by
  unfold detectSwipe
  split
  · exact ⟨by simp, rfl⟩
  · split
    · exact ⟨by simp, rfl⟩
    · constructor
      · intro event member
        dsimp only at member
        split at member
        · cases member
        · split at member <;> simp_all
      · unfold ticksAt
        rw [List.getElem?_map, Option.map_map]
        rfl

theorem ticksAt_modify_other (change : TouchPin → TouchPin) (pins : List TouchPin) (apart : index ≠ other) :
    ticksAt other (pins.modify index change) = ticksAt other pins := by
  unfold ticksAt
  rw [List.getElem?_modify_ne _ _ apart]

theorem ticksAt_modify (change : TouchPin → TouchPin) (index : Nat) (pins : List TouchPin) :
    ticksAt index (pins.modify index change) = pins[index]?.map fun pin => (change pin).ticksPressed := by
  unfold ticksAt
  rw [List.getElem?_modify_eq, Option.map_eq_map, Option.map_map]
  rfl

theorem TouchPin.touched_ticks (nowms : Nat) (pin : TouchPin) : (pin.touched nowms).ticksPressed = pin.ticksPressed := by
  unfold touched
  split
  · rfl
  · rfl

/-- Marking the time of a touch changes no count. -/
theorem touchDown_ticks (nowms index other : Nat) (pins : List TouchPin) :
    ticksAt other (touchDown nowms index pins).1 = ticksAt other pins := by
  unfold touchDown
  rw [(detectSwipe_pins _ other).2]
  by_cases same : index = other
  · subst same
    rw [ticksAt_modify, funext (TouchPin.touched_ticks nowms)]
    rfl
  · exact ticksAt_modify_other _ pins same

theorem updatePin_ticks (nowms index reading : Nat) (pins : List TouchPin) :
    ticksAt index (updatePin nowms index reading pins).1 = (ticksAt index pins).map (tickNext · reading) := by
  have moved : ticksAt index (pins.modify index (TouchPin.tick reading)) =
      (ticksAt index pins).map (tickNext · reading) := by
    rw [ticksAt_modify]
    unfold ticksAt
    rw [Option.map_map]
    rfl
  unfold updatePin
  split
  next absent =>
    unfold ticksAt
    rw [absent]
    rfl
  · dsimp only
    split
    · split
      · exact (touchDown_ticks ..).trans moved
      · exact moved
    · exact moved

theorem updatePin_ticks_other (nowms reading : Nat) (pins : List TouchPin) (apart : index ≠ other) :
    ticksAt other (updatePin nowms index reading pins).1 = ticksAt other pins := by
  have kept := ticksAt_modify_other (TouchPin.tick reading) pins apart
  unfold updatePin
  split
  · rfl
  · dsimp only
    split
    · split
      · exact (touchDown_ticks ..).trans kept
      · exact kept
    · exact kept

theorem touchDown_events (nowms index other : Nat) (pins : List TouchPin) (first : Bool) :
    ∃ swipes, (touchDown nowms index pins).2 = .touch index :: swipes ∧ TouchPath other first swipes first := by
  refine ⟨_, rfl, TouchPath.others fun event member => ?_⟩
  rcases (detectSwipe_pins _ other).1 event member with rfl | rfl
  · simp
  · simp

theorem updatePin_path (nowms index reading other : Nat) (pins : List TouchPin) :
    TouchPath other (pressedAt other pins) (updatePin nowms index reading pins).2
      (pressedAt other (updatePin nowms index reading pins).1) := by
  by_cases same : index = other
  · subst same
    have moved := updatePin_ticks nowms index reading pins
    cases found : pins[index]? with
    | none =>
      have still : updatePin nowms index reading pins = (pins, []) := by
        unfold updatePin
        rw [found]
      rw [still]
      exact .same
    | some pin =>
      have before : pressedAt index pins = pin.isPressed := by
        unfold pressedAt ticksAt
        rw [found]
        rfl
      have after : pressedAt index (updatePin nowms index reading pins).1 = (pin.tick reading).isPressed := by
        unfold pressedAt
        rw [moved]
        unfold ticksAt
        rw [found]
        rfl
      rw [before, after]
      unfold updatePin
      rw [found]
      dsimp only
      cases down : (pin.tick reading).isPressed <;> cases up : pin.isPressed
      · exact .same
      · exact .release .same
      · obtain ⟨swipes, events, path⟩ :=
          touchDown_events nowms index index (pins.modify index (TouchPin.tick reading)) true
        simp only [ne_eq, Bool.true_eq_false, not_false_eq_true, if_true, events]
        exact .touch path
      · exact .same
  · have kept : pressedAt other (updatePin nowms index reading pins).1 = pressedAt other pins := by
      unfold pressedAt
      rw [updatePin_ticks_other nowms reading pins same]
    rw [kept]
    unfold updatePin
    split
    · exact .same
    · dsimp only
      split
      · split
        · obtain ⟨swipes, events, path⟩ :=
            touchDown_events nowms index other (pins.modify index (TouchPin.tick reading)) (pressedAt other pins)
          rw [events]
          exact .other ⟨by simp [same], by simp⟩ path
        · exact .other ⟨by simp, by simp [same]⟩ .same
      · exact .same

theorem updateFrom_path (nowms index other : Nat) (readings : List Nat) (pins : List TouchPin) :
    TouchPath other (pressedAt other pins) (updateFrom nowms index readings pins).2
      (pressedAt other (updateFrom nowms index readings pins).1) := by
  induction readings generalizing index pins with
  | nil => exact .same
  | cons reading rest ih => exact (updatePin_path nowms index reading other pins).append (ih _ _)

theorem updateFrom_ticks_before (nowms : Nat) (readings : List Nat) (pins : List TouchPin) (before : other < index) :
    ticksAt other (updateFrom nowms index readings pins).1 = ticksAt other pins := by
  induction readings generalizing index pins with
  | nil => rfl
  | cons reading rest ih =>
    change ticksAt other (updateFrom nowms (index + 1) rest (updatePin nowms index reading pins).1).1 = _
    rw [ih _ (by omega), updatePin_ticks_other nowms reading pins (by omega)]

/-- A count after these readings, one after the other. -/
def ticksAfter (readings : List Nat) (ticks : Int) : Int := readings.foldl tickNext ticks

/-- A turn of `update` for this pin and those behind it, with its own reading. -/
theorem updateFrom_ticks (nowms index other : Nat) (readings : List Nat) (pins : List TouchPin) :
    ticksAt (index + other) (updateFrom nowms index readings pins).1 =
      (ticksAt (index + other) pins).map (ticksAfter readings[other]?.toList) := by
  induction readings generalizing index other pins with
  | nil =>
    rw [List.getElem?_nil]
    exact Option.map_id'.symm
  | cons reading rest ih =>
    change ticksAt (index + other) (updateFrom nowms (index + 1) rest (updatePin nowms index reading pins).1).1 = _
    cases other with
    | zero =>
      have passed : ticksAt index (updateFrom nowms (index + 1) rest (updatePin nowms index reading pins).1).1 =
          ticksAt index (updatePin nowms index reading pins).1 := updateFrom_ticks_before nowms rest _ (Nat.lt_succ_self index)
      rw [Nat.add_zero, passed, updatePin_ticks]
      rfl
    | succ other =>
      have later := ih (index + 1) other (updatePin nowms index reading pins).1
      rw [Nat.add_assoc, Nat.add_comm 1 other] at later
      rw [later, updatePin_ticks_other nowms reading pins (by omega), List.getElem?_cons_succ]

/-- In every run the events of each pin are touches and releases in turn, from whether it
was pressed at first to whether it is pressed now; and that depends on nothing but its own
readings: they are counted up and down, between 0 and 2. -/
theorem touches_alternate (pins : List TouchPin) (calls : List (Nat × List Nat)) (index : Nat) :
    TouchPath index (pressedAt index pins) (touchRun pins calls).2 (pressedAt index (touchRun pins calls).1) ∧
      ticksAt index (touchRun pins calls).1 =
        (ticksAt index pins).map (ticksAfter (calls.filterMap fun call => call.2[index]?)) := by
  induction calls generalizing pins with
  | nil => exact ⟨.same, Option.map_id'.symm⟩
  | cons call later ih =>
    obtain ⟨path, ticks⟩ := ih (updateFrom call.1 0 call.2 pins).1
    have now := updateFrom_ticks call.1 0 index call.2 pins
    rw [Nat.zero_add] at now
    refine ⟨(updateFrom_path call.1 0 index call.2 pins).append path, ?_⟩
    change ticksAt index (touchRun (updateFrom call.1 0 call.2 pins).1 later).1 = _
    rw [ticks, now, Option.map_map]
    cases seen : call.2[index]? with
    | none =>
      rw [List.filterMap_cons, seen]
      rfl
    | some reading =>
      rw [List.filterMap_cons, seen]
      rfl

end Jacdac
