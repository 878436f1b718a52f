import Jacdac.Base.Quadrature
import Jacdac.Base.Signed
import Jacdac.Services.Sensor

/-! The rotary encoder of `rotaryencoder.c`, without a hardware decoder: its position
over whole runs against the turns of the shaft. The pulls of its pins are left out. Sums of `int32_t` wrap. -/

namespace Jacdac

open Quadrature (phase travelled Slow)

def posMap : List Int := [0, 1, -1, 2, -1, 0, -2, 1, 1, -2, 0, -1, 2, -1, 1, 0]

/-- The flags of `rotaryencoder_init`. -/
structure RotaryConfig where
  dense : Bool
  inverted : Bool

def RotaryConfig.posShift (config : RotaryConfig) : Nat :=
  (if config.dense then 1 else 2) ||| (if config.inverted then 0x80 else 0)

structure RotaryState where
  sensor : SensorState
  /-- The pins as they were read last. -/
  state : Nat
  position : Int
  sample : Int
  nextSample : Nat
  goFast : Nat
  deriving DecidableEq, Repr

inductive RotaryOutput where
  | sensor (output : SensorOutput)
  /-- `jd_set_max_sleep`. -/
  | maxSleep (micros : Nat)
  deriving DecidableEq, Repr

/-- The service has no `api`. -/
def noApi : SensorApi := { present := false, init := false, sleep := false }

/-- The old state and the pins together. -/
def posIndex (state : Nat) (pin0 pin1 : Bool) : Nat :=
  let s := state &&& 3
  let s := if pin0 then s ||| 4 else s
  if pin1 then s ||| 8 else s

namespace RotaryState

/-- `rotaryencoder_init`. -/
def init : RotaryState :=
  { sensor := .initial 0, state := 0, position := 0, sample := 0, nextSample := 0, goFast := 0 }

def update (config : RotaryConfig) (now : Nat) (pins : Bool × Bool) (st : RotaryState) : RotaryState :=
  let s := posIndex st.state pins.1 pins.2
  let st := { st with state := s >>> 2 }
  let st := if posMap.getD s 0 ≠ 0 then
      { st with goFast := u32 (now + 8388608), position := i32 (st.position + posMap.getD s 0) }
    else st
  let shift : Nat := config.posShift &&& 0xf
  let sample := st.position.shiftRight shift
  { st with sample := if config.posShift &&& 0x80 ≠ 0 then i32 (-sample) else sample }

/-- Whether `sensor_maybe_init` returns true. -/
def starts (st : RotaryState) : Bool := st.sensor.gotQuery && !st.sensor.jdInited

def maybeInit (config : RotaryConfig) (now : Nat) (pins : Bool × Bool) (st : RotaryState) :
    RotaryState × List SensorOutput :=
  let inited := st.sensor.sensorMaybeInit noApi false
  if st.starts then
    ({ { st with sensor := inited.1 }.update config now pins with position := 0, sample := 0 }, inited.2)
  else ({ st with sensor := inited.1 }, inited.2)

/-- `update`, or not, after this call of `jd_should_sample`. -/
def lookDue (config : RotaryConfig) (now : Nat) (pins : Bool × Bool) (sampled : Bool × Nat) (st : RotaryState) :
    Bool × RotaryState :=
  let st := { st with nextSample := sampled.2 }
  if sampled.1 && st.sensor.jdInited then (true, st.update config now pins) else (false, st)

/-- The call of `update` in `rotaryencoder_process`; the flag is whether there is one. -/
def look (config : RotaryConfig) (now : Nat) (pins : Bool × Bool) (st : RotaryState) : Bool × RotaryState :=
  st.lookDue config now pins (jdShouldSample now 900 st.nextSample)

/-- Fast or slow probing; `past` is whether `go_fast` has passed. -/
def probePast (past : Bool) (st : RotaryState) : RotaryState × List RotaryOutput :=
  if st.sensor.jdInited then
    let st := if st.goFast ≠ 0 ∧ past then { st with goFast := 0 } else st
    (st, [.maxSleep (if st.goFast ≠ 0 then 1000 else 5000)])
  else (st, [])

/-- The choice between fast and slow probing in `rotaryencoder_process`. -/
def probe (now : Nat) (st : RotaryState) : RotaryState × List RotaryOutput := st.probePast (inPast now st.goFast)

/-- The first half of `rotaryencoder_process`; the pins are read in `maybe_init` and in `update`. -/
def looked (config : RotaryConfig) (now : Nat) (early late : Bool × Bool) (st : RotaryState) : Bool × RotaryState :=
  (st.maybeInit config now early).1.look config now late

/-- The call of `sensor_process_simple`. -/
def processSensor (now : Nat) (st : RotaryState) : RotaryState × List SensorOutput :=
  let processed := st.sensor.sensorProcessSimple noApi now false
  ({ st with sensor := processed.1 }, processed.2)

/-- `rotaryencoder_process`. -/
def process (config : RotaryConfig) (now : Nat) (early late : Bool × Bool) (st : RotaryState) :
    RotaryState × List RotaryOutput :=
  let probed := (st.looked config now early late).2.probe now
  let processed := probed.1.processSensor now
  (processed.1, (st.maybeInit config now early).2.map .sensor ++ probed.2 ++ processed.2.map .sensor)

/-- `rotaryencoder_handle_packet`; `none` is a read of `clicks_per_turn`. -/
def handlePacket (now : Nat) (broadcast : Bool) (pkt : Option SensorPacket) (st : RotaryState) :
    RotaryState × List RotaryOutput :=
  match pkt with
  | none => (st, [.sensor .reply])
  | some pkt =>
    let handled := st.sensor.sensorHandlePacketSimple noApi now broadcast pkt
    ({ st with sensor := handled.1 }, handled.2.map .sensor)

end RotaryState

def shaftPins (shaft : Int) : Bool × Bool := (Quadrature.first (phase shaft), Quadrature.second (phase shaft))

/-- The looks at the shaft that a call of `rotaryencoder_process` takes. -/
def RotaryState.looks (config : RotaryConfig) (now : Nat) (early late : Int) (st : RotaryState) : List Int :=
  (if st.starts then [early] else []) ++
    if (st.looked config now (shaftPins early) (shaftPins late)).1 then [late] else []

/-- Runs of the service with the looks at the shaft; it turns in any way. -/
inductive RotaryRun (config : RotaryConfig) : RotaryState → List Int → Prop where
  | init : RotaryRun config .init []
  | packet (run : RotaryRun config st looks) (now : Nat) (broadcast : Bool) (pkt : Option SensorPacket) :
    RotaryRun config (st.handlePacket now broadcast pkt).1 looks
  | process (run : RotaryRun config st looks) (now : Nat) (early late : Int) :
    RotaryRun config (st.process config now (shaftPins early) (shaftPins late)).1 (looks ++ st.looks config now early late)

/-- The reading at a position: whole detents, in the direction asked for. -/
def RotaryConfig.reading (config : RotaryConfig) (position : Int) : Int :=
  (if config.inverted then -1 else 1) * (position / if config.dense then 2 else 4)

/-- The state that the pins leave. -/
def pinBits (pins : Bool × Bool) : Nat := (if pins.1 then 1 else 0) + if pins.2 then 2 else 0

theorem posIndex_state (state : Nat) (pins : Bool × Bool) : posIndex state pins.1 pins.2 >>> 2 = pinBits pins := by
  have small : state &&& 3 < 4 := Nat.lt_succ_of_le Nat.and_le_right
  obtain ⟨pin0, pin1⟩ := pins
  unfold posIndex pinBits
  dsimp only
  generalize state &&& 3 = old at small
  interval_cases old <;> cases pin0 <;> cases pin1 <;> rfl

/-- What `posMap` counts from one place of the shaft to another. -/
def posCount (early late : Nat) : Int :=
  posMap.getD (posIndex (pinBits (Quadrature.first early, Quadrature.second early)) (Quadrature.first late)
    (Quadrature.second late)) 0

theorem posCount_decodes : Quadrature.Decodes posCount where
  cycle := by decide
  same := by decide
  forward := by decide
  backward := by decide

namespace RotaryState

variable {config : RotaryConfig} {st : RotaryState} {looks : List Int} {now : Nat}

theorem update_state (config : RotaryConfig) (now : Nat) (pins : Bool × Bool) (st : RotaryState) :
    (st.update config now pins).state = pinBits pins ∧ (st.update config now pins).sensor = st.sensor := by
  have bits := posIndex_state st.state pins
  unfold update
  dsimp only
  split
  · exact ⟨bits, rfl⟩
  · exact ⟨bits, rfl⟩

theorem update_position (config : RotaryConfig) (now : Nat) (pins : Bool × Bool) (st : RotaryState)
    (word : i32 st.position = st.position) :
    (st.update config now pins).position = i32 (st.position + posMap.getD (posIndex st.state pins.1 pins.2) 0) := by
  unfold update
  dsimp only
  split
  · rfl
  next unmoved =>
    rw [not_not.mp unmoved, Int.add_zero]
    exact word.symm

theorem update_sample (config : RotaryConfig) (now : Nat) (pins : Bool × Bool) (st : RotaryState)
    (word : i32 (st.update config now pins).position = (st.update config now pins).position) :
    (st.update config now pins).sample = config.reading (st.update config now pins).position := by
  have scaled : ∀ moved : RotaryState, i32 moved.position = moved.position → (if config.posShift &&& 0x80 ≠ 0 then
      i32 (-(moved.position.shiftRight (config.posShift &&& 0xf))) else
        moved.position.shiftRight (config.posShift &&& 0xf)) = config.reading moved.position := by
    intro moved word
    have halved : moved.position.shiftRight 1 = moved.position / 2 := Int.shiftRight_eq_div_pow _ 1
    have quartered : moved.position.shiftRight 2 = moved.position / 4 := Int.shiftRight_eq_div_pow _ 2
    have half : i32 (-(moved.position / 2)) = -(moved.position / 2) := i32_eq (by unfold i32 at word; omega)
    have quarter : i32 (-(moved.position / 4)) = -(moved.position / 4) := i32_eq (by unfold i32 at word; omega)
    obtain ⟨dense, inverted⟩ := config
    cases dense <;> cases inverted <;> simp [RotaryConfig.posShift, RotaryConfig.reading, halved, quartered, half, quarter]
  unfold update at word ⊢
  exact scaled _ word

theorem maybeInit_inited (sensor : SensorState) (reading : Bool) :
    (sensor.sensorMaybeInit noApi reading).1.jdInited = (sensor.jdInited || sensor.gotQuery) := by
  unfold SensorState.sensorMaybeInit
  cases query : sensor.gotQuery <;> cases inited : sensor.jdInited <;> simp_all [noApi]

theorem maybeInit_settled (sensor : SensorState) (reading : Bool) :
    (sensor.sensorMaybeInit noApi reading).1.gotQuery = true → (sensor.sensorMaybeInit noApi reading).1.jdInited = true := by
  unfold SensorState.sensorMaybeInit
  cases query : sensor.gotQuery <;> cases inited : sensor.jdInited <;> simp_all [noApi]

theorem handlePacket_inited (now : Nat) (broadcast : Bool) (pkt : SensorPacket) (sensor : SensorState) :
    (sensor.sensorHandlePacketSimple noApi now broadcast pkt).1.jdInited = sensor.jdInited := by
  cases pkt with
  | getIntensity => rfl
  | getStatusCode => rfl
  | getReading => rfl
  | getStreaming => rfl
  | other => rfl
  | setIntensity value =>
    change (sensor.setIntensity noApi value).1.jdInited = sensor.jdInited
    unfold SensorState.setIntensity
    split
    · rfl
    · rfl
  | setStreamingSamples data =>
    cases data with
    | nil => rfl
    | cons byte rest =>
      change (sensor.setStreamingSamples now byte.toNat).jdInited = sensor.jdInited
      unfold SensorState.setStreamingSamples
      dsimp only
      split
      · rfl
      · rfl
  | setStreamingInterval data =>
    cases data with
    | nil => rfl
    | cons byte rest => rfl

theorem maybeInit_sensor (config : RotaryConfig) (now : Nat) (pins : Bool × Bool) (st : RotaryState) :
    (st.maybeInit config now pins).1.sensor = (st.sensor.sensorMaybeInit noApi false).1 := by
  unfold maybeInit
  dsimp only
  split
  · exact (update_state config now pins { st with sensor := (st.sensor.sensorMaybeInit noApi false).1 }).2
  · rfl

theorem lookDue_sensor (config : RotaryConfig) (now : Nat) (pins : Bool × Bool) (sampled : Bool × Nat)
    (st : RotaryState) : (st.lookDue config now pins sampled).2.sensor = st.sensor := by
  unfold lookDue
  dsimp only
  split
  · exact (update_state config now pins { st with nextSample := sampled.2 }).2
  · rfl

theorem look_sensor (config : RotaryConfig) (now : Nat) (pins : Bool × Bool) (st : RotaryState) :
    (st.look config now pins).2.sensor = st.sensor := by
  unfold look
  exact lookDue_sensor config now pins (jdShouldSample now 900 st.nextSample) st

/-- Probing changes `go_fast` only. -/
theorem probePast_same (past : Bool) (st : RotaryState) :
    (st.probePast past).1.sensor = st.sensor ∧ (st.probePast past).1.state = st.state ∧
      (st.probePast past).1.position = st.position ∧ (st.probePast past).1.sample = st.sample := by
  unfold probePast
  split
  · dsimp only
    split
    · exact ⟨rfl, rfl, rfl, rfl⟩
    · exact ⟨rfl, rfl, rfl, rfl⟩
  · exact ⟨rfl, rfl, rfl, rfl⟩

/-- Before `sensor_process_simple` the common part is as `maybe_init` has left it. -/
theorem process_sensor (config : RotaryConfig) (now : Nat) (early late : Bool × Bool) (st : RotaryState) :
    ((st.looked config now early late).2.probe now).1.sensor = (st.sensor.sensorMaybeInit noApi false).1 := by
  rw [← st.maybeInit_sensor config now early]
  unfold looked probe
  rw [(probePast_same _ _).1]
  exact look_sensor config now late _

/-- `sensor_process_simple` does not start the service a second time. -/
theorem sensorProcessSimple_inited (now : Nat) (sensor : SensorState)
    (settled : sensor.gotQuery = true → sensor.jdInited = true) :
    (sensor.sensorProcessSimple noApi now false).1.jdInited = sensor.jdInited := by
  unfold SensorState.sensorProcessSimple
  rw [andThen_fst, (SensorState.stream_status now _).1, maybeInit_inited]
  cases query : sensor.gotQuery with
  | false => exact Bool.or_false _
  | true => rw [settled query, Bool.or_true]

end RotaryState

/-- What the looks so far say about the state. -/
structure RotaryHolds (config : RotaryConfig) (st : RotaryState) (looks : List Int) : Prop where
  inited : st.sensor.jdInited = true ↔ looks ≠ []
  state : ∀ last, looks.getLast? = some last → st.state = pinBits (shaftPins last)
  word : i32 st.position = st.position
  modulo : 4 ∣ st.position - travelled looks
  slow : Slow looks → st.position = i32 (travelled looks)
  sample : st.sample = config.reading st.position

namespace RotaryHolds

variable {config : RotaryConfig} {st next : RotaryState} {looks : List Int}

/-- What does not touch the position. -/
theorem congr (holds : RotaryHolds config st looks) (inited : next.sensor.jdInited = st.sensor.jdInited)
    (state : next.state = st.state) (position : next.position = st.position) (sample : next.sample = st.sample) :
    RotaryHolds config next looks where
  inited := inited ▸ holds.inited
  state := state ▸ holds.state
  word := position ▸ holds.word
  modulo := position ▸ holds.modulo
  slow := position ▸ holds.slow
  sample := by rw [sample, position, holds.sample]

theorem update (holds : RotaryHolds config st looks) (begun : looks ≠ []) (now : Nat) (look : Int) :
    RotaryHolds config (st.update config now (shaftPins look)) (looks ++ [look]) := by
  obtain ⟨last, final⟩ : ∃ last, looks.getLast? = some last :=
    ⟨looks.getLast begun, List.getLast?_eq_some_getLast begun⟩
  obtain ⟨bits, sensor⟩ := st.update_state config now (shaftPins look)
  have counted : (st.update config now (shaftPins look)).position =
      i32 (st.position + posCount (phase last) (phase look)) := by
    rw [st.update_position config now (shaftPins look) holds.word, holds.state last final]
    rfl
  have word : i32 (st.update config now (shaftPins look)).position = (st.update config now (shaftPins look)).position := by
    rw [counted, i32_i32]
  have onward := Quadrature.travelled_concat final look
  refine ⟨?_, ?_, word, ?_, ?_, st.update_sample config now (shaftPins look) word⟩
  · rw [sensor]
    exact iff_of_true (holds.inited.mpr begun) (by simp)
  · intro other same
    obtain rfl : look = other := by simpa using same
    exact bits
  · have modulo := posCount_decodes.modulo last look
    have before := holds.modulo
    have wraps := i32_mod (st.position + posCount (phase last) (phase look))
    rw [counted, onward]
    omega
  · intro slow
    obtain ⟨slower, near⟩ := slow.init final
    rw [counted, onward, posCount_decodes.adjacent near, holds.slow slower, i32_add]

theorem init (config : RotaryConfig) : RotaryHolds config .init [] where
  inited := iff_of_false Bool.false_ne_true (not_not.mpr rfl)
  state := nofun
  word := rfl
  modulo := by decide
  slow := fun _ => rfl
  sample := by
    obtain ⟨dense, inverted⟩ := config
    cases dense <;> cases inverted <;> rfl

theorem maybeInit (holds : RotaryHolds config st looks) (now : Nat) (early : Int) :
    RotaryHolds config (st.maybeInit config now (shaftPins early)).1 (looks ++ if st.starts then [early] else []) := by
  have inited := RotaryState.maybeInit_inited st.sensor false
  have sensor := st.maybeInit_sensor config now (shaftPins early)
  cases begins : st.starts with
  | true =>
    obtain ⟨query, asleep⟩ := Bool.and_eq_true_iff.mp begins
    have unlooked : looks = [] := by
      by_contra looked
      rw [holds.inited.mpr looked] at asleep
      cases asleep
    subst unlooked
    rw [List.nil_append, if_pos rfl]
    have position : (st.maybeInit config now (shaftPins early)).1.position = 0 := by
      unfold RotaryState.maybeInit
      rw [if_pos begins]
    refine ⟨?_, ?_, ?_, ?_, ?_, ?_⟩
    · rw [sensor, inited, query, Bool.or_true]
      exact iff_of_true rfl (List.cons_ne_nil _ _)
    · intro last same
      obtain rfl : early = last := by simpa using same
      unfold RotaryState.maybeInit
      rw [if_pos begins]
      exact (RotaryState.update_state config now (shaftPins early) _).1
    · rw [position]
      rfl
    · rw [position]
      simp [travelled]
    · intro _
      rw [position]
      simp [travelled, i32]
    · rw [position]
      unfold RotaryState.maybeInit
      rw [if_pos begins]
      exact (init config).sample
  | false =>
    rw [if_neg Bool.false_ne_true, List.append_nil]
    have same : (st.sensor.sensorMaybeInit noApi false).1.jdInited = st.sensor.jdInited := by
      rw [inited]
      unfold RotaryState.starts at begins
      cases query : st.sensor.gotQuery <;> simp_all
    unfold RotaryState.maybeInit
    rw [if_neg (by rw [begins]; exact Bool.false_ne_true)]
    exact holds.congr same rfl rfl rfl

theorem lookDue (holds : RotaryHolds config st looks) (now : Nat) (late : Int) (sampled : Bool × Nat) :
    RotaryHolds config (st.lookDue config now (shaftPins late) sampled).2
      (looks ++ if (st.lookDue config now (shaftPins late) sampled).1 then [late] else []) := by
  have moved : RotaryHolds config { st with nextSample := sampled.2 } looks := holds.congr rfl rfl rfl rfl
  unfold RotaryState.lookDue
  dsimp only
  split
  next due =>
    have begun : looks ≠ [] := holds.inited.mp (Bool.and_eq_true_iff.mp due).2
    exact moved.update begun now late
  · rw [if_neg Bool.false_ne_true, List.append_nil]
    exact moved

theorem probePast (holds : RotaryHolds config st looks) (past : Bool) :
    RotaryHolds config (st.probePast past).1 looks := by
  obtain ⟨sensor, state, position, sample⟩ := st.probePast_same past
  exact holds.congr (by rw [sensor]) state position sample

theorem withSensor (holds : RotaryHolds config st looks) {sensor : SensorState}
    (inited : sensor.jdInited = st.sensor.jdInited) : RotaryHolds config { st with sensor } looks :=
  holds.congr inited rfl rfl rfl

theorem looked (holds : RotaryHolds config st looks) (now : Nat) (early late : Int) :
    RotaryHolds config (st.looked config now (shaftPins early) (shaftPins late)).2
      (looks ++ st.looks config now early late) := by
  have due := (holds.maybeInit now early).lookDue now late
    (jdShouldSample now 900 (st.maybeInit config now (shaftPins early)).1.nextSample)
  unfold RotaryState.looks RotaryState.looked RotaryState.look
  rw [← List.append_assoc]
  exact due

theorem probe (holds : RotaryHolds config st looks) (now : Nat) : RotaryHolds config (st.probe now).1 looks := by
  unfold RotaryState.probe
  exact holds.probePast _

theorem processSensor (holds : RotaryHolds config st looks) (now : Nat)
    (settled : st.sensor.gotQuery = true → st.sensor.jdInited = true) :
    RotaryHolds config (st.processSensor now).1 looks :=
  holds.withSensor (RotaryState.sensorProcessSimple_inited now st.sensor settled)

theorem process (holds : RotaryHolds config st looks) (now : Nat) (early late : Int) :
    RotaryHolds config (st.process config now (shaftPins early) (shaftPins late)).1
      (looks ++ st.looks config now early late) := by
  have sensor := st.process_sensor config now (shaftPins early) (shaftPins late)
  have settled := RotaryState.maybeInit_settled st.sensor false
  rw [← sensor] at settled
  exact ((holds.looked now early late).probe now).processSensor now settled

end RotaryHolds

theorem RotaryRun.holds (run : RotaryRun config st looks) : RotaryHolds config st looks := by
  induction run with
  | init => exact .init config
  | packet run now broadcast pkt ih =>
    cases pkt with
    | none => exact ih
    | some pkt => exact ih.congr (RotaryState.handlePacket_inited now broadcast pkt _) rfl rfl rfl
  | process run now early late ih => exact ih.process now early late

/-- In every run, from the first look at the shaft on, the position is how far it has turned, up to
whole cycles in any case, and as a 32-bit number if it never turned more than a quarter step between
two looks; and the reading is the whole detents of the position. -/
theorem rotary_position (run : RotaryRun config st looks) :
    (st.sensor.jdInited = true ↔ looks ≠ []) ∧ 4 ∣ st.position - travelled looks ∧
      (Slow looks → st.position = i32 (travelled looks)) ∧ st.sample = config.reading st.position :=
  ⟨run.holds.inited, run.holds.modulo, run.holds.slow, run.holds.sample⟩

/-- Two quarter steps after the first look: one detent of a dense encoder. -/
theorem rotary_position_detent : ∃ st : RotaryState, st.position = 2 ∧ st.sample = 1 := by
  have asked : RotaryRun ⟨true, false⟩ _ [] := RotaryRun.init.packet 0 false (some .getReading)
  have turned := (asked.process 1000 0 1).process 2000 1 2
  have seen : (([] ++ (RotaryState.handlePacket 0 false (some .getReading) .init).1.looks ⟨true, false⟩ 1000 0 1) ++
      ((RotaryState.handlePacket 0 false (some .getReading) .init).1.process ⟨true, false⟩ 1000 (shaftPins 0)
        (shaftPins 1)).1.looks ⟨true, false⟩ 2000 1 2) = [0, 1, 2] := by decide
  rw [seen] at turned
  obtain ⟨_, _, slow, sample⟩ := rotary_position turned
  have position := slow (by simp [Slow])
  refine ⟨_, position.trans (by decide), sample.trans ?_⟩
  rw [position]
  decide

end Jacdac
