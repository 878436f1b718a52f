import Jacdac.Base.Endian
import Jacdac.Base.Machine
import Jacdac.Time.Sample

/-! The common part of the sensor services, `jd_sensor.c`: initialisation on
demand, sleep, status events and streaming. The registers of ranges and the
driver's own `process()` are left out. -/

namespace Jacdac

/-- `JD_STATUS_CODES_*`, as far as sensors report them. -/
inductive SensorStatus where
  | sleeping
  | initializing
  | ready
  deriving DecidableEq, Repr

/-- Which functions of `sensor_api_t` there are. -/
structure SensorApi where
  present : Bool
  init : Bool
  sleep : Bool

structure SensorState where
  streamingSamples : Nat
  streamingInterval : Nat
  nextStreaming : Nat
  gotQuery : Bool
  jdInited : Bool
  gotReading : Bool
  deriving DecidableEq, Repr

/-- What a sensor sends. -/
inductive SensorOutput where
  /-- The event `JD_EV_STATUS_CODE_CHANGED`. -/
  | status (code : SensorStatus)
  /-- A reading streamed by `process()`. -/
  | streamed
  /-- The reply to a read of a register. -/
  | reply
  | notImplemented
  deriving DecidableEq, Repr

/-- The packets that `sensor_handle_packet_simple` tells apart, with their data. -/
inductive SensorPacket where
  | getIntensity
  | getStatusCode
  | getReading
  | getStreaming
  /-- With `pkt->data[0]`. -/
  | setIntensity (value : UInt8)
  | setStreamingSamples (data : List UInt8)
  | setStreamingInterval (data : List UInt8)
  | other

namespace SensorState

/-- After the service's `init`, which may set the interval. -/
def initial (interval : Nat) : SensorState :=
  { streamingSamples := 0, streamingInterval := interval, nextStreaming := 0, gotQuery := false, jdInited := false,
    gotReading := false }

def getStatusCode (state : SensorState) : SensorStatus :=
  if !state.jdInited then .sleeping else if !state.gotReading then .initializing else .ready

def sensorSendStatus (state : SensorState) : SensorOutput := .status state.getStatusCode

/-- `JD_SET(JD_REG_INTENSITY)`. -/
def setIntensity (api : SensorApi) (value : UInt8) (state : SensorState) : SensorState × List SensorOutput :=
  if value ≠ 0 then ({ state with gotQuery := true }, [])
  else
    let state := { state with gotQuery := false, streamingSamples := 0 }
    if api.present && api.sleep && state.jdInited then
      let state := { state with gotReading := false, jdInited := false }
      (state, [state.sensorSendStatus])
    else (state, [])

/-- `JD_SET(JD_REG_STREAMING_SAMPLES)`, behind `service_handle_register`. -/
def setStreamingSamples (now value : Nat) (state : SensorState) : SensorState :=
  let state := { state with streamingSamples := value }
  if state.streamingSamples ≠ 0 then
    { state with
      streamingInterval := if state.streamingInterval = 0 then 100 else state.streamingInterval
      nextStreaming := now
      gotQuery := true }
  else state

/-- `JD_SET(JD_REG_STREAMING_INTERVAL)`, behind `service_handle_register`. -/
def setStreamingInterval (value : Nat) (state : SensorState) : SensorState :=
  let interval := if value < 20 then 20 else value
  { state with streamingInterval := if interval > 100000 then 100000 else interval }

/-- `sensor_handle_packet_simple`; a write without data is not handled. -/
def sensorHandlePacketSimple (api : SensorApi) (now : Nat) (broadcast : Bool) (pkt : SensorPacket) (state : SensorState) :
    SensorState × List SensorOutput :=
  match pkt with
  | .getIntensity | .getStatusCode | .getStreaming => (state, [.reply])
  | .getReading => ({ state with gotQuery := true }, [.reply])
  | .setIntensity value => state.setIntensity api value
  | .setStreamingSamples (byte :: _) => (state.setStreamingSamples now byte.toNat, [])
  | .setStreamingInterval (byte :: rest) => (state.setStreamingInterval (fromLittle ((byte :: rest).take 4)), [])
  | .setStreamingSamples [] | .setStreamingInterval [] | .other => (state, if broadcast then [] else [.notImplemented])

/-- `sensor_maybe_init`; `reading` is whether `get_reading()` returns one. -/
def sensorMaybeInit (api : SensorApi) (reading : Bool) (state : SensorState) : SensorState × List SensorOutput :=
  if state.gotQuery && !state.jdInited then
    let state := { state with gotReading := false, jdInited := true }
    let early := if api.present && api.init then [state.sensorSendStatus] else []
    let state := if !api.present || reading then { state with gotReading := true } else state
    (state, early ++ [state.sensorSendStatus])
  else (state, [])

/-- `sensor_get_reading`, which drivers call. -/
def sensorGetReading (reading : Bool) (state : SensorState) : SensorState × List SensorOutput :=
  if !state.jdInited then (state, [])
  else if reading && !state.gotReading then
    let state := { state with gotReading := true }
    (state, [state.sensorSendStatus])
  else (state, [])

/-- The reading is due, or not; with the new `next_streaming`. -/
def streamDue (sampled : Bool × Nat) (state : SensorState) : Bool × SensorState :=
  let state := { state with nextStreaming := sampled.2 }
  if sampled.1 then (true, { state with streamingSamples := state.streamingSamples - 1 }) else (false, state)

def sensorShouldStream (now : Nat) (state : SensorState) : Bool × SensorState :=
  if state.streamingSamples = 0 then (false, state)
  else state.streamDue (jdShouldSample now (u32 (state.streamingInterval * 1000)) state.nextStreaming)

/-- The end of `sensor_process_simple`. -/
def stream (now : Nat) (state : SensorState) : SensorState × List SensorOutput :=
  let streams := state.sensorShouldStream now
  (streams.2, if streams.1 then [.streamed] else [])

def sensorProcessSimple (api : SensorApi) (now : Nat) (reading : Bool) (state : SensorState) :
    SensorState × List SensorOutput :=
  andThen (state.sensorMaybeInit api reading) (stream now)

end SensorState

/-- What happens to a sensor. Times are not truncated. -/
inductive SensorEvent where
  | packet (time : Nat) (broadcast : Bool) (pkt : SensorPacket)
  | process (time : Nat) (reading : Bool)
  | read (reading : Bool)

def SensorState.step (api : SensorApi) (state : SensorState) : SensorEvent → SensorState × List SensorOutput
  | .packet time broadcast pkt => state.sensorHandlePacketSimple api (u32 time) broadcast pkt
  | .process time reading => state.sensorProcessSimple api (u32 time) reading
  | .read reading => state.sensorGetReading reading

def sensorMachine (api : SensorApi) : Machine SensorState SensorEvent SensorOutput := ⟨SensorState.step api⟩

def statusCodes (outputs : List SensorOutput) : List SensorStatus :=
  outputs.filterMap fun output => match output with | .status code => some code | _ => none

theorem statusCodes_append (first second : List SensorOutput) :
    statusCodes (first ++ second) = statusCodes first ++ statusCodes second :=
  List.filterMap_append

/-- Which status may be reported after which. -/
inductive SensorStatus.Next : SensorStatus → SensorStatus → Prop where
  | begin : Next .sleeping .initializing
  /-- Without an `init()`, or without an api. -/
  | atOnce : Next .sleeping .ready
  | again : Next .initializing .initializing
  | read : Next .initializing .ready
  | sleep : Next code .sleeping

/-- The codes reported on the way from one status to another. -/
inductive SensorStatus.Path : SensorStatus → List SensorStatus → SensorStatus → Prop where
  | same : Path code [] code
  | step (next : Next first second) (path : Path second codes last) : Path first (second :: codes) last

theorem SensorStatus.Path.append (early : Path first codes second) (late : Path second later last) :
    Path first (codes ++ later) last := by
  induction early with
  | same => exact late
  | step next _ ih => exact .step next (ih late)

namespace SensorState

open SensorStatus (Path)

variable {state : SensorState} {result : SensorState × List SensorOutput}

/-- One part of a step: it reports every status on its way. -/
def Reports (state : SensorState) (result : SensorState × List SensorOutput) : Prop :=
  Path state.getStatusCode (statusCodes result.2) result.1.getStatusCode

theorem Reports.andThen {second : SensorState → SensorState × List SensorOutput} (early : Reports state result)
    (late : Reports result.1 (second result.1)) : Reports state (Jacdac.andThen result second) := by
  unfold Reports at *
  rw [andThen_snd, andThen_fst, statusCodes_append]
  exact early.append late

/-- Nothing is reported, and the status stays. -/
theorem Reports.silent (quiet : statusCodes result.2 = []) (inited : result.1.jdInited = state.jdInited)
    (read : result.1.gotReading = state.gotReading) : Reports state result := by
  have code : result.1.getStatusCode = state.getStatusCode := by
    unfold getStatusCode
    rw [inited, read]
  unfold Reports
  rw [quiet, code]
  exact .same

theorem setIntensity_reports (api : SensorApi) (value : UInt8) : Reports state (state.setIntensity api value) := by
  unfold setIntensity
  split
  · exact .silent rfl rfl rfl
  · dsimp only
    split
    · exact .step .sleep .same
    · exact .silent rfl rfl rfl

theorem sensorMaybeInit_reports (api : SensorApi) (reading : Bool) :
    Reports state (state.sensorMaybeInit api reading) := by
  unfold sensorMaybeInit
  split
  next due =>
    have asleep : state.getStatusCode = .sleeping := by
      have inited : state.jdInited = false := by simpa using (Bool.and_eq_true_iff.mp due).2
      unfold getStatusCode
      rw [inited]
      rfl
    unfold Reports
    rw [asleep]
    dsimp only
    by_cases early : (api.present && api.init) = true
    · rw [if_pos early]
      split
      · exact .step .begin (.step .read .same)
      · exact .step .begin (.step .again .same)
    · rw [if_neg early]
      split
      · exact .step .atOnce .same
      · exact .step .begin .same
  · exact .silent rfl rfl rfl

theorem sensorGetReading_reports (reading : Bool) : Reports state (state.sensorGetReading reading) := by
  unfold sensorGetReading
  split
  · exact .silent rfl rfl rfl
  next inited =>
    split
    next first =>
      have code : state.getStatusCode = .initializing := by
        have unread : state.gotReading = false := by simpa using (Bool.and_eq_true_iff.mp first).2
        unfold getStatusCode
        rw [if_neg inited, unread]
        rfl
      have done : SensorState.getStatusCode { state with gotReading := true } = .ready := by
        unfold getStatusCode
        rw [if_neg inited]
        rfl
      unfold Reports sensorSendStatus
      dsimp only
      rw [code, done]
      exact .step .read .same
    · exact .silent rfl rfl rfl

theorem streamDue_status (sampled : Bool × Nat) (state : SensorState) :
    (state.streamDue sampled).2.jdInited = state.jdInited ∧
      (state.streamDue sampled).2.gotReading = state.gotReading := by
  unfold streamDue
  split
  · exact ⟨rfl, rfl⟩
  · exact ⟨rfl, rfl⟩

theorem stream_status (now : Nat) (state : SensorState) :
    (state.stream now).1.jdInited = state.jdInited ∧ (state.stream now).1.gotReading = state.gotReading := by
  change (state.sensorShouldStream now).2.jdInited = state.jdInited ∧
    (state.sensorShouldStream now).2.gotReading = state.gotReading
  unfold sensorShouldStream
  split
  · exact ⟨rfl, rfl⟩
  · exact streamDue_status _ state

theorem stream_reports (now : Nat) : Reports state (state.stream now) := by
  obtain ⟨inited, read⟩ := stream_status now state
  refine .silent ?_ inited read
  unfold stream
  dsimp only
  split
  · rfl
  · rfl

theorem sensorHandlePacketSimple_reports (api : SensorApi) (now : Nat) (broadcast : Bool) (pkt : SensorPacket) :
    Reports state (state.sensorHandlePacketSimple api now broadcast pkt) := by
  have refused : statusCodes (if broadcast then [] else [.notImplemented]) = [] := by cases broadcast <;> rfl
  cases pkt with
  | getIntensity => exact .silent rfl rfl rfl
  | getStatusCode => exact .silent rfl rfl rfl
  | getReading => exact .silent rfl rfl rfl
  | getStreaming => exact .silent rfl rfl rfl
  | setIntensity value => exact setIntensity_reports api value
  | setStreamingSamples data =>
    cases data with
    | nil => exact .silent refused rfl rfl
    | cons byte rest =>
      unfold sensorHandlePacketSimple setStreamingSamples
      dsimp only
      split
      · exact .silent rfl rfl rfl
      · exact .silent rfl rfl rfl
  | setStreamingInterval data =>
    cases data with
    | nil => exact .silent refused rfl rfl
    | cons byte rest => exact .silent rfl rfl rfl
  | other => exact .silent refused rfl rfl

theorem step_reports (api : SensorApi) (event : SensorEvent) : Reports state (state.step api event) := by
  cases event with
  | packet time broadcast pkt => exact sensorHandlePacketSimple_reports api (u32 time) broadcast pkt
  | process time reading => exact (sensorMaybeInit_reports api reading).andThen (stream_reports (u32 time))
  | read reading => exact sensorGetReading_reports reading

end SensorState

theorem sensor_status_reported (api : SensorApi) (interval : Nat) (events : List SensorEvent) :
    SensorStatus.Path .sleeping (statusCodes ((sensorMachine api).emitted (.initial interval) events))
      ((sensorMachine api).after (.initial interval) events).getStatusCode := by
  have run (state : SensorState) : SensorStatus.Path state.getStatusCode
      (statusCodes ((sensorMachine api).emitted state events)) ((sensorMachine api).after state events).getStatusCode := by
    induction events generalizing state with
    | nil => exact .same
    | cons event rest ih =>
      rw [Machine.emitted_cons, Machine.after_cons, statusCodes_append]
      exact (SensorState.step_reports api event).append (ih _)
  exact run (.initial interval)

end Jacdac
