import Mathlib.Data.List.Pairwise
import Jacdac.Services.Sensor

/-! Streaming of sensor readings: after `streaming_samples` was written the readings
leave at the pace of `streaming_interval`, as many as were asked for. -/

namespace Jacdac

/-- An event that neither writes what streaming goes by nor ends it, as a write of 0 to `intensity` does. -/
def SensorEvent.LeavesStreaming : SensorEvent → Prop
  | .packet _ _ (.setIntensity value) => value ≠ 0
  | .packet _ _ (.setStreamingSamples data) | .packet _ _ (.setStreamingInterval data) => data = []
  | _ => True

/-- When `process()` runs. -/
def processTimes (events : List SensorEvent) : List Nat :=
  events.filterMap fun event => match event with | .process time _ => some time | _ => none

namespace SensorState

variable {state next : SensorState} {api : SensorApi}

/-- Nothing about streaming changes. -/
structure SameStreaming (state next : SensorState) : Prop where
  samples : next.streamingSamples = state.streamingSamples
  interval : next.streamingInterval = state.streamingInterval
  deadline : next.nextStreaming = state.nextStreaming

/-- One part of a step that does not stream. -/
structure NoStream (state : SensorState) (result : SensorState × List SensorOutput) : Prop where
  same : SameStreaming state result.1
  none : result.2.count .streamed = 0

theorem SameStreaming.rfl : SameStreaming state state := ⟨Eq.refl _, Eq.refl _, Eq.refl _⟩

theorem sensorMaybeInit_noStream (api : SensorApi) (reading : Bool) : NoStream state (state.sensorMaybeInit api reading) := by
  unfold sensorMaybeInit
  split
  · dsimp only
    split
    · split
      · exact ⟨⟨rfl, rfl, rfl⟩, rfl⟩
      · exact ⟨⟨rfl, rfl, rfl⟩, rfl⟩
    · split
      · exact ⟨⟨rfl, rfl, rfl⟩, rfl⟩
      · exact ⟨⟨rfl, rfl, rfl⟩, rfl⟩
  · exact ⟨.rfl, rfl⟩

theorem sensorGetReading_noStream (reading : Bool) : NoStream state (state.sensorGetReading reading) := by
  unfold sensorGetReading
  split
  · exact ⟨.rfl, rfl⟩
  · split
    · exact ⟨⟨rfl, rfl, rfl⟩, rfl⟩
    · exact ⟨.rfl, rfl⟩

theorem sensorHandlePacketSimple_noStream {pkt : SensorPacket} {time : Nat} {broadcast : Bool}
    (leaves : SensorEvent.LeavesStreaming (.packet time broadcast pkt)) (now : Nat) :
    NoStream state (state.sensorHandlePacketSimple api now broadcast pkt) := by
  have refused : (if broadcast then [] else [SensorOutput.notImplemented]).count .streamed = 0 := by
    cases broadcast <;> rfl
  cases pkt with
  | getIntensity => exact ⟨.rfl, rfl⟩
  | getStatusCode => exact ⟨.rfl, rfl⟩
  | getReading => exact ⟨⟨rfl, rfl, rfl⟩, rfl⟩
  | getStreaming => exact ⟨.rfl, rfl⟩
  | setIntensity value =>
    have nonzero : value ≠ 0 := leaves
    unfold sensorHandlePacketSimple setIntensity
    dsimp only
    rw [if_pos nonzero]
    exact ⟨⟨rfl, rfl, rfl⟩, rfl⟩
  | setStreamingSamples data =>
    obtain rfl : data = [] := leaves
    exact ⟨.rfl, refused⟩
  | setStreamingInterval data =>
    obtain rfl : data = [] := leaves
    exact ⟨.rfl, refused⟩
  | other => exact ⟨.rfl, refused⟩

/-- What a call of `process()` does about streaming. -/
theorem step_process (api : SensorApi) (state : SensorState) (time : Nat) (reading : Bool) :
    ∃ early, SameStreaming state early ∧ (state.step api (.process time reading)).1 = (early.stream (u32 time)).1 ∧
      (state.step api (.process time reading)).2.count .streamed = (early.stream (u32 time)).2.count .streamed := by
  have first : NoStream state (state.sensorMaybeInit api reading) := sensorMaybeInit_noStream api reading
  refine ⟨(state.sensorMaybeInit api reading).1, first.same, rfl, ?_⟩
  have outputs : (state.step api (.process time reading)).2 =
      (state.sensorMaybeInit api reading).2 ++ ((state.sensorMaybeInit api reading).1.stream (u32 time)).2 := rfl
  rw [outputs, List.count_append, first.none, Nat.zero_add]

/-- All other steps that leave streaming alone. -/
theorem step_noStream (api : SensorApi) (state : SensorState) {event : SensorEvent} (leaves : event.LeavesStreaming)
    (other : processTimes [event] = []) : NoStream state (state.step api event) := by
  cases event with
  | packet time broadcast pkt => exact sensorHandlePacketSimple_noStream leaves (u32 time)
  | process time reading => cases other
  | read reading => exact sensorGetReading_noStream reading

theorem stream_idle (idle : state.streamingSamples = 0) (now : Nat) : state.stream now = (state, []) := by
  unfold stream sensorShouldStream
  rw [if_pos idle]
  rfl

theorem streamDue_interval (sampled : Bool × Nat) (state : SensorState) :
    (state.streamDue sampled).2.streamingInterval = state.streamingInterval := by
  unfold streamDue
  split
  · rfl
  · rfl

theorem stream_interval (state : SensorState) (now : Nat) :
    (state.stream now).1.streamingInterval = state.streamingInterval := by
  change (state.sensorShouldStream now).2.streamingInterval = state.streamingInterval
  unfold sensorShouldStream
  split
  · rfl
  · exact streamDue_interval _ state

/-- What streaming does when readings are left, after this call of `jd_should_sample`. -/
structure Streams (state : SensorState) (sampled : Bool × Nat) (result : SensorState × List SensorOutput) : Prop where
  interval : result.1.streamingInterval = state.streamingInterval
  stored : result.1.nextStreaming = sampled.2
  samples : result.2.count .streamed + result.1.streamingSamples = state.streamingSamples
  streamed : result.2.count .streamed = if sampled.1 then 1 else 0

theorem stream_streams (wanted : state.streamingSamples ≠ 0) (now : Nat) :
    Streams state (jdShouldSample now (u32 (state.streamingInterval * 1000)) state.nextStreaming) (state.stream now) := by
  unfold stream sensorShouldStream
  rw [if_neg wanted]
  generalize jdShouldSample now (u32 (state.streamingInterval * 1000)) state.nextStreaming = sampled
  obtain ⟨due, sample⟩ := sampled
  cases due with
  | true => exact ⟨rfl, rfl, Nat.add_sub_cancel' (Nat.pos_of_ne_zero wanted), rfl⟩
  | false => exact ⟨rfl, rfl, Nat.zero_add _, rfl⟩

end SensorState

section Run

variable {api : SensorApi} {state : SensorState} {events : List SensorEvent}

theorem processTimes_cons (event : SensorEvent) (events : List SensorEvent) :
    processTimes (event :: events) = processTimes [event] ++ processTimes events := by
  cases event <;> rfl

/-- Without samples left nothing streams. -/
theorem streamed_idle (leaves : ∀ event ∈ events, event.LeavesStreaming) (idle : state.streamingSamples = 0) :
    ((sensorMachine api).emitted state events).count .streamed = 0 := by
  induction events generalizing state with
  | nil => rfl
  | cons event rest ih =>
    have later := fun other member => leaves other (List.mem_cons_of_mem event member)
    rw [Machine.emitted_cons, List.count_append]
    cases event with
    | process time reading =>
      obtain ⟨early, same, after, streamed⟩ := state.step_process api time reading
      have none := early.stream_idle (same.samples.trans idle) (u32 time)
      rw [none] at after streamed
      have still : (state.step api (.process time reading)).1.streamingSamples = 0 := by
        rw [after]
        exact same.samples.trans idle
      exact Nat.add_eq_zero_iff.mpr ⟨streamed, ih later still⟩
    | packet time broadcast pkt =>
      have quiet := state.step_noStream api (leaves _ List.mem_cons_self) rfl
      exact Nat.add_eq_zero_iff.mpr ⟨quiet.none, ih later (quiet.same.samples.trans idle)⟩
    | read reading =>
      have quiet := state.step_noStream api (leaves _ List.mem_cons_self) rfl
      exact Nat.add_eq_zero_iff.mpr ⟨quiet.none, ih later (quiet.same.samples.trans idle)⟩

/-- A reading leaves whenever the deadline fires, until there were enough. -/
theorem streamed_fired (api : SensorApi) {deadline : Int} (leaves : ∀ event ∈ events, event.LeavesStreaming)
    (interval : 0 < state.streamingInterval ∧ state.streamingInterval ≤ 100000)
    (ready : Ready deadline state.nextStreaming (processTimes events)) :
    ((sensorMachine api).emitted state events).count .streamed = min state.streamingSamples
      (Deadline.fired (state.streamingInterval * 1000 : Nat) deadline ((processTimes events).map Nat.cast)).length := by
  induction events generalizing state deadline with
  | nil => exact (Nat.min_zero _).symm
  | cons event rest ih =>
    by_cases idle : state.streamingSamples = 0
    · rw [streamed_idle leaves idle, idle, Nat.zero_min]
    have later := fun other member => leaves other (List.mem_cons_of_mem event member)
    -- every step but a call of `process()`
    have silent (quiet : SensorState.NoStream state (state.step api event)) (none : processTimes [event] = []) :
        ((sensorMachine api).emitted state (event :: rest)).count .streamed = min state.streamingSamples
          (Deadline.fired (state.streamingInterval * 1000 : Nat) deadline
            ((processTimes (event :: rest)).map Nat.cast)).length := by
      rw [processTimes_cons, none, List.nil_append] at ready ⊢
      have counted : ((sensorMachine api).emitted (state.step api event).1 rest).count .streamed = _ :=
        ih later (quiet.same.interval ▸ interval) (quiet.same.deadline ▸ ready)
      have here : ((sensorMachine api).step state event).2.count .streamed = 0 := quiet.none
      rw [quiet.same.samples, quiet.same.interval] at counted
      rw [Machine.emitted_cons, List.count_append, here, Nat.zero_add]
      exact counted
    cases event with
    | packet time broadcast pkt => exact silent (state.step_noStream api (leaves _ List.mem_cons_self) rfl) rfl
    | read reading => exact silent (state.step_noStream api (leaves _ List.mem_cons_self) rfl) rfl
    | process time reading =>
      obtain ⟨early, ⟨samples, same, stored⟩, after, streamed⟩ := state.step_process api time reading
      have times : processTimes (.process time reading :: rest) = time :: processTimes rest := rfl
      rw [times] at ready
      have positive : 0 < state.streamingInterval * 1000 := by omega
      have small : state.streamingInterval * 1000 < 2 ^ 30 := by omega
      have period : u32 (state.streamingInterval * 1000) = state.streamingInterval * 1000 := u32_of_lt (by omega)
      obtain ⟨pace, kept, left, due⟩ := early.stream_streams (samples ▸ idle) (u32 time)
      rw [same, stored, period, (ready.near time rfl).call positive small] at kept due
      dsimp only at kept
      simp only [decide_eq_true_eq] at due
      have onward := ready.after positive small
      rw [← kept] at onward
      have counted := ih later (by rw [pace, same]; exact interval) onward
      rw [pace, same] at counted
      rw [Machine.emitted_cons, List.count_append, times, List.map_cons, Deadline.fired_cons_length]
      change (state.step api (.process time reading)).2.count .streamed +
        ((sensorMachine api).emitted (state.step api (.process time reading)).1 rest).count .streamed = _
      rw [streamed, after, counted, ← due, ← samples]
      omega

end Run

namespace Timely

variable {times : List Nat} {time period : Nat}

/-- A deadline at the first of the times is near to the next. -/
theorem ready (timely : Timely (time :: times)) : Ready time (u32 time) times := by
  have value : (u32 time : Int) = (time : Int) % 4294967296 := Int.natCast_mod time 4294967296
  refine ⟨value, fun first head => ?_, timely.of_cons⟩
  obtain ⟨rest, rfl⟩ := List.head?_eq_some_iff.mp head
  obtain ⟨onward, soon⟩ := (List.isChain_cons_cons.mp timely).1
  exact ⟨value, by omega, by omega⟩

theorem le_last (timely : Timely (time :: times)) (moment : Int) (member : moment ∈ times.map Nat.cast) :
    moment ≤ (time :: times).getLast (List.cons_ne_nil _ _) := by
  obtain ⟨look, inside, rfl⟩ := List.mem_map.mp member
  have ordered : (time :: times).Pairwise (· ≤ ·) :=
    List.isChain_iff_pairwise.mp (timely.imp fun _ _ near => near.1)
  exact Int.ofNat_le.mpr (ordered.rel_getLast (List.mem_cons_of_mem time inside))

theorem prompt (timely : Timely (time :: times))
    (prompt : (time :: times).IsChain fun look next => next ≤ look + period) :
    ((time : Int) :: times.map Nat.cast).IsChain fun look next => look ≤ next ∧ next ≤ look + (period : Int) := by
  induction times generalizing time with
  | nil => exact .singleton _
  | cons look rest ih =>
    obtain ⟨⟨onward, _⟩, timely⟩ := List.isChain_cons_cons.mp timely
    obtain ⟨soon, prompt⟩ := List.isChain_cons_cons.mp prompt
    exact .cons_cons ⟨Int.ofNat_le.mpr onward, by exact_mod_cast soon⟩ (ih timely prompt)

theorem fired (timely : Timely (time :: times))
    (prompt : (time :: times).IsChain fun look next => next ≤ look + period) :
    (time :: times).getLast (List.cons_ne_nil _ _) ≤
      time + (Deadline.fired period time (times.map Nat.cast)).length * period := by
  have firing := Deadline.fired_prompt (Int.le_refl time) (timely.prompt prompt)
  have mapped : ((time :: times).map (Nat.cast : Nat → Int)) ≠ [] := List.cons_ne_nil _ _
  have final : ((time :: times).map Nat.cast).getLast mapped = (((time :: times).getLast (List.cons_ne_nil _ _) : Nat) : Int) :=
    List.getLast_map mapped
  change ((time :: times).map Nat.cast).getLast mapped ≤ _ at firing
  rw [final] at firing
  exact_mod_cast firing

end Timely

namespace SensorState

variable {state : SensorState}

theorem setIntensity_interval (api : SensorApi) (value : UInt8) :
    (state.setIntensity api value).1.streamingInterval = state.streamingInterval := by
  unfold setIntensity
  split
  · rfl
  · dsimp only
    split
    · rfl
    · rfl

/-- What a request for readings leaves. -/
theorem setStreamingSamples_wanted {value : Nat} (wanted : value ≠ 0) (now : Nat)
    (bound : state.streamingInterval ≤ 100000) :
    (state.setStreamingSamples now value).streamingSamples = value ∧
      (state.setStreamingSamples now value).nextStreaming = now ∧
      0 < (state.setStreamingSamples now value).streamingInterval ∧
      (state.setStreamingSamples now value).streamingInterval ≤ 100000 := by
  unfold setStreamingSamples
  dsimp only
  rw [if_pos wanted]
  refine ⟨rfl, rfl, ?_⟩
  dsimp only
  split
  · omega
  · omega

theorem setStreamingSamples_interval (now value : Nat) (bound : state.streamingInterval ≤ 100000) :
    (state.setStreamingSamples now value).streamingInterval ≤ 100000 := by
  by_cases wanted : value = 0
  · unfold setStreamingSamples
    dsimp only
    rw [if_neg (not_not.mpr wanted)]
    exact bound
  · exact (setStreamingSamples_wanted wanted now bound).2.2.2

theorem setStreamingInterval_interval (value : Nat) :
    (state.setStreamingInterval value).streamingInterval ≤ 100000 := by
  unfold setStreamingInterval
  dsimp only
  generalize (if value < 20 then 20 else value) = interval
  split
  · omega
  · omega

/-- The interval stays in its range. -/
theorem step_interval (api : SensorApi) (event : SensorEvent) (bound : state.streamingInterval ≤ 100000) :
    (state.step api event).1.streamingInterval ≤ 100000 := by
  cases event with
  | process time reading =>
    obtain ⟨early, same, after, _⟩ := state.step_process api time reading
    rw [after, early.stream_interval, same.interval]
    exact bound
  | read reading =>
    have quiet : NoStream state (state.step api (.read reading)) := sensorGetReading_noStream reading
    rw [quiet.same.interval]
    exact bound
  | packet time broadcast pkt =>
    cases pkt with
    | getIntensity => exact bound
    | getStatusCode => exact bound
    | getReading => exact bound
    | getStreaming => exact bound
    | other => exact bound
    | setIntensity value => exact (setIntensity_interval api value).symm ▸ bound
    | setStreamingSamples data =>
      cases data with
      | nil => exact bound
      | cons byte rest => exact setStreamingSamples_interval (u32 time) byte.toNat bound
    | setStreamingInterval data =>
      cases data with
      | nil => exact bound
      | cons byte rest => exact setStreamingInterval_interval _

theorem step_request (api : SensorApi) (state : SensorState) (time : Nat) (broadcast : Bool) (value : UInt8)
    (data : List UInt8) : (state.step api (.packet time broadcast (.setStreamingSamples (value :: data)))).1 =
      state.setStreamingSamples (u32 time) value.toNat := rfl

end SensorState

/-- With an interval of at most 100 s at first, after a request for `value` readings and no other request that
changes or ends the streaming: no more leave than were asked for; none earlier than the interval allows; and all of them, once `process()` has
run at least once in every interval for so long. -/
theorem sensor_streams (api : SensorApi) {interval : Nat} (bound : interval ≤ 100000) (before : List SensorEvent)
    {value : UInt8} (wanted : value ≠ 0) (data : List UInt8) {time : Nat} (broadcast : Bool) {later : List SensorEvent}
    (leaves : ∀ event ∈ later, event.LeavesStreaming) (timely : Timely (time :: processTimes later)) :
    let request := before ++ [.packet time broadcast (.setStreamingSamples (value :: data))]
    let start := (sensorMachine api).after (.initial interval) request
    let period := start.streamingInterval * 1000
    let sent := ((sensorMachine api).emitted start later).count .streamed
    let last := (time :: processTimes later).getLast (List.cons_ne_nil _ _)
    sent ≤ value.toNat ∧
    (∀ count, count < sent → time + count * period < last) ∧
    ((time :: processTimes later).IsChain (fun time next => next ≤ time + period) → time + value.toNat * period ≤ last →
      sent = value.toNat) := by
  intro request start period sent last
  obtain ⟨reached, small, within⟩ : ∃ reached : SensorState, reached.streamingInterval ≤ 100000 ∧
      start = reached.setStreamingSamples (u32 time) value.toNat := by
    refine ⟨(sensorMachine api).after (.initial interval) before, ?_,
      Machine.after_concat.trans (SensorState.step_request api _ time broadcast value data)⟩
    have kept (state : SensorState) (event : SensorEvent) (bounded : state.streamingInterval ≤ 100000) (_ : True) :
        ((sensorMachine api).step state event).1.streamingInterval ≤ 100000 := SensorState.step_interval api event bounded
    exact Machine.after_holds kept bound fun _ _ => trivial
  have positive : value.toNat ≠ 0 := fun zero => wanted (UInt8.toNat_inj.mp zero)
  obtain ⟨samples, stored, lower, upper⟩ := SensorState.setStreamingSamples_wanted positive (u32 time) small
  rw [← within] at samples stored lower upper
  have ready : Ready time start.nextStreaming (processTimes later) := by
    rw [stored]
    exact timely.ready
  have counted := streamed_fired api leaves ⟨lower, upper⟩ ready
  change sent = min start.streamingSamples _ at counted
  rw [samples] at counted
  refine ⟨counted ▸ Nat.min_le_left _ _, fun count fewer => ?_, fun prompt long => ?_⟩
  · have often : count + 1 ≤ (Deadline.fired period time ((processTimes later).map Nat.cast)).length :=
      Nat.le_trans fewer (counted ▸ Nat.min_le_right _ _)
    have spread := Deadline.fired_length (Int.natCast_nonneg period) timely.le_last often
    exact_mod_cast spread
  · have enough : value.toNat * period ≤ (Deadline.fired period time ((processTimes later).map Nat.cast)).length * period :=
      Nat.le_of_add_le_add_left (Nat.le_trans long (timely.fired prompt))
    rw [counted]
    exact Nat.min_eq_left (Nat.le_of_mul_le_mul_right enough (by omega))

/-- Two readings asked for at 10 ms, with the interval of 20 ms written before: both have left
by 52 ms. -/
theorem sensor_streams_two :
    ((sensorMachine ⟨true, true, true⟩).emitted
      ((sensorMachine ⟨true, true, true⟩).after (.initial 500)
        ([.packet 0 false (.setStreamingInterval [5])] ++ [.packet 10000 false (.setStreamingSamples [2])]))
      [.process 30000 true, .process 45000 true, .process 52000 true]).count .streamed = 2 := by
  have timely : Timely (10000 :: processTimes [.process 30000 true, .process 45000 true, .process 52000 true]) := by
    simp [Timely, processTimes]
  have leaves : ∀ event ∈ [SensorEvent.process 30000 true, .process 45000 true, .process 52000 true],
      event.LeavesStreaming := by
    intro event member
    simp only [List.mem_cons, List.not_mem_nil, or_false] at member
    rcases member with rfl | rfl | rfl <;> trivial
  have pace : ((sensorMachine ⟨true, true, true⟩).after (.initial 500)
      ([.packet 0 false (.setStreamingInterval [5])] ++
        [.packet 10000 false (.setStreamingSamples [2])])).streamingInterval = 20 := by decide
  obtain ⟨_, _, all⟩ := sensor_streams ⟨true, true, true⟩ (show 500 ≤ 100000 by omega)
    [.packet 0 false (.setStreamingInterval [5])] (show (2 : UInt8) ≠ 0 by decide) [] false leaves timely
  rw [pace] at all
  exact all (by simp [processTimes]) (by decide)

end Jacdac
