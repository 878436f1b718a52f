import Jacdac.Services.Flood

/-! The watchdog of the bus over runs: when `target_reset` is called, and what a read of
`RESET_IN` says. -/

namespace Jacdac

/-- The delay that a write of `RESET_IN` asks for. -/
def ControlSpec.setsResetIn (spec : ControlSpec) : CtrlEvent → Option Nat
  | .packet _ pkt =>
    if pkt.serviceCommand = jdSet spec.resetIn ∧ pkt.data.length = 4 then some (fromLittle pkt.data) else none
  | .process _ _ => none

namespace CtrlEvent

/-- The time of a call of `jd_ctrl_process`. -/
def tick : CtrlEvent → Option Nat
  | .packet _ _ => none
  | .process now _ => some now

/-- It is a call of `jd_ctrl_process` at the deadline or later. -/
def Due (deadline : Nat) (event : CtrlEvent) : Prop := ∃ now, event.tick = some now ∧ deadline ≤ now

/-- It is a read of `RESET_IN`. -/
def Reads (spec : ControlSpec) : CtrlEvent → Prop
  | .packet _ pkt => pkt.serviceCommand = jdGet spec.resetIn
  | .process _ _ => False

end CtrlEvent

/-- Events from `start` on that do not go back in time and do not write the register, with less than
`2 ^ 31` between the calls of `jd_ctrl_process`. -/
structure Watched (spec : ControlSpec) (start : Nat) (events : List CtrlEvent) : Prop where
  ordered : (start :: events.map CtrlEvent.time).IsChain (· ≤ ·)
  frequent : (start :: events.filterMap CtrlEvent.tick).IsChain fun time later => later < time + 2147483648
  kept : ∀ event ∈ events, spec.setsResetIn event = none

/-- What the claim of the register asks of one event, as long as no call was due. -/
structure CtrlEvent.OnTime (spec : ControlSpec) (deadline : Nat) (event : CtrlEvent) (calls : List CtrlCall) : Prop where
  resets : ∀ now, event.tick = some now → (.targetReset ∈ calls ↔ deadline ≤ now)
  answers : ∀ now pkt, event = .packet now pkt → pkt.serviceCommand = jdGet spec.resetIn →
    now < deadline ∧ calls = [.jdSend (pkt.respond (littleEndian 4 (deadline - now)))]

namespace CtrlState

variable {spec : ControlSpec} {state : CtrlState} {event : CtrlEvent} {start delta : Nat}

theorem reset_not_mem_setFlood (num : Nat) : .targetReset ∉ (state.setFlood num).2 := by
  unfold setFlood
  dsimp only
  split
  · simp
  · split <;> simp

theorem processFlood_watchdog (spec : ControlSpec) (state : CtrlState) (idle : Bool) : (state.processFlood spec idle).1.watchdog = state.watchdog ∧
    .targetReset ∉ (state.processFlood spec idle).2 := by
  unfold processFlood
  split
  · refine ⟨rfl, fun member => ?_⟩
    rcases List.mem_append.mp member with early | late
    · exact reset_not_mem_setFlood _ early
    · cases List.mem_singleton.mp late
  · exact ⟨rfl, List.not_mem_nil⟩

theorem process_resets (now : Nat) (idle : Bool) : (state.process spec now idle).1.watchdog = state.watchdog ∧
    (.targetReset ∈ (state.process spec now idle).2 ↔ state.watchdog ≠ 0 ∧ inPast now state.watchdog = true) := by
  obtain ⟨same, absent⟩ := state.processFlood_watchdog spec idle
  refine ⟨same, ?_⟩
  unfold process
  dsimp only
  rw [List.mem_append, checkWatchdog, same]
  split
  · rename_i past
    exact iff_of_true (.inr List.mem_cons_self) past
  · rename_i waits
    exact iff_of_false (fun member => member.elim absent List.not_mem_nil) waits

/-- Only a write of `RESET_IN` changes the watchdog. -/
theorem step_watchdog (kept : spec.setsResetIn event = none) :
    ((ctrlService spec).step state event).1.watchdog = state.watchdog := by
  cases event with
  | process now idle => exact (process_resets (u32 now) idle).1
  | packet now pkt =>
    show (state.handlePacket spec (u32 now) pkt).1.watchdog = state.watchdog
    have other : ¬ (pkt.serviceCommand = jdSet spec.resetIn ∧ pkt.data.length = 4) := fun sets => by
      rw [ControlSpec.setsResetIn, if_pos sets] at kept
      cases kept
    unfold handlePacket
    split
    · rfl
    · split
      · rfl
      · split
        · split <;> rfl
        · split
          · rfl
          · split
            · rename_i set
              rw [if_neg fun length => other ⟨set, length⟩]
            · rfl

theorem step_setsResetIn (now : Nat) (pkt : ServiceRequest) (sets : spec.setsResetIn (.packet now pkt) = some delta) :
    ((ctrlService spec).step state (.packet now pkt)).1.watchdog = if delta ≠ 0 then u32 (u32 now + delta) else 0 := by
  obtain ⟨⟨set, length⟩, value⟩ := Option.ite_none_right_eq_some.mp sets
  cases value
  show (state.handlePacket spec (u32 now) pkt).1.watchdog = _
  have notPing : pkt.serviceCommand ≠ spec.cmdFloodPing := fun ping => spec.ping_ne.2 (ping.symm.trans set)
  have notGet : pkt.serviceCommand ≠ jdGet spec.resetIn := fun get => spec.get_ne_set (set.symm.trans get)
  obtain ⟨reset, standby⟩ := spec.not_reset (.inr (.inr set))
  rw [handlePacket, if_neg reset, if_neg standby, if_neg notPing, if_neg notGet, if_pos set, if_pos length]

theorem step_reads (now : Nat) (pkt : ServiceRequest) (get : pkt.serviceCommand = jdGet spec.resetIn) :
    ((ctrlService spec).step state (.packet now pkt)).2 = [.jdSend (pkt.respond (littleEndian 4
      (if state.watchdog ≠ 0 then u32 (state.watchdog + 4294967296 - u32 now) else state.watchdog)))] := by
  show (state.handlePacket spec (u32 now) pkt).2 = _
  have notPing : pkt.serviceCommand ≠ spec.cmdFloodPing := fun ping => spec.ping_ne.1 (ping.symm.trans get)
  obtain ⟨reset, standby⟩ := spec.not_reset (.inr (.inl get))
  rw [handlePacket, if_neg reset, if_neg standby, if_neg notPing, if_pos get]

/-- While no call was due, one event is on time exactly if the deadline does not wrap to the value that
means no watchdog, and a read comes before it. -/
theorem onTime_iff {deadline : Nat} (armed : state.watchdog = u32 deadline)
    (lower : ∀ now, event.tick = some now → deadline < now + 2147483648 ∧ now < deadline + 2147483648)
    (near : deadline < event.time + 2147483648) :
    event.OnTime spec deadline ((ctrlService spec).step state event).2 ↔
      (event.Due deadline → deadline % 4294967296 ≠ 0) ∧
        (event.Reads spec → event.time < deadline ∧ deadline % 4294967296 ≠ 0) := by
  cases event with
  | process now idle =>
    obtain ⟨soon, late⟩ := lower now rfl
    have resets := (@process_resets spec state (u32 now) idle).2
    have past : inPast (u32 now) (u32 deadline) = true ↔ deadline ≤ now := by
      simp only [inPast, u32, beq_iff_eq]
      omega
    rw [armed, past] at resets
    constructor
    · rintro ⟨exact_, _⟩
      refine ⟨?_, False.elim⟩
      rintro ⟨_, same, due⟩
      cases same
      exact (resets.mp ((exact_ now rfl).mpr due)).1
    · rintro ⟨safe, _⟩
      refine ⟨fun time same => ?_, fun time request same => by cases same⟩
      cases same
      exact resets.trans ⟨fun both => both.2, fun due => ⟨safe ⟨now, rfl, due⟩, due⟩⟩
  | packet now pkt =>
    constructor
    · rintro ⟨_, answers⟩
      refine ⟨?_, fun reads => ?_⟩
      · rintro ⟨_, same, _⟩
        cases same
      · obtain ⟨before, calls⟩ := answers now pkt rfl reads
        refine ⟨before, fun wraps => ?_⟩
        -- a watchdog that is off reads as zero
        have off : u32 deadline = 0 := wraps
        rw [step_reads now pkt reads, armed, off, if_neg (not_not.mpr rfl)] at calls
        have payload : littleEndian 4 0 = littleEndian 4 (deadline - now) := by simpa [ServiceRequest.respond] using calls
        have value := congrArg fromLittle payload
        rw [fromLittle_littleEndian, fromLittle_littleEndian] at value
        have : deadline < now + 2147483648 := near
        omega
    · rintro ⟨_, safe⟩
      refine ⟨fun time same => ?_, ?_⟩
      · cases same
      intro time request same get
      cases same
      obtain ⟨before, wraps⟩ := safe get
      refine ⟨before, ?_⟩
      have on : u32 deadline ≠ 0 := wraps
      rw [step_reads now pkt get, armed, if_pos on]
      have left : u32 (u32 deadline + 4294967296 - u32 now) = deadline - now := by
        have : deadline < now + 2147483648 := near
        have : now < deadline := before
        unfold u32
        omega
      rw [left]

end CtrlState

theorem near_of_chain {ticks rest : List Nat} {start now deadline : Nat}
    (frequent : (start :: (ticks ++ now :: rest)).IsChain fun time later => later < time + 2147483648)
    (ahead : start < deadline) (pending : ∀ tick ∈ ticks, tick < deadline) : now < deadline + 2147483648 := by
  induction ticks generalizing start with
  | nil =>
    have soon := (List.isChain_cons_cons.mp frequent).1
    omega
  | cons tick ticks ih =>
    exact ih (List.isChain_cons_cons.mp frequent).2 (pending tick List.mem_cons_self)
      fun other member => pending other (List.mem_cons_of_mem tick member)

namespace Watched

variable {spec : ControlSpec} {start deadline : Nat} {early late : List CtrlEvent} {event : CtrlEvent}

theorem start_le (watched : Watched spec start (early ++ event :: late)) : start ≤ event.time := by
  have sorted := List.isChain_iff_pairwise.mp watched.ordered
  refine (List.pairwise_cons.mp sorted).1 event.time (List.mem_map_of_mem ?_)
  exact List.mem_append_right early List.mem_cons_self

theorem tick_lt (watched : Watched spec start (early ++ event :: late)) (ahead : start < deadline)
    (pending : ∀ other ∈ early, ¬ other.Due deadline) {now : Nat} (tick : event.tick = some now) :
    now < deadline + 2147483648 := by
  have frequent := watched.frequent
  rw [List.filterMap_append, List.filterMap_cons_some tick] at frequent
  refine near_of_chain frequent ahead fun other member => ?_
  obtain ⟨source, listed, ticked⟩ := List.mem_filterMap.mp member
  exact Nat.lt_of_not_le fun due => pending source listed ⟨other, ticked, due⟩

theorem tick_time {now : Nat} (tick : event.tick = some now) : event.time = now := by
  cases event with
  | packet _ _ => cases tick
  | process _ _ => exact Option.some.inj tick

/-- The watchdog is not touched. -/
theorem after_watchdog (watched : Watched spec start (early ++ event :: late)) {state : CtrlState} :
    ((ctrlService spec).after state early).watchdog = state.watchdog := by
  have kept : ∀ next event, next.watchdog = state.watchdog → spec.setsResetIn event = none →
      ((ctrlService spec).step next event).1.watchdog = state.watchdog :=
    fun _ _ same other => (CtrlState.step_watchdog other).trans same
  exact Machine.after_holds kept rfl fun other member => watched.kept other (List.mem_append_left _ member)

end Watched

/-- After a write of `RESET_IN` with a delay below `2 ^ 31`, as long as it is not written again: up to
the first call of `jd_ctrl_process` at the deadline or later that call and no earlier one resets, and
reads say how many microseconds are left, exactly if up to there the deadline does not wrap to zero
where the watchdog matters, and all reads come before the deadline. -/
theorem reset_in_iff (spec : ControlSpec) (state : CtrlState) {start delta : Nat} {pkt : ServiceRequest}
    (sets : spec.setsResetIn (.packet start pkt) = some delta) (positive : 0 < delta) (small : delta < 2 ^ 31)
    {events : List CtrlEvent} (watched : Watched spec start events) :
    (∀ early event late, events = early ++ event :: late → (∀ other ∈ early, ¬ other.Due (start + delta)) →
      event.OnTime spec (start + delta) ((ctrlService spec).step
        ((ctrlService spec).after ((ctrlService spec).step state (.packet start pkt)).1 early) event).2) ↔
    ∀ early event late, events = early ++ event :: late → (∀ other ∈ early, ¬ other.Due (start + delta)) →
      (event.Due (start + delta) → (start + delta) % 2 ^ 32 ≠ 0) ∧
        (event.Reads spec → event.time < start + delta ∧ (start + delta) % 2 ^ 32 ≠ 0) := by
  refine forall_congr' fun early => forall_congr' fun event => forall_congr' fun late => forall_congr' fun split =>
    forall_congr' fun pending => ?_
  rw [split] at watched
  have armed : ((ctrlService spec).after ((ctrlService spec).step state (.packet start pkt)).1 early).watchdog =
      u32 (start + delta) := by
    rw [watched.after_watchdog, CtrlState.step_setsResetIn start pkt sets, if_pos positive.ne']
    unfold u32
    omega
  have first := watched.start_le
  refine CtrlState.onTime_iff armed (fun now tick => ?_) (by omega)
  rw [Watched.tick_time tick] at first
  exact ⟨by omega, watched.tick_lt (by omega) pending tick⟩

/-- A write of `RESET_IN` with 1000 microseconds, and a read. -/
def resetInWrite : ServiceRequest := ⟨0, 0x2080, false, 0, [232, 3, 0, 0], by decide⟩
def resetInRead : ServiceRequest := ⟨0, 0x1080, false, 0, [], by decide⟩

/-- The first call behind the deadline resets. -/
theorem reset_in_iff_thousand :
    .targetReset ∈ ((ctrlService sampleControlSpec).step ((ctrlService sampleControlSpec).after
      ((ctrlService sampleControlSpec).step .init (.packet 500 resetInWrite)).1
        [.process 900 false, .packet 1200 resetInRead]) (.process 1500 false)).2 := by
  have watched : Watched sampleControlSpec 500 [.process 900 false, .packet 1200 resetInRead, .process 1500 false] := by
    refine ⟨by simp [CtrlEvent.time], by simp [CtrlEvent.tick, List.filterMap_cons], ?_⟩
    simp only [List.mem_cons, List.not_mem_nil, or_false, forall_eq_or_imp, forall_eq]
    exact ⟨rfl, by decide, rfl⟩
  have sets : sampleControlSpec.setsResetIn (.packet 500 resetInWrite) = some 1000 := by decide
  have reads : ∀ event ∈ [.process 900 false, .packet 1200 resetInRead, .process 1500 false],
      CtrlEvent.Reads sampleControlSpec event → event.time < 500 + 1000 := by
    simp [CtrlEvent.Reads, CtrlEvent.time]
  have early : ∀ event ∈ [.process 900 false, .packet 1200 resetInRead], ¬ CtrlEvent.Due (500 + 1000) event := by
    simp [CtrlEvent.Due, CtrlEvent.tick]
  have onTime := (reset_in_iff sampleControlSpec .init sets (by decide) (by decide) watched).mpr
    fun early event late split _ =>
      ⟨fun _ => by decide, fun read => ⟨reads event (by rw [split]; simp) read, by decide⟩⟩
  exact ((onTime _ _ [] rfl early).resets 1500 rfl).mpr (by decide)

/-- A deadline at a multiple of `2 ^ 32` is no watchdog. -/
theorem reset_in_wraps :
    .targetReset ∉ ((ctrlService sampleControlSpec).step
      ((ctrlService sampleControlSpec).step .init (.packet 4294966296 resetInWrite)).1 (.process 4294967301 false)).2 := by
  decide +kernel

end Jacdac
