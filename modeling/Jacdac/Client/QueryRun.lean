import Jacdac.Client.QueryClear
import Jacdac.Client.RoleRun

/-! Runs of the register cache: services are queried, values and refusals are reported,
queries are cleared, and devices come and go. -/

namespace Jacdac

structure QueryConfig where
  allocator : Allocator
  commandNotImplemented : Nat

/-- The addresses of the devices, and the queries in memory. -/
structure QueryWorld where
  devices : List Nat
  heap : QueryHeap

inductive QueryStep where
  | announce
  | query (d idx : Nat) (regCode : Int) (nowMs refreshMs : Nat)
  | report (d idx : Nat) (pkt : RegPacket)
  | clear (d serviceIdx : Nat)
  | remove (d : Nat)

namespace QueryWorld

def init : QueryWorld := ⟨[], .init⟩

/-- The memory of a new device comes zeroed; a device that goes has its queries cleared by
`jd_device_free`. -/
def step (config : QueryConfig) (world : QueryWorld) : QueryStep → Except QueryFault QueryWorld
  | .announce =>
    let d := config.allocator.alloc (world.devices ++ world.heap.live ++ world.heap.buffers)
    .ok ⟨d :: world.devices, { world.heap with queries := Function.update world.heap.queries d none }⟩
  | .query d idx regCode nowMs refreshMs =>
    match world.heap.jdServiceQuery config.allocator world.devices nowMs d idx regCode refreshMs with
    | .error fault => .error fault
    | .ok (_, _, heap) => .ok ⟨world.devices, heap⟩
  | .report d idx pkt =>
    match world.heap.handleRegister config.allocator config.commandNotImplemented world.devices d idx pkt with
    | .error fault => .error fault
    | .ok (_, heap) => .ok ⟨world.devices, heap⟩
  | .clear d serviceIdx =>
    match world.heap.jdDeviceClearQueries d serviceIdx with
    | .error fault => .error fault
    | .ok heap => .ok ⟨world.devices, heap⟩
  | .remove d =>
    match world.heap.jdDeviceClearQueries d 0xff with
    | .error fault => .error fault
    | .ok heap => .ok ⟨world.devices.erase d, heap⟩

/-- The step is about a device in memory, and a service index and a payload of a packet. -/
def Meant (world : QueryWorld) : QueryStep → Prop
  | .announce => True
  | .query d idx _ _ _ => d ∈ world.devices ∧ idx < 64
  | .report d idx pkt => d ∈ world.devices ∧ idx < 64 ∧ pkt.data.length ≤ 236
  | .clear d _ => d ∈ world.devices
  | .remove d => d ∈ world.devices

end QueryWorld

/-- The report has the value of a register, and does not refuse a command. -/
def RegPacket.IsValue (commandNotImplemented : Nat) (pkt : RegPacket) : Prop :=
  ¬ (pkt.data.length ≥ 4 ∧ pkt.serviceCommand = commandNotImplemented) ∧ isGet pkt.serviceCommand

/-- The step is no report of a short value for a query that stores a long one. -/
def KeepsBuffers (config : QueryConfig) (world : QueryWorld) : QueryStep → Prop
  | .report d idx pkt => pkt.IsValue config.commandNotImplemented →
    ∀ q, world.heap.jdServiceQueryLookup d idx (regCode pkt.serviceCommand) = .ok (some q) →
      registerQueryMaxInline < (world.heap.query q).respSize → registerQueryMaxInline < pkt.data.length
  | _ => True

/-- Runs of steps that are permitted where they are taken. -/
inductive QueryRun (config : QueryConfig) (permitted : QueryWorld → QueryStep → Prop) : QueryWorld → Prop where
  | init : QueryRun config permitted .init
  | step (run : QueryRun config permitted world) (step : QueryStep) (meant : world.Meant step)
      (allowed : permitted world step) (done : world.step config step = .ok next) : QueryRun config permitted next

/-- The live buffers are those that the queries with a long value point to. -/
def QueryHeap.BuffersOwned (heap : QueryHeap) : Prop :=
  heap.buffers.Nodup ∧ ∀ address, address ∈ heap.buffers ↔
    ∃ q ∈ heap.live, registerQueryMaxInline < (heap.query q).respSize ∧ (heap.query q).value = .buffer address

namespace QueriesHold

variable {heap : QueryHeap} {devices : List Nat} {nodes : Nat → List Nat} {lost : List Nat} {d q : Nat}

theorem init : QueriesHold .init [] (fun _ => []) [] where
  apart := List.nodup_nil
  chain _ member := by cases member
  live := .refl _
  distinct := List.nodup_nil
  values _ present := by cases present
  indexed _ present := by cases present
  buffers := .refl _
  single := List.nodup_nil

theorem announce (holds : QueriesHold heap devices nodes lost) (fresh : d ∉ devices) :
    QueriesHold { heap with queries := Function.update heap.queries d none } (d :: devices)
      (Function.update nodes d []) lost := by
  have others : ∀ e ∈ devices, e ≠ d := by
    rintro e other rfl
    exact fresh other
  refine ⟨List.nodup_cons.mpr ⟨fresh, holds.apart⟩, fun e member => ?_, ?_, holds.distinct, holds.values,
    holds.indexed, holds.buffers, holds.single⟩
  · dsimp only
    rcases List.mem_cons.mp member with rfl | other
    · rw [Function.update_self, Function.update_self]
      rfl
    · rw [Function.update_of_ne (others e other), Function.update_of_ne (others e other)]
      exact holds.chain e other
  · refine holds.live.trans (List.Perm.of_eq ?_)
    rw [List.flatMap_cons, Function.update_self, List.nil_append]
    exact List.flatMap_congr fun e other => by rw [Function.update_of_ne (others e other)]

/-- A device without queries can go. -/
theorem remove (holds : QueriesHold heap devices nodes lost) (member : d ∈ devices) (cleared : nodes d = []) :
    QueriesHold heap (devices.erase d) nodes lost := by
  refine ⟨holds.apart.erase _, fun e other => holds.chain e (List.mem_of_mem_erase other), ?_, holds.distinct,
    holds.values, holds.indexed, holds.buffers, holds.single⟩
  simpa [cleared] using holds.focus member

theorem query (holds : QueriesHold heap devices nodes lost) (member : d ∈ devices) (allocator : Allocator)
    (nowMs : Nat) {idx : Nat} (service : idx < 64) (regCode : Int) (refreshMs : Nat) :
    ∃ result nodes', heap.jdServiceQuery allocator devices nowMs d idx regCode refreshMs = .ok result ∧
      QueriesHold result.2.2 devices nodes' lost := by
  unfold QueryHeap.jdServiceQuery
  rw [holds.lookup member]
  dsimp only
  cases (nodes d).find? fun q => (heap.query q).isFor idx regCode with
  | some q => exact ⟨_, nodes, rfl, holds.refreshQuery nowMs refreshMs q⟩
  | none =>
    obtain ⟨q, _, _, added⟩ := holds.addQuery member allocator service regCode
    exact ⟨_, _, rfl, added.refreshQuery nowMs refreshMs _⟩

/-- What `handle_register` does with a report: it stores a value or changes nothing but flags. -/
theorem handleRegister (holds : QueriesHold heap devices nodes lost) (member : d ∈ devices) (config : QueryConfig)
    (idx : Nat) (pkt : RegPacket) :
    ∃ changed next, heap.handleRegister config.allocator config.commandNotImplemented devices d idx pkt =
        .ok (changed, next) ∧
      ((pkt.IsValue config.commandNotImplemented ∧ ∃ q, heap.jdServiceQueryLookup d idx (regCode pkt.serviceCommand) =
          .ok (some q) ∧ Reported heap next devices nodes lost q pkt.data) ∨
        (QueriesHold next devices nodes lost ∧ (pkt.IsValue config.commandNotImplemented →
          heap.jdServiceQueryLookup d idx (regCode pkt.serviceCommand) = .ok none))) := by
  unfold QueryHeap.handleRegister
  by_cases refusal : pkt.data.length ≥ 4 ∧ pkt.serviceCommand = config.commandNotImplemented
  · rw [if_pos refusal]
    dsimp only
    have other : ¬ pkt.IsValue config.commandNotImplemented := fun value => value.1 refusal
    split
    · rw [holds.lookup member]
      cases (nodes d).find? _ with
      | none => exact ⟨_, _, rfl, .inr ⟨holds, fun value => absurd value other⟩⟩
      | some q => exact ⟨_, _, rfl, .inr ⟨holds.markNotImplemented q, fun value => absurd value other⟩⟩
    · exact ⟨_, _, rfl, .inr ⟨holds, fun value => absurd value other⟩⟩
  · rw [if_neg refusal]
    by_cases get : isGet pkt.serviceCommand = true
    · rw [if_pos get]
      have lookup := holds.lookup member idx (regCode pkt.serviceCommand)
      cases found : (nodes d).find? fun q => (heap.query q).isFor idx (regCode pkt.serviceCommand) with
      | none =>
        rw [found] at lookup
        rw [lookup]
        exact ⟨_, _, rfl, .inr ⟨holds, fun _ => rfl⟩⟩
      | some q =>
        rw [found] at lookup
        rw [lookup]
        obtain ⟨changed, next, done, reported⟩ := holds.storeReport (holds.lookup_live member lookup) config.allocator pkt.data
        exact ⟨changed, next, done, .inl ⟨⟨refusal, get⟩, q, rfl, reported⟩⟩
    · rw [if_neg get]
      exact ⟨_, _, rfl, .inr ⟨holds, fun value => absurd value.2 get⟩⟩

end QueriesHold

namespace QueryWorld

variable {world : QueryWorld} {nodes : Nat → List Nat} {lost : List Nat}

/-- No step fails, and only a short report for a long value loses a buffer. -/
theorem step_holds (config : QueryConfig) (holds : QueriesHold world.heap world.devices nodes lost) (step : QueryStep)
    (meant : world.Meant step) :
    ∃ next nodes' lost', world.step config step = .ok next ∧ QueriesHold next.heap next.devices nodes' lost' ∧
      (KeepsBuffers config world step → lost' = lost) := by
  cases step with
  | announce =>
    have fresh := config.allocator.fresh (world.devices ++ world.heap.live ++ world.heap.buffers)
    have unused : config.allocator.alloc (world.devices ++ world.heap.live ++ world.heap.buffers) ∉ world.devices :=
      fun used => fresh (List.mem_append_left _ (List.mem_append_left _ used))
    exact ⟨_, _, lost, rfl, holds.announce unused, fun _ => rfl⟩
  | query d idx regCode nowMs refreshMs =>
    obtain ⟨result, nodes', done, after⟩ := holds.query meant.1 config.allocator nowMs meant.2 regCode refreshMs
    refine ⟨⟨world.devices, result.2.2⟩, nodes', lost, ?_, after, fun _ => rfl⟩
    rw [QueryWorld.step, done]
  | report d idx pkt =>
    obtain ⟨changed, next, done, cases_⟩ := holds.handleRegister meant.1 config idx pkt
    rcases cases_ with ⟨value, q, found, reported⟩ | ⟨after, _⟩
    · refine ⟨⟨world.devices, next⟩, nodes, _, ?_, reported.holds, fun keeps => ?_⟩
      · rw [QueryWorld.step, done]
      · by_cases short : pkt.data.length ≤ registerQueryMaxInline
        · have before : (world.heap.query q).respSize ≤ registerQueryMaxInline :=
            Nat.le_of_not_lt fun long => absurd (keeps value q found long) (Nat.not_lt.mpr short)
          rw [if_pos short, QueryStores.buffer?_of_le before]
          rfl
        · rw [if_neg short]
    · refine ⟨⟨world.devices, next⟩, nodes, lost, ?_, after, fun _ => rfl⟩
      rw [QueryWorld.step, done]
  | clear d serviceIdx =>
    obtain ⟨next, done, _, after⟩ := holds.clear meant serviceIdx
    refine ⟨⟨world.devices, next⟩, _, lost, ?_, after, fun _ => rfl⟩
    rw [QueryWorld.step, done]
  | remove d =>
    obtain ⟨next, done, _, after⟩ := holds.clear meant 0xff
    refine ⟨⟨world.devices.erase d, next⟩, _, lost, ?_, after.remove meant ?_, fun _ => rfl⟩
    · rw [QueryWorld.step, done]
    · rw [Function.update_self]
      exact List.filter_eq_nil_iff.mpr fun q _ => by simp [RegisterQuery.clearedBy]

end QueryWorld

namespace QueryRun

variable {config : QueryConfig} {permitted : QueryWorld → QueryStep → Prop} {world : QueryWorld}

theorem holds (run : QueryRun config permitted world) :
    ∃ nodes lost, QueriesHold world.heap world.devices nodes lost := by
  induction run with
  | init => exact ⟨_, _, .init⟩
  | step run step meant allowed done ih =>
    obtain ⟨nodes, lost, holds⟩ := ih
    obtain ⟨next, nodes', lost', ran, after, _⟩ := QueryWorld.step_holds config holds step meant
    cases done.symm.trans ran
    exact ⟨nodes', lost', after⟩

theorem holds_all (run : QueryRun config (KeepsBuffers config) world) :
    ∃ nodes, QueriesHold world.heap world.devices nodes [] := by
  induction run with
  | init => exact ⟨_, .init⟩
  | step run step meant allowed done ih =>
    obtain ⟨nodes, holds⟩ := ih
    obtain ⟨next, nodes', lost', ran, after, keeps⟩ := QueryWorld.step_holds config holds step meant
    cases done.symm.trans ran
    rw [keeps allowed] at after
    exact ⟨nodes', after⟩

end QueryRun

theorem QueriesHold.owned {heap : QueryHeap} {devices : List Nat} {nodes : Nat → List Nat}
    (holds : QueriesHold heap devices nodes []) : heap.BuffersOwned := by
  refine ⟨holds.single, fun address => ?_⟩
  rw [holds.buffers.mem_iff, List.append_nil, QueryHeap.owned, List.mem_filterMap]
  constructor
  · rintro ⟨q, present, found⟩
    obtain ⟨data, stores⟩ := holds.values q present
    by_cases long : registerQueryMaxInline < (heap.query q).respSize
    · obtain ⟨other, value, owned, _⟩ := stores.long long
      cases owned.symm.trans found
      exact ⟨q, present, long, value⟩
    · rw [QueryStores.buffer?_of_le (Nat.le_of_not_lt long)] at found
      cases found
  · rintro ⟨q, present, long, value⟩
    refine ⟨q, present, ?_⟩
    rw [RegisterQuery.buffer?, if_pos long, value]

/-- In a run without short reports for long values, the live buffers are those that queries point to. No
step frees a buffer that is not live, or uses one, and a report leaves its payload in the query. -/
theorem register_cache_owns_buffers {config : QueryConfig} {world : QueryWorld}
    (run : QueryRun config (KeepsBuffers config) world) :
    world.heap.BuffersOwned ∧
    (∀ step, world.Meant step → ∃ next, world.step config step = .ok next) ∧
    ∀ d idx pkt next, world.Meant (.report d idx pkt) → pkt.IsValue config.commandNotImplemented →
      world.step config (.report d idx pkt) = .ok next →
      ∀ q, world.heap.jdServiceQueryLookup d idx (regCode pkt.serviceCommand) = .ok (some q) →
        next.heap.jdRegisterData q = .ok pkt.data ∧ (next.heap.query q).respSize = pkt.data.length := by
  obtain ⟨nodes, holds⟩ := run.holds_all
  refine ⟨holds.owned, fun step meant => ?_, fun d idx pkt next meant value done q found => ?_⟩
  · obtain ⟨next, _, _, ran, _⟩ := QueryWorld.step_holds config holds step meant
    exact ⟨next, ran⟩
  · obtain ⟨changed, heap, handled, ⟨_, other, same, reported⟩ | ⟨_, none_⟩⟩ :=
      holds.handleRegister meant.1 config idx pkt
    · cases found.symm.trans same
      rw [QueryWorld.step, handled] at done
      cases done
      exact ⟨reported.holds.jdRegisterData reported.present reported.stores, reported.stores.length.symm⟩
    · cases found.symm.trans (none_ value)

def queryConfig : QueryConfig := ⟨freshAllocator, 3⟩

def fiveBytes : QueryStep := .report 1 1 ⟨0x1101, [1, 2, 3, 4, 5]⟩

theorem register_cache_owns_buffers_five :
    ∃ world, QueryRun queryConfig (KeepsBuffers queryConfig) world ∧ world.heap.buffers = [4] ∧
      world.heap.BuffersOwned := by
  have empty : QueryRun queryConfig (KeepsBuffers queryConfig) _ := .step .init .announce trivial trivial rfl
  have queried : QueryRun queryConfig (KeepsBuffers queryConfig) _ :=
    .step empty (.query 1 1 0x101 0 0) ⟨by decide, by decide⟩ trivial rfl
  have reported : QueryRun queryConfig (KeepsBuffers queryConfig) _ :=
    .step queried fiveBytes ⟨by decide, by decide, by decide⟩ (fun _ _ _ _ => by decide) rfl
  exact ⟨_, reported, by decide, (register_cache_owns_buffers reported).1⟩

/-- A report of one byte then overwrites the pointer to the buffer. -/
theorem register_cache_loses_buffer :
    ∃ world, QueryRun queryConfig (fun _ _ => True) world ∧ ¬ world.heap.BuffersOwned := by
  have empty : QueryRun queryConfig (fun _ _ => True) _ := .step .init .announce trivial trivial rfl
  have queried : QueryRun queryConfig (fun _ _ => True) _ :=
    .step empty (.query 1 1 0x101 0 0) ⟨by decide, by decide⟩ trivial rfl
  have reported : QueryRun queryConfig (fun _ _ => True) _ :=
    .step queried fiveBytes ⟨by decide, by decide, by decide⟩ trivial rfl
  have shortened : QueryRun queryConfig (fun _ _ => True) _ :=
    .step reported (.report 1 1 ⟨0x1101, [1]⟩) ⟨by decide, by decide, by decide⟩ trivial rfl
  refine ⟨_, shortened, fun owned => ?_⟩
  obtain ⟨q, present, long, _⟩ := (owned.2 4).mp (by decide)
  have only : q = 2 := by
    have listed : q ∈ [2] := present
    exact List.mem_singleton.mp listed
  subst only
  exact absurd long (by decide)

/-- What clearing the queries of a service is for: none of them is found, and those of the other
services stay, in order. -/
structure ServiceCleared (heap next : QueryHeap) (d idx : Nat) : Prop where
  gone : ∀ regCode : Int, next.jdServiceQueryLookup d idx regCode = .ok none
  kept : (next.queryList d).filter (fun q => (next.query q).serviceIndex % 64 ≠ idx) =
    (heap.queryList d).filter fun q => (heap.query q).serviceIndex % 64 ≠ idx
  contents : ∀ q ∈ next.queryList d, next.query q = heap.query q

theorem RegisterQuery.Indexed.plain_iff {query : RegisterQuery} (indexed : query.Indexed) :
    query.notImplemented = false ↔ query.serviceIndex = query.serviceIndex % 64 := by
  obtain ⟨service, byte⟩ := indexed
  rw [RegisterQuery.notImplemented, Nat.testBit_eq_decide_div_mod_eq, decide_eq_false_iff_not]
  omega

namespace QueriesHold

variable {heap : QueryHeap} {devices : List Nat} {nodes : Nat → List Nat} {lost : List Nat} {d idx : Nat}

/-- Nothing is found exactly if no query of the service is left. -/
theorem lookup_none_iff (holds : QueriesHold heap devices nodes lost) (member : d ∈ devices) (idx : Nat) :
    (∀ regCode : Int, heap.jdServiceQueryLookup d idx regCode = .ok none) ↔
      ∀ q ∈ nodes d, (heap.query q).serviceIndex % 64 ≠ idx := by
  constructor
  · intro gone q listed here
    have missing := gone (heap.query q).regCode
    rw [holds.lookup member] at missing
    have other := List.find?_eq_none.mp (Except.ok.inj missing) q listed
    exact other (decide_eq_true ⟨rfl, here⟩)
  · intro others regCode
    rw [holds.lookup member]
    refine congrArg Except.ok (List.find?_eq_none.mpr fun q listed matches_ => ?_)
    exact others q listed (of_decide_eq_true matches_).2

theorem serviceCleared_iff (holds : QueriesHold heap devices nodes lost) (member : d ∈ devices) (service : idx < 64) :
    (∃ next, heap.jdDeviceClearQueries d idx = .ok next ∧ ServiceCleared heap next d idx) ↔
      ∀ q ∈ heap.queryList d, (heap.query q).serviceIndex % 64 = idx → (heap.query q).notImplemented = false := by
  obtain ⟨next, done, relinked, after⟩ := holds.clear member idx
  have list : next.queryList d = heap.spared idx (nodes d) := by
    rw [after.queryList member, Function.update_self]
  have cleared : ∀ q, (heap.query q).clearedBy idx = true ↔ (heap.query q).serviceIndex = idx := by
    intro q
    rw [RegisterQuery.clearedBy, decide_eq_true_iff]
    omega
  have gone := after.lookup_none_iff member idx
  rw [Function.update_self, relinked.query] at gone
  have indexed : ∀ q ∈ nodes d, (heap.query q).Indexed := fun q listed => holds.indexed q (holds.mem_live member listed)
  rw [holds.queryList member]
  constructor
  · rintro ⟨other, same, result⟩ q listed here
    cases done.symm.trans same
    have out : q ∉ heap.spared idx (nodes d) := fun stays => gone.mp result.gone q stays here
    have matches_ : (heap.query q).clearedBy idx = true := by
      by_contra spares
      exact out (List.mem_filter.mpr ⟨listed, by simpa using spares⟩)
    rw [(indexed q listed).plain_iff, here]
    exact (cleared q).mp matches_
  · intro plain
    refine ⟨next, done, gone.mpr fun q stays here => ?_, ?_, fun q _ => by rw [relinked.query]⟩
    · obtain ⟨listed, spares⟩ := List.mem_filter.mp stays
      have unmarked := (indexed q listed).plain_iff.mp (plain q listed here)
      rw [(cleared q).mpr (unmarked.trans here)] at spares
      cases spares
    · rw [list, holds.queryList member, relinked.query, QueryHeap.spared, List.filter_filter]
      refine List.filter_congr fun q _ => ?_
      by_cases here : (heap.query q).serviceIndex % 64 = idx
      · simp [here]
      · have spares : (heap.query q).clearedBy idx = false := by
          rw [Bool.eq_false_iff]
          intro matches_
          exact here (by rw [(cleared q).mp matches_]; exact Nat.mod_eq_of_lt service)
        simp [here, spares]

end QueriesHold

/-- In every list of queries that is reached, clearing a service clears all its queries exactly if none of
them is marked as not implemented; clearing everything empties the list. -/
theorem jd_device_clear_queries_iff {config : QueryConfig} {world : QueryWorld}
    (run : QueryRun config (fun _ _ => True) world) {d : Nat} (member : d ∈ world.devices) :
    (∀ idx < 64, (∃ next, world.heap.jdDeviceClearQueries d idx = .ok next ∧ ServiceCleared world.heap next d idx) ↔
      ∀ q ∈ world.heap.queryList d, (world.heap.query q).serviceIndex % 64 = idx →
        (world.heap.query q).notImplemented = false) ∧
    ∃ next, world.heap.jdDeviceClearQueries d 0xff = .ok next ∧ next.queryList d = [] := by
  obtain ⟨nodes, lost, holds⟩ := run.holds
  refine ⟨fun idx service => holds.serviceCleared_iff member service, ?_⟩
  obtain ⟨next, done, _, after⟩ := holds.clear member 0xff
  refine ⟨next, done, ?_⟩
  rw [after.queryList member, Function.update_self]
  exact List.filter_eq_nil_iff.mpr fun q _ => by simp [RegisterQuery.clearedBy]

/-- One query of service 1, and a refusal of it. -/
theorem jd_device_clear_queries_iff_marked :
    ∃ world, QueryRun queryConfig (fun _ _ => True) world ∧ 1 ∈ world.devices ∧ world.heap.queryList 1 = [2] ∧
      ∃ next, world.heap.jdDeviceClearQueries 1 0xff = .ok next ∧ next.queryList 1 = [] := by
  have empty : QueryRun queryConfig (fun _ _ => True) _ := .step .init .announce trivial trivial rfl
  have queried : QueryRun queryConfig (fun _ _ => True) _ :=
    .step empty (.query 1 1 0x101 0 0) ⟨by decide, by decide⟩ trivial rfl
  have refused : QueryRun queryConfig (fun _ _ => True) _ :=
    .step queried (.report 1 1 ⟨3, [0x01, 0x11, 0, 0]⟩) ⟨by decide, by decide, by decide⟩ trivial rfl
  exact ⟨_, refused, by decide, by decide, (jd_device_clear_queries_iff refused (by decide)).2⟩

/-- Clearing the service then leaves the query, and the lookup still finds it. -/
theorem jd_device_clear_queries_leaves :
    ∃ world, QueryRun queryConfig (fun _ _ => True) world ∧ 1 ∈ world.devices ∧
      ∃ next, world.heap.jdDeviceClearQueries 1 1 = .ok next ∧
        next.jdServiceQueryLookup 1 1 0x101 = .ok (some 2) := by
  have empty : QueryRun queryConfig (fun _ _ => True) _ := .step .init .announce trivial trivial rfl
  have queried : QueryRun queryConfig (fun _ _ => True) _ :=
    .step empty (.query 1 1 0x101 0 0) ⟨by decide, by decide⟩ trivial rfl
  have refused : QueryRun queryConfig (fun _ _ => True) _ :=
    .step queried (.report 1 1 ⟨3, [0x01, 0x11, 0, 0]⟩) ⟨by decide, by decide, by decide⟩ trivial rfl
  exact ⟨_, refused, by decide, _, rfl, rfl⟩

end Jacdac
