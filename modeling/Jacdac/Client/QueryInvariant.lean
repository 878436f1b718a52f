import Jacdac.Client.QueryHeap
import Mathlib.Data.List.Perm.Basic
import Mathlib.Data.List.Nodup

/-! What the operations on register queries keep true: the lists of the devices are
chains that share nothing, and every buffer is that of one query, or lost. -/

namespace Jacdac

/-- The value that a query stores. -/
structure QueryStores (bytes : Nat → List UInt8) (query : RegisterQuery) (data : List UInt8) : Prop where
  length : data.length = query.respSize
  member : (query.respSize ≤ registerQueryMaxInline ∧ query.value = .data data) ∨
    (registerQueryMaxInline < query.respSize ∧ ∃ address, query.value = .buffer address ∧ bytes address = data)

/-- The buffers that the queries in memory own. -/
def QueryHeap.owned (heap : QueryHeap) (queries : List Nat) : List Nat :=
  queries.filterMap fun q => (heap.query q).buffer?

def RegisterQuery.Indexed (query : RegisterQuery) : Prop := query.serviceIndex % 128 < 64 ∧ query.serviceIndex < 256

/-- The queries of each device, and the buffers that no query points to any more. -/
structure QueriesHold (heap : QueryHeap) (devices : List Nat) (nodes : Nat → List Nat) (lost : List Nat) : Prop where
  apart : devices.Nodup
  chain : ∀ d ∈ devices, Chain heap.next (heap.queries d) (nodes d)
  live : heap.live.Perm (devices.flatMap nodes)
  distinct : heap.live.Nodup
  values : ∀ q ∈ heap.live, ∃ data, QueryStores heap.bytes (heap.query q) data
  indexed : ∀ q ∈ heap.live, (heap.query q).Indexed
  buffers : heap.buffers.Perm (heap.owned heap.live ++ lost)
  single : heap.buffers.Nodup

section Devices

variable {devices : List Nat} {nodes : Nat → List Nat} {d : Nat}

/-- The queries of one device, and those of the others. -/
theorem flatMap_split (nodes : Nat → List Nat) (member : d ∈ devices) :
    (devices.flatMap nodes).Perm (nodes d ++ (devices.erase d).flatMap nodes) :=
  (List.perm_cons_erase member).flatMap_right nodes

theorem flatMap_update (apart : devices.Nodup) (member : d ∈ devices) (list : List Nat) :
    (devices.flatMap (Function.update nodes d list)).Perm (list ++ (devices.erase d).flatMap nodes) := by
  have split := flatMap_split (Function.update nodes d list) member
  rw [Function.update_self] at split
  refine split.trans (List.Perm.append_left list (List.Perm.of_eq ?_))
  refine List.flatMap_congr fun other present => ?_
  rw [Function.update_of_ne]
  rintro rfl
  exact apart.not_mem_erase present

end Devices

namespace QueriesHold

variable {heap : QueryHeap} {devices : List Nat} {nodes : Nat → List Nat} {lost : List Nat} {d e q : Nat}

theorem focus (holds : QueriesHold heap devices nodes lost) (member : d ∈ devices) :
    heap.live.Perm (nodes d ++ (devices.erase d).flatMap nodes) :=
  holds.live.trans (flatMap_split nodes member)

theorem mem_live (holds : QueriesHold heap devices nodes lost) (member : d ∈ devices) (listed : q ∈ nodes d) :
    q ∈ heap.live :=
  holds.live.mem_iff.mpr (List.mem_flatMap.mpr ⟨d, member, listed⟩)

theorem length_le (holds : QueriesHold heap devices nodes lost) (member : d ∈ devices) :
    (nodes d).length ≤ heap.live.length := by
  rw [(holds.focus member).length_eq, List.length_append]
  exact Nat.le_add_right _ _

/-- The lists of two devices have no query in common. -/
theorem separate (holds : QueriesHold heap devices nodes lost) (member : d ∈ devices) (other : e ∈ devices)
    (different : e ≠ d) (listed : q ∈ nodes e) : q ∉ nodes d := by
  have whole := (holds.focus member).nodup_iff.mp holds.distinct
  have elsewhere : q ∈ (devices.erase d).flatMap nodes :=
    List.mem_flatMap.mpr ⟨e, (List.mem_erase_of_ne different).mpr other, listed⟩
  exact fun here => (List.nodup_append.mp whole).2.2 q here q elsewhere rfl

theorem buffer_mem (holds : QueriesHold heap devices nodes lost) (present : q ∈ heap.live)
    (found : (heap.query q).buffer? = some address) : address ∈ heap.buffers :=
  holds.buffers.mem_iff.mpr (List.mem_append_left _ (List.mem_filterMap.mpr ⟨q, present, found⟩))

end QueriesHold

namespace QueryStores

variable {bytes : Nat → List UInt8} {query : RegisterQuery} {data : List UInt8}

theorem buffer?_of_le (short : query.respSize ≤ registerQueryMaxInline) : query.buffer? = none :=
  if_neg (Nat.not_lt.mpr short)

theorem long (stores : QueryStores bytes query data) (long : registerQueryMaxInline < query.respSize) :
    ∃ address, query.value = .buffer address ∧ query.buffer? = some address ∧ bytes address = data := by
  rcases stores.member with ⟨short, _⟩ | ⟨_, address, value, content⟩
  · exact absurd long (Nat.not_lt.mpr short)
  · refine ⟨address, value, ?_, content⟩
    rw [RegisterQuery.buffer?, if_pos long, value]

theorem short (stores : QueryStores bytes query data) (short : query.respSize ≤ registerQueryMaxInline) :
    query.value = .data data := by
  rcases stores.member with ⟨_, value⟩ | ⟨long, _⟩
  · exact value
  · exact absurd long (Nat.not_lt.mpr short)

end QueryStores

theorem lookupLoop_chain {heap : QueryHeap} {head : Option Nat} {nodes : List Nat}
    (chain : Chain heap.next head nodes) (enough : nodes.length ≤ limit) (idx : Nat) (regCode : Int) :
    heap.lookupLoop idx regCode limit head = .ok (nodes.find? fun q => (heap.query q).isFor idx regCode) := by
  induction nodes generalizing head limit with
  | nil =>
    rw [show head = none from chain, QueryHeap.lookupLoop]
    rfl
  | cons q rest ih =>
    obtain ⟨rfl, tail⟩ := chain
    obtain ⟨limit, rfl⟩ := Nat.exists_eq_succ_of_ne_zero (by simp at enough; omega : limit ≠ 0)
    rw [QueryHeap.lookupLoop, List.find?_cons]
    split
    · rename_i matches_
      rw [matches_]
    · rename_i other
      rw [Bool.eq_false_iff.mpr other]
      exact ih tail (by simpa using enough)

theorem walk_chain {heap : QueryHeap} {head : Option Nat} {nodes : List Nat} (chain : Chain heap.next head nodes)
    (enough : nodes.length ≤ limit) : heap.walk limit head = nodes := by
  induction nodes generalizing head limit with
  | nil =>
    rw [show head = none from chain]
    cases limit <;> rfl
  | cons q rest ih =>
    obtain ⟨rfl, tail⟩ := chain
    obtain ⟨limit, rfl⟩ := Nat.exists_eq_succ_of_ne_zero (by simp at enough; omega : limit ≠ 0)
    rw [QueryHeap.walk, ih tail (by simpa using enough)]

namespace QueriesHold

variable {heap : QueryHeap} {devices : List Nat} {nodes : Nat → List Nat} {lost : List Nat} {d e q : Nat}

theorem lookup (holds : QueriesHold heap devices nodes lost) (member : d ∈ devices) (idx : Nat) (regCode : Int) :
    heap.jdServiceQueryLookup d idx regCode = .ok ((nodes d).find? fun q => (heap.query q).isFor idx regCode) :=
  lookupLoop_chain (holds.chain d member) (holds.length_le member) idx regCode

theorem queryList (holds : QueriesHold heap devices nodes lost) (member : d ∈ devices) : heap.queryList d = nodes d :=
  walk_chain (holds.chain d member) (holds.length_le member)

theorem lookup_live (holds : QueriesHold heap devices nodes lost) (member : d ∈ devices) {regCode : Int}
    (found : heap.jdServiceQueryLookup d idx regCode = .ok (some q)) : q ∈ heap.live := by
  rw [holds.lookup member] at found
  exact holds.mem_live member (List.mem_of_find?_eq_some (Except.ok.inj found))

/-- A store that leaves the value alone. -/
theorem setQuery (holds : QueriesHold heap devices nodes lost) (query : RegisterQuery)
    (indexed : (heap.query q).Indexed → query.Indexed) (size : query.respSize = (heap.query q).respSize) (value : query.value = (heap.query q).value) :
    QueriesHold (heap.setQuery q query) devices nodes lost := by
  have stored : ∀ other, ((heap.setQuery q query).query other).respSize = (heap.query other).respSize ∧
      ((heap.setQuery q query).query other).value = (heap.query other).value := by
    intro other
    by_cases same : other = q
    · subst same
      simp [QueryHeap.setQuery, size, value]
    · simp [QueryHeap.setQuery, same]
  have owned : (heap.setQuery q query).owned heap.live = heap.owned heap.live :=
    List.filterMap_congr fun other _ => by rw [RegisterQuery.buffer?, (stored other).1, (stored other).2]; rfl
  refine ⟨holds.apart, holds.chain, holds.live, holds.distinct, fun other present => ?_, fun other present => ?_, ?_,
    holds.single⟩
  · obtain ⟨data, length, member⟩ := holds.values other present
    refine ⟨data, ?_, ?_⟩
    · rw [(stored other).1]
      exact length
    · rw [(stored other).1, (stored other).2]
      exact member
  · by_cases same : other = q
    · subst same
      simpa [QueryHeap.setQuery] using indexed (holds.indexed other present)
    · simpa [QueryHeap.setQuery, same] using holds.indexed other present
  · show heap.buffers.Perm ((heap.setQuery q query).owned heap.live ++ lost)
    rw [owned]
    exact holds.buffers

theorem refreshQuery (holds : QueriesHold heap devices nodes lost) (nowMs refreshMs q : Nat) :
    QueriesHold (heap.refreshQuery nowMs refreshMs q).2 devices nodes lost := by
  unfold QueryHeap.refreshQuery
  dsimp only
  split
  · exact holds.setQuery _ id rfl rfl
  · exact holds

/-- Marking an index changes its uppermost bit alone. -/
theorem indexed_mark {query : RegisterQuery} (indexed : query.Indexed) :
    ({ query with serviceIndex := query.serviceIndex ||| 0x80 } : RegisterQuery).Indexed := by
  refine ⟨?_, Nat.or_lt_two_pow indexed.2 (by decide : 0x80 < 2 ^ 8)⟩
  have low : (query.serviceIndex ||| 0x80) % 2 ^ 7 = query.serviceIndex % 2 ^ 7 ||| 0x80 % 2 ^ 7 := Nat.or_mod_two_pow
  show (query.serviceIndex ||| 0x80) % 2 ^ 7 < 64
  rw [low]
  simpa using indexed.1

theorem markNotImplemented (holds : QueriesHold heap devices nodes lost) (q : Nat) :
    QueriesHold (heap.markNotImplemented q) devices nodes lost := by
  unfold QueryHeap.markNotImplemented
  dsimp only
  split
  · exact holds
  · exact holds.setQuery _ indexed_mark rfl rfl

end QueriesHold

namespace QueriesHold

variable {heap : QueryHeap} {devices : List Nat} {nodes : Nat → List Nat} {lost : List Nat} {d e q : Nat}

theorem addQuery (holds : QueriesHold heap devices nodes lost) (member : d ∈ devices) (allocator : Allocator)
    {idx : Nat} (service : idx < 64) (regCode : Int) :
    ∃ q, q ∉ heap.live ∧ (heap.addQuery allocator devices d idx regCode).1 = q ∧
      QueriesHold (heap.addQuery allocator devices d idx regCode).2 devices
        (Function.update nodes d (q :: nodes d)) lost := by
  have fresh := allocator.fresh (devices ++ heap.live ++ heap.buffers)
  unfold QueryHeap.addQuery
  generalize allocator.alloc (devices ++ heap.live ++ heap.buffers) = q at fresh
  have unused : q ∉ heap.live := by simp_all
  refine ⟨q, unused, rfl, holds.apart, fun e other => ?_, ?_, ?_, ?_, ?_, ?_, holds.single⟩
  · by_cases same : e = d
    · subst same
      dsimp only
      rw [Function.update_self, Function.update_self]
      exact (holds.chain e other).push fun listed => unused (holds.mem_live member listed)
    · dsimp only
      rw [Function.update_of_ne same, Function.update_of_ne same]
      refine (holds.chain e other).congr fun node listed => Function.update_of_ne ?_ _ _
      rintro rfl
      exact unused (holds.mem_live other listed)
  · refine List.Perm.trans ?_ (flatMap_update holds.apart member _).symm
    exact (holds.focus member).cons q
  · exact List.nodup_cons.mpr ⟨unused, holds.distinct⟩
  · intro other present
    dsimp only
    rcases List.mem_cons.mp present with rfl | old
    · rw [Function.update_self]
      exact ⟨[], rfl, .inl ⟨Nat.zero_le _, rfl⟩⟩
    · rw [Function.update_of_ne (by rintro rfl; exact unused old)]
      exact holds.values other old
  · intro other present
    dsimp only
    rcases List.mem_cons.mp present with rfl | old
    · rw [Function.update_self]
      exact ⟨by dsimp only; omega, by dsimp only; omega⟩
    · rw [Function.update_of_ne (by rintro rfl; exact unused old)]
      exact holds.indexed other old
  · -- the new query owns no buffer
    refine holds.buffers.trans (List.Perm.append_right lost (List.Perm.of_eq ?_))
    unfold QueryHeap.owned
    dsimp only
    rw [List.filterMap_cons, Function.update_self]
    refine List.filterMap_congr fun other old => ?_
    rw [Function.update_of_ne (by rintro rfl; exact unused old)]

theorem split_buffers (holds : QueriesHold heap devices nodes lost) (present : q ∈ heap.live) :
    heap.buffers.Perm ((heap.query q).buffer?.toList ++ (heap.owned (heap.live.erase q) ++ lost)) := by
  have first : (heap.owned heap.live).Perm ((heap.query q).buffer?.toList ++ heap.owned (heap.live.erase q)) := by
    refine ((List.perm_cons_erase present).filterMap _).trans (List.Perm.of_eq ?_)
    rw [List.filterMap_cons]
    cases (heap.query q).buffer? <;> rfl
  rw [← List.append_assoc]
  exact holds.buffers.trans (first.append_right lost)

/-- Other contents for one query. -/
theorem replace (holds : QueriesHold heap devices nodes lost) (present : q ∈ heap.live) {query : RegisterQuery}
    {buffers left : List Nat} {bytes : Nat → List UInt8} (stores : QueryStores bytes query data)
    (index : query.serviceIndex = (heap.query q).serviceIndex)
    (owns : buffers.Perm (query.buffer?.toList ++ (heap.owned (heap.live.erase q) ++ left)))
    (single : buffers.Nodup) (kept : ∀ address ∈ heap.owned (heap.live.erase q), bytes address = heap.bytes address) :
    QueriesHold { heap with query := Function.update heap.query q query, buffers, bytes } devices nodes left := by
  have others : ∀ other ∈ heap.live.erase q, other ≠ q := by
    rintro other elsewhere rfl
    exact holds.distinct.not_mem_erase elsewhere
  have whole := List.perm_cons_erase present
  refine ⟨holds.apart, holds.chain, holds.live, holds.distinct, fun other old => ?_, fun other old => ?_, ?_, single⟩
  · dsimp only
    by_cases same : other = q
    · subst same
      rw [Function.update_self]
      exact ⟨data, stores⟩
    · rw [Function.update_of_ne same]
      obtain ⟨value, length, member⟩ := holds.values other old
      refine ⟨value, length, member.imp_right fun ⟨long, address, pointer, content⟩ => ?_⟩
      refine ⟨long, address, pointer, (kept address ?_).trans content⟩
      refine List.mem_filterMap.mpr ⟨other, (List.mem_erase_of_ne same).mpr old, ?_⟩
      rw [RegisterQuery.buffer?, if_pos long, pointer]
  · dsimp only
    by_cases same : other = q
    · subst same
      rw [Function.update_self, RegisterQuery.Indexed, index]
      exact holds.indexed other old
    · rw [Function.update_of_ne same]
      exact holds.indexed other old
  · refine owns.trans ?_
    rw [← List.append_assoc]
    refine List.Perm.append_right left (List.Perm.symm ?_)
    refine (whole.filterMap _).trans (List.Perm.of_eq ?_)
    dsimp only
    rw [List.filterMap_cons, Function.update_self]
    have same : (heap.live.erase q).filterMap (fun other => (Function.update heap.query q query other).buffer?) =
        heap.owned (heap.live.erase q) :=
      List.filterMap_congr fun other elsewhere => by rw [Function.update_of_ne (others other elsewhere)]
    rw [same]
    cases query.buffer? <;> rfl

theorem jdRegisterData (holds : QueriesHold heap devices nodes lost) (present : q ∈ heap.live)
    (stores : QueryStores heap.bytes (heap.query q) data) : heap.jdRegisterData q = .ok data := by
  unfold QueryHeap.jdRegisterData
  split
  · rename_i long
    obtain ⟨address, value, owned, content⟩ := stores.long long
    rw [QueryHeap.valueBuffer, value]
    dsimp only
    rw [if_pos (holds.buffer_mem present owned)]
    exact congrArg Except.ok content
  · rename_i short
    rw [stores.short (Nat.le_of_not_lt short)]

theorem valueChanged (holds : QueriesHold heap devices nodes lost) (present : q ∈ heap.live) (data : List UInt8) :
    ∃ changed, heap.valueChanged q data = .ok changed := by
  unfold QueryHeap.valueChanged
  split
  · exact ⟨true, rfl⟩
  · obtain ⟨old, stores⟩ := holds.values q present
    rw [holds.jdRegisterData present stores]
    exact ⟨_, rfl⟩

/-- What a report that is stored leaves: its payload in the query, and a lost buffer where a
short value takes the place of a long one. -/
structure Reported (heap next : QueryHeap) (devices : List Nat) (nodes : Nat → List Nat) (lost : List Nat) (q : Nat)
    (data : List UInt8) : Prop where
  holds : QueriesHold next devices nodes
    (if data.length ≤ registerQueryMaxInline then (heap.query q).buffer?.toList ++ lost else lost)
  present : q ∈ next.live
  stores : QueryStores next.bytes (next.query q) data

theorem Reported.mk_replace (holds : QueriesHold heap devices nodes lost) (present : q ∈ heap.live)
    (query : RegisterQuery) (buffers : List Nat) (bytes : Nat → List UInt8) (stores : QueryStores bytes query data)
    (index : query.serviceIndex = (heap.query q).serviceIndex)
    (owns : buffers.Perm (query.buffer?.toList ++ (heap.owned (heap.live.erase q) ++
      if data.length ≤ registerQueryMaxInline then (heap.query q).buffer?.toList ++ lost else lost)))
    (single : buffers.Nodup) (kept : ∀ address ∈ heap.owned (heap.live.erase q), bytes address = heap.bytes address) :
    Reported heap { heap with query := Function.update heap.query q query, buffers, bytes } devices nodes lost q data := by
  refine ⟨holds.replace present stores index owns single kept, present, ?_⟩
  dsimp only
  rw [Function.update_self]
  exact stores

/-- A long value in a buffer of its own, old or new. -/
theorem Reported.long (holds : QueriesHold heap devices nodes lost) (present : q ∈ heap.live)
    (buffers : List Nat) (address : Nat) (long : registerQueryMaxInline < data.length)
    (owns : buffers.Perm (address :: (heap.owned (heap.live.erase q) ++ lost))) (single : buffers.Nodup) :
    Reported heap
      { heap with
        query := Function.update heap.query q
          { heap.query q with respSize := data.length, value := .buffer address }
        buffers
        bytes := Function.update heap.bytes address data } devices nodes lost q data := by
  refine .mk_replace holds present _ _ _ ⟨rfl, .inr ⟨long, address, rfl, Function.update_self ..⟩⟩ rfl ?_ single ?_
  · rw [if_neg (Nat.not_le.mpr long), RegisterQuery.buffer?, if_pos long]
    exact owns
  · intro other owned
    refine Function.update_of_ne ?_ _ _
    rintro rfl
    exact (List.nodup_cons.mp (owns.nodup_iff.mp single)).1 (List.mem_append_left _ owned)

theorem storeValue_long (address : Nat) {data : List UInt8} (long : registerQueryMaxInline < data.length)
    (value : (heap.query q).value = .buffer address) (live : address ∈ heap.buffers) :
    heap.storeValue q data = .ok
      { heap with
        query := Function.update heap.query q { heap.query q with respSize := data.length }
        bytes := Function.update heap.bytes address data } := by
  unfold QueryHeap.storeValue QueryHeap.valueBuffer QueryHeap.setQuery
  dsimp only
  rw [if_pos long, Function.update_self]
  dsimp only
  rw [value]
  dsimp only
  rw [if_pos live]

theorem storeReport (holds : QueriesHold heap devices nodes lost) (present : q ∈ heap.live) (allocator : Allocator)
    (data : List UInt8) :
    ∃ changed next, heap.storeReport allocator devices q data = .ok (changed, next) ∧
      Reported heap next devices nodes lost q data := by
  obtain ⟨old, stores⟩ := holds.values q present
  obtain ⟨changed, compared⟩ := holds.valueChanged present data
  have split := holds.split_buffers present
  unfold QueryHeap.storeReport
  rw [compared]
  dsimp only
  by_cases long : registerQueryMaxInline < data.length
  · by_cases same : (heap.query q).respSize = data.length
    · -- the old buffer is used again
      obtain ⟨address, value, owned, _⟩ := stores.long (same ▸ long)
      have live := holds.buffer_mem present owned
      rw [QueryHeap.growValue, if_neg (fun both => both.2 same)]
      dsimp only
      rw [storeValue_long address long value live]
      rw [owned] at split
      refine ⟨changed, _, rfl, ?_⟩
      have result := Reported.long holds present heap.buffers address long split holds.single
      rwa [← value] at result
    · rw [QueryHeap.growValue, if_pos ⟨long, same⟩, QueryHeap.freeValue]
      by_cases before : registerQueryMaxInline < (heap.query q).respSize
      · obtain ⟨address, value, owned, _⟩ := stores.long before
        have live := holds.buffer_mem present owned
        rw [owned] at split
        have rest := List.cons_perm_iff_perm_erase.mp split.symm
        rw [if_pos before, QueryHeap.freeBuffer, value]
        dsimp only
        rw [if_pos live]
        dsimp only
        have fresh := allocator.fresh (devices ++ heap.live ++ heap.buffers.erase address)
        generalize allocator.alloc (devices ++ heap.live ++ heap.buffers.erase address) = new at fresh
        have unused : new ∉ heap.buffers.erase address := fun used => fresh (List.mem_append_right _ used)
        rw [storeValue_long new long (by simp [QueryHeap.setQuery]) (by simp [QueryHeap.setQuery])]
        refine ⟨changed, _, rfl, ?_⟩
        have result := Reported.long holds present (new :: heap.buffers.erase address) new long
          (rest.2.symm.cons new) (List.nodup_cons.mpr ⟨unused, holds.single.erase _⟩)
        simpa [QueryHeap.setQuery] using result
      · rw [if_neg before]
        dsimp only
        have fresh := allocator.fresh (devices ++ heap.live ++ heap.buffers)
        generalize allocator.alloc (devices ++ heap.live ++ heap.buffers) = new at fresh
        have unused : new ∉ heap.buffers := fun used => fresh (List.mem_append_right _ used)
        rw [QueryStores.buffer?_of_le (Nat.le_of_not_lt before)] at split
        rw [storeValue_long new long (by simp [QueryHeap.setQuery]) (by simp [QueryHeap.setQuery])]
        refine ⟨changed, _, rfl, ?_⟩
        have result := Reported.long holds present (new :: heap.buffers) new long
          (split.cons new) (List.nodup_cons.mpr ⟨unused, holds.single⟩)
        simpa [QueryHeap.setQuery] using result
  · -- the pointer is overwritten without a call of `jd_free`
    rw [QueryHeap.growValue, if_neg (fun both => long both.1)]
    dsimp only
    rw [QueryHeap.storeValue]
    dsimp only
    rw [if_neg long]
    refine ⟨changed, _, rfl, ?_⟩
    have short : data.length ≤ registerQueryMaxInline := Nat.le_of_not_lt long
    have owns : heap.buffers.Perm ([] ++ (heap.owned (heap.live.erase q) ++
        ((heap.query q).buffer?.toList ++ lost))) := split.trans (List.perm_append_comm_assoc _ _ _)
    have result := Reported.mk_replace holds present { heap.query q with respSize := data.length, value := .data data }
      heap.buffers heap.bytes ⟨rfl, .inl ⟨short, rfl⟩⟩ rfl (by rwa [if_pos short, QueryStores.buffer?_of_le short]) holds.single
      fun _ _ => rfl
    simpa [QueryHeap.setQuery] using result

end QueriesHold

end Jacdac
