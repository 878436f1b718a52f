import Jacdac.Client.QueryInvariant

/-! `jd_device_clear_queries`: what its loop takes out of the list and frees. -/

namespace Jacdac

/-- The queries that stay. -/
def QueryHeap.spared (heap : QueryHeap) (serviceIdx : Nat) (nodes : List Nat) : List Nat :=
  nodes.filter fun q => !(heap.query q).clearedBy serviceIdx

/-- The list of one device has become another one; nothing but links has changed. -/
structure Relinked (heap next : QueryHeap) (d : Nat) (before after : List Nat) : Prop where
  chain : Chain next.next (next.queries d) after
  elsewhere : ∀ e ≠ d, next.queries e = heap.queries e
  links : ∀ node ∉ before, next.next node = heap.next node
  query : next.query = heap.query
  bytes : next.bytes = heap.bytes

theorem unlinkQuery_relinked {heap : QueryHeap} (chain : Chain heap.next (heap.queries d) (kept ++ q :: todo)) :
    ∃ next, heap.unlinkQuery d kept.getLast? q = .ok next ∧ Relinked heap next d kept (kept ++ todo) ∧
      next.live = heap.live ∧ next.buffers = heap.buffers := by
  unfold QueryHeap.unlinkQuery
  rcases List.eq_nil_or_concat kept with rfl | ⟨before, prev, rfl⟩
  · rw [if_pos chain.1]
    refine ⟨_, rfl, ⟨?_, fun e other => Function.update_of_ne other _ _, fun _ _ => rfl, rfl, rfl⟩, rfl, rfl⟩
    dsimp only
    rw [Function.update_self]
    exact chain.2
  · rw [List.concat_eq_append] at *
    have split : Chain heap.next (heap.queries d) (before ++ prev :: q :: todo) := by simpa using chain
    rw [if_neg split.head_ne, List.getLast?_concat]
    refine ⟨_, rfl, ⟨?_, fun _ _ => rfl, fun node outside => Function.update_of_ne ?_ _ _, rfl, rfl⟩, rfl, rfl⟩
    · simpa using split.bypass
    · rintro rfl
      exact outside (List.mem_append_right _ List.mem_cons_self)

theorem Relinked.trans {first second third : QueryHeap} (one : Relinked first second d before middle)
    (two : Relinked second third d visited after) (early : before ⊆ nodes) (late : visited ⊆ nodes) :
    Relinked first third d nodes after where
  chain := two.chain
  elsewhere e other := (two.elsewhere e other).trans (one.elsewhere e other)
  links node outside := (two.links node fun inside => outside (late inside)).trans
    (one.links node fun inside => outside (early inside))
  query := two.query.trans one.query
  bytes := two.bytes.trans one.bytes

theorem spared_congr {heap other : QueryHeap} (query : other.query = heap.query) (serviceIdx : Nat) (nodes : List Nat) :
    other.spared serviceIdx nodes = heap.spared serviceIdx nodes := by
  unfold QueryHeap.spared
  rw [query]

theorem owned_congr {heap other : QueryHeap} (query : other.query = heap.query) (nodes : List Nat) :
    other.owned nodes = heap.owned nodes := by
  unfold QueryHeap.owned
  rw [query]

theorem owned_cons (heap : QueryHeap) (q : Nat) (nodes : List Nat) :
    heap.owned (q :: nodes) = (heap.query q).buffer?.toList ++ heap.owned nodes := by
  rw [QueryHeap.owned, List.filterMap_cons]
  cases (heap.query q).buffer? <;> rfl

theorem owned_append (heap : QueryHeap) (nodes others : List Nat) :
    heap.owned (nodes ++ others) = heap.owned nodes ++ heap.owned others := List.filterMap_append

theorem freeQuery_perm {heap : QueryHeap} {rest left : List Nat} (stores : ∃ data, QueryStores heap.bytes (heap.query q) data)
    (live : heap.live.Perm (q :: rest)) (buffers : heap.buffers.Perm ((heap.query q).buffer?.toList ++ left)) :
    ∃ freed, heap.freeQuery q = .ok freed ∧ freed.live.Perm rest ∧ freed.buffers.Perm left ∧
      ∀ {nodes after}, Chain heap.next (heap.queries d) after → Relinked heap freed d nodes after := by
  obtain ⟨data, stores⟩ := stores
  obtain ⟨present, rest⟩ := List.cons_perm_iff_perm_erase.mp live.symm
  unfold QueryHeap.freeQuery QueryHeap.freeValue
  by_cases long : registerQueryMaxInline < (heap.query q).respSize
  · obtain ⟨address, value, owned, _⟩ := stores.long long
    rw [owned] at buffers
    obtain ⟨inside, others⟩ := List.cons_perm_iff_perm_erase.mp buffers.symm
    rw [if_pos long, QueryHeap.freeBuffer, value]
    dsimp only
    rw [if_pos inside]
    dsimp only
    rw [if_pos present]
    exact ⟨_, rfl, rest.symm, others.symm, fun chain => ⟨chain, fun _ _ => rfl, fun _ _ => rfl, rfl, rfl⟩⟩
  · rw [QueryStores.buffer?_of_le (Nat.le_of_not_lt long)] at buffers
    rw [if_neg long]
    dsimp only
    rw [if_pos present]
    exact ⟨_, rfl, rest.symm, buffers, fun chain => ⟨chain, fun _ _ => rfl, fun _ _ => rfl, rfl, rfl⟩⟩

/-- What the loop leaves: the queries behind the visited ones that stay are linked, and what
belongs to the others is freed. -/
structure Swept (heap next : QueryHeap) (d serviceIdx : Nat) (kept todo rest left : List Nat) : Prop where
  relinked : Relinked heap next d (kept ++ todo) (kept ++ heap.spared serviceIdx todo)
  live : next.live.Perm (heap.spared serviceIdx todo ++ rest)
  buffers : next.buffers.Perm (heap.owned (heap.spared serviceIdx todo) ++ left)

theorem clearLoop_swept (d serviceIdx : Nat) (todo : List Nat) {heap : QueryHeap} {kept rest left : List Nat}
    (chain : Chain heap.next (heap.queries d) (kept ++ todo)) (enough : todo.length ≤ limit)
    (stores : ∀ q ∈ todo, ∃ data, QueryStores heap.bytes (heap.query q) data)
    (live : heap.live.Perm (todo ++ rest)) (buffers : heap.buffers.Perm (heap.owned todo ++ left)) :
    ∃ next, heap.clearLoop d serviceIdx limit kept.getLast? todo.head? = .ok next ∧
      Swept heap next d serviceIdx kept todo rest left := by
  induction todo generalizing heap kept rest left limit with
  | nil =>
    refine ⟨heap, ?_, ⟨chain, fun _ _ => rfl, fun _ _ => rfl, rfl, rfl⟩, live, buffers⟩
    cases limit <;> rfl
  | cons q todo ih =>
    obtain ⟨limit, rfl⟩ := Nat.exists_eq_succ_of_ne_zero (by simp at enough; omega : limit ≠ 0)
    have shorter : todo.length ≤ limit := by simpa using enough
    have front : heap.next q = todo.head? := chain.next_eq
    rw [List.head?_cons, QueryHeap.clearLoop, front]
    by_cases cleared : (heap.query q).clearedBy serviceIdx = true
    · -- the query goes, and the previous one stays the same
      have gone : heap.spared serviceIdx (q :: todo) = heap.spared serviceIdx todo :=
        List.filter_cons_of_neg (by simpa using cleared)
      obtain ⟨unlinked, done, relinked, sameLive, sameBuffers⟩ := unlinkQuery_relinked chain
      have own : unlinked.buffers.Perm ((unlinked.query q).buffer?.toList ++ (heap.owned todo ++ left)) := by
        rw [sameBuffers, relinked.query, ← List.append_assoc, ← owned_cons]
        exact buffers
      obtain ⟨freed, ran, freedPerm, othersPerm, same⟩ := freeQuery_perm
        (by rw [relinked.bytes, relinked.query]; exact stores q List.mem_cons_self) (sameLive ▸ live) own
      have without : Relinked heap freed d (kept ++ q :: todo) (kept ++ todo) :=
        relinked.trans (same relinked.chain) (List.subset_append_left _ _) (List.nil_subset _)
      rw [if_pos cleared, done]
      dsimp only
      rw [ran]
      dsimp only
      obtain ⟨next, swept, again, liveAfter, buffersAfter⟩ := @ih limit freed kept rest left without.chain shorter
        (by
          rw [without.bytes, without.query]
          exact fun other member => stores other (List.mem_cons_of_mem q member))
        freedPerm (by rw [owned_congr without.query]; exact othersPerm)
      rw [spared_congr without.query] at again liveAfter buffersAfter
      rw [owned_congr without.query] at buffersAfter
      refine ⟨next, swept, ?_, gone ▸ liveAfter, gone ▸ buffersAfter⟩
      rw [gone]
      exact without.trans again (List.Subset.refl _)
        (List.append_subset.mpr ⟨List.subset_append_left _ _,
          List.subset_append_of_subset_right _ (List.subset_cons_self q todo)⟩)
    · have stays : heap.spared serviceIdx (q :: todo) = q :: heap.spared serviceIdx todo :=
        List.filter_cons_of_pos (by simpa using cleared)
      have moved : kept ++ q :: todo = (kept ++ [q]) ++ todo := by simp
      rw [if_neg cleared, ← List.getLast?_concat (l := kept) (a := q)]
      obtain ⟨next, swept, result⟩ := @ih limit heap (kept ++ [q]) (q :: rest) ((heap.query q).buffer?.toList ++ left)
        (moved ▸ chain) shorter (fun other member => stores other (List.mem_cons_of_mem q member))
        (live.trans List.perm_middle.symm)
        (by
          rw [owned_cons, List.append_assoc] at buffers
          exact buffers.trans (List.perm_append_comm_assoc _ _ _))
      obtain ⟨relinked, liveAfter, buffersAfter⟩ := result
      refine ⟨next, swept, ?_, ?_, ?_⟩
      · rw [stays, moved]
        simpa using relinked
      · rw [stays]
        exact liveAfter.trans List.perm_middle
      · rw [stays, owned_cons, List.append_assoc]
        exact buffersAfter.trans (List.perm_append_comm_assoc _ _ _)

namespace QueriesHold

variable {heap : QueryHeap} {devices : List Nat} {nodes : Nat → List Nat} {lost : List Nat} {d : Nat}

/-- Clearing the queries of one device loses no buffer and leaves the other devices alone. -/
theorem clear (holds : QueriesHold heap devices nodes lost) (member : d ∈ devices) (serviceIdx : Nat) :
    ∃ next, heap.jdDeviceClearQueries d serviceIdx = .ok next ∧
      Relinked heap next d (nodes d) (heap.spared serviceIdx (nodes d)) ∧
      QueriesHold next devices (Function.update nodes d (heap.spared serviceIdx (nodes d))) lost := by
  have split := holds.focus member
  have chain := holds.chain d member
  have owns : heap.buffers.Perm (heap.owned (nodes d) ++ (heap.owned ((devices.erase d).flatMap nodes) ++ lost)) := by
    rw [← List.append_assoc, ← owned_append]
    exact holds.buffers.trans ((split.filterMap _).append_right lost)
  obtain ⟨next, swept, relinked, live, buffers⟩ := clearLoop_swept d serviceIdx (nodes d)
    (show Chain heap.next (heap.queries d) ([] ++ nodes d) from chain) (holds.length_le member) (fun q listed => holds.values q (holds.mem_live member listed)) split owns
  rw [← chain.head_eq] at swept
  have fewer : (heap.spared serviceIdx (nodes d) ++ (devices.erase d).flatMap nodes).Sublist
      (nodes d ++ (devices.erase d).flatMap nodes) :=
    (List.filter_sublist (p := fun q => !(heap.query q).clearedBy serviceIdx)).append_right _
  have present : ∀ q ∈ next.live, q ∈ heap.live := fun q listed =>
    split.mem_iff.mpr (fewer.subset (live.mem_iff.mp listed))
  refine ⟨next, swept, relinked, holds.apart, fun e other => ?_, ?_, ?_, fun q listed => ?_, fun q listed => ?_, ?_, ?_⟩
  · by_cases same : e = d
    · subst same
      rw [Function.update_self]
      exact relinked.chain
    · rw [Function.update_of_ne same, relinked.elsewhere e same]
      exact (holds.chain e other).congr fun q listed => relinked.links q (holds.separate member other same listed)
  · exact live.trans (flatMap_update holds.apart member _).symm
  · exact live.nodup_iff.mpr ((split.nodup_iff.mp holds.distinct).sublist fewer)
  · rw [relinked.bytes, relinked.query]
    exact holds.values q (present q listed)
  · rw [relinked.query]
    exact holds.indexed q (present q listed)
  · rw [owned_congr relinked.query]
    rw [← List.append_assoc, ← owned_append] at buffers
    exact buffers.trans ((live.symm.filterMap _).append_right lost)
  · refine buffers.nodup_iff.mpr ((owns.nodup_iff.mp holds.single).sublist ?_)
    exact ((List.filter_sublist (p := fun q => !(heap.query q).clearedBy serviceIdx)).filterMap _).append_right _

end QueriesHold

end Jacdac
