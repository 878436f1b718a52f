import Mathlib.Data.List.Nodup
import Mathlib.Logic.Function.Basic
import Mathlib.Tactic.Common

/-! Singly linked lists given by a head and a map of links. A chain always ends,
so it can neither be cyclic nor visit a node twice. -/

namespace Jacdac

variable {α : Type}

/-- Following the links from `head` visits exactly these nodes and ends. -/
def Chain (next : α → Option α) : Option α → List α → Prop
  | head, [] => head = none
  | head, node :: rest => head = some node ∧ Chain next (next node) rest

namespace Chain

variable {next : α → Option α}

/-- The nodes are determined by where they start. -/
theorem unique (first : Chain next head nodes) (second : Chain next head others) : nodes = others := by
  induction nodes generalizing head others with
  | nil =>
    cases others with
    | nil => rfl
    | cons other rest =>
      rw [show head = none from first] at second
      cases second.1
  | cons node rest ih =>
    cases others with
    | nil =>
      rw [show head = none from second] at first
      cases first.1
    | cons other more =>
      obtain ⟨rfl, tail⟩ := first
      obtain ⟨same, later⟩ := second
      cases same
      rw [ih tail later]

/-- Every node starts a chain of its own. -/
theorem suffix (chain : Chain next head (before ++ node :: after)) :
    Chain next (some node) (node :: after) := by
  induction before generalizing head with
  | nil =>
    obtain ⟨rfl, tail⟩ := chain
    exact ⟨rfl, tail⟩
  | cons other rest ih => exact ih chain.2

theorem head_eq (chain : Chain next head nodes) : head = nodes.head? := by
  cases nodes with
  | nil => exact chain
  | cons node rest => exact chain.1

theorem next_eq (chain : Chain next head (before ++ node :: after)) : next node = after.head? :=
  chain.suffix.2.head_eq

theorem nodup (chain : Chain next head nodes) : nodes.Nodup := by
  induction nodes generalizing head with
  | nil => exact List.nodup_nil
  | cons node rest ih =>
    refine List.nodup_cons.mpr ⟨fun again => ?_, ih chain.2⟩
    obtain ⟨before, after, rfl⟩ := List.append_of_mem again
    have whole : Chain next (some node) (node :: (before ++ node :: after)) := ⟨rfl, chain.2⟩
    have part : Chain next (some node) (node :: after) := suffix (chain.2)
    have length := congrArg List.length (whole.unique part)
    simp only [List.length_cons, List.length_append] at length
    omega

/-- Links of nodes that are not visited do not matter. -/
theorem congr {others : α → Option α} (chain : Chain next head nodes)
    (same : ∀ node ∈ nodes, others node = next node) : Chain others head nodes := by
  induction nodes generalizing head with
  | nil => exact chain
  | cons node rest ih =>
    obtain ⟨rfl, tail⟩ := chain
    refine ⟨rfl, ?_⟩
    rw [same node (by simp)]
    exact ih tail fun other member => same other (by simp [member])

variable [DecidableEq α]

/-- Linking a new node in front. -/
theorem push (chain : Chain next head nodes) (fresh : node ∉ nodes) :
    Chain (Function.update next node head) (some node) (node :: nodes) := by
  refine ⟨rfl, ?_⟩
  rw [Function.update_self]
  refine chain.congr fun other member => Function.update_of_ne ?_ _ _
  rintro rfl
  exact fresh member

/-- Linking a new node behind one of the list. -/
theorem link (chain : Chain next head (before ++ previous :: after)) (fresh : node ∉ before ++ previous :: after) :
    Chain (Function.update (Function.update next node (next previous)) previous (some node)) head
      (before ++ previous :: node :: after) := by
  have distinct := chain.nodup
  induction before generalizing head with
  | nil =>
    obtain ⟨rfl, tail⟩ := chain
    have apart : node ≠ previous := by
      rintro rfl
      exact fresh (by simp)
    refine ⟨rfl, ?_⟩
    rw [Function.update_self]
    refine ⟨rfl, ?_⟩
    rw [Function.update_of_ne apart, Function.update_self]
    refine tail.congr fun other member => ?_
    have first : other ≠ previous := by
      rintro rfl
      simp_all
    have second : other ≠ node := by
      rintro rfl
      simp_all
    rw [Function.update_of_ne first, Function.update_of_ne second]
  | cons other rest ih =>
    obtain ⟨rfl, tail⟩ := chain
    have first : other ≠ previous := by
      rintro rfl
      simp_all
    have second : other ≠ node := by
      rintro rfl
      simp_all
    refine ⟨rfl, ?_⟩
    rw [Function.update_of_ne first, Function.update_of_ne second]
    exact ih tail (fun member => fresh (by simp_all)) (List.nodup_cons.mp distinct).2

/-- Taking a node out by redirecting the link that leads to it. -/
theorem bypass (chain : Chain next head (before ++ previous :: node :: after)) :
    Chain (Function.update next previous (next node)) head (before ++ previous :: after) := by
  have distinct := chain.nodup
  induction before generalizing head with
  | nil =>
    obtain ⟨rfl, _, tail⟩ := chain
    refine ⟨rfl, ?_⟩
    rw [Function.update_self]
    refine tail.congr fun other member => Function.update_of_ne ?_ _ _
    rintro rfl
    simp_all
  | cons other rest ih =>
    obtain ⟨rfl, tail⟩ := chain
    have apart : other ≠ previous := by
      rintro rfl
      simp_all
    refine ⟨rfl, ?_⟩
    rw [Function.update_of_ne apart]
    exact ih tail (List.nodup_cons.mp distinct).2

end Chain

/-- The loop that looks for the node whose link leads to `target`; the outer
`none` means that more than `fuel` nodes were visited. -/
def findLink [DecidableEq α] (next : α → Option α) (target : α) : Nat → Option α → Option (Option α)
  | _, none => some none
  | 0, some _ => none
  | fuel + 1, some node =>
    if next node = some target then some (some node) else findLink next target fuel (next node)

/-- Looking for a node that is in the list behind its first one. -/
theorem findLink_of_chain [DecidableEq α] {next : α → Option α}
    (chain : Chain next head (before ++ previous :: target :: after)) (enough : before.length < fuel) :
    findLink next target fuel head = some (some previous) := by
  have distinct := chain.nodup
  induction before generalizing head fuel with
  | nil =>
    obtain ⟨rfl, tail⟩ := chain
    obtain ⟨fuel, rfl⟩ := Nat.exists_eq_succ_of_ne_zero (by omega : fuel ≠ 0)
    rw [findLink, if_pos tail.1]
  | cons other rest ih =>
    obtain ⟨rfl, tail⟩ := chain
    obtain ⟨fuel, rfl⟩ := Nat.exists_eq_succ_of_ne_zero (by omega : fuel ≠ 0)
    have skip : next other ≠ some target := by
      intro leads
      rw [leads] at tail
      cases rest with
      | nil =>
        cases tail.1
        simp_all
      | cons first more =>
        cases tail.1
        simp_all
    rw [findLink, if_neg skip]
    exact ih tail (by simpa using enough) (List.nodup_cons.mp distinct).2

/-- Looking for a node that is not in the list. -/
theorem findLink_absent [DecidableEq α] {next : α → Option α} (chain : Chain next head nodes) (absent : target ∉ nodes)
    (enough : nodes.length ≤ fuel) : findLink next target fuel head = some none := by
  induction nodes generalizing head fuel with
  | nil =>
    rw [show head = none from chain]
    cases fuel <;> rfl
  | cons node rest ih =>
    obtain ⟨rfl, tail⟩ := chain
    obtain ⟨fuel, rfl⟩ := Nat.exists_eq_succ_of_ne_zero (by simp at enough; omega : fuel ≠ 0)
    have later : target ∉ rest := fun member => absent (List.mem_cons_of_mem node member)
    have skip : next node ≠ some target := by
      intro leads
      have first := tail.head_eq
      rw [leads] at first
      cases rest with
      | nil => cases first
      | cons other more => exact later (List.mem_cons.mpr (.inl (Option.some.inj first)))
    rw [findLink, if_neg skip]
    exact ih tail later (by simpa using enough)

theorem Chain.head_ne {next : α → Option α} (chain : Chain next head (before ++ previous :: node :: after)) :
    head ≠ some node := by
  intro first
  have distinct := chain.nodup
  have start := chain.head_eq
  rw [first] at start
  cases before with
  | nil =>
    have same : node = previous := Option.some.inj start
    simp [same] at distinct
  | cons other rest =>
    have same : node = other := Option.some.inj start
    simp [same] at distinct

theorem Chain.unlink [DecidableEq α] {next : α → Option α} (chain : Chain next head (before ++ node :: after)) :
    (head = some node ∧ Chain next (next node) (before ++ after)) ∨
      (head ≠ some node ∧ ∃ previous,
        (∀ fuel, (before ++ node :: after).length ≤ fuel → findLink next node fuel head = some (some previous)) ∧
        Chain (Function.update next previous (next node)) head (before ++ after)) := by
  rcases List.eq_nil_or_concat before with rfl | ⟨front, previous, rfl⟩
  · exact .inl chain
  · simp only [List.concat_eq_append, List.append_assoc, List.singleton_append] at chain ⊢
    refine .inr ⟨chain.head_ne, previous, fun fuel enough => findLink_of_chain chain ?_, chain.bypass⟩
    simp only [List.length_append, List.length_cons] at enough
    omega

end Jacdac
