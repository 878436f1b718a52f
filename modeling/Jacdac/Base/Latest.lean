import Mathlib.Data.List.Forall2
import Mathlib.Data.Option.Basic

/-! Lists whose later items replace earlier ones with the same key, as a log
that holds a map does. Items of two such lists may be related, with keys of
different types. -/

namespace Jacdac

section Latest

variable {Item Key : Type} [DecidableEq Key] {key : Item → Key} {wanted : Key} {items rest : List Item} {item : Item}

def lastWith (key : Item → Key) (wanted : Key) (items : List Item) : Option Item :=
  items.reverse.find? (key · = wanted)

/-- The items without a later one of the same key. -/
def compact (key : Item → Key) : List Item → List Item
  | [] => []
  | item :: rest => if rest.any (key · = key item) then compact key rest else item :: compact key rest

theorem lastWith_append (key : Item → Key) (wanted : Key) (items : List Item) (item : Item) :
    lastWith key wanted (items ++ [item]) = if key item = wanted then some item else lastWith key wanted items := by
  rw [lastWith, List.reverse_append, List.reverse_singleton, List.singleton_append, List.find?_cons]
  by_cases same : key item = wanted
  · rw [if_pos same, decide_eq_true same]
  · rw [if_neg same, decide_eq_false same]
    rfl

theorem lastWith_cons (key : Item → Key) (wanted : Key) (item : Item) (rest : List Item) :
    lastWith key wanted (item :: rest) =
      (lastWith key wanted rest).or (if key item = wanted then some item else none) := by
  rw [lastWith, List.reverse_cons, List.find?_append, lastWith, List.find?_singleton]
  simp only [decide_eq_true_iff]

theorem lastWith_eq_none_iff : lastWith key wanted items = none ↔ ∀ item ∈ items, key item ≠ wanted := by
  rw [lastWith, List.find?_eq_none]
  constructor
  · intro none item member same
    exact none item (List.mem_reverse.mpr member) (decide_eq_true same)
  · intro none item member same
    exact none item (List.mem_reverse.mp member) (of_decide_eq_true same)

theorem lastWith_spec (found : lastWith key wanted items = some item) : item ∈ items ∧ key item = wanted := by
  rw [lastWith] at found
  have same := List.find?_some found
  exact ⟨List.mem_reverse.mp (List.mem_of_find?_eq_some found), of_decide_eq_true same⟩

theorem any_key_iff : rest.any (key · = wanted) = true ↔ ∃ item ∈ rest, key item = wanted := by
  simp only [List.any_eq_true, decide_eq_true_iff]

theorem compact_sublist (key : Item → Key) (items : List Item) : (compact key items).Sublist items := by
  induction items with
  | nil => exact .refl _
  | cons item rest ih =>
    rw [compact]
    split
    · exact ih.cons _
    · exact ih.cons_cons _

theorem compact_ne_nil (some : items ≠ []) : compact key items ≠ [] := by
  induction items with
  | nil => exact absurd rfl some
  | cons item rest ih =>
    rw [compact]
    split
    · rename_i replaced
      exact ih fun none => absurd replaced (by rw [none]; exact nofun)
    · exact nofun

theorem compact_map {Other : Type} (image : Other → Item) (key : Item → Key) (others : List Other) :
    compact key (others.map image) = (compact (fun other => key (image other)) others).map image := by
  induction others with
  | nil => rfl
  | cons other rest ih =>
    rw [List.map_cons, compact, compact, List.any_map, ih]
    change (if rest.any (fun later => key (image later) = key (image other)) = true then _ else _) = _
    split
    · rfl
    · rw [List.map_cons]

/-- Dropping replaced items changes no lookup. -/
@[simp] theorem lastWith_compact (key : Item → Key) (wanted : Key) (items : List Item) :
    lastWith key wanted (compact key items) = lastWith key wanted items := by
  induction items with
  | nil => rfl
  | cons item rest ih =>
    rw [compact]
    split
    · rename_i replaced
      rw [ih, lastWith_cons]
      by_cases same : key item = wanted
      · obtain ⟨later, member, equal⟩ := any_key_iff.mp replaced
        cases found : lastWith key wanted rest with
        | none => exact absurd (equal.trans same) (lastWith_eq_none_iff.mp found later member)
        | some other => rfl
      · rw [if_neg same, Option.or_none]
    · rw [lastWith_cons, lastWith_cons, ih]

theorem mem_compact_iff : item ∈ compact key items ↔ lastWith key (key item) items = some item := by
  induction items with
  | nil => exact ⟨nofun, nofun⟩
  | cons first rest ih =>
    rw [compact, lastWith_cons]
    split
    · rename_i replaced
      rw [ih]
      by_cases same : key first = key item
      · rw [if_pos same]
        cases found : lastWith key (key item) rest with
        | none =>
          obtain ⟨later, member, equal⟩ := any_key_iff.mp replaced
          exact absurd (equal.trans same) (lastWith_eq_none_iff.mp found later member)
        | some other => rfl
      · rw [if_neg same, Option.or_none]
    · rename_i last
      rw [List.mem_cons, ih]
      by_cases same : key first = key item
      · have none : lastWith key (key item) rest = none := by
          refine lastWith_eq_none_iff.mpr fun later member equal => last ?_
          exact any_key_iff.mpr ⟨later, member, equal.trans same.symm⟩
        rw [none, if_pos same, Option.none_or, Option.some_inj, eq_comm]
        exact or_iff_left nofun
      · rw [if_neg same, Option.or_none]
        exact or_iff_right fun here => same (congrArg key here.symm)

end Latest

section Related

variable {Item Other Key Name : Type} [DecidableEq Key] [DecidableEq Name] {key : Item → Key} {name : Other → Name}
  {Related : Item → Other → Prop} {items : List Item} {others : List Other}

theorem lastWith_related (related : List.Forall₂ Related items others) {wanted : Key} {called : Name}
    (agree : ∀ item other, Related item other → (key item = wanted ↔ name other = called)) :
    Option.Rel Related (lastWith key wanted items) (lastWith name called others) := by
  induction related with
  | nil => exact .none
  | @cons item other _ _ head _ ih =>
    rw [lastWith_cons, lastWith_cons]
    generalize lastWith key wanted _ = found at ih ⊢
    generalize lastWith name called _ = matched at ih ⊢
    cases ih with
    | some later => exact .some later
    | none =>
      by_cases same : key item = wanted
      · rw [if_pos same, if_pos ((agree item other head).mp same)]
        exact .some head
      · rw [if_neg same, if_neg (fun called => same ((agree item other head).mpr called))]
        exact .none

private theorem any_related (related : List.Forall₂ Related items others) {wanted : Key} {called : Name}
    (agree : ∀ item other, Related item other → (key item = wanted ↔ name other = called)) :
    items.any (key · = wanted) = others.any (name · = called) := by
  induction related with
  | nil => rfl
  | cons head _ ih => rw [List.any_cons, List.any_cons, ih, decide_eq_decide.mpr (agree _ _ head)]

theorem compact_related (related : List.Forall₂ Related items others)
    (agree : ∀ item other item' other', Related item other → Related item' other' →
      (key item = key item' ↔ name other = name other')) :
    List.Forall₂ Related (compact key items) (compact name others) := by
  induction related with
  | nil => exact .nil
  | @cons item other rest _ head tail ih =>
    rw [compact, compact, any_related tail fun later _ one => agree later _ item other one head]
    split
    · exact ih
    · exact .cons head ih

end Related

section AtLast

variable {Item Value : Type} {value : Item → Option Value} {Holds : List Item → Value → Prop} {items : List Item}
  {item : Item} {found : Value}

/-- This holds of the last value among the items, if there is one, and of what is before it. -/
def AtLast (value : Item → Option Value) (Holds : List Item → Value → Prop) (items : List Item) : Prop :=
  ∀ early item late found, items = early ++ item :: late → value item = some found →
    (∀ other ∈ late, value other = none) → Holds early found

theorem AtLast.nil : AtLast value Holds [] := fun _ _ _ _ split => absurd split.symm (List.append_ne_nil_of_right_ne_nil _ nofun)

theorem atLast_concat_some (last : value item = some found) : AtLast value Holds (items ++ [item]) ↔ Holds items found := by
  constructor
  · exact fun atLast => atLast items item [] found rfl last nofun
  · intro holds early first late other split asks none
    rcases List.eq_nil_or_concat' late with rfl | ⟨middle, final, rfl⟩
    · obtain ⟨rfl, same⟩ := List.append_inj' split rfl
      obtain rfl := (List.cons.inj same).1
      obtain rfl := Option.some.inj (last.symm.trans asks)
      exact holds
    · have same : item = final := by
        rw [← List.cons_append, ← List.append_assoc] at split
        exact (List.cons.inj (List.append_inj' split rfl).2).1
      have nothing := none final (List.mem_append_right _ List.mem_cons_self)
      rw [← same, last] at nothing
      cases nothing

theorem atLast_concat_none (nothing : value item = none) : AtLast value Holds (items ++ [item]) ↔ AtLast value Holds items := by
  constructor
  · intro atLast early first late found split asks none
    refine atLast early first (late ++ [item]) found ?_ asks fun other member => ?_
    · rw [split, List.append_assoc]
      rfl
    · rcases List.mem_append.mp member with earlier | last
      · exact none other earlier
      · rw [List.mem_singleton.mp last]
        exact nothing
  · intro atLast early first late found split asks none
    rcases List.eq_nil_or_concat' late with rfl | ⟨middle, final, rfl⟩
    · obtain ⟨_, same⟩ := List.append_inj' split rfl
      rw [← (List.cons.inj same).1, nothing] at asks
      cases asks
    · rw [← List.cons_append, ← List.append_assoc] at split
      exact atLast early first middle found (List.append_inj' split rfl).1 asks
        fun other member => none other (List.mem_append_left _ member)

end AtLast

end Jacdac
