import Mathlib.Data.List.MinMax

set_option autoImplicit false

namespace DeepestRule

variable {α : Type} [LinearOrder α]

def least (values : List α) (otherwise : α) : α := values.min?.getD otherwise

theorem least_le_iff {values : List α} (some : values ≠ []) {otherwise a : α} :
    least values otherwise ≤ a ↔ ∃ value ∈ values, value ≤ a := by
  unfold least
  cases found : values.min? with
  | none => exact absurd (List.min?_eq_none_iff.1 found) some
  | some value =>
    obtain ⟨mem, smallest⟩ := List.min?_eq_some_iff.1 found
    constructor
    · exact fun below => ⟨value, mem, below⟩
    · rintro ⟨other, inside, below⟩
      exact (smallest other inside).trans below

def specificity (found : List (Nat × α)) : Option Nat := (found.map Prod.fst).max?

def winner (otherwise : α) (found : List (Nat × α)) : α :=
  match specificity found with
  | none => otherwise
  | some depth => least ((found.filter (fun rule => rule.1 = depth)).map Prod.snd) otherwise

def Deepest (found : List (Nat × α)) (rule : Nat × α) : Prop :=
  rule ∈ found ∧ ∀ other ∈ found, other.1 ≤ rule.1

variable {found old new : List (Nat × α)} {rule : Nat × α} {otherwise a : α}

omit [LinearOrder α] in
theorem exists_deepest (some : found ≠ []) : ∃ rule, Deepest found rule := by
  induction found with
  | nil => exact absurd rfl some
  | cons first rest ih =>
    cases rest with
    | nil => exact ⟨first, List.mem_cons_self, by simp⟩
    | cons second others =>
      obtain ⟨rule, mem, deepest⟩ := ih (List.cons_ne_nil _ _)
      rcases le_total first.1 rule.1 with below | above
      · refine ⟨rule, List.mem_cons_of_mem _ mem, ?_⟩
        rintro other (_ | ⟨_, inside⟩)
        · exact below
        · exact deepest other inside
      · refine ⟨first, List.mem_cons_self, ?_⟩
        rintro other (_ | ⟨_, inside⟩)
        · exact le_rfl
        · exact (deepest other inside).trans above

omit [LinearOrder α] in
theorem specificity_eq (deepest : Deepest found rule) : specificity found = some rule.1 := by
  rw [specificity, List.max?_eq_some_iff]
  refine ⟨List.mem_map_of_mem deepest.1, ?_⟩
  intro depth mem
  obtain ⟨other, inside, rfl⟩ := List.mem_map.1 mem
  exact deepest.2 other inside

theorem winner_le_iff :
    winner otherwise found ≤ a ↔ (found = [] ∧ otherwise ≤ a) ∨ ∃ rule, Deepest found rule ∧ rule.2 ≤ a := by
  by_cases none : found = []
  · subst none
    simp [winner, specificity, Deepest]
  · obtain ⟨top, deepest⟩ := exists_deepest none
    have own : (found.filter (fun rule => rule.1 = top.1)).map Prod.snd ≠ [] := by
      rw [Ne, List.map_eq_nil_iff, List.filter_eq_nil_iff, not_forall]
      exact ⟨top, fun nothing => nothing deepest.1 (decide_eq_true rfl)⟩
    rw [winner, specificity_eq deepest]
    simp only [least_le_iff own, none, false_and, false_or]
    constructor
    · rintro ⟨value, mem, below⟩
      obtain ⟨rule, inside, rfl⟩ := List.mem_map.1 mem
      obtain ⟨kept, level⟩ := List.mem_filter.1 inside
      rw [decide_eq_true_eq] at level
      exact ⟨rule, ⟨kept, fun other there => level ▸ deepest.2 other there⟩, below⟩
    · rintro ⟨rule, ⟨mem, highest⟩, below⟩
      have level : rule.1 = top.1 := le_antisymm (deepest.2 rule mem) (highest top deepest.1)
      exact ⟨rule.2, List.mem_map_of_mem (List.mem_filter.2 ⟨mem, decide_eq_true level⟩), below⟩

theorem winner_congr (same : ∀ rule, rule ∈ old ↔ rule ∈ new) : winner otherwise old = winner otherwise new := by
  apply eq_of_forall_ge_iff
  intro a
  have empty : old = [] ↔ new = [] := by
    simp only [List.eq_nil_iff_forall_not_mem, same]
  simp only [winner_le_iff, Deepest, empty, same]

theorem winner_eq_iff : winner otherwise found = a ↔ (found = [] ∧ a = otherwise) ∨
    ∃ rule, Deepest found rule ∧ rule.2 = a ∧ ∀ other, Deepest found other → a ≤ other.2 := by
  by_cases none : found = []
  · subst none
    simp [winner, specificity, Deepest, eq_comm]
  · have lowest : ∀ rule, Deepest found rule → winner otherwise found ≤ rule.2 :=
      fun rule deepest => winner_le_iff.2 (.inr ⟨rule, deepest, le_rfl⟩)
    constructor
    · rintro rfl
      rcases winner_le_iff.1 (le_refl (winner otherwise found)) with ⟨empty, -⟩ | ⟨rule, deepest, below⟩
      · exact absurd empty none
      · exact .inr ⟨rule, deepest, le_antisymm below (lowest rule deepest), lowest⟩
    · rintro (⟨empty, -⟩ | ⟨rule, deepest, rfl, smallest⟩)
      · exact absurd empty none
      · apply le_antisymm (lowest rule deepest)
        rcases winner_le_iff.1 (le_refl (winner otherwise found)) with ⟨empty, -⟩ | ⟨other, high, below⟩
        · exact absurd empty none
        · exact (smallest other high).trans below

/-- Rules of the least value, in place of others of their depth or besides, and the loss of rules of
the greatest value raise no winner. -/
theorem winner_le_of_least {bottom : α} (bot : ∀ value : α, bottom ≤ value)
    (added : ∀ rule ∈ new, rule ∈ old ∨ rule.2 = bottom)
    (kept : ∀ rule ∈ old, rule ∈ new ∨ (rule.1, bottom) ∈ new ∨ ∀ value : α, value ≤ rule.2) :
    winner otherwise new ≤ winner otherwise old := by
  rw [winner_le_iff]
  have reached := winner_le_iff.1 (le_refl (winner otherwise old))
  by_cases none : new = []
  · left
    refine ⟨none, ?_⟩
    rcases reached with ⟨-, below⟩ | ⟨rule, ⟨mem, -⟩, below⟩
    · exact below
    · subst none
      rcases kept rule mem with absent | absent | top
      · cases absent
      · cases absent
      · exact (top otherwise).trans below
  · right
    obtain ⟨highest, inside, deepest⟩ := exists_deepest none
    rcases added highest inside with before | lowest
    · rcases reached with ⟨rfl, -⟩ | ⟨rule, ⟨mem, above⟩, below⟩
      · cases before
      · have level : highest.1 ≤ rule.1 := above highest before
        rcases kept rule mem with still | replaced | top
        · exact ⟨rule, ⟨still, fun other there => (deepest other there).trans level⟩, below⟩
        · exact ⟨(rule.1, bottom), ⟨replaced, fun other there => (deepest other there).trans level⟩, bot _⟩
        · exact ⟨highest, ⟨inside, deepest⟩, (top highest.2).trans below⟩
    · exact ⟨highest, ⟨inside, deepest⟩, lowest ▸ bot _⟩

end DeepestRule
