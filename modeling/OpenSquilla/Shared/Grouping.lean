import Mathlib.Data.List.Basic

set_option autoImplicit false

namespace Grouping

variable {α : Type}

-- Where the groups end, when the first one starts at `offset`.
def ends (offset : Nat) : List (List α) → List Nat
  | [] => []
  | group :: rest => (offset + group.length) :: ends (offset + group.length) rest

def boundaries (groups : List (List α)) : List Nat := 0 :: ends 0 groups

theorem mem_ends {groups : List (List α)} {offset boundary : Nat} :
    boundary ∈ ends offset groups ↔ ∃ before after, groups = before ++ after ∧ before ≠ [] ∧
      boundary = offset + before.flatten.length := by
  induction groups generalizing offset with
  | nil =>
    constructor
    · intro mem
      cases mem
    · rintro ⟨before, after, parts, some, -⟩
      exact absurd (List.append_eq_nil_iff.mp parts.symm).1 some
  | cons group rest ih =>
    unfold ends
    rw [List.mem_cons, ih]
    constructor
    · rintro (first | ⟨before, after, rfl, -, later⟩)
      · refine ⟨[group], rest, rfl, List.cons_ne_nil _ _, ?_⟩
        rw [first, List.flatten_cons, List.flatten_nil, List.append_nil]
      · refine ⟨group :: before, after, rfl, List.cons_ne_nil _ _, ?_⟩
        rw [later, List.flatten_cons, List.length_append, Nat.add_assoc]
    · rintro ⟨before, after, parts, some, here⟩
      cases before with
      | nil => exact absurd rfl some
      | cons first others =>
        obtain ⟨rfl, rest'⟩ := List.cons.inj parts
        rw [List.flatten_cons, List.length_append, ← Nat.add_assoc] at here
        cases others with
        | nil => exact Or.inl here
        | cons second more =>
          exact Or.inr ⟨second :: more, after, rest', List.cons_ne_nil _ _, here⟩

theorem mem_boundaries {groups : List (List α)} {boundary : Nat} :
    boundary ∈ boundaries groups ↔ ∃ before after, groups = before ++ after ∧
      boundary = before.flatten.length := by
  unfold boundaries
  rw [List.mem_cons, mem_ends]
  constructor
  · rintro (rfl | ⟨before, after, parts, -, here⟩)
    · exact ⟨[], groups, rfl, rfl⟩
    · exact ⟨before, after, parts, here.trans (Nat.zero_add _)⟩
  · rintro ⟨before, after, parts, here⟩
    cases before with
    | nil => exact Or.inl here
    | cons first others =>
      exact Or.inr ⟨first :: others, after, parts, List.cons_ne_nil _ _,
        here.trans (Nat.zero_add _).symm⟩

theorem drop_boundary {before after : List (List α)} :
    (before ++ after).flatten.drop before.flatten.length = after.flatten := by
  rw [List.flatten_append, List.drop_left]

theorem split_of_apart {R : α → α → Prop} {groups : List (List α)}
    (each : ∀ group ∈ groups, group.Pairwise R) {before after : List α} {x y : α}
    (whole : groups.flatten = before ++ x :: y :: after) (apart : ¬R x y) :
    ∃ first later, groups = first ++ later ∧ first.flatten = before ++ [x] ∧
      later.flatten = y :: after := by
  induction groups generalizing before with
  | nil => exact absurd whole.symm (List.append_ne_nil_of_right_ne_nil before (List.cons_ne_nil _ _))
  | cons group rest ih =>
    rw [List.forall_mem_cons] at each
    rw [List.flatten_cons] at whole
    have behind : ∀ {between : List α}, rest.flatten = between ++ x :: y :: after →
        before = group ++ between → ∃ first later, group :: rest = first ++ later ∧
          first.flatten = before ++ [x] ∧ later.flatten = y :: after := by
      intro between parts here
      obtain ⟨first, later, rfl, left, right⟩ := ih each.2 parts
      refine ⟨group :: first, later, rfl, ?_, right⟩
      rw [List.flatten_cons, left, here, List.append_assoc]
    obtain ⟨between, here, parts⟩ | ⟨between, longer, parts⟩ := List.append_eq_append_iff.mp whole
    · exact behind parts here
    · cases between with
      | nil =>
        rw [List.append_nil] at longer
        exact behind (List.nil_append _ ▸ parts).symm (longer.symm.trans (List.append_nil group).symm)
      | cons first others =>
        obtain ⟨rfl, next⟩ := List.cons.inj parts
        cases others with
        | nil =>
          refine ⟨[group], rest, rfl, ?_, next.symm⟩
          rw [List.flatten_cons, List.flatten_nil, List.append_nil, longer]
        | cons second more =>
          obtain ⟨rfl, -⟩ := List.cons.inj next
          have together := each.1
          rw [longer, List.pairwise_append, List.pairwise_cons] at together
          exact absurd (together.2.1.1 y List.mem_cons_self) apart

def floor (marks : List Nat) (cut : Nat) : Nat := ((marks.filter (· ≤ cut)).max?).getD 0

variable {marks : List Nat} {cut mark : Nat}

theorem le_floor (mem : mark ∈ marks) (reached : mark ≤ cut) : mark ≤ floor marks cut := by
  have eligible : mark ∈ marks.filter (· ≤ cut) :=
    List.mem_filter.mpr ⟨mem, decide_eq_true reached⟩
  unfold floor
  cases greatest : (marks.filter (· ≤ cut)).max? with
  | none =>
    rw [List.max?_eq_none_iff.mp greatest] at eligible
    cases eligible
  | some value => exact (List.max?_eq_some_iff.mp greatest).2 mark eligible

theorem floor_mem_le (start : 0 ∈ marks) (cut : Nat) : floor marks cut ∈ marks ∧ floor marks cut ≤ cut := by
  unfold floor
  cases greatest : (marks.filter (· ≤ cut)).max? with
  | none => exact ⟨start, Nat.zero_le cut⟩
  | some value =>
    obtain ⟨mem, reached⟩ := List.mem_filter.mp (List.max?_eq_some_iff.mp greatest).1
    exact ⟨mem, of_decide_eq_true reached⟩

theorem floor_of_mem (start : 0 ∈ marks) (mem : cut ∈ marks) : floor marks cut = cut :=
  Nat.le_antisymm (floor_mem_le start cut).2 (le_floor mem (Nat.le_refl cut))

theorem floor_mono (start : 0 ∈ marks) {later : Nat} (order : cut ≤ later) :
    floor marks cut ≤ floor marks later :=
  le_floor (floor_mem_le start cut).1 (Nat.le_trans (floor_mem_le start cut).2 order)

end Grouping
