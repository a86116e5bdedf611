import Mathlib.Data.List.Pairwise

set_option autoImplicit false

-- `clash` says which keys the primary key and the unique indexes do not let stand side by side. A
-- table holds no two rows whose keys clash, so an `INSERT` that would break an index has no
-- result.

universe u v

structure Table {ρ : Type u} {κ : Type v} (keys : ρ → κ) (clash : κ → κ → Prop) where
  rows : List ρ
  apart : rows.Pairwise (fun one other => ¬clash (keys one) (keys other))

namespace Table

variable {ρ : Type u} {κ : Type v} {keys : ρ → κ} {clash : κ → κ → Prop}

def empty : Table keys clash := ⟨[], List.Pairwise.nil⟩

def insert? [DecidableRel clash] (table : Table keys clash) (row : ρ) : Option (Table keys clash) :=
  if absent : ∀ other ∈ table.rows, ¬clash (keys other) (keys row) then
    some ⟨table.rows ++ [row], List.pairwise_append.2 ⟨table.apart, List.pairwise_singleton _ row,
      fun other mem _ same => List.mem_singleton.1 same ▸ absent other mem⟩⟩
  else none

def delete (table : Table keys clash) (gone : ρ → Bool) : Table keys clash where
  rows := table.rows.filter (fun row => !gone row)
  apart := table.apart.filter _

def update (table : Table keys clash) (f : ρ → ρ) (keeps : ∀ row, keys (f row) = keys row) :
    Table keys clash where
  rows := table.rows.map f
  apart := List.pairwise_map.2 (by simpa only [keeps] using table.apart)

/-- An update of the rows that satisfy `chosen`, refused when it would break an index. -/
def updateWhere? [DecidableRel clash] (table : Table keys clash) (chosen : ρ → Bool) (f : ρ → ρ) :
    Option (Table keys clash) :=
  if apart : (table.rows.map (fun row => if chosen row then f row else row)).Pairwise
      (fun one other => ¬clash (keys one) (keys other)) then
    some ⟨_, apart⟩
  else none

@[simp] theorem rows_empty : (empty : Table keys clash).rows = [] := rfl

@[simp] theorem rows_delete (table : Table keys clash) (gone : ρ → Bool) :
    (table.delete gone).rows = table.rows.filter (fun row => !gone row) := rfl

@[simp] theorem rows_update (table : Table keys clash) (f : ρ → ρ)
    (keeps : ∀ row, keys (f row) = keys row) : (table.update f keeps).rows = table.rows.map f := rfl

theorem mem_delete {table : Table keys clash} {gone : ρ → Bool} {row : ρ} :
    row ∈ (table.delete gone).rows ↔ row ∈ table.rows ∧ gone row = false := by
  simp only [rows_delete, List.mem_filter, Bool.not_eq_eq_eq_not, Bool.not_true]

theorem insert?_eq_some_iff [DecidableRel clash] {table next : Table keys clash} {row : ρ} :
    table.insert? row = some next ↔
      (∀ other ∈ table.rows, ¬clash (keys other) (keys row)) ∧ next.rows = table.rows ++ [row] := by
  unfold insert?
  split
  next absent =>
    constructor
    next =>
      rintro ⟨⟩
      exact ⟨absent, rfl⟩
    next =>
      rintro ⟨-, rows⟩
      cases next
      cases rows
      rfl
  next present => simp [present]

theorem rows_of_updateWhere? [DecidableRel clash] {table next : Table keys clash} {chosen : ρ → Bool}
    {f : ρ → ρ} (updated : table.updateWhere? chosen f = some next) :
    next.rows = table.rows.map (fun row => if chosen row then f row else row) := by
  unfold updateWhere? at updated
  split at updated
  next => rw [← Option.some.inj updated]
  next => cases updated

/-- An update goes through when the rows that it makes clash no more than those that they come from. -/
theorem exists_updateWhere? [DecidableRel clash] {table : Table keys clash} {chosen : ρ → Bool} {f : ρ → ρ}
    (weakens : ∀ one other, clash (keys (if chosen one then f one else one))
      (keys (if chosen other then f other else other)) → clash (keys one) (keys other)) :
    ∃ next, table.updateWhere? chosen f = some next := by
  have apart : (table.rows.map (fun row => if chosen row then f row else row)).Pairwise
      (fun one other => ¬clash (keys one) (keys other)) := by
    rw [List.pairwise_map]
    exact table.apart.imp fun free clashes => free (weakens _ _ clashes)
  exact ⟨⟨_, apart⟩, dif_pos apart⟩

theorem eq_of_clash [Std.Symm clash] {table : Table keys clash} {one other : ρ}
    (first : one ∈ table.rows) (second : other ∈ table.rows)
    (clashes : clash (keys one) (keys other)) : one = other := by
  have symm : Std.Symm (fun one other => ¬clash (keys one) (keys other)) :=
    ⟨fun _ _ free back => free (Std.Symm.symm _ _ back)⟩
  by_contra different
  exact table.apart.forall first second different clashes

theorem length_filter_le_one (table : Table keys clash) {p : ρ → Bool}
    (same : ∀ one other, p one = true → p other = true → clash (keys one) (keys other)) :
    (table.rows.filter p).length ≤ 1 := by
  have apart : (table.rows.filter p).Pairwise (fun one other => ¬clash (keys one) (keys other)) :=
    table.apart.filter p
  match picked : table.rows.filter p with
  | [] => exact Nat.zero_le 1
  | [_] => exact Nat.le_refl 1
  | one :: other :: rest =>
    rw [picked] at apart
    have mem : ∀ row ∈ one :: other :: rest, p row = true := by
      intro row present
      rw [← picked] at present
      exact (List.mem_filter.1 present).2
    refine absurd (same one other (mem one ?_) (mem other ?_)) (List.rel_of_pairwise_cons apart ?_)
    all_goals simp

theorem find?_eq_some_iff [Std.Symm clash] {table : Table keys clash} {p : ρ → Bool}
    (same : ∀ one other, p one = true → p other = true → clash (keys one) (keys other)) {row : ρ} :
    table.rows.find? p = some row ↔ row ∈ table.rows ∧ p row = true := by
  constructor
  next =>
    intro found
    exact ⟨List.mem_of_find?_eq_some found, List.find?_some found⟩
  next =>
    rintro ⟨mem, holds⟩
    cases found : table.rows.find? p with
    | none => exact absurd holds (List.find?_eq_none.1 found row mem)
    | some other =>
      have first := List.find?_some found
      rw [eq_of_clash (List.mem_of_find?_eq_some found) mem (same other row first holds)]

end Table
