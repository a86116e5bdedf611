import Mathlib.Data.List.Pairwise

set_option autoImplicit false

namespace LinkedHistory

universe u v

variable {α : Type u} {ι : Type v} (number : α → Nat) (name : α → ι) (previous : α → Option ι)

-- The entries go on from `count` without a gap, and each names the one before it.
def Linked : Option ι → Nat → List α → Prop
  | _, _, [] => True
  | before, count, entry :: rest =>
    number entry = count + 1 ∧ previous entry = before ∧ Linked (some (name entry)) (count + 1) rest

variable {number name previous} {before : Option ι} {count : Nat} {entries : List α}

theorem Linked.snoc {entry : α} (linked : Linked number name previous before count entries)
    (next : number entry = count + entries.length + 1)
    (follows : previous entry = (entries.getLast?.map name).or before) :
    Linked number name previous before count (entries ++ [entry]) := by
  induction entries generalizing before count with
  | nil => exact ⟨next, follows, trivial⟩
  | cons first rest ih =>
    refine ⟨linked.1, linked.2.1, ih linked.2.2 ?_ ?_⟩
    · rw [next, List.length_cons]
      omega
    · rw [follows]
      cases rest with
      | nil => rfl
      | cons second rest =>
        rw [List.getLast?_cons_cons]
        cases last : (second :: rest).getLast? with
        | none => exact absurd (List.getLast?_eq_none_iff.1 last) (List.cons_ne_nil _ _)
        | some entry => rfl

theorem Linked.number_mem {entry : α} (linked : Linked number name previous before count entries)
    (mem : entry ∈ entries) : count < number entry ∧ number entry ≤ count + entries.length := by
  induction entries generalizing before count with
  | nil => cases mem
  | cons first rest ih =>
    obtain rfl | mem := List.mem_cons.1 mem
    · rw [linked.1, List.length_cons]
      omega
    · have bounds := ih linked.2.2 mem
      rw [List.length_cons]
      omega

theorem Linked.number_lt (linked : Linked number name previous before count entries) :
    entries.Pairwise (fun one other => number one < number other) := by
  induction entries generalizing before count with
  | nil => exact List.Pairwise.nil
  | cons first rest ih =>
    rw [List.pairwise_cons]
    refine ⟨fun other mem => ?_, ih linked.2.2⟩
    have bounds := linked.2.2.number_mem mem
    rw [linked.1]
    exact bounds.1

theorem Linked.number_getLast {entry : α} (linked : Linked number name previous before count entries)
    (last : entries.getLast? = some entry) : number entry = count + entries.length := by
  induction entries generalizing before count with
  | nil => cases last
  | cons first rest ih =>
    cases rest with
    | nil =>
      cases last
      exact linked.1
    | cons second rest =>
      rw [List.getLast?_cons_cons] at last
      rw [ih linked.2.2 last]
      simp only [List.length_cons]
      omega

end LinkedHistory
