import Mathlib.Algebra.BigOperators.Group.List.Basic
import Mathlib.Data.List.Nodup

set_option autoImplicit false

namespace CreditLedger

structure Entry (ι κ α : Type*) where
  id : ι
  kind : κ
  amount : α

structure Ledger (ι κ α : Type*) where
  opened : List (Entry ι κ α)
  settled : List (Entry ι κ α)
  held : List (Entry ι κ α)

variable {ι κ α : Type*}

inductive Step : Ledger ι κ α → Ledger ι κ α → Prop
  | opens (ledger : Ledger ι κ α) (entry : Entry ι κ α)
      (fresh : entry.id ∉ ledger.opened.map Entry.id) :
      Step ledger
        { ledger with opened := ledger.opened ++ [entry], held := ledger.held ++ [entry] }
  | settles (ledger : Ledger ι κ α) (before after : List (Entry ι κ α)) (entry : Entry ι κ α)
      (present : ledger.held = before ++ entry :: after) :
      Step ledger { ledger with settled := ledger.settled ++ [entry], held := before ++ after }

abbrev Steps : Ledger ι κ α → Ledger ι κ α → Prop := Relation.ReflTransGen Step

structure Ledger.Balanced (ledger : Ledger ι κ α) : Prop where
  conserved : ledger.opened.Perm (ledger.settled ++ ledger.held)
  openedOnce : (ledger.opened.map Entry.id).Nodup

theorem empty_balanced : (⟨[], [], []⟩ : Ledger ι κ α).Balanced :=
  ⟨List.Perm.refl _, List.nodup_nil⟩

theorem Step.balanced {first second : Ledger ι κ α} (step : Step first second)
    (balanced : first.Balanced) : second.Balanced := by
  cases step with
  | opens entry fresh =>
    constructor
    · simpa [List.append_assoc] using balanced.conserved.append_right [entry]
    · rw [List.map_append, List.nodup_append]
      refine ⟨balanced.openedOnce, by simp, ?_⟩
      intro id mem other single same
      simp only [List.map_cons, List.map_nil, List.mem_singleton] at single
      subst same single
      exact fresh mem
  | settles before after entry present =>
    refine ⟨balanced.conserved.trans ?_, balanced.openedOnce⟩
    rw [present, List.append_assoc]
    exact List.Perm.append_left _ List.perm_middle

theorem Steps.balanced {first second : Ledger ι κ α} (steps : Steps first second)
    (balanced : first.Balanced) : second.Balanced := by
  induction steps with
  | refl => exact balanced
  | tail _ step ih => exact step.balanced ih

def total [DecidableEq κ] [AddCommMonoid α] (kind : κ) (entries : List (Entry ι κ α)) : α :=
  ((entries.filter (fun entry => entry.kind = kind)).map Entry.amount).sum

theorem total_append [DecidableEq κ] [AddCommMonoid α] (kind : κ) (first second : List (Entry ι κ α)) :
    total kind (first ++ second) = total kind first + total kind second := by
  simp [total]

theorem total_perm [DecidableEq κ] [AddCommMonoid α] (kind : κ)
    {first second : List (Entry ι κ α)} (perm : first.Perm second) : total kind first = total kind second :=
  ((perm.filter _).map _).sum_eq

namespace Ledger.Balanced

variable {ledger : Ledger ι κ α}

theorem total_held [DecidableEq κ] [AddCommGroup α] (balanced : ledger.Balanced) (kind : κ) :
    total kind ledger.opened - total kind ledger.settled = total kind ledger.held := by
  rw [total_perm kind balanced.conserved, total_append]
  exact add_sub_cancel_left _ _

theorem settledOnce (balanced : ledger.Balanced) : (ledger.settled.map Entry.id).Nodup := by
  have ids := (balanced.conserved.map Entry.id).nodup_iff.mp balanced.openedOnce
  rw [List.map_append] at ids
  exact ids.of_append_left

theorem opened_of_settled (balanced : ledger.Balanced) {entry : Entry ι κ α}
    (settled : entry ∈ ledger.settled) : entry ∈ ledger.opened :=
  balanced.conserved.mem_iff.mpr (List.mem_append_left _ settled)

theorem opened_unique (balanced : ledger.Balanced) {first second : Entry ι κ α}
    (one : first ∈ ledger.opened) (two : second ∈ ledger.opened) (same : first.id = second.id) :
    first = second :=
  List.inj_on_of_nodup_map balanced.openedOnce one two same

theorem settled_all (balanced : ledger.Balanced) (empty : ledger.held = []) :
    ledger.opened.Perm ledger.settled := by
  simpa [empty] using balanced.conserved

end Ledger.Balanced

end CreditLedger
