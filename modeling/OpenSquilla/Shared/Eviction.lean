import Mathlib.Algebra.GroupWithZero.Nat
import Mathlib.Data.List.Sort
import OpenSquilla.Shared.Dict

set_option autoImplicit false

namespace Eviction

universe u v

variable {α : Type u} {κ : Type v}

-- How many are dropped from the front before the rest fits.
def surplus (fits : List α → Bool) : List α → Nat
  | [] => 0
  | record :: rest => if fits (record :: rest) then 0 else surplus fits rest + 1

theorem surplus_le_length (fits : List α → Bool) (records : List α) :
    surplus fits records ≤ records.length := by
  induction records with
  | nil => simp [surplus]
  | cons record rest ih =>
    unfold surplus
    split
    next => exact Nat.zero_le _
    next => simpa using ih

theorem not_fits_of_lt_surplus (fits : List α → Bool) (records : List α) {count : Nat}
    (fewer : count < surplus fits records) : fits (records.drop count) = false := by
  induction records generalizing count with
  | nil => simp [surplus] at fewer
  | cons record rest ih =>
    unfold surplus at fewer
    split at fewer
    next => simp at fewer
    next isOver =>
      cases count with
      | zero => simpa using isOver
      | succ count => simpa using ih (Nat.lt_of_succ_lt_succ fewer)

theorem surplus_of_fits (fits : List α → Bool) {records : List α} (fitting : fits records = true) :
    surplus fits records = 0 := by
  cases records with
  | nil => rfl
  | cons record rest => rw [surplus, if_pos fitting]

theorem fits_drop_surplus (fits : List α → Bool) (records : List α) (fitsNone : fits [] = true) :
    fits (records.drop (surplus fits records)) = true := by
  induction records with
  | nil => simpa [surplus] using fitsNone
  | cons record rest ih =>
    unfold surplus
    split
    next fitting => simpa using fitting
    next => simpa using ih

theorem fits_of_surplus_lt (fits : List α → Bool) {records : List α}
    (left : surplus fits records < records.length) : fits (records.drop (surplus fits records)) = true := by
  induction records with
  | nil => cases left
  | cons record rest ih =>
    unfold surplus at left ⊢
    split at left
    next fitting => rwa [if_pos fitting]
    next isOver =>
      rw [if_neg isOver]
      exact ih (Nat.lt_of_succ_lt_succ left)

theorem surplus_eq_length (fits : List α → Bool) (records : List α)
    (never : ∀ kept, fits kept = false) : surplus fits records = records.length := by
  induction records with
  | nil => rfl
  | cons record rest ih => simp [surplus, never, ih]

def total (size : α → Nat) (records : List α) : Nat := (records.map size).sum

@[simp] theorem total_nil (size : α → Nat) : total size [] = 0 := rfl

@[simp] theorem total_cons (size : α → Nat) (record : α) (rest : List α) :
    total size (record :: rest) = size record + total size rest := by
  simp [total]

theorem total_perm (size : α → Nat) {first second : List α} (same : first.Perm second) :
    total size first = total size second :=
  (same.map size).sum_eq

theorem dropped_before_kept {older : α → α → Prop} {records : List α}
    (sorted : records.Pairwise older) (count : Nat) :
    ∀ dropped ∈ records.take count, ∀ kept ∈ records.drop count, older dropped kept := by
  rw [← List.take_append_drop count records, List.pairwise_append] at sorted
  exact sorted.2.2

section Keyed

variable [DecidableEq κ] {key : α → κ} {records : List α}

theorem filter_key_drop (distinct : (records.map key).Nodup) (count : Nat) :
    records.filter (fun record => key record ∉ (records.take count).map key) =
      records.drop count := by
  have parts := List.take_append_drop count records
  have apart := distinct
  rw [← parts, List.map_append, List.nodup_append] at apart
  have dropped : (records.take count).filter
      (fun record => key record ∉ (records.take count).map key) = [] := by
    apply List.filter_eq_nil_iff.mpr
    intro record mem
    have there : key record ∈ (records.take count).map key := List.mem_map_of_mem mem
    simp only [there, not_true_eq_false, decide_false, Bool.false_eq_true, not_false_eq_true]
  have kept : (records.drop count).filter
      (fun record => key record ∉ (records.take count).map key) = records.drop count := by
    apply List.filter_eq_self.mpr
    intro record mem
    apply decide_eq_true
    intro there
    exact apart.2.2 _ there _ (List.mem_map_of_mem mem) rfl
  calc records.filter (fun record => key record ∉ (records.take count).map key)
      = (records.take count ++ records.drop count).filter
          (fun record => key record ∉ (records.take count).map key) := by rw [parts]
    _ = records.drop count := by rw [List.filter_append, dropped, kept, List.nil_append]

theorem filter_key_filter (distinct : (records.map key).Nodup) (gone : α → Bool) :
    records.filter (fun record => key record ∉ (records.filter gone).map key) =
      records.filter (fun record => !gone record) := by
  apply List.filter_congr
  intro record mem
  cases isGone : gone record with
  | true =>
    have there : key record ∈ (records.filter gone).map key :=
      List.mem_map_of_mem (List.mem_filter.mpr ⟨mem, isGone⟩)
    simp only [there, not_true_eq_false, decide_false, Bool.not_true]
  | false =>
    apply decide_eq_true
    intro there
    obtain ⟨other, found, same⟩ := List.mem_map.mp there
    obtain ⟨present, otherGone⟩ := List.mem_filter.mp found
    have equal : other = record := List.inj_on_of_nodup_map distinct present mem same
    rw [equal, isGone] at otherGone
    cases otherGone

end Keyed

end Eviction

namespace Dict

variable {κ ν : Type*} [DecidableEq κ]

def eraseAll (d : Dict κ ν) (keys : List κ) : Dict κ ν := keys.foldl erase d

@[simp] theorem eraseAll_nil (d : Dict κ ν) : d.eraseAll [] = d := rfl

@[simp] theorem eraseAll_cons (d : Dict κ ν) (key : κ) (rest : List κ) :
    d.eraseAll (key :: rest) = (d.erase key).eraseAll rest := rfl

theorem entries_eraseAll (d : Dict κ ν) (keys : List κ) :
    (d.eraseAll keys).entries = d.entries.filter (fun entry => entry.1 ∉ keys) := by
  induction keys generalizing d with
  | nil => simp
  | cons key rest ih =>
    rw [eraseAll_cons, ih, erase, List.filter_filter]
    apply List.filter_congr
    intro entry _
    simp [not_or, Bool.and_comm]

theorem eraseAll_erase_of_mem {d : Dict κ ν} {keys : List κ} {key : κ} (mem : key ∈ keys) :
    (d.erase key).eraseAll keys = d.eraseAll keys := by
  ext1
  rw [entries_eraseAll, entries_eraseAll, erase, List.filter_filter]
  refine List.filter_congr fun entry _ => ?_
  by_cases same : entry.1 = key
  · simp [same, mem]
  · simp [same]

theorem get?_eraseAll (d : Dict κ ν) (keys : List κ) (key : κ) :
    (d.eraseAll keys).get? key = if key ∈ keys then none else d.get? key := by
  apply Option.ext
  intro value
  rw [get?_eq_some_iff, entries_eraseAll, List.mem_filter]
  by_cases gone : key ∈ keys
  · simp [gone]
  · simp [gone, get?_eq_some_iff]

end Dict
