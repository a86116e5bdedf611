import Mathlib.Algebra.BigOperators.Group.Finset.Basic
import OpenSquilla.Shared.Dict

set_option autoImplicit false

-- A group holds the members of its key in the order of the list. A figure added up over the groups
-- is one added up over the keys, in whatever order these are listed.

namespace KeyedGroups

variable {κ α : Type*} [DecidableEq κ] (keyOf : α → κ)

def membersOf (key : κ) (list : List α) : List α := list.filter (fun mem => keyOf mem = key)

def groupBy (list : List α) : Dict κ (List α) :=
  list.foldl (fun groups mem =>
    groups.set (keyOf mem) ((groups.get? (keyOf mem)).getD [] ++ [mem])) Dict.empty

theorem groupBy_concat (list : List α) (mem : α) :
    groupBy keyOf (list ++ [mem]) = (groupBy keyOf list).set (keyOf mem)
      (((groupBy keyOf list).get? (keyOf mem)).getD [] ++ [mem]) := by
  simp [groupBy]

theorem get?_groupBy (list : List α) (key : κ) : (groupBy keyOf list).get? key =
      if membersOf keyOf key list = [] then none else some (membersOf keyOf key list) := by
  induction list using List.reverseRecOn with
  | nil => rfl
  | append_singleton before mem ih =>
    rw [groupBy_concat, Dict.get?_set]
    by_cases here : key = keyOf mem
    · subst here
      have grown : membersOf keyOf (keyOf mem) (before ++ [mem]) =
          membersOf keyOf (keyOf mem) before ++ [mem] := by simp [membersOf]
      rw [if_pos rfl, ih, grown, if_neg (List.append_ne_nil_of_right_ne_nil _ (List.cons_ne_nil _ _))]
      split
      next alone => rw [alone, Option.getD_none]
      next => rw [Option.getD_some]
    · have kept : membersOf keyOf key (before ++ [mem]) = membersOf keyOf key before := by
        simp [membersOf, Ne.symm here]
      rw [if_neg here, ih, kept]

variable {keyOf} {list : List α}

theorem of_mem_groupBy {entry : κ × List α} (stored : entry ∈ (groupBy keyOf list).entries) :
    entry.2 = membersOf keyOf entry.1 list ∧ entry.2 ≠ [] := by
  have found := (Dict.get?_eq_some_iff _ entry.1 entry.2).2 stored
  rw [get?_groupBy] at found
  split at found
  next => cases found
  next some =>
    have same := Option.some.inj found
    exact ⟨same.symm, same ▸ some⟩

theorem mem_keys_groupBy {key : κ} : key ∈ (groupBy keyOf list).keys ↔ membersOf keyOf key list ≠ [] := by
  rw [Dict.mem_keys_iff]
  constructor
  · rintro ⟨group, found⟩
    have stored := of_mem_groupBy ((Dict.get?_eq_some_iff _ key group).1 found)
    exact stored.1 ▸ stored.2
  · intro some
    exact ⟨_, (get?_groupBy keyOf list key).trans (if_neg some)⟩

theorem exists_group_iff {P : α → Prop} :
    (∃ group ∈ (groupBy keyOf list).values, ∃ mem ∈ group, P mem) ↔ ∃ mem ∈ list, P mem := by
  constructor
  · rintro ⟨group, stored, mem, inside, holds⟩
    obtain ⟨entry, kept, rfl⟩ := List.mem_map.1 stored
    rw [(of_mem_groupBy kept).1] at inside
    exact ⟨mem, List.mem_of_mem_filter inside, holds⟩
  · rintro ⟨mem, inside, holds⟩
    have own : mem ∈ membersOf keyOf (keyOf mem) list := List.mem_filter.2 ⟨inside, by simp⟩
    have found := get?_groupBy keyOf list (keyOf mem)
    rw [if_neg (List.ne_nil_of_mem own), Dict.get?_eq_some_iff] at found
    exact ⟨_, List.mem_map_of_mem found, mem, own, holds⟩

/-- What no member of a key adds is added up over any list of the keys that has each of them once. -/
theorem sumValues_groupBy {M : Type*} [AddCommMonoid M] {keys : List κ} (nodup : keys.Nodup)
    (covered : ∀ mem ∈ list, keyOf mem ∈ keys) (f : List α → M) (nothing : f [] = 0) :
    (groupBy keyOf list).sumValues f = (keys.map (fun key => f (membersOf keyOf key list))).sum := by
  have own : (groupBy keyOf list).sumValues f =
      ((groupBy keyOf list).keys.map (fun key => f (membersOf keyOf key list))).sum := by
    simp only [Dict.sumValues, Dict.values, Dict.keys, List.map_map]
    congr 1
    apply List.map_congr_left
    intro entry stored
    simp only [Function.comp_apply, ← (of_mem_groupBy stored).1]
  have distinct : (groupBy keyOf list).keys.Nodup := (groupBy keyOf list).nodupKeys
  rw [own, ← List.sum_toFinset _ distinct, ← List.sum_toFinset _ nodup]
  apply Finset.sum_subset
  · intro key here
    rw [List.mem_toFinset] at here ⊢
    obtain ⟨mem, inside⟩ := List.exists_mem_of_ne_nil _ (mem_keys_groupBy.1 here)
    rw [membersOf, List.mem_filter, decide_eq_true_eq] at inside
    exact inside.2 ▸ covered mem inside.1
  · intro key _ absent
    rw [List.mem_toFinset] at absent
    have empty : membersOf keyOf key list = [] := not_not.1 (fun some => absent (mem_keys_groupBy.2 some))
    rw [empty, nothing]

end KeyedGroups
