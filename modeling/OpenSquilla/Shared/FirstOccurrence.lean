import Mathlib.Data.List.Infix
import OpenSquilla.Shared.BoundedTail

set_option autoImplicit false

namespace FirstOccurrence

open BoundedTail

variable {α : Type*} [DecidableEq α]

def find (needle text : List α) : Option Nat :=
  (List.range (text.length + 1)).find? fun index => needle.isPrefixOf (text.drop index)

theorem find_eq_some {needle text : List α} {index : Nat} : find needle text = some index ↔
    index ≤ text.length ∧ needle <+: text.drop index ∧ ∀ earlier < index, ¬needle <+: text.drop earlier := by
  rw [find, List.find?_range_eq_some]
  simp only [List.isPrefixOf_iff_prefix, List.mem_range, Nat.lt_succ_iff, Bool.not_eq_true',
      Bool.eq_false_iff, ne_eq]
  exact ⟨fun ⟨here, bound, first⟩ => ⟨bound, here, first⟩, fun ⟨bound, here, first⟩ => ⟨here, bound, first⟩⟩

theorem find_eq_none {needle text : List α} : find needle text = none ↔ ¬needle <:+: text := by
  rw [find, List.find?_eq_none]
  simp only [List.isPrefixOf_iff_prefix, List.mem_range, Nat.lt_succ_iff]
  constructor
  · rintro absent ⟨before, behind, rfl⟩
    refine absent before.length (by simp) ?_
    rw [List.append_assoc, List.drop_left]
    exact List.prefix_append _ _
  · intro absent index bound here
    exact absent (here.isInfix.trans (List.drop_suffix _ _).isInfix)

theorem find_nil (text : List α) : find [] text = some 0 :=
  find_eq_some.2 ⟨Nat.zero_le _, List.nil_prefix, fun _ earlier => absurd earlier (Nat.not_lt_zero _)⟩

theorem find_drop {needle text : List α} {cut : Nat} (bound : cut ≤ text.length)
    (none_before : ∀ earlier < cut, ¬needle <+: text.drop earlier) :
    find needle text = (find needle (text.drop cut)).map (cut + ·) := by
  cases found : find needle (text.drop cut) with
  | some index =>
    obtain ⟨inside, here, first⟩ := find_eq_some.1 found
    rw [List.length_drop] at inside
    rw [List.drop_drop] at here
    rw [Option.map_some]
    refine find_eq_some.2 ⟨by omega, here, fun earlier before occurs => ?_⟩
    by_cases early : earlier < cut
    · exact none_before earlier early occurs
    · refine first (earlier - cut) (by omega) ?_
      rwa [List.drop_drop, Nat.add_sub_cancel' (Nat.not_lt.1 early)]
  | none =>
    rw [find_eq_none] at found
    rw [Option.map_none, find_eq_none]
    rintro ⟨before, behind, same⟩
    have occurs : needle <+: text.drop before.length := by
      rw [← same, List.append_assoc, List.drop_left]
      exact List.prefix_append _ _
    by_cases early : before.length < cut
    · exact none_before _ early occurs
    · rw [← Nat.add_sub_cancel' (Nat.not_lt.1 early), ← List.drop_drop] at occurs
      exact found (occurs.isInfix.trans (List.drop_suffix _ _).isInfix)

theorem find_append {needle seen : List α} (some : needle ≠ []) (absent : find needle seen = none)
    (more : List α) : find needle (seen ++ more) = (find needle (lastOf (needle.length - 1) seen ++ more)).map
      (seen.length - (lastOf (needle.length - 1) seen).length + ·) := by
  have positive := List.length_pos_iff.2 some
  have kept : lastOf (needle.length - 1) seen ++ more =
      (seen ++ more).drop (seen.length - (needle.length - 1)) :=
    (List.drop_append_of_le_length (Nat.sub_le _ _)).symm
  have cut : seen.length - (lastOf (needle.length - 1) seen).length = seen.length - (needle.length - 1) := by
    rw [length_lastOf]
    omega
  rw [kept, cut]
  refine find_drop (by rw [List.length_append]; omega) fun earlier before occurs => find_eq_none.1 absent ?_
  -- it would have ended in what was searched
  rw [List.drop_append_of_le_length (by omega)] at occurs
  have inside :=
    List.prefix_of_prefix_length_le occurs (List.prefix_append _ more) (by rw [List.length_drop]; omega)
  exact inside.isInfix.trans (List.drop_suffix _ _).isInfix

theorem find_append_of_some {needle seen : List α} {index : Nat} (found : find needle seen = some index)
    (more : List α) : find needle (seen ++ more) = some index := by
  obtain ⟨bound, here, first⟩ := find_eq_some.1 found
  have length : ∀ earlier ≤ seen.length, (seen ++ more).drop earlier = seen.drop earlier ++ more :=
    fun _ inside =>
    List.drop_append_of_le_length inside
  refine find_eq_some.2 ⟨by rw [List.length_append]; omega, ?_, fun earlier before occurs => ?_⟩
  · rw [length index bound]
    exact here.trans (List.prefix_append _ _)
  · refine first earlier before ?_
    rw [length earlier (by omega)] at occurs
    have short := here.length_le
    rw [List.length_drop] at short
    exact List.prefix_of_prefix_length_le occurs (List.prefix_append _ more) (by rw [List.length_drop]; omega)

end FirstOccurrence
