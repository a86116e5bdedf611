import Mathlib.Data.List.Basic

set_option autoImplicit false

namespace BoundedTail

variable {α : Type*}

def lastOf (bound : Nat) (seen : List α) : List α := seen.drop (seen.length - bound)

-- Cuts an overflow off the front of the chunks, and off their count of elements.
def trimFront : Nat → List (List α) → Nat → List (List α) × Nat
  | _, [], count => ([], count)
  | 0, chunks, count => (chunks, count)
  | overflow, oldest :: rest, count =>
    if oldest.length ≤ overflow then
      trimFront (overflow - oldest.length) rest (count - oldest.length)
    else (oldest.drop overflow :: rest, count - overflow)

theorem length_lastOf (bound : Nat) (seen : List α) : (lastOf bound seen).length = min seen.length bound := by
  rw [lastOf, List.length_drop]
  omega

theorem lastOf_append_lastOf (bound : Nat) (seen more : List α) :
    lastOf bound (lastOf bound seen ++ more) = lastOf bound (seen ++ more) := by
  have kept : lastOf bound seen ++ more = (seen ++ more).drop (seen.length - bound) :=
    (List.drop_append_of_le_length (Nat.sub_le _ _)).symm
  rw [kept, lastOf, List.drop_drop, lastOf, List.length_drop, List.length_append]
  congr 1
  omega

theorem lastOf_append_right (bound : Nat) (seen more : List α) :
    lastOf bound (seen ++ lastOf bound more) = lastOf bound (seen ++ more) := by
  by_cases long : bound ≤ more.length
  · have kept : (lastOf bound more).length = bound := by rw [length_lastOf, Nat.min_eq_right long]
    have behind : seen.length + more.length - bound = seen.length + (more.length - bound) := by omega
    have cut : lastOf bound (seen ++ lastOf bound more) = lastOf bound more := by
      rw [lastOf, List.length_append, kept, Nat.add_sub_cancel, List.drop_left]
    rw [cut, lastOf, lastOf, List.length_append, behind, ← List.drop_drop, List.drop_left]
  · have whole : lastOf bound more = more := by rw [lastOf, Nat.sub_eq_zero_of_le (by omega), List.drop_zero]
    rw [whole]

theorem lastOf_nil (bound : Nat) : lastOf bound ([] : List α) = [] := List.drop_nil

theorem lastOf_of_length_le {bound : Nat} {seen : List α} (short : seen.length ≤ bound) :
    lastOf bound seen = seen := by
  rw [lastOf, Nat.sub_eq_zero_of_le short, List.drop_zero]

theorem trimFront_spec (chunks : List (List α)) (overflow count : Nat)
    (available : overflow ≤ chunks.flatten.length) :
    (trimFront overflow chunks count).1.flatten = chunks.flatten.drop overflow ∧
      (trimFront overflow chunks count).2 = count - overflow := by
  induction chunks generalizing overflow count with
  | nil =>
    rw [List.flatten_nil, List.length_nil, Nat.le_zero] at available
    simp [trimFront, available]
  | cons oldest rest ih =>
    cases overflow with
    | zero => simp [trimFront]
    | succ overflow =>
      rw [List.flatten_cons, List.length_append] at available
      rw [trimFront]
      split
      next whole =>
        obtain ⟨kept, counted⟩ := ih (overflow + 1 - oldest.length) (count - oldest.length)
          (by omega)
        rw [kept, counted, List.flatten_cons, List.drop_append, List.drop_eq_nil_of_le whole]
        exact ⟨rfl, by omega⟩
      next partly =>
        rw [List.flatten_cons, List.flatten_cons, List.drop_append,
          Nat.sub_eq_zero_of_le (by omega), List.drop_zero]
        exact ⟨rfl, rfl⟩
      · exact nofun

end BoundedTail
