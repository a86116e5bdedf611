import Mathlib.Data.List.DropRight

set_option autoImplicit false

universe u

namespace Episodes

variable {ε : Type u}

def since (opens : ε → Bool) (history : List ε) : List ε :=
  history.rtakeWhile (fun event => !opens event)

variable {opens : ε → Bool} {history : List ε}

theorem since_subset : since opens history ⊆ history := (List.rtakeWhile_suffix _ history).subset

theorem since_opened {event : ε} (opened : opens event = true) : since opens (history ++ [event]) = [] :=
  List.rtakeWhile_concat_neg _ _ _ (by simp [opened])

theorem since_concat {event : ε} (within : opens event = false) :
    since opens (history ++ [event]) = since opens history ++ [event] :=
  List.rtakeWhile_concat_pos _ _ _ (by simp [within])

theorem since_append {events : List ε} (within : ∀ event ∈ events, opens event = false) :
    since opens (history ++ events) = since opens history ++ events := by
  induction events using List.reverseRecOn with
  | nil => simp
  | append_singleton events event ih =>
    have before := ih fun other mem => within other (List.mem_append_left _ mem)
    rw [← List.append_assoc, since_concat (within event (by simp)), before, List.append_assoc]

theorem since_after {early late : List ε} {opening : ε} (opened : opens opening = true)
    (within : ∀ event ∈ late, opens event = false) : since opens (early ++ opening :: late) = late := by
  have split : early ++ opening :: late = (early ++ [opening]) ++ late := by simp
  rw [split, since_append within, since_opened opened, List.nil_append]

theorem exists_last_opening {events : List ε} (some_opens : ∃ event ∈ events, opens event = true) :
    ∃ early opening late, events = early ++ opening :: late ∧ opens opening = true ∧
      ∀ event ∈ late, opens event = false := by
  induction events using List.reverseRecOn with
  | nil => simp at some_opens
  | append_singleton events event ih =>
    cases last : opens event with
    | true => exact ⟨events, event, [], rfl, last, by simp⟩
    | false =>
      obtain ⟨found, mem, opened⟩ := some_opens
      rcases List.mem_append.mp mem with before | same
      · obtain ⟨early, opening, late, rfl, openingOpens, quiet⟩ := ih ⟨found, before, opened⟩
        refine ⟨early, opening, late ++ [event], by simp, openingOpens, fun other otherMember => ?_⟩
        rcases List.mem_append.mp otherMember with inLate | isLast
        · exact quiet other inLate
        · rw [List.mem_singleton.mp isLast, last]
      · rw [List.mem_singleton.mp same, last] at opened
        cases opened

theorem cut_off {before between : List ε} {event : ε} (within : opens event = false)
    (outside : event ∉ since opens (before ++ event :: between)) : ∃ early opening, opens opening = true ∧
      between = early ++ opening :: since opens (before ++ event :: between) := by
  have split : before ++ event :: between = (before ++ [event]) ++ between := by simp
  by_cases some_opens : ∃ other ∈ between, opens other = true
  · obtain ⟨early, opening, late, rfl, opened, quiet⟩ := exists_last_opening some_opens
    refine ⟨early, opening, opened, ?_⟩
    have reassociated : before ++ event :: (early ++ opening :: late) =
        (before ++ event :: early) ++ opening :: late := by simp
    rw [reassociated, since_after opened quiet]
  · have quiet : ∀ other ∈ between, opens other = false := fun other mem =>
      Bool.eq_false_iff.mpr fun opened => some_opens ⟨other, mem, opened⟩
    have itself : ∀ other ∈ [event], opens other = false := by simpa using within
    refine absurd ?_ outside
    rw [split, since_append quiet, since_append itself]
    simp

theorem since_sublist_since {narrow wide : ε → Bool}
    (opensToo : ∀ event, narrow event = true → wide event = true) (history : List ε) :
    (since wide history).Sublist (since narrow history) := by
  induction history using List.reverseRecOn with
  | nil => simp [since]
  | append_singleton history event ih =>
    cases opened : wide event with
    | true => simp [since_opened opened]
    | false =>
      have narrowToo : narrow event = false :=
        Bool.eq_false_iff.mpr fun also => by simp [opensToo event also] at opened
      rw [since_concat opened, since_concat narrowToo]
      exact ih.append_right [event]

end Episodes
