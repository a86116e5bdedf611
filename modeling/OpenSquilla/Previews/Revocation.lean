import OpenSquilla.Previews.DraftHistories

set_option autoImplicit false

namespace OpenSquilla.Previews

open TextLines JsonText FileInputDrafts

section Traces

variable {P : Type}

def Output.preview? : Output P → Option ToolInputPreview
  | .preview event => some event
  | .passed _ => none

def Output.passed? : Output P → Option (Event P)
  | .preview _ => none
  | .passed event => some event

def previewsOf (outputs : List (Output P)) : List ToolInputPreview := outputs.filterMap Output.preview?

def passedOf (outputs : List (Output P)) : List (Event P) := outputs.filterMap Output.passed?

@[simp] theorem previewsOf_append (first second : List (Output P)) :
    previewsOf (first ++ second) = previewsOf first ++ previewsOf second := by
  simp [previewsOf]

@[simp] theorem passedOf_append (first second : List (Output P)) :
    passedOf (first ++ second) = passedOf first ++ passedOf second := by
  simp [passedOf]

@[simp] theorem previewsOf_passed (event : Event P) (outputs : List (Output P)) :
    previewsOf (.passed event :: outputs) = previewsOf outputs := rfl

@[simp] theorem passedOf_passed (event : Event P) (outputs : List (Output P)) :
    passedOf (.passed event :: outputs) = event :: passedOf outputs := rfl

@[simp] theorem previewsOf_previews (previews : List ToolInputPreview) :
    previewsOf (previews.map fun event => (.preview event : Output P)) = previews := by
  rw [previewsOf, List.filterMap_map]
  exact List.filterMap_some

@[simp] theorem passedOf_previews (previews : List ToolInputPreview) :
    passedOf (previews.map fun event => (.preview event : Output P)) = [] := by
  rw [passedOf, List.filterMap_map]
  exact List.filterMap_eq_nil_iff.2 fun _ _ => rfl

def Event.revokes : Event P → Bool
  | .providerGenerationReset _ | .error _ => true
  | _ => false

-- What was shown is revoked at one point, and never shown again.
structure Revokes (shown revoked later : List ToolInputPreview) : Prop where
  once : ∀ previewId, ofDraft previewId shown ≠ [] →
    ((ofDraft previewId (shown ++ revoked)).filter fun preview => preview.state = .discarded).length = 1
  here : ∀ previewId, Live shown previewId → ∃ preview, ofDraft previewId revoked = [preview] ∧
    preview.state = .discarded
  last : ∀ previewId, ofDraft previewId shown ≠ [] → ofDraft previewId later = []

def Bounded (shown : List ToolInputPreview) : Prop :=
  ∀ live : List Nat, live.Nodup → (∀ previewId ∈ live, Live shown previewId) →
    live.length ≤ previewActiveToolLimit

end Traces

section Runs

variable {P : Type} {trace : List ToolInputPreview} {drafts : FileInputDrafts}

theorem IsHistory.discarded_last {before after : List ToolInputPreview} {last : ToolInputPreview}
    (history : IsHistory (before ++ last :: after)) (state : last.state = .discarded) : after = [] := by
  by_contra some_
  have early : last ∈ (before ++ last :: after).dropLast := by
    rw [List.dropLast_append_of_ne_nil (List.cons_ne_nil _ _), List.dropLast_cons_of_ne_nil some_]
    simp
  have going := history.generating last early
  rw [state] at going
  cases going

theorem IsHistory.discarded_once {history : List ToolInputPreview} (is : IsHistory history)
    (some_ : history ≠ []) (ended : ∀ last, history.getLast? = some last → last.state = .discarded) :
    (history.filter fun preview => preview.state = .discarded).length = 1 := by
  obtain none_ | ⟨before, last, rfl⟩ := List.eq_nil_or_concat' history
  · exact absurd none_ some_
  · have going := is.generating
    rw [List.dropLast_concat] at going
    have before_ : before.filter (fun preview => preview.state = .discarded) = [] := by
      rw [List.filter_eq_nil_iff]
      intro preview mem
      simp [going preview mem]
    simp [before_, ended last List.getLast?_concat]

theorem Shows.revokes (shows : Shows trace drafts) {later : List ToolInputPreview}
    (histories : ∀ previewId, IsHistory (ofDraft previewId (trace ++ drafts.discard.1 ++ later))) :
    Revokes trace drafts.discard.1 later := by
  have cleared : Shows (trace ++ drafts.discard.1) drafts.discard.2 := shows.cleared rfl rfl (Nat.le_refl _)
  have ended : ∀ previewId last, (ofDraft previewId (trace ++ drafts.discard.1)).getLast? = some last →
      last.state = .discarded := by
    intro previewId last found
    by_contra going
    obtain ⟨toolId, preview, kept, -⟩ := cleared.kept previewId ⟨last, found, going⟩
    cases kept
  refine ⟨fun previewId shown => ?_, fun previewId live => ?_, fun previewId shown => ?_⟩
  · refine (cleared.histories previewId).discarded_once ?_ (ended previewId)
    rw [ofDraft_append]
    exact List.append_ne_nil_of_left_ne_nil shown _
  · obtain ⟨toolId, preview, kept, rfl⟩ := shows.kept previewId live
    exact ⟨discarded preview, ofDraft_discarded shows kept, rfl⟩
  · have history := histories previewId
    rw [ofDraft_append] at history
    obtain none_ | ⟨before, last, whole⟩ :=
      List.eq_nil_or_concat' (ofDraft previewId (trace ++ drafts.discard.1))
    · rw [ofDraft_append] at none_
      exact absurd (List.append_eq_nil_iff.1 none_).1 shown
    · rw [whole, List.append_assoc] at history
      have state := ended previewId last (by rw [whole, List.getLast?_concat])
      exact history.discarded_last state

theorem Shows.bounded (shows : Shows trace drafts) : Bounded trace := by
  intro live distinct all
  have kept : live ⊆ drafts.previews.values.map (·.previewId) := by
    intro previewId mem
    obtain ⟨toolId, preview, found, same⟩ := shows.kept previewId (all previewId mem)
    have entry := (Dict.get?_eq_some_iff ..).1 found
    exact List.mem_map.2 ⟨preview, List.mem_map.2 ⟨_, entry, rfl⟩, same⟩
  calc live.length ≤ (drafts.previews.values.map (·.previewId)).length := (List.subperm_of_subset distinct kept).length_le
    _ = drafts.previews.keys.length := by simp [Dict.values, Dict.keys]
    _ ≤ drafts.activeTools.length := by simp [activeTools]
    _ ≤ previewActiveToolLimit := shows.active

theorem bounded_discarded {shown revoked : List ToolInputPreview} (bounded : Bounded shown)
    (discarded : ∀ preview ∈ revoked, preview.state = .discarded) : Bounded (shown ++ revoked) := by
  refine fun live distinct all => bounded live distinct fun previewId mem => ?_
  obtain ⟨last, found, going⟩ := all previewId mem
  rw [ofDraft_append] at found
  obtain none_ | ⟨before, other, some_⟩ := List.eq_nil_or_concat' (ofDraft previewId revoked)
  · rw [none_, List.append_nil] at found
    exact ⟨last, found, going⟩
  · rw [some_, ← List.append_assoc, List.getLast?_concat, Option.some.injEq] at found
    have own : other ∈ ofDraft previewId revoked := by simp [some_]
    rw [found] at own
    exact absurd (discarded last (List.mem_filter.1 own).1) going

theorem observe_cases (drafts : FileInputDrafts) (now : Rat) (event : Event P) :
    (∀ preview ∈ (drafts.observe now event).1, preview.state = .discarded) ∨
      (drafts.observe now event).1.length ≤ 1 := by
  have revoked : ∀ preview ∈ drafts.discard.1, preview.state = .discarded := by
    intro preview mem
    obtain ⟨kept, -, rfl⟩ := List.mem_map.1 mem
    rfl
  have one : ∀ (drafts : FileInputDrafts) toolId force, (drafts.snapshot now toolId force).1.length ≤ 1 := by
    intro drafts toolId force
    unfold snapshot
    split
    · exact Nat.zero_le _
    · split
      · exact Nat.zero_le _
      · dsimp only
        split
        · exact Nat.zero_le _
        · exact Nat.le_refl _
  cases event with
  | toolInputPreview toolUseId payload => exact .inr (Nat.zero_le _)
  | toolUseStart toolUseId toolName epoch =>
    refine .inl ?_
    simp only [observe, observeStart]
    repeat' split
    all_goals first | exact revoked | simp
  | toolUseDelta toolUseId fragment =>
    refine .inr ?_
    simp only [observe, observeDelta]
    repeat' split
    all_goals first | exact one _ _ _ | exact Nat.zero_le _
  | toolUseEnd toolUseId toolName arguments =>
    refine .inr ?_
    simp only [observe, observeEnd]
    split
    · exact Nat.zero_le _
    · exact one _ _ _
  | providerGenerationReset payload => exact .inl revoked
  | error payload => exact .inl revoked
  | done payload => exact .inr (Nat.zero_le _)
  | other payload => exact .inr (Nat.zero_le _)

theorem bounded_observe (shows : Shows trace drafts) (now : Rat) (event : Event P) {part : List ToolInputPreview}
    (leading : part <+: (drafts.observe now event).1) : Bounded (trace ++ part) := by
  obtain discarded | one := observe_cases drafts now event
  · exact bounded_discarded shows.bounded fun preview mem => discarded preview (leading.mem mem)
  · by_cases some_ : part = []
    · rw [some_, List.append_nil]
      exact shows.bounded
    · have whole : part = (drafts.observe now event).1 :=
        leading.eq_of_length_le (one.trans (List.length_pos_of_ne_nil some_))
      rw [whole]
      exact (shows_observe shows now event).bounded

theorem observeAll_append (drafts : FileInputDrafts) (first second : List (Rat × Event P)) :
    observeAll drafts (first ++ second) =
      ((observeAll drafts first).1 ++ (observeAll (observeAll drafts first).2 second).1,
        (observeAll (observeAll drafts first).2 second).2) := by
  induction first generalizing drafts with
  | nil => rfl
  | cons entry rest ih => simp [observeAll, ih]

theorem passedOf_observeAll (drafts : FileInputDrafts) (events : List (Rat × Event P)) :
    passedOf (observeAll drafts events).1 = events.map Prod.snd := by
  induction events generalizing drafts with
  | nil => rfl
  | cons entry rest ih => simp [observeAll, ih]

theorem shows_observeAll (shows : Shows trace drafts) (events : List (Rat × Event P)) :
    Shows (trace ++ previewsOf (observeAll drafts events).1) (observeAll drafts events).2 := by
  induction events generalizing trace drafts with
  | nil =>
    show Shows (trace ++ []) drafts
    rwa [List.append_nil]
  | cons entry rest ih =>
    have next := ih (shows_observe shows entry.1 entry.2)
    simpa [observeAll] using next

theorem previewsOf_prefix {first second : List (Output P)} (leading : first <+: second) :
    previewsOf first <+: previewsOf second :=
  leading.filterMap _

theorem bounded_observeAll (shows : Shows trace drafts) (events : List (Rat × Event P))
    {outputs : List (Output P)}
    (leading : outputs <+: (observeAll drafts events).1) : Bounded (trace ++ previewsOf outputs) := by
  induction events generalizing trace drafts outputs with
  | nil =>
    rw [List.prefix_nil.1 leading]
    simpa [previewsOf] using shows.bounded
  | cons entry rest ih =>
    obtain ⟨more, whole⟩ := leading
    obtain ⟨left, within, -⟩ | ⟨after, rfl, passed⟩ := List.append_eq_append_iff.1 whole
    · have part : previewsOf outputs <+: (drafts.observe entry.1 entry.2).1 := by
        have leading := previewsOf_prefix ⟨left, within.symm⟩
        rwa [previewsOf_previews] at leading
      exact bounded_observe shows entry.1 entry.2 part
    · rw [previewsOf_append, previewsOf_previews, ← List.append_assoc]
      cases after with
      | nil =>
        rw [show previewsOf ([] : List (Output P)) = [] from rfl, List.append_nil]
        exact (shows_observe shows entry.1 entry.2).bounded
      | cons first after =>
        obtain ⟨rfl, rest_⟩ := List.cons.inj passed
        rw [previewsOf_passed]
        exact ih (shows_observe shows entry.1 entry.2) ⟨more, rest_.symm⟩

def revokedAtEnd (events : List (Rat × Event P)) : Ending → List ToolInputPreview
  | .exhausted => if events.any fun event => event.2.isDone then [] else (observeAll .start events).2.discard.1
  | .raised => (observeAll .start events).2.discard.1

theorem previewFileInputs_eq (events : List (Rat × Event P)) (ending : Ending) :
    previewFileInputs events ending =
      (observeAll .start events).1 ++ (revokedAtEnd events ending).map .preview := by
  cases ending with
  | exhausted =>
    simp only [previewFileInputs, revokedAtEnd]
    split
    · simp
    · rfl
  | raised => rfl

theorem revokedAtEnd_cases (events : List (Rat × Event P)) (ending : Ending) :
    revokedAtEnd events ending = [] ∨ revokedAtEnd events ending = (observeAll .start events).2.discard.1 := by
  cases ending with
  | exhausted =>
    simp only [revokedAtEnd]
    split
    · exact .inl rfl
    · exact .inr rfl
  | raised => exact .inr rfl

theorem shows_events (events : List (Rat × Event P)) :
    Shows (previewsOf (observeAll .start events).1) (observeAll .start events).2 := by
  simpa using shows_observeAll shows_start events

theorem shows_previewFileInputs (events : List (Rat × Event P)) (ending : Ending) :
    ∃ drafts, Shows (previewsOf (previewFileInputs events ending)) drafts := by
  rw [previewFileInputs_eq, previewsOf_append, previewsOf_previews]
  obtain none_ | all := revokedAtEnd_cases events ending
  · rw [none_, List.append_nil]
    exact ⟨_, shows_events events⟩
  · rw [all]
    exact ⟨(observeAll .start events).2.discard.2, (shows_events events).cleared rfl rfl (Nat.le_refl _)⟩

theorem bounded_previewFileInputs (events : List (Rat × Event P)) (ending : Ending) {outputs : List (Output P)}
    (leading : outputs <+: previewFileInputs events ending) : Bounded (previewsOf outputs) := by
  rw [previewFileInputs_eq] at leading
  obtain ⟨more, whole⟩ := leading
  obtain ⟨left, within, -⟩ | ⟨after, rfl, tail⟩ := List.append_eq_append_iff.1 whole
  · simpa using bounded_observeAll shows_start events ⟨left, within.symm⟩
  · rw [previewsOf_append]
    refine bounded_discarded (shows_events events).bounded fun preview mem => ?_
    have leading : previewsOf after <+: revokedAtEnd events ending := by
      have leading := previewsOf_prefix ⟨more, tail.symm⟩
      rwa [previewsOf_previews] at leading
    have revoked := leading.mem mem
    obtain none_ | all := revokedAtEnd_cases events ending
    · rw [none_] at revoked
      cases revoked
    · rw [all] at revoked
      obtain ⟨kept, -, rfl⟩ := List.mem_map.1 revoked
      rfl

theorem observe_revokes (drafts : FileInputDrafts) (now : Rat) {event : Event P}
    (revokes : event.revokes = true) : (drafts.observe now event).1 = drafts.discard.1 := by
  cases event with
  | providerGenerationReset payload => rfl
  | error payload => rfl
  | _ => cases revokes

/-- What comes out between the events: every event as it is, of each draft a history, and revocations in front of
the event that asks for them, or at an end without one. -/
structure DraftsRevoked (events : List (Rat × Event P)) (ending : Ending)
    (outputs : List (Output P)) : Prop where
  passed : passedOf outputs = events.map Prod.snd
  histories : ∀ previewId, IsHistory (ofDraft previewId (previewsOf outputs))
  revoked : ∀ before now point after, events = before ++ (now, point) :: after → point.revokes = true →
    ∃ shown revoked later, outputs = shown ++ revoked.map .preview ++ .passed point :: later ∧
      passedOf shown = before.map Prod.snd ∧ Revokes (previewsOf shown) revoked (previewsOf later)
  unfinished : ending = .raised ∨ (∀ event ∈ events, event.2.isDone = false) →
    ∃ shown revoked, outputs = shown ++ revoked.map .preview ∧
      passedOf shown = events.map Prod.snd ∧ Revokes (previewsOf shown) revoked []
  bounded : ∀ leading, leading <+: outputs → Bounded (previewsOf leading)

theorem draft_previews_are_revoked (events : List (Rat × Event P)) (ending : Ending) :
    DraftsRevoked events ending (previewFileInputs events ending) := by
  obtain ⟨last, whole⟩ := shows_previewFileInputs events ending
  refine ⟨?_, whole.histories, ?_, ?_, fun outputs leading => bounded_previewFileInputs events ending leading⟩
  · rw [previewFileInputs_eq, passedOf_append, passedOf_observeAll, passedOf_previews, List.append_nil]
  · rintro before now point after rfl revokes
    have histories := whole.histories
    rw [previewFileInputs_eq, observeAll_append] at histories ⊢
    simp only [observeAll, observe_revokes _ now revokes] at histories ⊢
    refine ⟨(observeAll .start before).1, (observeAll .start before).2.discard.1,
      (observeAll ((observeAll .start before).2.observe now point).2 after).1 ++
        (revokedAtEnd (before ++ (now, point) :: after) ending).map .preview, ?_,
          passedOf_observeAll .start before, ?_⟩
    · simp
    · refine (shows_events before).revokes fun previewId => ?_
      simpa using histories previewId
  · intro ends
    have tail : revokedAtEnd events ending = (observeAll .start events).2.discard.1 := by
      cases ending with
      | exhausted =>
        obtain raised | undone := ends
        · cases raised
        · have none_ : (events.any fun event => event.2.isDone) = false := by
            rw [List.any_eq_false]
            intro event mem
            simp [undone event mem]
          simp [revokedAtEnd, none_]
      | raised => rfl
    refine ⟨(observeAll .start events).1, _,
        by rw [previewFileInputs_eq, tail], passedOf_observeAll .start events, ?_⟩
    refine (shows_events events).revokes fun previewId => ?_
    have history := whole.histories previewId
    rw [previewFileInputs_eq, tail, previewsOf_append, previewsOf_previews] at history
    rwa [List.append_nil]

-- A draft is shown, and the reset of the generation takes it back.
def resetGeneration : List (Rat × Event Unit) :=
  [(0, .toolUseStart (some "call".toList) "execute_code".toList none),
    (1, .toolUseDelta (some "call".toList) (some ("\x7b\"code\": \"x".toList.map .char))),
    (2, .providerGenerationReset ())]

theorem draft_is_shown_and_revoked : (previewsOf (previewFileInputs resetGeneration .exhausted)).map
      (fun preview => (preview.revision, preview.state)) =
      [(1, .generating), (2, .discarded)] ∧
    ∃ shown revoked later,
      previewFileInputs resetGeneration .exhausted =
        shown ++ revoked.map .preview ++ .passed (.providerGenerationReset ()) :: later ∧
      passedOf shown = (resetGeneration.take 2).map Prod.snd ∧
        Revokes (previewsOf shown) revoked (previewsOf later) :=
  ⟨by decide,
    (draft_previews_are_revoked resetGeneration .exhausted).revoked (resetGeneration.take 2) 2 _ [] rfl rfl⟩

end Runs

end OpenSquilla.Previews
