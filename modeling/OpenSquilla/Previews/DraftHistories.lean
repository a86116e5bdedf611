import OpenSquilla.Previews.FileInputDrafts
import Mathlib.Data.List.Range

set_option autoImplicit false

namespace OpenSquilla.Previews

open TextLines JsonText FileInputDrafts

def ofDraft (previewId : Nat) (trace : List ToolInputPreview) : List ToolInputPreview :=
  trace.filter fun preview => preview.previewId = previewId

-- One draft, revision after revision, until it is discarded.
structure IsHistory (history : List ToolInputPreview) : Prop where
  revisions : history.map (·.revision) = List.range' 1 history.length
  same : ∀ first ∈ history, ∀ second ∈ history,
    first.toolUseId = second.toolUseId ∧ first.attemptId = second.attemptId ∧ first.toolName = second.toolName
  generating : ∀ preview ∈ history.dropLast, preview.state = .generating

theorem isHistory_nil : IsHistory [] := ⟨rfl, by simp, by simp⟩

theorem isHistory_single {preview : ToolInputPreview} (first : preview.revision = 1) : IsHistory [preview] :=
  ⟨by simp [first], by simp, by simp⟩

theorem IsHistory.concat {before : List ToolInputPreview} {last next : ToolInputPreview}
    (history : IsHistory (before ++ [last]))
    (going : last.state = .generating) (revision : next.revision = last.revision + 1)
    (same : next.toolUseId = last.toolUseId ∧ next.attemptId = last.attemptId ∧ next.toolName = last.toolName) :
    IsHistory (before ++ [last] ++ [next]) := by
  have lastRevision : last.revision = before.length + 1 := by
    have revisions := congrArg List.getLast? history.revisions
    simpa [List.range'_concat, Nat.add_comm] using revisions
  have others : ∀ preview ∈ before ++ [last],
      preview.toolUseId = last.toolUseId ∧ preview.attemptId = last.attemptId ∧
        preview.toolName = last.toolName :=
    fun preview mem => history.same preview mem last (by simp)
  refine ⟨?_, ?_, ?_⟩
  · have whole : (before ++ [last] ++ [next]).length = (before ++ [last]).length + 1 := List.length_append
    rw [List.map_append, history.revisions, whole, List.range'_concat]
    simp [revision, lastRevision, Nat.add_comm]
  · have all : ∀ preview ∈ before ++ [last] ++ [next],
        preview.toolUseId = last.toolUseId ∧ preview.attemptId = last.attemptId ∧
          preview.toolName = last.toolName := by
      rw [List.forall_mem_append]
      exact ⟨others, by simpa using same⟩
    intro first here second there
    obtain ⟨tool, attempt, name⟩ := all first here
    obtain ⟨tool', attempt', name'⟩ := all second there
    exact ⟨tool.trans tool'.symm, attempt.trans attempt'.symm, name.trans name'.symm⟩
  · rw [List.dropLast_concat, List.forall_mem_append]
    refine ⟨?_, by simpa using going⟩
    simpa using history.generating

def Live (trace : List ToolInputPreview) (previewId : Nat) : Prop :=
  ∃ last, (ofDraft previewId trace).getLast? = some last ∧ last.state ≠ .discarded

@[simp] theorem ofDraft_append (previewId : Nat) (trace more : List ToolInputPreview) :
    ofDraft previewId (trace ++ more) = ofDraft previewId trace ++ ofDraft previewId more := by
  simp [ofDraft]

@[simp] theorem ofDraft_nil (previewId : Nat) : ofDraft previewId [] = [] := rfl

theorem not_live_nil (previewId : Nat) : ¬Live [] previewId := by simp [Live]

section Tables

structure Shows (trace : List ToolInputPreview) (drafts : FileInputDrafts) : Prop where
  drawn : ∀ preview ∈ trace, preview.previewId < drafts.drawn
  histories : ∀ previewId, IsHistory (ofDraft previewId trace)
  kept : ∀ previewId, Live trace previewId → ∃ toolId preview, drafts.previews.get? toolId = some preview ∧
    preview.previewId = previewId
  shown : ∀ toolId preview, drafts.previews.get? toolId = some preview →
    (ofDraft preview.previewId trace).getLast? = some preview ∧ preview.state = .generating ∧
      preview.toolUseId = toolId ∧ preview.attemptId = drafts.attemptId
  source : ∀ toolId preview input, drafts.previews.get? toolId = some preview →
    drafts.inputs.get? toolId = some input →
    input.toolName = preview.toolName
  seen : ∀ toolId, toolId ∈ drafts.previews.keys ∨ toolId ∈ drafts.inputs.keys → toolId ∈ drafts.seen
  active : drafts.activeTools.length ≤ previewActiveToolLimit

variable {trace : List ToolInputPreview} {drafts : FileInputDrafts}

theorem shows_start : Shows [] .start where
  drawn := by simp
  histories := fun _ => isHistory_nil
  kept := fun previewId live => absurd live (not_live_nil previewId)
  shown := by simp [FileInputDrafts.start]
  source := by simp [FileInputDrafts.start]
  seen := by simp [FileInputDrafts.start, Dict.keys]
  active := by simp [activeTools, FileInputDrafts.start, Dict.keys]

theorem mem_activeTools (drafts : FileInputDrafts) (toolId : Text) :
    toolId ∈ drafts.activeTools ↔ toolId ∈ drafts.previews.keys ∨ toolId ∈ drafts.inputs.keys := by
  by_cases shown : toolId ∈ drafts.previews.keys <;> simp [activeTools, shown]

theorem nodup_activeTools (drafts : FileInputDrafts) : drafts.activeTools.Nodup := by
  refine List.Nodup.append drafts.previews.nodupKeys
      (drafts.inputs.nodupKeys.filter _) fun toolId shown other => ?_
  exact of_decide_eq_true (List.mem_filter.1 other).2 shown

theorem length_activeTools_le {other : FileInputDrafts} {more : List Text}
    (within : ∀ toolId, toolId ∈ other.previews.keys ∨ toolId ∈ other.inputs.keys →
      toolId ∈ more ∨ toolId ∈ drafts.previews.keys ∨ toolId ∈ drafts.inputs.keys) :
    other.activeTools.length ≤ more.length + drafts.activeTools.length := by
  rw [← List.length_append]
  refine (List.subperm_of_subset (nodup_activeTools other) fun toolId mem => ?_).length_le
  rw [List.mem_append, mem_activeTools]
  exact within toolId ((mem_activeTools other toolId).1 mem)

theorem Shows.drawn_preview (shows : Shows trace drafts) {toolId : Text} {preview : ToolInputPreview}
    (found : drafts.previews.get? toolId = some preview) : preview.previewId < drafts.drawn :=
  shows.drawn preview (List.mem_filter.1 (List.mem_of_getLast? (shows.shown toolId preview found).1)).1

theorem Shows.apart (shows : Shows trace drafts) {toolId other : Text} {first second : ToolInputPreview}
    (found : drafts.previews.get? toolId = some first) (found' : drafts.previews.get? other = some second)
    (same : first.previewId = second.previewId) : toolId = other := by
  obtain ⟨last, -, tool, -⟩ := shows.shown toolId first found
  obtain ⟨last', -, tool', -⟩ := shows.shown other second found'
  rw [same, last', Option.some.injEq] at last
  rw [← tool, ← tool', last]

theorem ofDraft_drawn (shows : Shows trace drafts) : ofDraft drafts.drawn trace = [] := by
  rw [ofDraft, List.filter_eq_nil_iff]
  intro preview mem
  have := shows.drawn preview mem
  simp only [decide_eq_true_eq]
  omega

theorem Shows.emit (shows : Shows trace drafts) {toolId : Text} {event : ToolInputPreview} {drawn : Nat}
    (drawn_ : event.previewId < drawn ∧ drafts.drawn ≤ drawn) (tool : event.toolUseId = toolId)
    (attempt : event.attemptId = drafts.attemptId) (going : event.state = .generating)
    (history : IsHistory (ofDraft event.previewId trace ++ [event]))
    (others : ∀ other preview, drafts.previews.get? other = some preview →
      (preview.previewId = event.previewId ↔ other = toolId))
    (source : ∀ input, drafts.inputs.get? toolId = some input → input.toolName = event.toolName)
    (active : toolId ∈ drafts.inputs.keys) (published : Dict Text Rat) :
    Shows (trace ++ [event])
      { drafts with drawn := drawn, previews := drafts.previews.set toolId event, published := published } where
  drawn := by
    rw [List.forall_mem_append]
    exact ⟨fun preview mem => Nat.lt_of_lt_of_le (shows.drawn preview mem) drawn_.2,
        by simpa using drawn_.1⟩
  histories := by
    intro previewId
    rw [ofDraft_append]
    by_cases own : event.previewId = previewId
    · subst own
      simpa [ofDraft] using history
    · simpa [ofDraft, own] using shows.histories previewId
  kept := by
    rintro previewId ⟨last, found, state⟩
    simp only [Dict.get?_set]
    by_cases own : event.previewId = previewId
    · exact ⟨toolId, event, by simp, own⟩
    · rw [ofDraft_append, show ofDraft previewId [event] = [] by simp [ofDraft, own], List.append_nil] at found
      obtain ⟨other, preview, kept, same⟩ := shows.kept previewId ⟨last, found, state⟩
      have elsewhere : other ≠ toolId := fun here => own (((others other preview kept).2 here).symm.trans same)
      exact ⟨other, preview, by simp [elsewhere, kept], same⟩
  shown := by
    intro other preview found
    simp only [Dict.get?_set] at found
    by_cases here : other = toolId
    · subst here
      simp only [if_true, Option.some.injEq] at found
      subst found
      exact ⟨by simp [ofDraft], going, tool, attempt⟩
    · rw [if_neg here] at found
      have apart : ¬event.previewId = preview.previewId :=
        fun same => here ((others other preview found).1 same.symm)
      obtain ⟨last, state⟩ := shows.shown other preview found
      exact ⟨by simpa [ofDraft, apart] using last, state⟩
  source := by
    intro other preview input found read
    simp only [Dict.get?_set] at found
    by_cases here : other = toolId
    · subst here
      simp only [if_true, Option.some.injEq] at found
      subst found
      exact source input read
    · rw [if_neg here] at found
      exact shows.source other preview input found read
  seen := by
    intro other mem
    rw [Dict.mem_keys_set, or_assoc] at mem
    obtain rfl | mem := mem
    · exact shows.seen other (.inr active)
    · exact shows.seen other mem
  active := by
    refine (@length_activeTools_le drafts _ [] fun other mem => ?_).trans (by simpa using shows.active)
    rw [Dict.mem_keys_set, or_assoc] at mem
    obtain rfl | mem := mem
    · exact .inr (.inr active)
    · exact .inr mem

theorem shows_snapshot (shows : Shows trace drafts) (now : Rat) (toolId : Text) (force : Bool) :
    Shows (trace ++ (drafts.snapshot now toolId force).1) (drafts.snapshot now toolId force).2 ∧
      (drafts.snapshot now toolId force).2.inputs = drafts.inputs := by
  have silent : Shows (trace ++ []) drafts ∧ drafts.inputs = drafts.inputs := ⟨by rwa [List.append_nil], rfl⟩
  unfold snapshot
  cases read : drafts.inputs.get? toolId with
  | none => exact silent
  | some source =>
    have active : toolId ∈ drafts.inputs.keys := (Dict.mem_keys_iff ..).2 ⟨source, read⟩
    dsimp only
    split
    · exact silent
    · split
      · exact silent
      · refine ⟨?_, rfl⟩
        cases found : drafts.previews.get? toolId with
        | none =>
          simp only [Option.isSome_none, Bool.false_eq_true, if_false, Option.elim_none]
          refine shows.emit ⟨Nat.lt_succ_self _, Nat.le_succ _⟩ rfl rfl rfl ?_ ?_ ?_ active _
          · rw [ofDraft_drawn shows, List.nil_append]
            exact isHistory_single rfl
          · intro other preview kept
            have below := shows.drawn_preview kept
            constructor
            · intro same
              exact absurd same (Nat.ne_of_lt below)
            · rintro rfl
              rw [found] at kept
              cases kept
          · intro input again
            rw [read, Option.some.injEq] at again
            rw [← again]
        | some previous =>
          obtain ⟨last, going, tool, attempt⟩ := shows.shown toolId previous found
          obtain ⟨before, history⟩ := List.getLast?_eq_some_iff.1 last
          have name := shows.source toolId previous source found read
          have below := shows.drawn_preview found
          simp only [Option.isSome_some, if_true, Option.elim_some]
          refine @Shows.emit trace drafts shows toolId _ _ ?_ rfl rfl rfl ?_ ?_ ?_ active _
          · exact ⟨below, Nat.le_refl _⟩
          · have whole := shows.histories previous.previewId
            rw [history] at whole ⊢
            exact whole.concat going rfl ⟨tool.symm, attempt.symm, name⟩
          · intro other preview kept
            constructor
            · exact fun same => shows.apart kept found same
            · rintro rfl
              rw [found, Option.some.injEq] at kept
              rw [kept]
          · intro input again
            rw [read, Option.some.injEq] at again
            rw [← again]

theorem Shows.quiet (shows : Shows trace drafts) {next : FileInputDrafts}
    (previews : next.previews = drafts.previews)
    (attempt : next.attemptId = drafts.attemptId) (drawn : next.drawn = drafts.drawn)
    (source : ∀ toolId preview input, drafts.previews.get? toolId = some preview →
      next.inputs.get? toolId = some input →
      input.toolName = preview.toolName)
    (later : ∀ toolId ∈ drafts.seen, toolId ∈ next.seen)
    (inputs : ∀ toolId ∈ next.inputs.keys, toolId ∈ next.seen)
    (active : next.activeTools.length ≤ previewActiveToolLimit) : Shows trace next where
  drawn := by
    rw [drawn]
    exact shows.drawn
  histories := shows.histories
  kept := by
    rw [previews]
    exact shows.kept
  shown := by
    rw [previews, attempt]
    exact shows.shown
  source := by
    rw [previews]
    exact source
  seen := by
    intro toolId mem
    rw [previews] at mem
    obtain shown | started := mem
    · exact later toolId (shows.seen toolId (.inl shown))
    · exact inputs toolId started
  active := active

theorem Shows.withInputs (shows : Shows trace drafts) (inputs : Dict Text (PartialFileInput Kept))
    (delegated : List Text) (within : ∀ toolId input, inputs.get? toolId = some input →
      ∃ known, drafts.inputs.get? toolId = some known ∧ input.toolName = known.toolName) :
    Shows trace { drafts with inputs := inputs, delegated := delegated } := by
  have known : ∀ toolId ∈ inputs.keys, toolId ∈ drafts.inputs.keys := by
    intro toolId mem
    obtain ⟨input, found⟩ := (Dict.mem_keys_iff ..).1 mem
    obtain ⟨known, read, -⟩ := within toolId input found
    exact (Dict.mem_keys_iff ..).2 ⟨known, read⟩
  refine shows.quiet rfl rfl rfl ?_ (fun _ mem => mem) ?_ ?_
  · intro toolId preview input shown found
    obtain ⟨known, read, name⟩ := within toolId input found
    exact name.trans (shows.source toolId preview known shown read)
  · exact fun toolId mem => shows.seen toolId (.inr (known toolId mem))
  · refine (@length_activeTools_le drafts _ [] fun toolId mem => ?_).trans (by simpa using shows.active)
    exact .inr (mem.imp_right (known toolId))

theorem Shows.eraseInput (shows : Shows trace drafts) (toolId : Text) (delegated : List Text) :
    Shows trace { drafts with inputs := drafts.inputs.erase toolId, delegated := delegated } := by
  refine shows.withInputs _ delegated fun other input found => ⟨input, ?_, rfl⟩
  rw [Dict.get?_erase] at found
  by_cases own : other = toolId
  · simp [own] at found
  · simpa [own] using found

theorem Shows.setInput (shows : Shows trace drafts) {toolId : Text} {known source : PartialFileInput Kept}
    (read : drafts.inputs.get? toolId = some known) (name : source.toolName = known.toolName) :
    Shows trace { drafts with inputs := drafts.inputs.set toolId source } := by
  refine shows.withInputs _ drafts.delegated fun other input found => ?_
  rw [Dict.get?_set] at found
  by_cases own : other = toolId
  · rw [if_pos own, Option.some.injEq] at found
    rw [own, ← found]
    exact ⟨known, read, name⟩
  · rw [if_neg own] at found
    exact ⟨input, found, rfl⟩

theorem ofDraft_discarded_of_others {previewId : Nat} {entries : List (Text × ToolInputPreview)}
    (others : ∀ entry ∈ entries, entry.2.previewId ≠ previewId) :
    ofDraft previewId (entries.map fun entry => discarded entry.2) = [] := by
  rw [ofDraft, List.filter_eq_nil_iff]
  intro event mem
  obtain ⟨entry, kept, rfl⟩ := List.mem_map.1 mem
  have other := others entry kept
  rw [decide_eq_true_eq]
  exact other

theorem discard_eq (drafts : FileInputDrafts) :
    drafts.discard.1 = drafts.previews.entries.map fun entry => discarded entry.2 := by
  simp [FileInputDrafts.discard, Dict.values, Function.comp_def]

theorem ofDraft_discarded (shows : Shows trace drafts) {toolId : Text} {preview : ToolInputPreview}
    (found : drafts.previews.get? toolId = some preview) :
    ofDraft preview.previewId drafts.discard.1 = [discarded preview] := by
  obtain ⟨before, after, split, rest⟩ := Dict.erase_split found
  have others : ∀ entry ∈ before ++ after, entry.2.previewId ≠ preview.previewId := by
    intro entry mem same
    rw [← rest] at mem
    have kept := (Dict.get?_eq_some_iff _ entry.1 entry.2).2 mem
    rw [Dict.get?_erase] at kept
    by_cases own : entry.1 = toolId
    · simp [own] at kept
    · rw [if_neg own] at kept
      exact own (shows.apart kept found same)
  rw [List.forall_mem_append] at others
  rw [discard_eq, split, List.map_append, List.map_cons, ofDraft_append, ← List.singleton_append, ofDraft_append,
    ofDraft_discarded_of_others others.1, ofDraft_discarded_of_others others.2]
  simp [ofDraft, discarded]

theorem ofDraft_discarded_of_unkept {previewId : Nat}
    (unkept : ∀ toolId preview, drafts.previews.get? toolId = some preview → preview.previewId ≠ previewId) :
    ofDraft previewId drafts.discard.1 = [] := by
  rw [discard_eq]
  exact ofDraft_discarded_of_others fun entry kept => unkept entry.1 entry.2 ((Dict.get?_eq_some_iff ..).2 kept)

theorem Shows.cleared (shows : Shows trace drafts) {next : FileInputDrafts} (previews : next.previews = .empty)
    (inputs : next.inputs = .empty) (drawn : drafts.drawn ≤ next.drawn) :
    Shows (trace ++ drafts.discard.1) next where
  drawn := by
    rw [List.forall_mem_append]
    refine ⟨fun preview mem => Nat.lt_of_lt_of_le (shows.drawn preview mem) drawn, fun event mem => ?_⟩
    rw [discard_eq] at mem
    obtain ⟨entry, kept, rfl⟩ := List.mem_map.1 mem
    have below := shows.drawn_preview ((Dict.get?_eq_some_iff _ entry.1 entry.2).2 kept)
    exact Nat.lt_of_lt_of_le below drawn
  histories := by
    intro previewId
    rw [ofDraft_append]
    by_cases unkept : ∀ toolId preview, drafts.previews.get? toolId = some preview →
        preview.previewId ≠ previewId
    · rw [ofDraft_discarded_of_unkept unkept, List.append_nil]
      exact shows.histories previewId
    · push Not at unkept
      obtain ⟨toolId, preview, found, rfl⟩ := unkept
      obtain ⟨last, going, -, -⟩ := shows.shown toolId preview found
      obtain ⟨before, history⟩ := List.getLast?_eq_some_iff.1 last
      have whole := shows.histories preview.previewId
      rw [history] at whole ⊢
      rw [ofDraft_discarded shows found]
      exact whole.concat going rfl ⟨rfl, rfl, rfl⟩
  kept := by
    rintro previewId ⟨last, found, state⟩
    rw [ofDraft_append] at found
    by_cases unkept : ∀ toolId preview, drafts.previews.get? toolId = some preview →
        preview.previewId ≠ previewId
    · rw [ofDraft_discarded_of_unkept unkept, List.append_nil] at found
      obtain ⟨toolId, preview, kept, same⟩ := shows.kept previewId ⟨last, found, state⟩
      exact absurd same (unkept toolId preview kept)
    · push Not at unkept
      obtain ⟨toolId, preview, kept, rfl⟩ := unkept
      rw [ofDraft_discarded shows kept, List.getLast?_concat, Option.some.injEq] at found
      rw [← found] at state
      exact absurd rfl state
  shown := by simp [previews]
  source := by simp [previews]
  seen := by simp [previews, inputs, Dict.keys]
  active := by simp [activeTools, previews, inputs, Dict.keys]
end Tables

section Tools

variable {C : Type} (store : ContentStore C)

@[simp] theorem toolName_takeChar (input : PartialFileInput C) (c : Char) :
    (input.takeChar store c).toolName = input.toolName := by
  unfold PartialFileInput.takeChar
  cases input.role with
  | content => rfl
  | skip => rfl
  | path => dsimp only; split <;> rfl
  | key => dsimp only; split <;> rfl

@[simp] theorem toolName_decoded (input : PartialFileInput C) (point : CodePoint) :
    (input.decoded store point).toolName = input.toolName := by
  unfold PartialFileInput.decoded
  split
  · simp
  · split
    · rfl
    · split <;> simp

@[simp] theorem toolName_closeString (input : PartialFileInput C) : input.closeString.toolName =
  input.toolName := by
  unfold PartialFileInput.closeString
  dsimp only
  split <;> rfl

@[simp] theorem toolName_openString (input : PartialFileInput C) :
    (input.openString store).toolName = input.toolName := by
  unfold PartialFileInput.openString
  dsimp only
  split <;> rfl

@[simp] theorem toolName_readEscape (input : PartialFileInput C) (escape : Str) :
    (input.readEscape store escape).toolName = input.toolName := by
  unfold PartialFileInput.readEscape
  split
  · rfl
  · cases loadsEscape escape <;> simp

@[simp] theorem toolName_readPoint (input : PartialFileInput C) (point : CodePoint) :
    (input.readPoint store point).toolName = input.toolName := by
  unfold PartialFileInput.readPoint
  cases input.escape <;> dsimp only <;> repeat' split
  all_goals simp

theorem toolName_foldl (input : PartialFileInput C) (fragment : Str) :
    (fragment.foldl (PartialFileInput.readPoint store) input).toolName = input.toolName := by
  induction fragment generalizing input with
  | nil => rfl
  | cons point rest ih => rw [List.foldl_cons, ih, toolName_readPoint]

theorem toolName_feed (source : PartialFileInput Kept) (fragment : Str) :
    (source.feed fragment).toolName = source.toolName := by
  unfold PartialFileInput.feed PartialFileInput.feedUpTo
  exact toolName_foldl (keptStore previewContentLimit)
      { source with content := ⟨source.content.content, []⟩ } fragment

end Tools

section Steps

variable {P : Type} {trace : List ToolInputPreview} {drafts : FileInputDrafts}

theorem toolName_completed (source : PartialFileInput Kept) (arguments : Dict Text (Option Text)) :
    (completed source arguments).toolName = source.toolName := by
  unfold completed
  split
  · split
    · rfl
    · split <;> rfl
    · rfl
  · rfl

theorem shows_observeStart (shows : Shows trace drafts) (toolUseId : Option Text) (toolName : Text)
    (generationEpoch : Option Int) : Shows (trace ++ (drafts.observeStart toolUseId toolName generationEpoch).1)
      (drafts.observeStart toolUseId toolName generationEpoch).2 := by
  have silent : Shows (trace ++ []) drafts := by rwa [List.append_nil]
  unfold observeStart
  cases toolUseId with
  | none => exact silent
  | some toolId =>
    dsimp only
    split
    · exact silent
    · split
      · exact shows.cleared rfl rfl (Nat.le_refl _)
      · split
        · exact silent
        · rename_i fresh _
          have noted : Shows trace { drafts with seen := drafts.seen ++ [toolId] } := by
            refine shows.quiet rfl rfl rfl shows.source ?_ ?_ shows.active
            · exact fun other mem => List.mem_append_left _ mem
            · exact fun other mem => List.mem_append_left _ (shows.seen other (.inr mem))
          have silent : Shows (trace ++ []) { drafts with seen := drafts.seen ++ [toolId] } := by
            rwa [List.append_nil]
          split
          · split
            · rename_i room
              rw [List.append_nil]
              refine noted.quiet rfl rfl rfl ?_ (fun _ mem => mem) ?_ ?_
              · intro other preview input shown found
                rw [Dict.get?_set] at found
                by_cases own : other = toolId
                · subst own
                  exact absurd (shows.seen other (.inl ((Dict.mem_keys_iff ..).2 ⟨preview, shown⟩))) fresh
                · rw [if_neg own] at found
                  exact shows.source other preview input shown found
              · intro other mem
                rw [Dict.mem_keys_set] at mem
                obtain rfl | mem := mem
                · exact List.mem_append_right _ (List.mem_singleton_self _)
                · exact noted.seen other (.inr mem)
              · have bound := room.2
                refine (@length_activeTools_le drafts _ [toolId] fun other mem => ?_).trans ?_
                · rw [Dict.mem_keys_set] at mem
                  rw [List.mem_singleton]
                  tauto
                · rw [List.length_singleton, Nat.add_comm]
                  exact bound
            · exact silent
          · exact silent

theorem shows_observeDelta (shows : Shows trace drafts) (now : Rat) (toolUseId : Option Text)
    (jsonFragment : Option Str) : Shows (trace ++ (drafts.observeDelta now toolUseId jsonFragment).1)
      (drafts.observeDelta now toolUseId jsonFragment).2 := by
  have silent : Shows (trace ++ []) drafts := by rwa [List.append_nil]
  unfold observeDelta
  split
  · rename_i toolId fragment
    split
    · rename_i source read
      have fed := shows.setInput read (toolName_feed source fragment)
      exact (shows_snapshot fed now toolId _).1
    · exact silent
  · exact silent

theorem shows_observeEnd (shows : Shows trace drafts) (now : Rat) (toolUseId : Option Text) (toolName : Text)
    (arguments : Option (Dict Text (Option Text))) :
    Shows (trace ++ (drafts.observeEnd now toolUseId toolName arguments).1)
      (drafts.observeEnd now toolUseId toolName arguments).2 := by
  unfold observeEnd
  cases toolUseId with
  | none =>
    show Shows (trace ++ []) drafts
    rwa [List.append_nil]
  | some toolId =>
    have closed : ∀ {next : FileInputDrafts}, Shows trace next →
        Shows (trace ++ (next.snapshot now toolId true).1)
          { (next.snapshot now toolId true).2 with inputs := (next.snapshot now toolId true).2.inputs.erase toolId } :=
      fun next => (shows_snapshot next now toolId true).1.eraseInput toolId _
    dsimp only
    split
    · rename_i source given read
      split
      · exact closed (shows.setInput read (toolName_completed source given))
      · exact closed shows
    · exact closed shows

theorem shows_observe (shows : Shows trace drafts) (now : Rat) (event : Event P) :
    Shows (trace ++ (drafts.observe now event).1) (drafts.observe now event).2 := by
  cases event with
  | toolInputPreview toolUseId payload =>
    show Shows (trace ++ []) _
    rw [List.append_nil]
    exact shows.eraseInput toolUseId _
  | toolUseStart toolUseId toolName epoch => exact shows_observeStart shows toolUseId toolName epoch
  | toolUseDelta toolUseId fragment => exact shows_observeDelta shows now toolUseId fragment
  | toolUseEnd toolUseId toolName arguments => exact shows_observeEnd shows now toolUseId toolName arguments
  | providerGenerationReset payload => exact shows.cleared rfl rfl (Nat.le_succ _)
  | error payload => exact shows.cleared rfl rfl (Nat.le_refl _)
  | done payload =>
    show Shows (trace ++ []) drafts
    rwa [List.append_nil]
  | other payload =>
    show Shows (trace ++ []) drafts
    rwa [List.append_nil]

end Steps

end OpenSquilla.Previews
