import OpenSquilla.Streams.Registry

set_option autoImplicit false

namespace OpenSquilla.Streams

open Runs SessionStream

def joined (texts : List String) : String := texts.foldr (· ++ ·) ""

@[simp] theorem joined_append (first second : List String) :
    joined (first ++ second) = joined first ++ joined second := by
  induction first with
  | nil => simp [joined]
  | cons text rest ih =>
    simp only [joined, List.cons_append, List.foldr_cons] at ih ⊢
    rw [ih, String.append_assoc]

@[simp] theorem joined_cons (text : String) (rest : List String) :
    joined (text :: rest) = text ++ joined rest := rfl

@[simp] theorem joined_nil : joined [] = "" := rfl

theorem get?_copyField (source payload : Payload) (field key : String) :
    (copyField source payload field).get? key =
      if key = field then (source.get? field).or (payload.get? key) else payload.get? key := by
  unfold copyField
  cases source.get? field with
  | none => by_cases same : key = field <;> simp [same]
  | some value => by_cases same : key = field <;> simp [same]

def metadataFields : List String := ["generation_epoch", "generationEpoch", "sequence"]

/-- The fields a merge may write: the text and what it keeps of the latest boundary. -/
structure TextField (field : String) : Prop where
  notEnded : field ≠ "ended_at"
  notMetadata : field ∉ metadataFields

theorem get?_replaceCompactedEvent {field : String} (text : TextField field)
    (event existing : BufferedSessionEvent) (key : String) (notEnded : key ≠ "ended_at") :
    (replaceCompactedEvent field event existing).payload.get? key =
      if key = field then
        some (.str (existing.payload.textAt field ++ event.payload.textAt field))
      else if key ∈ metadataFields then
        (event.payload.get? key).or (existing.payload.get? key)
      else existing.payload.get? key := by
  obtain ⟨ended, metadata⟩ := text
  simp only [metadataFields, List.mem_cons, List.not_mem_nil, or_false, not_or] at metadata
  obtain ⟨notEpoch, notAlias, notSequence⟩ := metadata
  have before : ((endedAt event.payload).elim (existing.payload.set field
      (.str (existing.payload.textAt field ++ event.payload.textAt field)))
      (fun ended => (existing.payload.set field (.str (existing.payload.textAt field ++
        event.payload.textAt field))).set "ended_at" (.int ended))).get? key =
      if key = field then
        some (.str (existing.payload.textAt field ++ event.payload.textAt field))
      else existing.payload.get? key := by
    cases endedAt event.payload <;> simp [notEnded]
  simp only [replaceCompactedEvent, List.foldl_cons, List.foldl_nil, get?_copyField, before]
  by_cases isField : key = field
  · subst isField
    simp [notEpoch, notAlias, notSequence]
  · simp only [isField, if_false, metadataFields, List.mem_cons, List.not_mem_nil, or_false]
    by_cases sequence : key = "sequence"
    · subst sequence
      simp
    · by_cases alias_ : key = "generationEpoch"
      · subst alias_
        simp
      · by_cases epoch : key = "generation_epoch"
        · subst epoch
          simp
        · simp [sequence, alias_, epoch]

theorem textAt_replaceCompactedEvent {field : String} (text : TextField field)
    (event existing : BufferedSessionEvent) :
    (replaceCompactedEvent field event existing).payload.textAt field =
      existing.payload.textAt field ++ event.payload.textAt field := by
  rw [Payload.textAt, get?_replaceCompactedEvent text event existing field text.notEnded]
  simp [Value.text]

structure Untouched (field key : String) : Prop where
  notField : key ≠ field
  notEnded : key ≠ "ended_at"
  notMetadata : key ∉ metadataFields

theorem get?_untouched {field key : String} (text : TextField field) (untouched : Untouched field key)
    (event existing : BufferedSessionEvent) :
    (replaceCompactedEvent field event existing).payload.get? key = existing.payload.get? key := by
  rw [get?_replaceCompactedEvent text event existing key untouched.notEnded,
    if_neg untouched.notField, if_neg untouched.notMetadata]

theorem generationEpoch_replaceCompactedEvent {field : String} (text : TextField field)
    (event existing : BufferedSessionEvent) :
    (replaceCompactedEvent field event existing).payload.generationEpoch =
        event.payload.generationEpoch ∨
      (replaceCompactedEvent field event existing).payload.generationEpoch =
        existing.payload.generationEpoch := by
  have metadata : ∀ key, key ∈ metadataFields → key ≠ "ended_at" →
      (replaceCompactedEvent field event existing).payload.get? key =
        (event.payload.get? key).or (existing.payload.get? key) := by
    intro key mem notEnded
    have notField : key ≠ field := fun same => text.notMetadata (same ▸ mem)
    rw [get?_replaceCompactedEvent text event existing key notEnded, if_neg notField, if_pos mem]
  have epoch := metadata "generation_epoch" (by decide) (by decide)
  have fallback := metadata "generationEpoch" (by decide) (by decide)
  simp only [Payload.generationEpoch, Payload.getAlias, Payload.get, epoch, fallback]
  cases event.payload.get? "generation_epoch" with
  | some value => exact .inl (by simp)
  | none =>
    cases existing.payload.get? "generation_epoch" with
    | some value => exact .inr (by simp)
    | none =>
      cases event.payload.get? "generationEpoch" with
      | some value => exact .inl (by simp)
      | none => exact .inr (by simp)

theorem textField_text : TextField "text" := ⟨by decide, by decide⟩

theorem deltaField_mem (payload : Payload) :
    payload.deltaField ∈ ["json_fragment", "jsonFragment", "fragment"] := by
  unfold Payload.deltaField
  cases found : ["json_fragment", "jsonFragment", "fragment"].find? (· ∈ payload.keys) with
  | none => simp
  | some field => exact List.mem_of_find?_eq_some found

theorem textField_deltaField (payload : Payload) : TextField payload.deltaField := by
  have mem := deltaField_mem payload
  simp only [List.mem_cons, List.not_mem_nil, or_false] at mem
  rcases mem with same | same | same <;> rw [same] <;> exact ⟨by decide, by decide⟩

theorem untouched_fragment (payload : Payload) {key : String}
    (apart : key ∉ ["json_fragment", "jsonFragment", "fragment"]) (notEnded : key ≠ "ended_at")
    (notMetadata : key ∉ metadataFields) : Untouched payload.deltaField key :=
  ⟨fun same => apart (same ▸ deltaField_mem payload), notEnded, notMetadata⟩

theorem toolId_replaceCompactedEvent (payload : Payload) (event existing : BufferedSessionEvent) :
    (replaceCompactedEvent payload.deltaField event existing).payload.toolId =
      existing.payload.toolId := by
  have text := textField_deltaField payload
  have same : ∀ key ∈ ["tool_use_id", "toolUseId", "id"],
      (replaceCompactedEvent payload.deltaField event existing).payload.get? key =
        existing.payload.get? key := by
    intro key mem
    apply get?_untouched text
    simp only [List.mem_cons, List.not_mem_nil, or_false] at mem
    rcases mem with rfl | rfl | rfl <;>
      exact untouched_fragment payload (by decide) (by decide) (by decide)
  simp [Payload.toolId, same]

theorem thinking_replaceCompactedEvent (event existing : BufferedSessionEvent) :
    (replaceCompactedEvent "text" event existing).payload.thinkingBlockId =
        existing.payload.thinkingBlockId ∧
      (replaceCompactedEvent "text" event existing).payload.modelCall = existing.payload.modelCall := by
  have same : ∀ key ∈ ["block_id", "blockId", "model_call_id", "modelCallId", "iteration"],
      (replaceCompactedEvent "text" event existing).payload.get? key = existing.payload.get? key := by
    intro key mem
    apply get?_untouched textField_text
    simp only [List.mem_cons, List.not_mem_nil, or_false] at mem
    rcases mem with rfl | rfl | rfl | rfl | rfl <;> exact ⟨by decide, by decide, by decide⟩
  constructor
  · simp [Payload.thinkingBlockId, Payload.getAlias, Payload.get, same]
  · simp [Payload.modelCall, Payload.identityValue, Payload.positiveIteration, Payload.get, same,
      List.findSome?]

theorem first_field_stable (has : String → Bool) :
    let field := (["json_fragment", "jsonFragment", "fragment"].find? has).getD "json_fragment"
    (["json_fragment", "jsonFragment", "fragment"].find?
      (fun key => decide (key = field) || has key)).getD "json_fragment" = field := by
  cases first : has "json_fragment" <;> cases second : has "jsonFragment" <;>
    cases third : has "fragment" <;> simp [List.find?, first, second, third]

theorem deltaField_replaceCompactedEvent (event existing : BufferedSessionEvent) :
    (replaceCompactedEvent existing.payload.deltaField event existing).payload.deltaField =
      existing.payload.deltaField := by
  have text := textField_deltaField existing.payload
  have keys : ∀ key ∈ ["json_fragment", "jsonFragment", "fragment"],
      decide (key ∈ (replaceCompactedEvent existing.payload.deltaField event existing).payload.keys) =
        (decide (key = existing.payload.deltaField) || decide (key ∈ existing.payload.keys)) := by
    intro key mem
    have notEnded : key ≠ "ended_at" := by
      intro same
      subst same
      exact absurd mem (by decide)
    have notMetadata : key ∉ metadataFields := by
      simp only [List.mem_cons, List.not_mem_nil, or_false] at mem
      rcases mem with rfl | rfl | rfl <;> decide
    rw [← Bool.decide_or, decide_eq_decide, Dict.mem_keys_iff, Dict.mem_keys_iff,
      get?_replaceCompactedEvent text event existing key notEnded]
    by_cases isField : key = existing.payload.deltaField
    · simp [isField]
    · simp [isField, notMetadata]
  have stable := first_field_stable (fun key => decide (key ∈ existing.payload.keys))
  have expand : ∀ payload : Payload, payload.deltaField =
      (["json_fragment", "jsonFragment", "fragment"].find?
        (fun key => decide (key ∈ payload.keys))).getD "json_fragment" := fun _ => rfl
  rw [expand (replaceCompactedEvent _ event existing).payload]
  simp only [List.find?_cons, keys "json_fragment" (by decide), keys "jsonFragment" (by decide),
    keys "fragment" (by decide)]
  exact stable

def fragment (event : BufferedSessionEvent) : String := event.payload.textAt event.payload.deltaField

theorem get?_normalizeFragment (field : String) (event : BufferedSessionEvent) {key : String}
    (notField : key ≠ field) (notIncoming : key ≠ event.payload.deltaField) :
    (normalizeFragment field event).payload.get? key = event.payload.get? key := by
  unfold normalizeFragment
  dsimp only
  split
  · rfl
  · simp [notField, notIncoming, Dict.get?_erase]

theorem textAt_normalizeFragment (field : String) (event : BufferedSessionEvent) :
    (normalizeFragment field event).payload.textAt field = fragment event := by
  unfold normalizeFragment fragment
  dsimp only
  split
  next same => rw [same]
  · simp [Payload.textAt]

theorem generationEpoch_normalizeFragment (existing event : BufferedSessionEvent) :
    (normalizeFragment existing.payload.deltaField event).payload.generationEpoch =
      event.payload.generationEpoch := by
  have same : ∀ key ∈ ["generation_epoch", "generationEpoch"],
      (normalizeFragment existing.payload.deltaField event).payload.get? key =
        event.payload.get? key := by
    intro key mem
    have apart : key ∉ ["json_fragment", "jsonFragment", "fragment"] := by
      simp only [List.mem_cons, List.not_mem_nil, or_false] at mem
      rcases mem with rfl | rfl <;> decide
    exact get?_normalizeFragment _ event
      (fun here => apart (here ▸ deltaField_mem existing.payload))
      (fun here => apart (here ▸ deltaField_mem event.payload))
  simp [Payload.generationEpoch, Payload.getAlias, Payload.get, same]

theorem mergeFragment_correct (event existing : BufferedSessionEvent) :
    (mergeFragment event existing).payload.toolId = existing.payload.toolId ∧
    fragment (mergeFragment event existing) = fragment existing ++ fragment event ∧
    ((mergeFragment event existing).payload.generationEpoch = event.payload.generationEpoch ∨
      (mergeFragment event existing).payload.generationEpoch = existing.payload.generationEpoch) := by
  have text := textField_deltaField existing.payload
  refine ⟨toolId_replaceCompactedEvent _ _ _, ?_, ?_⟩
  · rw [fragment, mergeFragment, deltaField_replaceCompactedEvent,
      textAt_replaceCompactedEvent text, textAt_normalizeFragment]
    rfl
  · rw [← generationEpoch_normalizeFragment existing event]
    exact generationEpoch_replaceCompactedEvent text _ existing

variable {replace : BufferedSessionEvent → BufferedSessionEvent}
variable {stop found : BufferedSessionEvent → Bool}

theorem replaceFirst_some {events result : List BufferedSessionEvent}
    (replaced : replaceFirst stop found replace events = some result) :
    ∃ before existing after, events = before ++ existing :: after ∧ found existing = true ∧
      (∀ event ∈ before, found event = false) ∧ result = before ++ replace existing :: after := by
  induction events generalizing result with
  | nil => cases replaced
  | cons event rest ih =>
    unfold replaceFirst at replaced
    split at replaced
    · cases replaced
    · split at replaced
      next here =>
        obtain rfl := Option.some.inj replaced
        exact ⟨[], event, rest, rfl, here, by simp, rfl⟩
      next notHere =>
        obtain ⟨later, inRest, rfl⟩ := Option.map_eq_some_iff.mp replaced
        obtain ⟨before, existing, after, split, isFound, earlier, same⟩ := ih inRest
        refine ⟨event :: before, existing, after, by simp [split], isFound, ?_, by simp [same]⟩
        intro other mem
        rcases List.mem_cons.mp mem with rfl | inBefore
        · simpa using notHere
        · exact earlier other inBefore

theorem replaceFirst_none {events : List BufferedSessionEvent}
    (missing : replaceFirst stop found replace events = none)
    (unstopped : ∀ event ∈ events, stop event = false) : ∀ event ∈ events, found event = false := by
  induction events with
  | nil => simp
  | cons event rest ih =>
    rw [List.forall_mem_cons] at unstopped
    simp only [replaceFirst, unstopped.1, Bool.false_eq_true, if_false] at missing
    split at missing
    · cases missing
    next notHere =>
      rw [List.forall_mem_cons]
      exact ⟨by simpa using notHere, ih (Option.map_eq_none_iff.mp missing) unstopped.2⟩

theorem replaceLast_some {events result : List BufferedSessionEvent}
    (replaced : replaceLast stop found replace events = some result) :
    ∃ before existing after, events = before ++ existing :: after ∧ found existing = true ∧
      (∀ event ∈ after, found event = false) ∧ result = before ++ replace existing :: after := by
  obtain ⟨reversed, inReverse, rfl⟩ := Option.map_eq_some_iff.mp replaced
  obtain ⟨before, existing, after, split, isFound, earlier, rfl⟩ := replaceFirst_some inReverse
  refine ⟨after.reverse, existing, before.reverse, ?_, isFound, by simpa using earlier, by simp⟩
  have forward := congrArg List.reverse split
  simpa using forward

theorem replaceLast_none {events : List BufferedSessionEvent}
    (missing : replaceLast stop found replace events = none)
    (unstopped : ∀ event ∈ events, stop event = false) : ∀ event ∈ events, found event = false := by
  have reversed := replaceFirst_none (Option.map_eq_none_iff.mp missing) (by simpa using unstopped)
  simpa using reversed

def accumulates (eventName : String) : Bool := eventName ∈ [textDelta, thinking, toolUseDelta]

-- The ways an event can enter the entries of the live view.
inductive Folded (event : BufferedSessionEvent) (entries : List BufferedSessionEvent) :
    List BufferedSessionEvent → Prop
  | appended
      (newBlock : event.eventName = thinking → ∀ entry ∈ entries, mergesThinking event entry = false)
      (newTool : event.eventName = toolUseDelta →
        ∀ entry ∈ entries, mergesToolDelta event entry = false) :
      Folded event entries (entries ++ [event])
  | thought (before : List BufferedSessionEvent) (existing : BufferedSessionEvent)
      (after : List BufferedSessionEvent) (named : event.eventName = thinking)
      (split : entries = before ++ existing :: after) (found : mergesThinking event existing = true)
      (last : ∀ entry ∈ after, mergesThinking event entry = false) :
      Folded event entries (before ++ replaceCompactedEvent "text" event existing :: after)
  | tool (before : List BufferedSessionEvent) (existing : BufferedSessionEvent)
      (after : List BufferedSessionEvent) (named : event.eventName = toolUseDelta)
      (split : entries = before ++ existing :: after) (found : mergesToolDelta event existing = true)
      (last : ∀ entry ∈ after, mergesToolDelta event entry = false) :
      Folded event entries (before ++ mergeFragment event existing :: after)
  | text (before : List BufferedSessionEvent) (existing : BufferedSessionEvent)
      (named : event.eventName = textDelta) (split : entries = before ++ [existing])
      (found : mergesText event existing = true) :
      Folded event entries (before ++ [replaceCompactedEvent "text" event existing])
  | refreshed (before : List BufferedSessionEvent) (existing replacement : BufferedSessionEvent)
      (after : List BufferedSessionEvent) (split : entries = before ++ existing :: after)
      (same : existing.eventName = event.eventName) (named : replacement.eventName = event.eventName)
      (other : accumulates event.eventName = false)
      (anchored : replacement.streamSeq = existing.streamSeq ∨
        replacement.streamSeq = event.streamSeq) :
      Folded event entries (before ++ replacement :: after)

theorem appended_other {event : BufferedSessionEvent} (entries : List BufferedSessionEvent)
    (notThinking : event.eventName ≠ thinking) (notTool : event.eventName ≠ toolUseDelta) :
    Folded event entries (entries ++ [event]) :=
  .appended (fun named => absurd named notThinking) (fun named => absurd named notTool)

theorem refreshed_or_appended {event : BufferedSessionEvent} {entries : List BufferedSessionEvent}
    (other : accumulates event.eventName = false)
    (same : ∀ existing, found existing = true → existing.eventName = event.eventName)
    (named : ∀ existing, found existing = true → (replace existing).eventName = event.eventName)
    (anchored : ∀ existing, (replace existing).streamSeq = existing.streamSeq ∨
      (replace existing).streamSeq = event.streamSeq) :
    Folded event entries
      ((replaceLast stop found replace entries).getD (entries ++ [event])) := by
  cases replaced : replaceLast stop found replace entries with
  | none =>
    refine appended_other entries ?_ ?_ <;> intro bad <;> simp [accumulates, bad] at other
  | some result =>
    obtain ⟨before, existing, after, split, isFound, _, rfl⟩ := replaceLast_some replaced
    exact .refreshed before existing (replace existing) after split (same existing isFound)
      (named existing isFound) other (anchored existing)

theorem compactInto_folded (event : BufferedSessionEvent) (entries : List BufferedSessionEvent)
    (noResets : ∀ entry ∈ entries, atReset entry = false) :
    Folded event entries ((compactInto entries event).getD (entries ++ [event])) := by
  unfold compactInto
  dsimp only
  by_cases isThinking : event.eventName = thinking
  · rw [if_pos isThinking]
    cases replaced : replaceLast atReset (mergesThinking event)
        (replaceCompactedEvent "text" event) entries with
    | none =>
      refine .appended (fun _ => replaceLast_none replaced noResets) ?_
      intro isTool
      exact absurd (isThinking.symm.trans isTool) (by decide)
    | some result =>
      obtain ⟨before, existing, after, split, found, last, rfl⟩ := replaceLast_some replaced
      exact .thought before existing after isThinking split found last
  rw [if_neg isThinking]
  by_cases isTool : event.eventName = toolUseDelta
  · rw [if_pos isTool]
    cases replaced : replaceLast atReset (mergesToolDelta event) (mergeFragment event) entries with
    | none =>
      exact .appended (fun named => absurd named isThinking)
        (fun _ => replaceLast_none replaced noResets)
    | some result =>
      obtain ⟨before, existing, after, split, found, last, rfl⟩ := replaceLast_some replaced
      exact .tool before existing after isTool split found last
  rw [if_neg isTool]
  by_cases isText : event.eventName = textDelta
  · rw [if_pos isText]
    cases entries.eq_nil_or_concat with
    | inl empty =>
      subst empty
      exact appended_other [] isThinking isTool
    | inr nonempty =>
      obtain ⟨before, existing, rfl⟩ := nonempty
      rw [List.concat_eq_append]
      simp only [List.getLast?_concat, List.dropLast_concat]
      split
      next found => exact .text before existing isText rfl found
      · exact appended_other _ isThinking isTool
  rw [if_neg isText]
  have other : accumulates event.eventName = false := by
    simp [accumulates, isThinking, isTool, isText]
  split
  · refine refreshed_or_appended other (fun existing found => ?_) (fun _ _ => rfl) (fun _ => .inr rfl)
    simp only [Bool.and_eq_true, decide_eq_true_eq] at found
    exact found.1
  · split
    · exact refreshed_or_appended other (fun existing found => by simpa using found)
        (fun _ _ => rfl) (fun _ => .inr rfl)
    · split
      · have own : ∀ existing, refreshesActivity event existing = true →
            existing.eventName = event.eventName := by
          intro existing found
          simp only [refreshesActivity, Bool.and_eq_true, decide_eq_true_eq] at found
          exact found.1.1
        exact refreshed_or_appended other own own (fun _ => .inl rfl)
      · exact appended_other entries isThinking isTool

/-- `entries` holds the text of the `arrived` events of one class. Its entries of the class
are ordered by generation: every one but the last names an epoch, none beyond the current. -/
structure Streamed (mem : BufferedSessionEvent → Bool) (text : BufferedSessionEvent → String)
    (current : Option Int) (entries arrived : List BufferedSessionEvent) : Prop where
  staged : (entries.filter mem).Pairwise (fun first second =>
    ∃ epoch, first.payload.generationEpoch = some epoch ∧
      ∀ later, second.payload.generationEpoch = some later → epoch ≤ later)
  bounded : ∀ entry ∈ entries.filter mem, ∀ epoch, entry.payload.generationEpoch = some epoch →
    ∃ latest, current = some latest ∧ epoch ≤ latest
  text : joined ((entries.filter mem).map text) = joined ((arrived.filter mem).map text)

theorem advancedEpoch_le {current : Option Int} {latest : Int} (incoming : Option Int)
    (known : current = some latest) : ∃ next, advancedEpoch current incoming = some next ∧ latest ≤ next := by
  subst known
  cases incoming with
  | none => exact ⟨latest, rfl, le_refl _⟩
  | some incoming => exact ⟨max latest incoming, rfl, le_max_left _ _⟩

theorem advancedEpoch_accepted {current : Option Int} {event : BufferedSessionEvent} {epoch : Int}
    (generational : isGenerationLossy event.eventName = true) (accepted : eventIsStaleGeneration event
      (advancedEpoch current event.payload.generationEpoch) = false)
    (named : event.payload.generationEpoch = some epoch) :
    advancedEpoch current event.payload.generationEpoch = some epoch := by
  rw [named] at accepted ⊢
  cases current with
  | none => rfl
  | some latest =>
    simp only [eventIsStaleGeneration, generational, named, advancedEpoch, Bool.true_and,
      Option.any_some, decide_eq_false_iff_not] at accepted ⊢
    congr 1
    omega

section Streaming

variable {mem : BufferedSessionEvent → Bool} {text : BufferedSessionEvent → String}
  {current : Option Int} {entries arrived : List BufferedSessionEvent}
  {event : BufferedSessionEvent}

theorem Streamed.outside (streamed : Streamed mem text current entries arrived)
    {updated : List BufferedSessionEvent} (kept : updated.filter mem = entries.filter mem)
    (outside : mem event = false) (incoming : Option Int) :
    Streamed mem text (advancedEpoch current incoming) updated (arrived ++ [event]) where
  staged := kept ▸ streamed.staged
  bounded := by
    intro entry inside epoch named
    rw [kept] at inside
    obtain ⟨latest, known, below⟩ := streamed.bounded entry inside epoch named
    obtain ⟨next, advanced, ahead⟩ := advancedEpoch_le incoming known
    exact ⟨next, advanced, below.trans ahead⟩
  text := by
    rw [kept, streamed.text]
    simp [outside]

theorem bounded_advanced (streamed : Streamed mem text current entries arrived)
    (incoming : Option Int) {entry : BufferedSessionEvent} (inside : entry ∈ entries.filter mem)
    {epoch : Int} (named : entry.payload.generationEpoch = some epoch) :
    ∃ latest, advancedEpoch current incoming = some latest ∧ epoch ≤ latest := by
  obtain ⟨latest, known, below⟩ := streamed.bounded entry inside epoch named
  obtain ⟨next, advanced, ahead⟩ := advancedEpoch_le incoming known
  exact ⟨next, advanced, below.trans ahead⟩

theorem Streamed.append (streamed : Streamed mem text current entries arrived)
    (inside : mem event = true) (generational : isGenerationLossy event.eventName = true)
    (accepted : eventIsStaleGeneration event
      (advancedEpoch current event.payload.generationEpoch) = false)
    (apart : ∀ entry ∈ entries, mem entry = true →
      mergesEpoch entry.payload event.payload = false) :
    Streamed mem text (advancedEpoch current event.payload.generationEpoch)
      (entries ++ [event]) (arrived ++ [event]) where
  staged := by
    simp only [List.filter_append, List.filter_cons, inside, if_true, List.filter_nil]
    rw [List.pairwise_append]
    refine ⟨streamed.staged, List.pairwise_singleton _ _, ?_⟩
    intro entry mem last single
    obtain rfl := List.mem_singleton.mp single
    have different := apart entry (List.mem_of_mem_filter mem) (List.of_mem_filter mem)
    simp only [mergesEpoch, Bool.or_eq_false_iff, decide_eq_false_iff_not] at different
    obtain ⟨epoch, named⟩ := Option.ne_none_iff_exists'.mp different.1
    refine ⟨epoch, named, fun later isLater => ?_⟩
    obtain ⟨latest, known, below⟩ :=
      bounded_advanced streamed last.payload.generationEpoch mem named
    rw [advancedEpoch_accepted generational accepted isLater] at known
    obtain rfl := Option.some.inj known
    exact below
  bounded := by
    intro entry mem epoch named
    simp only [List.filter_append, List.filter_cons, inside, if_true, List.filter_nil,
      List.mem_append, List.mem_singleton] at mem
    rcases mem with earlier | rfl
    · exact bounded_advanced streamed _ earlier named
    · exact ⟨epoch, advancedEpoch_accepted generational accepted named, le_refl _⟩
  text := by
    simp only [List.filter_append, List.map_append, joined_append, streamed.text]

theorem Streamed.merge (streamed : Streamed mem text current entries arrived)
    (inside : mem event = true) (generational : isGenerationLossy event.eventName = true)
    (accepted : eventIsStaleGeneration event
      (advancedEpoch current event.payload.generationEpoch) = false)
    {before after : List BufferedSessionEvent} {existing merged : BufferedSessionEvent}
    (split : entries = before ++ existing :: after) (isMember : mem existing = true)
    (found : mergesEpoch existing.payload event.payload = true)
    (last : ∀ entry ∈ after, mem entry = true →
      mergesEpoch entry.payload event.payload = false)
    (mergedMember : mem merged = true) (mergedText : text merged = text existing ++ text event)
    (mergedEpoch : merged.payload.generationEpoch = event.payload.generationEpoch ∨
      merged.payload.generationEpoch = existing.payload.generationEpoch) :
    Streamed mem text (advancedEpoch current event.payload.generationEpoch)
      (before ++ merged :: after) (arrived ++ [event]) := by
  have ofClass : entries.filter mem = before.filter mem ++ existing :: after.filter mem := by
    simp [split, isMember]
  have staged := streamed.staged
  rw [ofClass, List.pairwise_append, List.pairwise_cons] at staged
  -- a later entry of the class would belong to a newer generation than the event
  have none : after.filter mem = [] := by
    rw [List.filter_eq_nil_iff]
    intro entry inAfter isClass
    have present : entry ∈ after.filter mem := List.mem_filter.mpr ⟨inAfter, isClass⟩
    obtain ⟨epoch, named, order⟩ := staged.2.1.1 entry present
    have different := last entry inAfter isClass
    simp only [mergesEpoch, Bool.or_eq_false_iff, decide_eq_false_iff_not] at different
    obtain ⟨later, isLater⟩ := Option.ne_none_iff_exists'.mp different.1
    have eventEpoch : event.payload.generationEpoch = some epoch := by
      simp only [mergesEpoch, named, Bool.or_eq_true, decide_eq_true_eq] at found
      rcases found with absent | same
      · cases absent
      · exact same.symm
    obtain ⟨latest, known, below⟩ := bounded_advanced streamed event.payload.generationEpoch
      (ofClass ▸ List.mem_append_right _ (List.mem_cons_of_mem _ present)) isLater
    rw [advancedEpoch_accepted generational accepted eventEpoch] at known
    obtain rfl := Option.some.inj known
    have above := order later isLater
    apply different.2
    rw [isLater, eventEpoch]
    congr 1
    omega
  have after_ : (before ++ merged :: after).filter mem = before.filter mem ++ [merged] := by
    simp [mergedMember, none]
  have epochs : ∀ epoch, merged.payload.generationEpoch = some epoch →
      advancedEpoch current event.payload.generationEpoch = some epoch := by
    intro epoch named
    rcases mergedEpoch with same | same
    · exact advancedEpoch_accepted generational accepted (same.symm.trans named)
    · have existingEpoch := same.symm.trans named
      simp only [mergesEpoch, existingEpoch, Bool.or_eq_true, decide_eq_true_eq] at found
      rcases found with absent | eventEpoch
      · cases absent
      · exact advancedEpoch_accepted generational accepted eventEpoch.symm
  refine ⟨?_, ?_, ?_⟩
  · rw [after_, List.pairwise_append]
    refine ⟨staged.1, List.pairwise_singleton _ _, ?_⟩
    intro entry mem last single
    obtain rfl := List.mem_singleton.mp single
    obtain ⟨epoch, named, _⟩ := staged.2.2 entry mem existing List.mem_cons_self
    refine ⟨epoch, named, fun later isLater => ?_⟩
    obtain ⟨latest, known, below⟩ := bounded_advanced streamed event.payload.generationEpoch
      (ofClass ▸ List.mem_append_left _ mem) named
    rw [epochs later isLater] at known
    obtain rfl := Option.some.inj known
    exact below
  · intro entry mem epoch named
    rw [after_] at mem
    rcases List.mem_append.mp mem with earlier | new
    · exact bounded_advanced streamed _ (ofClass ▸ List.mem_append_left _ earlier) named
    · obtain rfl := List.mem_singleton.mp new
      exact ⟨epoch, epochs epoch named, le_refl _⟩
  · have before_ := streamed.text
    rw [ofClass, none] at before_
    rw [after_]
    simp only [List.filter_append, List.filter_cons, inside, if_true, List.filter_nil,
      List.map_append, List.map_cons, List.map_nil, joined_append, joined_cons, joined_nil,
      mergedText, String.append_empty] at before_ ⊢
    rw [← before_, String.append_assoc]

end Streaming

end OpenSquilla.Streams
