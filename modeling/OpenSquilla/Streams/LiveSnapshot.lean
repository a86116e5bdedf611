import OpenSquilla.Streams.Compaction

set_option autoImplicit false

namespace OpenSquilla.Streams

open Runs SessionStream

def isText (event : BufferedSessionEvent) : Bool := event.eventName = textDelta

def isToolDelta (toolId : String) (event : BufferedSessionEvent) : Bool :=
  event.eventName = toolUseDelta && event.payload.toolId = toolId

def isThought (blockId : String) (call : Option String × Option Int) (event : BufferedSessionEvent) : Bool :=
  event.eventName = thinking && event.payload.thinkingBlockId = blockId &&
    event.payload.modelCall = call

def text (event : BufferedSessionEvent) : String := event.payload.textAt "text"

def sameCall (left right : Option String × Option Int) : Bool :=
  Payload.compatible left.1 right.1 && Payload.compatible left.2 right.2

/-- No delta of the block identifies its model call less or more than `call` does and could
still be taken for it. -/
def Unmixed (blockId : String) (call : Option String × Option Int)
    (events : List BufferedSessionEvent) : Prop :=
  ∀ event ∈ events, event.eventName = thinking → event.payload.thinkingBlockId = blockId →
    sameCall event.payload.modelCall call = true → event.payload.modelCall = call

-- The live view of a turn, after the events `arrived` were accepted into it.
structure Viewed (seq : Nat) (current : Option Int) (entries arrived : List BufferedSessionEvent) :
    Prop where
  noResets : ∀ entry ∈ entries, atReset entry = false
  taken : ∀ entry ∈ entries, entry.streamSeq ≤ seq
  ordered : (entries.filter (fun entry => accumulates entry.eventName)).Pairwise
    (fun first second => first.streamSeq < second.streamSeq)
  known : ∀ entry ∈ entries, entry.eventName = thinking → ∃ event ∈ arrived,
    event.eventName = thinking ∧ event.payload.thinkingBlockId = entry.payload.thinkingBlockId ∧
      event.payload.modelCall = entry.payload.modelCall
  texts : joined ((entries.filter isText).map text) = joined ((arrived.filter isText).map text)
  tools : ∀ toolId, Streamed (isToolDelta toolId) fragment current entries arrived
  thoughts : ∀ blockId call, Unmixed blockId call arrived →
    Streamed (isThought blockId call) text current entries arrived

theorem viewed_empty (seq : Nat) (current : Option Int) : Viewed seq current [] [] := by
  constructor
  · simp
  · simp
  · exact List.Pairwise.nil
  · simp
  · rfl
  · exact fun _ => ⟨List.Pairwise.nil, by simp, rfl⟩
  · exact fun _ _ _ => ⟨List.Pairwise.nil, by simp, rfl⟩

section Folding

variable {seq : Nat} {current : Option Int} {entries arrived updated : List BufferedSessionEvent}
  {event : BufferedSessionEvent}

theorem filter_exchange {mem : BufferedSessionEvent → Bool} {before after : List BufferedSessionEvent}
    (existing replacement : BufferedSessionEvent) (old : mem existing = false) (new : mem replacement = false) :
    (before ++ replacement :: after).filter mem = (before ++ existing :: after).filter mem := by
  simp [old, new]

theorem folded_noResets (viewed : Viewed seq current entries arrived)
    (folded : Folded event entries updated) (notReset : atReset event = false) :
    ∀ entry ∈ updated, atReset entry = false := by
  have exchanged : ∀ before after (existing replacement : BufferedSessionEvent),
      entries = before ++ existing :: after → atReset replacement = false →
      ∀ entry ∈ before ++ replacement :: after, atReset entry = false := by
    intro before after existing replacement split new entry mem
    rcases List.mem_append.mp mem with earlier | rest
    · exact viewed.noResets entry (split ▸ List.mem_append_left _ earlier)
    · rcases List.mem_cons.mp rest with rfl | later
      · exact new
      · exact viewed.noResets entry
          (split ▸ List.mem_append_right _ (List.mem_cons_of_mem _ later))
  have old : ∀ before after (existing : BufferedSessionEvent),
      entries = before ++ existing :: after → atReset existing = false :=
    fun before after existing split =>
      viewed.noResets existing (split ▸ List.mem_append_right _ List.mem_cons_self)
  cases folded with
  | appended =>
    intro entry mem
    rcases List.mem_append.mp mem with earlier | new
    · exact viewed.noResets entry earlier
    · obtain rfl := List.mem_singleton.mp new
      exact notReset
  | thought before existing after named split found last =>
    exact exchanged before after existing _ split (old before after existing split)
  | tool before existing after named split found last =>
    exact exchanged before after existing _ split (old before after existing split)
  | text before existing named split found =>
    exact exchanged before [] existing _ split (old before [] existing split)
  | refreshed before existing replacement after split same named other anchored =>
    refine exchanged before after existing _ split ?_
    rw [atReset, named]
    exact notReset

/-- An exchanged entry keeps the sequence number it had, or takes the newest one where the
order of its name does not matter. -/
theorem folded_sequenced (viewed : Viewed seq current entries arrived)
    (folded : Folded event entries updated) (next : seq < event.streamSeq) :
    (∀ entry ∈ updated, entry.streamSeq ≤ event.streamSeq) ∧
    (updated.filter (fun entry => accumulates entry.eventName)).Pairwise
      (fun first second => first.streamSeq < second.streamSeq) := by
  have taken : ∀ entry ∈ entries, entry.streamSeq ≤ event.streamSeq :=
    fun entry mem => (viewed.taken entry mem).trans next.le
  have exchanged : ∀ before after (existing replacement : BufferedSessionEvent),
      entries = before ++ existing :: after →
      replacement.streamSeq = existing.streamSeq → replacement.eventName = existing.eventName →
      (∀ entry ∈ before ++ replacement :: after, entry.streamSeq ≤ event.streamSeq) ∧
      ((before ++ replacement :: after).filter (fun entry => accumulates entry.eventName)).Pairwise
        (fun first second => first.streamSeq < second.streamSeq) := by
    intro before after existing replacement split sameSeq sameName
    subst split
    constructor
    · intro entry mem
      rcases List.mem_append.mp mem with earlier | rest
      · exact taken entry (List.mem_append_left _ earlier)
      · rcases List.mem_cons.mp rest with rfl | later
        · exact sameSeq ▸ taken existing (List.mem_append_right _ List.mem_cons_self)
        · exact taken entry (List.mem_append_right _ (List.mem_cons_of_mem _ later))
    · have ordered := viewed.ordered
      cases accumulated : accumulates existing.eventName with
      | false =>
        rw [filter_exchange existing _ accumulated (by rw [sameName, accumulated])]
        exact ordered
      | true =>
        simp only [List.filter_append, List.filter_cons, accumulated, sameName, if_true] at ordered ⊢
        rw [List.pairwise_append, List.pairwise_cons] at ordered ⊢
        rw [sameSeq]
        refine ⟨ordered.1, ordered.2.1, fun first mem second after_ => ?_⟩
        rcases List.mem_cons.mp after_ with rfl | later
        · exact sameSeq ▸ ordered.2.2 first mem existing List.mem_cons_self
        · exact ordered.2.2 first mem second (List.mem_cons_of_mem _ later)
  cases folded with
  | appended =>
    constructor
    · intro entry mem
      rcases List.mem_append.mp mem with earlier | new
      · exact taken entry earlier
      · obtain rfl := List.mem_singleton.mp new
        exact le_refl _
    · rw [List.filter_append, List.pairwise_append]
      refine ⟨viewed.ordered, (List.pairwise_singleton _ _).sublist List.filter_sublist, ?_⟩
      intro first mem second last
      obtain rfl := List.mem_singleton.mp (List.mem_of_mem_filter last)
      exact (viewed.taken first (List.mem_of_mem_filter mem)).trans_lt next
  | thought before existing after named split found last =>
    exact exchanged before after existing _ split rfl rfl
  | tool before existing after named split found last =>
    exact exchanged before after existing _ split rfl rfl
  | text before existing named split found => exact exchanged before [] existing _ split rfl rfl
  | refreshed before existing replacement after split same named other anchored =>
    subst split
    constructor
    · intro entry mem
      rcases List.mem_append.mp mem with earlier | rest
      · exact taken entry (List.mem_append_left _ earlier)
      · rcases List.mem_cons.mp rest with rfl | later
        · rcases anchored with old | new
          · exact old ▸ taken existing (List.mem_append_right _ List.mem_cons_self)
          · exact new.le
        · exact taken entry (List.mem_append_right _ (List.mem_cons_of_mem _ later))
    · rw [filter_exchange existing _ (by rw [same, other]) (by rw [named, other])]
      exact viewed.ordered

theorem folded_known (viewed : Viewed seq current entries arrived) (folded : Folded event entries updated) :
    ∀ entry ∈ updated, entry.eventName = thinking → ∃ source ∈ arrived ++ [event],
      source.eventName = thinking ∧
        source.payload.thinkingBlockId = entry.payload.thinkingBlockId ∧
        source.payload.modelCall = entry.payload.modelCall := by
  have earlierKnown : ∀ entry ∈ entries, entry.eventName = thinking →
      ∃ source ∈ arrived ++ [event], source.eventName = thinking ∧
        source.payload.thinkingBlockId = entry.payload.thinkingBlockId ∧
        source.payload.modelCall = entry.payload.modelCall := by
    intro entry mem named
    obtain ⟨source, present, same⟩ := viewed.known entry mem named
    exact ⟨source, List.mem_append_left _ present, same⟩
  have exchanged : ∀ before after (existing replacement : BufferedSessionEvent),
      entries = before ++ existing :: after →
      (replacement.eventName = thinking → ∃ source ∈ arrived ++ [event],
        source.eventName = thinking ∧
          source.payload.thinkingBlockId = replacement.payload.thinkingBlockId ∧
          source.payload.modelCall = replacement.payload.modelCall) →
      ∀ entry ∈ before ++ replacement :: after, entry.eventName = thinking →
        ∃ source ∈ arrived ++ [event], source.eventName = thinking ∧
          source.payload.thinkingBlockId = entry.payload.thinkingBlockId ∧
          source.payload.modelCall = entry.payload.modelCall := by
    intro before after existing replacement split new entry mem named
    subst split
    rcases List.mem_append.mp mem with earlier | rest
    · exact earlierKnown entry (List.mem_append_left _ earlier) named
    · rcases List.mem_cons.mp rest with rfl | later
      · exact new named
      · exact earlierKnown entry (List.mem_append_right _ (List.mem_cons_of_mem _ later)) named
  cases folded with
  | appended =>
    intro entry mem named
    rcases List.mem_append.mp mem with earlier | new
    · exact earlierKnown entry earlier named
    · obtain rfl := List.mem_singleton.mp new
      exact ⟨entry, List.mem_append_right _ List.mem_cons_self, named, rfl, rfl⟩
  | thought before existing after named split found last =>
    refine exchanged before after existing _ split fun isThinking => ?_
    obtain ⟨sameBlock, sameModelCall⟩ := thinking_replaceCompactedEvent event existing
    rw [sameBlock, sameModelCall]
    exact earlierKnown existing (split ▸ List.mem_append_right _ List.mem_cons_self) isThinking
  | tool before existing after named split found last =>
    refine exchanged before after existing _ split fun isThinking => ?_
    simp only [mergesToolDelta, Bool.and_eq_true, decide_eq_true_eq] at found
    have isTool : existing.eventName = toolUseDelta := found.1.1.trans named
    exact absurd ((isTool.symm.trans isThinking : toolUseDelta = thinking)) (by decide)
  | text before existing named split found =>
    refine exchanged before [] existing _ split fun isThinking => ?_
    simp only [mergesText, Bool.and_eq_true, decide_eq_true_eq] at found
    have isTextDelta : existing.eventName = textDelta := found.1.1.1.trans named
    exact absurd ((isTextDelta.symm.trans isThinking : textDelta = thinking)) (by decide)
  | refreshed before existing replacement after split same named other anchored =>
    refine exchanged before after existing _ split fun isThinking => ?_
    rw [← named, isThinking] at other
    exact absurd other (by decide)

theorem folded_texts (viewed : Viewed seq current entries arrived) (folded : Folded event entries updated) :
    joined ((updated.filter isText).map text) =
      joined (((arrived ++ [event]).filter isText).map text) := by
  have outside : isText event = false → updated.filter isText = entries.filter isText →
      joined ((updated.filter isText).map text) =
        joined (((arrived ++ [event]).filter isText).map text) := by
    intro notText kept
    rw [kept, viewed.texts]
    simp [notText]
  have notText : ∀ {name : String}, name ≠ textDelta → ∀ {entry : BufferedSessionEvent},
      entry.eventName = name → isText entry = false := by
    intro name different entry named
    simp [isText, named, different]
  cases folded with
  | appended =>
    simp only [List.filter_append, List.map_append, joined_append, viewed.texts]
  | thought before existing after named split found last =>
    simp only [mergesThinking, Bool.and_eq_true, decide_eq_true_eq] at found
    have old := notText (by decide) (found.1.1.1.trans named)
    exact outside (notText (by decide) named)
      (split ▸ filter_exchange existing _ old old)
  | tool before existing after named split found last =>
    simp only [mergesToolDelta, Bool.and_eq_true, decide_eq_true_eq] at found
    have old := notText (by decide) (found.1.1.trans named)
    exact outside (notText (by decide) named)
      (split ▸ filter_exchange existing _ old old)
  | text before existing named split found =>
    simp only [mergesText, Bool.and_eq_true, decide_eq_true_eq] at found
    have old : isText existing = true := by simp [isText, found.1.1.1.trans named]
    have merged : isText (replaceCompactedEvent "text" event existing) = true := old
    have here : isText event = true := by simp [isText, named]
    have before_ := viewed.texts
    subst split
    simp only [List.filter_append, List.filter_cons, old, merged, here, if_true, List.filter_nil,
      List.map_append, List.map_cons, List.map_nil, joined_append, joined_cons, joined_nil,
      String.append_empty] at before_ ⊢
    rw [← before_, String.append_assoc, text, textAt_replaceCompactedEvent textField_text]
    rfl
  | refreshed before existing replacement after split same named other anchored =>
    have different : event.eventName ≠ textDelta := by
      intro isTextDelta
      rw [isTextDelta] at other
      exact absurd other (by decide)
    exact outside (notText different rfl)
      (split ▸ filter_exchange existing _ (notText different same)
        (notText different named))

structure Accepted (current : Option Int) (event : BufferedSessionEvent) : Prop where
  notReset : atReset event = false
  fresh : eventIsStaleGeneration event
    (advancedEpoch current event.payload.generationEpoch) = false

theorem folded_tools (viewed : Viewed seq current entries arrived)
    (folded : Folded event entries updated) (accepted : Accepted current event) (toolId : String) :
    Streamed (isToolDelta toolId) fragment (advancedEpoch current event.payload.generationEpoch)
      updated (arrived ++ [event]) := by
  have streamed := viewed.tools toolId
  have notTool : ∀ {name : String}, name ≠ toolUseDelta → ∀ {entry : BufferedSessionEvent},
      entry.eventName = name → isToolDelta toolId entry = false := by
    intro name different entry named
    simp [isToolDelta, named, different]
  cases folded with
  | appended newBlock newTool =>
    cases inside : isToolDelta toolId event with
    | false => exact streamed.outside (by simp [inside]) inside _
    | true =>
      simp only [isToolDelta, Bool.and_eq_true, decide_eq_true_eq] at inside
      refine streamed.append (by simp [isToolDelta, inside]) (by rw [inside.1]; decide)
        accepted.fresh ?_
      intro entry mem isTool
      simp only [isToolDelta, Bool.and_eq_true, decide_eq_true_eq] at isTool
      have apart := newTool inside.1 entry mem
      simpa [mergesToolDelta, isTool, inside] using apart
  | thought before existing after named split found last =>
    simp only [mergesThinking, Bool.and_eq_true, decide_eq_true_eq] at found
    have old := notTool (by decide) (found.1.1.1.trans named)
    have merged : isToolDelta toolId (replaceCompactedEvent "text" event existing) = false :=
      notTool (by decide) (found.1.1.1.trans named)
    exact streamed.outside (split ▸ filter_exchange existing _ old merged)
      (notTool (by decide) named) _
  | tool before existing after named split found last =>
    have search := found
    simp only [mergesToolDelta, Bool.and_eq_true, decide_eq_true_eq] at found
    obtain ⟨sameTool, merges, epoch⟩ := mergeFragment_correct event existing
    have mergedName : (mergeFragment event existing).eventName = existing.eventName := rfl
    cases inside : isToolDelta toolId event with
    | false =>
      simp only [isToolDelta, named, decide_true, Bool.true_and, decide_eq_false_iff_not] at inside
      have old : isToolDelta toolId existing = false := by
        simp [isToolDelta, found.1.2, inside]
      have merged : isToolDelta toolId (mergeFragment event existing) = false := by
        simp [isToolDelta, sameTool, found.1.2, inside]
      exact streamed.outside (split ▸ filter_exchange existing _ old merged)
        (by simp [isToolDelta, inside]) _
    | true =>
      simp only [isToolDelta, Bool.and_eq_true, decide_eq_true_eq] at inside
      refine streamed.merge (by simp [isToolDelta, inside]) (by rw [inside.1]; decide)
        accepted.fresh split (by simp [isToolDelta, found.1, inside]) found.2 ?_
        (by simp [isToolDelta, sameTool, mergedName, found.1, inside]) merges epoch
      intro entry mem isTool
      simp only [isToolDelta, Bool.and_eq_true, decide_eq_true_eq] at isTool
      have apart := last entry mem
      simpa [mergesToolDelta, isTool, inside] using apart
  | text before existing named split found =>
    simp only [mergesText, Bool.and_eq_true, decide_eq_true_eq] at found
    have old := notTool (by decide) (found.1.1.1.trans named)
    have merged : isToolDelta toolId (replaceCompactedEvent "text" event existing) = false :=
      notTool (by decide) (found.1.1.1.trans named)
    exact streamed.outside (split ▸ filter_exchange existing _ old merged)
      (notTool (by decide) named) _
  | refreshed before existing replacement after split same named other anchored =>
    have different : event.eventName ≠ toolUseDelta := by
      intro isTool
      rw [isTool] at other
      exact absurd other (by decide)
    exact streamed.outside
      (split ▸ filter_exchange existing _ (notTool different same)
        (notTool different named)) (notTool different rfl) _

theorem folded_thoughts (viewed : Viewed seq current entries arrived)
    (folded : Folded event entries updated) (accepted : Accepted current event) (blockId : String)
    (call : Option String × Option Int) (unmixed : Unmixed blockId call (arrived ++ [event])) :
    Streamed (isThought blockId call) text (advancedEpoch current event.payload.generationEpoch)
      updated (arrived ++ [event]) := by
  have streamed := viewed.thoughts blockId call
    (fun source mem => unmixed source (List.mem_append_left _ mem))
  have notThought : ∀ {name : String}, name ≠ thinking → ∀ {entry : BufferedSessionEvent},
      entry.eventName = name → isThought blockId call entry = false := by
    intro name different entry named
    simp [isThought, named, different]
  -- within the block, an entry that could pass for the call is of the call
  have exact_ : ∀ entry ∈ entries, entry.eventName = thinking →
      entry.payload.thinkingBlockId = blockId → sameCall entry.payload.modelCall call = true →
      entry.payload.modelCall = call := by
    intro entry mem named block same
    obtain ⟨source, present, sourceNamed, sourceBlock, sourceCall⟩ := viewed.known entry mem named
    rw [← sourceCall] at same ⊢
    exact unmixed source (List.mem_append_left _ present) sourceNamed (sourceBlock.trans block) same
  cases folded with
  | appended newBlock newTool =>
    cases inside : isThought blockId call event with
    | false => exact streamed.outside (by simp [inside]) inside _
    | true =>
      simp only [isThought, Bool.and_eq_true, decide_eq_true_eq] at inside
      refine streamed.append (by simp [isThought, inside]) (by rw [inside.1.1]; decide)
        accepted.fresh ?_
      intro entry mem isThought_
      simp only [isThought, Bool.and_eq_true, decide_eq_true_eq] at isThought_
      have apart := newBlock inside.1.1 entry mem
      simpa [mergesThinking, Payload.sameTextModelCall, Payload.compatible, isThought_, inside]
        using apart
  | thought before existing after named split found last =>
    have inEntries : existing ∈ entries := split ▸ List.mem_append_right _ List.mem_cons_self
    simp only [mergesThinking, Bool.and_eq_true, decide_eq_true_eq] at found
    obtain ⟨⟨⟨sameName, sameBlock⟩, sameModelCall⟩, sameEpoch⟩ := found
    obtain ⟨mergedBlock, mergedCall⟩ := thinking_replaceCompactedEvent event existing
    have mergedName : (replaceCompactedEvent "text" event existing).eventName =
        existing.eventName := rfl
    cases inside : isThought blockId call event with
    | false =>
      have old : isThought blockId call existing = false := by
        by_contra isThought_
        simp only [Bool.not_eq_false, isThought, Bool.and_eq_true, decide_eq_true_eq] at isThought_
        have own := unmixed event (List.mem_append_right _ List.mem_cons_self) named
          (sameBlock.symm.trans isThought_.1.2) ?_
        · simp [isThought, named, own, ← sameBlock, isThought_] at inside
        · rw [← isThought_.2]
          simp only [Payload.sameTextModelCall, Payload.compatible, sameCall] at sameModelCall ⊢
          grind
      have merged : isThought blockId call (replaceCompactedEvent "text" event existing) = false := by
        simpa [isThought, mergedName, mergedBlock, mergedCall] using old
      exact streamed.outside (split ▸ filter_exchange existing _ old merged) inside _
    | true =>
      simp only [isThought, Bool.and_eq_true, decide_eq_true_eq] at inside
      have ofCall : existing.payload.modelCall = call := by
        apply exact_ existing inEntries (sameName.trans named) (sameBlock.trans inside.1.2)
        rw [← inside.2]
        exact sameModelCall
      have isMember : isThought blockId call existing = true := by
        simp [isThought, sameName, sameBlock, ofCall, inside]
      refine streamed.merge (by simp [isThought, inside]) (by rw [named]; decide) accepted.fresh
        split isMember sameEpoch ?_ ?_
        (textAt_replaceCompactedEvent textField_text event existing)
        (generationEpoch_replaceCompactedEvent textField_text event existing)
      · intro entry mem isThought_
        simp only [isThought, Bool.and_eq_true, decide_eq_true_eq] at isThought_
        have apart := last entry mem
        simpa [mergesThinking, Payload.sameTextModelCall, Payload.compatible, isThought_, inside]
          using apart
      · simpa [isThought, mergedName, mergedBlock, mergedCall] using isMember
  | tool before existing after named split found last =>
    simp only [mergesToolDelta, Bool.and_eq_true, decide_eq_true_eq] at found
    have old := notThought (by decide) (found.1.1.trans named)
    have merged : isThought blockId call (mergeFragment event existing) = false :=
      notThought (by decide) (found.1.1.trans named)
    exact streamed.outside (split ▸ filter_exchange existing _ old merged)
      (notThought (by decide) named) _
  | text before existing named split found =>
    simp only [mergesText, Bool.and_eq_true, decide_eq_true_eq] at found
    have old := notThought (by decide) (found.1.1.1.trans named)
    have merged : isThought blockId call (replaceCompactedEvent "text" event existing) = false :=
      notThought (by decide) (found.1.1.1.trans named)
    exact streamed.outside (split ▸ filter_exchange existing _ old merged)
      (notThought (by decide) named) _
  | refreshed before existing replacement after split same named other anchored =>
    have different : event.eventName ≠ thinking := by
      intro isThinking
      rw [isThinking] at other
      exact absurd other (by decide)
    exact streamed.outside
      (split ▸ filter_exchange existing _ (notThought different same)
        (notThought different named)) (notThought different rfl) _

theorem folded_viewed (viewed : Viewed seq current entries arrived)
    (folded : Folded event entries updated) (next : seq < event.streamSeq) (accepted : Accepted current event) :
    Viewed event.streamSeq (advancedEpoch current event.payload.generationEpoch) updated
      (arrived ++ [event]) where
  noResets := folded_noResets viewed folded accepted.notReset
  taken := (folded_sequenced viewed folded next).1
  ordered := (folded_sequenced viewed folded next).2
  known := folded_known viewed folded
  texts := folded_texts viewed folded
  tools := folded_tools viewed folded accepted
  thoughts := folded_thoughts viewed folded accepted

end Folding

namespace SessionStream

/-- What holds of the live state of a session after any calls: without a live turn there is
no live view, and the maintenance kept beside it is maintenance. -/
structure Sound (s : SessionStream) : Prop where
  idle : s.liveTask = none → s.liveEvents = none ∧ s.liveGenerationEpoch = none
  maintenance : ∀ operationId progress, s.manualCompactions.get? operationId = some progress →
    ∀ event ∈ progress, event.eventName = compaction

-- The live state is the same; maintenance may have been dropped.
structure SameLive (before after : SessionStream) : Prop where
  liveEvents : after.liveEvents = before.liveEvents
  liveTask : after.liveTask = before.liveTask
  liveGenerationEpoch : after.liveGenerationEpoch = before.liveGenerationEpoch
  maintenance : ∀ operationId progress, after.manualCompactions.get? operationId = some progress →
    before.manualCompactions.get? operationId = some progress

namespace SameLive

theorem refl (s : SessionStream) : SameLive s s := ⟨rfl, rfl, rfl, fun _ _ kept => kept⟩

theorem trans {first second third : SessionStream} (one : SameLive first second)
    (two : SameLive second third) : SameLive first third where
  liveEvents := two.liveEvents.trans one.liveEvents
  liveTask := two.liveTask.trans one.liveTask
  liveGenerationEpoch := two.liveGenerationEpoch.trans one.liveGenerationEpoch
  maintenance := fun operationId progress kept =>
    one.maintenance operationId progress (two.maintenance operationId progress kept)

theorem sound {before after : SessionStream} (same : SameLive before after) (sound : before.Sound) :
    after.Sound where
  idle := by
    rw [same.liveTask, same.liveEvents, same.liveGenerationEpoch]
    exact sound.idle
  maintenance := fun operationId progress kept =>
    sound.maintenance operationId progress (same.maintenance operationId progress kept)

end SameLive

theorem advanceSessionEpoch_same (s : SessionStream) (epoch : Int) :
    SameLive s (s.advanceSessionEpoch epoch) := by
  unfold advanceSessionEpoch
  split
  · exact .refl s
  · refine ⟨rfl, rfl, rfl, fun operationId progress kept => ?_⟩
    cases kept

theorem admitRecord_same (s : SessionStream) (enriched : Payload) : SameLive s (s.admitRecord enriched) := by
  have sequence : SameLive s { s with seq := s.seq + 1 } := ⟨rfl, rfl, rfl, fun _ _ kept => kept⟩
  unfold admitRecord
  cases (enriched.get "epoch").natural? with
  | none => exact sequence
  | some epoch => exact sequence.trans (advanceSessionEpoch_same _ epoch)

theorem admitRecord_seq (s : SessionStream) (enriched : Payload) :
    (s.admitRecord enriched).seq = s.seq + 1 := by
  unfold admitRecord
  cases (enriched.get "epoch").natural? with
  | none => rfl
  | some epoch =>
    simp only [Option.elim_some, advanceSessionEpoch]
    split <;> rfl

theorem bufferEvent_same (s : SessionStream) (event : BufferedSessionEvent) :
    SameLive s (s.bufferEvent event) := ⟨rfl, rfl, rfl, fun _ _ kept => kept⟩

theorem noteUnpersisted_same (s : SessionStream) (event : BufferedSessionEvent) :
    SameLive s (s.noteUnpersisted event) ∧ (s.noteUnpersisted event).seq = s.seq := by
  unfold noteUnpersisted
  dsimp only
  repeat' split
  all_goals exact ⟨⟨rfl, rfl, rfl, fun _ _ kept => kept⟩, rfl⟩

theorem refreshReplayBudget_same (s : SessionStream) (evicts : Bool) :
    SameLive s (s.refreshReplayBudget evicts) ∧ (s.refreshReplayBudget evicts).seq = s.seq := by
  unfold refreshReplayBudget
  repeat' split
  all_goals exact ⟨⟨rfl, rfl, rfl, fun _ _ kept => kept⟩, rfl⟩

variable {s : SessionStream}

theorem clearLiveState_sound (sound : s.Sound) : s.clearLiveState.Sound :=
  ⟨fun _ => ⟨rfl, rfl⟩, sound.maintenance⟩

theorem enterTask_sound (sound : s.Sound) (task : Option String) :
    (s.enterTask task).Sound ∧ (s.enterTask task).liveTask ≠ none := by
  cases task with
  | none =>
    refine ⟨⟨fun idle => ?_, sound.maintenance⟩, ?_⟩ <;> cases found : s.liveTask <;>
      simp [enterTask, found] at *
  | some task =>
    unfold enterTask
    dsimp only
    split <;> exact ⟨⟨fun idle => (by cases idle), sound.maintenance⟩, by simp⟩

theorem recordManualCompaction_sound (sound : s.Sound)
    (event : BufferedSessionEvent) (named : event.eventName = compaction) :
    (s.recordManualCompaction event).Sound := by
  unfold recordManualCompaction
  split
  · exact sound
  next operationId _ =>
    dsimp only
    split
    · refine ⟨sound.idle, fun other progress kept => ?_⟩
      have present := (Dict.get?_eq_some_iff _ _ _).mp kept
      have inSet := (Dict.get?_eq_some_iff _ other progress).mpr (List.mem_of_mem_drop present)
      rw [Dict.get?_set] at inSet
      split at inSet
      · obtain rfl := Option.some.inj inSet
        have old := sound.maintenance operationId
        intro entry mem
        cases earlier : s.manualCompactions.get? operationId with
        | none => simp_all
        | some pulses =>
          cases pulses with
          | nil => simp_all
          | cons first rest =>
            simp only [earlier, Option.getD_some] at mem
            split at mem
            · rcases List.mem_cons.mp mem with rfl | last
              · exact old _ earlier entry List.mem_cons_self
              · obtain rfl := List.mem_singleton.mp last
                exact named
            · obtain rfl := List.mem_singleton.mp mem
              exact named
      · exact sound.maintenance other progress inSet
    · refine ⟨sound.idle, fun other progress kept => ?_⟩
      rw [Dict.get?_erase] at kept
      split at kept
      · cases kept
      · exact sound.maintenance other progress kept

theorem appendLive_keeps (s : SessionStream) (event : BufferedSessionEvent) :
    (s.appendLive event).liveTask = s.liveTask ∧
      (s.appendLive event).manualCompactions = s.manualCompactions := by
  unfold appendLive checkpointAttempt
  dsimp only
  repeat' split
  all_goals exact ⟨rfl, rfl⟩

theorem recordGenerationReset_keeps (s : SessionStream) (event : BufferedSessionEvent) :
    (s.recordGenerationReset event).liveTask = s.liveTask ∧
      (s.recordGenerationReset event).manualCompactions = s.manualCompactions := by
  unfold recordGenerationReset recordCallReset
  dsimp only
  repeat' split
  all_goals exact ⟨rfl, rfl⟩

theorem Sound.of_keeps {before after : SessionStream} (sound : before.Sound) (live : before.liveTask ≠ none)
    (keeps : after.liveTask = before.liveTask ∧ after.manualCompactions = before.manualCompactions) :
    after.Sound :=
  ⟨fun idle => absurd (keeps.1.symm.trans idle) live, keeps.2 ▸ sound.maintenance⟩

theorem recordLiveEvent_sound (sound : s.Sound) (event : BufferedSessionEvent) :
    (s.recordLiveEvent event).Sound := by
  unfold recordLiveEvent
  dsimp only
  split
  next manual =>
    apply recordManualCompaction_sound sound
    simp only [isManualCompaction, Bool.and_eq_true, decide_eq_true_eq] at manual
    exact manual.1
  · split
    · split
      · exact clearLiveState_sound sound
      · exact sound
    · obtain ⟨entered, live⟩ := enterTask_sound sound event.payload.taskId
      split
      · exact clearLiveState_sound entered
      · split
        · exact entered.of_keeps live (recordGenerationReset_keeps _ event)
        · exact entered.of_keeps live (appendLive_keeps _ event)

theorem step_sound (s : SessionStream) (op : StreamOp) (sound : s.Sound) : (s.step op).Sound := by
  cases op with
  | record eventName payload emittedAt evicts =>
    have admitted := (admitRecord_same s (s.recordEvent eventName payload emittedAt).payload).sound
      sound
    simp only [step, record]
    generalize s.recordEvent eventName payload emittedAt = event at admitted ⊢
    generalize s.admitRecord event.payload = admittedStream at admitted ⊢
    split
    · exact admitted
    · split
      · exact admitted
      · have recorded := recordLiveEvent_sound ((bufferEvent_same _ event).sound admitted) event
        exact (refreshReplayBudget_same _ evicts).1.sound
          ((noteUnpersisted_same _ _).1.sound recorded)
  | markTerminalPersisted taskId reconstructible evicts =>
    simp only [step, markTerminalPersisted]
    split
    · exact sound
    · exact (refreshReplayBudget_same _ evicts).1.sound ⟨sound.idle, sound.maintenance⟩
  | budgetDropped =>
    simp only [step, budgetDropped]
    split <;> exact ⟨sound.idle, sound.maintenance⟩
  | advanceSessionEpoch epoch => exact (advanceSessionEpoch_same s epoch).sound sound
  | promoteLegacyCursor sinceStreamSeq =>
    simp only [step, promoteLegacyCursor]
    repeat' split
    all_goals exact ⟨sound.idle, sound.maintenance⟩
  | takeTerminalActivitySnapshot taskId durable =>
    simp only [step, takeTerminalActivitySnapshot]
    split
    · exact clearLiveState_sound sound
    · exact sound
  | evict => exact ⟨fun _ => ⟨rfl, rfl⟩, fun operationId progress kept => by cases kept⟩

theorem taskId_enrich (s : SessionStream) (payload : Option Payload) (emittedAt : Int) :
    (s.enrich payload emittedAt).taskId = (payload.getD .empty).taskId := by
  simp [enrich, Payload.taskId, Payload.getAlias, Payload.get]

theorem recordManualCompaction_same (s : SessionStream) (event : BufferedSessionEvent) :
    (s.recordManualCompaction event).liveEvents = s.liveEvents ∧
      (s.recordManualCompaction event).liveTask = s.liveTask ∧
      (s.recordManualCompaction event).liveGenerationEpoch = s.liveGenerationEpoch ∧
      (s.recordManualCompaction event).seq = s.seq := by
  unfold recordManualCompaction
  dsimp only
  repeat' split
  all_goals exact ⟨rfl, rfl, rfl, rfl⟩

theorem appendLive_view (s : SessionStream) (event : BufferedSessionEvent) : (s.appendLive event).seq = s.seq ∧
      (s.appendLive event).liveGenerationEpoch =
        advancedEpoch s.liveGenerationEpoch event.payload.generationEpoch ∧
      (s.appendLive event).liveList =
        if eventIsStaleGeneration event
          (advancedEpoch s.liveGenerationEpoch event.payload.generationEpoch) then s.liveList
        else (compactInto s.liveList event).getD (s.liveList ++ [event]) := by
  unfold appendLive checkpointAttempt
  dsimp only
  split
  next stale => exact ⟨rfl, rfl, rfl⟩
  next fresh =>
    split <;> exact ⟨rfl, rfl, rfl⟩

theorem enterTask_view (sound : s.Sound) {task : Option String}
    (ofTurn : s.liveTask = none ∨ s.liveTask = some task) :
    (s.enterTask task).liveTask = some task ∧ (s.enterTask task).seq = s.seq ∧
      (s.enterTask task).liveGenerationEpoch = s.liveGenerationEpoch ∧
      (s.enterTask task).liveList = s.liveList := by
  rcases ofTurn with idle | live
  · obtain ⟨noEvents, noEpoch⟩ := sound.idle idle
    cases task <;> simp [enterTask, clearLiveState, liveList, idle, noEvents, noEpoch]
  · cases task <;> simp [enterTask, liveList, live]

-- An event that is not of the current generation when it arrives.
def staleAtArrival (s : SessionStream) (event : BufferedSessionEvent) : Bool :=
  eventIsStaleGeneration event (advancedEpoch (s.enterTask event.payload.taskId).liveGenerationEpoch
    event.payload.generationEpoch)

/-- The events that record calls make and that are not stale at arrival, in arrival order. -/
def accepted : SessionStream → List StreamOp → List BufferedSessionEvent
  | _, [] => []
  | s, op :: rest =>
    (match op with
      | .record eventName payload emittedAt _ =>
        let event := s.recordEvent eventName payload emittedAt
        if s.staleAtArrival event then [] else [event]
      | _ => []) ++ accepted (s.step op) rest

-- A record call of the turn of `task` that neither ends it nor resets its answer.
def OfTurn (task : Option String) : StreamOp → Prop
  | .record eventName payload _ _ =>
    eventName ∉ [answerGenerationReset, done, error, turnCommitted] ∧
      (payload.getD .empty).taskId = task
  | _ => False

end SessionStream

theorem Viewed.advanced {seq later : Nat} {current : Option Int}
    {entries arrived : List BufferedSessionEvent} (viewed : Viewed seq current entries arrived)
    (next : seq ≤ later) (incoming : Option Int) :
    Viewed later (advancedEpoch current incoming) entries arrived where
  noResets := viewed.noResets
  taken := fun entry mem => (viewed.taken entry mem).trans next
  ordered := viewed.ordered
  known := viewed.known
  texts := viewed.texts
  tools := fun toolId =>
    let streamed := viewed.tools toolId
    ⟨streamed.staged, fun _ inside _ named => bounded_advanced streamed incoming inside named,
      streamed.text⟩
  thoughts := fun blockId call unmixed =>
    let streamed := viewed.thoughts blockId call unmixed
    ⟨streamed.staged, fun _ inside _ named => bounded_advanced streamed incoming inside named,
      streamed.text⟩

theorem Viewed.elsewhere {seq : Nat} {current : Option Int}
    {entries arrived : List BufferedSessionEvent} (viewed : Viewed seq current entries arrived)
    {event : BufferedSessionEvent} (other : accumulates event.eventName = false) :
    Viewed seq current entries (arrived ++ [event]) := by
  have same : advancedEpoch current none = current := by cases current <;> rfl
  have different : event.eventName ≠ textDelta ∧ event.eventName ≠ thinking ∧
      event.eventName ≠ toolUseDelta := by
    simpa [accumulates] using other
  refine ⟨viewed.noResets, viewed.taken, viewed.ordered, ?_, ?_, ?_, ?_⟩
  · intro entry mem named
    obtain ⟨source, present, sources⟩ := viewed.known entry mem named
    exact ⟨source, List.mem_append_left _ present, sources⟩
  · rw [viewed.texts]
    simp [isText, different]
  · intro toolId
    exact same ▸ (viewed.tools toolId).outside rfl (by simp [isToolDelta, different]) none
  · intro blockId call unmixed
    have streamed := viewed.thoughts blockId call
      (fun source mem => unmixed source (List.mem_append_left _ mem))
    exact same ▸ streamed.outside rfl (by simp [isThought, different]) none

namespace SessionStream

-- A session in the turn of `task`, into which the events `arrived` were accepted.
structure InTurn (task : Option String) (arrived : List BufferedSessionEvent) (s : SessionStream) :
    Prop where
  sound : s.Sound
  ofTurn : s.liveTask = none ∨ s.liveTask = some task
  viewed : Viewed s.seq s.liveGenerationEpoch s.liveList arrived

section Turn

variable {task : Option String} {arrived : List BufferedSessionEvent} {s : SessionStream}

theorem InTurn.same (inTurn : InTurn task arrived s) {after : SessionStream} (same : SameLive s after)
    (next : s.seq ≤ after.seq) : InTurn task arrived after := by
  have current : advancedEpoch s.liveGenerationEpoch none = s.liveGenerationEpoch := by
    cases s.liveGenerationEpoch <;> rfl
  have viewed := inTurn.viewed.advanced next none
  rw [current] at viewed
  refine ⟨same.sound inTurn.sound, same.liveTask ▸ inTurn.ofTurn, ?_⟩
  rw [same.liveGenerationEpoch, liveList, same.liveEvents]
  exact viewed

theorem recordLiveEvent_mild {event : BufferedSessionEvent}
    (mild : event.eventName ∉ [answerGenerationReset, done, error, turnCommitted])
    (notManual : ¬isManualCompaction event.eventName event.payload) : atReset event = false ∧
      s.recordLiveEvent event = (s.enterTask event.payload.taskId).appendLive event := by
  simp only [List.mem_cons, List.not_mem_nil, or_false, not_or] at mild
  have notReset : isGenerationReset event.eventName = false := by simp [isGenerationReset, mild.1]
  refine ⟨notReset, ?_⟩
  simp [recordLiveEvent, notManual, mild, notReset]

theorem recordLiveEvent_inTurn (inTurn : InTurn task arrived s) {event : BufferedSessionEvent}
    (mild : event.eventName ∉ [answerGenerationReset, done, error, turnCommitted])
    (own : event.payload.taskId = task) {earlier : Nat} (viewed : Viewed earlier
      s.liveGenerationEpoch s.liveList arrived) (next : earlier < event.streamSeq)
    (seq : s.seq = event.streamSeq) :
    InTurn task (arrived ++ if s.staleAtArrival event then [] else [event])
      (s.recordLiveEvent event) := by
  have sound := recordLiveEvent_sound inTurn.sound event
  by_cases manual : isManualCompaction event.eventName event.payload
  · have named : event.eventName = compaction := by
      simp only [isManualCompaction, Bool.and_eq_true, decide_eq_true_eq] at manual
      exact manual.1
    have notStale : s.staleAtArrival event = false := by
      rw [staleAtArrival, eventIsStaleGeneration, named]
      rfl
    rw [recordLiveEvent, if_pos manual] at sound ⊢
    obtain ⟨events, live, epoch, sameSeq⟩ := recordManualCompaction_same s event
    refine ⟨sound, live ▸ inTurn.ofTurn, ?_⟩
    rw [notStale, epoch, sameSeq, liveList, events]
    exact inTurn.viewed.elsewhere (by rw [named]; decide)
  · obtain ⟨notReset, appended⟩ := recordLiveEvent_mild (s := s) mild manual
    rw [appended, own] at sound ⊢
    obtain ⟨entered, enteredSeq, enteredEpoch, enteredList⟩ :=
      enterTask_view inTurn.sound inTurn.ofTurn
    obtain ⟨keptSeq, epoch, list⟩ := appendLive_view (s.enterTask task) event
    refine ⟨sound, .inr (((appendLive_keeps _ event).1).trans entered), ?_⟩
    rw [keptSeq, enteredSeq, seq, epoch, list, enteredEpoch, enteredList]
    cases stale : s.staleAtArrival event with
    | true =>
      rw [staleAtArrival, own, enteredEpoch] at stale
      simp only [stale, if_true, List.append_nil]
      exact viewed.advanced next.le _
    | false =>
      rw [staleAtArrival, own, enteredEpoch] at stale
      simp only [stale, Bool.false_eq_true, if_false]
      exact folded_viewed viewed (compactInto_folded event s.liveList viewed.noResets) next
        ⟨notReset, stale⟩

theorem staleAtArrival_same {after : SessionStream} (same : SameLive s after)
    (event : BufferedSessionEvent) : after.staleAtArrival event = s.staleAtArrival event := by
  have epoch : ∀ task : Option String, (after.enterTask task).liveGenerationEpoch =
      (s.enterTask task).liveGenerationEpoch := by
    intro task
    cases task with
    | none => exact same.liveGenerationEpoch
    | some task =>
      simp only [enterTask, same.liveTask]
      split
      · exact same.liveGenerationEpoch
      · rfl
  rw [staleAtArrival, staleAtArrival, epoch]

theorem record_inTurn (inTurn : InTurn task arrived s) {eventName : String} {payload : Option Payload}
    (mild : eventName ∉ [answerGenerationReset, done, error, turnCommitted])
    (own : (payload.getD .empty).taskId = task) (emittedAt : Int) (evicts : Bool) : InTurn task
      (arrived ++ if s.staleAtArrival (s.recordEvent eventName payload emittedAt) then []
        else [s.recordEvent eventName payload emittedAt])
      (s.record eventName payload emittedAt evicts).2 := by
  have named : (s.recordEvent eventName payload emittedAt).eventName = eventName := rfl
  have ofTask : (s.recordEvent eventName payload emittedAt).payload.taskId = task :=
    (taskId_enrich s payload emittedAt).trans own
  have sequenced : (s.recordEvent eventName payload emittedAt).streamSeq = s.seq + 1 := rfl
  have notReset : isGenerationReset eventName = false := by
    simp only [List.mem_cons, not_or] at mild
    simp [isGenerationReset, mild.1]
  unfold record
  dsimp only
  generalize s.recordEvent eventName payload emittedAt = event at named ofTask sequenced ⊢
  have admitted := inTurn.same (admitRecord_same s event.payload)
    (by rw [admitRecord_seq]; exact Nat.le_succ _)
  rw [notReset, ← staleAtArrival_same (admitRecord_same s event.payload)]
  have seq : (s.admitRecord event.payload).seq = event.streamSeq :=
    (admitRecord_seq s event.payload).trans sequenced.symm
  have viewed : Viewed s.seq (s.admitRecord event.payload).liveGenerationEpoch
      (s.admitRecord event.payload).liveList arrived := by
    rw [(admitRecord_same s event.payload).liveGenerationEpoch, liveList,
      (admitRecord_same s event.payload).liveEvents]
    exact inTurn.viewed
  generalize s.admitRecord event.payload = s' at admitted seq viewed ⊢
  cases fenced : s'.epochFenced eventName event.payload with
  | true =>
    simp only [epochFenced, isManualCompaction, Bool.and_eq_true, decide_eq_true_eq] at fenced
    have isCompaction : event.eventName = compaction := named.trans fenced.1.1
    have notStale : s'.staleAtArrival event = false := by
      rw [staleAtArrival, eventIsStaleGeneration, isCompaction]
      rfl
    simp only [notStale, if_true]
    exact ⟨admitted.sound, admitted.ofTurn,
      admitted.viewed.elsewhere (by rw [isCompaction]; decide)⟩
  | false =>
    simp only [Bool.false_eq_true, if_false, Bool.false_and, publish]
    have buffered := bufferEvent_same s' event
    have recorded := recordLiveEvent_inTurn (s := s'.bufferEvent event)
      (admitted.same buffered le_rfl) (named ▸ mild) ofTask viewed
      (by rw [sequenced]; exact Nat.lt_succ_self _) seq
    rw [staleAtArrival_same buffered] at recorded
    obtain ⟨noted, sameSeq⟩ := noteUnpersisted_same ((s'.bufferEvent event).recordLiveEvent event) event
    obtain ⟨refreshed, kept⟩ := refreshReplayBudget_same
      (((s'.bufferEvent event).recordLiveEvent event).noteUnpersisted event) evicts
    exact (recorded.same noted sameSeq.ge).same refreshed kept.ge

theorem run_inTurn (inTurn : InTurn task arrived s) (ops : List StreamOp) (turn : ∀ op ∈ ops, OfTurn task op) :
    InTurn task (arrived ++ s.accepted ops) (run step s ops) := by
  induction ops generalizing s arrived with
  | nil => simpa [accepted] using inTurn
  | cons op rest ih =>
    rw [List.forall_mem_cons] at turn
    cases op with
    | record eventName payload emittedAt evicts =>
      have next := ih (record_inTurn inTurn turn.1.1 turn.1.2 emittedAt evicts) turn.2
      rw [accepted, ← List.append_assoc]
      exact next
    | _ => exact turn.1.elim

theorem inTurn_of_idle (sound : s.Sound) (idle : s.liveTask = none) : InTurn task [] s := by
  obtain ⟨noEvents, noEpoch⟩ := sound.idle idle
  refine ⟨sound, .inl idle, ?_⟩
  rw [liveList, noEvents, noEpoch]
  exact viewed_empty s.seq none

end Turn

theorem bySeq_filter {entries others : List BufferedSessionEvent} {mem : BufferedSessionEvent → Bool}
    (ordered : (entries.filter mem).Pairwise
      (fun first second => first.streamSeq < second.streamSeq))
    (apart : ∀ entry ∈ others, mem entry = false) :
    (bySeq (entries ++ others)).filter mem = entries.filter mem := by
  have none : others.filter mem = [] := by
    rw [List.filter_eq_nil_iff]
    intro entry inside
    simp [apart entry inside]
  have permuted : ((bySeq (entries ++ others)).filter mem).Perm (entries.filter mem) := by
    have sorted := (List.mergeSort_perm (entries ++ others)
      (fun first second => first.streamSeq ≤ second.streamSeq)).filter mem
    rwa [List.filter_append, none, List.append_nil] at sorted
  have sorted : (bySeq (entries ++ others)).Pairwise (fun first second =>
      decide (first.streamSeq ≤ second.streamSeq) = true) := by
    apply List.pairwise_mergeSort
    · intro first second third one two
      simp only [decide_eq_true_eq] at *
      omega
    · intro first second
      simp only [Bool.or_eq_true, decide_eq_true_eq]
      omega
  refine permuted.eq_of_pairwise ?_ ((sorted.imp of_decide_eq_true).sublist List.filter_sublist)
    (ordered.imp le_of_lt)
  intro first second inFirst inSecond one two
  have distinct : ((entries.filter mem).map BufferedSessionEvent.streamSeq).Nodup := by
    rw [List.Nodup, List.pairwise_map]
    exact ordered.imp ne_of_lt
  exact List.inj_on_of_nodup_map distinct (permuted.subset inFirst) inSecond (le_antisymm one two)

theorem liveSnapshot_filter {s : SessionStream} {task : Option String}
    {arrived : List BufferedSessionEvent} (inTurn : InTurn task arrived s) {mem : BufferedSessionEvent → Bool}
    (accumulated : ∀ event, mem event = true → accumulates event.eventName = true) :
    s.liveSnapshot.filter mem = s.liveList.filter mem := by
  apply bySeq_filter
  · have narrowed : s.liveList.filter mem =
        (s.liveList.filter (fun entry => accumulates entry.eventName)).filter mem := by
      rw [List.filter_filter]
      apply List.filter_congr
      intro entry _
      cases isMember : mem entry with
      | false => rfl
      | true => simp [accumulated entry isMember]
    rw [narrowed]
    exact inTurn.viewed.ordered.sublist List.filter_sublist
  · intro entry inside
    obtain ⟨progress, kept, member_⟩ := List.mem_flatten.mp inside
    obtain ⟨pair, present, rfl⟩ := List.mem_map.mp kept
    have found := (Dict.get?_eq_some_iff _ pair.1 pair.2).mpr present
    have named := inTurn.sound.maintenance pair.1 pair.2 found entry member_
    by_contra isMember
    have bad := accumulated entry (by simpa using isMember)
    rw [named] at bad
    exact absurd bad (by decide)

theorem init_sound (sessionKey streamGeneration : String) (maxEventsPerSession : Nat) :
    (init sessionKey streamGeneration maxEventsPerSession).Sound :=
  ⟨fun _ => ⟨rfl, rfl⟩, fun operationId progress kept => by cases kept⟩

theorem live_snapshot_accumulates (sessionKey streamGeneration : String) (maxEventsPerSession : Nat)
    (earlier ops : List StreamOp) (task : Option String)
    (idle : (run step (init sessionKey streamGeneration maxEventsPerSession) earlier).liveTask = none)
    (turn : ∀ op ∈ ops, OfTurn task op) :
    let before := run step (init sessionKey streamGeneration maxEventsPerSession) earlier
    let snapshot := (run step before ops).liveSnapshot
    let arrived := before.accepted ops
    joined ((snapshot.filter isText).map text) = joined ((arrived.filter isText).map text) ∧
    (∀ toolId, joined ((snapshot.filter (isToolDelta toolId)).map fragment) =
      joined ((arrived.filter (isToolDelta toolId)).map fragment)) ∧
    (∀ blockId call, Unmixed blockId call arrived →
      joined ((snapshot.filter (isThought blockId call)).map text) =
        joined ((arrived.filter (isThought blockId call)).map text)) := by
  intro before snapshot arrived
  have sound : before.Sound := run_invariant Sound step_sound (init_sound ..) earlier
  have started : InTurn task [] before := inTurn_of_idle sound idle
  have ended := run_inTurn started ops turn
  rw [List.nil_append] at ended
  have same : ∀ {mem : BufferedSessionEvent → Bool},
      (∀ event, mem event = true → accumulates event.eventName = true) →
      snapshot.filter mem = (run step before ops).liveList.filter mem :=
    fun accumulated => liveSnapshot_filter ended accumulated
  refine ⟨?_, fun toolId => ?_, fun blockId call unmixed => ?_⟩
  · rw [same (fun event here => by simp_all [isText, accumulates])]
    exact ended.viewed.texts
  · rw [same (fun event here => by simp_all [isToolDelta, accumulates])]
    exact (ended.viewed.tools toolId).text
  · rw [same (fun event here => by simp_all [isThought, accumulates])]
    exact (ended.viewed.thoughts blockId call unmixed).text

instance (task : Option String) (op : StreamOp) : Decidable (OfTurn task op) :=
  match op with
  | .record eventName payload _ _ =>
    inferInstanceAs (Decidable (eventName ∉ [answerGenerationReset, done, error, turnCommitted] ∧
      (payload.getD .empty).taskId = task))
  | .markTerminalPersisted .. | .budgetDropped | .advanceSessionEpoch .. | .promoteLegacyCursor ..
  | .takeTerminalActivitySnapshot .. | .evict => inferInstanceAs (Decidable False)

def thinkingDelta (text : String) (fields : List (String × Value)) : StreamOp :=
  .record thinking
    (some (.ofList ([("task_id", .str "turn"), ("block_id", .str "block"), ("text", .str text)] ++ fields)))
    0 false

theorem live_snapshot_accumulates_two_calls :
    let ops := [thinkingDelta "first" [("model_call_id", .str "one")],
      thinkingDelta "second" [("model_call_id", .str "two")]]
    let arrived := (init "session" "generation" 8).accepted ops
    Unmixed "block" (some "two", none) arrived ∧
    joined (((run step (init "session" "generation" 8) ops).liveSnapshot.filter
      (isThought "block" (some "two", none))).map text) = "second" := by
  intro ops arrived
  have unmixed : Unmixed "block" (some "two", none) arrived := by
    unfold Unmixed
    decide
  have view := (live_snapshot_accumulates "session" "generation" 8 [] ops (some "turn") rfl
    (by decide)).2.2 "block" (some "two", none) unmixed
  exact ⟨unmixed, view.trans (by decide)⟩

/-- A delta that does not name its model call is taken for the latest one of its block. -/
theorem unnamed_delta_joins_latest_call :
    let ops := [thinkingDelta "first" [("model_call_id", .str "one")],
      thinkingDelta "second" [("model_call_id", .str "two")], thinkingDelta "third" []]
    let call := isThought "block" (some "two", none)
    (∀ op ∈ ops, OfTurn (some "turn") op) ∧
    joined (((run step (init "session" "generation" 8) ops).liveSnapshot.filter call).map text) ≠
      joined ((((init "session" "generation" 8).accepted ops).filter call).map text) := by
  intro ops call
  have turn : ∀ op ∈ ops, OfTurn (some "turn") op := by decide
  have ended := run_inTurn (inTurn_of_idle (init_sound "session" "generation" 8) rfl) ops turn
  rw [liveSnapshot_filter ended (fun event here => by simp_all [call, isThought, accumulates])]
  exact ⟨turn, by decide⟩

end SessionStream

end OpenSquilla.Streams
