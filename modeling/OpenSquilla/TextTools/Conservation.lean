import OpenSquilla.TextTools.Spans
import OpenSquilla.TextTools.Stream

set_option autoImplicit false

-- The text that was put out and the text that is withheld make up the text that was pushed, and
-- the segments of the finished stream make up what was withheld.

namespace OpenSquilla.TextTools

open TextLines (Text)

namespace TextToolSegment

def isRejected : TextToolSegment → Bool
  | .rejected .. => true
  | .literal _ | .synthetic .. => false

def sourceText : TextToolSegment → Text
  | .literal text => text
  | .synthetic _ sourceText => sourceText
  | .rejected .. => []

end TextToolSegment

def sourceOf (segments : List TextToolSegment) : Text := segments.flatMap TextToolSegment.sourceText

@[simp] theorem sourceOf_nil : sourceOf [] = [] := rfl

@[simp] theorem sourceOf_cons (segment : TextToolSegment) (rest : List TextToolSegment) :
    sourceOf (segment :: rest) = segment.sourceText ++ sourceOf rest := rfl

@[simp] theorem sourceOf_append (first second : List TextToolSegment) :
    sourceOf (first ++ second) = sourceOf first ++ sourceOf second := List.flatMap_append

@[simp] theorem sourceOf_literal (text : Text) : sourceOf [.literal text] = text :=
  List.append_nil text

theorem slice_append_drop (text : Text) {start stop : Nat} (ordered : start ≤ stop) :
    slice text start stop ++ text.drop stop = text.drop start := by
  have more : text.drop stop = (text.drop start).drop (stop - start) := by
    rw [List.drop_drop, Nat.add_sub_cancel' ordered]
  rw [slice, List.drop_take, more, List.take_append_drop]

theorem sourceOf_blockSegments (text : Text) {cursor : Nat} {blocks : List BlockMatch}
    (ordered : blocksInOrder cursor blocks = true) (forward : ∀ block ∈ blocks, block.start ≤ block.stop) :
    sourceOf (blockSegments text cursor blocks) = text.drop cursor := by
  induction blocks generalizing cursor with
  | nil =>
    simp only [blockSegments]
    split
    next => exact sourceOf_literal _
    next short =>
      rw [sourceOf_nil, List.drop_eq_nil_of_le (by omega)]
  | cons block rest ih =>
    simp only [blocksInOrder, Bool.and_eq_true, decide_eq_true_eq] at ordered
    rw [List.forall_mem_cons] at forward
    have before : sourceOf (if cursor < block.start then [.literal (slice text cursor block.start)]
        else []) = slice text cursor block.start := by
      split
      next => exact sourceOf_literal _
      next late =>
        have same : block.start = cursor := by omega
        simp [slice, same]
    rw [blockSegments, sourceOf_append, before, sourceOf_cons, ih ordered.2 forward.2]
    simp only [TextToolSegment.sourceText]
    rw [slice_append_drop text forward.1, slice_append_drop text ordered.1]

variable {σ : Type} {lib : Libraries σ} {tools : List (ToolDefinition σ)}
variable {dialects : Finset TextToolDialect}

-- Every block that was found ends where it starts or later.
def Findings.Forward (findings : Findings) : Prop :=
  ∀ block ∈ findings.blocks, block.start ≤ block.stop

theorem empty_forward : ({} : Findings).Forward := fun _ mem => nomatch mem

variable {findings : Findings}

theorem Findings.Forward.addBlock (forward : findings.Forward)
    {block : BlockMatch} (ordered : block.start ≤ block.stop) : (findings.addBlock block).Forward := by
  intro other mem
  rcases List.mem_append.mp mem with old | new
  · exact forward other old
  · rw [List.mem_singleton.mp new]
    exact ordered

theorem foldlM_invariant {α β : Type} {step : β → α → Option β} (I : β → Prop)
    {items : List α} (kept : ∀ item ∈ items, ∀ state next, I state → step state item = some next →
      I next) {state last : β} (holds : I state) (ran : items.foldlM step state = some last) :
    I last := by
  induction items generalizing state with
  | nil =>
    cases ran
    exact holds
  | cons item rest ih =>
    rw [List.foldlM_cons] at ran
    obtain ⟨next, stepped, ran⟩ := Option.bind_eq_some_iff.mp ran
    rw [List.forall_mem_cons] at kept
    exact ih kept.2 (kept.1 state next holds stepped) ran

variable {dialect : TextToolDialect}

theorem checkCall_blocks {span : Nat × Nat} {raw : RawTextToolCall}
    {block next : BlockCalls} (checked : checkCall lib tools dialect span block raw = some next) :
    next.findings.blocks = block.findings.blocks := by
  unfold checkCall at checked
  split at checked <;> cases checked <;> rfl

theorem checkBlock_forward {findings next : Findings}
    {span : ProtocolSpan} (ordered : span.start ≤ span.stop) (forward : findings.Forward)
    (checked : checkBlock lib tools dialect findings span = some next) : next.Forward := by
  obtain ⟨block, ran, checked⟩ := Option.bind_eq_some_iff.mp checked
  have same : block.findings.blocks = findings.blocks :=
    foldlM_invariant (fun block => block.findings.blocks = findings.blocks)
      (fun _ _ _ _ held called => (checkCall_blocks called).trans held) rfl ran
  have kept : block.findings.Forward := by
    intro other mem
    exact forward other (same ▸ mem)
  split at checked <;> cases checked
  · exact kept.addBlock ordered
  · exact kept

theorem checkSpans_forward {spans : List ProtocolSpan}
    (ordered : ∀ span ∈ spans, span.start ≤ span.stop) {findings next : Findings} (forward : findings.Forward)
    (checked : spans.foldlM (checkBlock lib tools dialect) findings = some next) : next.Forward :=
  foldlM_invariant Findings.Forward
    (fun span mem _ _ held called => checkBlock_forward (ordered span mem) held called) forward
    checked

theorem observeRejection_forward (forward : findings.Forward)
    (span : Nat × Nat) (dialect : TextToolDialect) (reason : TextToolRejectionReason)
    (names : List Text) : (findings.observeRejection span dialect reason names).Forward := forward

theorem observeMalformed_forward (forward : findings.Forward)
    (found : Option RejectedCandidate) : (observeMalformed found findings).Forward := by
  cases found with
  | none => exact forward
  | some candidate => exact observeRejection_forward forward _ _ _ _

theorem checkOpenings_forward (text : Text) (spans : List (Nat × Nat))
    (forward : findings.Forward) (toolName : Text) :
    (checkOpenings lib tools text spans findings toolName).Forward := by
  unfold checkOpenings
  dsimp only
  split
  · exact observeMalformed_forward forward _
  · exact forward

theorem checkAllOpenings_forward (text : Text) (spans : List (Nat × Nat))
    (forward : findings.Forward) (toolNames : List Text) :
    (toolNames.foldl (checkOpenings lib tools text spans) findings).Forward := by
  induction toolNames generalizing findings with
  | nil => exact forward
  | cons toolName rest ih => exact ih (checkOpenings_forward text spans forward toolName)

theorem checkPlain_forward {text : Text} {findings next : Findings} (forward : findings.Forward)
    (checked : checkPlain lib tools dialects text findings = some next) : next.Forward := by
  unfold checkPlain at checked
  split at checked
  next =>
    obtain ⟨⟨found, spans⟩, called, checked⟩ := Option.bind_eq_some_iff.mp checked
    cases checked
    have plain : found.Forward := by
      unfold checkPlainCall at called
      split at called
      next =>
        cases called
        exact forward
      next plain matched =>
        split at called <;> cases called
        · exact observeRejection_forward forward _ _ _ _
        · exact Findings.Forward.addBlock forward (plainTextToolMatch_le matched)
    exact checkAllOpenings_forward text spans plain _
  next =>
    cases checked
    exact forward

theorem findingsOf_forward {text : Text}
    (found : findingsOf lib tools dialects text = some findings) : findings.Forward := by
  obtain ⟨qwen, checkedQwen, found⟩ := Option.bind_eq_some_iff.mp found
  obtain ⟨minimax, checkedMinimax, found⟩ := Option.bind_eq_some_iff.mp found
  obtain ⟨plain, checkedPlain, found⟩ := Option.bind_eq_some_iff.mp found
  have one : qwen.Forward := by
    unfold checkQwen at checkedQwen
    split at checkedQwen
    next =>
      exact checkSpans_forward (scanProtocolSpans_le
        (fun _ _ parsed => qwenProtocolSpanAt_le parsed) _ _) empty_forward checkedQwen
    next =>
      cases checkedQwen
      exact empty_forward
  have two : minimax.Forward := by
    unfold checkMinimax at checkedMinimax
    split at checkedMinimax
    next =>
      exact checkSpans_forward (scanProtocolSpans_le
        (fun _ _ parsed => minimaxProtocolSpanAt_le parsed) _ _) one checkedMinimax
    next =>
      cases checkedMinimax
      exact one
  have three := checkPlain_forward two checkedPlain
  split at found
  next =>
    cases found
    exact observeMalformed_forward three _
  next =>
    cases found
    exact three

theorem terminalBlocks_subset (text : Text) (blocks : List BlockMatch) :
    terminalBlocks lib tools dialects text blocks ⊆ blocks := by
  unfold terminalBlocks
  dsimp only
  split
  next => exact List.nil_subset _
  split
  next => exact List.nil_subset _
  split
  next => exact List.nil_subset _
  next => exact fun block kept => List.mem_of_mem_drop ((List.dropWhile_sublist _).subset kept)

theorem sourceOf_rejectionSegments (text : Text) {reason : TextToolRejectionReason} {rejectedStart : Nat}
    (accepted : ∀ segment ∈ rejectionSegments tools text findings dialect reason rejectedStart,
      segment.isRejected = false) :
    sourceOf (rejectionSegments tools text findings dialect reason rejectedStart) = text := by
  unfold rejectionSegments at accepted ⊢
  split at accepted
  next embedded => simp [embedded, TextToolSegment.sourceText]
  next =>
    have bad := accepted _ (List.mem_append_right _ (List.mem_singleton_self _))
    cases bad

theorem sourceOf_layoutSegments (text : Text) {blocks : List BlockMatch}
    (forward : ∀ block ∈ blocks, block.start ≤ block.stop) :
    sourceOf (layoutSegments lib tools dialects text blocks) = text := by
  unfold layoutSegments
  dsimp only
  split
  next => exact sourceOf_literal text
  split
  next => exact sourceOf_literal text
  next kept =>
    rw [not_or, Bool.not_eq_true, Bool.not_eq_false'] at kept
    refine sourceOf_blockSegments text kept.2 fun block mem => forward block ?_
    exact (List.mem_insertionSort _).mp (terminalBlocks_subset text _ mem)

theorem sourceOf_classify {text : Text}
    (accepted : ∀ segment ∈ classifyTextToolSegments lib tools dialects text,
      segment.isRejected = false) :
    sourceOf (classifyTextToolSegments lib tools dialects text) = text := by
  unfold classifyTextToolSegments at accepted ⊢
  by_cases empty : text = []
  · simp [empty]
  by_cases inert : tools = [] ∨ dialects = ∅
  · simp [empty, inert, TextToolSegment.sourceText]
  simp only [empty, inert, if_false] at accepted ⊢
  cases found : findingsOf lib tools dialects text with
  | none => exact sourceOf_literal text
  | some findings =>
    simp only [found] at accepted ⊢
    split at accepted
    next => exact sourceOf_rejectionSegments text accepted
    next => exact sourceOf_layoutSegments text (findingsOf_forward found)

namespace TextToolStreamNormalizer

variable {settings : StreamSettings σ} {stream : TextToolStreamNormalizer}

def held (stream : TextToolStreamNormalizer) : Text := stream.lockedText ++ stream.pending

/-- What is withheld is a locked candidate or a pending tail, never both, and nothing at all once
calls are no longer looked for. -/
structure Coherent (settings : StreamSettings σ) (stream : TextToolStreamNormalizer) : Prop where
  chars : stream.lockedChars = stream.lockedText.length
  unlocked : stream.lockedKind = none → stream.lockedText = []
  locked : stream.lockedKind ≠ none → stream.pending = []
  inert : (settings.tools = [] ∧ settings.activeDialects = ∅) ∨ stream.synthesisDisabled = true →
    stream.held = []

-- The parts of the state that the context of a line is not.
def holdback (stream : TextToolStreamNormalizer) : Text × List Text × Nat × Option PendingKind × Bool :=
  (stream.pending, stream.lockedParts, stream.lockedChars, stream.lockedKind,
    stream.synthesisDisabled)

theorem held_of_holdback {next : TextToolStreamNormalizer} (same : next.holdback = stream.holdback) :
    next.held = stream.held := by
  simp only [holdback, Prod.mk.injEq] at same
  simp only [held, lockedText, same]

theorem coherent_of_holdback {next : TextToolStreamNormalizer}
    (same : next.holdback = stream.holdback) (coherent : stream.Coherent settings) :
    next.Coherent settings := by
  have heldSame := held_of_holdback same
  simp only [holdback, Prod.mk.injEq] at same
  obtain ⟨pending, parts, chars, kind, disabled⟩ := same
  refine ⟨?_, ?_, ?_, ?_⟩
  · rw [chars, lockedText, parts]
    exact coherent.chars
  · rw [kind, lockedText, parts]
    exact coherent.unlocked
  · rw [kind, pending]
    exact coherent.locked
  · rw [disabled, heldSame]
    exact coherent.inert

theorem holdback_markdownChar (stream : TextToolStreamNormalizer) (c : Char) :
    (stream.markdownChar c).holdback = stream.holdback := by
  unfold markdownChar
  split
  next => rfl
  split <;> rfl

theorem holdback_markdownChars (text : Text) (stream : TextToolStreamNormalizer) :
    (text.foldl markdownChar stream).holdback = stream.holdback := by
  induction text generalizing stream with
  | nil => rfl
  | cons c rest ih => exact (ih _).trans (holdback_markdownChar stream c)

theorem holdback_tracked (lib : Libraries σ) (pushed stream : TextToolStreamNormalizer) (text : Text) :
    (({ pushed with line := stream.line }.updateLineContext text).updateMarkdownContext lib
      text).holdback = pushed.holdback :=
  holdback_markdownChars _ _

-- A call that takes the text puts out or withholds all there is, in order.
structure Conserves (settings : StreamSettings σ) (before text : Text)
    (result : TextToolStreamNormalizer × List Text) : Prop where
  coherent : result.1.Coherent settings
  text : result.2.flatten ++ result.1.held = before ++ text

theorem appendLocked_conserves (coherent : stream.Coherent settings)
    (locked : stream.lockedKind ≠ none) (text : Text)
    (active : ¬((settings.tools = [] ∧ settings.activeDialects = ∅) ∨
      stream.synthesisDisabled = true)) :
    Conserves settings stream.held text (stream.appendLocked settings text) := by
  have pending := coherent.locked locked
  unfold appendLocked
  dsimp only
  split
  next =>
    refine ⟨⟨rfl, fun _ => rfl, fun some => absurd rfl some, fun _ => ?_⟩, ?_⟩
    · simp [held, lockedText, unlockLiteral, pending]
    · simp [held, lockedText, unlockLiteral, pending]
  next =>
    refine ⟨⟨?_, fun none => absurd none locked, fun _ => pending, fun inert => absurd inert active⟩, ?_⟩
    · have chars := coherent.chars
      simp only [lockedText, List.flatten_append, List.length_append] at chars ⊢
      simp [chars]
    · simp [held, lockedText, pending]

theorem lockCandidate_conserves (pending : stream.pending = []) (text : Text)
    (active : ¬((settings.tools = [] ∧ settings.activeDialects = ∅) ∨
      stream.synthesisDisabled = true)) (kind : PendingKind) :
    Conserves settings [] text (stream.lockCandidate settings text kind) := by
  have coherent : (stream.lock text kind).Coherent settings := by
    refine ⟨?_, nofun, fun _ => pending, fun inert => absurd inert active⟩
    simp [lock, lockedText]
  have heldText : (stream.lock text kind).held = text := by
    simp [held, lock, lockedText, pending]
  unfold lockCandidate
  dsimp only
  split
  next =>
    have appended := appendLocked_conserves coherent nofun [] active
    exact ⟨appended.coherent, appended.text.trans (by simp [heldText])⟩
  next => exact ⟨coherent, by simpa using heldText⟩

theorem withhold_conserves (coherent : stream.Coherent settings) (pending : stream.pending = [])
    (unlocked : stream.lockedKind = none) (combined : Text) (previousChar : Option Char) (found : PendingStart)
    (active : ¬((settings.tools = [] ∧ settings.activeDialects = ∅) ∨
      stream.synthesisDisabled = true)) :
    Conserves settings [] combined (stream.withhold settings combined previousChar found) := by
  have empty := coherent.unlocked unlocked
  have visible : (if combined.take found.start ≠ [] then [combined.take found.start]
      else []).flatten = combined.take found.start := by
    split
    next => simp
    next nothing => simp [not_not.mp nothing]
  unfold withhold
  dsimp only
  split
  iterate 2 next =>
    refine ⟨⟨coherent.chars, coherent.unlocked, fun some => absurd unlocked some,
      fun inert => absurd inert active⟩, ?_⟩
    rw [visible]
    simp only [held, lockedText] at empty ⊢
    rw [empty, List.nil_append, List.nil_append, List.take_append_drop]
  next =>
    have locked := lockCandidate_conserves pending (combined.drop found.start) active .protocol
    refine ⟨locked.coherent, ?_⟩
    rw [List.flatten_append, visible, List.append_assoc, locked.text, List.nil_append,
      List.nil_append, List.take_append_drop]

theorem dropPending_coherent (coherent : stream.Coherent settings) : stream.dropPending.Coherent settings where
  chars := coherent.chars
  unlocked := coherent.unlocked
  locked _ := rfl
  inert inert := by
    have nothing := coherent.inert inert
    simp only [held, List.append_eq_nil_iff] at nothing
    simp only [held, dropPending, List.append_nil]
    exact nothing.1

theorem pushUntracked_conserves (lib : Libraries σ) (coherent : stream.Coherent settings)
    (text : Text) : Conserves settings stream.held text (stream.pushUntracked lib settings text) := by
  unfold pushUntracked
  split
  next empty => exact ⟨coherent, by simp [empty]⟩
  split
  next inert => exact ⟨coherent, by simp [coherent.inert inert]⟩
  next active =>
    split
    next locked =>
      exact appendLocked_conserves coherent (Option.isSome_iff_ne_none.mp locked) text active
    next unlocked =>
      have none : stream.lockedKind = none := by simpa using unlocked
      have heldPending : stream.held = stream.pending := by
        rw [held, coherent.unlocked none, List.nil_append]
      have dropped := dropPending_coherent coherent
      rw [heldPending]
      dsimp only
      split
      next =>
        refine ⟨dropped, ?_⟩
        have nothing : stream.dropPending.held = [] := by
          simpa [held, dropPending, lockedText] using coherent.unlocked none
        simp [nothing]
      next found _ =>
        have moved := withhold_conserves dropped rfl none (stream.pending ++ text)
          (if stream.pending ≠ [] then stream.pendingPreviousChar else stream.lastRawChar) found
          active
        exact ⟨moved.coherent, moved.text⟩

theorem push_conserves (lib : Libraries σ) (coherent : stream.Coherent settings) (text : Text) :
    Conserves settings stream.held text (stream.push lib settings text) := by
  have pushed := pushUntracked_conserves lib coherent text
  have same : (stream.push lib settings text).1.holdback =
      (stream.pushUntracked lib settings text).1.holdback := by
    unfold push
    dsimp only
    split
    all_goals exact holdback_tracked lib _ _ _
  refine ⟨coherent_of_holdback same pushed.coherent, ?_⟩
  rw [held_of_holdback same]
  exact pushed.text

theorem pushAll_conserves (lib : Libraries σ) (coherent : stream.Coherent settings) (texts : List Text) :
    Conserves settings stream.held texts.flatten (stream.pushAll lib settings texts) := by
  induction texts generalizing stream with
  | nil => exact ⟨coherent, by simp [pushAll]⟩
  | cons text rest ih =>
    have first := push_conserves lib coherent text
    have later := ih first.coherent
    refine ⟨later.coherent, ?_⟩
    simp only [pushAll, List.flatten_append, List.flatten_cons, List.append_assoc]
    rw [later.text, ← List.append_assoc, first.text, List.append_assoc]

theorem fresh_coherent : ({} : TextToolStreamNormalizer).Coherent settings :=
  ⟨rfl, fun _ => rfl, fun _ => rfl, fun _ => rfl⟩

theorem length_held (coherent : stream.Coherent settings) : stream.held.length = stream.heldChars := by
  rw [held, List.length_append, heldChars, coherent.chars]

theorem sourceOf_finish (coherent : stream.Coherent settings) (successfulTextToolTerminal : Bool)
    (accepted : ∀ segment ∈ stream.finish lib settings successfulTextToolTerminal,
      segment.isRejected = false) :
    sourceOf (stream.finish lib settings successfulTextToolTerminal) = stream.held := by
  have withheld : (if stream.lockedKind.isSome then stream.lockedText else stream.pending) =
      stream.held := by
    split
    next locked =>
      rw [held, coherent.locked (Option.isSome_iff_ne_none.mp locked), List.append_nil]
    next unlocked =>
      rw [held, coherent.unlocked (by simpa using unlocked), List.nil_append]
  unfold finish at accepted ⊢
  rw [withheld] at accepted ⊢
  dsimp only at accepted ⊢
  split at accepted
  next empty => simp [empty]
  next nonempty =>
    rw [if_neg nonempty]
    split at accepted
    next literal => simp [literal, TextToolSegment.sourceText]
    next classified =>
      rw [if_neg classified]
      exact sourceOf_classify accepted

/-- The text put out so far is what was pushed but for the withheld end, and the finished stream
gives that end back unless a call in it is rejected. -/
theorem stream_conserves (lib : Libraries σ) (settings : StreamSettings σ) (texts : List Text)
    (successfulTextToolTerminal : Bool) :
    (∃ withheld, texts.flatten = (pushAll lib settings {} texts).2.flatten ++ withheld ∧
        withheld.length = (pushAll lib settings {} texts).1.heldChars) ∧
      ((∀ segment ∈ (pushAll lib settings {} texts).1.finish lib settings successfulTextToolTerminal,
          segment.isRejected = false) →
        (pushAll lib settings {} texts).2.flatten ++
            sourceOf ((pushAll lib settings {} texts).1.finish lib settings
              successfulTextToolTerminal) =
          texts.flatten) := by
  have fresh : ({} : TextToolStreamNormalizer).Coherent settings := fresh_coherent
  have pushed := pushAll_conserves lib fresh texts
  constructor
  · exact ⟨_, pushed.text.symm, length_held pushed.coherent⟩
  · intro accepted
    rw [sourceOf_finish pushed.coherent successfulTextToolTerminal accepted]
    exact pushed.text

-- ASCII letters, no JSON, and arguments taken as they are.
def asciiLibraries : Libraries Unit where
  unicode := ⟨Char.isAlphanum, List.map Char.toLower⟩
  json := ⟨fun _ _ _ _ => none, fun _ => none, fun _ => true, nofun⟩
  checkArguments _ arguments _ := some arguments

def qwenSettings : StreamSettings Unit := ⟨[⟨"f".toList, ()⟩], {.qwenTag}, 256000⟩

def splitCall : List Text :=
  ["hi\n<tool_".toList, "call><function=f></function></tool_call>".toList]

theorem stream_conserves_splitCall : (pushAll asciiLibraries qwenSettings {} splitCall).2.flatten ++
        sourceOf ((pushAll asciiLibraries qwenSettings {} splitCall).1.finish asciiLibraries
          qwenSettings true) =
      splitCall.flatten :=
  (stream_conserves asciiLibraries qwenSettings splitCall true).2 (by decide +kernel)

end TextToolStreamNormalizer

end OpenSquilla.TextTools
