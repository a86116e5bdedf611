import OpenSquilla.Histories.TranscriptSegments

set_option autoImplicit false

namespace OpenSquilla.Histories

open RaisingRuns TextLines TextScan

structure ReconstructedMessage extends ReplayMessage where
  reasoningContent : Option String

structure Sanitized where
  content : JsonValue
  segments : Option (List JsonValue)

variable (lib : ReplayLibrary)

def silentReplySentinels : List String := ["NO_REPLY", "HEARTBEAT_OK"]

def normalizeSilentReply (text : String) : String :=
  if silentReplySentinels.any fun sentinel => strip text.toList = sentinel.toList then "" else text

def segmentText? (segment : JsonValue) : Option String :=
  if segmentType segment = some "text" then (segment.get "text").str? else none

def sanitizeSegments (segments : List JsonValue) : List JsonValue :=
  let raw := String.join (segments.filterMap segmentText?)
  if normalizeSilentReply raw = raw then segments
  else segments.filter fun segment => (segmentText? segment).isNone

def setText (fields : List (String × JsonValue)) (key : String) : List (String × JsonValue) :=
  fields.map fun (name, value) =>
    match value with
    | .str text => (name, if name = key then .str (normalizeSilentReply text) else value)
    | value => (name, value)

def sanitizePayload (fields : List (String × JsonValue)) : List (String × JsonValue) :=
  setText (setText fields "display_text") "text"

def textField (payload : JsonValue) (key : String) : Option String := (payload.get key).str?

def payloadChanged (payload : JsonValue) : Bool :=
  ["display_text", "text"].any fun key =>
    (textField payload key).any fun text => normalizeSilentReply text ≠ text

def sanitizeContent (content : JsonValue) : JsonValue :=
  match content with
  | .str text =>
    if (text.toList.dropWhile isSpace).head? = some '\x7b' then
      match lib.loads text with
      | some (.object fields) =>
        if (textField (.object fields) "text").isSome ∨
            (textField (.object fields) "display_text").isSome then
          if payloadChanged (.object fields) then
            .str (lib.dumps (.object (sanitizePayload fields)))
          else content
        else .str (normalizeSilentReply text)
      | _ => .str (normalizeSilentReply text)
    else .str (normalizeSilentReply text)
  | .object fields =>
    if payloadChanged content then .object (sanitizePayload fields) else content
  | content => content

def sanitizeHistoricalSilentReply (content : JsonValue) (segments : Option (List JsonValue)) : Sanitized :=
  ⟨sanitizeContent lib content, segments.map sanitizeSegments⟩

structure Replaying where
  messages : List ReplayMessage
  pendingAssistant : List ReplayBlock
  pendingResults : List ReplayBlock

namespace Replaying

def flush (replaying : Replaying) : Replaying where
  messages :=
    let messages :=
      if replaying.pendingAssistant.isEmpty then replaying.messages
      else replaying.messages ++ [⟨.assistant, .blocks replaying.pendingAssistant⟩]
    if replaying.pendingResults.isEmpty then messages
    else messages ++ [⟨.user, .blocks replaying.pendingResults⟩]
  pendingAssistant := []
  pendingResults := []

def add (replaying : Replaying) (block : ReplayBlock) : Replaying :=
  if block.toolResultId?.isSome then
    { replaying with pendingResults := replaying.pendingResults ++ [block] }
  else
    -- what comes after a result begins the next iteration
    let replaying := if replaying.pendingResults.isEmpty then replaying else replaying.flush
    { replaying with pendingAssistant := replaying.pendingAssistant ++ [block] }

end Replaying

def replaySegments (replaying : Replaying) : List JsonValue → Except ReplayError Replaying
  | [] => .ok replaying
  | segment :: rest => do
    let read ← readSegment lib segment
    replaySegments (read.elim replaying replaying.add) rest

def ReplayBlock.text? : ReplayBlock → Option String
  | .text held => some held
  | _ => none

def ReplayMessage.hasText (message : ReplayMessage) : Bool :=
  message.role = .assistant && message.content.list.any (·.text?.isSome)

-- Changes the first element that has the property, if there is one.
def modifyFirst {α : Type} (chosen : α → Bool) (change : α → α) : List α → List α
  | [] => []
  | first :: rest =>
    if chosen first then change first :: rest else first :: modifyFirst chosen change rest

def isAssistant (message : ReplayMessage) : Bool := message.role = .assistant

def prependText (text : String) (message : ReplayMessage) : ReplayMessage :=
  match message.content with
  | .blocks held => { message with content := .blocks (.text text :: held) }
  | .text _ => message

def preserveContent (content : JsonValue) (messages : List ReplayMessage) : List ReplayMessage :=
  match content with
  | .str text =>
    if strip text.toList = [] ∨ messages.any (·.hasText) then messages
    else if messages.any isAssistant then modifyFirst isAssistant (prependText text) messages
    else if messages.isEmpty then [⟨.assistant, .text text⟩]
    else messages
  | _ => messages

def artifactMarker : String := "[generated artifact omitted:"

def artifactMarkers (text : String) : List Text :=
  ((splitLines text.toList).map strip).filter fun line => artifactMarker.toList.isPrefixOf line

def hasBlocks (message : ReplayMessage) : Bool :=
  match message.content with
  | .blocks _ => message.role = .assistant
  | .text _ => false

def appendMarkers (markers : String) (message : ReplayMessage) : ReplayMessage :=
  let existing := "\n".intercalate (message.content.list.filterMap (·.text?))
  if markers.toList <:+: existing.toList then message
  else { message with content := .blocks (message.content.list ++ [.text markers]) }

def addArtifactMarkers (content : JsonValue) (messages : List ReplayMessage) : List ReplayMessage :=
  match content with
  | .str text =>
    if artifactMarker.toList <:+: text.toList then
      let markers := artifactMarkers text
      let text := "\n".intercalate (markers.map String.ofList)
      if markers.isEmpty then messages
      else if messages.any hasBlocks then
        (modifyFirst hasBlocks (appendMarkers text) messages.reverse).reverse
      else if messages.isEmpty then [⟨.assistant, .text text⟩]
      else messages
    else messages
  | _ => messages

def withReasoning (reasoningContent : Option String) (messages : List ReplayMessage) :
    List ReconstructedMessage :=
  let plain := messages.map fun message => ⟨message, none⟩
  match reasoningContent with
  | none | some "" => plain
  | some reasoning =>
    modifyFirst (fun message => isAssistant message.toReplayMessage)
      (fun message => { message with reasoningContent := some reasoning }) plain

def contentOf (content : JsonValue) : Except ReplayError ReplayContent :=
  match content with
  | .str text => .ok (.text text)
  | content => orRaise (lib.validateContent content) .validation

def reconstructMessagesFromEntry (sanitize : JsonValue → Option (List JsonValue) → Sanitized)
    (role : String) (content : JsonValue) (toolCalls : Option (List JsonValue))
    (reasoningContent : Option String) : Except ReplayError (List ReconstructedMessage) :=
  if role ≠ "user" ∧ role ≠ "assistant" then .ok []
  else if role = "user" then
    -- the sanitizer leaves a user row as it is
    if content.truthy then
      (contentOf lib content).map fun content => [⟨⟨.user, content⟩, none⟩]
    else .ok []
  else
    let left := sanitize content toolCalls
    match left.segments.getD [] with
    | [] =>
      if left.content.truthy then
        (contentOf lib left.content).map fun content =>
          [⟨⟨.assistant, content⟩, reasoningContent⟩]
      else .ok []
    | segments =>
      (replaySegments lib ⟨[], [], []⟩ segments).map fun replaying =>
        withReasoning reasoningContent
          (addArtifactMarkers left.content
            (preserveContent left.content replaying.flush.messages))

section Replaying

namespace Replaying

-- The blocks so far, in the order of the messages they are or will be in.
def blocks (replaying : Replaying) : List ReplayBlock :=
  replaying.messages.flatMap (·.content.list) ++ replaying.pendingAssistant ++
    replaying.pendingResults

theorem flush_blocks (replaying : Replaying) :
    replaying.flush.messages.flatMap (·.content.list) = replaying.blocks := by
  unfold flush blocks
  cases replaying.pendingAssistant <;> cases replaying.pendingResults <;>
    simp [ReplayContent.list]

theorem add_blocks (replaying : Replaying) (block : ReplayBlock) :
    (replaying.add block).blocks = replaying.blocks ++ [block] := by
  unfold add
  split
  next => exact (List.append_assoc _ _ _).symm
  next =>
    dsimp only
    split
    next empty =>
      unfold blocks
      rw [List.isEmpty_iff.mp empty, List.append_nil, List.append_nil, List.append_assoc]
    next =>
      have flushed := replaying.flush_blocks
      unfold blocks at flushed ⊢
      rw [← flushed]
      exact List.append_nil _

end Replaying

-- A message of one iteration: the results of a user, or what an assistant said.
def OneSided (message : ReplayMessage) : Prop :=
  ∃ blocks, message.content = .blocks blocks ∧ blocks ≠ [] ∧
    ∀ block ∈ blocks, block.toolResultId?.isSome = true ↔ message.role = .user

structure Replaying.Sound (replaying : Replaying) : Prop where
  sided : ∀ message ∈ replaying.messages, OneSided message
  alternate : replaying.messages.IsChain fun message next => message.role ≠ next.role
  -- a flush ends with the results, and the next iteration has begun by then
  begun : ∀ message ∈ replaying.messages.getLast?,
    message.role = .user ∧ replaying.pendingAssistant ≠ []
  assistant : ∀ block ∈ replaying.pendingAssistant, block.toolResultId?.isSome = false
  results : ∀ block ∈ replaying.pendingResults, block.toolResultId?.isSome = true

theorem oneSided_assistant {blocks : List ReplayBlock} (some : blocks ≠ [])
    (each : ∀ block ∈ blocks, block.toolResultId?.isSome = false) : OneSided ⟨.assistant, .blocks blocks⟩ :=
  ⟨blocks, rfl, some, fun block mem =>
    iff_of_false (by rw [each block mem]; exact Bool.false_ne_true) Role.noConfusion⟩

theorem oneSided_user {blocks : List ReplayBlock} (some : blocks ≠ [])
    (each : ∀ block ∈ blocks, block.toolResultId?.isSome = true) : OneSided ⟨.user, .blocks blocks⟩ :=
  ⟨blocks, rfl, some, fun block mem => iff_of_true (each block mem) rfl⟩

theorem Replaying.Sound.flush {replaying : Replaying} (sound : replaying.Sound) :
    (∀ message ∈ replaying.flush.messages, OneSided message) ∧
      (replaying.flush.messages.IsChain fun message next => message.role ≠ next.role) ∧
      (replaying.pendingResults ≠ [] →
        ∀ message ∈ replaying.flush.messages.getLast?, message.role = .user) := by
  -- first the assistant's message
  have first : ∃ messages,
      (if replaying.pendingAssistant.isEmpty then replaying.messages
        else replaying.messages ++ [⟨.assistant, .blocks replaying.pendingAssistant⟩]) = messages ∧
      (∀ message ∈ messages, OneSided message) ∧
      (messages.IsChain fun message next => message.role ≠ next.role) ∧
      ∀ message ∈ messages.getLast?, message.role = .assistant := by
    refine ⟨_, rfl, ?_⟩
    split
    next empty =>
      refine ⟨sound.sided, sound.alternate, ?_⟩
      intro message last
      exact absurd (List.isEmpty_iff.mp empty) (sound.begun message last).2
    next full =>
      refine ⟨?_, ?_, ?_⟩
      · intro message mem
        obtain old | new := List.mem_append.mp mem
        · exact sound.sided message old
        · rw [List.mem_singleton.mp new]
          exact oneSided_assistant (fun empty => full (List.isEmpty_iff.mpr empty)) sound.assistant
      · rw [List.isChain_append]
        refine ⟨sound.alternate, List.isChain_singleton _, ?_⟩
        intro message last next head
        cases head
        rw [(sound.begun message last).1]
        exact Role.noConfusion
      · intro message last
        rw [List.getLast?_concat] at last
        cases last
        rfl
  obtain ⟨messages, built, sided, alternate, ends⟩ := first
  unfold Replaying.flush
  dsimp only
  rw [built]
  split
  next empty =>
    refine ⟨sided, alternate, ?_⟩
    intro full
    exact absurd (List.isEmpty_iff.mp empty) full
  next full =>
    refine ⟨?_, ?_, ?_⟩
    · intro message mem
      obtain old | new := List.mem_append.mp mem
      · exact sided message old
      · rw [List.mem_singleton.mp new]
        exact oneSided_user (fun empty => full (List.isEmpty_iff.mpr empty)) sound.results
    · rw [List.isChain_append]
      refine ⟨alternate, List.isChain_singleton _, ?_⟩
      intro message last next head
      cases head
      rw [ends message last]
      exact Role.noConfusion
    · intro _ message last
      rw [List.getLast?_concat] at last
      cases last
      rfl

theorem Replaying.Sound.add {replaying : Replaying} (sound : replaying.Sound)
    (block : ReplayBlock) : (replaying.add block).Sound := by
  unfold Replaying.add
  split
  next result =>
    refine { sound with results := ?_ }
    intro other mem
    obtain old | new := List.mem_append.mp mem
    · exact sound.results other old
    · rw [List.mem_singleton.mp new]
      exact result
  next said =>
    have said := Bool.not_eq_true _ ▸ said
    dsimp only
    split
    next =>
      refine { sound with begun := ?_, assistant := ?_ }
      · intro message last
        exact ⟨(sound.begun message last).1, List.concat_ne_nil _ _⟩
      · intro other mem
        obtain old | new := List.mem_append.mp mem
        · exact sound.assistant other old
        · rw [List.mem_singleton.mp new]
          exact said
    next results =>
      obtain ⟨sided, alternate, ends⟩ := sound.flush
      refine ⟨sided, alternate, ?_, ?_, List.forall_mem_nil _⟩
      · intro message last
        refine ⟨ends (fun empty => results (List.isEmpty_iff.mpr empty)) message last, ?_⟩
        exact List.concat_ne_nil _ _
      · exact List.forall_mem_singleton.mpr said

variable {lib}

theorem replaySegments_sound {segments : List JsonValue} {replaying replayed : Replaying}
    (ran : replaySegments lib replaying segments = .ok replayed) (sound : replaying.Sound) :
    replayed.Sound ∧ ∃ blocks, replayed.blocks = replaying.blocks ++ blocks ∧
      List.Forall₂ (Carries lib) (segments.filter (ValidSegment ·)) blocks := by
  induction segments generalizing replaying with
  | nil =>
    cases ran
    exact ⟨sound, [], (List.append_nil _).symm, .nil⟩
  | cons segment rest ih =>
    obtain ⟨read, one, ran⟩ := of_bind_ok ran
    obtain ⟨valid, block, rfl, carries⟩ | ⟨invalid, rfl⟩ := readSegment_cases one
    · obtain ⟨after, blocks, built, each⟩ := ih ran (sound.add block)
      refine ⟨after, block :: blocks, ?_, ?_⟩
      · rw [built, Option.elim_some, Replaying.add_blocks, List.append_assoc]
        rfl
      · rw [List.filter_cons, if_pos (decide_eq_true valid)]
        exact .cons carries each
    · rw [List.filter_cons, if_neg (fun valid => invalid (of_decide_eq_true valid))]
      exact ih ran sound

theorem replaySegments_total (lib : ReplayLibrary) {segments : List JsonValue}
    (typed : ∀ segment ∈ segments, WellTyped segment) (replaying : Replaying) :
    ∃ replayed, replaySegments lib replaying segments = .ok replayed := by
  induction segments generalizing replaying with
  | nil => exact ⟨_, rfl⟩
  | cons segment rest ih =>
    rw [List.forall_mem_cons] at typed
    obtain ⟨read, one⟩ := readSegment_total lib typed.1
    obtain ⟨replayed, more⟩ := ih typed.2 (read.elim replaying replaying.add)
    refine ⟨replayed, ?_⟩
    unfold replaySegments
    rw [one]
    exact more

theorem exists_of_forall₂ {α β : Type} {R : α → β → Prop} {list : List α} {others : List β}
    (each : List.Forall₂ R list others) : ∀ value ∈ list, ∃ other ∈ others, R value other := by
  induction each with
  | nil => exact List.forall_mem_nil _
  | cons related _ ih =>
    rw [List.forall_mem_cons]
    refine ⟨⟨_, List.mem_cons_self, related⟩, ?_⟩
    intro value mem
    obtain ⟨other, later, related⟩ := ih value mem
    exact ⟨other, List.mem_cons_of_mem _ later, related⟩

theorem map_modifyFirst {α β : Type} {chosen : α → Bool} {change : α → α} {f : α → β}
    (same : ∀ value, f (change value) = f value) (list : List α) :
    (modifyFirst chosen change list).map f = list.map f := by
  induction list with
  | nil => rfl
  | cons first rest ih =>
    unfold modifyFirst
    split
    next => rw [List.map_cons, List.map_cons, same]
    next => rw [List.map_cons, List.map_cons, ih]

theorem map_withReasoning (reasoningContent : Option String) (messages : List ReplayMessage) :
    (withReasoning reasoningContent messages).map (·.toReplayMessage) = messages := by
  have plain : (messages.map fun message => (⟨message, none⟩ : ReconstructedMessage)).map
      (·.toReplayMessage) = messages := by
    rw [List.map_map]
    exact List.map_id messages
  unfold withReasoning
  dsimp only
  split
  next => exact plain
  next => exact plain
  next =>
    rw [map_modifyFirst]
    · exact plain
    · intro message
      rfl

theorem preserveContent_of_text {content : JsonValue} {messages : List ReplayMessage}
    (text : ∃ message ∈ messages, message.hasText = true) : preserveContent content messages = messages := by
  unfold preserveContent
  split
  next => rw [if_pos (Or.inr (List.any_eq_true.mpr text))]
  next => rfl

theorem addArtifactMarkers_of_none {content : JsonValue} (messages : List ReplayMessage)
    (none : ∀ text, content = .str text → ¬artifactMarker.toList <:+: text.toList) :
    addArtifactMarkers content messages = messages := by
  unfold addArtifactMarkers
  split
  next text => rw [if_neg (none text rfl)]
  next => rfl

theorem hasText_of_segment {segments : List JsonValue} {messages : List ReplayMessage}
    (carried : List.Forall₂ (Carries lib) (segments.filter (ValidSegment ·))
      (messages.flatMap (·.content.list)))
    (sided : ∀ message ∈ messages, OneSided message)
    (text : ∃ segment ∈ segments, ValidSegment segment ∧ segmentType segment = some "text") :
    ∃ message ∈ messages, message.hasText = true := by
  obtain ⟨segment, mem, valid, kind⟩ := text
  obtain ⟨block, held, carries⟩ := exists_of_forall₂ carried segment
    (List.mem_filter.mpr ⟨mem, decide_eq_true valid⟩)
  obtain ⟨message, here, inside⟩ := List.mem_flatMap.mp held
  refine ⟨message, here, ?_⟩
  obtain ⟨blocks, same, -, sides⟩ := sided message here
  rw [same] at inside
  have said : message.role = .assistant := by
    cases role : message.role with
    | assistant => rfl
    | user =>
      have result := (sides block inside).mpr role
      cases carries with
      | text => cases result
      | toolUse => cases result
      | toolResult kindHere => exact absurd (kind.symm.trans kindHere) (by decide)
  have isText : block.text?.isSome = true := by
    cases carries with
    | text => rfl
    | toolUse kindHere => exact absurd (kind.symm.trans kindHere) (by decide)
    | toolResult kindHere => exact absurd (kind.symm.trans kindHere) (by decide)
  unfold ReplayMessage.hasText
  rw [decide_eq_true said, same]
  exact List.any_eq_true.mpr ⟨block, inside, isText⟩

/-- What a row with text and without an artifact marker is rebuilt to, once the sanitizer has
left its segments. -/
theorem reconstruct_keeps_segments (lib : ReplayLibrary)
    (sanitize : JsonValue → Option (List JsonValue) → Sanitized) (content : JsonValue)
    (toolCalls : Option (List JsonValue)) (reasoningContent : Option String)
    (segments : List JsonValue) (left : (sanitize content toolCalls).segments = some segments)
    (text : ∃ segment ∈ segments, ValidSegment segment ∧ segmentType segment = some "text")
    (noMarker : ∀ text, (sanitize content toolCalls).content = .str text →
      ¬artifactMarker.toList <:+: text.toList) :
    ((∀ segment ∈ segments, WellTyped segment) →
      ∃ messages, reconstructMessagesFromEntry lib sanitize "assistant" content toolCalls
        reasoningContent = .ok messages) ∧
    ∀ messages, reconstructMessagesFromEntry lib sanitize "assistant" content toolCalls
        reasoningContent = .ok messages →
      List.Forall₂ (Carries lib) (segments.filter (ValidSegment ·))
        (messages.flatMap (·.content.list)) ∧
      (messages.IsChain fun message next => message.role ≠ next.role) ∧
      ∀ message ∈ messages, OneSided message.toReplayMessage := by
  have ran : reconstructMessagesFromEntry lib sanitize "assistant" content toolCalls
      reasoningContent = (replaySegments lib ⟨[], [], []⟩ segments).map fun replaying =>
        withReasoning reasoningContent
          (addArtifactMarkers (sanitize content toolCalls).content
            (preserveContent (sanitize content toolCalls).content replaying.flush.messages)) := by
    unfold reconstructMessagesFromEntry
    rw [if_neg (by decide), if_neg (by decide)]
    dsimp only
    rw [left, Option.getD_some]
    cases segments with
    | nil =>
      obtain ⟨segment, mem, -⟩ := text
      cases mem
    | cons first rest => rfl
  rw [ran]
  constructor
  · intro typed
    obtain ⟨replayed, one⟩ := replaySegments_total lib typed ⟨[], [], []⟩
    rw [one]
    exact ⟨_, rfl⟩
  · intro messages returned
    obtain ⟨replayed, one, rfl⟩ := of_map_ok returned
    have start : (⟨[], [], []⟩ : Replaying).Sound :=
      ⟨List.forall_mem_nil _, .nil, (fun _ last => nomatch last), List.forall_mem_nil _,
        List.forall_mem_nil _⟩
    obtain ⟨sound, blocks, built, carried⟩ := replaySegments_sound one start
    obtain ⟨sided, alternate, -⟩ := sound.flush
    have same : replayed.flush.messages.flatMap (·.content.list) = blocks := by
      rw [replayed.flush_blocks, built]
      rfl
    rw [← same] at carried
    rw [preserveContent_of_text (hasText_of_segment carried sided text),
      addArtifactMarkers_of_none _ noMarker]
    have kept := map_withReasoning reasoningContent replayed.flush.messages
    refine ⟨?_, ?_, ?_⟩
    · rw [← kept, List.flatMap_map] at carried
      exact carried
    · rw [← kept, List.isChain_map] at alternate
      exact alternate
    · rw [← kept, List.forall_mem_map] at sided
      exact sided

end Replaying

def plainLibrary : ReplayLibrary := ⟨fun _ => none, fun _ => "", fun _ => "", fun _ => none⟩

def textSegment (text : String) : JsonValue :=
  .object [("type", .str "text"), ("text", .str text)]

def callSegment (id name : String) : JsonValue :=
  .object [("type", .str "tool_use"), ("tool_use_id", .str id), ("name", .str name),
    ("input", .object [])]

def resultSegment (id result : String) : JsonValue :=
  .object [("type", .str "tool_result"), ("tool_use_id", .str id), ("result", .str result),
    ("is_error", .bool false)]

def callAndAnswer : List JsonValue :=
  [textSegment "look", callSegment "c1" "exec", resultSegment "c1" "ok", .object [],
    textSegment "done"]

theorem reconstruct_keeps_call_and_answer : (∃ messages, reconstructMessagesFromEntry plainLibrary
        (sanitizeHistoricalSilentReply plainLibrary) "assistant" (.str "done")
        (some callAndAnswer) none = .ok messages ∧
      messages.map (·.role) = [.assistant, .user, .assistant]) ∧
      ∀ messages, reconstructMessagesFromEntry plainLibrary
          (sanitizeHistoricalSilentReply plainLibrary) "assistant" (.str "done")
          (some callAndAnswer) none = .ok messages →
        List.Forall₂ (Carries plainLibrary)
            [textSegment "look", callSegment "c1" "exec", resultSegment "c1" "ok", textSegment "done"]
            (messages.flatMap (·.content.list)) ∧
          (messages.IsChain fun message next => message.role ≠ next.role) ∧
          ∀ message ∈ messages, OneSided message.toReplayMessage := by
  have left : sanitizeSegments callAndAnswer = callAndAnswer := by
    unfold sanitizeSegments
    dsimp only
    rw [if_pos (by decide)]
  have same : sanitizeContent plainLibrary (.str "done") = .str "done" := by
    unfold sanitizeContent
    dsimp only
    rw [if_neg (by decide)]
    exact congrArg JsonValue.str (by decide)
  have kept := reconstruct_keeps_segments plainLibrary (sanitizeHistoricalSilentReply plainLibrary)
    (.str "done") (some callAndAnswer) none callAndAnswer (congrArg some left)
    ⟨textSegment "look", List.mem_cons_self, by decide, by decide⟩
    (by
      intro text here
      cases same.symm.trans here
      decide)
  constructor
  · obtain ⟨messages, returned⟩ := kept.1 (by
      simp only [callAndAnswer, List.forall_mem_cons]
      exact ⟨⟨by decide, by decide⟩, ⟨by decide, by decide⟩, ⟨by decide, by decide⟩,
        ⟨by decide, by decide⟩, ⟨by decide, by decide⟩, List.forall_mem_nil _⟩)
    refine ⟨messages, returned, ?_⟩
    unfold reconstructMessagesFromEntry sanitizeHistoricalSilentReply at returned
    rw [if_neg (by decide), if_neg (by decide), same] at returned
    dsimp only [Option.map] at returned
    rw [left] at returned
    cases returned
    rfl
  · exact kept.2

-- the sanitizer drops a text that is just the token of a silent reply
theorem reconstruct_drops_silent_reply :
    ¬∀ (lib : ReplayLibrary) (content : JsonValue) (segments : List JsonValue)
      (messages : List ReconstructedMessage),
      (∃ segment ∈ segments, ValidSegment segment ∧ segmentType segment = some "text") →
      (∀ text, content = .str text → ¬artifactMarker.toList <:+: text.toList) →
      reconstructMessagesFromEntry lib (sanitizeHistoricalSilentReply lib) "assistant"
        content (some segments) none = .ok messages →
      List.Forall₂ (Carries lib) (segments.filter (ValidSegment ·))
        (messages.flatMap (·.content.list)) := by
  intro kept
  have dropped : sanitizeSegments [textSegment "NO_REPLY"] = [] := by
    unfold sanitizeSegments
    dsimp only
    rw [if_neg (by decide)]
    rfl
  have blank : sanitizeContent plainLibrary (.str "NO_REPLY") = .str "" := by
    unfold sanitizeContent
    dsimp only
    rw [if_neg (by decide)]
    exact congrArg JsonValue.str (by decide)
  have nothing := kept plainLibrary (.str "NO_REPLY") [textSegment "NO_REPLY"] []
    ⟨_, List.mem_cons_self, by decide, by decide⟩
    (by
      intro text same
      cases same
      decide)
    (by
      unfold reconstructMessagesFromEntry sanitizeHistoricalSilentReply
      rw [if_neg (by decide), if_neg (by decide), blank]
      dsimp only [Option.map]
      rw [dropped]
      rfl)
  cases nothing

end OpenSquilla.Histories
