import Mathlib.Data.Finset.Defs
import Mathlib.Data.List.Infix
import OpenSquilla.Shared.Dict
import OpenSquilla.Shared.JsonDumps

set_option autoImplicit false

namespace OpenSquilla.Projections

open TextLines TextScan JsonText

def argumentFieldMaxChars : Nat := 2048

def argumentTotalMaxChars : Nat := 4096

def resultMaxChars : Nat := 4096

def resultPreviewChars : Nat := 480

def argumentProjectionMark : Text := "[historical_tool_argument_omitted]".toList

def resultProjectionMark : Text := "[tool_result_projection]".toList

def aggregateProjectionMark : Text := "[aggregate_tool_result_compacted]".toList

def resultCompactedMark : Text := "[historical_tool_result_compacted]".toList

def projectionHeaderPrefixes : List Text :=
  ["tool_result_handle:", "sha256:", "original_chars:", "preview_complete:", "retrieve_hint:", "search_hints:",
    "signal_scan:", "signal_next_call:"].map String.toList

inductive Raised
  -- of a lone surrogate
  | unicodeEncodeError
  -- of an integer with too many digits
  | valueError

inductive LoadsError
  -- `JSONDecodeError` or `RecursionError`
  | caught
  | valueError

/-- What is used of the standard library: the JSON reader and the digests. -/
structure Libraries (F : Type) where
  floats : Floats F
  loads : Str → Except LoadsError (Json F)
  sha256 : List UInt8 → Text
  sha256_hex : ∀ bytes, (sha256 bytes).length = 64 ∧ ∀ c ∈ sha256 bytes, isHexDigit c = true

def encodeUtf8 : Str → Except Raised (List UInt8)
  | [] => return []
  | .char c :: rest => do return String.utf8EncodeChar c ++ (← encodeUtf8 rest)
  | .surrogate _ :: _ => throw .unicodeEncodeError

structure ToolUse (F : Type) where
  id : Text
  name : Text
  input : Dict Str (Json F)

inductive ResultContent (F : Type)
  | text (content : Str)
  | items (content : List (Json F))

structure ToolResult (F : Type) where
  toolUseId : Text
  content : ResultContent F
  isError : Bool
  executionStatus : Json F

inductive Block (F : Type)
  | toolUse (block : ToolUse F)
  | toolResult (block : ToolResult F)
  -- the other kinds, as they are dumped
  | other (payload : Json F)

inductive MessageContent (F : Type)
  | text (content : Text)
  | blocks (content : List (Block F))

inductive Role
  | user
  | assistant
  deriving DecidableEq

structure Message (F : Type) where
  role : Role
  content : MessageContent F
  reasoningContent : Option Text
  providerReplay : Option (Json F)

section Payloads

variable {F : Type}

def str (text : Text) : Json F := .scalar (.str (asStr text))

def named (name : String) : Str := asStr name.toList

def ToolUse.payload (block : ToolUse F) : Json F :=
  .object [(named "type", str "tool_use".toList), (named "id", str block.id), (named "name", str block.name),
    (named "input", .object block.input.entries)]

def ResultContent.payload : ResultContent F → Json F
  | text content => .scalar (.str content)
  | items content => .array content

def ToolResult.payload (block : ToolResult F) : Json F :=
  .object [(named "type", str "tool_result".toList), (named "tool_use_id", str block.toolUseId),
    (named "content", block.content.payload), (named "is_error", .scalar (.bool block.isError)),
    (named "execution_status", block.executionStatus)]

def Block.payload : Block F → Json F
  | toolUse block => block.payload
  | toolResult block => block.payload
  | other payload => payload

def MessageContent.payload : MessageContent F → Json F
  | text content => str content
  | blocks content => .array (content.map Block.payload)

def Role.text : Role → Text
  | user => "user".toList
  | assistant => "assistant".toList

def Message.payload (message : Message F) : Json F :=
  .object ([(named "role", str message.role.text), (named "content", message.content.payload)] ++
    (message.reasoningContent.toList.map fun reasoning => (named "reasoning_content", str reasoning)) ++
    message.providerReplay.toList.map fun replay => (named "provider_replay", replay))

def Scalar.isWritable : Scalar F → Bool
  | .int value => (Nat.toDigits 10 value.natAbs).length ≤ maxStrDigits
  | _ => true

-- No integer in it has too many digits.
def isWritable : Json F → Bool :=
  Json.fold Scalar.isWritable (fun items => items.all id) (fun fields => fields.all Prod.snd)

variable (lib : Libraries F)

def jsonText (value : Json F) : Except Raised Str :=
  if isWritable value then return dumpsPoints lib.floats value else throw .valueError

def jsonChars (value : Json F) : Except Raised Nat := do return (← jsonText lib value).length

def sessionPayloadChars (messages : List (Message F)) : Except Raised Nat :=
  jsonChars lib (.array (messages.map Message.payload))

end Payloads

section Texts

-- `text[:head]`, `text[-tail:]` and how many characters stand between them.
def headTail (text : Text) (budget : Nat) : Text × Text × Nat :=
  if text.length ≤ budget then (text, [], 0)
  else
    (text.take (max 1 (budget / 2)), text.drop (text.length - max 1 (budget - max 1 (budget / 2))),
      text.length - max 1 (budget / 2) - max 1 (budget - max 1 (budget / 2)))

def quotedLines (head tail : Text) : List Text :=
  ["head:".toList, head] ++ if tail ≠ [] ∧ tail ≠ head then ["...".toList, "tail:".toList, tail] else []

variable {F : Type} (lib : Libraries F)

def valueText : Json F → Except Raised Str
  | .scalar (.str points) => return points
  | value => jsonText lib value

def argumentLines (toolName toolUseId : Text) (field : Str) (value : Text) (originalInputChars : Nat)
    (digest : Text) : List Str :=
  let (head, tail, omitted) := headTail value resultPreviewChars
  [asStr argumentProjectionMark,
    asStr ("tool: ".toList ++ toolName),
    asStr ("tool_use_id: ".toList ++ toolUseId),
    asStr "field: ".toList ++ field,
    asStr ("original_chars: ".toList ++ Nat.toDigits 10 value.length),
    asStr ("original_input_chars: ".toList ++ Nat.toDigits 10 originalInputChars),
    asStr ("sha256: ".toList ++ digest),
    asStr ("omitted_chars: ".toList ++ Nat.toDigits 10 omitted),
    asStr "reason: historical tool argument omitted from later-turn provider replay.".toList] ++
    (quotedLines head tail).map asStr

-- What has been encoded has no lone surrogate, and is as it is shown.
def toolArgumentProjection (toolName toolUseId : Text) (field value : Str) (originalInputChars : Nat) :
    Except Raised Str := do
  let digest := lib.sha256 (← encodeUtf8 value)
  return joinPoints (argumentLines toolName toolUseId field (shownText value) originalInputChars digest)

def compactedLines (text label : Text) (metadata : List (Text × Text)) (digest : Text) : List Text :=
  let (head, tail, omitted) := headTail text resultPreviewChars
  ["[".toList ++ label ++ "_compacted]".toList,
    "original_chars: ".toList ++ Nat.toDigits 10 text.length,
    "sha256: ".toList ++ digest,
    "omitted_chars: ".toList ++ Nat.toDigits 10 omitted,
    "reason: historical payload omitted from later-turn provider replay.".toList] ++
    (metadata.insertionSort fun first second => first.1 ≤ second.1).map
      (fun entry => entry.1 ++ ": ".toList ++ entry.2) ++
    quotedLines head tail

def compactHistoricalText (text : Str) (label : Text) (metadata : List (Text × Text)) : Except Raised Text := do
  let digest := lib.sha256 (← encodeUtf8 text)
  return joinLines (compactedLines (shownText text) label metadata digest)

def isKeptLine (line : Text) : Bool :=
  projectionHeaderPrefixes.any (·.isPrefixOf (strip line)) || "- L".toList.isPrefixOf (strip line)

def compactHistoricalToolResultProjection (text : Str) (toolUseId : Text) : Except Raised Text := do
  let digest := lib.sha256 (← encodeUtf8 text)
  let lines := splitLines (shownText text)
  let compactedBody ← compactHistoricalText lib text "historical_tool_result_projection_body".toList
    [("tool_use_id".toList, toolUseId)]
  return joinLines (lines.take 1 ++ (lines.drop 1).filter isKeptLine ++
    ["historical_replay_projection: recoverability header preserved; projected body compacted.".toList,
      "historical_replay_sha256: ".toList ++ digest, compactedBody])

end Texts

section References

variable {F : Type} (lib : Libraries F)

def isHandle (text : Text) : Bool :=
  "tr-".toList.isPrefixOf text && (text.drop 3).length == 32 && (text.drop 3).all isHexDigit

def isSha256 (text : Text) : Bool := text.length == 64 && text.all isHexDigit

def partition (mark : Char) : Text → Option (Text × Text)
  | [] => none
  | c :: rest => if c = mark then some ([], rest) else (partition mark rest).map fun cut => (c :: cut.1, cut.2)

def lineField (line : Text) : Option (Text × Text) :=
  (partition ':' line).map fun cut => (strip cut.1, strip cut.2)

def field (lines : List Text) (key : Text) : Text := ((lines.filterMap lineField).lookup key).getD []

def checkedReference (handle sha256 : Text) : Option (Text × Text) :=
  if isHandle handle && isSha256 sha256 then some (handle, sha256) else none

def isProjection (content : Text) : Bool :=
  (resultProjectionMark ++ ['\n']).isPrefixOf content || (aggregateProjectionMark ++ ['\n']).isPrefixOf content

def isCompacted (content : Text) : Bool := (resultCompactedMark ++ ['\n']).isPrefixOf content

def isJsonBlank (c : Char) : Bool := " \t\r\n".toList.contains c

def isBraced (content : Text) : Bool :=
  let inner := (content.dropWhile isJsonBlank).rdropWhile isJsonBlank
  inner.head? == some '\x7b' && inner.getLast? == some '\x7d'

def envelopeMarkers : List Text :=
  ["\"result_truncated\"", "\"retrieve_hint\"", "\"tool_result_handle\"",
    "\"tool_result_sha256\""].map String.toList

def truthy : Json F → Bool
  | .scalar .null => false
  | .scalar (.bool value) => value
  | .scalar (.int value) => value ≠ 0
  | .scalar (.float value) => !(["0.0".toList, "-0.0".toList].contains (lib.floats.repr value).text)
  | .scalar (.str points) => points ≠ []
  | .array items => !items.isEmpty
  | .object fields => !fields.isEmpty

def fieldsReference (fields : List (Str × Json F)) : Option (Text × Text) :=
  match fields.lookup (named "result_truncated"), fields.lookup (named "retrieve_hint"),
      fields.lookup (named "tool_result_handle"), fields.lookup (named "tool_result_sha256") with
  | some (.scalar (.bool true)), some hint, some (.scalar (.str handle)), some (.scalar (.str sha256)) =>
    if truthy lib hint then checkedReference (strip (shownText handle)) (strip (shownText sha256)) else none
  | _, _, _, _ => none

def envelopeReference (content : Str) : Except Raised (Option (Text × Text)) :=
  match lib.loads content with
  | .ok (.object fields) => return fieldsReference lib fields
  | .ok _ => return none
  | .error .caught => return none
  | .error .valueError => throw .valueError

-- A lone surrogate is neither blank nor a line break nor part of what is looked for.
def recoverableToolResultReference (content : Str) : Except Raised (Option (Text × Text)) :=
  let shown := shownText content
  let lines := (splitLines shown).drop 1
  if isProjection shown then
    return checkedReference (field lines "tool_result_handle".toList) (field lines "sha256".toList)
  else if isCompacted shown then
    return checkedReference (field lines "tool_result_handle".toList) (field lines "tool_result_sha256".toList)
  else if !isBraced shown then return none
  else if ∃ marker ∈ envelopeMarkers, ¬marker <:+: shown then return none
  else envelopeReference lib content

end References

section Projecting

variable {F : Type} (lib : Libraries F)

def isLongString : Json F → Bool
  | .scalar (.str points) => argumentFieldMaxChars < points.length
  | _ => false

-- The field, or the note in its place, and whether it has changed.
def projectField (block : ToolUse F) (inputChars : Nat) (field : Str × Json F) :
    Except Raised ((Str × Json F) × Bool) := do
  let text ← valueText lib field.2
  if argumentFieldMaxChars < text.length then
    let note ← toolArgumentProjection lib block.name block.id field.1 text inputChars
    return ((field.1, .scalar (.str note)), true)
  else return (field, false)

def sortedKeys (keys : List Str) : List Str := keys.insertionSort KeyLe

def markInput (block : ToolUse F) (inputChars : Nat) (input : Dict Str (Json F)) : Dict Str (Json F) :=
  ((((input.set (named "_opensquilla_compacted_tool_arguments") (.scalar (.bool true))).set
    (named "tool") (str block.name)).set
    (named "reason") (str "historical_tool_arguments_omitted".toList)).set
    (named "original_chars") (.scalar (.int inputChars))).set
    (named "argument_keys") (.array ((sortedKeys block.input.keys).map fun key => .scalar (.str key)))

def projectHistoricalToolUse (block : ToolUse F) : Except Raised (ToolUse F × Bool) := do
  let inputChars ← jsonChars lib (.object block.input.entries)
  if inputChars ≤ argumentTotalMaxChars ∧ block.input.values.any isLongString = false then
    return (block, false)
  else
    let fields ← block.input.entries.mapM (projectField lib block inputChars)
    let input := Dict.ofList (fields.map Prod.fst)
    let changed := fields.any Prod.snd
    return (⟨block.id, block.name, if changed then input else markInput block inputChars input⟩, true)

variable (references : Finset (Text × Text))

def resultText : ResultContent F → Except Raised Str
  | .text content => return content
  | .items content => jsonText lib (.array content)

def projectHistoricalToolResult (block : ToolResult F) : Except Raised (ToolResult F × Bool) := do
  let content ← resultText lib block.content
  if content.length ≤ resultMaxChars then return (block, false)
  else
    match ← recoverableToolResultReference lib content with
    | none => return (block, false)
    | some reference =>
      if reference ∉ references then return (block, false)
      else if isProjection (shownText content) then
        let compacted ← compactHistoricalToolResultProjection lib content block.toolUseId
        return ({ block with content := .text (asStr compacted) }, true)
      else
        let compacted ← compactHistoricalText lib content "historical_tool_result".toList
          [("retrieve_hint".toList,
              "Use retrieve_tool_result with this handle to inspect the original raw output.".toList),
            ("tool_result_handle".toList, reference.1),
            ("tool_result_sha256".toList, reference.2),
            ("tool_use_id".toList, block.toolUseId)]
        return ({ block with content := .text (asStr compacted) }, true)

structure Counts where
  toolUsesProjected : Nat
  toolResultsProjected : Nat
  reasoningCharsRemoved : Nat

def Counts.add (first second : Counts) : Counts :=
  ⟨first.toolUsesProjected + second.toolUsesProjected, first.toolResultsProjected + second.toolResultsProjected,
    first.reasoningCharsRemoved + second.reasoningCharsRemoved⟩

def projectBlock : Block F → Except Raised (Block F × Counts)
  | .toolUse block => do
    let (next, changed) ← projectHistoricalToolUse lib block
    return (.toolUse next, ⟨changed.toNat, 0, 0⟩)
  | .toolResult block => do
    let (next, changed) ← projectHistoricalToolResult lib references block
    return (.toolResult next, ⟨0, changed.toNat, 0⟩)
  | .other payload => return (.other payload, ⟨0, 0, 0⟩)

def projectBlocks : List (Block F) → Except Raised (List (Block F) × Counts)
  | [] => return ([], ⟨0, 0, 0⟩)
  | block :: rest => do
    let (next, counts) ← projectBlock lib references block
    let (nextRest, later) ← projectBlocks rest
    return (next :: nextRest, counts.add later)

-- The blocks, where one of them has changed.
def projectContent : MessageContent F → Except Raised (MessageContent F × Counts)
  | .text content => return (.text content, ⟨0, 0, 0⟩)
  | .blocks content => do
    let (blocks, counts) ← projectBlocks lib references content
    let contentChanged := counts.toolUsesProjected + counts.toolResultsProjected ≠ 0
    return (.blocks (if contentChanged then blocks else content), counts)

def projectMessage (preserveReasoningContent : Bool) (message : Message F) :
    Except Raised (Message F × Counts) := do
  let (content, counts) ← projectContent lib references message.content
  let removed :=
    message.role = .assistant ∧ message.reasoningContent.getD [] ≠ [] ∧ preserveReasoningContent = false
  return (⟨message.role, content, if removed then none else message.reasoningContent, message.providerReplay⟩,
    ⟨counts.toolUsesProjected, counts.toolResultsProjected,
      if removed then (message.reasoningContent.getD []).length else 0⟩)

structure HistoricalReplayProjectionResult where
  messagesIn : Nat
  messagesOut : Nat
  payloadCharsBefore : Nat
  payloadCharsAfter : Nat
  counts : Counts

def projectHistoricalToolPayloads (messages : List (Message F)) (preserveReasoningContent : Bool) :
    Except Raised (List (Message F) × HistoricalReplayProjectionResult) := do
  let payloadCharsBefore ← sessionPayloadChars lib messages
  let steps ← messages.mapM (projectMessage lib references preserveReasoningContent)
  let projected := steps.map Prod.fst
  let payloadCharsAfter ← sessionPayloadChars lib projected
  return (projected,
    { messagesIn := messages.length
      messagesOut := projected.length
      payloadCharsBefore := payloadCharsBefore
      payloadCharsAfter := payloadCharsAfter
      counts := (steps.map Prod.snd).foldl Counts.add ⟨0, 0, 0⟩ })

end Projecting

end OpenSquilla.Projections
