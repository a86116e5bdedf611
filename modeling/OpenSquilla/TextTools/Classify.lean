import OpenSquilla.TextTools.Protocols

set_option autoImplicit false

namespace OpenSquilla.TextTools

open TextLines (Text)
open TextScan (isSpace strip)

inductive TextToolRejectionReason
  | textMalformed
  | textUnknownTool
  | textSchemaInvalid

structure SyntheticTextToolCall where
  toolName : Text
  arguments : Arguments
  dialect : TextToolDialect
  parseFormat : ParseFormat

inductive TextToolSegment
  | literal (text : Text)
  | synthetic (calls : List SyntheticTextToolCall) (sourceText : Text)
  | rejected (dialect : TextToolDialect) (reason : TextToolRejectionReason) (callCount : Nat)
      (recognizedToolNames : List Text)

structure ToolDefinition (σ : Type) where
  name : Text
  inputSchema : σ

def maxToolCalls : Nat := 256
def maxToolNameChars : Nat := 256

structure Libraries (σ : Type) where
  unicode : Unicode
  json : JsonLibrary
  -- the arguments in their canonical form, decoded and checked against the tool's schema
  checkArguments : ToolDefinition σ → Arguments → ParseFormat → Option Arguments

variable {σ : Type} (lib : Libraries σ) (tools : List (ToolDefinition σ))
variable (dialects : Finset TextToolDialect)

-- The last definition under a name counts, at the place of the first.
def toolsByName : Dict Text (ToolDefinition σ) :=
  Dict.ofList (tools.map fun tool => (tool.name, tool))

def boundedAllowlistedToolNames (names : List Text) : List Text :=
  (names.filter fun name => name ∈ (toolsByName tools).keys ∧ strip name ≠ [] ∧
    name.length ≤ maxToolNameChars).take maxToolCalls

def validatedCall (dialect : TextToolDialect) (call : RawTextToolCall) :
    Except (TextToolRejectionReason × List Text) SyntheticTextToolCall :=
  match (toolsByName tools).get? call.toolName with
  | none => .error (.textUnknownTool, [])
  | some tool =>
    match lib.checkArguments tool call.arguments call.parseFormat with
    | none => .error (.textSchemaInvalid, [call.toolName])
    | some arguments => .ok ⟨call.toolName, arguments, dialect, call.parseFormat⟩

def qwenCallArguments (fields : List (Text × Json)) : Option Json :=
  match (fields.lookup "arguments".toList).getD (.object []) with
  | .string encoded => lib.json.strictLoads encoded
  | other => some other

def isStrictObject : Option Json → Bool
  | some (.object arguments) => lib.json.isStrict (.object arguments)
  | _ => false

def qwenInvalidJsonArgumentsAt (text : Text) (start : Nat) : Option (Nat × List Text) := do
  let opened ← qwenToolCallOpen text start
  let cursor := skipWhitespace text opened
  if text[cursor]? ≠ some '\x7b' then none else
  let (value, bodyEnd) ← lib.json.rawDecode false true text cursor
  match value with
  | .object fields =>
    match fields.lookup "name".toList with
    | some (.string name) =>
      let names := boundedAllowlistedToolNames tools [strip name]
      if names = [] ∨ isStrictObject lib (qwenCallArguments lib fields) then none else
      let stop ← literal "</tool_call>".toList text (skipWhitespace text bodyEnd)
      return (stop, names)
    | _ => none
  | _ => none

def plainInvalidJsonArgumentsAt (text : Text) (start : Nat) (toolName : Text) : Option Nat := do
  let afterBrace ← namedCall toolName text start
  let (value, stop) ← lib.json.rawDecode false true text (afterBrace - 1)
  match value with
  | .object _ => if lib.json.isStrict value then none else some stop
  | _ => none

structure RejectedCandidate where
  start : Nat
  stop : Nat
  dialect : TextToolDialect
  names : List Text

def earliestRejected : List RejectedCandidate → Option RejectedCandidate
  | [] => none
  | first :: rest =>
    some (rest.foldl (fun best other => if other.start < best.start then other else best) first)

def rejectedArgumentCandidate (text : Text) : Option RejectedCandidate :=
  let codeRanges := markdownCodeRanges lib.unicode text
  let accepted := fun span : Nat × Nat =>
    !positionIsInCode span.1 codeRanges && candidateStartsOnStandaloneLine text span.1 {}
  let qwen :=
    if TextToolDialect.qwenTag ∈ dialects then
      ((qwenToolCallOpen.findIter text).filter accepted).findSome? fun span =>
        (qwenInvalidJsonArgumentsAt lib tools text span.1).map fun (stop, names) =>
          ⟨span.1, stop, .qwenTag, names⟩
    else none
  let plain :=
    if TextToolDialect.plainJson ∈ dialects then
      (toolsByName tools).keys.filterMap fun toolName =>
        (((namedCall toolName).findIter text).filter accepted).findSome? fun span =>
          (plainInvalidJsonArgumentsAt lib text span.1 toolName).map fun stop =>
            ⟨span.1, stop, .plainJson, boundedAllowlistedToolNames tools [toolName]⟩
    else []
  earliestRejected (qwen.toList ++ plain)

structure BlockMatch where
  start : Nat
  stop : Nat
  calls : List SyntheticTextToolCall

structure Findings where
  blocks : List BlockMatch := []
  rejection : Option (TextToolRejectionReason × TextToolDialect) := none
  rejectedStart : Option Nat := none
  rejectedSpans : List (Nat × Nat) := []
  recognizedToolNames : List Text := []

namespace Findings

def observeRejection (findings : Findings) (span : Nat × Nat) (dialect : TextToolDialect)
    (reason : TextToolRejectionReason) (names : List Text) : Findings :=
  { findings with
    rejection := some (findings.rejection.getD (reason, dialect))
    rejectedStart := some (findings.rejectedStart.elim span.1 (min · span.1))
    rejectedSpans :=
      if span ∈ findings.rejectedSpans then findings.rejectedSpans
      else findings.rejectedSpans ++ [span]
    recognizedToolNames := findings.recognizedToolNames ++ names }

def recognize (findings : Findings) (toolName : Text) : Findings :=
  { findings with recognizedToolNames := findings.recognizedToolNames ++ [toolName] }

def addBlock (findings : Findings) (block : BlockMatch) : Findings :=
  { findings with blocks := findings.blocks ++ [block] }

end Findings

structure BlockCalls where
  findings : Findings
  calls : List SyntheticTextToolCall := []
  spanRejected : Bool := false

-- `none` when the tool is unknown: then nothing of the text is a call.
def checkCall (dialect : TextToolDialect) (span : Nat × Nat) (block : BlockCalls)
    (raw : RawTextToolCall) : Option BlockCalls :=
  match validatedCall lib tools dialect raw with
  | .error (.textUnknownTool, _) => none
  | .error (reason, names) =>
    some { block with
      findings := block.findings.observeRejection span dialect reason names, spanRejected := true }
  | .ok call =>
    some { block with
      findings := block.findings.recognize call.toolName, calls := block.calls ++ [call] }

def checkBlock (dialect : TextToolDialect) (findings : Findings) (span : ProtocolSpan) : Option Findings := do
  let block ← span.calls.foldlM (checkCall lib tools dialect (span.start, span.stop))
    { findings := findings }
  if block.calls ≠ [] ∧ !block.spanRejected then
    return block.findings.addBlock ⟨span.start, span.stop, block.calls⟩
  else return block.findings

def checkQwen (text : Text) (findings : Findings) : Option Findings :=
  if TextToolDialect.qwenTag ∈ dialects then
    (scanProtocolSpans text qwenToolCallOpen (qwenProtocolSpanAt lib.json)
      (text.length + 1) 0).foldlM (checkBlock lib tools .qwenTag) findings
  else some findings

def checkMinimax (text : Text) (findings : Findings) : Option Findings :=
  if TextToolDialect.minimaxXml ∈ dialects then
    (scanProtocolSpans text minimaxToolCallOpen minimaxProtocolSpanAt
      (text.length + 1) 0).foldlM (checkBlock lib tools .minimaxXml) findings
  else some findings

def observeMalformed (found : Option RejectedCandidate) (findings : Findings) : Findings :=
  match found with
  | none => findings
  | some candidate =>
    findings.observeRejection (candidate.start, candidate.stop) candidate.dialect .textMalformed
      candidate.names

-- An opening that no plain span covers may be a call with invalid arguments.
def checkOpenings (text : Text) (spans : List (Nat × Nat)) (findings : Findings) (toolName : Text) : Findings :=
  let openings := ((namedCall toolName).findIter text).map Prod.fst
  if findings.rejection = none ∧ !openings.all fun opening => spans.any (inSpan opening) then
    observeMalformed (rejectedArgumentCandidate lib tools {.plainJson} text) findings
  else findings

-- The plain call that ends the text, and its span when it is valid.
def checkPlainCall (text : Text) (findings : Findings) : Option (Findings × List (Nat × Nat)) :=
  match plainTextToolMatch lib.json text [] with
  | none => some (findings, [])
  | some found =>
    match validatedCall lib tools .plainJson ⟨found.toolName, found.arguments, .json⟩ with
    | .error (.textUnknownTool, _) => none
    | .error (reason, names) =>
      some (findings.observeRejection (found.start, found.stop) .plainJson reason names, [])
    | .ok call =>
      some ((findings.recognize call.toolName).addBlock ⟨found.start, found.stop, [call]⟩,
        [(found.start, found.stop)])

def checkPlain (text : Text) (findings : Findings) : Option Findings :=
  if TextToolDialect.plainJson ∈ dialects then do
    let (findings, spans) ← checkPlainCall lib tools text findings
    return (toolsByName tools).keys.foldl (checkOpenings lib tools text spans) findings
  else some findings

def textRejectionSegments (text : Text) (start : Nat) (dialect : TextToolDialect)
    (reason : TextToolRejectionReason) (recognizedToolNames : List Text) (callCount : Nat) :
    List TextToolSegment :=
  (if 0 < start then [.literal (text.take start)] else []) ++
    [.rejected dialect reason callCount recognizedToolNames]

def BlockMatch.span (block : BlockMatch) : Nat × Nat := (block.start, block.stop)

def blocksInOrder : Nat → List BlockMatch → Bool
  | _, [] => true
  | cursor, block :: rest => cursor ≤ block.start && blocksInOrder block.stop rest

-- The first block that only white space and no code parts from the last one.
def firstTrailingBlock (text : Text) (codeRanges : List MarkdownCodeRange)
    (blocks : List BlockMatch) : Nat → Nat
  | 0 => 0
  | index + 1 =>
    match blocks[index]?, blocks[index + 1]? with
    | some previous, some current =>
      if positionIsInCode previous.start codeRanges ∨
          !blankBetween text previous.stop current.start then index + 1
      else firstTrailingBlock text codeRanges blocks index
    | _, _ => index + 1

-- The blocks at the end of the text that may be executed.
def terminalBlocks (text : Text) (blocks : List BlockMatch) : List BlockMatch :=
  let codeRanges := markdownCodeRanges lib.unicode
    (maskCandidateSpans text (blocks.map BlockMatch.span))
  match blocks.getLast? with
  | none => []
  | some last =>
    if positionIsInCode last.start codeRanges ∨ !candidateEndsOnStandaloneLine text last.stop ∨
        !(text.drop last.stop).all isSpace then []
    else
      let first := firstTrailingBlock text codeRanges blocks (blocks.length - 1)
      let kept := (blocks.drop first).dropWhile fun block =>
        !candidateStartsOnStandaloneLine text block.start {}
      let withheld := findPartialSuffix lib.unicode dialects (toolsByName tools).keys false
        codeRanges {} text
      if !standaloneCandidateLayout text (kept.map BlockMatch.span) ∨
          withheld.any fun found => !kept.any fun block => inSpan found.start block.span then []
      else kept

-- The blocks with the text between them, from a position on.
def blockSegments (text : Text) : Nat → List BlockMatch → List TextToolSegment
  | cursor, [] => if cursor < text.length then [.literal (text.drop cursor)] else []
  | cursor, block :: rest =>
    (if cursor < block.start then [.literal (slice text cursor block.start)] else []) ++
      .synthetic block.calls (slice text block.start block.stop) ::
        blockSegments text block.stop rest

def layoutSegments (text : Text) (blocks : List BlockMatch) : List TextToolSegment :=
  let blocks := blocks.insertionSort fun first second => spanOrder first.span second.span
  if !blocksInOrder 0 blocks then [.literal text]
  else
    let kept := terminalBlocks lib tools dialects text blocks
    if kept = [] ∨ !blocksInOrder 0 kept then [.literal text] else blockSegments text 0 kept

def rejectionSegments (text : Text) (findings : Findings) (dialect : TextToolDialect)
    (reason : TextToolRejectionReason) (rejectedStart : Nat) : List TextToolSegment :=
  if !standaloneCandidateLayout text
      (findings.rejectedSpans ++ findings.blocks.map BlockMatch.span) then [.literal text]
  else
    textRejectionSegments text
      ((findings.blocks.map BlockMatch.start).foldl min rejectedStart) dialect reason
      (boundedAllowlistedToolNames tools findings.recognizedToolNames)
      (max 1 findings.recognizedToolNames.length)

def findingsOf (text : Text) : Option Findings := do
  let findings ← checkQwen lib tools dialects text {}
  let findings ← checkMinimax lib tools dialects text findings
  let findings ← checkPlain lib tools dialects text findings
  if findings.rejection = none then
    return observeMalformed (rejectedArgumentCandidate lib tools dialects text) findings
  else return findings

def classifyTextToolSegments (text : Text) : List TextToolSegment :=
  if text = [] then []
  else if tools = [] ∨ dialects = ∅ then [.literal text]
  else
    match findingsOf lib tools dialects text with
    | none => [.literal text]
    | some findings =>
      match findings.rejection, findings.rejectedStart with
      | some (reason, dialect), some rejectedStart =>
        rejectionSegments tools text findings dialect reason rejectedStart
      | _, _ => layoutSegments lib tools dialects text findings.blocks

end OpenSquilla.TextTools
