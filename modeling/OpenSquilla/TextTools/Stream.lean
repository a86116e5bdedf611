import OpenSquilla.TextTools.Classify

set_option autoImplicit false

namespace OpenSquilla.TextTools

open TextLines (Text)
open TextScan (isSpace)

/-- The state machine of one provider call in which no native tool call is observed. -/
structure TextToolStreamNormalizer where
  -- the tail that may yet become a candidate
  pending : Text := []
  pendingPreviousChar : Option Char := none
  pendingStandalone : Bool := true
  lockedParts : List Text := []
  lockedChars : Nat := 0
  lockedKind : Option PendingKind := none
  synthesisDisabled : Bool := false
  line : LineContext := {}
  markdownFence : Text := []
  markdownLinePrefix : Text := []
  markdownLineTruncated : Bool := false
  rawHtmlState : RawHtmlState := {}
  lastRawChar : Option Char := none

structure StreamSettings (σ : Type) where
  tools : List (ToolDefinition σ)
  dialects : Finset TextToolDialect
  maxCandidateChars : Int

namespace StreamSettings

variable {σ : Type} (settings : StreamSettings σ)

def activeDialects : Finset TextToolDialect :=
  if settings.tools ≠ [] then settings.dialects else ∅

def allowedToolNames : List Text := settings.tools.map ToolDefinition.name

def candidateLimit : Nat := (max 1 settings.maxCandidateChars).toNat

end StreamSettings

def LineContext.advance (line : LineContext) (c : Char) : LineContext :=
  if isNewline c then {}
  else if line.hasNonSpace then line
  else if c = '\t' then { line with indented := true, hasNonSpace := true }
  else if c = ' ' then
    { line with
      leadingSpaces := line.leadingSpaces + 1
      indented := line.indented || decide (4 ≤ line.leadingSpaces + 1) }
  else { line with hasNonSpace := true }

namespace TextToolStreamNormalizer

variable {σ : Type} (lib : Libraries σ) (settings : StreamSettings σ)

def updateLineContext (stream : TextToolStreamNormalizer) (text : Text) : TextToolStreamNormalizer :=
  { stream with line := text.foldl LineContext.advance stream.line }

def finishMarkdownLine (stream : TextToolStreamNormalizer) : TextToolStreamNormalizer :=
  let marker := markdownFenceMarker stream.markdownLinePrefix
  let remainder := ((fenceMatch stream.markdownLinePrefix).map fun found =>
    stream.markdownLinePrefix.drop found.2).getD []
  let fence :=
    if stream.markdownFence ≠ [] then
      if closesFence stream.markdownFence marker remainder && !stream.markdownLineTruncated then []
      else stream.markdownFence
    else marker
  { stream with markdownFence := fence, markdownLinePrefix := [], markdownLineTruncated := false }

def markdownChar (stream : TextToolStreamNormalizer) (c : Char) : TextToolStreamNormalizer :=
  if isNewline c then stream.finishMarkdownLine
  else if stream.markdownLinePrefix.length < 256 then
    { stream with markdownLinePrefix := stream.markdownLinePrefix ++ [c] }
  else { stream with markdownLineTruncated := true }

def syntaxPrefix (fence linePrefix : Text) : Text :=
  if fence ≠ [] then fence ++ '\n' :: linePrefix else linePrefix

def updateMarkdownContext (stream : TextToolStreamNormalizer) (text : Text) : TextToolStreamNormalizer :=
  let before := syntaxPrefix stream.markdownFence stream.markdownLinePrefix
  let syntaxRanges := fun value =>
    projectCodeRanges (markdownSyntaxCodeRanges (before ++ value) 0 false) before.length text.length
  let trailing := stream.rawHtmlState.trailingToken
  let scanRaw := fun value =>
    let scanned := scanRawHtmlCodeRanges lib.unicode (trailing ++ value)
      (stateWithoutTrailing stream.rawHtmlState)
    (projectCodeRanges scanned.1 trailing.length text.length, scanned.2)
  let provisional := scanRaw (maskRanges text (syntaxRanges text))
  let scanned := scanRaw (maskRanges text (syntaxRanges (maskRanges text provisional.1)))
  (maskRanges text scanned.1).foldl markdownChar { stream with rawHtmlState := scanned.2 }

def markdownContextPrefix (stream : TextToolStreamNormalizer) (withheld : Text) : Text :=
  let linePrefix := stream.markdownLinePrefix
  let before :=
    if withheld ≠ [] ∧ withheld.isSuffixOf linePrefix then
      linePrefix.take (linePrefix.length - withheld.length)
    else linePrefix
  syntaxPrefix stream.markdownFence before

def lockedText (stream : TextToolStreamNormalizer) : Text := stream.lockedParts.flatten

def heldChars (stream : TextToolStreamNormalizer) : Nat :=
  stream.lockedChars + stream.pending.length

def unlockLiteral (stream : TextToolStreamNormalizer) : TextToolStreamNormalizer :=
  { stream with lockedParts := [], lockedChars := 0, lockedKind := none }

def appendLocked (stream : TextToolStreamNormalizer) (text : Text) : TextToolStreamNormalizer × List Text :=
  let stream := { stream with
    lockedParts := stream.lockedParts ++ [text], lockedChars := stream.lockedChars + text.length }
  if settings.candidateLimit < stream.lockedChars then
    ({ stream.unlockLiteral with synthesisDisabled := true }, [stream.lockedText])
  else (stream, [])

def lock (stream : TextToolStreamNormalizer) (text : Text) (kind : PendingKind) : TextToolStreamNormalizer :=
  { stream with lockedParts := [text], lockedChars := text.length, lockedKind := some kind }

def dropPending (stream : TextToolStreamNormalizer) : TextToolStreamNormalizer :=
  { stream with pending := [], pendingPreviousChar := none, pendingStandalone := true }

def finderContext (stream : TextToolStreamNormalizer) (previousChar : Option Char) : FinderContext where
  line := stream.line
  previousChar := previousChar
  markdownContext := stream.markdownContextPrefix stream.pending
  rawHtmlState := stream.rawHtmlState
  rawTrailingAlreadyIncluded := stream.pending
  prevalidatedPrefixChars := stream.pending.length
  prevalidatedStandalone := stream.pendingStandalone

def lockCandidate (stream : TextToolStreamNormalizer) (text : Text) (kind : PendingKind) :
    TextToolStreamNormalizer × List Text :=
  let stream := stream.lock text kind
  if settings.candidateLimit < stream.lockedChars then stream.appendLocked settings []
  else (stream, [])

-- Withhold the combined text from where a candidate starts.
def withhold (stream : TextToolStreamNormalizer) (combined : Text) (previousChar : Option Char)
    (found : PendingStart) : TextToolStreamNormalizer × List Text :=
  let visible := combined.take found.start
  let tail := combined.drop found.start
  let output := if visible ≠ [] then [visible] else []
  match found.kind with
  | .withheld | .withheldLiteral =>
    ({ stream with
        pending := tail
        pendingPreviousChar := if found.start ≠ 0 then combined[found.start - 1]? else previousChar
        pendingStandalone := found.kind = .withheld }, output)
  | .protocol =>
    let locked := stream.lockCandidate settings tail .protocol
    (locked.1, output ++ locked.2)

def pushUntracked (stream : TextToolStreamNormalizer) (text : Text) : TextToolStreamNormalizer × List Text :=
  if text = [] then (stream, [])
  else if (settings.tools = [] ∧ settings.activeDialects = ∅) ∨ stream.synthesisDisabled then
    (stream, [text])
  else if stream.lockedKind.isSome then stream.appendLocked settings text
  else
    let combined := stream.pending ++ text
    let previousChar :=
      if stream.pending ≠ [] then stream.pendingPreviousChar else stream.lastRawChar
    match findPendingStart lib.unicode settings.activeDialects settings.allowedToolNames true
      (stream.finderContext previousChar) combined with
    | none => (stream.dropPending, [combined])
    | some found => stream.dropPending.withhold settings combined previousChar found

def push (stream : TextToolStreamNormalizer) (text : Text) : TextToolStreamNormalizer × List Text :=
  let pushed := stream.pushUntracked lib settings text
  let tracked := ({ pushed.1 with line := stream.line }.updateLineContext text).updateMarkdownContext
    lib text
  (if text ≠ [] then { tracked with lastRawChar := text.getLast? } else tracked, pushed.2)

def pushAll : TextToolStreamNormalizer → List Text → TextToolStreamNormalizer × List Text
  | stream, [] => (stream, [])
  | stream, text :: rest =>
    let pushed := stream.push lib settings text
    let later := pushAll pushed.1 rest
    (later.1, pushed.2 ++ later.2)

def finish (successfulTextToolTerminal : Bool) (stream : TextToolStreamNormalizer) : List TextToolSegment :=
  let pending := if stream.lockedKind.isSome then stream.lockedText else stream.pending
  if pending = [] then []
  else if !successfulTextToolTerminal || stream.synthesisDisabled then [.literal pending]
  else classifyTextToolSegments lib settings.tools settings.activeDialects pending

end TextToolStreamNormalizer

end OpenSquilla.TextTools
