import Mathlib.Data.Finset.Basic
import OpenSquilla.TextTools.Markdown

set_option autoImplicit false

namespace OpenSquilla.TextTools

open TextLines (Text)
open TextScan (isSpace)

inductive TextToolDialect
  | minimaxXml
  | plainJson
  | qwenTag
  deriving DecidableEq

def plainToolInterstitialWhitespaceMax : Nat := 8

abbrev Pattern := Text → Nat → Option Nat

/-- The letters that case folding makes one of an ASCII letter, besides its own two cases. -/
def foldsTo (letter : Char) : List Char :=
  if letter = 'i' then ['İ', 'ı'] else if letter = 'k' then ['\u212a'] else
    if letter = 's' then ['ſ'] else []

def sameIgnoringCase (letter c : Char) : Bool :=
  letter.toLower = c.toLower || (foldsTo letter.toLower).contains c

def literal (letters : Text) : Pattern := fun text position =>
  let there := slice text position (position + letters.length)
  if there.length = letters.length ∧ (List.zipWith sameIgnoringCase letters there).all id then
    some (position + letters.length)
  else none

-- The first match that starts at the position or later, as its start and its end.
def Pattern.search (pattern : Pattern) (text : Text) : Nat → Nat → Option (Nat × Nat)
  | 0, _ => none
  | fuel + 1, position =>
    if text.length < position then none
    else
      match pattern text position with
      | some stop => some (position, stop)
      | none => pattern.search text fuel (position + 1)

def Pattern.findIterFrom (pattern : Pattern) (text : Text) : Nat → Nat → List (Nat × Nat)
  | 0, _ => []
  | fuel + 1, position =>
    match pattern.search text (text.length + 1) position with
    | none => []
    | some found => found :: pattern.findIterFrom text fuel (max found.2 (found.1 + 1))

-- The matches from left to right, none overlapping another.
def Pattern.findIter (pattern : Pattern) (text : Text) : List (Nat × Nat) :=
  pattern.findIterFrom text (text.length + 1) 0

def qwenToolCallOpen : Pattern := literal "<tool_call>".toList
def minimaxToolCallOpen : Pattern := literal "<minimax:tool_call>".toList

def structuredToolScaffoldOpen (unicode : Unicode) : Pattern := fun text position =>
  (literal "<details><summary>View areas around line".toList text position).filter fun stop =>
    match text[stop]? with
    | none => true
    | some c => !(unicode.isAlnum c || c = '_')

def isToolNameChar (c : Char) : Bool :=
  c.isAlphanum || c = '_' || c = '.' || c = ':' || c = '-'

def isHorizontal (c : Char) : Bool := c = ' ' || c = '\t'

def braceAfter (text : Text) (position : Nat) : Option Nat :=
  let blanks := ((text.drop position).takeWhile isHorizontal).length
  if blanks ≤ plainToolInterstitialWhitespaceMax ∧ text[position + blanks]? = some '\x7b' then
    some (position + blanks)
  else none

-- A tool's own name, not as the end of a longer one, and an opening brace.
def namedCall (toolName : Text) : Pattern := fun text position =>
  if (position ≠ 0 ∧ (text[position - 1]?).any isToolNameChar) ∨
      !toolName.isPrefixOf (text.drop position) then none
  else (braceAfter text (position + toolName.length)).map (· + 1)

def canonicalQwenPrefix : Text := "<tool_call>".toList
def canonicalMinimaxPrefix : Text := "<minimax:tool_call>".toList
def canonicalScaffoldPrefix : Text := "<details><summary>view areas around line".toList

structure FinderContext where
  line : LineContext := {}
  previousChar : Option Char := none
  markdownContext : Text := []
  rawHtmlState : RawHtmlState := {}
  rawTrailingAlreadyIncluded : Text := []
  -- what was withheld before: its start was judged when it arrived
  prevalidatedPrefixChars : Nat := 0
  prevalidatedStandalone : Bool := true

inductive PendingKind
  | withheld
  | withheldLiteral
  | protocol
  deriving DecidableEq

structure PendingStart where
  start : Nat
  kind : PendingKind

variable (unicode : Unicode) (dialects : Finset TextToolDialect) (allowedToolNames : List Text)

def staticCandidatePrefixes (includeStructuredScaffold : Bool) : List Text :=
  (if TextToolDialect.qwenTag ∈ dialects then [canonicalQwenPrefix] else []) ++
    (if TextToolDialect.minimaxXml ∈ dialects then [canonicalMinimaxPrefix] else []) ++
    if includeStructuredScaffold then [canonicalScaffoldPrefix] else []

def longest (texts : List Text) : Nat := (texts.map List.length).foldl max 0

def startsStandalone (context : FinderContext) (text : Text) (position : Nat) : Bool :=
  if position < context.prevalidatedPrefixChars then context.prevalidatedStandalone
  else candidateStartsOnStandaloneLine text position context.line

-- The rest of the text may yet become a call of the tool.
def beginsNamedCall (toolName suffix : Text) : Bool :=
  suffix.isPrefixOf toolName ||
    (toolName.isPrefixOf suffix &&
      (suffix.drop toolName.length).length ≤ plainToolInterstitialWhitespaceMax &&
      (suffix.drop toolName.length).all isHorizontal)

def beginsCandidate (includeStructuredScaffold : Bool) (context : FinderContext) (text : Text)
    (index : Nat) : Bool :=
  let lowerSuffix := (unicode.lower text).drop index
  let preceding := if index = 0 then context.previousChar else text[index - 1]?
  (staticCandidatePrefixes dialects includeStructuredScaffold).any (lowerSuffix.isPrefixOf ·) ||
    (TextToolDialect.plainJson ∈ dialects && !preceding.any isToolNameChar &&
      allowedToolNames.any (beginsNamedCall · (text.drop index)))

def findPartialSuffix (includeStructuredScaffold : Bool) (codeRanges : List MarkdownCodeRange)
    (context : FinderContext) (text : Text) : Option PendingStart :=
  let reach := max (longest (staticCandidatePrefixes dialects includeStructuredScaffold))
    (longest allowedToolNames + plainToolInterstitialWhitespaceMax)
  let start := text.length - reach
  ((List.range text.length).find? fun index =>
      start ≤ index && !positionIsInCode index codeRanges &&
        beginsCandidate unicode dialects allowedToolNames includeStructuredScaffold context text
          index).map fun index =>
    ⟨index, if startsStandalone context text index then .withheld else .withheldLiteral⟩

def firstStandalone (codeRanges : List MarkdownCodeRange) (context : FinderContext) (text : Text)
    (found : List (Nat × Nat)) : List PendingStart :=
  ((found.find? fun span =>
    !positionIsInCode span.1 codeRanges && startsStandalone context text span.1).map
      fun span => ⟨span.1, .protocol⟩).toList

def namedCallsFrom (context : FinderContext) (text toolName : Text) : List (Nat × Nat) :=
  ((namedCall toolName).findIter text).filter fun span =>
    !(span.1 = 0 && context.previousChar.any isToolNameChar)

def earliest : List PendingStart → Option PendingStart
  | [] => none
  | first :: rest =>
    some (rest.foldl (fun best other => if other.start < best.start then other else best) first)

def findPendingStart (includeStructuredScaffold : Bool) (context : FinderContext) (text : Text) :
    Option PendingStart :=
  let codeRanges := contextualMarkdownCodeRanges unicode text context.markdownContext
    context.line.leadingSpaces context.line.indented context.rawHtmlState
    context.rawTrailingAlreadyIncluded
  let patterns : List Pattern :=
    (if TextToolDialect.qwenTag ∈ dialects then [qwenToolCallOpen] else []) ++
      (if TextToolDialect.minimaxXml ∈ dialects then [minimaxToolCallOpen] else []) ++
      if includeStructuredScaffold then [structuredToolScaffoldOpen unicode] else []
  let protocols := patterns.flatMap fun pattern =>
    firstStandalone codeRanges context text (pattern.findIter text)
  let named :=
    if TextToolDialect.plainJson ∈ dialects then
      allowedToolNames.flatMap fun toolName =>
        firstStandalone codeRanges context text (namedCallsFrom context text toolName)
    else []
  let withheld := findPartialSuffix unicode dialects allowedToolNames includeStructuredScaffold
    codeRanges context text
  if text = [] then none else earliest (protocols ++ named ++ withheld.toList)

end OpenSquilla.TextTools
