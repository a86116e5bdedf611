import Mathlib.Data.List.Sort
import OpenSquilla.Shared.TextScan

set_option autoImplicit false

namespace OpenSquilla.TextTools

open TextLines (Text)
open TextScan (isSpace strip)

structure Unicode where
  isAlnum : Char → Bool
  -- a text may grow
  lower : Text → Text

structure MarkdownCodeRange where
  start : Nat
  stop : Nat
  closed : Bool
  deriving DecidableEq

def slice (text : Text) (start stop : Nat) : Text := (text.take stop).drop start

def isNewline (c : Char) : Bool := c = '\r' || c = '\n'

def inSpan (position : Nat) (span : Nat × Nat) : Bool := span.1 ≤ position && position < span.2

-- Hide the spans behind a character that is no white space, and keep the lines.
def maskCandidateSpans (text : Text) (spans : List (Nat × Nat)) : Text :=
  text.mapIdx fun index c => if spans.any (inSpan index) && !isNewline c then '\x00' else c

def MarkdownCodeRange.span (range : MarkdownCodeRange) : Nat × Nat := (range.start, range.stop)

def maskRanges (text : Text) (ranges : List MarkdownCodeRange) : Text :=
  maskCandidateSpans text (ranges.map MarkdownCodeRange.span)

def sortRanges (ranges : List MarkdownCodeRange) : List MarkdownCodeRange :=
  ranges.insertionSort fun first second => first.start ≤ second.start

def positionIsInCode (position : Nat) (ranges : List MarkdownCodeRange) : Bool :=
  ranges.any fun range => inSpan position range.span

def lineSpansFrom (lineStart cursor : Nat) : Text → List (Nat × Nat × Nat)
  | [] => if lineStart < cursor then [(lineStart, cursor, cursor)] else []
  | '\r' :: '\n' :: rest =>
    (lineStart, cursor, cursor + 2) :: lineSpansFrom (cursor + 2) (cursor + 2) rest
  | c :: rest =>
    if isNewline c then
      (lineStart, cursor, cursor + 1) :: lineSpansFrom (cursor + 1) (cursor + 1) rest
    else lineSpansFrom lineStart (cursor + 1) rest

-- Where each line starts, where its content ends and where it ends.
def markdownLineSpans (text : Text) : List (Nat × Nat × Nat) := lineSpansFrom 0 0 text

-- The marker of a fence line, and where it ends in the line.
def fenceMatch (line : Text) : Option (Text × Nat) :=
  let spaces := (line.takeWhile (· = ' ')).length
  let rest := line.drop spaces
  let ticks := rest.takeWhile (· = '`')
  let tildes := rest.takeWhile (· = '~')
  if 3 < spaces then none
  else if 3 ≤ ticks.length then some (ticks, spaces + ticks.length)
  else if 3 ≤ tildes.length then some (tildes, spaces + tildes.length)
  else none

def markdownFenceMarker (linePrefix : Text) : Text := ((fenceMatch linePrefix).map Prod.fst).getD []

/-- A fence is closed by a run of its own character that is as long, with nothing after it. -/
def closesFence (active marker remainder : Text) : Bool :=
  marker ≠ [] && marker.head? = active.head? && active.length ≤ marker.length &&
    remainder.all isSpace

structure FenceScan where
  ranges : List MarkdownCodeRange := []
  activeMarker : Text := []
  activeStart : Nat := 0

def fenceLine (text : Text) (scan : FenceScan) (span : Nat × Nat × Nat) : FenceScan :=
  let line := slice text span.1 span.2.1
  match fenceMatch line with
  | none => scan
  | some (marker, stop) =>
    if scan.activeMarker ≠ [] then
      if closesFence scan.activeMarker marker (line.drop stop) then
        { scan with
          ranges := scan.ranges ++ [⟨scan.activeStart, span.2.2, true⟩], activeMarker := [] }
      else scan
    else
      { scan with activeMarker := marker, activeStart := span.1 + (stop - marker.length) }

def fencedCodeRanges (text : Text) : List MarkdownCodeRange :=
  let scan := (markdownLineSpans text).foldl (fenceLine text) {}
  if scan.activeMarker ≠ [] then scan.ranges ++ [⟨scan.activeStart, text.length, false⟩]
  else scan.ranges

def rangeAt (ranges : List MarkdownCodeRange) (position : Nat) : Option MarkdownCodeRange :=
  ranges.find? fun range => inSpan position range.span

def runLength (text : Text) (position : Nat) : Nat :=
  ((text.drop position).takeWhile (· = '`')).length

-- The end of the next run of as many backticks outside the fences.
def closingRun (text : Text) (fenced : List MarkdownCodeRange) (delimiter : Nat) : Nat → Nat → Option Nat
  | 0, _ => none
  | fuel + 1, search =>
    if text.length ≤ search then none
    else
      match rangeAt fenced search with
      | some fence => closingRun text fenced delimiter fuel fence.stop
      | none =>
        if text[search]? = some '`' then
          if runLength text search = delimiter then some (search + delimiter)
          else closingRun text fenced delimiter fuel (search + runLength text search)
        else closingRun text fenced delimiter fuel (search + 1)

def inlineCodeRanges (text : Text) (fenced : List MarkdownCodeRange) : Nat → Nat → List MarkdownCodeRange
  | 0, _ => []
  | fuel + 1, index =>
    if text.length ≤ index then []
    else
      match rangeAt fenced index with
      | some fence => inlineCodeRanges text fenced fuel fence.stop
      | none =>
        if text[index]? = some '`' then
          let delimiter := runLength text index
          match closingRun text fenced delimiter (text.length + 1) (index + delimiter) with
          | none => [⟨index, text.length, false⟩]
          | some stop => ⟨index, stop, true⟩ :: inlineCodeRanges text fenced fuel stop
        else inlineCodeRanges text fenced fuel (index + 1)

def fencedOrInlineCodeRanges (text : Text) : List MarkdownCodeRange :=
  let fenced := fencedCodeRanges text
  sortRanges (fenced ++ inlineCodeRanges text fenced (text.length + 1) 0)

def rawHtmlTags : List Text :=
  ["pre".toList, "code".toList, "script".toList, "style".toList, "textarea".toList]

def rawHtmlCommentOpen : Text := "<!--".toList
def rawHtmlCommentClose : Text := "-->".toList
def rawHtmlTokenMaxChars : Nat := 4096
def rawHtmlMaxDepth : Nat := 32

structure RawHtmlState where
  tags : List Text := []
  inComment : Bool := false
  isOpaque : Bool := false
  trailingToken : Text := []
  deriving DecidableEq

structure HtmlTagScan where
  stop : Nat
  name : Text
  closing : Bool
  validNameBoundary : Bool
  complete : Bool
  oversized : Bool
  selfClosing : Bool := false
  exactClose : Bool := false

variable (unicode : Unicode)

-- The proper prefix of a comment's end that the text ends with.
def commentClosePartialSuffix (text : Text) : Text :=
  if ['-', '-'].isSuffixOf text then ['-', '-']
  else if ['-'].isSuffixOf text then ['-'] else []

def isTagNameChar (c : Char) : Bool := unicode.isAlnum c || c = '-' || c = '_' || c = ':'

/-- Where the tag is closed, its quotes respected; `none` when the text ends before it, and
`some none` when it is longer than a tag may be. -/
def closeOfTag (start : Nat) : Nat → Option Char → Text → Option (Option Nat)
  | _, _, [] => none
  | cursor, quote, c :: rest =>
    if rawHtmlTokenMaxChars ≤ cursor - start then some none
    else
      match quote with
      | some open_ => closeOfTag start (cursor + 1) (if c = open_ then none else some open_) rest
      | none =>
        if c = '"' ∨ c = '\'' then closeOfTag start (cursor + 1) (some c) rest
        else if c = '>' then some (some cursor)
        else closeOfTag start (cursor + 1) none rest

def scanTagName (text : Text) (start : Nat) (closing : Bool) (nameStart : Nat) : HtmlTagScan :=
  let word := (text.drop nameStart).takeWhile (isTagNameChar unicode)
  let name := unicode.lower word
  let nameEnd := nameStart + word.length
  let boundary :=
    match text[nameEnd]? with
    | none => true
    | some c => isSpace c || c = '/' || c = '>'
  match closeOfTag start nameEnd none (text.drop nameEnd) with
  | none => ⟨text.length, name, closing, boundary, false, false, false, false⟩
  | some none =>
    ⟨max nameEnd (start + rawHtmlTokenMaxChars), name, closing, boundary, false, true, false, false⟩
  | some (some cursor) =>
    let remainder := slice text nameEnd cursor
    { stop := cursor + 1, name := name, closing := closing, validNameBoundary := boundary
      complete := true, oversized := false
      selfClosing := !closing && (remainder.rdropWhile isSpace).getLast? = some '/'
      exactClose := closing && boundary && remainder.all isSpace }

def nameStartAt (text : Text) (start : Nat) : Nat :=
  if text[start + 1]? = some '/' then start + 2 else start + 1

def scanHtmlTagAt (text : Text) (start : Nat) : HtmlTagScan :=
  scanTagName unicode text start (text[start + 1]? = some '/') (nameStartAt text start)

def possibleRawOpenPartial (candidate : Text) (scan : HtmlTagScan) : Bool :=
  !scan.closing &&
    ((unicode.lower candidate).isPrefixOf rawHtmlCommentOpen ||
      if scan.name ≠ [] then rawHtmlTags.any fun tag => scan.name.isPrefixOf tag
      else rawHtmlTags.any fun tag => (unicode.lower candidate).isPrefixOf ('<' :: tag))

def confirmedRawOpen (scan : HtmlTagScan) : Bool :=
  !scan.closing && scan.validNameBoundary && rawHtmlTags.contains scan.name

def stateWithoutTrailing (state : RawHtmlState) : RawHtmlState := { state with trailingToken := [] }

structure RawScan where
  ranges : List MarkdownCodeRange := []
  tags : List Text
  inComment : Bool
  contextStart : Option Nat
  cursor : Nat := 0

def find (needle text : Text) (position : Nat) : Option Nat :=
  (List.range (text.length + 1)).find? fun index =>
    position ≤ index && needle.isPrefixOf (text.drop index)

def openRange (scan : RawScan) (stop : Nat) (closed : Bool) : List MarkdownCodeRange :=
  scan.contextStart.elim scan.ranges fun start => scan.ranges ++ [⟨start, stop, closed⟩]

inductive RawStep
  | next (scan : RawScan)
  | done (ranges : List MarkdownCodeRange) (state : RawHtmlState)

def rawComment (text : Text) (scan : RawScan) : RawStep :=
  match find rawHtmlCommentClose text scan.cursor with
  | none =>
    .done (openRange scan text.length false)
      { tags := scan.tags, inComment := true, trailingToken := commentClosePartialSuffix text }
  | some close =>
    let cursor := close + rawHtmlCommentClose.length
    if scan.tags = [] then
      .next { scan with
        inComment := false, cursor := cursor, ranges := openRange scan cursor true, contextStart := none }
    else .next { scan with inComment := false, cursor := cursor }

def rawIncomplete (text : Text) (raw : RawScan) (tokenStart : Nat) (tag : HtmlTagScan) : RawStep :=
  let candidate := text.drop tokenStart
  let ended := RawStep.done (openRange raw text.length false)
    { tags := raw.tags, inComment := raw.inComment }
  if tag.oversized then
    if raw.tags ≠ [] ∨ confirmedRawOpen tag then
      let opened := { raw with contextStart := some (raw.contextStart.getD tokenStart) }
      let poison := if raw.tags ≠ [] then raw.tags else if tag.name ≠ [] then [tag.name] else []
      .done (openRange opened text.length false) { tags := poison, isOpaque := true }
    else ended
  else if raw.tags ≠ [] then
    .done (openRange raw text.length false) { tags := raw.tags, trailingToken := candidate }
  else if confirmedRawOpen tag then
    .done (raw.ranges ++ [⟨tokenStart, text.length, false⟩]) { trailingToken := candidate }
  else if possibleRawOpenPartial unicode candidate tag then
    .done raw.ranges { trailingToken := candidate }
  else ended

def rawComplete (text : Text) (raw : RawScan) (tokenStart : Nat) (tag : HtmlTagScan) : RawStep :=
  let opens := confirmedRawOpen tag && !tag.selfClosing
  match raw.tags.getLast? with
  | some innermost =>
    if tag.exactClose ∧ tag.name = innermost then
      let tags := raw.tags.dropLast
      if tags = [] then
        .next { raw with
          tags := tags, cursor := tag.stop, ranges := openRange raw tag.stop true, contextStart := none }
      else .next { raw with tags := tags, cursor := tag.stop }
    else if opens then
      if rawHtmlMaxDepth ≤ raw.tags.length then
        .done (openRange raw text.length false) { tags := raw.tags, isOpaque := true }
      else .next { raw with tags := raw.tags ++ [tag.name], cursor := tag.stop }
    else .next { raw with cursor := tag.stop }
  | none =>
    if opens then
      .next { raw with tags := [tag.name], contextStart := some tokenStart, cursor := tag.stop }
    else .next { raw with cursor := tag.stop }

def rawStep (text : Text) (raw : RawScan) : RawStep :=
  if raw.inComment then rawComment text raw
  else
    match find ['<'] text raw.cursor with
    | none =>
      .done (openRange raw text.length false) { tags := raw.tags, inComment := raw.inComment }
    | some tokenStart =>
      if rawHtmlCommentOpen.isPrefixOf (text.drop tokenStart) then
        .next { raw with
          contextStart := some (raw.contextStart.getD tokenStart), inComment := true
          cursor := tokenStart + rawHtmlCommentOpen.length }
      else
        let tag := scanHtmlTagAt unicode text tokenStart
        if tag.complete then rawComplete text raw tokenStart tag
        else rawIncomplete unicode text raw tokenStart tag

def rawScanFrom (text : Text) : Nat → RawScan → List MarkdownCodeRange × RawHtmlState
  | 0, raw => (openRange raw text.length false, { tags := raw.tags, inComment := raw.inComment })
  | fuel + 1, raw =>
    if text.length ≤ raw.cursor then
      (openRange raw text.length false, { tags := raw.tags, inComment := raw.inComment })
    else
      match rawStep unicode text raw with
      | .done ranges state => (ranges, state)
      | .next raw => rawScanFrom text fuel raw

-- One pass over the text, from what an earlier text left open.
def scanRawHtmlCodeRanges (text : Text) (initial : RawHtmlState) : List MarkdownCodeRange × RawHtmlState :=
  let state := stateWithoutTrailing initial
  if state.isOpaque then (if text = [] then [] else [⟨0, text.length, false⟩], state)
  else
    rawScanFrom unicode text (text.length + 1)
      { tags := state.tags, inComment := state.inComment
        contextStart := if state.tags ≠ [] ∨ state.inComment then some 0 else none }

def rawHtmlCodeRanges (text : Text) : List MarkdownCodeRange :=
  (scanRawHtmlCodeRanges unicode text {}).1

def projectCodeRanges (ranges : List MarkdownCodeRange) (offset textLength : Nat) : List MarkdownCodeRange :=
  (ranges.filter fun range => offset < range.stop && range.start < offset + textLength).map
    fun range => ⟨range.start - offset, min textLength (range.stop - offset), range.closed⟩

def rawHtmlRangesFromState (text : Text) (state : RawHtmlState) (trailingAlreadyIncluded : Text) :
    List MarkdownCodeRange :=
  let included := trailingAlreadyIncluded
  let trailing :=
    if included ≠ [] then
      if state.trailingToken.isSuffixOf included then []
      else if included.isSuffixOf state.trailingToken then
        state.trailingToken.take (state.trailingToken.length - included.length)
      else state.trailingToken
    else state.trailingToken
  projectCodeRanges
    (scanRawHtmlCodeRanges unicode (trailing ++ text) (stateWithoutTrailing state)).1
    trailing.length text.length

def indentedRanges (initialLineSpaces : Nat) (initialLineIndented : Bool) (text : Text) :
    List MarkdownCodeRange :=
  (markdownLineSpans text).filterMap fun span =>
    let line := slice text span.1 span.2.2
    let leadingSpaces := (line.takeWhile (· = ' ')).length
    let tabbed := line.head? = some '\t'
    let indented :=
      if span.1 = 0 then initialLineIndented || tabbed || 4 ≤ initialLineSpaces + leadingSpaces
      else tabbed || 4 ≤ leadingSpaces
    if indented then some ⟨span.1, span.2.2, true⟩ else none

def markdownSyntaxCodeRanges (text : Text) (initialLineSpaces : Nat) (initialLineIndented : Bool) :
    List MarkdownCodeRange :=
  sortRanges
    (fencedOrInlineCodeRanges text ++ indentedRanges initialLineSpaces initialLineIndented text)

/-- Code of one kind hides what would open code of the other: each is found again with the
other masked. -/
def mutuallyMasked (syntaxRanges rawRanges : Text → List MarkdownCodeRange) (text : Text) :
    List MarkdownCodeRange :=
  let raw := rawRanges (maskRanges text (syntaxRanges text))
  let syntaxAgain := syntaxRanges (maskRanges text raw)
  sortRanges (syntaxAgain ++ rawRanges (maskRanges text syntaxAgain))

def markdownCodeRanges (text : Text) : List MarkdownCodeRange :=
  mutuallyMasked (fun value => markdownSyntaxCodeRanges value 0 false) (rawHtmlCodeRanges unicode)
    text

-- The ranges found behind the context's own text, with its offset taken off.
def contextualSyntaxRanges (context : Text) (initialLineSpaces : Nat) (initialLineIndented : Bool)
    (value : Text) : List MarkdownCodeRange :=
  projectCodeRanges
    (if context ≠ [] then markdownSyntaxCodeRanges (context ++ value) 0 false
      else markdownSyntaxCodeRanges value initialLineSpaces initialLineIndented)
    context.length value.length

def contextualMarkdownCodeRanges (text context : Text) (initialLineSpaces : Nat)
    (initialLineIndented : Bool) (state : RawHtmlState) (trailingAlreadyIncluded : Text) :
    List MarkdownCodeRange :=
  mutuallyMasked (contextualSyntaxRanges context initialLineSpaces initialLineIndented)
    (fun value => rawHtmlRangesFromState unicode value state trailingAlreadyIncluded) text

def lineStart (text : Text) (position : Nat) : Nat :=
  position - ((text.take position).rtakeWhile fun c => !isNewline c).length

def lineEnd (text : Text) (position : Nat) : Nat :=
  position + ((text.drop position).takeWhile fun c => !isNewline c).length

structure LineContext where
  leadingSpaces : Nat := 0
  indented : Bool := false
  hasNonSpace : Bool := false

def candidateStartsOnStandaloneLine (text : Text) (position : Nat) (line : LineContext) : Bool :=
  let start := lineStart text position
  let before := slice text start position
  if !before.all (· = ' ') then false
  else if start ≠ 0 then before.length ≤ 3
  else if line.indented || line.hasNonSpace then false
  else line.leadingSpaces + before.length ≤ 3

def candidateEndsOnStandaloneLine (text : Text) (position : Nat) : Bool :=
  (slice text position (lineEnd text position)).all fun c => c = ' ' || c = '\t'

def blankBetween (text : Text) (start stop : Nat) : Bool := (slice text start stop).all isSpace

def blocksAreSeparate (text : Text) : Nat → List (Nat × Nat) → Bool
  | previousEnd, [] => (text.drop previousEnd).all isSpace
  | previousEnd, (start, stop) :: rest =>
    previousEnd ≤ start && blankBetween text previousEnd start && blocksAreSeparate text stop rest

def spanOrder (first second : Nat × Nat) : Bool :=
  first.1 < second.1 || (first.1 = second.1 && first.2 ≤ second.2)

-- One or more blocks of protocol on lines of their own, with nothing after them.
def standaloneCandidateLayout (text : Text) (spans : List (Nat × Nat)) : Bool :=
  match spans.insertionSort (spanOrder · ·) with
  | [] => false
  | (start, stop) :: rest =>
    candidateStartsOnStandaloneLine text start {} &&
      candidateEndsOnStandaloneLine text ((rest.getLast?.map Prod.snd).getD stop) &&
      blocksAreSeparate text stop rest

end OpenSquilla.TextTools
