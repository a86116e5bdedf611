import OpenSquilla.Shared.FirstOccurrence
import OpenSquilla.Shared.TextLines

set_option autoImplicit false

namespace OpenSquilla.Outputs

open TextLines FirstOccurrence BoundedTail

def maxRegexLineChars : Nat := 1024 * 1024

def isRegexMeta (c : Char) : Bool :=
  ['.', '^', '$', '*', '+', '?', '\x7b', '\x7d', '[', ']', '\\', '|', '(', ')'].contains c

def characterPage (chunks : List Text) (offset limit : Nat) : Text :=
  match chunks with
  | [] => []
  | chunk :: rest =>
    if chunk.length ≤ offset then characterPage rest (offset - chunk.length) limit
    else
      let part := (chunk.drop offset).take limit
      let remaining := limit - part.length
      if remaining = 0 then part else part ++ characterPage rest 0 remaining

structure LogLine where
  number : Nat
  offset : Nat
  text : Text
  chars : Nat
  matched : Option Bool
  matchOffset : Option Nat
  deriving DecidableEq

structure RegexLibrary where
  search : Text → Text → Option Nat
  -- without metacharacters a pattern is looked for as it is spelled
  search_plain : ∀ pattern line, pattern.any isRegexMeta = false → search pattern line = find pattern line

structure Query where
  previewChars : Nat
  literal : Option Text
  regex : Option Text

def Query.compile (previewChars : Nat) (pattern : Option Text) : Query :=
  let literal := pattern.filter fun pattern => pattern ≠ [] && !pattern.any isRegexMeta
  ⟨previewChars, literal, if literal = none then pattern else none⟩

structure LineState where
  number : Nat
  offset : Nat
  lineStart : Nat
  lineChars : Nat
  preview : Text
  regexParts : Text
  literalTail : Text
  literalMatched : Bool
  matchOffset : Option Nat
  pendingCr : Bool

def LineState.initial : LineState := ⟨1, 0, 0, 0, [], [], [], false, none, false⟩

/-- What `finditer` gives: each break with the fragment in front of it, and what follows the last one. -/
def cutAtBreaks : Text → List (Text × Text) × Text
  | [] => ([], [])
  | '\r' :: '\n' :: rest => (([], ['\r', '\n']) :: (cutAtBreaks rest).1, (cutAtBreaks rest).2)
  | c :: rest =>
    if isLineBreak c then (([], [c]) :: (cutAtBreaks rest).1, (cutAtBreaks rest).2)
    else
      match cutAtBreaks rest with
      | ((fragment, separator) :: more, tail) => ((c :: fragment, separator) :: more, tail)
      | ([], tail) => ([], c :: tail)

section Steps

variable (lib : RegexLibrary) (query : Query)

def scanLiteral (literal : Text) (state : LineState) (fragment : Text) : LineState :=
  let scanned := state.literalTail ++ fragment
  let matchAt := find literal scanned
  { state with
    literalMatched := matchAt.isSome
    matchOffset := matchAt.elim state.matchOffset fun at_ => some (state.offset - state.literalTail.length + at_)
    literalTail := lastOf (literal.length - 1) scanned }

def scanRegex (state : LineState) (fragment : Text) : LineState :=
  { state with
    regexParts := if state.lineChars ≤ maxRegexLineChars then state.regexParts ++ fragment else [] }

def takeFragment (state : LineState) (fragment : Text) : LineState :=
  let state := { state with
    lineChars := state.lineChars + fragment.length
    preview :=
      if state.preview.length < query.previewChars then
        state.preview ++ fragment.take (query.previewChars - state.preview.length)
      else state.preview }
  let state :=
    match query.literal, query.regex with
    | some literal, _ => if state.literalMatched then state else scanLiteral literal state fragment
    | none, some _ => scanRegex state fragment
    | none, none => state
  { state with offset := state.offset + fragment.length }

def logLine (state : LineState) : LogLine :=
  let (matched, matchOffset) :=
    match query.literal, query.regex with
    | some _, _ => (some state.literalMatched, state.matchOffset)
    | none, some regex =>
      if state.lineChars ≤ maxRegexLineChars then
        let match_ := lib.search regex state.regexParts
        (some match_.isSome, match_.map (state.lineStart + ·))
      else (none, state.matchOffset)
    | none, none => (none, state.matchOffset)
  ⟨state.number, state.lineStart, state.preview, state.lineChars, matched, matchOffset⟩

def nextLine (state : LineState) (separator : Text) (last : Bool) : LineState where
  number := state.number + 1
  offset := state.offset + separator.length
  lineStart := state.offset + separator.length
  lineChars := 0
  preview := []
  regexParts := []
  literalTail := []
  literalMatched := false
  matchOffset := none
  pendingCr := separator = ['\r'] && last

def takePieces (state : LineState) (pieces : List (Text × Text)) (tail : Text) : List LogLine × LineState :=
  match pieces with
  | [] => ([], takeFragment query state tail)
  | (fragment, separator) :: more =>
    let state := takeFragment query state fragment
    let (lines, after) := takePieces (nextLine state separator (more = [] && tail = [])) more tail
    (logLine lib query state :: lines, after)

-- A line feed at the front of the chunk may belong to the break before it.
def dropPendingFeed (state : LineState) (chunk : Text) : LineState × Text :=
  if state.pendingCr && chunk ≠ [] then
    match chunk with
    | '\n' :: rest =>
      ({ state with offset := state.offset + 1, lineStart := state.lineStart + 1, pendingCr := false }, rest)
    | _ => ({ state with pendingCr := false }, chunk)
  else (state, chunk)

def takeChunk (state : LineState) (chunk : Text) : List LogLine × LineState :=
  let (state, chunk) := dropPendingFeed state chunk
  takePieces lib query state (cutAtBreaks chunk).1 (cutAtBreaks chunk).2

def takeChunks (state : LineState) : List Text → List LogLine
  | [] => if state.lineChars = 0 then [] else [logLine lib query state]
  | chunk :: rest =>
    let (lines, state) := takeChunk lib query state chunk
    lines ++ takeChunks state rest

end Steps

def iterLogLines (lib : RegexLibrary) (chunks : List Text) (previewChars : Nat) (pattern : Option Text) :
    List LogLine :=
  takeChunks lib (.compile previewChars pattern) .initial chunks

end OpenSquilla.Outputs
