import Mathlib.Algebra.GroupWithZero.Nat
import OpenSquilla.Outputs.LogLineLaws
import OpenSquilla.Shared.MergedIntervals
import Mathlib.Data.List.DropRight

set_option autoImplicit false

namespace OpenSquilla.Outputs

open TextLines FirstOccurrence BoundedTail MergedIntervals

def decimal (n : Nat) : Text := Nat.toDigits 10 n

structure QueryText where
  limit : Nat
  parts : Text
  size : Nat
  truncated : Bool

namespace QueryText

def empty (limit : Nat) : QueryText := ⟨limit, [], 0, false⟩

def append (output : QueryText) (text : Text) : QueryText :=
  let available := output.limit - output.size
  { output with
    parts := output.parts ++ text.take available
    size := output.size + min text.length available
    truncated := output.truncated || available < text.length }

def numbered (width number : Nat) (text : Text) : Text :=
  List.replicate (width - (decimal number).length) ' ' ++ decimal number ++ "| ".toList ++ text ++ ['\n']

def line (output : QueryText) (line : LogLine) (width : Nat) : QueryText :=
  let output := output.append (numbered width line.number line.text)
  { output with truncated := output.truncated || line.text.length < line.chars }

def stripFeeds (text : Text) : Text := text.rdropWhile (· = '\n')

def result (output : QueryText) : Text := stripFeeds output.parts

end QueryText

def rangeLabel (range : Interval) : Text :=
  "[lines ".toList ++ decimal range.1 ++ "-".toList ++ decimal range.2 ++ "]\n".toList

def omissionNotice (previous range : Interval) : Text :=
  "[... omitted ".toList ++ (toString ((range.1 : Int) - previous.2 - 1)).toList ++ " lines ...]\n".toList

structure RangeOptions where
  labels : Bool
  omissionNotice : Bool

/-- The ranges that end before a line are left: the one before, those to come, and whether the first
has begun. -/
def leaveRanges (number : Nat) (previous : Option Interval) (started : Bool) :
    List Interval → Option Interval × List Interval × Bool
  | [] => (previous, [], started)
  | range :: ranges =>
    if range.2 < number then leaveRanges number (some range) false ranges else
        (previous, range :: ranges, started)

def rangeHeading (options : RangeOptions) (previous : Option Interval) (range : Interval) : Option Text :=
  if options.labels then some (rangeLabel range)
  else if options.omissionNotice then previous.map (Outputs.omissionNotice · range) else none

def showRanges (options : RangeOptions) :
    QueryText → Option Interval → List Interval → Bool → List LogLine → QueryText
  | output, _, _, _, [] => output
  | output, previous, ranges, started, line :: lines =>
    match leaveRanges line.number previous started ranges with
    | (_, [], _) => output
    | (previous, range :: ranges, started) =>
      if line.number < range.1 then showRanges options output previous (range :: ranges) started lines
      else
        let output :=
          match if started then none else rangeHeading options previous range with
          | some heading => output.append heading
          | none => output
        let output := output.line line (decimal range.2).length
        if output.truncated then output else showRanges options output previous (range :: ranges) true lines

def logRanges (lib : RegexLibrary) (chunks : List Text) (ranges : List Interval) (maxChars : Nat)
    (options : RangeOptions) : Text × Bool :=
  if ranges = [] then ([], false)
  else
    let output := showRanges options (.empty (maxChars + 1)) none ranges false
      (iterLogLines lib chunks (maxChars + 1) none)
    (output.result, output.truncated)

structure GrepState where
  before : List LogLine
  ranges : List Interval
  responseSize : Nat
  lastIncluded : Nat
  incomplete : Bool
  warning : Text

def GrepState.initial : GrepState := ⟨[], [], 0, 0, false, []⟩

def lineSize (line : LogLine) : Nat := line.chars + (decimal line.number).length + 3

def uninspectedWarning (line : LogLine) : Text :=
  "Search incomplete: regex inspection of line ".toList ++ decimal line.number ++ " exceeds ".toList ++
    decimal maxRegexLineChars ++ " characters. The stored log is unchanged. ".toList ++
    "Use raw_slice with offset=".toList ++ decimal line.offset ++ " to inspect this line.".toList

def overBudgetWarning (line : LogLine) (matchOffset : Nat) : Text :=
  "Matching line ".toList ++ decimal line.number ++ " exceeds this response's character budget. ".toList ++
    "The first match is at character offset ".toList ++ decimal matchOffset ++ "; ".toList ++
    "use raw_slice with offset=".toList ++ decimal (matchOffset - 100) ++
    " to read the match and surrounding text.".toList

section Grep

variable (contextLines maxChars lineCount : Nat)

def matchWindow (number : Nat) : Interval :=
  (max 1 (number - contextLines), min lineCount (number + contextLines))

def takeMatch (state : GrepState) (line : LogLine) : GrepState :=
  { state with
    warning :=
      match line.matchOffset with
      | some matchOffset => if maxChars < line.chars then overBudgetWarning line matchOffset else state.warning
      | none => state.warning
    ranges := addWindow state.ranges (matchWindow contextLines lineCount line.number)
    responseSize := state.responseSize +
      (((state.before ++ [line]).filter fun entry => state.lastIncluded < entry.number).map lineSize).sum
    lastIncluded := line.number }

-- A line without a match may stand in the window of an earlier one.
def takeContext (state : GrepState) (line : LogLine) : GrepState :=
  match state.ranges.getLast? with
  | some last =>
    if line.number ≤ last.2 ∧ state.lastIncluded < line.number then
      { state with responseSize := state.responseSize + lineSize line, lastIncluded := line.number }
    else state
  | none => state

def grepLines (state : GrepState) : List LogLine → GrepState
  | [] => state
  | line :: lines =>
    match line.matched with
    | none => { state with warning := uninspectedWarning line, incomplete := true }
    | some matched =>
      let state := if matched then takeMatch contextLines maxChars lineCount state line else
          takeContext state line
      let state := { state with before := lastOf contextLines (state.before ++ [line]) }
      if maxChars < state.responseSize then { state with incomplete := true } else grepLines state lines

end Grep

def noMatches (pattern : Text) : Text := "No matches for pattern: ".toList ++ pattern

-- The text is read twice, in chunks that need not be the same.
def logGrep (lib : RegexLibrary) (chunks again : List Text) (pattern : Text)
    (contextLines maxChars lineCount : Nat) : Text × Bool :=
  let found := grepLines contextLines maxChars lineCount .initial
    (iterLogLines lib chunks (maxChars + 1) (some pattern))
  let (body, truncated) := logRanges lib again found.ranges maxChars ⟨true, false⟩
  let body :=
    if found.warning ≠ [] then found.warning ++ (if body ≠ [] then '\n' :: body else [])
    else if found.ranges = [] then noMatches pattern
    else body
  (body, truncated || found.incomplete)

end OpenSquilla.Outputs
