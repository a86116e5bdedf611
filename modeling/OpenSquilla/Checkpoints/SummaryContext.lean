import Mathlib.Data.List.Sort
import OpenSquilla.Shared.TextScan

set_option autoImplicit false

namespace OpenSquilla.Checkpoints

open TextLines TextScan

def structuredHeader : Text := "[Structured Compaction Summary]".toList

def sectionOrder : List Text :=
  ["Goal", "Current Status", "Next Action", "Completed Steps", "Open Steps", "Files and Artifacts",
    "Tool Results To Remember", "Decisions and Rationale", "Known Failures", "Executed Commands and Tests",
    "Pending Tool and Approval IDs", "Important Identifiers", "Constraints and Preferences", "Do Not Repeat",
    "Unresolved Questions", "Critical Carry Forward"].map String.toList

def sectionPriority : List Text :=
  ["Goal", "Next Action", "Pending Tool and Approval IDs", "Critical Carry Forward",
    "Constraints and Preferences",
    "Current Status", "Open Steps", "Known Failures", "Unresolved Questions", "Important Identifiers",
    "Decisions and Rationale", "Tool Results To Remember", "Files and Artifacts", "Do Not Repeat",
      "Completed Steps",
    "Executed Commands and Tests"].map String.toList

def sectionOmissionMarker : Text := "[Omitted from request replay to fit the context budget.]".toList

def middleOmissionMarker : Text :=
  "[Legacy compaction summary text omitted in the middle to fit the context budget.]".toList

def rstrip (text : Text) : Text := text.rdropWhile isSpace

def lstrip (text : Text) : Text := text.dropWhile isSpace

def isBlankLine (line : Text) : Bool := strip line = []

def joinParagraphs (texts : List Text) : Text := ['\n', '\n'].intercalate texts

structure Section where
  title : Text
  text : Text

/-- The title that a line begins a section with. But for the first one, it stands behind a blank line. -/
def sectionTitle (boundary : Bool) (line : Text) : Option Text :=
  if line.getLast? = some ':' ∧ line.dropLast ∈ sectionOrder ∧ boundary = true then some line.dropLast else none

-- The lines before the first section, and each section's lines with its title.
def sectionBlocks {α : Type} (line : α → Text) : Bool → List α → List α × List (Text × List α)
  | _, [] => ([], [])
  | boundary, first :: rest =>
    let (before, blocks) := sectionBlocks line (isBlankLine (line first)) rest
    match sectionTitle boundary (line first) with
    | some title => ([], (title, first :: before) :: blocks)
    | none => (first :: before, blocks)

def orderOf (title : Text) : Nat := sectionOrder.idxOf title

def splitStructuredSummarySections (text : Text) : Option (List Section) :=
  match splitLines text with
  | [] => none
  | first :: rest =>
    if first ≠ structuredHeader then none
    else
      let (before, blocks) := sectionBlocks id true rest
      -- a title that is repeated or out of order makes the text ambiguous
      if ¬(blocks.map fun block => orderOf block.1).IsChain (· < ·) then none
      else if before.any fun line => !isBlankLine line then none
      else some (blocks.map fun block => ⟨block.1, rstrip (joinLines block.2)⟩)

def renderStructuredSections (texts : List Text) : Text :=
  if joinParagraphs texts = [] then structuredHeader else
      structuredHeader ++ ['\n', '\n'] ++ joinParagraphs texts

def omittedSection (title : Text) : Text := title ++ ":\n".toList ++ sectionOmissionMarker

def packedWith (sections : List Section) (kept : List Text) : List Text :=
  sections.map fun entry => if entry.title ∈ kept then entry.text else omittedSection entry.title

def keepSections (sections : List Section) (maxChars : Int) : List Text → List Text → List Text
  | [], kept => kept
  | title :: rest, kept =>
    if title ∈ sections.map Section.title ∧
        (renderStructuredSections (packedWith sections (title :: kept))).length ≤ maxChars then
      keepSections sections maxChars rest (title :: kept)
    else keepSections sections maxChars rest kept

-- The sections of `_pack_structured_summary_sections` as they are rendered.
def packStructuredSummarySections (text : Text) (maxChars : Int) : Option (List Text) :=
  match splitStructuredSummarySections text with
  | none => none
  | some sections =>
    if maxChars < (renderStructuredSections (packedWith sections [])).length then none
    else some (packedWith sections (keepSections sections maxChars sectionPriority []))

def isGap (c : Char) : Bool := c = '\n' || c = ' '

def boundedLegacyFragment (text : Text) (maxChars : Nat) (fromEnd : Bool) : Text :=
  if maxChars = 0 then []
  else if text.length ≤ maxChars then text
  else if fromEnd then
    let candidate := text.drop (text.length - maxChars)
    match candidate.findIdx? isGap with
    | some boundary => lstrip (if boundary < maxChars / 2 then candidate.drop (boundary + 1) else candidate)
    | none => lstrip candidate
  else
    let candidate := text.take maxChars
    -- the last line feed or blank, counted from the end
    match candidate.reverse.findIdx? isGap with
    | some behind =>
      let boundary := candidate.length - 1 - behind
      rstrip (if maxChars / 2 ≤ boundary then candidate.take boundary else candidate)
    | none => rstrip candidate

inductive Rendered
  | whole (text : Text)
  | sections (parts : List Text)
  | edges (head tail : Text)

def middleSeparator : Text := ['\n'] ++ middleOmissionMarker ++ ['\n']

def Rendered.text : Rendered → Text
  | whole text => text
  | sections parts => renderStructuredSections parts
  | edges head tail => head ++ middleSeparator ++ tail

def packLegacySummaryText (text : Text) (maxChars : Int) : Option Rendered :=
  let cleaned := strip text
  if cleaned = [] then none
  else if cleaned.length ≤ maxChars then some (.whole cleaned)
  else
    let contentBudget := maxChars - middleSeparator.length
    if contentBudget < 2 then none
    else
      let headBudget := max 1 (contentBudget.toNat / 3)
      let tailBudget := max 1 (contentBudget.toNat - headBudget)
      let head := boundedLegacyFragment cleaned headBudget false
      let tail := boundedLegacyFragment cleaned tailBudget true
      if head = [] ∧ tail = [] then none
      else if (Rendered.edges head tail).text.length ≤ maxChars then some (.edges head tail) else none

def contextHeader : Text := "[Compacted Session Summaries]".toList

def summaryOmissionMarker (count : Nat) : Text :=
  "[Omitted ".toList ++ Nat.toDigits 10 count ++ " earlier compaction ".toList ++
    (if count = 1 then "summary".toList else "summaries".toList) ++
    " from request replay to fit the context budget.]".toList

def renderSummaryContextBlocks (blocks : List (Nat × Text)) (omittedEarlier : Nat) : Text :=
  contextHeader ++ ['\n'] ++
    joinParagraphs ((if omittedEarlier = 0 then [] else [summaryOmissionMarker omittedEarlier]) ++
      (blocks.insertionSort fun first second => first.1 ≤ second.1).map Prod.snd)

def deduplicate (seen : List Text) : List Text → List Text
  | [] => []
  | raw :: rest =>
    let text := strip raw
    if text = [] ∨ text ∈ seen then deduplicate seen rest else text :: deduplicate (text :: seen) rest

def deduplicatedSummaryTexts (summaryTexts : List Text) : List Text := deduplicate [] summaryTexts

def blockPrefix (number : Nat) : Text := "[Summary ".toList ++ Nat.toDigits 10 number ++ "]\n".toList

def blockOf (entry : Nat × Rendered) : Nat × Text := (entry.1, blockPrefix entry.1 ++ entry.2.text)

def fullRendering (deduped : List Text) : Text :=
  contextHeader ++ ['\n'] ++
    joinParagraphs ((deduped.zipIdx 1).map fun entry => blockPrefix entry.2 ++ entry.1)

section Selecting

variable (deduped : List Text) (maxChars : Int)

-- The summary whole, where it fits before those selected.
def fitsWhole (selected : List (Nat × Rendered)) (index : Nat) : Bool :=
  (renderSummaryContextBlocks
    ((selected ++ [(index + 1, Rendered.whole (deduped.getD index []))]).map blockOf) index).length ≤
    maxChars

def sectionBudget (selected : List (Nat × Rendered)) (index : Nat) : Int :=
  maxChars - (renderSummaryContextBlocks
    (selected.map blockOf ++ [(index + 1, blockPrefix (index + 1))]) index).length

def packSummary (text : Text) (budget : Int) : Option Rendered :=
  match packStructuredSummarySections text budget with
  | some parts => some (.sections parts)
  | none => if structuredHeader.isPrefixOf (lstrip text) then none else packLegacySummaryText text budget

-- How the summary is shown before those selected, if it is.
def showSummary (selected : List (Nat × Rendered)) (index : Nat) : Option Rendered :=
  let text := deduped.getD index []
  if fitsWhole deduped maxChars selected index then some (.whole text)
  else
    match packSummary text (sectionBudget maxChars selected index) with
    | none => none
    | some packed =>
      if (renderSummaryContextBlocks ((selected ++ [(index + 1, packed)]).map blockOf) index).length ≤
          maxChars then
        some packed
      else none

/-- From the newest summary to the oldest. What comes before the first that is not shown is left out with it. -/
def selectSummaries : Nat → List (Nat × Rendered) → List (Nat × Rendered) × Nat
  | 0, selected => (selected, 0)
  | index + 1, selected =>
    match showSummary deduped maxChars selected index with
    | some shown => selectSummaries index (selected ++ [(index + 1, shown)])
    | none => (selected, index + 1)

end Selecting

def formatCompactionSummaryContext (summaryTexts : List Text) (maxChars : Option Int) : Option Text :=
  let deduped := deduplicatedSummaryTexts summaryTexts
  if deduped = [] then none
  else
    match maxChars with
    | none => some (fullRendering deduped)
    | some maxChars =>
      if (fullRendering deduped).length ≤ maxChars then some (fullRendering deduped)
      else if maxChars ≤ 0 then none
      else
        let (selected, omittedEarlier) := selectSummaries deduped maxChars deduped.length []
        let bounded := renderSummaryContextBlocks (selected.map blockOf) omittedEarlier
        if bounded.length ≤ maxChars then some bounded else none

end OpenSquilla.Checkpoints
