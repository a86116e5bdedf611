import Mathlib.Algebra.Order.BigOperators.Group.List
import Mathlib.Algebra.Order.Group.Nat
import Mathlib.Data.List.Perm.Subperm
import OpenSquilla.Outputs.LogGrep

set_option autoImplicit false

namespace OpenSquilla.Outputs

open TextLines FirstOccurrence BoundedTail MergedIntervals

namespace QueryText

structure Wrote (limit : Nat) (written : Text) (output : QueryText) : Prop where
  budget : output.limit = limit
  parts : output.parts = written.take limit
  size : output.size = min written.length limit
  truncated : output.truncated = true ↔ limit < written.length

variable {limit : Nat} {written : Text} {output : QueryText}

theorem wrote_empty (limit : Nat) : Wrote limit [] (.empty limit) :=
  ⟨rfl, by simp [empty], by simp [empty], by simp [empty]⟩

theorem Wrote.append (wrote : Wrote limit written output) (text : Text) :
    Wrote limit (written ++ text) (output.append text) := by
  have available : output.limit - output.size = limit - written.length := by
    rw [wrote.budget, wrote.size]
    omega
  refine ⟨wrote.budget, ?_, ?_, ?_⟩
  · simp [QueryText.append, available, wrote.parts, List.take_append]
  · have size := wrote.size
    simp only [QueryText.append, available, List.length_append]
    omega
  · simp only [QueryText.append, available, Bool.or_eq_true, wrote.truncated, decide_eq_true_eq,
        List.length_append]
    omega

theorem Wrote.past (wrote : Wrote limit written output) (past : limit < written.length) (text : Text) :
    Wrote limit (written ++ text) output := by
  refine ⟨wrote.budget, ?_, ?_, ?_⟩
  · rw [wrote.parts, List.take_append_of_le_length (Nat.le_of_lt past)]
  · rw [wrote.size, List.length_append]
    omega
  · rw [wrote.truncated, List.length_append]
    omega

theorem Wrote.line (wrote : Wrote limit written output) (line : LogLine) {body : Text}
    (text : line.text = body.take limit) (chars : line.chars = body.length) (width : Nat) :
    Wrote limit (written ++ numbered width line.number body) (output.line line width) := by
  have appended := wrote.append (numbered width line.number line.text)
  by_cases short : body.length ≤ limit
  · rw [List.take_of_length_le short] at text
    rw [text] at appended
    obtain ⟨sameLimit, parts, size, truncated⟩ := appended
    refine ⟨by simpa [QueryText.line, text] using sameLimit, by simpa [QueryText.line, text] using parts,
      by simpa [QueryText.line, text] using size, ?_⟩
    simpa [QueryText.line, text, chars] using truncated
  · have cut : ∀ tail : Text,
        (written ++ (List.replicate (width - (decimal line.number).length) ' ' ++ decimal line.number ++
        "| ".toList ++ body.take limit ++ tail)).take limit = (written ++
        (List.replicate (width - (decimal line.number).length) ' ' ++ decimal line.number ++ "| ".toList ++
          body.take limit)).take limit := by
      intro tail
      rw [← List.append_assoc, List.take_append_of_le_length]
      simp only [List.length_append, List.length_take]
      omega
    have whole : numbered width line.number body = List.replicate (width - (decimal line.number).length) ' ' ++
        decimal line.number ++ "| ".toList ++ body.take limit ++ (body.drop limit ++ ['\n']) := by
      simp only [numbered, List.append_assoc]
      rw [← List.append_assoc (body.take limit), List.take_append_drop]
    obtain ⟨sameLimit, parts, size, -⟩ := appended
    refine ⟨by simpa [QueryText.line] using sameLimit, ?_, ?_, ?_⟩
    · have shown :
          (output.line line width).parts = (written ++ numbered width line.number line.text).take limit := parts
      rw [shown, whole, cut, text, numbered, cut]
    · have shown :
          (output.line line width).size =
            min (written ++ numbered width line.number line.text).length limit := size
      rw [shown, text]
      simp only [numbered, List.length_append, List.length_take]
      omega
    · have long : line.text.length < line.chars := by
        rw [text, chars, List.length_take]
        omega
      simp only [QueryText.line, Bool.or_eq_true, decide_eq_true_eq, long, or_true, true_iff, numbered,
          List.length_append]
      omega

end QueryText

section Rendering

open QueryText

def linesOf (lines : List (Text × Nat)) (range : Interval) : List (Text × Nat) :=
  lines.filter fun line => range.1 ≤ line.2 ∧ line.2 ≤ range.2

def renderLines (width : Nat) (lines : List (Text × Nat)) : Text :=
  lines.flatMap fun line => numbered width line.2 line.1

def rendering (lines : List (Text × Nat)) (ranges : List Interval) : Text :=
  ranges.flatMap fun range => rangeLabel range ++ renderLines (decimal range.2).length (linesOf lines range)

@[simp] theorem linesOf_nil (range : Interval) : linesOf [] range = [] := rfl

@[simp] theorem renderLines_nil (width : Nat) : renderLines width [] = [] := rfl

@[simp] theorem renderLines_cons (width : Nat) (line : Text × Nat) (lines : List (Text × Nat)) :
    renderLines width (line :: lines) = numbered width line.2 line.1 ++ renderLines width lines := rfl

@[simp] theorem rendering_nil (lines : List (Text × Nat)) : rendering lines [] = [] := rfl

@[simp] theorem rendering_cons (lines : List (Text × Nat)) (range : Interval) (ranges : List Interval) :
    rendering lines (range :: ranges) =
      rangeLabel range ++ renderLines (decimal range.2).length (linesOf lines range) ++
        rendering lines ranges := rfl

theorem linesOf_cons_of_mem {line : Text × Nat} {range : Interval} (inside : range.1 ≤ line.2 ∧ line.2 ≤ range.2)
    (lines : List (Text × Nat)) : linesOf (line :: lines) range = line :: linesOf lines range := by
  simp [linesOf, inside]

theorem linesOf_cons_of_not_mem {line : Text × Nat} {range : Interval}
    (outside : ¬(range.1 ≤ line.2 ∧ line.2 ≤ range.2))
    (lines : List (Text × Nat)) : linesOf (line :: lines) range = linesOf lines range := by
  simp only [linesOf, List.filter_cons, outside, decide_false, Bool.false_eq_true, if_false]

theorem linesOf_eq_nil {lines : List (Text × Nat)} {range : Interval}
    (behind : ∀ line ∈ lines, range.2 < line.2) : linesOf lines range = [] := by
  rw [linesOf, List.filter_eq_nil_iff]
  intro line mem
  have := behind line mem
  simp only [decide_eq_true_eq]
  omega

theorem rendering_cons_line {line : Text × Nat} {ranges : List Interval}
    (before : ∀ range ∈ ranges, line.2 < range.1)
    (lines : List (Text × Nat)) : rendering (line :: lines) ranges = rendering lines ranges := by
  induction ranges with
  | nil => rfl
  | cons range ranges ih =>
    simp only [List.forall_mem_cons] at before
    rw [rendering_cons, rendering_cons, ih before.2, linesOf_cons_of_not_mem (by omega)]

def lineChars (line : Text × Nat) : Nat := line.1.length + (decimal line.2).length + 3

theorem lineChars_le_numbered (width : Nat) (line : Text × Nat) :
    lineChars line ≤ (numbered width line.2 line.1).length := by
  simp only [numbered, lineChars, List.length_append, List.length_cons, List.length_nil,
    show ("| ".toList).length = 2 from rfl]
  omega

theorem sum_lineChars_le (width : Nat) (lines : List (Text × Nat)) :
    (lines.map lineChars).sum ≤ (renderLines width lines).length := by
  induction lines with
  | nil => exact Nat.le_refl _
  | cons line lines ih =>
    rw [renderLines_cons, List.length_append, List.map_cons, List.sum_cons]
    exact Nat.add_le_add (lineChars_le_numbered width line) ih

def inAny (ranges : List Interval) (n : Nat) : Bool :=
  ranges.any fun range => range.1 ≤ n ∧ n ≤ range.2

theorem inAny_iff {ranges : List Interval} {n : Nat} : inAny ranges n = true ↔ Covers ranges n := by
  simp [inAny, Covers]

theorem sum_filter_or_le {α : Type} (size : α → Nat) (left right : α → Bool) (xs : List α) :
    ((xs.filter fun x => left x || right x).map size).sum ≤
      ((xs.filter left).map size).sum + ((xs.filter right).map size).sum := by
  induction xs with
  | nil => exact Nat.le_refl _
  | cons x xs ih =>
    cases one : left x <;> cases two : right x <;> simp [one, two] <;> omega

theorem sum_shown_le_rendering (lines : List (Text × Nat)) (ranges : List Interval) :
    ranges.length + ((lines.filter fun line => inAny ranges line.2).map lineChars).sum ≤
      (rendering lines ranges).length := by
  induction ranges with
  | nil => simp [inAny]
  | cons range ranges ih =>
    have split := sum_filter_or_le lineChars (fun line : Text × Nat => range.1 ≤ line.2 ∧ line.2 ≤ range.2)
      (fun line => inAny ranges line.2) lines
    have here := sum_lineChars_le (decimal range.2).length (linesOf lines range)
    have label : 0 < (rangeLabel range).length := by
      unfold rangeLabel
      exact List.length_pos_iff.mpr (List.append_ne_nil_of_right_ne_nil _ (by decide))
    rw [rendering_cons, List.length_append, List.length_append, List.length_cons]
    simp only [inAny, List.any_cons] at split ih ⊢
    refine Nat.le_trans ?_ (Nat.add_le_add (Nat.add_le_add label here) ih)
    simp only [linesOf]
    omega

end Rendering

section Showing

open QueryText

variable (lib : RegexLibrary)

/-- What is still to be written, in the range that has begun or in front of the next. -/
def toShow (lines : List (Text × Nat)) : List Interval → Bool → Text
  | [], _ => []
  | range :: ranges, started =>
    (if started then [] else rangeLabel range) ++ renderLines (decimal range.2).length (linesOf lines range) ++
      rendering lines ranges

theorem toShow_false (lines : List (Text × Nat)) (ranges : List Interval) :
    toShow lines ranges false = rendering lines ranges := by
  cases ranges <;> rfl

-- Where the ranges stand to the next line, the first having begun or not.
def Ahead (number : Nat) (ranges : List Interval) (started : Bool) : Prop :=
  ∀ range, ranges.head? = some range → if started then range.1 ≤ number ∧ number ≤ range.2 + 1 else
    number ≤ range.1

theorem Ahead.skip {number : Nat} {range : Interval} {ranges : List Interval} (before : number < range.1) :
    Ahead (number + 1) (range :: ranges) false := by
  simpa [Ahead] using Nat.succ_le_of_lt before

theorem toShow_cons_line {line : Text × Nat} {range : Interval} {ranges : List Interval}
    (merged : Merged (range :: ranges))
    (within : range.1 ≤ line.2 ∧ line.2 ≤ range.2) (lines : List (Text × Nat)) (started : Bool) :
    toShow (line :: lines) (range :: ranges) started = (if started then [] else rangeLabel range) ++
      numbered (decimal range.2).length line.2 line.1 ++ toShow lines (range :: ranges) true := by
  have later : ∀ next ∈ ranges, line.2 < next.1 := by
    intro next mem
    have apart := (List.pairwise_cons.1 merged.apart).1 next mem
    omega
  simp [toShow, linesOf_cons_of_mem within, rendering_cons_line later]

theorem leaveRanges_of_le {number : Nat} {range : Interval} (reaches : number ≤ range.2)
    (previous : Option Interval) (started : Bool) (ranges : List Interval) :
    leaveRanges number previous started (range :: ranges) = (previous, range :: ranges, started) := by
  simp [leaveRanges, reaches]

theorem leaveRanges_spec {number : Nat} {ranges : List Interval} {started : Bool} (merged : Merged ranges)
    (ahead : Ahead number ranges started) (previous : Option Interval) :
    ∃ previous' ranges' started', leaveRanges number previous started ranges = (previous', ranges', started') ∧
      ranges' <:+ ranges ∧ Ahead number ranges' started' ∧
        (∀ range, ranges'.head? = some range → number ≤ range.2) ∧
      ∀ lines : List (Text × Nat), (∀ line ∈ lines, number ≤ line.2) →
        toShow lines ranges started = toShow lines ranges' started' := by
  cases ranges with
  | nil => exact ⟨previous, [], started, rfl, List.suffix_rfl, ahead, by simp, fun _ _ => rfl⟩
  | cons range ranges =>
    obtain ⟨propers, aparts⟩ := merged
    simp only [List.forall_mem_cons, List.pairwise_cons] at propers aparts
    by_cases reaches : number ≤ range.2
    · exact ⟨previous, range :: ranges, started, leaveRanges_of_le reaches .., List.suffix_rfl, ahead,
          by simpa using reaches,
        fun _ _ => rfl⟩
    · have begun : started = true ∧ number ≤ range.2 + 1 := by
        have here := ahead range rfl
        cases started with
        | false =>
          simp only [Bool.false_eq_true, if_false] at here
          omega
        | true => exact ⟨rfl, here.2⟩
      have next : ∀ range' ∈ ranges, number < range'.1 ∧ number ≤ range'.2 := by
        intro range' mem
        have apart := aparts.1 range' mem
        have proper := propers.2 range' mem
        omega
      have left : leaveRanges number previous started (range :: ranges) = (some range, ranges, false) := by
        rw [leaveRanges, if_pos (by omega)]
        cases ranges with
        | nil => rfl
        | cons range' ranges => exact leaveRanges_of_le (next range' (by simp)).2 ..
      refine ⟨some range, ranges, false, left, List.suffix_cons _ _, ?_, ?_, fun lines behind => ?_⟩
      · intro range' first
        have := next range' (List.mem_of_head? first)
        simp only [Bool.false_eq_true, if_false]
        omega
      · exact fun range' first => (next range' (List.mem_of_head? first)).2
      · have nothing : linesOf lines range = [] := linesOf_eq_nil fun line mem => by
          have := behind line mem
          omega
        rw [toShow_false, toShow, nothing, begun.1]
        simp

theorem QueryText.Wrote.heading {limit : Nat} {written : Text} {output : QueryText}
    (wrote : Wrote limit written output) (started : Bool) (previous : Option Interval) (range : Interval) :
    Wrote limit (written ++ if started then [] else rangeLabel range)
      (match if started then none else rangeHeading ⟨true, false⟩ previous range with
        | some heading => output.append heading
        | none => output) := by
  cases started with
  | false => exact wrote.append _
  | true => simpa using wrote

theorem showRanges_spec {limit : Nat} (wholes : List Text) {number offset : Nat} {ranges : List Interval}
    {started : Bool} {previous : Option Interval} {written : Text} {output : QueryText} (merged : Merged ranges)
    (ahead : Ahead number ranges started) (inside : ∀ range ∈ ranges, range.2 < number + wholes.length)
    (wrote : Wrote limit written output) :
    Wrote limit (written ++ toShow ((wholes.map lineText).zipIdx number) ranges started)
      (showRanges ⟨true, false⟩ output previous ranges started
        (records lib (.compile limit none) number offset wholes)) := by
  induction wholes generalizing number offset ranges started previous written output with
  | nil =>
    have nothing : toShow [] ranges started = [] := by
      cases ranges with
      | nil => rfl
      | cons range ranges =>
        obtain ⟨propers, aparts⟩ := merged
        simp only [List.forall_mem_cons, List.pairwise_cons] at propers aparts
        have last := inside range (by simp)
        have here := ahead range rfl
        cases started with
        | false =>
          simp only [Bool.false_eq_true, if_false, List.length_nil] at here last
          omega
        | true =>
          cases ranges with
          | nil => rfl
          | cons next ranges =>
            have apart := aparts.1 next (by simp)
            have proper := propers.2 next (by simp)
            have bound := inside next (by simp)
            simp only [if_true, List.length_nil] at here bound
            omega
    rw [List.map_nil, List.zipIdx_nil, nothing, List.append_nil]
    exact wrote
  | cons whole wholes ih =>
    obtain ⟨previous', ranges', started', left, suffix, ahead', reaches, same⟩ :=
      leaveRanges_spec merged ahead previous
    have merged' : Merged ranges' :=
      ⟨fun range mem => merged.proper range (suffix.mem mem), merged.apart.sublist suffix.sublist⟩
    have inside' : ∀ range ∈ ranges', range.2 < number + 1 + wholes.length := by
      intro range mem
      have := inside range (suffix.mem mem)
      rw [List.length_cons] at this
      omega
    have behind : ∀ line ∈ ((whole :: wholes).map lineText).zipIdx number, number ≤ line.2 := fun line mem =>
      List.le_snd_of_mem_zipIdx mem
    rw [same _ behind, List.map_cons, List.zipIdx_cons, records, showRanges]
    simp only [show (record lib (.compile limit none) number offset (lineText whole)).number =
        number from rfl, left]
    cases ranges' with
    | nil => simpa [toShow] using wrote
    | cons range ranges' =>
      have reach := reaches range rfl
      have here := ahead' range rfl
      dsimp only
      by_cases before : number < range.1
      · have fresh : started' = false := by
          cases started' with
          | false => rfl
          | true =>
            simp only [if_true] at here
            omega
        subst fresh
        have later : ∀ range' ∈ range :: ranges', number < range'.1 := by
          simp only [List.forall_mem_cons]
          refine ⟨before, fun range' mem => ?_⟩
          have apart := (List.pairwise_cons.1 merged'.apart).1 range' mem
          omega
        rw [if_pos before, toShow_false, rendering_cons_line later, ← toShow_false]
        exact ih merged' (.skip before) inside' wrote
      · have within : range.1 ≤ number ∧ number ≤ range.2 := ⟨Nat.not_lt.1 before, reach⟩
        have shown :=
          (wrote.heading started' previous' range).line
            (record lib (.compile limit none) number offset (lineText whole)) rfl rfl
          (decimal range.2).length
        have onward : Ahead (number + 1) (range :: ranges') true := by
          simpa [Ahead] using ⟨Nat.le_succ_of_le within.1, within.2⟩
        rw [if_neg before, toShow_cons_line merged' within, ← List.append_assoc, ← List.append_assoc]
        generalize QueryText.line _ _ _ = shownSoFar at shown ⊢
        by_cases cut : shownSoFar.truncated = true
        · rw [if_pos cut]
          exact shown.past (shown.truncated.1 cut) _
        · rw [if_neg cut]
          exact ih merged' onward inside' shown

theorem logRanges_eq (chunks : List Text) {ranges : List Interval} (merged : Merged ranges)
    (inside : ∀ range ∈ ranges, 1 ≤ range.1 ∧ range.2 ≤ (splitLines chunks.flatten).length) (maxChars : Nat) :
    logRanges lib chunks ranges maxChars ⟨true, false⟩ =
      (stripFeeds ((rendering ((splitLines chunks.flatten).zipIdx 1) ranges).take (maxChars + 1)),
        decide (maxChars + 1 < (rendering ((splitLines chunks.flatten).zipIdx 1) ranges).length)) := by
  by_cases empty : ranges = []
  · subst empty
    simp [logRanges, stripFeeds]
  · have ahead : Ahead 1 ranges false := by
      intro range first
      simpa using (inside range (List.mem_of_head? first)).1
    have bounds : ∀ range ∈ ranges, range.2 < 1 + (splitKeepends chunks.flatten).length := by
      intro range mem
      have := (inside range mem).2
      rw [splitLines, List.length_map] at this
      omega
    have wrote :=
      @showRanges_spec lib _ (splitKeepends chunks.flatten) 1 0 ranges false none _ _ merged ahead bounds
      (wrote_empty (maxChars + 1))
    rw [List.nil_append, toShow_false, ← splitLines, ← iterLogLines_eq] at wrote
    rw [logRanges, if_neg empty]
    simp only [QueryText.result, wrote.parts, Prod.mk.injEq, true_and]
    rw [Bool.eq_iff_iff, wrote.truncated, decide_eq_true_iff]

end Showing

section Searching

variable (lib : RegexLibrary) (pattern : Text)

def isMatch (line : Text × Nat) : Bool := (lib.search pattern line.1).isSome

theorem record_matched {previewChars number offset : Nat} {body : Text} {matched : Bool}
    (found : (record lib (.compile previewChars (some pattern)) number offset body).matched = some matched) :
    matched = isMatch lib pattern (body, number) := by
  by_cases literal : pattern ≠ [] ∧ pattern.any isRegexMeta = false
  · have asLiteral : Query.compile previewChars (some pattern) = ⟨previewChars, some pattern, none⟩ := by
      simp [Query.compile, Option.filter, literal]
    rw [asLiteral] at found
    simp only [record, Option.some.injEq] at found
    rw [isMatch, lib.search_plain pattern body literal.2, found]
  · have asRegex : Query.compile previewChars (some pattern) = ⟨previewChars, none, some pattern⟩ := by
      simp only [Query.compile, Option.filter]
      simp_all
    rw [asRegex] at found
    simp only [record] at found
    split at found
    · simpa [isMatch] using found.symm
    · cases found

variable (contextLines maxChars lineCount : Nat)

def matchWindows (lines : List (Text × Nat)) : List Interval :=
  (lines.filter (isMatch lib pattern)).map fun line => matchWindow contextLines lineCount line.2

theorem matchWindows_append (before behind : List (Text × Nat)) :
    matchWindows lib pattern contextLines lineCount (before ++ behind) =
      matchWindows lib pattern contextLines lineCount before ++
        matchWindows lib pattern contextLines lineCount behind := by
  simp [matchWindows]

structure Searching (number : Nat) (state : GrepState) : Prop where
  unwarned : state.warning = []
  going : state.incomplete = false
  earlier : state.lastIncluded < number

def overBudget (line : LogLine) : Text :=
  match line.matchOffset with
  | some matchOffset => if maxChars < line.chars then overBudgetWarning line matchOffset else []
  | none => []

theorem takeMatch_spec {state : GrepState} {line : LogLine} (searching : Searching line.number state) :
    let after := takeMatch contextLines maxChars lineCount state line
    after.ranges = addWindow state.ranges (matchWindow contextLines lineCount line.number) ∧
      after.incomplete = false ∧ after.lastIncluded = line.number ∧
      after.warning = overBudget maxChars line ∧
      (after.responseSize ≤ maxChars → after.warning = []) := by
  have warning : (takeMatch contextLines maxChars lineCount state line).warning =
      overBudget maxChars line := by
    cases found : line.matchOffset <;> simp only [takeMatch, overBudget, searching.unwarned, found]
  refine ⟨rfl, searching.going, rfl, warning, fun fits => ?_⟩
  have counted : lineSize line ≤ (takeMatch contextLines maxChars lineCount state line).responseSize := by
    simp [takeMatch, searching.earlier, Nat.le_add_left_of_le]
  have short : ¬maxChars < line.chars := by
    rw [lineSize] at counted
    omega
  rw [warning, overBudget]
  split
  next => rw [if_neg short]
  next => rfl

theorem takeContext_spec {state : GrepState} {line : LogLine} (searching : Searching line.number state) :
    let after := takeContext state line
    after.ranges = state.ranges ∧ after.incomplete = false ∧ after.lastIncluded ≤ line.number ∧
      after.warning = [] := by
  have earlier := searching.earlier
  unfold takeContext
  cases last : state.ranges.getLast? with
  | none => exact ⟨rfl, searching.going, Nat.le_of_lt earlier, searching.unwarned⟩
  | some range =>
    dsimp only
    split
    · exact ⟨rfl, searching.going, Nat.le_refl _, searching.unwarned⟩
    · exact ⟨rfl, searching.going, Nat.le_of_lt earlier, searching.unwarned⟩

structure Taken (state after : GrepState) (line : LogLine) (windows : List Interval) : Prop where
  ranges : after.ranges = windows.foldl addWindow state.ranges
  going : after.incomplete = false
  earlier : after.lastIncluded ≤ line.number
  warning : after.warning = [] ∨ after.warning = overBudget maxChars line
  unwarned : after.responseSize ≤ maxChars → after.warning = []

theorem taken_line {state : GrepState} {line : LogLine} (searching : Searching line.number state)
    (found : Bool) : Taken maxChars state
      (if found then takeMatch contextLines maxChars lineCount state line else takeContext state line) line
      (if found then [matchWindow contextLines lineCount line.number] else []) := by
  cases found with
  | true =>
    obtain ⟨ranges, going, last, warning, unwarned⟩ :=
      takeMatch_spec contextLines maxChars lineCount searching
    exact ⟨ranges, going, Nat.le_of_eq last, Or.inr warning, unwarned⟩
  | false =>
    obtain ⟨ranges, going, last, unwarned⟩ := takeContext_spec searching
    exact ⟨ranges, going, last, Or.inl unwarned, fun _ => unwarned⟩

/-- Why a search ends before the text does: a line is too long for the regex, or what was found
needs more than the response. -/
inductive Stopped (lines : List LogLine) (number : Nat) (after : GrepState) : Prop
  | uninspected (line : LogLine) (mem : line ∈ lines) (next : line.number = number)
      (unmatched : line.matched = none) (warning : after.warning = uninspectedWarning line)
  | full (line : LogLine) (mem : line ∈ lines) (last : line.number + 1 = number)
      (warning : after.warning = [] ∨ after.warning = overBudget maxChars line)
      (longer : maxChars < after.responseSize)

theorem Stopped.of_tail {line : LogLine} {lines : List LogLine} {number : Nat} {after : GrepState}
    (stopped : Stopped maxChars lines number after) : Stopped maxChars (line :: lines) number after := by
  cases stopped with
  | uninspected other mem next unmatched warning =>
    exact .uninspected other (List.mem_cons_of_mem _ mem) next unmatched warning
  | full other mem last warning longer =>
    exact .full other (List.mem_cons_of_mem _ mem) last warning longer

/-- The windows of the lines that were read; a search that stops short says why. -/
theorem grepLines_spec (previewChars : Nat) (wholes : List Text) {number offset : Nat} {state : GrepState}
    (searching : Searching number state) :
    let lines := records lib (.compile previewChars (some pattern)) number offset wholes
    let after := grepLines contextLines maxChars lineCount state lines
    ∃ read unread, wholes.map lineText = read ++ unread ∧
      after.ranges =
        (matchWindows lib pattern contextLines lineCount (read.zipIdx number)).foldl addWindow state.ranges ∧
      (after.incomplete = false → unread = [] ∧ after.warning = []) ∧
      (after.incomplete = true → Stopped maxChars lines (number + read.length) after) := by
  induction wholes generalizing number offset state with
  | nil =>
    refine ⟨[], [], rfl, rfl, fun _ => ⟨rfl, searching.unwarned⟩, fun incomplete => ?_⟩
    rw [records, grepLines, searching.going] at incomplete
    cases incomplete
  | cons whole wholes ih =>
    intro lines after
    let line := record lib (.compile previewChars (some pattern)) number offset (lineText whole)
    have here : line.number = number := rfl
    cases matched : line.matched with
    | none =>
      have stops : after = { state with warning := uninspectedWarning line, incomplete := true } := by
        simp only [after, lines, records, grepLines, show (record lib _ number offset _).matched = none
          from matched]
        rfl
      rw [stops]
      refine ⟨[], lineText whole :: wholes.map lineText, rfl, rfl, fun complete => ?_, fun _ => ?_⟩
      · cases complete
      · exact .uninspected line List.mem_cons_self rfl matched rfl
    | some found =>
      have isFound := record_matched lib pattern matched
      have taken := @taken_line contextLines maxChars lineCount state line searching found
      have window : matchWindows lib pattern contextLines lineCount [(lineText whole, number)] =
          if found then [matchWindow contextLines lineCount number] else [] := by
        rw [isFound, matchWindows, List.filter_cons]
        split <;> rfl
      have runs : after = grepLines contextLines maxChars lineCount state (line :: records lib
          (.compile previewChars (some pattern)) (number + 1) (offset + whole.length) wholes) := rfl
      simp only [runs, grepLines, matched]
      generalize (if found = true then _ else _ : GrepState) = taking at taken ⊢
      by_cases full : maxChars < taking.responseSize
      · rw [if_pos full]
        refine ⟨[lineText whole], wholes.map lineText, rfl, ?_, fun complete => ?_, fun _ => ?_⟩
        · rw [List.zipIdx_singleton, window]
          exact taken.ranges
        · cases complete
        · exact .full line List.mem_cons_self rfl taken.warning full
      · rw [if_neg full]
        have onward : ∀ before, Searching (number + 1) { taking with before := before } := fun _ =>
          ⟨taken.unwarned (Nat.not_lt.1 full), taken.going, Nat.lt_succ_of_le taken.earlier⟩
        obtain ⟨read, unread, split, ranges, complete, stopped⟩ := ih (onward _)
        refine ⟨lineText whole :: read, unread,
          by rw [List.map_cons, split, List.cons_append], ?_, complete, fun incomplete => ?_⟩
        · have windows :
              matchWindows lib pattern contextLines lineCount ((lineText whole :: read).zipIdx number) =
              (if found then [matchWindow contextLines lineCount number] else []) ++
                matchWindows lib pattern contextLines lineCount (read.zipIdx (number + 1)) := by
            rw [← window, ← matchWindows_append]
            rfl
          rw [windows, List.foldl_append]
          exact ranges.trans (congrArg (List.foldl addWindow · _) taken.ranges)
        · rw [List.length_cons, Nat.add_comm read.length 1, ← Nat.add_assoc]
          exact (stopped incomplete).of_tail

/-- The lines that the response size counts: read and shown, each once. -/
structure Counted (number : Nat) (seen : List LogLine) (state : GrepState) : Prop where
  numbers : seen.map LogLine.number = List.range' 1 seen.length
  next : number = seen.length + 1
  before : state.before = lastOf contextLines seen
  last : state.lastIncluded < number
  starts : ∀ range ∈ state.ranges, range.1 ≤ state.lastIncluded
  size : ∃ counted : List LogLine, counted.Subperm seen ∧
    (∀ line ∈ counted, line.number ≤ state.lastIncluded ∧ Covers state.ranges line.number) ∧
    state.responseSize = (counted.map lineSize).sum

theorem Counted.near {contextLines number : Nat} {seen : List LogLine} {state : GrepState}
    (counted : Counted contextLines number seen state) :
    ∀ line ∈ state.before, 1 ≤ line.number ∧ line.number < number ∧ number ≤ line.number + contextLines := by
  intro line mem
  rw [counted.before, lastOf] at mem
  have numbered : line.number ∈ (seen.map LogLine.number).drop (seen.length - contextLines) := by
    rw [← List.map_drop]
    exact List.mem_map_of_mem mem
  rw [counted.numbers, List.drop_range', List.mem_range'_1] at numbered
  have next := counted.next
  omega

theorem Counted.onward {number : Nat} {seen : List LogLine} {state after : GrepState} {line : LogLine}
    (counted : Counted contextLines number seen state) (here : line.number = number)
    (last : after.lastIncluded ≤ number) (starts : ∀ range ∈ after.ranges, range.1 ≤ after.lastIncluded)
    (size : ∃ counted : List LogLine, counted.Subperm (seen ++ [line]) ∧
      (∀ line ∈ counted, line.number ≤ after.lastIncluded ∧ Covers after.ranges line.number) ∧
      after.responseSize = (counted.map lineSize).sum) :
    Counted contextLines (number + 1) (seen ++ [line])
      { after with before := lastOf contextLines (state.before ++ [line]) } where
  numbers := by
    rw [List.map_append, counted.numbers, List.map_singleton, here, counted.next, List.length_append,
      List.length_singleton, List.range'_concat, Nat.one_mul, Nat.add_comm 1]
  next := by rw [List.length_append, List.length_singleton, counted.next]
  before := by rw [counted.before, lastOf_append_lastOf]
  last := Nat.lt_succ_of_le last
  starts := starts
  size := size

theorem Counted.takeMatch {number : Nat} {seen : List LogLine} {state : GrepState} {line : LogLine}
    (counted : Counted contextLines number seen state) (here : line.number = number)
    (within : number ≤ lineCount) : Counted contextLines (number + 1) (seen ++ [line])
      { takeMatch contextLines maxChars lineCount state line with
        before := lastOf contextLines (state.before ++ [line]) } := by
  obtain ⟨earlier, inside, shown, size⟩ := counted.size
  have last : state.lastIncluded < line.number := here ▸ counted.last
  have bounds : ∀ entry ∈ state.before ++ [line], 1 ≤ entry.number ∧ entry.number ≤ line.number ∧
      line.number ≤ entry.number + contextLines := by
    rw [List.forall_mem_append, List.forall_mem_singleton, here]
    refine ⟨fun entry mem => ?_, Nat.one_le_of_lt counted.last, Nat.le_refl _, Nat.le_add_right _ _⟩
    have near := counted.near entry mem
    omega
  refine counted.onward contextLines here (Nat.le_of_eq here) (fun range mem => ?_)
    ⟨earlier ++ (state.before ++ [line]).filter fun entry => state.lastIncluded < entry.number,
      ?_, ?_, ?_⟩
  · show range.1 ≤ line.number
    refine starts_addWindow (fun range mem => ?_) ?_ range mem
    · exact Nat.le_of_lt (Nat.lt_of_le_of_lt (counted.starts range mem) last)
    · have one := (bounds line (by simp)).1
      simp only [matchWindow]
      omega
  · have parted := List.filter_append_perm (fun entry : LogLine => !decide (state.lastIncluded < entry.number))
      (seen ++ [line])
    simp only [Bool.not_not] at parted
    refine (List.Subperm.append ?_ ?_).trans parted.subperm
    · have kept : earlier.filter (fun entry => !decide (state.lastIncluded < entry.number)) = earlier := by
        rw [List.filter_eq_self]
        intro entry mem
        have := (shown entry mem).1
        simp only [Bool.not_eq_true', decide_eq_false_iff_not]
        omega
      rw [← kept]
      exact (inside.trans (List.sublist_append_left seen [line]).subperm).filter _
    · refine List.Sublist.subperm (List.Sublist.filter _ ?_)
      rw [counted.before]
      exact (List.drop_sublist _ _).append (List.Sublist.refl [line])
  · rw [List.forall_mem_append]
    constructor
    · intro entry mem
      obtain ⟨low, covered⟩ := shown entry mem
      exact ⟨Nat.le_trans low (Nat.le_of_lt last), covered.addWindow⟩
    · intro entry mem
      obtain ⟨mem, fresh⟩ := List.mem_filter.1 mem
      have fresh : state.lastIncluded < entry.number := of_decide_eq_true fresh
      obtain ⟨one, low, near⟩ := bounds entry mem
      refine ⟨low, covers_addWindow_window (fun range mem => ?_) ?_⟩
      · exact Nat.le_of_lt (Nat.lt_of_le_of_lt (counted.starts range mem) fresh)
      · simp only [matchWindow]
        omega
  · rw [List.map_append, List.sum_append, ← size]
    rfl

theorem before_takeContext (state : GrepState) (line : LogLine) :
    (Outputs.takeContext state line).before = state.before := by
  unfold Outputs.takeContext
  cases state.ranges.getLast? with
  | none => rfl
  | some range =>
    dsimp only
    split <;> rfl

theorem Counted.takeContext {number : Nat} {seen : List LogLine} {state : GrepState} {line : LogLine}
    (counted : Counted contextLines number seen state) (here : line.number = number) :
    Counted contextLines (number + 1) (seen ++ [line])
      { takeContext state line with before := lastOf contextLines (state.before ++ [line]) } := by
  obtain ⟨earlier, inside, shown, size⟩ := counted.size
  have last : state.lastIncluded < line.number := here ▸ counted.last
  have same : Counted contextLines (number + 1) (seen ++ [line])
      { state with before := lastOf contextLines (state.before ++ [line]) } :=
    counted.onward contextLines here (Nat.le_of_lt counted.last) counted.starts
      ⟨earlier, inside.trans (List.sublist_append_left seen [line]).subperm, shown, size⟩
  unfold Outputs.takeContext
  cases held : state.ranges.getLast? with
  | none => exact same
  | some range =>
    dsimp only
    split
    next reach =>
      have mem := List.mem_of_getLast? held
      have started := counted.starts range mem
      refine counted.onward contextLines here (Nat.le_of_eq here) (fun other found => ?_)
        ⟨earlier ++ [line], inside.append (List.Subperm.refl [line]), ?_, ?_⟩
      · exact Nat.le_trans (counted.starts other found) (Nat.le_of_lt last)
      · rw [List.forall_mem_append, List.forall_mem_singleton]
        refine ⟨fun entry old => ?_, Nat.le_refl _, range, mem, by omega, reach.1⟩
        exact ⟨Nat.le_trans (shown entry old).1 (Nat.le_of_lt last), (shown entry old).2⟩
      · rw [List.map_append, List.sum_append, ← size]
        rfl
    next => exact same

theorem grepLines_counted {number : Nat} {seen lines : List LogLine} {state : GrepState}
    (counted : Counted contextLines number seen state)
    (numbers : lines.map LogLine.number = List.range' number lines.length)
    (within : number + lines.length ≤ lineCount + 1) :
    let after := grepLines contextLines maxChars lineCount state lines
    ∃ counted : List LogLine, counted.Subperm (seen ++ lines) ∧
      (∀ line ∈ counted, Covers after.ranges line.number) ∧
      after.responseSize = (counted.map lineSize).sum := by
  induction lines generalizing number seen state with
  | nil =>
    obtain ⟨earlier, inside, shown, size⟩ := counted.size
    exact ⟨earlier, (List.append_nil seen).symm ▸ inside, fun line mem => (shown line mem).2, size⟩
  | cons line lines ih =>
    rw [List.map_cons, List.length_cons, List.range'_succ] at numbers
    obtain ⟨here, later⟩ := List.cons.inj numbers
    rw [List.length_cons] at within
    have stops : ∀ {seen : List LogLine} {number : Nat} {state : GrepState} (lines : List LogLine),
        Counted contextLines number seen state → ∃ counted : List LogLine, counted.Subperm (seen ++ lines) ∧
          (∀ line ∈ counted, Covers state.ranges line.number) ∧
          state.responseSize = (counted.map lineSize).sum := by
      intro seen number state lines counted
      obtain ⟨earlier, inside, shown, size⟩ := counted.size
      exact ⟨earlier, inside.trans (List.sublist_append_left seen lines).subperm,
        fun line mem => (shown line mem).2, size⟩
    unfold grepLines
    cases line.matched with
    | none =>
      have kept := stops (line :: lines) counted
      exact kept
    | some found =>
      have onward : Counted contextLines (number + 1) (seen ++ [line])
          { (if found then Outputs.takeMatch contextLines maxChars lineCount state line
              else Outputs.takeContext state line) with
            before := lastOf contextLines (state.before ++ [line]) } := by
        cases found with
        | true => exact counted.takeMatch contextLines maxChars lineCount here (by omega)
        | false => exact counted.takeContext contextLines here
      have kept : (if found then Outputs.takeMatch contextLines maxChars lineCount state line
          else Outputs.takeContext state line).before = state.before := by
        cases found with
        | true => rfl
        | false => exact before_takeContext state line
      have tail : seen ++ line :: lines = seen ++ [line] ++ lines := by simp
      dsimp only
      generalize (if found = true then _ else _ : GrepState) = taking at onward kept ⊢
      rw [kept, tail]
      split
      · have shown := stops lines onward
        exact shown
      · exact ih onward later (by omega)

end Searching

section Searches

variable (lib : RegexLibrary) (pattern : Text)

/-- The intervals, with gaps between them, of the lines in the window of a match among those read,
of a text with so many lines. -/
structure IsWindowUnion (contextLines lineCount : Nat) (read : List (Text × Nat))
    (ranges : List Interval) : Prop where
  merged : Merged ranges
  covers : ∀ n, Covers ranges n ↔ (1 ≤ n ∧ n ≤ lineCount) ∧
    ∃ line ∈ read, isMatch lib pattern line = true ∧ line.2 ≤ n + contextLines ∧ n ≤ line.2 + contextLines

theorem IsWindowUnion.eq_nil_iff {contextLines : Nat} {bodies : List Text} {ranges : List Interval}
    (union : IsWindowUnion lib pattern contextLines bodies.length (bodies.zipIdx 1) ranges) :
    ranges = [] ↔ (bodies.zipIdx 1).any (isMatch lib pattern) = false := by
  rw [List.any_eq_false]
  constructor
  · rintro rfl line mem found
    have below := List.snd_lt_add_of_mem_zipIdx mem
    have covered :=
      (union.covers line.2).2 ⟨⟨List.le_snd_of_mem_zipIdx mem, by omega⟩,
      line, mem, found, Nat.le_add_right _ _, Nat.le_add_right _ _⟩
    exact (covers_nil _).1 covered
  · intro unmatched
    cases ranges with
    | nil => rfl
    | cons range ranges =>
      have covered : Covers (range :: ranges) range.1 :=
        ⟨range, by simp, Nat.le_refl _, union.merged.proper range (by simp)⟩
      obtain ⟨-, line, mem, found, -⟩ := (union.covers range.1).1 covered
      exact absurd found (unmatched line mem)

theorem ascending_zipIdx (bodies : List Text) : (bodies.zipIdx 1).Pairwise fun line next => line.2 < next.2 := by
  rw [← List.pairwise_map, List.zipIdx_map_snd]
  exact List.pairwise_lt_range'

theorem isWindowUnion_foldl (contextLines : Nat) {bodies read unread : List Text}
    (split : bodies = read ++ unread) : IsWindowUnion lib pattern contextLines bodies.length (read.zipIdx 1)
      ((matchWindows lib pattern contextLines bodies.length (read.zipIdx 1)).foldl addWindow []) := by
  have numbered : ∀ line ∈ read.zipIdx 1, 1 ≤ line.2 ∧ line.2 ≤ bodies.length := by
    intro line mem
    have below := List.snd_lt_add_of_mem_zipIdx mem
    rw [split, List.length_append]
    exact ⟨List.le_snd_of_mem_zipIdx mem, by omega⟩
  have proper : ∀ window ∈ matchWindows lib pattern contextLines bodies.length (read.zipIdx 1),
      window.1 ≤ window.2 := by
    simp only [matchWindows, List.mem_map, List.mem_filter]
    rintro _ ⟨line, ⟨mem, -⟩, rfl⟩
    have := numbered line mem
    simp only [matchWindow]
    omega
  have sorted : (matchWindows lib pattern contextLines bodies.length (read.zipIdx 1)).Pairwise
      fun window next => window.1 ≤ next.1 := by
    rw [matchWindows, List.pairwise_map]
    refine ((ascending_zipIdx read).filter _).imp fun before => ?_
    simp only [matchWindow]
    omega
  obtain ⟨merged, covers⟩ := covers_foldl_addWindow .nil proper sorted (by simp)
  refine ⟨merged, fun n => ?_⟩
  rw [covers, covers_nil, false_or, Covers]
  simp only [matchWindows, List.mem_map, List.mem_filter]
  constructor
  · rintro ⟨_, ⟨line, ⟨mem, found⟩, rfl⟩, bounds⟩
    simp only [matchWindow] at bounds
    exact ⟨by omega, line, mem, found, by omega, by omega⟩
  · rintro ⟨bounds, line, mem, found, window⟩
    exact ⟨_, ⟨line, ⟨mem, found⟩, rfl⟩, by simp only [matchWindow]; omega, by simp only [matchWindow]; omega⟩

theorem lines_of_cutShort {lines : List (Text × Nat)}
    (ascending : lines.Pairwise fun line next => line.2 < next.2)
    {shown ranges : List Interval} (cut : CutShort shown ranges) :
    shown.flatMap (linesOf lines) <+: ranges.flatMap (linesOf lines) := by
  obtain rfl | ⟨before, start, stop, further, later, rfl, rfl, reach⟩ := cut
  · exact List.nil_prefix
  · have longer : linesOf lines (start, stop) <+: linesOf lines (start, further) := by
      clear later before
      induction lines with
      | nil => exact List.prefix_rfl
      | cons line lines ih =>
        rw [List.pairwise_cons] at ascending
        by_cases inside : start ≤ line.2 ∧ line.2 ≤ stop
        · rw [linesOf_cons_of_mem inside, linesOf_cons_of_mem (by dsimp only; omega), List.cons_prefix_cons]
          exact ⟨rfl, ih ascending.2⟩
        · by_cases early : line.2 < start
          · rw [linesOf_cons_of_not_mem (by dsimp only; omega), linesOf_cons_of_not_mem (by dsimp only; omega)]
            exact ih ascending.2
          · have past : linesOf (line :: lines) (start, stop) = [] := by
              refine linesOf_eq_nil ?_
              simp only [List.forall_mem_cons]
              refine ⟨by omega, fun next mem => ?_⟩
              have := ascending.1 next mem
              omega
            rw [past]
            exact List.nil_prefix
    simp only [List.flatMap_append, List.flatMap_cons, List.flatMap_nil, List.append_nil]
    exact (List.prefix_append_right_inj _).2 (longer.trans (List.prefix_append _ _))

def withWarning (warning body : Text) : Text :=
  if warning ≠ [] then warning ++ (if body ≠ [] then '\n' :: body else []) else body

theorem rows_records (previewChars : Nat) (ranges : List Interval) (wholes : List Text) (number offset : Nat) :
    ((records lib (.compile previewChars (some pattern)) number offset wholes).filter
        fun line => inAny ranges line.number).map lineSize =
      (((wholes.map lineText).zipIdx number).filter fun line => inAny ranges line.2).map lineChars := by
  induction wholes generalizing number offset with
  | nil => rfl
  | cons whole wholes ih =>
    rw [records, List.map_cons, List.zipIdx_cons, List.filter_cons, List.filter_cons]
    split
    next shown =>
      rw [if_pos (show inAny ranges number = true from shown), List.map_cons, List.map_cons, ih]
      rfl
    next hidden => rw [if_neg (show ¬inAny ranges number = true from hidden), ih]

theorem numbers_records (query : Query) (wholes : List Text) (number offset : Nat) :
    (records lib query number offset wholes).map LogLine.number = List.range' number wholes.length := by
  induction wholes generalizing number offset with
  | nil => rfl
  | cons whole wholes ih => exact congrArg (number :: ·) (ih (number + 1) _)

/-- What the response size counts is shown, so a response that is too long has more to show than
it may. -/
theorem rendering_of_full {contextLines maxChars : Nat} {text : Text} (after : GrepState)
    (ran : after = grepLines contextLines maxChars (splitLines text).length .initial
      (records lib (.compile (maxChars + 1) (some pattern)) 1 0 (splitKeepends text)))
    (full : maxChars < after.responseSize) :
    maxChars + 1 < (rendering ((splitLines text).zipIdx 1) after.ranges).length := by
  have whole : (records lib (.compile (maxChars + 1) (some pattern)) 1 0 (splitKeepends text)).map
      LogLine.number = List.range' 1 (splitKeepends text).length := numbers_records lib _ _ 1 0
  have many : (records lib (.compile (maxChars + 1) (some pattern)) 1 0 (splitKeepends text)).length =
      (splitLines text).length := by
    have lengths := congrArg List.length whole
    rw [List.length_map, List.length_range'] at lengths
    exact lengths.trans (List.length_map _).symm
  obtain ⟨counted, inside, shown, size⟩ := @grepLines_counted contextLines maxChars (splitLines text).length
    1 [] _ .initial
    ⟨rfl, rfl, (lastOf_nil _).symm, Nat.zero_lt_one, List.forall_mem_nil _,
      [], List.Subperm.refl [], List.forall_mem_nil _, rfl⟩
    (whole.trans (congrArg (List.range' 1) (by rw [many]; exact (List.length_map _).symm)))
    (by rw [many]; omega)
  rw [← ran] at shown size
  rw [List.nil_append] at inside
  have kept : counted.filter (fun line => inAny after.ranges line.number) = counted := by
    rw [List.filter_eq_self]
    exact fun line mem => inAny_iff.mpr (shown line mem)
  have below : (counted.map lineSize).sum ≤
      ((((splitLines text).zipIdx 1).filter fun line => inAny after.ranges line.2).map lineChars).sum := by
    obtain ⟨same, perm, sublist⟩ := inside.filter fun line => inAny after.ranges line.number
    have rows := rows_records lib pattern (maxChars + 1) after.ranges (splitKeepends text) 1 0
    rw [← kept, ← (perm.map lineSize).sum_nat, show splitLines text = (splitKeepends text).map lineText
      from rfl, ← rows]
    exact (sublist.map lineSize).sum_le_sum fun size _ => Nat.zero_le size
  have rendered := sum_shown_le_rendering ((splitLines text).zipIdx 1) after.ranges
  have some : after.ranges ≠ [] := by
    intro none
    have absent : counted = [] := by
      rw [List.eq_nil_iff_forall_not_mem]
      intro line mem
      have covered := shown line mem
      rw [none] at covered
      exact (covers_nil _).1 covered
    rw [size, absent] at full
    exact Nat.not_lt_zero _ full
  have positive := List.length_pos_iff.mpr some
  omega

/-- Why an answer is cut short: a line is too long for the regex, or the windows found need more
than the response. -/
inductive CutReason (maxChars : Nat) (numbered : List LogLine) (lines : List (Text × Nat))
    (read : List Text) (shown : List Interval) : Text → Prop
  | uninspected (line : LogLine) (mem : line ∈ numbered) (next : line.number = read.length + 1)
      (unmatched : line.matched = none) :
      CutReason maxChars numbered lines read shown (uninspectedWarning line)
  | full (longer : maxChars + 1 < (rendering lines shown).length) :
      CutReason maxChars numbered lines read shown []
  | overBudget (line : LogLine) (mem : line ∈ numbered) (last : line.number = read.length)
      (longer : maxChars + 1 < (rendering lines shown).length) :
      CutReason maxChars numbered lines read shown (overBudget maxChars line)

theorem CutReason.shows {maxChars : Nat} {numbered : List LogLine} {lines : List (Text × Nat)}
    {read : List Text} {shown : List Interval} {warning : Text}
    (why : CutReason maxChars numbered lines read shown warning) : warning ≠ [] ∨ shown ≠ [] := by
  have some : maxChars + 1 < (rendering lines shown).length → shown ≠ [] := by
    rintro longer rfl
    exact Nat.not_lt_zero _ longer
  cases why with
  | uninspected => exact Or.inl (List.append_ne_nil_of_right_ne_nil _ (by decide))
  | full longer => exact Or.inr (some longer)
  | overBudget _ _ _ longer => exact Or.inr (some longer)

/-- What a search shows of the text when it does not show everything: the windows of the lines it
read, which are where all windows begin, and why it read no further or shows no more. -/
def ShowsFirst (contextLines maxChars : Nat) (chunks : List Text) (ranges : List Interval)
    (body : Text) : Prop :=
  ∃ read unread shown warning, splitLines chunks.flatten = read ++ unread ∧
    IsWindowUnion lib pattern contextLines (splitLines chunks.flatten).length (read.zipIdx 1) shown ∧
    CutShort shown ranges ∧
    shown.flatMap (linesOf ((splitLines chunks.flatten).zipIdx 1)) <+:
      ranges.flatMap (linesOf ((splitLines chunks.flatten).zipIdx 1)) ∧
    CutReason maxChars (iterLogLines lib chunks (maxChars + 1) (some pattern))
      ((splitLines chunks.flatten).zipIdx 1) read shown warning ∧
    body = withWarning warning
      (QueryText.stripFeeds ((rendering ((splitLines chunks.flatten).zipIdx 1) shown).take (maxChars + 1)))

/-- A search shows the lines of all windows, or it says that it does not, and then those that it
shows come first. -/
theorem log_grep_is_complete_or_says_so (contextLines maxChars : Nat) {chunks again : List Text}
    (same : again.flatten = chunks.flatten) :
    let lines := (splitLines chunks.flatten).zipIdx 1
    let answer := logGrep lib chunks again pattern contextLines maxChars lines.length
    ∃ ranges, IsWindowUnion lib pattern contextLines lines.length lines ranges ∧
      (answer.2 = false → answer.1 =
        if lines.any (isMatch lib pattern) then QueryText.stripFeeds (rendering lines ranges)
        else noMatches pattern) ∧
      (answer.2 = true → ShowsFirst lib pattern contextLines maxChars chunks ranges answer.1) := by
  intro lines answer
  have length : lines.length = (splitLines chunks.flatten).length := List.length_zipIdx
  have searching : Searching 1 .initial := ⟨rfl, rfl, Nat.zero_lt_one⟩
  have spec := @grepLines_spec lib pattern contextLines maxChars lines.length (maxChars + 1)
    (splitKeepends chunks.flatten) 1 0 _ searching
  have overfull := @rendering_of_full lib pattern contextLines maxChars chunks.flatten _ rfl
  simp only [answer, logGrep]
  simp only [← iterLogLines_eq, ← length] at spec overfull
  generalize grepLines contextLines maxChars lines.length .initial
    (iterLogLines lib chunks (maxChars + 1) (some pattern)) = state at spec overfull ⊢
  obtain ⟨read, unread, split, found, complete, cut⟩ := spec
  replace split : splitLines chunks.flatten = read ++ unread := split
  replace found : state.ranges =
      (matchWindows lib pattern contextLines lines.length (read.zipIdx 1)).foldl addWindow [] := found
  have union := isWindowUnion_foldl lib pattern contextLines
    (List.append_nil (splitLines chunks.flatten)).symm
  have shown := isWindowUnion_foldl lib pattern contextLines split
  rw [← length] at union
  rw [← length, ← found] at shown
  have further :
      CutShort state.ranges
        ((matchWindows lib pattern contextLines lines.length lines).foldl addWindow []) := by
    have windows : matchWindows lib pattern contextLines lines.length lines =
        matchWindows lib pattern contextLines lines.length (read.zipIdx 1) ++
          matchWindows lib pattern contextLines lines.length (unread.zipIdx (1 + read.length)) := by
      rw [← matchWindows_append, ← List.zipIdx_append, ← split]
    rw [windows, List.foldl_append, found]
    exact cutShort_foldl _ _
  have inside : ∀ range ∈ state.ranges, 1 ≤ range.1 ∧ range.2 ≤ (splitLines again.flatten).length := by
    intro range mem
    have proper := shown.merged.proper range mem
    rw [same, ← length]
    exact ⟨((shown.covers range.1).1 ⟨range, mem, Nat.le_refl _, proper⟩).1.1,
      ((shown.covers range.2).1 ⟨range, mem, proper, Nat.le_refl _⟩).1.2⟩
  have second := logRanges_eq lib again shown.merged inside maxChars
  rw [same] at second
  simp only [second, Bool.or_eq_false_iff, Bool.or_eq_true, decide_eq_false_iff_not, decide_eq_true_eq]
  refine ⟨_, union, ?_, ?_⟩
  · rintro ⟨short, ended⟩
    obtain ⟨rfl, unwarned⟩ := complete ended
    have all : state.ranges =
        (matchWindows lib pattern contextLines lines.length lines).foldl addWindow [] := by
      rw [found, ← List.append_nil read, ← split]
    rw [← all] at union ⊢
    have matching := IsWindowUnion.eq_nil_iff lib pattern (length ▸ union)
    rw [List.take_of_length_le (Nat.not_lt.1 short), unwarned, if_neg (by simp)]
    by_cases empty : state.ranges = []
    · rw [if_pos empty, matching.1 empty]
      rfl
    · rw [if_neg empty, if_pos (Bool.not_eq_false _ ▸ fun absent => empty (matching.2 absent))]
  · intro more
    have why : CutReason maxChars (iterLogLines lib chunks (maxChars + 1) (some pattern)) lines read
        state.ranges state.warning := by
      cases ended : state.incomplete with
      | false =>
        rw [(complete ended).2]
        exact .full (more.resolve_right (by rw [ended]; exact Bool.false_ne_true))
      | true =>
        cases cut ended with
        | uninspected line mem next unmatched warning =>
          rw [warning]
          exact .uninspected line mem (next.trans (Nat.add_comm _ _)) unmatched
        | full line mem last warning longer =>
          obtain warning | warning := warning
          · rw [warning]
            exact .full (overfull longer)
          · rw [warning]
            exact .overBudget line mem (by omega) (overfull longer)
    refine ⟨read, unread, state.ranges, state.warning, split, length ▸ shown, further,
      lines_of_cutShort (ascending_zipIdx _) further, why, ?_⟩
    have shows := why.shows
    rw [withWarning]
    by_cases unwarned : state.warning = []
    · rw [if_neg (not_not.2 unwarned), if_neg (shows.resolve_left (not_not.2 unwarned)),
          if_neg (not_not.2 unwarned)]
    · rw [if_pos unwarned, if_pos unwarned]

/-- Two matches with a line between their windows, in chunks cut elsewhere the second time. -/
theorem two_windows_complete :
    let text : Text := "ab\nc\nd\ne\nab".toList
    let lines := (splitLines [text].flatten).zipIdx 1
    let answer := logGrep spelledSearch [text] [text.take 3, text.drop 3] "ab".toList 0 100 lines.length
    ∃ ranges, IsWindowUnion spelledSearch "ab".toList 0 lines.length lines ranges ∧
      (answer.2 = false → answer.1 =
        if lines.any (isMatch spelledSearch "ab".toList) then QueryText.stripFeeds (rendering lines ranges)
        else noMatches "ab".toList) ∧
      (answer.2 = true → ShowsFirst spelledSearch "ab".toList 0 100 [text] ranges answer.1) :=
  log_grep_is_complete_or_says_so spelledSearch "ab".toList 0 100 (by decide)

/-- Ten lines match and five fill the response, whose label ends there: it is not how the whole
rendering begins. -/
theorem label_of_a_full_response :
    let text : Text := (List.replicate 10 "a\n".toList).flatten
    let lines := (splitLines text).zipIdx 1
    logGrep spelledSearch [text] [text] "a".toList 0 20 lines.length = ("[lines 1-5]\n1| a\n2| a".toList, true) ∧
      IsWindowUnion spelledSearch "a".toList 0 lines.length lines [(1, 10)] ∧
      ¬ "[lines 1-5]\n1| a".toList <+: rendering lines [(1, 10)] := by
  intro text lines
  have union := isWindowUnion_foldl spelledSearch "a".toList 0 (List.append_nil (splitLines text)).symm
  have whole :
      (matchWindows spelledSearch "a".toList 0 (splitLines text).length ((splitLines text).zipIdx 1)).foldl
      addWindow [] = [(1, 10)] := by decide
  rw [whole] at union
  exact ⟨by decide, union, by decide⟩

end Searches

end OpenSquilla.Outputs
