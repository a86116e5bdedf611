import OpenSquilla.TextTools.RawAlignment

set_option autoImplicit false

-- The scan of a text leaves a state from which the scan of the next one goes on. It takes up where
-- the token that was kept begins, at a place that one pass over both texts comes by.

namespace OpenSquilla.TextTools

open TextLines (Text)

variable {unicode : Unicode}

-- The scan of a text from what an earlier text left, its trailing token in front.
def continuedScan (unicode : Unicode) (state : RawHtmlState) (text : Text) :
    List MarkdownCodeRange × RawHtmlState :=
  scanRawHtmlCodeRanges unicode (state.trailingToken ++ text) (stateWithoutTrailing state)

-- The second of two texts is scanned as in one pass over both.
def Continues (unicode : Unicode) (first second : Text) : Prop :=
  let whole := scanRawHtmlCodeRanges unicode (first ++ second) {}
  let state := (scanRawHtmlCodeRanges unicode first {}).2
  (∀ position < second.length, positionIsInCode (first.length + position) whole.1 = true →
    positionIsInCode position (rawHtmlRangesFromState unicode second state []) = true) ∧
  (whole.2.isOpaque = false → (continuedScan unicode state second).2.isOpaque = false →
    whole.2 = (continuedScan unicode state second).2)

def resumeAt (state : RawHtmlState) : RawScan :=
  { tags := state.tags, inComment := state.inComment
    contextStart := if state.tags ≠ [] ∨ state.inComment then some 0 else none }

def lastScan (unicode : Unicode) (text : Text) : RawScan :=
  lastFrom unicode text (text.length + 1) (resumeAt {})

variable {state : RawHtmlState}

theorem scan_eq (clear : state.isOpaque = false) (text : Text) : scanRawHtmlCodeRanges unicode text state =
      rawScanFrom unicode text (text.length + 1) (resumeAt state) := by
  unfold scanRawHtmlCodeRanges stateWithoutTrailing resumeAt
  rw [clear]
  rfl

theorem continuedScan_eq (clear : state.isOpaque = false) (text : Text) :
    continuedScan unicode state text = rawScanFrom unicode (state.trailingToken ++ text)
      ((state.trailingToken ++ text).length + 1) (resumeAt state) :=
  scan_eq (show (stateWithoutTrailing state).isOpaque = false from clear) _

theorem ranges_eq (state : RawHtmlState) (text : Text) : rawHtmlRangesFromState unicode text state [] =
      projectCodeRanges (continuedScan unicode state text).1 state.trailingToken.length
        text.length := rfl

theorem positionIsInCode_project {ranges : List MarkdownCodeRange} {offset length position : Nat}
    (inside : position < length) (code : positionIsInCode (offset + position) ranges = true) :
    positionIsInCode position (projectCodeRanges ranges offset length) = true := by
  unfold positionIsInCode at code ⊢
  rw [List.any_eq_true] at code ⊢
  obtain ⟨range, present, within⟩ := code
  rw [MarkdownCodeRange.span, inSpan_iff] at within
  refine ⟨⟨range.start - offset, min length (range.stop - offset), range.closed⟩, ?_, ?_⟩
  · unfold projectCodeRanges
    apply List.mem_map_of_mem
    rw [List.mem_filter, Bool.and_eq_true, decide_eq_true_eq, decide_eq_true_eq]
    exact ⟨present, by omega, by omega⟩
  · rw [MarkdownCodeRange.span, inSpan_iff]
    dsimp only
    omega

theorem placed_start (text : Text) : Placed text (resumeAt {}) where
  context := by simp [resumeAt]
  ranges := by simp [resumeAt]
  cursor := Nat.zero_le _
  comment := by simp [resumeAt]

variable (unicode) in
theorem lastScan_placed (text : Text) : Placed text (lastScan unicode text) :=
  (lastFrom_spec (placed_start text) (by simp [resumeAt])).1

variable (unicode) in
theorem lastScan_leaves (text : Text) : Leaves unicode text (lastScan unicode text) :=
  (lastFrom_spec (placed_start text) (by simp [resumeAt])).2.1

variable (unicode) in
theorem scan_append (first second : Text) : scanRawHtmlCodeRanges unicode (first ++ second) {} =
      rawScanFrom unicode (first ++ second) ((first ++ second).length + 1)
        (lastScan unicode first) := by
  rw [scan_eq rfl]
  exact ((lastFrom_spec (placed_start first) (by simp [resumeAt])).2.2 second _
    (by simp [resumeAt])).2

theorem scan_last (text : Text) : scanRawHtmlCodeRanges unicode text {} =
      rawScanFrom unicode text (text.length + 1) (lastScan unicode text) := by
  have whole := scan_append unicode text []
  rwa [List.append_nil] at whole

theorem continues_of_aligned {first second before : Text} {whole rest : RawScan}
    (left : (scanRawHtmlCodeRanges unicode first {}).2 = state) (split : first = before ++ state.trailingToken)
    (aligned : Aligned before (state.trailingToken ++ second) state.trailingToken.length whole rest)
    (onePass : scanRawHtmlCodeRanges unicode (first ++ second) {} =
      rawScanFrom unicode (first ++ second) ((state.trailingToken ++ second).length + 1) whole)
    (continued : continuedScan unicode state second =
      rawScanFrom unicode (state.trailingToken ++ second)
        ((state.trailingToken ++ second).length + 1) rest) :
    Continues unicode first second := by
  have joined : first ++ second = before ++ (state.trailingToken ++ second) := by
    rw [← List.append_assoc, ← split]
  obtain ⟨covers, same⟩ := rawScanFrom_alike unicode aligned
    ((state.trailingToken ++ second).length + 1)
  rw [joined] at onePass
  unfold Continues
  dsimp only
  rw [left, joined, onePass, ranges_eq, continued]
  refine ⟨fun position inside code => ?_, fun _ _ => same⟩
  apply positionIsInCode_project inside
  apply covers _ (Nat.le_add_right _ _)
  rw [← Nat.add_assoc, ← List.length_append, ← split]
  exact code

theorem continues_of_opaque {first second : Text}
    (left : (scanRawHtmlCodeRanges unicode first {}).2 = state) (closed : state.isOpaque = true)
    (empty : state.trailingToken = []) : Continues unicode first second := by
  obtain ⟨tags, inComment, isOpaque, trailingToken⟩ := state
  cases closed
  cases empty
  have continued : continuedScan unicode ⟨tags, inComment, true, []⟩ second =
      (if second = [] then [] else [⟨0, second.length, false⟩], ⟨tags, inComment, true, []⟩) := rfl
  unfold Continues
  dsimp only
  rw [left, ranges_eq, continued]
  refine ⟨fun position inside _ => ?_, fun _ clear => nomatch clear⟩
  have spoken : second ≠ [] := List.ne_nil_of_length_pos (by omega)
  apply positionIsInCode_project inside
  rw [if_neg spoken, positionIsInCode_singleton, List.length_nil]
  omega

theorem continues_nil {first : Text}
    (left : (scanRawHtmlCodeRanges unicode first {}).2 = state) (empty : state.trailingToken = []) :
    Continues unicode first [] := by
  have same : (continuedScan unicode state []).2 = state := by
    obtain ⟨tags, inComment, isOpaque, trailingToken⟩ := state
    cases empty
    cases isOpaque <;> rfl
  unfold Continues
  dsimp only
  rw [left, List.append_nil, same, left]
  exact ⟨fun position inside => absurd inside (Nat.not_lt_zero _), fun _ _ => rfl⟩

theorem aligned_at {first second before : Text} {last : RawScan}
    (placed : Placed first last) (split : first = before ++ state.trailingToken)
    (tags : state.tags = last.tags) (inComment : state.inComment = last.inComment)
    (suffix : last.inComment = true →
      commentClosePartialSuffix (first ++ second) =
        commentClosePartialSuffix (state.trailingToken ++ second)) (skip : Nat) :
    Aligned before (state.trailingToken ++ second) state.trailingToken.length
      { last with cursor := before.length + skip } { resumeAt state with cursor := skip } where
  cursor := rfl
  tags := tags.symm
  inComment := inComment.symm
  context := by
    have context := placed.context
    rw [← tags, ← inComment] at context
    show Option.Rel _ last.contextStart
      (if state.tags ≠ [] ∨ state.inComment = true then some 0 else none)
    split
    · next within =>
      obtain ⟨start, opened⟩ := Option.isSome_iff_exists.mp (context.mpr within)
      rw [opened]
      exact .some (Nat.zero_le _)
    · next outside =>
      have closed : last.contextStart = none := by
        rw [← Option.not_isSome_iff_eq_none]
        exact fun opened => outside (context.mp opened)
      rw [closed]
      exact .none
  covers := by
    intro position reached code
    obtain ⟨range, present, within⟩ := List.any_eq_true.mp code
    rw [MarkdownCodeRange.span, inSpan_iff] at within
    have old := placed.ranges range present
    have inside := placed.cursor
    rw [split, List.length_append] at inside
    omega
  suffix := by
    intro comment
    rw [← List.append_assoc, ← split]
    exact suffix (inComment ▸ comment)

theorem continues_at {first second before : Text} (skip : Nat)
    (left : (scanRawHtmlCodeRanges unicode first {}).2 = state) (split : first = before ++ state.trailingToken)
    (tags : state.tags = (lastScan unicode first).tags)
    (inComment : state.inComment = (lastScan unicode first).inComment) (clear : state.isOpaque = false)
    (suffix : (lastScan unicode first).inComment = true →
      commentClosePartialSuffix (first ++ second) =
        commentClosePartialSuffix (state.trailingToken ++ second))
    (passed : rawScanFrom unicode (first ++ second) ((first ++ second).length + 1)
        (lastScan unicode first) =
      rawScanFrom unicode (first ++ second) ((first ++ second).length + 1)
        { lastScan unicode first with cursor := before.length + skip })
    (resumed : rawScanFrom unicode (state.trailingToken ++ second)
        ((state.trailingToken ++ second).length + 1) (resumeAt state) =
      rawScanFrom unicode (state.trailingToken ++ second)
        ((state.trailingToken ++ second).length + 1) { resumeAt state with cursor := skip }) :
    Continues unicode first second := by
  apply continues_of_aligned left split
    (aligned_at (lastScan_placed unicode first) split tags inComment suffix skip)
  · have lengths := congrArg List.length split
    rw [List.length_append] at lengths
    rw [scan_append, passed]
    apply rawScanFrom_fuel
    · dsimp only
      omega
    · dsimp only
      simp only [List.length_append]
      omega
  · rw [continuedScan_eq clear, resumed]

theorem continues_plain {first : Text} (second : Text)
    (left : (scanRawHtmlCodeRanges unicode first {}).2 = { tags := (lastScan unicode first).tags })
    (plain : (lastScan unicode first).inComment = false)
    (absent : ∀ index, (lastScan unicode first).cursor ≤ index → index < first.length →
      first[index]? ≠ some '<') : Continues unicode first second := by
  apply continues_at 0 left (List.append_nil _).symm rfl plain.symm rfl
  · intro comment
    rw [plain] at comment
    cases comment
  · apply rawScanFrom_skip_plain (lastScan_placed unicode first).cursor
    · rw [List.length_append]
      omega
    · exact plain
    · intro index reached before
      rw [List.getElem?_append_left before]
      exact absent index reached before
  · rfl

theorem find_char_none {c : Char} {text : Text} {position index : Nat}
    (absent : find [c] text position = none) (reached : position ≤ index) (inside : index < text.length) :
    text[index]? ≠ some c := by
  rw [ne_eq, ← prefix_singleton_iff]
  exact find_eq_none_iff.mp absent index reached (Nat.le_of_lt inside)

theorem find_char_first {c : Char} {text : Text} {position found index : Nat}
    (here : find [c] text position = some found) (reached : position ≤ index) (before : index < found) :
    text[index]? ≠ some c := by
  rw [ne_eq, ← prefix_singleton_iff]
  exact (find_eq_some_iff.mp here).2.2.2 index reached before

theorem continues_kept {first : Text} (second : Text) {tokenStart : Nat}
    (left : (scanRawHtmlCodeRanges unicode first {}).2 =
      { tags := (lastScan unicode first).tags, trailingToken := first.drop tokenStart })
    (plain : (lastScan unicode first).inComment = false)
    (found : find ['<'] first (lastScan unicode first).cursor = some tokenStart) :
    Continues unicode first second := by
  obtain ⟨reached, -, inside⟩ := find_char_some found
  have taken : (first.take tokenStart).length = tokenStart := by
    rw [List.length_take]
    omega
  have split : first = first.take tokenStart ++ first.drop tokenStart :=
    (List.take_append_drop _ _).symm
  apply continues_at 0 left split rfl plain.symm rfl
  · intro comment
    rw [plain] at comment
    cases comment
  · rw [taken, Nat.add_zero]
    apply rawScanFrom_skip_plain reached
    · rw [List.length_append]
      omega
    · exact plain
    · intro index after before
      rw [List.getElem?_append_left (by omega)]
      exact find_char_first found after before
  · rfl

theorem commentClosePartialSuffix_cases (text : Text) :
    (['-', '-'] <:+ text ∧ commentClosePartialSuffix text = ['-', '-']) ∨
      (¬['-', '-'] <:+ text ∧ ['-'] <:+ text ∧ commentClosePartialSuffix text = ['-']) ∨
      (¬['-'] <:+ text ∧ commentClosePartialSuffix text = []) := by
  unfold commentClosePartialSuffix
  simp only [List.isSuffixOf_iff_suffix]
  by_cases both : ['-', '-'] <:+ text
  · exact Or.inl ⟨both, if_pos both⟩
  rw [if_neg both]
  by_cases one : ['-'] <:+ text
  · exact Or.inr (Or.inl ⟨both, one, if_pos one⟩)
  · exact Or.inr (Or.inr ⟨one, if_neg one⟩)

theorem commentClosePartialSuffix_suffix (text : Text) : commentClosePartialSuffix text <:+ text := by
  rcases commentClosePartialSuffix_cases text with ⟨ends, same⟩ | ⟨-, ends, same⟩ | ⟨-, same⟩
  · rw [same]
    exact ends
  · rw [same]
    exact ends
  · rw [same]
    exact List.nil_suffix

theorem commentClosePartialSuffix_concat {text : Text} {c : Char} (apart : c ≠ '-' ∨ ¬['-'] <:+ text) :
    commentClosePartialSuffix (text ++ [c]) = commentClosePartialSuffix [c] := by
  rcases commentClosePartialSuffix_cases (text ++ [c]) with ⟨both, -⟩ | ⟨-, one, same⟩ | ⟨none_, same⟩
  · rcases List.suffix_concat_iff.mp both with absurd_ | ⟨kept, split, ends⟩
    · cases absurd_
    have inits : ['-'] ++ ['-'] = kept ++ [c] := split
    obtain ⟨dash, last⟩ := List.append_inj' inits rfl
    cases last
    rcases apart with other | absent
    · exact absurd rfl other
    · rw [← dash] at ends
      exact absurd ends absent
  · rw [same, ← List.singleton_suffix_append_singleton_iff.mp one]
    rfl
  · have other : c ≠ '-' := by
      rintro rfl
      exact none_ (List.suffix_append _ _)
    rw [same]
    unfold commentClosePartialSuffix
    simp [List.suffix_cons_iff, Ne.symm other]

theorem commentClosePartialSuffix_append (first second : Text) : commentClosePartialSuffix (first ++ second) =
      commentClosePartialSuffix (commentClosePartialSuffix first ++ second) := by
  obtain ⟨before, split⟩ := commentClosePartialSuffix_suffix first
  by_cases long : 2 ≤ (commentClosePartialSuffix first ++ second).length
  · rw [← commentClosePartialSuffix_behind before long, ← List.append_assoc, split]
  rcases commentClosePartialSuffix_cases first with ⟨-, same⟩ | ⟨-, -, same⟩ | ⟨plain, same⟩
  · simp [same] at long
  · rw [same, List.length_append, List.length_singleton] at long
    have empty : second = [] := List.eq_nil_of_length_eq_zero (by omega)
    rw [empty, List.append_nil, List.append_nil, same]
    rfl
  · rw [same, List.nil_append]
    cases second with
    | nil => rw [List.append_nil, same]; rfl
    | cons c rest =>
      rw [same, List.nil_append, List.length_cons] at long
      have last : rest = [] := List.eq_nil_of_length_eq_zero (by omega)
      rw [last]
      exact commentClosePartialSuffix_concat (Or.inr plain)

theorem not_closed_before {text : Text} (later : Text) {position index : Nat}
    (absent : find rawHtmlCommentClose text position = none) (reached : position ≤ index)
    (before : index + (commentClosePartialSuffix text).length < text.length) :
    ¬rawHtmlCommentClose <+: (text ++ later).drop index := by
  intro closes
  have size : rawHtmlCommentClose.length = 3 := rfl
  by_cases fits : index + rawHtmlCommentClose.length ≤ text.length
  · exact find_eq_none_iff.mp absent index reached (by omega) (prefix_drop_of_append fits closes)
  -- the comment's end is cut, and what is cut of it is kept
  have cut : text.drop index <+: rawHtmlCommentClose := by
    rw [List.drop_append_of_le_length (by omega)] at closes
    apply List.prefix_of_prefix_length_le (List.prefix_append _ later) closes
    rw [List.length_drop]
    omega
  have ends : text.drop index <:+ text := List.drop_suffix _ _
  have length : (text.drop index).length = text.length - index := List.length_drop
  have value := List.prefix_iff_eq_take.mp cut
  rw [length] at value
  have sizes : text.length - index = 1 ∨ text.length - index = 2 := by omega
  rcases commentClosePartialSuffix_cases text with ⟨-, same⟩ | ⟨one, -, same⟩ | ⟨none_, same⟩
  · rw [same] at before
    simp only [List.length_cons, List.length_nil] at before
    omega
  · rw [same, List.length_singleton] at before
    have two : text.length - index = 2 := by omega
    rw [value, two] at ends
    exact one ends
  · rcases sizes with single | two
    · rw [value, single] at ends
      exact none_ ends
    · rw [value, two] at ends
      exact none_ (List.IsSuffix.trans (by decide) ends)

theorem continues_comment {first second : Text} (left : (scanRawHtmlCodeRanges unicode first {}).2 =
      { tags := (lastScan unicode first).tags, inComment := true
        trailingToken := commentClosePartialSuffix first })
    (comment : (lastScan unicode first).inComment = true)
    (open_ : (lastScan unicode first).cursor < first.length)
    (absent : find rawHtmlCommentClose first (lastScan unicode first).cursor = none)
    (dash : first.drop (lastScan unicode first).cursor = ['-'] → second.head? ≠ some '>') :
    Continues unicode first second := by
  by_cases empty : commentClosePartialSuffix first ++ second = []
  · obtain ⟨noTrailing, rfl⟩ := List.append_eq_nil_iff.mp empty
    exact continues_nil left noTrailing
  have spoken : 0 < (commentClosePartialSuffix first ++ second).length :=
    List.length_pos_iff.mpr empty
  obtain ⟨before, split⟩ := commentClosePartialSuffix_suffix first
  have lengths := congrArg List.length split
  have total : (first ++ second).length =
      before.length + (commentClosePartialSuffix first ++ second).length := by
    rw [List.length_append, List.length_append]
    rw [List.length_append] at lengths
    omega
  have longer : first.length ≤ (first ++ second).length := by
    rw [List.length_append]
    omega
  rw [List.length_append] at lengths
  -- a comment just opened may lie in the token that is kept
  have overlap : before.length < (lastScan unicode first).cursor →
      commentClosePartialSuffix first = ['-', '-'] ∧
        (lastScan unicode first).cursor = before.length + 1 := by
    intro overlapping
    rcases commentClosePartialSuffix_cases first with ⟨-, same⟩ | ⟨-, -, same⟩ | ⟨-, same⟩
    · rw [same, List.length_cons, List.length_singleton] at lengths
      exact ⟨same, by omega⟩
    · rw [same, List.length_singleton] at lengths
      omega
    · rw [same, List.length_nil] at lengths
      omega
  apply continues_at ((lastScan unicode first).cursor - before.length) left split.symm rfl comment.symm rfl
  · intro _
    exact commentClosePartialSuffix_append first second
  · apply rawScanFrom_skip
    · omega
    · omega
    · intro index reached inside
      rw [comment, if_pos rfl]
      exact not_closed_before second absent reached (by omega)
  · apply rawScanFrom_skip
    · exact Nat.zero_le _
    · show (lastScan unicode first).cursor - before.length <
        (commentClosePartialSuffix first ++ second).length
      by_cases overlapping : before.length < (lastScan unicode first).cursor
      · obtain ⟨both, one⟩ := overlap overlapping
        rw [both, List.length_append, List.length_cons, List.length_singleton]
        omega
      · omega
    · intro index reached inside
      obtain ⟨both, one⟩ := overlap (by omega)
      have start : index = 0 := by omega
      have kept : first.drop (lastScan unicode first).cursor = ['-'] := by
        rw [one, ← split, both, List.drop_append]
        simp
      rw [start, both]
      show ¬rawHtmlCommentClose <+: '-' :: '-' :: second
      cases second with
      | nil => decide
      | cons c rest =>
        have other : c ≠ '>' := fun closes => dash kept (by rw [closes]; rfl)
        simp [rawHtmlCommentClose, List.cons_prefix_cons, Ne.symm other]

theorem continues_opener {first second : Text} (left : (scanRawHtmlCodeRanges unicode first {}).2 =
      { tags := (lastScan unicode first).tags, inComment := true })
    (comment : (lastScan unicode first).inComment = true)
    (ended : (lastScan unicode first).cursor = first.length) (other : second ≠ ['-']) :
    Continues unicode first second := by
  cases second with
  | nil => exact continues_nil left rfl
  | cons c rest =>
    apply continues_at 0 left (List.append_nil _).symm rfl comment.symm rfl
    · intro _
      show commentClosePartialSuffix (first ++ c :: rest) = commentClosePartialSuffix (c :: rest)
      cases rest with
      | nil =>
        apply commentClosePartialSuffix_concat
        apply Or.inl
        rintro rfl
        exact other rfl
      | cons next rest => exact commentClosePartialSuffix_behind first (by simp)
    · rw [← ended]
      rfl
    · rfl

end OpenSquilla.TextTools
