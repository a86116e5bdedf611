import OpenSquilla.TextTools.RawScan

set_option autoImplicit false

-- A scan of a whole text and a scan of what is behind its beginning, once at one place with the
-- same open tags, stay so: they end in one state, and what the first holds to be code the second
-- does.

namespace OpenSquilla.TextTools

open TextLines (Text)

variable {unicode : Unicode}

-- What is code in the whole text is code in the text behind its beginning.
def Covers (before : Text) (seen : Nat) (whole rest : List MarkdownCodeRange) : Prop :=
  ∀ position, seen ≤ position → positionIsInCode (before.length + position) whole = true →
    positionIsInCode position rest = true

theorem positionIsInCode_append (position : Nat) (first second : List MarkdownCodeRange) :
    positionIsInCode position (first ++ second) = true ↔
      positionIsInCode position first = true ∨ positionIsInCode position second = true := by
  simp [positionIsInCode, List.any_append]

theorem inSpan_iff (position start stop : Nat) :
    inSpan position (start, stop) = true ↔ start ≤ position ∧ position < stop := by
  rw [inSpan, Bool.and_eq_true, decide_eq_true_iff, decide_eq_true_iff]

theorem positionIsInCode_singleton (position start stop : Nat) (closed : Bool) :
    positionIsInCode position [⟨start, stop, closed⟩] = true ↔ start ≤ position ∧ position < stop := by
  rw [← inSpan_iff]
  show (inSpan position (start, stop) || false) = true ↔ _
  rw [Bool.or_false]

variable {seen : Nat}

theorem Covers.add {before : Text} {whole rest : List MarkdownCodeRange}
    (covers : Covers before seen whole rest) {start begun : Nat}
    (earlier : begun ≤ start - before.length) (stop : Nat) (closed : Bool) :
    Covers before seen (whole ++ [⟨start, before.length + stop, closed⟩])
      (rest ++ [⟨begun, stop, closed⟩]) := by
  intro position reached inside
  rw [positionIsInCode_append, positionIsInCode_singleton] at inside ⊢
  rcases inside with old | ⟨after, within⟩
  · exact Or.inl (covers position reached old)
  · exact Or.inr ⟨by omega, by omega⟩

/-- The scanner is at one place of the text, as a part of the whole text and on its own. -/
structure Aligned (before text : Text) (seen : Nat) (whole rest : RawScan) : Prop where
  cursor : whole.cursor = before.length + rest.cursor
  tags : whole.tags = rest.tags
  inComment : whole.inComment = rest.inComment
  context : Option.Rel (fun start begun => begun ≤ start - before.length) whole.contextStart
    rest.contextStart
  covers : Covers before seen whole.ranges rest.ranges
  suffix : rest.inComment = true →
    commentClosePartialSuffix (before ++ text) = commentClosePartialSuffix text

variable {whole rest : RawScan} {before text : Text}

theorem Aligned.openRange (aligned : Aligned before text seen whole rest) (stop : Nat) (closed : Bool) :
    Covers before seen (openRange whole (before.length + stop) closed)
      (openRange rest stop closed) := by
  unfold TextTools.openRange
  have context := aligned.context
  generalize whole.contextStart = start, rest.contextStart = begun at context ⊢
  cases context with
  | none => exact aligned.covers
  | some earlier => exact aligned.covers.add earlier stop closed

inductive StepsAlike (before text : Text) (seen : Nat) : RawStep → RawStep → Prop
  | next {whole rest : RawScan} (aligned : Aligned before text seen whole rest) :
      StepsAlike before text seen (.next whole) (.next rest)
  | done {ranges restRanges : List MarkdownCodeRange} (state : RawHtmlState)
      (covers : Covers before seen ranges restRanges) :
      StepsAlike before text seen (.done ranges state) (.done restRanges state)

theorem rawComment_alike (aligned : Aligned before text seen whole rest) (comment : rest.inComment = true) :
    StepsAlike before text seen (rawComment (before ++ text) whole) (rawComment text rest) := by
  unfold rawComment
  rw [aligned.cursor, find_behind, aligned.tags, aligned.suffix comment, List.length_append]
  cases find rawHtmlCommentClose text rest.cursor with
  | none => exact .done _ (aligned.openRange _ _)
  | some close =>
    simp only [Option.map_some, Nat.add_assoc]
    split
    · exact .next ⟨rfl, rfl, rfl, .none, aligned.openRange _ _, nofun⟩
    · exact .next ⟨rfl, rfl, rfl, aligned.context, aligned.covers, nofun⟩

theorem rawComplete_alike (aligned : Aligned before text seen whole rest) (plain : rest.inComment = false)
    (tokenStart : Nat) (tag : HtmlTagScan) : StepsAlike before text seen
      (rawComplete (before ++ text) whole (before.length + tokenStart) (tag.behind before.length))
      (rawComplete text rest tokenStart tag) := by
  have suffix : rest.inComment = true →
      commentClosePartialSuffix (before ++ text) = commentClosePartialSuffix text := by
    intro comment
    rw [plain] at comment
    cases comment
  unfold rawComplete
  rw [aligned.tags, List.length_append]
  have confirmed : confirmedRawOpen (tag.behind before.length) = confirmedRawOpen tag := rfl
  rw [confirmed]
  dsimp only [HtmlTagScan.behind]
  cases rest.tags.getLast? with
  | none =>
    dsimp only
    by_cases opens : (confirmedRawOpen tag && !tag.selfClosing) = true
    · rw [if_pos opens, if_pos opens]
      apply StepsAlike.next
      refine ⟨rfl, rfl, aligned.inComment, .some ?_, aligned.covers, suffix⟩
      omega
    · rw [if_neg opens, if_neg opens]
      exact .next ⟨rfl, rfl, aligned.inComment, aligned.context, aligned.covers, suffix⟩
  | some innermost =>
    dsimp only
    by_cases closes : tag.exactClose = true ∧ tag.name = innermost
    · rw [if_pos closes, if_pos closes]
      split
      · exact .next ⟨rfl, rfl, aligned.inComment, .none, aligned.openRange _ _, suffix⟩
      · exact .next ⟨rfl, rfl, aligned.inComment, aligned.context, aligned.covers, suffix⟩
    rw [if_neg closes, if_neg closes]
    by_cases opens : (confirmedRawOpen tag && !tag.selfClosing) = true
    · rw [if_pos opens, if_pos opens]
      split
      · exact .done _ (aligned.openRange _ _)
      · exact .next ⟨rfl, rfl, aligned.inComment, aligned.context, aligned.covers, suffix⟩
    · rw [if_neg opens, if_neg opens]
      exact .next ⟨rfl, rfl, aligned.inComment, aligned.context, aligned.covers, suffix⟩

theorem Aligned.opened (aligned : Aligned before text seen whole rest) (tokenStart : Nat) :
    whole.contextStart.getD (before.length + tokenStart) - before.length ≥
      rest.contextStart.getD tokenStart := by
  have context := aligned.context
  generalize whole.contextStart = start, rest.contextStart = begun at context ⊢
  cases context with
  | none => simp
  | some earlier => exact earlier

theorem rawIncomplete_alike
    (aligned : Aligned before text seen whole rest) (tokenStart : Nat) (tag : HtmlTagScan) :
    StepsAlike before text seen
      (rawIncomplete unicode (before ++ text) whole (before.length + tokenStart)
        (tag.behind before.length))
      (rawIncomplete unicode text rest tokenStart tag) := by
  have confirmed : confirmedRawOpen (tag.behind before.length) = confirmedRawOpen tag := rfl
  have possible (candidate : Text) : possibleRawOpenPartial unicode candidate
      (tag.behind before.length) = possibleRawOpenPartial unicode candidate tag := rfl
  unfold rawIncomplete
  dsimp only
  rw [confirmed, possible, aligned.tags, aligned.inComment, drop_append_add, List.length_append]
  by_cases oversized : tag.oversized = true
  · rw [if_pos oversized, if_pos oversized]
    by_cases keeps : rest.tags ≠ [] ∨ confirmedRawOpen tag = true
    · rw [if_pos keeps, if_pos keeps]
      apply StepsAlike.done
      exact aligned.covers.add (aligned.opened tokenStart) _ _
    · rw [if_neg keeps, if_neg keeps]
      exact .done _ (aligned.openRange _ _)
  rw [if_neg oversized, if_neg oversized]
  split
  · exact .done _ (aligned.openRange _ _)
  · split
    · apply StepsAlike.done
      exact aligned.covers.add (by omega) _ _
    · split
      · exact .done _ aligned.covers
      · exact .done _ (aligned.openRange _ _)

variable {text : Text}

theorem commentClosePartialSuffix_behind (before : Text) (long : 2 ≤ text.length) :
    commentClosePartialSuffix (before ++ text) = commentClosePartialSuffix text := by
  have same (needle : Text) (short : needle.length ≤ 2) :
      needle.isSuffixOf (before ++ text) = needle.isSuffixOf text := by
    rw [Bool.eq_iff_iff, List.isSuffixOf_iff_suffix, List.isSuffixOf_iff_suffix]
    constructor
    · intro ends
      exact List.suffix_of_suffix_length_le ends (List.suffix_append _ _) (by omega)
    · intro ends
      exact ends.trans (List.suffix_append _ _)
  unfold commentClosePartialSuffix
  rw [same _ (by decide), same _ (by decide)]

variable (unicode) in
theorem rawStep_alike (aligned : Aligned before text seen whole rest) :
    StepsAlike before text seen (rawStep unicode (before ++ text) whole)
      (rawStep unicode text rest) := by
  unfold rawStep
  rw [aligned.inComment]
  by_cases comment : rest.inComment = true
  · rw [if_pos comment, if_pos comment]
    exact rawComment_alike aligned comment
  rw [if_neg comment, if_neg comment, aligned.cursor, find_behind]
  have plain : rest.inComment = false := Bool.not_eq_true _ ▸ comment
  cases found : find ['<'] text rest.cursor with
  | none =>
    dsimp only [Option.map_none]
    rw [aligned.tags, List.length_append]
    exact .done _ (aligned.openRange _ _)
  | some tokenStart =>
    dsimp only [Option.map_some]
    rw [drop_append_add]
    by_cases opener : rawHtmlCommentOpen.isPrefixOf (text.drop tokenStart) = true
    · rw [if_pos opener, if_pos opener]
      apply StepsAlike.next
      have long : 2 ≤ text.length := by
        have length := (List.isPrefixOf_iff_prefix.mp opener).length_le
        simp [rawHtmlCommentOpen] at length
        omega
      refine ⟨by rw [Nat.add_assoc], aligned.tags, rfl, .some (aligned.opened tokenStart),
        aligned.covers, fun _ => commentClosePartialSuffix_behind before long⟩
    rw [if_neg opener, if_neg opener, scanHtmlTagAt_behind]
    dsimp only
    split
    · exact rawComplete_alike aligned plain tokenStart _
    · exact rawIncomplete_alike aligned tokenStart _

variable (unicode) in
theorem rawScanFrom_alike (aligned : Aligned before text seen whole rest) (fuel : Nat) :
    Covers before seen (rawScanFrom unicode (before ++ text) fuel whole).1
        (rawScanFrom unicode text fuel rest).1 ∧
      (rawScanFrom unicode (before ++ text) fuel whole).2 =
        (rawScanFrom unicode text fuel rest).2 := by
  have ended {whole rest : RawScan} (aligned : Aligned before text seen whole rest) :
      Covers before seen (rawEnd (before ++ text) whole).1 (rawEnd text rest).1 ∧
        (rawEnd (before ++ text) whole).2 = (rawEnd text rest).2 := by
    unfold rawEnd
    rw [aligned.tags, aligned.inComment, List.length_append]
    exact ⟨aligned.openRange _ _, rfl⟩
  induction fuel generalizing whole rest with
  | zero => exact ended aligned
  | succ fuel ih =>
    have places := aligned.cursor
    by_cases isOver : text.length ≤ rest.cursor
    · have overToo : (before ++ text).length ≤ whole.cursor := by
        rw [List.length_append]
        omega
      rw [rawScanFrom_ended isOver, rawScanFrom_ended overToo]
      exact ended aligned
    have going : rest.cursor < text.length := by omega
    have goingToo : whole.cursor < (before ++ text).length := by
      rw [List.length_append]
      omega
    have alike := rawStep_alike unicode aligned
    generalize wholeStep : rawStep unicode (before ++ text) whole = first,
      restStep : rawStep unicode text rest = second at alike
    cases alike with
    | next onward =>
      rw [rawScanFrom_next going restStep, rawScanFrom_next goingToo wholeStep]
      exact ih onward
    | done state covers =>
      rw [rawScanFrom_done going restStep, rawScanFrom_done goingToo wholeStep]
      exact ⟨covers, rfl⟩

/-- A tag the text ends in, that is neither kept for the next text nor held to be code. -/
structure Lost (unicode : Unicode) (text : Text) (raw : RawScan) (tokenStart : Nat) : Prop where
  outside : raw.tags = []
  plain : raw.inComment = false
  found : find ['<'] text raw.cursor = some tokenStart
  other : ¬rawHtmlCommentOpen <+: text.drop tokenStart
  cut : (scanHtmlTagAt unicode text tokenStart).complete = false
  unconfirmed : confirmedRawOpen (scanHtmlTagAt unicode text tokenStart) = false
  unlikely : (scanHtmlTagAt unicode text tokenStart).oversized = true ∨
    possibleRawOpenPartial unicode (text.drop tokenStart) (scanHtmlTagAt unicode text tokenStart) =
      false

inductive Halt (unicode : Unicode) (text : Text) (raw : RawScan) : RawHtmlState → Prop
  | comment (comment : raw.inComment = true)
      (absent : find rawHtmlCommentClose text raw.cursor = none) :
      Halt unicode text raw
        { tags := raw.tags, inComment := true, trailingToken := commentClosePartialSuffix text }
  | plain (plain : raw.inComment = false) (absent : find ['<'] text raw.cursor = none) :
      Halt unicode text raw { tags := raw.tags }
  | tooMuch (state : RawHtmlState) (closed : state.isOpaque = true) (empty : state.trailingToken = []) :
      Halt unicode text raw state
  | kept (tokenStart : Nat) (plain : raw.inComment = false)
      (found : find ['<'] text raw.cursor = some tokenStart) :
      Halt unicode text raw { tags := raw.tags, trailingToken := text.drop tokenStart }
  | lost (tokenStart : Nat) (lost : Lost unicode text raw tokenStart) :
      Halt unicode text raw {}

theorem rawComplete_done {raw : RawScan} {tokenStart : Nat} {tag : HtmlTagScan}
    {ranges : List MarkdownCodeRange} {state : RawHtmlState}
    (read : rawComplete text raw tokenStart tag = .done ranges state) :
    state.isOpaque = true ∧ state.trailingToken = [] := by
  unfold rawComplete at read
  dsimp only at read
  split at read
  · split at read
    · split at read <;> cases read
    · split at read
      · split at read
        · cases read
          exact ⟨rfl, rfl⟩
        · cases read
      · cases read
  · split at read <;> cases read

theorem rawStep_done {raw : RawScan} {ranges : List MarkdownCodeRange}
    {state : RawHtmlState} (stepped : rawStep unicode text raw = .done ranges state) :
    Halt unicode text raw state := by
  unfold rawStep at stepped
  split at stepped
  · next comment =>
    unfold rawComment at stepped
    split at stepped
    · next absent =>
      cases stepped
      exact .comment comment absent
    · dsimp only at stepped
      split at stepped <;> cases stepped
  next spoken =>
  have plain : raw.inComment = false := Bool.not_eq_true _ ▸ spoken
  split at stepped
  · next absent =>
    cases stepped
    rw [plain]
    exact .plain plain absent
  next tokenStart found =>
  split at stepped
  · cases stepped
  next other =>
  rw [List.isPrefixOf_iff_prefix] at other
  dsimp only at stepped
  split at stepped
  · obtain ⟨closed, empty⟩ := rawComplete_done stepped
    exact .tooMuch state closed empty
  next cut =>
  rw [Bool.not_eq_true] at cut
  unfold rawIncomplete at stepped
  dsimp only at stepped
  split at stepped
  · next oversized =>
    split at stepped
    · cases stepped
      exact .tooMuch _ rfl rfl
    · next forgotten =>
      rw [not_or, not_not, Bool.not_eq_true] at forgotten
      cases stepped
      rw [forgotten.1, plain]
      exact .lost tokenStart ⟨forgotten.1, plain, found, other, cut, forgotten.2, Or.inl oversized⟩
  · split at stepped
    · cases stepped
      exact .kept tokenStart plain found
    next within =>
    rw [not_not] at within
    split at stepped
    · cases stepped
      rw [← within]
      exact .kept tokenStart plain found
    next unconfirmed =>
    split at stepped
    · cases stepped
      rw [← within]
      exact .kept tokenStart plain found
    next unlikely =>
    rw [Bool.not_eq_true] at unconfirmed unlikely
    cases stepped
    rw [within, plain]
    exact .lost tokenStart ⟨within, plain, found, other, cut, unconfirmed, Or.inr unlikely⟩

theorem rawStep_skip {raw : RawScan} {position : Nat} (ordered : raw.cursor ≤ position)
    (absent : ∀ index, raw.cursor ≤ index → index < position →
      ¬(if raw.inComment then rawHtmlCommentClose else ['<']) <+: text.drop index) :
    rawStep unicode text raw = rawStep unicode text { raw with cursor := position } := by
  unfold rawStep
  by_cases comment : raw.inComment = true
  · rw [if_pos comment] at absent
    rw [if_pos comment, if_pos comment, rawComment, rawComment, find_skip ordered absent]
    rfl
  · rw [if_neg comment] at absent
    rw [if_neg comment, if_neg comment, find_skip ordered absent]
    rfl

theorem rawScanFrom_skip {raw : RawScan} {position : Nat}
    (ordered : raw.cursor ≤ position) (inside : position < text.length)
    (absent : ∀ index, raw.cursor ≤ index → index < position →
      ¬(if raw.inComment then rawHtmlCommentClose else ['<']) <+: text.drop index) (fuel : Nat) :
    rawScanFrom unicode text (fuel + 1) raw =
      rawScanFrom unicode text (fuel + 1) { raw with cursor := position } := by
  have open_ : raw.cursor < text.length := by omega
  rw [rawScanFrom, rawScanFrom, if_neg (Nat.not_le.mpr open_), if_neg (Nat.not_le.mpr inside),
    rawStep_skip ordered absent]

theorem rawScanFrom_skip_plain {raw : RawScan} {position : Nat}
    (ordered : raw.cursor ≤ position) (inside : position ≤ text.length) (plain : raw.inComment = false)
    (absent : ∀ index, raw.cursor ≤ index → index < position → text[index]? ≠ some '<') (fuel : Nat) :
    rawScanFrom unicode text (fuel + 1) raw =
      rawScanFrom unicode text (fuel + 1) { raw with cursor := position } := by
  rcases Nat.lt_or_eq_of_le inside with short | rfl
  · apply rawScanFrom_skip ordered short
    intro index reached before
    rw [plain, if_neg Bool.false_ne_true, prefix_singleton_iff]
    exact absent index reached before
  have ended : rawScanFrom unicode text (fuel + 1) { raw with cursor := text.length } =
      rawEnd text { raw with cursor := text.length } := rawScanFrom_ended (Nat.le_refl _) _
  rw [ended]
  rcases Nat.lt_or_eq_of_le ordered with open_ | isOver
  · have none_ : find ['<'] text raw.cursor = none := by
      rw [find_eq_none_iff]
      intro index reached within
      rw [prefix_singleton_iff]
      rcases Nat.lt_or_eq_of_le within with before | rfl
      · exact absent index reached before
      · rw [List.getElem?_eq_none (Nat.le_refl _)]
        nofun
    have stepped : rawStep unicode text raw =
        .done (openRange raw text.length false) { tags := raw.tags, inComment := raw.inComment } := by
      unfold rawStep
      rw [if_neg (by rw [plain]; exact Bool.false_ne_true), none_]
    rw [rawScanFrom_done open_ stepped]
    rfl
  · rw [rawScanFrom_ended (Nat.le_of_eq isOver.symm)]
    rfl

end OpenSquilla.TextTools
