import Mathlib.Data.List.Infix
import OpenSquilla.TextTools.RawContinuation

set_option autoImplicit false

-- A tag that cannot open code is forgotten with its quotes. What the next text holds before the
-- end of the tag is then read as text of its own, and only an opening bracket in it makes a
-- difference.

namespace OpenSquilla.TextTools

open TextLines (Text)

variable {unicode : Unicode}

structure Unicode.Lawful (unicode : Unicode) : Prop where
  isAlnum_ascii : ∀ c : Char, c.toNat < 128 → unicode.isAlnum c = c.isAlphanum
  lower_ascii : ∀ text : Text, (∀ c ∈ text, c.toNat < 128) → unicode.lower text = text.map Char.toLower
  lower_cons : ∀ text : Text, unicode.lower ('<' :: text) = '<' :: unicode.lower text
  -- only a letter that has no ASCII form looks at what follows it
  lower_prefix : ∀ first second : Text, (∀ c ∈ unicode.lower (first ++ second), c.toNat < 128) →
    unicode.lower first <+: unicode.lower (first ++ second)

theorem Unicode.Lawful.lower_prefix_of {unicode : Unicode} (lawful : unicode.Lawful)
    {first second target : Text} (ascii : ∀ c ∈ target, c.toNat < 128)
    (found : unicode.lower (first ++ second) <+: target) : unicode.lower first <+: target :=
  (lawful.lower_prefix first second fun c present => ascii c (found.subset present)).trans found

theorem ascii_rawHtmlTags : ∀ tag ∈ rawHtmlTags, ∀ c ∈ '<' :: tag, c.toNat < 128 := by decide

theorem possibleRawOpenPartial_iff (candidate : Text) (tag : HtmlTagScan) :
    possibleRawOpenPartial unicode candidate tag = true ↔
      tag.closing = false ∧ (unicode.lower candidate <+: rawHtmlCommentOpen ∨
        (tag.name ≠ [] ∧ ∃ raw ∈ rawHtmlTags, tag.name <+: raw) ∨
        (tag.name = [] ∧ ∃ raw ∈ rawHtmlTags, unicode.lower candidate <+: '<' :: raw)) := by
  unfold possibleRawOpenPartial
  by_cases named : tag.name = [] <;>
    simp [named, List.any_eq_true, List.isPrefixOf_iff_prefix]

theorem confirmedRawOpen_iff (tag : HtmlTagScan) : confirmedRawOpen tag = true ↔
      tag.closing = false ∧ tag.validNameBoundary = true ∧ tag.name ∈ rawHtmlTags := by
  simp [confirmedRawOpen, and_assoc]

theorem scan_closing (body : Text) :
    (scanHtmlTagAt unicode ('<' :: body) 0).closing = decide (body.head? = some '/') := by
  rw [scanHtmlTagAt_eq, scanTagName_closing, List.head?_eq_getElem?]
  rfl

theorem nameStartAt_open {body : Text} (plain : body.head? ≠ some '/') : nameStartAt ('<' :: body) 0 = 1 := by
  rw [List.head?_eq_getElem?] at plain
  exact if_neg plain

theorem scan_name {body : Text} (plain : body.head? ≠ some '/') : (scanHtmlTagAt unicode ('<' :: body) 0).name =
      unicode.lower (body.takeWhile (isTagNameChar unicode)) := by
  rw [scanHtmlTagAt_eq, nameStartAt_open plain, scanTagName_name]
  rfl

theorem scan_boundary {body : Text} (plain : body.head? ≠ some '/') :
    (scanHtmlTagAt unicode ('<' :: body) 0).validNameBoundary = nameEnds unicode ('<' :: body) 1 := by
  rw [scanHtmlTagAt_eq, nameStartAt_open plain, scanTagName_boundary]

theorem kept_of_append (lawful : unicode.Lawful) (body later : Text)
    (kept : confirmedRawOpen (scanHtmlTagAt unicode ('<' :: (body ++ later)) 0) = true ∨
      possibleRawOpenPartial unicode ('<' :: (body ++ later))
        (scanHtmlTagAt unicode ('<' :: (body ++ later)) 0) = true) :
    confirmedRawOpen (scanHtmlTagAt unicode ('<' :: body) 0) = true ∨
      possibleRawOpenPartial unicode ('<' :: body) (scanHtmlTagAt unicode ('<' :: body) 0) = true := by
  have bracket : unicode.lower ['<'] = ['<'] := lawful.lower_ascii ['<'] (by decide)
  have asciiOpen : ∀ c ∈ rawHtmlCommentOpen, c.toNat < 128 := by decide
  rw [confirmedRawOpen_iff, possibleRawOpenPartial_iff] at kept ⊢
  cases body with
  | nil =>
    -- nothing is known of it yet
    refine Or.inr ⟨scan_closing [], Or.inl ?_⟩
    rw [bracket]
    decide
  | cons c body =>
  have opens : (scanHtmlTagAt unicode ('<' :: (c :: body ++ later)) 0).closing = false := by
    rcases kept with ⟨opens, -⟩ | ⟨opens, -⟩ <;> exact opens
  have plain : (c :: body ++ later).head? ≠ some '/' := by
    rwa [scan_closing, decide_eq_false_iff_not] at opens
  have plainToo : (c :: body).head? ≠ some '/' := plain
  have opensToo : (scanHtmlTagAt unicode ('<' :: c :: body) 0).closing = false := by
    rw [scan_closing]
    exact decide_eq_false plainToo
  rw [scan_name plain, scan_boundary plain] at kept
  rw [scan_name plainToo, scan_boundary plainToo]
  generalize c :: body = name at kept opensToo ⊢
  -- what is asked of the whole candidate is asked of its beginning
  have comment (longer : unicode.lower ('<' :: name ++ later) <+: rawHtmlCommentOpen) :
      unicode.lower ('<' :: name) <+: rawHtmlCommentOpen :=
    lawful.lower_prefix_of asciiOpen longer
  have candidate {raw : Text} (listed : raw ∈ rawHtmlTags)
      (longer : unicode.lower ('<' :: name ++ later) <+: '<' :: raw) :
      unicode.lower ('<' :: name) <+: '<' :: raw :=
    lawful.lower_prefix_of (ascii_rawHtmlTags raw listed) longer
  by_cases filled : (name.takeWhile (isTagNameChar unicode)).length = name.length
  · have word : name.takeWhile (isTagNameChar unicode) = name :=
      (List.takeWhile_prefix _).eq_of_length filled
    have longer : (name ++ later).takeWhile (isTagNameChar unicode) =
        name ++ later.takeWhile (isTagNameChar unicode) := by
      rw [List.takeWhile_append, if_pos filled]
    have possible {raw : Text} (listed : raw ∈ rawHtmlTags) (begins : unicode.lower name <+: raw) :
        unicode.lower ('<' :: name) <+: rawHtmlCommentOpen ∨
          (unicode.lower name ≠ [] ∧ ∃ raw ∈ rawHtmlTags, unicode.lower name <+: raw) ∨
          (unicode.lower name = [] ∧ ∃ raw ∈ rawHtmlTags, unicode.lower ('<' :: name) <+: '<' :: raw) := by
      by_cases empty : unicode.lower name = []
      · refine Or.inl ?_
        rw [lawful.lower_cons, empty]
        decide
      · exact Or.inr (Or.inl ⟨empty, raw, listed, begins⟩)
    have named {raw : Text} (listed : raw ∈ rawHtmlTags)
        (begins : unicode.lower (name ++ later.takeWhile (isTagNameChar unicode)) <+: raw) :
        unicode.lower name <+: raw :=
      lawful.lower_prefix_of
        (fun c present => ascii_rawHtmlTags raw listed c (List.mem_cons_of_mem _ present)) begins
    rw [word]
    rw [longer] at kept
    refine Or.inr ⟨opensToo, ?_⟩
    rcases kept with ⟨-, -, listed⟩ | ⟨-, opener | ⟨-, raw, listed, begins⟩ | ⟨-, raw, listed, begins⟩⟩
    · exact possible listed (named listed (List.prefix_refl _))
    · exact Or.inl (comment opener)
    · exact possible listed (named listed begins)
    · have shorter := candidate listed begins
      rw [lawful.lower_cons, List.cons_prefix_cons] at shorter
      exact possible listed shorter.2
  · have short : (name.takeWhile (isTagNameChar unicode)).length < name.length :=
      Nat.lt_of_le_of_ne (List.takeWhile_prefix _).length_le filled
    have word : (name ++ later).takeWhile (isTagNameChar unicode) =
        name.takeWhile (isTagNameChar unicode) := by
      rw [List.takeWhile_append, if_neg filled]
    have boundary : nameEnds unicode ('<' :: (name ++ later)) 1 = nameEnds unicode ('<' :: name) 1 := by
      unfold nameEnds
      simp only [List.drop_succ_cons, List.drop_zero, word, Nat.add_comm 1, List.getElem?_cons_succ,
        List.getElem?_append_left short]
    rw [word, boundary] at kept
    rcases kept with ⟨-, ends, listed⟩ | ⟨-, opener | partial_ | ⟨empty, raw, listed, begins⟩⟩
    · exact Or.inl ⟨opensToo, ends, listed⟩
    · exact Or.inr ⟨opensToo, Or.inl (comment opener)⟩
    · exact Or.inr ⟨opensToo, Or.inr (Or.inl partial_)⟩
    · exact Or.inr ⟨opensToo, Or.inr (Or.inr ⟨empty, raw, listed, candidate listed begins⟩)⟩

theorem closeOfTag_oversized {start cursor : Nat} {quote : Option Char} {rest : Text}
    (closed : closeOfTag start cursor quote rest = some none) :
    rawHtmlTokenMaxChars ≤ cursor + rest.length - start := by
  induction rest generalizing cursor quote with
  | nil => cases closed
  | cons c rest ih =>
    have onward {quote : Option Char} (closed : closeOfTag start (cursor + 1) quote rest = some none) :
        rawHtmlTokenMaxChars ≤ cursor + (c :: rest).length - start := by
      rw [List.length_cons, Nat.add_comm rest.length, ← Nat.add_assoc]
      exact ih closed
    unfold closeOfTag at closed
    by_cases long : rawHtmlTokenMaxChars ≤ cursor - start
    · omega
    rw [if_neg long] at closed
    cases quote with
    | some open_ => exact onward closed
    | none =>
      dsimp only at closed
      split at closed
      · exact onward closed
      · split at closed
        · cases closed
        · exact onward closed

variable {text : Text}

theorem scanHtmlTagAt_oversized {start : Nat}
    (oversized : (scanHtmlTagAt unicode text start).oversized = true) :
    start + rawHtmlTokenMaxChars ≤ text.length := by
  rw [scanHtmlTagAt_eq] at oversized
  obtain ⟨inside, found, closed⟩ := scanTagName_decided (Or.inr oversized)
  unfold scanTagName at oversized
  dsimp only at oversized
  rw [closed] at oversized
  cases found with
  | some stop => cases oversized
  | none =>
    have long := closeOfTag_oversized closed
    rw [List.length_drop] at long
    have positive : 0 < rawHtmlTokenMaxChars := by decide
    omega

theorem scanHtmlTagAt_drop {start : Nat} (inside : start ≤ text.length) :
    scanHtmlTagAt unicode text start = (scanHtmlTagAt unicode (text.drop start) 0).behind start := by
  have taken : (text.take start).length = start := by
    rw [List.length_take]
    omega
  have behind := scanHtmlTagAt_behind unicode (text.take start) (text.drop start) 0
  rwa [List.take_append_drop, taken, Nat.add_zero] at behind

variable {tokenStart : Nat}

theorem Lost.drop {raw : RawScan}
    (lost : Lost unicode text raw tokenStart) : ∃ body, text.drop tokenStart = '<' :: body := by
  obtain ⟨-, here, inside⟩ := find_char_some lost.found
  refine ⟨text.drop (tokenStart + 1), ?_⟩
  rw [List.drop_eq_getElem_cons inside]
  rw [List.getElem?_eq_getElem inside] at here
  rw [Option.some.inj here]

theorem Lost.append {raw : RawScan} (lawful : unicode.Lawful)
    (lost : Lost unicode text raw tokenStart) (later : Text) :
    ¬rawHtmlCommentOpen <+: (text ++ later).drop tokenStart ∧
      confirmedRawOpen (scanHtmlTagAt unicode (text ++ later) tokenStart) = false ∧
      ((scanHtmlTagAt unicode (text ++ later) tokenStart).oversized = true ∨
        possibleRawOpenPartial unicode ((text ++ later).drop tokenStart)
          (scanHtmlTagAt unicode (text ++ later) tokenStart) = false) := by
  obtain ⟨body, split⟩ := lost.drop
  have inside := Nat.le_of_lt (find_char_some lost.found).2.2
  have longer : (text ++ later).drop tokenStart = '<' :: (body ++ later) := by
    rw [List.drop_append_of_le_length inside, split, List.cons_append]
  have insideToo : tokenStart ≤ (text ++ later).length := by
    rw [List.length_append]
    omega
  by_cases oversized : (scanHtmlTagAt unicode text tokenStart).oversized = true
  · have same := scanHtmlTagAt_append later (Or.inr oversized)
    rw [same]
    refine ⟨fun opener => ?_, lost.unconfirmed, Or.inl oversized⟩
    have length := scanHtmlTagAt_oversized oversized
    apply lost.other
    apply prefix_drop_of_append _ opener
    have short : rawHtmlCommentOpen.length ≤ rawHtmlTokenMaxChars := by decide
    omega
  have unlikely := lost.unlikely.resolve_left oversized
  have unconfirmed := lost.unconfirmed
  rw [scanHtmlTagAt_drop inside, split] at unlikely unconfirmed
  have unkept : ¬(confirmedRawOpen (scanHtmlTagAt unicode ('<' :: body) 0) = true ∨
      possibleRawOpenPartial unicode ('<' :: body) (scanHtmlTagAt unicode ('<' :: body) 0) = true) := by
    rintro (confirmed | possible)
    · exact Bool.false_ne_true (unconfirmed.symm.trans confirmed)
    · exact Bool.false_ne_true (unlikely.symm.trans possible)
  have still := mt (kept_of_append lawful body later) unkept
  rw [not_or, Bool.not_eq_true, Bool.not_eq_true] at still
  rw [longer, scanHtmlTagAt_drop insideToo, longer]
  refine ⟨fun opener => ?_, still.1, Or.inr still.2⟩
  rcases List.prefix_or_prefix_of_prefix opener
      (List.prefix_append ('<' :: body) later) with whole | cut
  · exact lost.other (split ▸ whole)
  · -- the beginning of a comment's opener is kept
    have ascii : ∀ c ∈ '<' :: body, c.toNat < 128 := fun c present =>
      (by decide : ∀ c ∈ rawHtmlCommentOpen, c.toNat < 128) c (cut.subset present)
    have beginnings : ∀ word ∈ rawHtmlCommentOpen.inits,
        word.map Char.toLower <+: rawHtmlCommentOpen ∧ word.tail.head? ≠ some '/' := by decide
    obtain ⟨lowered, plain⟩ := beginnings _ ((List.mem_inits _ _).mpr cut)
    rw [← lawful.lower_ascii _ ascii] at lowered
    apply unkept
    refine Or.inr ((possibleRawOpenPartial_iff _ _).mpr ⟨?_, Or.inl lowered⟩)
    rw [scan_closing]
    exact decide_eq_false plain

theorem Lost.step {raw : RawScan} (lawful : unicode.Lawful)
    (lost : Lost unicode text raw tokenStart) (later : Text) : rawStep unicode (text ++ later) raw =
      if (scanHtmlTagAt unicode (text ++ later) tokenStart).complete = true then
        .next { raw with cursor := (scanHtmlTagAt unicode (text ++ later) tokenStart).stop }
      else .done (openRange raw (text ++ later).length false) {} := by
  obtain ⟨other, unconfirmed, unlikely⟩ := lost.append lawful later
  unfold rawStep
  simp only [lost.plain, Bool.false_eq_true, if_false, find_append later lost.found,
    List.isPrefixOf_iff_prefix, if_neg other]
  split
  · unfold rawComplete
    simp [lost.outside, lost.plain, unconfirmed]
  · unfold rawIncomplete
    rcases unlikely with oversized | impossible
    · simp [lost.outside, lost.plain, unconfirmed, oversized]
    · simp [lost.outside, lost.plain, unconfirmed, impossible]

variable {first : Text}

theorem left_of_done {ranges : List MarkdownCodeRange} {state : RawHtmlState}
    (open_ : (lastScan unicode first).cursor < first.length)
    (stepped : rawStep unicode first (lastScan unicode first) = .done ranges state) :
    (scanRawHtmlCodeRanges unicode first {}).2 = state := by
  rw [scan_last, rawScanFrom_done open_ stepped]

theorem left_of_ended (ended : (lastScan unicode first).cursor = first.length) :
    (scanRawHtmlCodeRanges unicode first {}).2 =
      { tags := (lastScan unicode first).tags, inComment := (lastScan unicode first).inComment } := by
  rw [scan_last, rawScanFrom_ended (Nat.le_of_eq ended.symm)]
  rfl

def lostRest (unicode : Unicode) (first second : Text) (tokenStart : Nat) : Text :=
  let tag := scanHtmlTagAt unicode (first ++ second) tokenStart
  if tag.complete then second.take (tag.stop - first.length) else second

theorem Lost.scan_complete (lawful : unicode.Lawful)
    (lost : Lost unicode first (lastScan unicode first) tokenStart) {second : Text}
    (complete : (scanHtmlTagAt unicode (first ++ second) tokenStart).complete = true) :
    rawScanFrom unicode (first ++ second) ((first ++ second).length + 1) (lastScan unicode first) =
      rawScanFrom unicode (first ++ second) ((first ++ second).length + 1)
        { lastScan unicode first with
          cursor := (scanHtmlTagAt unicode (first ++ second) tokenStart).stop } := by
  have stepped := lost.step lawful second
  rw [if_pos complete] at stepped
  have moved := rawStep_moves stepped
  have open_ : (lastScan unicode first).cursor < (first ++ second).length :=
    Nat.lt_of_lt_of_le moved.1 moved.2
  rw [rawScanFrom_next open_ stepped]
  apply rawScanFrom_fuel <;> dsimp only at moved ⊢ <;> omega

theorem Lost.scan_cut (lawful : unicode.Lawful)
    (lost : Lost unicode first (lastScan unicode first) tokenStart) {second : Text}
    (cut : ¬(scanHtmlTagAt unicode (first ++ second) tokenStart).complete = true) :
    scanRawHtmlCodeRanges unicode (first ++ second) {} = ((lastScan unicode first).ranges, {}) := by
  have stepped := lost.step lawful second
  rw [if_neg cut] at stepped
  obtain ⟨reached, -, inside⟩ := find_char_some lost.found
  have open_ : (lastScan unicode first).cursor < (first ++ second).length := by
    rw [List.length_append]
    omega
  have context := (lastScan_placed unicode first).context
  rw [lost.outside, lost.plain] at context
  have closed : (lastScan unicode first).contextStart = none := by
    rw [← Option.not_isSome_iff_eq_none]
    exact fun opened => by simpa using context.mp opened
  rw [scan_append, rawScanFrom_done open_ stepped, openRange, closed]
  rfl

theorem rawScanFrom_plain {raw : RawScan} (inside : raw.cursor ≤ text.length) (plain : raw.inComment = false)
    (absent : ∀ index, raw.cursor ≤ index → index < text.length → text[index]? ≠ some '<') (fuel : Nat) :
    (rawScanFrom unicode text (fuel + 1) raw).2 = { tags := raw.tags } := by
  rw [rawScanFrom_skip_plain inside (Nat.le_refl _) plain absent, rawScanFrom_ended (Nat.le_refl _),
    rawEnd, plain]

theorem continues_lost {first second : Text} (lawful : unicode.Lawful)
    (left : (scanRawHtmlCodeRanges unicode first {}).2 = {})
    (lost : Lost unicode first (lastScan unicode first) tokenStart)
    (absent : '<' ∉ lostRest unicode first second tokenStart) : Continues unicode first second := by
  unfold lostRest at absent
  dsimp only at absent
  by_cases complete : (scanHtmlTagAt unicode (first ++ second) tokenStart).complete = true
  · rw [if_pos complete] at absent
    have behind := scanHtmlTagAt_cut lost.cut complete
    have fits := (scanHtmlTagAt_complete complete).2.1
    have passed := lost.scan_complete lawful complete
    generalize (scanHtmlTagAt unicode (first ++ second) tokenStart).stop = stop at absent behind fits passed
    obtain ⟨skip, rfl⟩ := Nat.exists_eq_add_of_le (Nat.le_of_lt behind)
    rw [Nat.add_sub_cancel_left] at absent
    rw [List.length_append] at fits
    apply continues_at skip left (List.append_nil _).symm lost.outside.symm lost.plain.symm rfl _ passed
    · apply rawScanFrom_skip_plain (Nat.zero_le _) _ rfl
      · intro index _ before bracket
        apply absent
        apply List.mem_of_getElem? (i := index)
        rw [List.getElem?_take_of_lt before]
        exact bracket
      · show skip ≤ second.length
        omega
    · intro comment
      rw [lost.plain] at comment
      cases comment
  · rw [if_neg complete] at absent
    unfold Continues
    dsimp only
    rw [left, lost.scan_cut lawful complete]
    refine ⟨fun position inside code => ?_, fun _ _ => ?_⟩
    · obtain ⟨range, present, within⟩ := List.any_eq_true.mp code
      rw [MarkdownCodeRange.span, inSpan_iff] at within
      have placed := lastScan_placed unicode first
      have old := placed.ranges range present
      have reached := placed.cursor
      omega
    · rw [continuedScan_eq rfl, rawScanFrom_plain (Nat.zero_le _) rfl]
      · rfl
      · intro index _ before bracket
        exact absent (List.mem_of_getElem? bracket)

/-- The second text neither changes what the first was cut in nor opens code behind a cut tag. -/
structure Resumes (unicode : Unicode) (first second : Text) : Prop where
  opener : (lastScan unicode first).inComment = true →
    (lastScan unicode first).cursor = first.length → second ≠ ['-']
  dash : (lastScan unicode first).inComment = true →
    first.drop (lastScan unicode first).cursor = ['-'] → second.head? ≠ some '>'
  tag : ∀ tokenStart, Lost unicode first (lastScan unicode first) tokenStart →
    '<' ∉ lostRest unicode first second tokenStart

theorem continues_of_resumes {first second : Text} (lawful : unicode.Lawful)
    (resumes : Resumes unicode first second) : Continues unicode first second := by
  rcases lastScan_leaves unicode first with ended | ⟨open_, ranges, state, stepped⟩
  · have left := left_of_ended ended
    by_cases comment : (lastScan unicode first).inComment = true
    · rw [comment] at left
      exact continues_opener left comment ended (resumes.opener comment ended)
    · rw [Bool.not_eq_true] at comment
      rw [comment] at left
      apply continues_plain second left comment
      intro index reached inside
      omega
  · have left := left_of_done open_ stepped
    cases rawStep_done stepped with
    | comment comment absent =>
      exact continues_comment left comment open_ absent (resumes.dash comment)
    | plain plain absent =>
      apply continues_plain second left plain
      intro index reached inside
      exact find_char_none absent reached inside
    | tooMuch state closed empty => exact continues_of_opaque left closed empty
    | kept tokenStart plain found => exact continues_kept second left plain found
    | lost tokenStart lost => exact continues_lost lawful left lost (resumes.tag tokenStart lost)

theorem scan_pre (lawful : unicode.Lawful) :
    (continuedScan unicode {} "<pre>".toList).2 = { tags := ["pre".toList] } := by
  have letter (c : Char) (ascii : c.toNat < 128) (alnum : c.isAlphanum = true) :
      isTagNameChar unicode c = true := by
    rw [isTagNameChar, lawful.isAlnum_ascii c ascii, alnum]
    rfl
  have bracket : isTagNameChar unicode '>' = false := by
    rw [isTagNameChar, lawful.isAlnum_ascii '>' (by decide)]
    rfl
  have word : "pre>".toList.takeWhile (isTagNameChar unicode) = "pre".toList := by
    simp [letter, bracket]
  have name : unicode.lower "pre".toList = "pre".toList := lawful.lower_ascii _ (by decide)
  have tag : scanHtmlTagAt unicode "<pre>".toList 0 =
      { stop := 5, name := "pre".toList, closing := false, validNameBoundary := true
        complete := true, oversized := false } := by
    rw [scanHtmlTagAt_eq, show nameStartAt "<pre>".toList 0 = 1 from rfl, scanTagName,
      show "<pre>".toList.drop 1 = "pre>".toList from rfl, word, name]
    rfl
  have stepped : rawStep unicode "<pre>".toList (resumeAt {}) =
      .next { tags := ["pre".toList], inComment := false, contextStart := some 0, cursor := 5 } := by
    rw [rawStep, if_neg (by decide), show find ['<'] "<pre>".toList (resumeAt {}).cursor = some 0 from rfl]
    dsimp only
    rw [if_neg (by decide), tag]
    rfl
  rw [continuedScan_eq rfl]
  show (rawScanFrom unicode "<pre>".toList 6 (resumeAt {})).2 = _
  rw [rawScanFrom_next (by decide) stepped]
  rfl

theorem Lost.left (lawful : unicode.Lawful) (lost : Lost unicode first (lastScan unicode first) tokenStart) :
    (scanRawHtmlCodeRanges unicode first {}).2 = {} := by
  have cut : ¬(scanHtmlTagAt unicode (first ++ []) tokenStart).complete = true := by
    rw [List.append_nil, lost.cut]
    exact Bool.false_ne_true
  have whole := lost.scan_cut lawful cut
  rw [List.append_nil] at whole
  rw [whole]

theorem Lost.not_continues (lawful : unicode.Lawful)
    (lost : Lost unicode first (lastScan unicode first) tokenStart) :
    ¬Continues unicode first "<pre>".toList := by
  have onePass : (scanRawHtmlCodeRanges unicode (first ++ "<pre>".toList) {}).2 = {} := by
    by_cases complete : (scanHtmlTagAt unicode (first ++ "<pre>".toList) tokenStart).complete = true
    · have behind := scanHtmlTagAt_cut lost.cut complete
      have fits := (scanHtmlTagAt_complete complete).2.1
      rw [scan_append, lost.scan_complete lawful complete]
      refine (rawScanFrom_plain ?_ ?_ ?_ _).trans ?_
      · exact fits
      · exact lost.plain
      · intro index reached inside
        dsimp only at reached
        obtain ⟨offset, rfl⟩ := Nat.exists_eq_add_of_le (by omega : first.length ≤ index)
        rw [getElem?_behind]
        have second : ∀ offset < 5, 0 < offset → "<pre>".toList[offset]? ≠ some '<' := by decide
        rw [List.length_append] at inside
        apply second offset
        · exact Nat.lt_of_add_lt_add_left inside
        · omega
      · rw [lost.outside]
    · rw [lost.scan_cut lawful complete]
  intro continues
  have same := continues.2
  rw [lost.left lawful, onePass, scan_pre lawful] at same
  have tags := congrArg RawHtmlState.tags (same rfl rfl)
  cases tags

theorem commentClosePartialSuffix_dashes (both : ['-', '-'] <:+ text) :
    commentClosePartialSuffix text = ['-', '-'] := by
  rcases commentClosePartialSuffix_cases text with ⟨-, same⟩ | ⟨other, -, -⟩ | ⟨none_, -⟩
  · exact same
  · exact absurd both other
  · exact absurd (List.IsSuffix.trans (by decide) both) none_

theorem dashes_concat (both : ['-', '-'] <:+ text) : ['-', '-'] <:+ text ++ ['-'] := by
  obtain ⟨before, rfl⟩ := both
  exact ⟨before ++ ['-'], by simp⟩

theorem left_of_open_comment {first second : Text} (comment : (lastScan unicode first).inComment = true)
    (reached : (lastScan unicode first).cursor < (first ++ second).length)
    (absent : find rawHtmlCommentClose (first ++ second) (lastScan unicode first).cursor = none) :
    (scanRawHtmlCodeRanges unicode (first ++ second) {}).2 =
      { tags := (lastScan unicode first).tags, inComment := true
        trailingToken := commentClosePartialSuffix (first ++ second) } := by
  have stepped : rawStep unicode (first ++ second) (lastScan unicode first) =
      rawComment (first ++ second) (lastScan unicode first) := by
    rw [rawStep, if_pos comment]
  unfold rawComment at stepped
  rw [absent] at stepped
  rw [scan_append, rawScanFrom_done reached stepped]

theorem not_continues_opener (comment : (lastScan unicode first).inComment = true)
    (ended : (lastScan unicode first).cursor = first.length) : ¬Continues unicode first ['-'] := by
  have dashes := (lastScan_placed unicode first).comment comment
  rw [ended, List.take_length] at dashes
  have absent : find rawHtmlCommentClose (first ++ ['-']) (lastScan unicode first).cursor = none := by
    have behind := find_behind rawHtmlCommentClose first ['-'] 0
    rw [Nat.add_zero] at behind
    rw [ended, behind]
    rfl
  have reached : (lastScan unicode first).cursor < (first ++ ['-']).length := by
    rw [ended, List.length_append, List.length_singleton]
    omega
  have onePass := left_of_open_comment comment reached absent
  rw [commentClosePartialSuffix_dashes (dashes_concat dashes)] at onePass
  have continued : (continuedScan unicode
      { tags := (lastScan unicode first).tags, inComment := true } ['-']).2.trailingToken = ['-'] := rfl
  intro continues
  have same := continues.2
  rw [left_of_ended ended, comment, onePass] at same
  have tokens := congrArg RawHtmlState.trailingToken (same rfl rfl)
  rw [continued] at tokens
  cases tokens

theorem not_continues_dash (comment : (lastScan unicode first).inComment = true)
    (dash : first.drop (lastScan unicode first).cursor = ['-']) : ¬Continues unicode first ['>'] := by
  have placed := lastScan_placed unicode first
  have split := List.take_append_drop (lastScan unicode first).cursor first
  rw [dash] at split
  have taken : (first.take (lastScan unicode first).cursor).length = (lastScan unicode first).cursor := by
    have inside := placed.cursor
    rw [List.length_take]
    omega
  have absent (rest : Text) (none_ : find rawHtmlCommentClose ('-' :: rest) 0 = none) :
      find rawHtmlCommentClose (first ++ rest) (lastScan unicode first).cursor = none := by
    have behind := find_behind rawHtmlCommentClose (first.take (lastScan unicode first).cursor)
      ('-' :: rest) 0
    rw [Nat.add_zero, taken, none_, ← List.singleton_append, ← List.append_assoc, split] at behind
    exact behind
  have reached (rest : Text) : (lastScan unicode first).cursor < (first ++ rest).length := by
    have lengths := congrArg List.length split
    rw [List.length_append, taken, List.length_singleton] at lengths
    rw [List.length_append]
    omega
  have onePass := left_of_open_comment comment (reached ['>']) (absent ['>'] rfl)
  have left := left_of_open_comment comment (reached []) (absent [] rfl)
  have dashes := dashes_concat (placed.comment comment)
  rw [split] at dashes
  rw [List.append_nil, commentClosePartialSuffix_dashes dashes] at left
  have continued (tags : List Text) : (continuedScan unicode
      { tags := tags, inComment := true, trailingToken := ['-', '-'] } ['>']).2 = { tags := tags } := by
    cases tags <;> rfl
  intro continues
  have same := continues.2
  rw [left, onePass, continued] at same
  have comments := congrArg RawHtmlState.inComment (same rfl rfl)
  cases comments

theorem resumes_of_continues (lawful : unicode.Lawful)
    (always : ∀ second, Continues unicode first second) (second : Text) : Resumes unicode first second where
  opener := by
    rintro comment ended rfl
    exact not_continues_opener comment ended (always _)
  dash := by
    intro comment dash _
    exact not_continues_dash comment dash (always _)
  tag := by
    intro tokenStart lost _
    exact lost.not_continues lawful (always _)

/-- The scan that goes on never holds less to be code than one pass does, exactly when no first
text is cut in a token that the state forgets. -/
theorem continues_iff_resumes (lawful : unicode.Lawful) (first : Text) :
    (∀ second, Resumes unicode first second → Continues unicode first second) ∧
      ((∀ second, Continues unicode first second) ↔ ∀ second, Resumes unicode first second) :=
  ⟨fun _ => continues_of_resumes lawful, fun always => resumes_of_continues lawful always,
    fun resumes second => continues_of_resumes lawful (resumes second)⟩

def asciiUnicode : Unicode where
  isAlnum := Char.isAlphanum
  lower := List.map Char.toLower

theorem asciiUnicode_lawful : asciiUnicode.Lawful where
  isAlnum_ascii := fun _ _ => rfl
  lower_ascii := fun _ _ => rfl
  lower_cons := fun _ => rfl
  lower_prefix := by
    intro first second _
    show first.map _ <+: (first ++ second).map _
    rw [List.map_append]
    exact List.prefix_append _ _

theorem continues_iff_resumes_pre : asciiUnicode.Lawful ∧
      (∀ second, Resumes asciiUnicode "<pre".toList second →
        Continues asciiUnicode "<pre".toList second) ∧
      ((∀ second, Continues asciiUnicode "<pre".toList second) ↔
        ∀ second, Resumes asciiUnicode "<pre".toList second) :=
  ⟨asciiUnicode_lawful, continues_iff_resumes asciiUnicode_lawful "<pre".toList⟩

/-- The quote that a tag opened is forgotten, and the next one opens one of its own. -/
theorem not_continues_quote : ¬∀ first second, Continues asciiUnicode first second := by
  intro always
  have covers := (always "<div a=\"".toList "<b \"><pre>x".toList).1 10 (by decide) (by decide)
  revert covers
  decide

end OpenSquilla.TextTools
