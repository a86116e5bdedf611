import OpenSquilla.TextTools.Markdown

set_option autoImplicit false

namespace OpenSquilla.TextTools

open TextLines (Text)
open TextScan (isSpace)

theorem find_eq_some_iff {needle text : Text} {position index : Nat} : find needle text position = some index ↔
      index ≤ text.length ∧ position ≤ index ∧ needle <+: text.drop index ∧
        ∀ earlier, position ≤ earlier → earlier < index → ¬needle <+: text.drop earlier := by
  rw [find, List.find?_range_eq_some]
  simp only [Bool.and_eq_true, decide_eq_true_eq, List.isPrefixOf_iff_prefix, List.mem_range,
    Bool.not_eq_true', Bool.eq_false_iff, ne_eq, not_and]
  constructor
  · rintro ⟨⟨after, found⟩, inside, first⟩
    exact ⟨by omega, after, found, fun earlier reached before => first earlier before reached⟩
  · rintro ⟨inside, after, found, first⟩
    exact ⟨⟨after, found⟩, by omega, fun earlier before reached => first earlier reached before⟩

theorem find_eq_none_iff {needle text : Text} {position : Nat} : find needle text position = none ↔
      ∀ index, position ≤ index → index ≤ text.length → ¬needle <+: text.drop index := by
  rw [find, List.find?_eq_none]
  simp only [Bool.and_eq_true, decide_eq_true_eq, List.isPrefixOf_iff_prefix, List.mem_range,
    Nat.lt_succ_iff, not_and]
  constructor
  · intro absent index reached inside
    exact absent index inside reached
  · intro absent index inside reached
    exact absent index reached inside

theorem find_skip {needle text : Text} {first second : Nat} (ordered : first ≤ second)
    (absent : ∀ index, first ≤ index → index < second → ¬needle <+: text.drop index) :
    find needle text first = find needle text second := by
  unfold find
  congr 1
  funext index
  rw [Bool.eq_iff_iff]
  simp only [Bool.and_eq_true, decide_eq_true_eq, List.isPrefixOf_iff_prefix]
  constructor
  · rintro ⟨reached, found⟩
    refine ⟨?_, found⟩
    by_contra before
    exact absent index reached (by omega) found
  · rintro ⟨reached, found⟩
    exact ⟨by omega, found⟩

theorem drop_append_add (before text : Text) (index : Nat) :
    (before ++ text).drop (before.length + index) = text.drop index := by
  rw [List.drop_append]
  simp

theorem find_behind (needle before text : Text) (position : Nat) :
    find needle (before ++ text) (before.length + position) =
      (find needle text position).map (before.length + ·) := by
  cases found : find needle text position with
  | none =>
    rw [find_eq_none_iff] at found
    rw [Option.map_none, find_eq_none_iff]
    intro index reached inside
    obtain ⟨offset, rfl⟩ := Nat.exists_eq_add_of_le (Nat.le_trans (Nat.le_add_right _ _) reached)
    rw [drop_append_add]
    apply found offset (by omega)
    rw [List.length_append] at inside
    omega
  | some index =>
    rw [find_eq_some_iff] at found
    obtain ⟨inside, reached, here, first⟩ := found
    rw [Option.map_some, find_eq_some_iff]
    refine ⟨by rw [List.length_append]; omega, by omega, ?_, ?_⟩
    · rw [drop_append_add]
      exact here
    · intro earlier after before_
      obtain ⟨offset, rfl⟩ := Nat.exists_eq_add_of_le (Nat.le_trans (Nat.le_add_right _ _) after)
      rw [drop_append_add]
      exact first offset (by omega) (by omega)

theorem prefix_drop_of_append {needle text later : Text} {index : Nat}
    (fits : index + needle.length ≤ text.length) (found : needle <+: (text ++ later).drop index) :
    needle <+: text.drop index := by
  rw [List.drop_append_of_le_length (by omega)] at found
  apply List.prefix_of_prefix_length_le found (List.prefix_append _ _)
  rw [List.length_drop]
  omega

theorem find_append {needle text : Text} (later : Text) {position index : Nat}
    (found : find needle text position = some index) : find needle (text ++ later) position = some index := by
  rw [find_eq_some_iff] at found ⊢
  obtain ⟨inside, reached, here, first⟩ := found
  refine ⟨by rw [List.length_append]; omega, reached, ?_, ?_⟩
  · rw [List.drop_append_of_le_length inside]
    exact here.trans (List.prefix_append _ _)
  · intro earlier after before there
    have fits : index + needle.length ≤ text.length := by
      have length := here.length_le
      rw [List.length_drop] at length
      omega
    exact first earlier after before (prefix_drop_of_append (by omega) there)

variable {text : Text}

theorem prefix_singleton_iff {c : Char} {index : Nat} : [c] <+: text.drop index ↔ text[index]? = some c := by
  rw [← List.head?_drop]
  cases text.drop index with
  | nil => simp
  | cons first rest => simp [List.cons_prefix_cons, eq_comm]

theorem find_char_some {c : Char} {position index : Nat} (found : find [c] text position = some index) :
    position ≤ index ∧ text[index]? = some c ∧ index < text.length := by
  rw [find_eq_some_iff] at found
  have here := prefix_singleton_iff.mp found.2.2.1
  obtain ⟨inside, _⟩ := List.getElem?_eq_some_iff.mp here
  exact ⟨found.2.1, here, inside⟩

theorem closeOfTag_behind (offset start cursor : Nat) (quote : Option Char) (rest : Text) :
    closeOfTag (offset + start) (offset + cursor) quote rest =
      (closeOfTag start cursor quote rest).map (Option.map (offset + ·)) := by
  induction rest generalizing cursor quote with
  | nil => rfl
  | cons c rest ih =>
    have span : offset + cursor - (offset + start) = cursor - start := by omega
    simp only [closeOfTag, span, Nat.add_assoc, ih]
    cases quote with
    | none => split_ifs <;> rfl
    | some open_ => split_ifs <;> rfl

theorem closeOfTag_append {start cursor : Nat} {quote : Option Char} {rest : Text}
    (later : Text) {found : Option Nat} (closed : closeOfTag start cursor quote rest = some found) :
    closeOfTag start cursor quote (rest ++ later) = some found := by
  induction rest generalizing cursor quote with
  | nil => cases closed
  | cons c rest ih =>
    rw [List.cons_append]
    unfold closeOfTag at closed ⊢
    by_cases long : rawHtmlTokenMaxChars ≤ cursor - start
    · rw [if_pos long] at closed ⊢
      exact closed
    rw [if_neg long] at closed ⊢
    cases quote with
    | some open_ => exact ih closed
    | none =>
      dsimp only at closed ⊢
      split
      · next opens =>
        rw [if_pos opens] at closed
        exact ih closed
      · next plain =>
        rw [if_neg plain] at closed
        split
        · next closes =>
          rw [if_pos closes] at closed
          exact closed
        · next inner =>
          rw [if_neg inner] at closed
          exact ih closed

theorem closeOfTag_some {start cursor stop : Nat} {quote : Option Char} {rest : Text}
    (closed : closeOfTag start cursor quote rest = some (some stop)) :
    cursor ≤ stop ∧ stop < cursor + rest.length ∧ '>' ∈ rest := by
  induction rest generalizing cursor quote with
  | nil => cases closed
  | cons c rest ih =>
    have onward {quote : Option Char}
        (closed : closeOfTag start (cursor + 1) quote rest = some (some stop)) :
        cursor ≤ stop ∧ stop < cursor + (c :: rest).length ∧ '>' ∈ c :: rest := by
      obtain ⟨reached, inside, present⟩ := ih closed
      rw [List.length_cons]
      exact ⟨by omega, by omega, List.mem_cons_of_mem _ present⟩
    unfold closeOfTag at closed
    by_cases long : rawHtmlTokenMaxChars ≤ cursor - start
    · rw [if_pos long] at closed
      cases closed
    rw [if_neg long] at closed
    cases quote with
    | some open_ => exact onward closed
    | none =>
      dsimp only at closed
      split at closed
      · exact onward closed
      · split at closed
        · next closes =>
          cases closed
          rw [List.length_cons]
          exact ⟨Nat.le_refl _, by omega, by rw [closes]; exact List.mem_cons_self⟩
        · exact onward closed

theorem closeOfTag_of_append {start cursor stop : Nat} {quote : Option Char} {rest later : Text}
    (closed : closeOfTag start cursor quote (rest ++ later) = some (some stop))
    (inside : stop < cursor + rest.length) : closeOfTag start cursor quote rest = some (some stop) := by
  induction rest generalizing cursor quote with
  | nil =>
    have reached := (closeOfTag_some closed).1
    rw [List.length_nil] at inside
    omega
  | cons c rest ih =>
    have within : stop < cursor + 1 + rest.length := by
      rw [List.length_cons] at inside
      omega
    rw [List.cons_append] at closed
    unfold closeOfTag at closed ⊢
    by_cases long : rawHtmlTokenMaxChars ≤ cursor - start
    · rw [if_pos long] at closed
      cases closed
    rw [if_neg long] at closed ⊢
    cases quote with
    | some open_ => exact ih closed within
    | none =>
      dsimp only at closed ⊢
      split
      · next opens =>
        rw [if_pos opens] at closed
        exact ih closed within
      · next plain =>
        rw [if_neg plain] at closed
        split
        · next closes =>
          rw [if_pos closes] at closed
          exact closed
        · next inner =>
          rw [if_neg inner] at closed
          exact ih closed within

abbrev HtmlTagScan.behind (tag : HtmlTagScan) (offset : Nat) : HtmlTagScan :=
  { tag with stop := offset + tag.stop }

theorem slice_behind (before text : Text) (start stop : Nat) :
    slice (before ++ text) (before.length + start) (before.length + stop) = slice text start stop := by
  unfold slice
  rw [List.take_append, List.take_of_length_le (Nat.le_add_right _ _), Nat.add_sub_cancel_left,
    drop_append_add]

theorem getElem?_behind (before text : Text) (index : Nat) :
    (before ++ text)[before.length + index]? = text[index]? := by
  rw [List.getElem?_append_right (Nat.le_add_right _ _), Nat.add_sub_cancel_left]

variable (unicode : Unicode)

theorem scanHtmlTagAt_eq (text : Text) (start : Nat) : scanHtmlTagAt unicode text start =
      scanTagName unicode text start (text[start + 1]? = some '/') (nameStartAt text start) := rfl

theorem scanTagName_behind (before text : Text) (start : Nat) (closing : Bool) (nameStart : Nat) :
    scanTagName unicode (before ++ text) (before.length + start) closing
        (before.length + nameStart) =
      (scanTagName unicode text start closing nameStart).behind before.length := by
  unfold scanTagName
  dsimp only
  rw [drop_append_add]
  generalize (text.drop nameStart).takeWhile (isTagNameChar unicode) = word
  rw [Nat.add_assoc, getElem?_behind, drop_append_add, closeOfTag_behind]
  cases closeOfTag start (nameStart + word.length) none (text.drop (nameStart + word.length)) with
  | none => simp [HtmlTagScan.behind]
  | some found =>
    cases found with
    | none => simp [HtmlTagScan.behind]; omega
    | some stop => simp [HtmlTagScan.behind, slice_behind]; omega

theorem scanHtmlTagAt_behind (before text : Text) (start : Nat) :
    scanHtmlTagAt unicode (before ++ text) (before.length + start) =
      (scanHtmlTagAt unicode text start).behind before.length := by
  have name : nameStartAt (before ++ text) (before.length + start) =
      before.length + nameStartAt text start := by
    unfold nameStartAt
    rw [Nat.add_assoc, getElem?_behind]
    split <;> omega
  rw [scanHtmlTagAt_eq, scanHtmlTagAt_eq, name, Nat.add_assoc, getElem?_behind,
    scanTagName_behind]

theorem nameStartAt_le (text : Text) (start : Nat) : start + 1 ≤ nameStartAt text start := by
  unfold nameStartAt
  split <;> omega

variable {unicode}

theorem scanTagName_decided {start nameStart : Nat} {closing : Bool}
    (decided : (scanTagName unicode text start closing nameStart).complete = true ∨
      (scanTagName unicode text start closing nameStart).oversized = true) :
    let nameEnd := nameStart + ((text.drop nameStart).takeWhile (isTagNameChar unicode)).length
    nameEnd < text.length ∧
      ∃ found, closeOfTag start nameEnd none (text.drop nameEnd) = some found := by
  unfold scanTagName at decided
  dsimp only at decided ⊢
  generalize (text.drop nameStart).takeWhile (isTagNameChar unicode) = word at decided ⊢
  cases closed : closeOfTag start (nameStart + word.length) none
      (text.drop (nameStart + word.length)) with
  | none => simp [closed] at decided
  | some found =>
    refine ⟨?_, found, rfl⟩
    by_contra short
    rw [List.drop_eq_nil_of_le (by omega)] at closed
    cases closed

theorem takeWhile_name_append (later : Text) {nameStart : Nat}
    (inside : nameStart + ((text.drop nameStart).takeWhile (isTagNameChar unicode)).length <
      text.length) :
    ((text ++ later).drop nameStart).takeWhile (isTagNameChar unicode) =
      (text.drop nameStart).takeWhile (isTagNameChar unicode) := by
  rw [List.drop_append_of_le_length (by omega), List.takeWhile_append, if_neg]
  rw [List.length_drop]
  omega

theorem scanTagName_append (later : Text) {start nameStart : Nat} {closing : Bool}
    (decided : (scanTagName unicode text start closing nameStart).complete = true ∨
      (scanTagName unicode text start closing nameStart).oversized = true) :
    scanTagName unicode (text ++ later) start closing nameStart =
      scanTagName unicode text start closing nameStart := by
  obtain ⟨inside, found, closed⟩ := scanTagName_decided decided
  have word := takeWhile_name_append later inside
  unfold scanTagName
  dsimp only
  rw [word]
  generalize (text.drop nameStart).takeWhile (isTagNameChar unicode) = name at inside closed ⊢
  rw [List.getElem?_append_left inside, List.drop_append_of_le_length (Nat.le_of_lt inside), closed,
    closeOfTag_append later closed]
  cases found with
  | none => rfl
  | some stop =>
    have within := (closeOfTag_some closed).2.1
    rw [List.length_drop] at within
    have remainder : slice (text ++ later) (nameStart + name.length) stop =
        slice text (nameStart + name.length) stop := by
      unfold slice
      rw [List.take_append_of_le_length (by omega)]
    dsimp only
    rw [remainder]

theorem scanHtmlTagAt_append (later : Text) {start : Nat}
    (decided : (scanHtmlTagAt unicode text start).complete = true ∨
      (scanHtmlTagAt unicode text start).oversized = true) :
    scanHtmlTagAt unicode (text ++ later) start = scanHtmlTagAt unicode text start := by
  rw [scanHtmlTagAt_eq] at decided ⊢
  have inside := (scanTagName_decided decided).1
  have after := nameStartAt_le text start
  have second : (text ++ later)[start + 1]? = text[start + 1]? :=
    List.getElem?_append_left (by omega)
  have name : nameStartAt (text ++ later) start = nameStartAt text start := by
    unfold nameStartAt
    rw [second]
  rw [scanHtmlTagAt_eq, second, name]
  exact scanTagName_append later decided

theorem scanHtmlTagAt_complete {start : Nat} (complete : (scanHtmlTagAt unicode text start).complete = true) :
    start < (scanHtmlTagAt unicode text start).stop ∧
      (scanHtmlTagAt unicode text start).stop ≤ text.length ∧ '>' ∈ text.drop start := by
  rw [scanHtmlTagAt_eq] at complete ⊢
  obtain ⟨inside, found, closed⟩ := scanTagName_decided (Or.inl complete)
  have after := nameStartAt_le text start
  generalize nameStartAt text start = nameStart at complete inside closed after ⊢
  unfold scanTagName at complete ⊢
  dsimp only at complete ⊢
  generalize (text.drop nameStart).takeWhile (isTagNameChar unicode) = word at complete inside closed ⊢
  rw [closed] at complete ⊢
  cases found with
  | none => cases complete
  | some stop =>
    obtain ⟨reached, within, present⟩ := closeOfTag_some closed
    rw [List.length_drop] at within
    dsimp only
    refine ⟨by omega, by omega, ?_⟩
    have tail : text.drop (nameStart + word.length) <:+ text.drop start := by
      rw [show nameStart + word.length = start + (nameStart + word.length - start) by omega,
        ← List.drop_drop]
      exact List.drop_suffix _ _
    exact tail.subset present

@[simp] theorem scanTagName_name (text : Text) (start : Nat) (closing : Bool) (nameStart : Nat) :
    (scanTagName unicode text start closing nameStart).name =
      unicode.lower ((text.drop nameStart).takeWhile (isTagNameChar unicode)) := by
  unfold scanTagName
  dsimp only
  split <;> rfl

@[simp] theorem scanTagName_closing (text : Text) (start : Nat) (closing : Bool) (nameStart : Nat) :
    (scanTagName unicode text start closing nameStart).closing = closing := by
  unfold scanTagName
  dsimp only
  split <;> rfl

variable (unicode) in
def nameEnds (text : Text) (nameStart : Nat) : Bool :=
  match text[nameStart + ((text.drop nameStart).takeWhile (isTagNameChar unicode)).length]? with
  | none => true
  | some c => isSpace c || c = '/' || c = '>'

@[simp] theorem scanTagName_boundary (text : Text) (start : Nat) (closing : Bool) (nameStart : Nat) :
    (scanTagName unicode text start closing nameStart).validNameBoundary =
      nameEnds unicode text nameStart := by
  unfold scanTagName
  dsimp only
  split <;> rfl

theorem scanHtmlTagAt_cut {text later : Text} {start : Nat}
    (cut : (scanHtmlTagAt unicode text start).complete = false)
    (complete : (scanHtmlTagAt unicode (text ++ later) start).complete = true) :
    text.length < (scanHtmlTagAt unicode (text ++ later) start).stop := by
  rw [scanHtmlTagAt_eq] at cut complete ⊢
  obtain ⟨inside, found, closed⟩ := scanTagName_decided (Or.inl complete)
  have after := nameStartAt_le (text ++ later) start
  generalize atName : nameStartAt (text ++ later) start = nameStart at complete inside closed after ⊢
  unfold scanTagName at complete ⊢
  dsimp only at complete ⊢
  rw [closed] at complete ⊢
  cases found with
  | none => cases complete
  | some stop =>
    dsimp only
    by_contra early
    have reached := (closeOfTag_some closed).1
    have second : (text ++ later)[start + 1]? = text[start + 1]? :=
      List.getElem?_append_left (by omega)
    have name : nameStartAt text start = nameStart := by
      rw [← atName]
      unfold nameStartAt
      rw [second]
    have within : nameStart +
        ((text.drop nameStart).takeWhile (isTagNameChar unicode)).length < text.length := by
      by_contra whole
      -- a name that fills the text is at least as long in the longer one
      have filled : (text.drop nameStart).takeWhile (isTagNameChar unicode) = text.drop nameStart := by
        apply (List.takeWhile_prefix _).eq_of_length_le
        rw [List.length_drop]
        omega
      rw [List.drop_append_of_le_length (by omega), List.takeWhile_append, filled, if_pos rfl,
        List.length_append, List.length_drop] at reached
      omega
    have word := takeWhile_name_append later within
    rw [word] at closed reached
    rw [List.drop_append_of_le_length (Nat.le_of_lt within)] at closed
    have short := closeOfTag_of_append closed (by rw [List.length_drop]; omega)
    rw [name] at cut
    unfold scanTagName at cut
    dsimp only at cut
    rw [short] at cut
    cases cut

inductive Advance (unicode : Unicode) (text : Text) (raw : RawScan) : RawScan → Prop
  | commentClosed (close : Nat) (comment : raw.inComment = true)
      (found : find rawHtmlCommentClose text raw.cursor = some close) (outermost : raw.tags = []) :
      Advance unicode text raw { raw with
        inComment := false, cursor := close + 3, ranges := openRange raw (close + 3) true
        contextStart := none }
  | commentLeft (close : Nat) (comment : raw.inComment = true)
      (found : find rawHtmlCommentClose text raw.cursor = some close) (inner : raw.tags ≠ []) :
      Advance unicode text raw { raw with inComment := false, cursor := close + 3 }
  | commentOpened (tokenStart : Nat) (plain : raw.inComment = false)
      (found : find ['<'] text raw.cursor = some tokenStart)
      (opener : rawHtmlCommentOpen <+: text.drop tokenStart) :
      Advance unicode text raw { raw with
        contextStart := some (raw.contextStart.getD tokenStart), inComment := true
        cursor := tokenStart + 4 }
  | tagRead (tokenStart : Nat) (next : RawScan) (plain : raw.inComment = false)
      (found : find ['<'] text raw.cursor = some tokenStart)
      (other : ¬rawHtmlCommentOpen <+: text.drop tokenStart)
      (complete : (scanHtmlTagAt unicode text tokenStart).complete = true)
      (read : rawComplete text raw tokenStart (scanHtmlTagAt unicode text tokenStart) = .next next) :
      Advance unicode text raw next

theorem rawIncomplete_ends (text : Text) (raw : RawScan) (tokenStart : Nat) (tag : HtmlTagScan) :
    ∃ ranges state, rawIncomplete unicode text raw tokenStart tag = .done ranges state := by
  unfold rawIncomplete
  dsimp only
  split_ifs <;> exact ⟨_, _, rfl⟩

variable {raw next : RawScan}

theorem rawStep_next (stepped : rawStep unicode text raw = .next next) : Advance unicode text raw next := by
  unfold rawStep at stepped
  split at stepped
  · next comment =>
    unfold rawComment at stepped
    split at stepped
    · cases stepped
    · next close found =>
      dsimp only at stepped
      split at stepped
      · next outermost =>
        cases stepped
        exact .commentClosed close comment found outermost
      · next inner =>
        cases stepped
        exact .commentLeft close comment found inner
  · next plain =>
    rw [Bool.not_eq_true] at plain
    split at stepped
    · cases stepped
    · next tokenStart found =>
      split at stepped
      · next opener =>
        cases stepped
        exact .commentOpened tokenStart plain found (List.isPrefixOf_iff_prefix.mp opener)
      · next other =>
        rw [List.isPrefixOf_iff_prefix] at other
        dsimp only at stepped
        split at stepped
        · next complete => exact .tagRead tokenStart next plain found other complete stepped
        · obtain ⟨ranges, state, ends⟩ := rawIncomplete_ends text raw tokenStart
            (scanHtmlTagAt unicode text tokenStart)
          rw [ends] at stepped
          cases stepped

theorem rawComplete_next {tokenStart : Nat} {tag : HtmlTagScan}
    (read : rawComplete text raw tokenStart tag = .next next) (other : Text) :
    rawComplete other raw tokenStart tag = .next next := by
  unfold rawComplete at read ⊢
  dsimp only at read ⊢
  cases last : raw.tags.getLast? with
  | none => simpa only [last] using read
  | some innermost =>
    simp only [last] at read ⊢
    split at read
    · next closes => rwa [if_pos closes]
    · next stays =>
      rw [if_neg stays]
      split at read
      · next opens =>
        rw [if_pos opens]
        split at read
        · cases read
        · next shallow => rwa [if_neg shallow]
      · next ordinary => rwa [if_neg ordinary]

theorem rawStep_append (later : Text) (stepped : rawStep unicode text raw = .next next) :
    rawStep unicode (text ++ later) raw = .next next := by
  unfold rawStep
  cases rawStep_next stepped with
  | commentClosed close comment found outermost =>
    rw [if_pos comment, rawComment, find_append later found]
    simp [outermost, rawHtmlCommentClose]
  | commentLeft close comment found inner =>
    rw [if_pos comment, rawComment, find_append later found]
    simp [inner, rawHtmlCommentClose]
  | commentOpened tokenStart plain found opener =>
    have inside := (find_char_some found).2.2
    have still : rawHtmlCommentOpen.isPrefixOf ((text ++ later).drop tokenStart) = true := by
      rw [List.isPrefixOf_iff_prefix, List.drop_append_of_le_length (Nat.le_of_lt inside)]
      exact opener.trans (List.prefix_append _ _)
    simp only [plain, Bool.false_eq_true, if_false, find_append later found, still, if_true]
    rfl
  | tagRead tokenStart next plain found other complete read =>
    have inside := (find_char_some found).2.2
    have still : ¬rawHtmlCommentOpen.isPrefixOf ((text ++ later).drop tokenStart) = true := by
      rw [List.isPrefixOf_iff_prefix, List.drop_append_of_le_length (Nat.le_of_lt inside)]
      intro opener
      -- an opener that the text cuts has no end of a tag in it
      rcases List.prefix_or_prefix_of_prefix opener (List.prefix_append _ later) with whole | cut
      · exact other whole
      · have present := cut.subset (scanHtmlTagAt_complete complete).2.2
        exact absurd present (by decide)
    simp only [plain, Bool.false_eq_true, if_false, find_append later found, if_neg still,
      scanHtmlTagAt_append later (Or.inl complete), complete, if_true]
    exact rawComplete_next read _

structure Placed (text : Text) (raw : RawScan) : Prop where
  context : raw.contextStart.isSome = true ↔ raw.tags ≠ [] ∨ raw.inComment = true
  ranges : ∀ range ∈ raw.ranges, range.stop ≤ raw.cursor
  cursor : raw.cursor ≤ text.length
  comment : raw.inComment = true → ['-', '-'] <:+ text.take raw.cursor

inductive TagRead (raw : RawScan) (tokenStart : Nat) (tag : HtmlTagScan) : RawScan → Prop
  | closedLast (outermost : raw.tags.dropLast = []) : TagRead raw tokenStart tag { raw with
      tags := raw.tags.dropLast, cursor := tag.stop, ranges := openRange raw tag.stop true
      contextStart := none }
  | closedInner (inner : raw.tags.dropLast ≠ []) :
      TagRead raw tokenStart tag { raw with tags := raw.tags.dropLast, cursor := tag.stop }
  | openedInner (confirmed : confirmedRawOpen tag = true) (within : raw.tags ≠ []) :
      TagRead raw tokenStart tag { raw with tags := raw.tags ++ [tag.name], cursor := tag.stop }
  | openedFirst (confirmed : confirmedRawOpen tag = true) (outside : raw.tags = []) :
      TagRead raw tokenStart tag { raw with
        tags := [tag.name], contextStart := some tokenStart, cursor := tag.stop }
  | ordinary : TagRead raw tokenStart tag { raw with cursor := tag.stop }

theorem rawComplete_read {tokenStart : Nat} {tag : HtmlTagScan}
    (read : rawComplete text raw tokenStart tag = .next next) : TagRead raw tokenStart tag next := by
  unfold rawComplete at read
  dsimp only at read
  cases last : raw.tags.getLast? with
  | none =>
    simp only [last, Bool.and_eq_true] at read
    have outside : raw.tags = [] := List.getLast?_eq_none_iff.mp last
    split at read
    · next opens =>
      cases read
      exact .openedFirst opens.1 outside
    · cases read
      exact .ordinary
  | some innermost =>
    simp only [last, Bool.and_eq_true] at read
    have within : raw.tags ≠ [] := by
      intro outside
      simp [outside] at last
    split at read
    · split at read
      · next outermost =>
        cases read
        exact .closedLast outermost
      · next inner =>
        cases read
        exact .closedInner inner
    · split at read
      · next opens =>
        split at read
        · cases read
        · cases read
          exact .openedInner opens.1 within
      · cases read
        exact .ordinary

theorem stop_openRange {raw : RawScan} {stop : Nat} {closed : Bool}
    (before : ∀ range ∈ raw.ranges, range.stop ≤ stop) :
    ∀ range ∈ openRange raw stop closed, range.stop ≤ stop := by
  unfold openRange
  cases raw.contextStart with
  | none => exact before
  | some start =>
    intro range present
    rw [Option.elim_some, List.mem_append, List.mem_singleton] at present
    rcases present with earlier | rfl
    · exact before range earlier
    · exact Nat.le_refl _

theorem rawComplete_cursor {tokenStart : Nat} {tag : HtmlTagScan}
    (read : rawComplete text raw tokenStart tag = .next next) : next.cursor = tag.stop := by
  cases rawComplete_read read <;> rfl

theorem rawStep_moves (stepped : rawStep unicode text raw = .next next) :
    raw.cursor < next.cursor ∧ next.cursor ≤ text.length := by
  have matched {needle : Text} {index : Nat} (here : needle <+: text.drop index)
      (nonempty : 0 < needle.length) : index + needle.length ≤ text.length := by
    have length := here.length_le
    rw [List.length_drop] at length
    omega
  cases rawStep_next stepped with
  | commentClosed close comment found outermost =>
    obtain ⟨-, reached, here, -⟩ := find_eq_some_iff.mp found
    have fits := matched here (by decide)
    exact ⟨Nat.lt_of_le_of_lt reached (Nat.lt_add_of_pos_right (by decide)), fits⟩
  | commentLeft close comment found inner =>
    obtain ⟨-, reached, here, -⟩ := find_eq_some_iff.mp found
    have fits := matched here (by decide)
    exact ⟨Nat.lt_of_le_of_lt reached (Nat.lt_add_of_pos_right (by decide)), fits⟩
  | commentOpened tokenStart plain found opener =>
    have fits := matched opener (by decide)
    exact ⟨Nat.lt_of_le_of_lt (find_char_some found).1 (Nat.lt_add_of_pos_right (by decide)), fits⟩
  | tagRead tokenStart next plain found other complete read =>
    obtain ⟨after, fits, -⟩ := scanHtmlTagAt_complete complete
    rw [rawComplete_cursor read]
    exact ⟨Nat.lt_of_le_of_lt (find_char_some found).1 after, fits⟩

theorem Placed.step (placed : Placed text raw)
    (stepped : rawStep unicode text raw = .next next) : Placed text next := by
  obtain ⟨moved, fits⟩ := rawStep_moves stepped
  have later : ∀ range ∈ raw.ranges, range.stop ≤ next.cursor :=
    fun range present => Nat.le_trans (placed.ranges range present) (Nat.le_of_lt moved)
  cases rawStep_next stepped with
  | commentClosed close comment found outermost =>
    exact ⟨by simp [outermost], stop_openRange later, fits, nofun⟩
  | commentLeft close comment found inner =>
    have opened : raw.contextStart.isSome = true := placed.context.mpr (Or.inl inner)
    exact ⟨by simp [inner, opened], later, fits, nofun⟩
  | commentOpened tokenStart plain found opener =>
    refine ⟨by simp, later, fits, fun _ => ?_⟩
    obtain ⟨rest, split⟩ := opener
    have taken : text.take (tokenStart + 4) = text.take tokenStart ++ rawHtmlCommentOpen := by
      rw [List.take_add, ← split]
      simp [rawHtmlCommentOpen]
    show ['-', '-'] <:+ text.take (tokenStart + 4)
    rw [taken]
    exact List.IsSuffix.trans (by decide) (List.suffix_append _ _)
  | tagRead tokenStart next plain found other complete read =>
    have context := placed.context
    simp only [plain, Bool.false_eq_true, or_false] at context
    cases rawComplete_read read with
    | closedLast outermost =>
      exact ⟨by simp [plain, outermost], stop_openRange later, fits, by simp [plain]⟩
    | closedInner inner =>
      have within : raw.tags ≠ [] := by
        intro outside
        simp [outside] at inner
      exact ⟨by simp [inner, context.mpr within], later, fits, by simp [plain]⟩
    | openedInner confirmed within =>
      exact ⟨by simp [context.mpr within], later, fits, by simp [plain]⟩
    | openedFirst confirmed outside =>
      exact ⟨by simp, later, fits, by simp [plain]⟩
    | ordinary =>
      exact ⟨by simpa [plain] using context, later, fits, by simp [plain]⟩

def rawEnd (text : Text) (raw : RawScan) : List MarkdownCodeRange × RawHtmlState :=
  (openRange raw text.length false, { tags := raw.tags, inComment := raw.inComment })

theorem rawScanFrom_ended {raw : RawScan} (ended : text.length ≤ raw.cursor)
    (fuel : Nat) : rawScanFrom unicode text fuel raw = rawEnd text raw := by
  cases fuel with
  | zero => rfl
  | succ fuel => rw [rawScanFrom, if_pos ended, rawEnd]

theorem rawScanFrom_done {raw : RawScan} {ranges : List MarkdownCodeRange}
    {state : RawHtmlState} (open_ : raw.cursor < text.length)
    (stepped : rawStep unicode text raw = .done ranges state) (fuel : Nat) :
    rawScanFrom unicode text (fuel + 1) raw = (ranges, state) := by
  rw [rawScanFrom, if_neg (Nat.not_le.mpr open_), stepped]

theorem rawScanFrom_next (open_ : raw.cursor < text.length)
    (stepped : rawStep unicode text raw = .next next) (fuel : Nat) :
    rawScanFrom unicode text (fuel + 1) raw = rawScanFrom unicode text fuel next := by
  rw [rawScanFrom, if_neg (Nat.not_le.mpr open_), stepped]

theorem rawScanFrom_fuel {raw : RawScan} {fuel more : Nat}
    (enough : text.length < raw.cursor + fuel) (enoughToo : text.length < raw.cursor + more) :
    rawScanFrom unicode text fuel raw = rawScanFrom unicode text more raw := by
  induction fuel generalizing raw more with
  | zero =>
    have ended : text.length ≤ raw.cursor := by omega
    rw [rawScanFrom_ended ended, rawScanFrom_ended ended]
  | succ fuel ih =>
    by_cases ended : text.length ≤ raw.cursor
    · rw [rawScanFrom_ended ended, rawScanFrom_ended ended]
    have open_ : raw.cursor < text.length := Nat.not_le.mp ended
    cases more with
    | zero => omega
    | succ more =>
      cases stepped : rawStep unicode text raw with
      | done ranges state => rw [rawScanFrom_done open_ stepped, rawScanFrom_done open_ stepped]
      | next next =>
        have moved := (rawStep_moves stepped).1
        rw [rawScanFrom_next open_ stepped, rawScanFrom_next open_ stepped]
        apply ih <;> omega

variable (unicode) in
def lastFrom (text : Text) : Nat → RawScan → RawScan
  | 0, raw => raw
  | fuel + 1, raw =>
    if text.length ≤ raw.cursor then raw
    else
      match rawStep unicode text raw with
      | .done _ _ => raw
      | .next raw => lastFrom text fuel raw

def Leaves (unicode : Unicode) (text : Text) (last : RawScan) : Prop :=
  last.cursor = text.length ∨
    last.cursor < text.length ∧ ∃ ranges state, rawStep unicode text last = .done ranges state

theorem lastFrom_spec {raw : RawScan} (placed : Placed text raw) {fuel : Nat}
    (enough : text.length < raw.cursor + fuel) : Placed text (lastFrom unicode text fuel raw) ∧
      Leaves unicode text (lastFrom unicode text fuel raw) ∧
      ∀ (later : Text) (more : Nat), (text ++ later).length < raw.cursor + more →
        (text ++ later).length < (lastFrom unicode text fuel raw).cursor + more ∧
        rawScanFrom unicode (text ++ later) more raw =
          rawScanFrom unicode (text ++ later) more (lastFrom unicode text fuel raw) := by
  induction fuel generalizing raw with
  | zero => exact absurd placed.cursor (by omega)
  | succ fuel ih =>
    rw [lastFrom]
    split
    · next ended =>
      exact ⟨placed, Or.inl (Nat.le_antisymm placed.cursor ended), fun _ _ plenty => ⟨plenty, rfl⟩⟩
    next going =>
    have open_ : raw.cursor < text.length := Nat.not_le.mp going
    split
    · next ranges state stepped =>
      exact ⟨placed, Or.inr ⟨open_, ranges, state, stepped⟩, fun _ _ plenty => ⟨plenty, rfl⟩⟩
    · next next stepped =>
      have still := placed.step stepped
      have moved := (rawStep_moves stepped).1
      obtain ⟨there, left, same⟩ := ih still (by omega)
      refine ⟨there, left, fun later more plenty => ?_⟩
      obtain ⟨onward, follows⟩ := same later more (by omega)
      refine ⟨onward, ?_⟩
      cases more with
      | zero =>
        have inside := placed.cursor
        rw [List.length_append] at plenty
        omega
      | succ more =>
        have wider : raw.cursor < (text ++ later).length := by
          rw [List.length_append]
          omega
        rw [← follows, rawScanFrom_next wider (rawStep_append later stepped)]
        apply rawScanFrom_fuel <;> omega

end OpenSquilla.TextTools
