import OpenSquilla.TextTools.Classify

set_option autoImplicit false

namespace OpenSquilla.TextTools

open TextLines (Text)

variable {position stop : Nat}

theorem literal_le {letters text : Text}
    (matched : literal letters text position = some stop) : position ≤ stop := by
  simp only [literal, Option.ite_none_right_eq_some, Option.some.injEq] at matched
  omega

theorem le_skipWhitespace (text : Text) (index : Nat) : index ≤ skipWhitespace text index :=
  Nat.le_add_right _ _

variable {text : Text}

theorem search_spec {pattern : Pattern} {fuel position : Nat} {found : Nat × Nat}
    (searched : pattern.search text fuel position = some found) :
    position ≤ found.1 ∧ pattern text found.1 = some found.2 := by
  induction fuel generalizing position with
  | zero => cases searched
  | succ fuel ih =>
    simp only [Pattern.search] at searched
    split at searched
    next => cases searched
    split at searched
    next stop matched =>
      cases searched
      exact ⟨Nat.le_refl _, matched⟩
    next =>
      obtain ⟨later, matched⟩ := ih searched
      exact ⟨by omega, matched⟩

theorem nameUntil_le {closing : Char} {text name : Text}
    (named : nameUntil closing text position = some (name, stop)) : position ≤ stop := by
  simp only [nameUntil, Option.ite_none_right_eq_some, Option.some.injEq, Prod.mk.injEq] at named
  omega

theorem taggedName_le {opening text name : Text}
    (tagged : taggedName opening text position = some (name, stop)) : position ≤ stop := by
  obtain ⟨opened, matched, named⟩ := Option.bind_eq_some_iff.mp tagged
  exact (literal_le matched).trans (nameUntil_le named)

theorem quotedName_le {opening text name : Text}
    (quoted : quotedName opening text position = some (name, stop)) : position ≤ stop := by
  obtain ⟨opened, matched, quoted⟩ := Option.bind_eq_some_iff.mp quoted
  dsimp only at quoted
  split at quoted
  next => cases quoted
  obtain ⟨label, labelled, quoted⟩ := Option.bind_eq_some_iff.mp quoted
  obtain ⟨equals, assigned, quoted⟩ := Option.bind_eq_some_iff.mp quoted
  obtain ⟨quote, opens, quoted⟩ := Option.bind_eq_some_iff.mp quoted
  obtain ⟨⟨found, after⟩, named, quoted⟩ := Option.bind_eq_some_iff.mp quoted
  obtain ⟨closed, closes, quoted⟩ := Option.bind_eq_some_iff.mp quoted
  cases quoted
  have first := (literal_le matched).trans (le_skipWhitespace text opened)
  have second := (literal_le labelled).trans (le_skipWhitespace text label)
  have third := (literal_le assigned).trans (le_skipWhitespace text equals)
  have fourth := (literal_le opens).trans (nameUntil_le named)
  have last := (le_skipWhitespace text after).trans (literal_le closes)
  exact first.trans (second.trans (third.trans (fourth.trans last)))

structure XmlTags.Forward (tags : XmlTags) : Prop where
  parameterOpen : ∀ text position name stop,
    tags.parameterOpen text position = some (name, stop) → position ≤ stop
  parameterClose : ∀ text position stop, tags.parameterClose text position = some stop → position ≤ stop
  close : ∀ text position stop, tags.close text position = some stop → position ≤ stop

theorem qwenTags_forward : qwenTags.Forward where
  parameterOpen _ _ _ _ tagged := taggedName_le tagged
  parameterClose _ _ _ matched := literal_le matched
  close _ _ _ matched := literal_le matched

theorem minimaxTags_forward : minimaxTags.Forward where
  parameterOpen _ _ _ _ quoted := quotedName_le quoted
  parameterClose _ _ _ matched := literal_le matched
  close _ _ _ matched := literal_le matched

theorem xmlParameters_le {tags : XmlTags} (forward : tags.Forward) {fuel cursor : Nat}
    {arguments found : Arguments} {stop : Nat}
    (read : xmlParameters tags text fuel cursor arguments = some (found, stop)) : cursor ≤ stop := by
  induction fuel generalizing cursor arguments with
  | zero => cases read
  | succ fuel ih =>
    simp only [xmlParameters] at read
    have skipped := le_skipWhitespace text cursor
    split at read
    next ended closes =>
      cases read
      exact skipped.trans (forward.close _ _ _ closes)
    split at read
    next => cases read
    next rawName opened opens =>
      split at read
      next => cases read
      split at read
      next => cases read
      next closing closed searched =>
        obtain ⟨later, matched⟩ := search_spec searched
        have start := skipped.trans (forward.parameterOpen _ _ _ _ opens)
        have value := later.trans (forward.parameterClose _ _ _ matched)
        exact (start.trans value).trans (ih read)

section Qwen

variable {json : JsonLibrary}

theorem rawQwenXmlCallAt_le {index stop : Nat} {call : RawTextToolCall}
    (read : rawQwenXmlCallAt text index = some (call, stop)) : index ≤ stop := by
  obtain ⟨⟨name, cursor⟩, opens, read⟩ := Option.bind_eq_some_iff.mp read
  dsimp only at read
  split at read
  next => cases read
  obtain ⟨⟨arguments, ended⟩, parameters, read⟩ := Option.bind_eq_some_iff.mp read
  cases read
  exact (taggedName_le opens).trans (xmlParameters_le qwenTags_forward parameters)

theorem qwenBodyAt_le {cursor stop : Nat}
    {call : RawTextToolCall} (read : qwenBodyAt json text cursor = some (call, stop)) : cursor ≤ stop := by
  unfold qwenBodyAt at read
  split at read
  next =>
    obtain ⟨⟨value, ended⟩, decoded, read⟩ := Option.bind_eq_some_iff.mp read
    obtain ⟨raw, -, read⟩ := Option.bind_eq_some_iff.mp read
    cases read
    exact json.forward _ _ _ _ _ _ decoded
  next => exact rawQwenXmlCallAt_le read

theorem qwenProtocolSpanAt_le {start : Nat}
    {span : ProtocolSpan} (read : qwenProtocolSpanAt json text start = some span) : span.start ≤ span.stop := by
  obtain ⟨opened, opens, read⟩ := Option.bind_eq_some_iff.mp read
  obtain ⟨⟨call, bodyEnd⟩, body, read⟩ := Option.bind_eq_some_iff.mp read
  obtain ⟨stop, closes, read⟩ := Option.bind_eq_some_iff.mp read
  cases read
  have inside := (literal_le opens).trans (le_skipWhitespace text opened)
  have after := (qwenBodyAt_le body).trans (le_skipWhitespace text bodyEnd)
  exact (inside.trans after).trans (literal_le closes)

end Qwen

theorem minimaxInvokes_le {fuel cursor : Nat} {calls found : List RawTextToolCall}
    {stop : Nat} (read : minimaxInvokes text fuel cursor calls = some (found, stop)) : cursor ≤ stop := by
  induction fuel generalizing cursor calls with
  | zero => cases read
  | succ fuel ih =>
    simp only [minimaxInvokes] at read
    have skipped := le_skipWhitespace text cursor
    split at read
    next ended closes =>
      split at read
      next => cases read
      cases read
      exact skipped.trans (literal_le closes)
    split at read
    next => cases read
    next name opened opens =>
      split at read
      next => cases read
      split at read
      next => cases read
      next arguments closed parameters =>
        have invoked := skipped.trans (quotedName_le opens)
        exact (invoked.trans (xmlParameters_le minimaxTags_forward parameters)).trans (ih read)

theorem minimaxProtocolSpanAt_le {start : Nat} {span : ProtocolSpan}
    (read : minimaxProtocolSpanAt text start = some span) : span.start ≤ span.stop := by
  obtain ⟨opened, opens, read⟩ := Option.bind_eq_some_iff.mp read
  obtain ⟨⟨calls, stop⟩, invokes, read⟩ := Option.bind_eq_some_iff.mp read
  cases read
  exact (literal_le opens).trans (minimaxInvokes_le invokes)

theorem scanProtocolSpans_le {opening : Pattern} {parseAt : Text → Nat → Option ProtocolSpan}
    (forward : ∀ start span, parseAt text start = some span → span.start ≤ span.stop) (fuel cursor : Nat) :
    ∀ span ∈ scanProtocolSpans text opening parseAt fuel cursor, span.start ≤ span.stop := by
  induction fuel generalizing cursor with
  | zero => simp [scanProtocolSpans]
  | succ fuel ih =>
    simp only [scanProtocolSpans]
    split
    next => simp
    next start opened _ =>
      split
      next => exact ih opened
      next span parsed =>
        intro other mem
        rcases List.mem_cons.mp mem with rfl | later
        · exact forward start other parsed
        · exact ih span.stop other later

theorem braceAfter_le (found : braceAfter text position = some stop) : position ≤ stop := by
  simp only [braceAfter, Option.ite_none_right_eq_some, Option.some.injEq] at found
  omega

theorem plainTextToolMatch_le {json : JsonLibrary} {codeRanges : List MarkdownCodeRange} {found : PlainMatch}
    (matched : plainTextToolMatch json text codeRanges = some found) : found.start ≤ found.stop := by
  obtain ⟨span, -, matched⟩ := List.exists_of_findSome?_eq_some matched
  obtain ⟨⟨nameEnd, brace⟩, named, matched⟩ := Option.bind_eq_some_iff.mp matched
  dsimp only at matched
  split at matched
  next => cases matched
  split at matched
  next => cases matched
  obtain ⟨⟨value, stop⟩, decoded, matched⟩ := Option.bind_eq_some_iff.mp matched
  have onward := json.forward _ _ _ _ _ _ decoded
  have before : span.1 ≤ brace := by
    unfold plainPrefixAt at named
    split at named
    next =>
      obtain ⟨found, braced, same⟩ := Option.map_eq_some_iff.mp named
      cases same
      exact (Nat.le_add_right _ _).trans (braceAfter_le braced)
    next => cases named
  split at matched
  next =>
    split at matched
    next =>
      cases matched
      exact before.trans onward
    next => cases matched
  next => cases matched

end OpenSquilla.TextTools
