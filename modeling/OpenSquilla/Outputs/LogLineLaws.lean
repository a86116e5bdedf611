import OpenSquilla.Outputs.LogLines

set_option autoImplicit false

namespace OpenSquilla.Outputs

open TextLines FirstOccurrence BoundedTail

section Records

variable (lib : RegexLibrary) (query : Query)

def record (number offset : Nat) (body : Text) : LogLine :=
  let (matched, at_) :=
    match query.literal, query.regex with
    | some literal, _ => (some (find literal body).isSome, find literal body)
    | none, some regex =>
      if body.length ≤ maxRegexLineChars then
          (some (lib.search regex body).isSome, lib.search regex body)
      else (none, none)
    | none, none => (none, none)
  ⟨number, offset, body.take query.previewChars, body.length, matched, at_.map (offset + ·)⟩

-- The lines of a text, each with its terminator, from a number and an offset on.
def records : Nat → Nat → List Text → List LogLine
  | _, _, [] => []
  | number, offset, line :: rest =>
    record lib query number offset (lineText line) :: records (number + 1) (offset + line.length) rest

theorem records_append (number offset : Nat) (before behind : List Text) :
    records lib query number offset (before ++ behind) = records lib query number offset before ++
      records lib query (number + before.length) (offset + before.flatten.length) behind := by
  induction before generalizing number offset with
  | nil => rfl
  | cons line before ih =>
    rw [List.cons_append, records, records, ih, List.cons_append, List.length_cons, List.flatten_cons,
      List.length_append, Nat.add_assoc, Nat.add_assoc, Nat.add_comm 1]

end Records

/-- What was read: the ended lines, each with its terminator, and the one that goes on. -/
structure Reading where
  ended : List (Text × Text)
  current : Text

namespace Reading

def lines (reading : Reading) : List Text := reading.ended.map fun entry => entry.1 ++ entry.2

def text (reading : Reading) : Text := reading.lines.flatten ++ reading.current

def EndsCr (reading : Reading) : Prop := reading.current = [] ∧ ∃ last, reading.ended.getLast? = some last ∧
    last.2 = ['\r']

structure Lawful (reading : Reading) : Prop where
  unbroken : ∀ entry ∈ reading.ended, Unbroken entry.1
  terminated : ∀ entry ∈ reading.ended, Terminator entry.2
  seamless : Seamless reading.lines
  current : Unbroken reading.current

def take (reading : Reading) (fragment : Text) : Reading := ⟨reading.ended, reading.current ++ fragment⟩

def close (reading : Reading) (separator : Text) :
    Reading := ⟨reading.ended ++ [(reading.current, separator)], []⟩

theorem text_take (reading : Reading) (fragment : Text) :
    (reading.take fragment).text = reading.text ++ fragment := by
  simp [text, take, lines]

theorem text_close (reading : Reading) (separator : Text) :
    (reading.close separator).text = reading.text ++ separator := by
  simp [text, close, lines]

theorem Lawful.take {reading : Reading} (lawful : reading.Lawful) {fragment : Text}
    (unbroken : Unbroken fragment) : (reading.take fragment).Lawful where
  unbroken := lawful.unbroken
  terminated := lawful.terminated
  seamless := lawful.seamless
  current := by
    intro c mem
    obtain mem | mem := List.mem_append.1 mem
    · exact lawful.current c mem
    · exact unbroken c mem

theorem Lawful.close {reading : Reading} (lawful : reading.Lawful) {separator : Text}
    (terminator : Terminator separator)
    (apart : reading.EndsCr → separator.head? ≠ some '\n') : (reading.close separator).Lawful where
  unbroken := by
    rw [Reading.close, List.forall_mem_append]
    exact ⟨lawful.unbroken, by simpa using lawful.current⟩
  terminated := by
    rw [Reading.close, List.forall_mem_append]
    exact ⟨lawful.terminated, by simpa using terminator⟩
  seamless := by
    rw [Seamless, lines, Reading.close, List.map_append, List.isChain_append]
    refine ⟨lawful.seamless, List.isChain_singleton _, fun before last next first runs => ?_⟩
    obtain rfl : reading.current ++ separator = next := by simpa using first
    obtain ⟨entry, found, rfl⟩ : ∃ entry, reading.ended.getLast? = some entry ∧ entry.1 ++ entry.2 = before := by
      simpa using last
    have mem := List.mem_of_getLast? found
    obtain broken | ⟨carriage, feed⟩ := runs
    · exact unbroken_append_terminator (lawful.terminated entry mem) broken
    · have single : entry.2 = ['\r'] := by
        obtain pair | ⟨c, -, single⟩ := lawful.terminated entry mem
        · rw [pair, List.getLast?_append_of_ne_nil _ (List.cons_ne_nil _ _)] at carriage
          cases carriage
        · rw [single, List.getLast?_append_of_ne_nil _ (List.cons_ne_nil _ _)] at carriage
          rw [single]
          exact congrArg (fun c => [c]) (Option.some.inj carriage)
      cases empty : reading.current with
      | nil =>
        rw [empty, List.nil_append] at feed
        exact apart ⟨empty, entry, found, single⟩ feed
      | cons c rest =>
        rw [empty, List.cons_append, List.head?_cons, Option.some.injEq] at feed
        have plain := lawful.current c (empty ▸ List.mem_cons_self)
        rw [feed, isLineBreak_lf] at plain
        cases plain
  current := List.forall_mem_nil _

theorem Lawful.join {ended : List (Text × Text)} {body : Text}
    (lawful : Lawful ⟨ended ++ [(body, ['\r'])], []⟩) : Lawful ⟨ended ++ [(body, ['\r', '\n'])], []⟩ where
  unbroken := by
    have unbroken := lawful.unbroken
    rw [List.forall_mem_append] at unbroken ⊢
    exact ⟨unbroken.1, by simpa using unbroken.2⟩
  terminated := by
    have terminated := lawful.terminated
    rw [List.forall_mem_append] at terminated ⊢
    refine ⟨terminated.1, List.forall_mem_singleton.2 (.inl rfl)⟩
  seamless := by
    have seamless := lawful.seamless
    rw [Seamless, lines, List.map_append, List.isChain_append] at seamless ⊢
    refine ⟨seamless.1, List.isChain_singleton _, fun before last next first runs => ?_⟩
    obtain rfl : body ++ ['\r', '\n'] = next := by simpa using first
    refine seamless.2.2 before last (body ++ ['\r']) rfl
        (runs.imp_right fun both => both.imp_right fun feed => ?_)
    rw [← feed]
    cases body <;> rfl
  current := List.forall_mem_nil _

theorem Lawful.splitKeepends {reading : Reading} (lawful : reading.Lawful) : splitKeepends reading.text =
    reading.lines ++ if reading.current = [] then [] else [reading.current] := by
  have each : ∀ line ∈ reading.lines, IsLine line := by
    intro line mem
    obtain ⟨entry, inside, rfl⟩ := List.mem_map.1 mem
    exact .ended _ _ (lawful.unbroken entry inside) (lawful.terminated entry inside)
  have whole :
      reading.text = (reading.lines ++ if reading.current = [] then [] else [reading.current]).flatten := by
    rw [text, List.flatten_append]
    split
    next empty => rw [empty, List.flatten_nil]
    next => rw [List.flatten_singleton]
  have all : ∀ line ∈ reading.lines ++ if reading.current = [] then [] else [reading.current], IsLine line := by
    rw [List.forall_mem_append]
    refine ⟨each, ?_⟩
    split
    · exact List.forall_mem_nil _
    next some =>
      obtain ⟨c, body, spelled⟩ := List.exists_cons_of_ne_nil some
      have unbroken := lawful.current
      rw [spelled] at unbroken ⊢
      simpa using IsLine.unended c body unbroken
  have seamless : Seamless (reading.lines ++ if reading.current = [] then [] else [reading.current]) := by
    split
    · rw [List.append_nil]
      exact lawful.seamless
    next some =>
      rw [Seamless, List.isChain_append]
      refine ⟨lawful.seamless, List.isChain_singleton _, fun before last next first runs => ?_⟩
      obtain rfl : reading.current = next := by simpa using first
      obtain ⟨entry, inside, rfl⟩ := List.mem_map.1 (List.mem_of_getLast? last)
      obtain broken | ⟨-, feed⟩ := runs
      · exact unbroken_append_terminator (lawful.terminated entry inside) broken
      · have plain := lawful.current '\n' (List.mem_of_head? feed)
        rw [isLineBreak_lf] at plain
        cases plain
  rw [whole]
  obtain ⟨-, same⟩ | ⟨broken, -⟩ := splitKeepends_flatten_cases all
  · exact same
  · exact absurd seamless broken

end Reading

def piecesText (pieces : List (Text × Text)) (tail : Text) : Text :=
  pieces.flatMap (fun piece => piece.1 ++ piece.2) ++ tail

-- Fragments without breaks, and a break behind each that is whole.
def IsCut : List (Text × Text) → Text → Prop
  | [], tail => Unbroken tail
  | (fragment, separator) :: more, tail => Unbroken fragment ∧ Terminator separator ∧
      (separator = ['\r'] → (piecesText more tail).head? ≠ some '\n') ∧ IsCut more tail

theorem cutAtBreaks_isCut (chunk : Text) : IsCut (cutAtBreaks chunk).1 (cutAtBreaks chunk).2 ∧
      piecesText (cutAtBreaks chunk).1 (cutAtBreaks chunk).2 = chunk := by
  induction chunk using cutAtBreaks.induct with
  | case1 => exact ⟨List.forall_mem_nil _, rfl⟩
  | case2 rest ih =>
    rw [cutAtBreaks]
    refine ⟨⟨List.forall_mem_nil _, .inl rfl, fun single => ?_, ih.1⟩, ?_⟩
    · cases single
    · exact congrArg (fun rest => '\r' :: '\n' :: rest) ih.2
  | case3 c rest notPair breaks ih =>
    rw [cutAtBreaks.eq_3 c rest notPair, if_pos breaks]
    refine ⟨⟨List.forall_mem_nil _, .inr ⟨c, breaks, rfl⟩, fun single => ?_, ih.1⟩, congrArg (c :: ·) ih.2⟩
    rw [ih.2]
    intro feed
    obtain ⟨behind, split⟩ := List.head?_eq_some_iff.1 feed
    exact notPair behind (List.cons.inj single).1 split
  | case4 c rest notPair plain fragment separator more tail cut ih =>
    rw [Bool.not_eq_true] at plain
    rw [cut] at ih
    rw [cutAtBreaks.eq_3 c rest notPair, if_neg (by simp [plain]), cut]
    obtain ⟨⟨unbroken, terminator, apart, later⟩, spelled⟩ := ih
    exact ⟨⟨List.forall_mem_cons.2 ⟨plain, unbroken⟩, terminator, apart, later⟩, congrArg (c :: ·) spelled⟩
  | case5 c rest notPair plain tail cut ih =>
    rw [Bool.not_eq_true] at plain
    rw [cut] at ih
    rw [cutAtBreaks.eq_3 c rest notPair, if_neg (by simp [plain]), cut]
    exact ⟨List.forall_mem_cons.2 ⟨plain, ih.1⟩, congrArg (c :: ·) ih.2⟩

section Runs

variable {lib : RegexLibrary} {query : Query}

def Query.Lawful (query : Query) : Prop := ∀ literal, query.literal = some literal → literal ≠ []

-- The state that a text leaves, as far as the chunk is taken.
structure Represents (query : Query) (rest : Text) (state : LineState) (reading : Reading) : Prop where
  number : state.number = 1 + reading.ended.length
  lineStart : state.lineStart = reading.lines.flatten.length
  offset : state.offset = reading.text.length
  lineChars : state.lineChars = reading.current.length
  preview : state.preview = reading.current.take query.previewChars
  literal : ∀ literal, query.literal = some literal →
    state.literalMatched = (find literal reading.current).isSome ∧
      state.matchOffset = (find literal reading.current).map (state.lineStart + ·) ∧
      (find literal reading.current = none → state.literalTail = lastOf (literal.length - 1) reading.current)
  regex : query.literal = none → state.matchOffset = none ∧ ∀ pattern, query.regex = some pattern →
    state.regexParts = if reading.current.length ≤ maxRegexLineChars then reading.current else []
  pendingCr : state.pendingCr = true ↔ reading.EndsCr ∧ rest = []

theorem find_nil_of_lawful (lawful : query.Lawful) {literal : Text} (found : query.literal = some literal) :
    find literal [] = none := by
  rw [find_eq_none]
  intro inside
  exact lawful literal found (List.infix_nil.1 inside)

theorem represents_initial (lawful : query.Lawful) : Represents query [] .initial ⟨[], []⟩ where
  number := rfl
  lineStart := rfl
  offset := rfl
  lineChars := rfl
  preview := List.take_nil.symm
  literal := by
    intro literal found
    rw [find_nil_of_lawful lawful found]
    exact ⟨rfl, rfl, fun _ => List.drop_nil.symm⟩
  regex := fun _ => ⟨rfl, fun _ _ => by simp [LineState.initial]⟩
  pendingCr := by simp [LineState.initial, Reading.EndsCr]

variable {state : LineState}

variable (lib) in
theorem Represents.logLine {rest : Text} {reading : Reading}
    (represents : Represents query rest state reading) : logLine lib query state = record lib query
      (1 + reading.ended.length) reading.lines.flatten.length reading.current := by
  obtain ⟨number, lineStart, -, lineChars, preview, literal, regex, -⟩ := represents
  unfold Outputs.logLine record
  rw [number, preview, lineChars]
  cases isLiteral : query.literal with
  | some text =>
    obtain ⟨matched, at_, -⟩ := literal text isLiteral
    simp only [matched, at_, lineStart]
  | none =>
    obtain ⟨unmatched, parts⟩ := regex isLiteral
    cases isRegex : query.regex with
    | none => simp only [unmatched, lineStart, Option.map_none]
    | some pattern =>
      simp only [parts pattern isRegex, lineStart, unmatched]
      split <;> rfl

theorem Represents.takeFragment {rest : Text} {reading : Reading} (lawful : query.Lawful)
    {fragment : Text} (represents : Represents query (fragment ++ rest) state reading) :
    Represents query rest (takeFragment query state fragment) (reading.take fragment) := by
  obtain ⟨number, lineStart, offset, lineChars, preview, literal, regex, pendingCr⟩ := represents
  have cut : (reading.take fragment).current = reading.current ++ fragment := rfl
  have chars : state.lineChars + fragment.length = (reading.current ++ fragment).length := by
    rw [lineChars, List.length_append]
  have shown : (if state.preview.length < query.previewChars then
      state.preview ++ fragment.take (query.previewChars - state.preview.length) else state.preview) =
      (reading.current ++ fragment).take query.previewChars := by
    rw [preview, List.length_take, List.take_append]
    split
    next short => rw [Nat.min_eq_right (by omega)]
    next full => rw [Nat.sub_eq_zero_of_le (by omega), List.take_zero, List.append_nil]
  have ends : state.pendingCr = true ↔ (reading.take fragment).EndsCr ∧ rest = [] := by
    rw [pendingCr, Reading.EndsCr, Reading.EndsCr, cut, List.append_eq_nil_iff, List.append_eq_nil_iff]
    exact ⟨fun ⟨⟨empty, last⟩, none_, done⟩ => ⟨⟨⟨empty, none_⟩, last⟩, done⟩,
      fun ⟨⟨⟨empty, none_⟩, last⟩, done⟩ => ⟨⟨empty, last⟩, none_, done⟩⟩
  have moved : state.offset + fragment.length = (reading.take fragment).text.length := by
    rw [Reading.text_take, List.length_append, offset]
  unfold Outputs.takeFragment
  cases isLiteral : query.literal with
  | some text =>
    obtain ⟨matched, at_, tail⟩ := literal text isLiteral
    have start : state.offset - (lastOf (text.length - 1) reading.current).length =
        state.lineStart + (reading.current.length - (lastOf (text.length - 1) reading.current).length) := by
      have bound : (lastOf (text.length - 1) reading.current).length ≤ reading.current.length := by
        rw [length_lastOf]
        exact Nat.min_le_left _ _
      rw [offset, lineStart, Reading.text, List.length_append]
      omega
    cases found : find text reading.current with
    | some index =>
      have still := find_append_of_some found fragment
      have done : state.literalMatched = true := by rw [matched, found, Option.isSome_some]
      simp only [done, if_true]
      refine ⟨number, lineStart, moved, chars, shown, ?_, fun absent => ?_, ends⟩
      · rintro literal same
        obtain rfl := Option.some.inj (isLiteral.symm.trans same)
        rw [cut, still]
        refine ⟨rfl, at_.trans (by rw [found]), fun absent => ?_⟩
        cases absent
      · rw [isLiteral] at absent
        cases absent
    | none =>
      have further := find_append (lawful text isLiteral) found fragment
      have going : state.literalMatched = false := by rw [matched, found, Option.isSome_none]
      have nowhere : state.matchOffset = none := by rw [at_, found, Option.map_none]
      simp only [going, Bool.false_eq_true, if_false, scanLiteral, tail found]
      refine ⟨number, lineStart, moved, chars, shown, ?_, fun absent => ?_, ends⟩
      · rintro literal same
        obtain rfl := Option.some.inj (isLiteral.symm.trans same)
        rw [cut, further]
        refine ⟨(Option.isSome_map ..).symm, ?_, fun _ => lastOf_append_lastOf _ _ _⟩
        cases find text (lastOf (text.length - 1) reading.current ++ fragment) with
        | none => exact nowhere
        | some index =>
          refine congrArg some ?_
          show state.offset - _ + index = state.lineStart + (_ + index)
          rw [start, Nat.add_assoc]
      · rw [isLiteral] at absent
        cases absent
  | none =>
    obtain ⟨unmatched, parts⟩ := regex isLiteral
    cases isRegex : query.regex with
    | none =>
      simp only []
      refine ⟨number, lineStart, moved, chars, shown, fun literal same => ?_, fun _ => ⟨unmatched, ?_⟩, ends⟩
      · rw [isLiteral] at same
        cases same
      · intro pattern same
        rw [isRegex] at same
        cases same
    | some pattern =>
      simp only [scanRegex]
      refine ⟨number, lineStart, moved, chars, shown, fun literal same => ?_, fun _ => ⟨unmatched, ?_⟩, ends⟩
      · rw [isLiteral] at same
        cases same
      · intro _ _
        rw [cut]
        dsimp only
        rw [chars, parts pattern isRegex]
        split
        next short =>
          rw [if_pos]
          rw [List.length_append] at short
          omega
        next => rfl

theorem Represents.nextLine {rest : Text} {reading : Reading} (lawful : query.Lawful)
    (represents : Represents query rest state reading) (separator : Text) {behind : Text} {last : Bool}
    (ends : last = true ↔ behind = []) :
    Represents query behind (nextLine state separator last) (reading.close separator) := by
  have closed : (reading.close separator).lines.flatten.length = state.offset + separator.length := by
    have whole := Reading.text_close reading separator
    rw [Reading.text, Reading.close, List.append_nil] at whole
    rw [represents.offset, Reading.close, whole, List.length_append]
  refine ⟨?_, closed.symm, ?_, rfl, List.take_nil.symm, ?_,
      fun _ => ⟨rfl, fun _ _ => by simp [Outputs.nextLine, Reading.close]⟩, ?_⟩
  · rw [Outputs.nextLine, represents.number, Reading.close, List.length_append, Nat.add_assoc]
    rfl
  · rw [Reading.text_close, List.length_append, ← represents.offset]
    rfl
  · intro literal found
    have none_ := find_nil_of_lawful lawful found
    rw [Reading.close, none_]
    exact ⟨rfl, rfl, fun _ => List.drop_nil.symm⟩
  · simp [Outputs.nextLine, Reading.EndsCr, Reading.close, ends]

def yielded (lib : RegexLibrary) (query : Query) (reading : Reading) : List LogLine :=
  records lib query 1 0 reading.lines

variable (lib query) in
theorem yielded_close (reading : Reading) {separator : Text} (unbroken : Unbroken reading.current)
    (terminator : Terminator separator) :
    yielded lib query (reading.close separator) = yielded lib query reading ++
      [record lib query (1 + reading.ended.length) reading.lines.flatten.length reading.current] := by
  have lines : (reading.close separator).lines = reading.lines ++ [reading.current ++ separator] := by
    rw [Reading.lines, Reading.close, List.map_append]
    rfl
  rw [yielded, lines, records_append, records, records, lineText_ended unbroken terminator, Nat.zero_add,
      Reading.lines,
    List.length_map]
  rfl

theorem takePieces_spec (lawful : query.Lawful) {pieces : List (Text × Text)} {tail : Text}
    (isCut : IsCut pieces tail) {reading : Reading} (readable : reading.Lawful)
    (apart : reading.EndsCr → (piecesText pieces tail).head? ≠ some '\n')
    (represents : Represents query (piecesText pieces tail) state reading) :
    ∃ after, after.Lawful ∧ after.text = reading.text ++ piecesText pieces tail ∧
      Represents query [] (takePieces lib query state pieces tail).2 after ∧
      yielded lib query after = yielded lib query reading ++
        (takePieces lib query state pieces tail).1 := by
  induction pieces generalizing state reading with
  | nil =>
    have text : piecesText [] tail = tail ++ [] := (List.append_nil tail).symm
    rw [text] at represents
    exact ⟨reading.take tail, readable.take isCut, reading.text_take tail, represents.takeFragment lawful,
      (List.append_nil _).symm⟩
  | cons piece more ih =>
    obtain ⟨fragment, separator⟩ := piece
    obtain ⟨unbroken, terminator, whole, later⟩ := isCut
    have text : piecesText ((fragment, separator) :: more) tail = fragment ++
        (separator ++ piecesText more tail) := by
      simp [piecesText]
    have some : separator ≠ [] := by
      obtain rfl | ⟨c, -, rfl⟩ := terminator <;> exact List.cons_ne_nil _ _
    rw [text] at represents apart
    have taken := represents.takeFragment lawful
    have readable' := readable.take unbroken
    have fresh : (reading.take fragment).EndsCr → separator.head? ≠ Option.some '\n' := by
      rintro ⟨empty, last⟩
      obtain ⟨here, rfl⟩ := List.append_eq_nil_iff.1 empty
      have first := apart ⟨here, last⟩
      rwa [List.nil_append, List.head?_append_of_ne_nil _ some] at first
    have last : (more = [] && tail = []) = true ↔ piecesText more tail = [] := by
      cases more with
      | nil => simp [piecesText]
      | cons next more =>
        obtain ⟨-, terminator, -⟩ := later
        have some : next.2 ≠ [] := by
          obtain pair | ⟨c, -, single⟩ := terminator
          · rw [pair]
            exact List.cons_ne_nil _ _
          · rw [single]
            exact List.cons_ne_nil _ _
        simp [piecesText, some]
    have closed := taken.nextLine lawful separator last
    have apart' : ((reading.take fragment).close separator).EndsCr →
        (piecesText more tail).head? ≠ Option.some '\n' := by
      rintro ⟨-, entry, found, single⟩
      rw [Reading.close, List.getLast?_concat, Option.some.injEq] at found
      rw [← found] at single
      exact whole single
    obtain ⟨after, lawful', spelled, represents', same⟩ :=
      ih later (readable'.close terminator fresh) apart' closed
    refine ⟨after, lawful', ?_, represents', ?_⟩
    · rw [spelled, Reading.text_close, Reading.text_take, text, List.append_assoc, List.append_assoc]
    · rw [same, yielded_close lib query _ readable'.current terminator, takePieces, ← taken.logLine lib]
      exact List.append_assoc _ _ _

theorem Represents.again {rest behind : Text} {reading : Reading} {pendingCr : Bool}
    (represents : Represents query rest state reading) (ends : pendingCr = true ↔ reading.EndsCr ∧ behind = []) :
    Represents query behind { state with pendingCr := pendingCr } reading :=
  ⟨represents.number, represents.lineStart, represents.offset, represents.lineChars, represents.preview,
    represents.literal, represents.regex, ends⟩

theorem Represents.join (lawful : query.Lawful) {ended : List (Text × Text)} {body rest : Text}
    (represents : Represents query [] state ⟨ended ++ [(body, ['\r'])], []⟩) : Represents query rest
      { state with offset := state.offset + 1, lineStart := state.lineStart + 1, pendingCr := false }
      ⟨ended ++ [(body, ['\r', '\n'])], []⟩ := by
  obtain ⟨number, lineStart, offset, lineChars, preview, literal, regex, -⟩ := represents
  have longer : (Reading.lines ⟨ended ++ [(body, ['\r', '\n'])], []⟩).flatten.length =
      (Reading.lines ⟨ended ++ [(body, ['\r'])], []⟩).flatten.length + 1 := by
    simp [Reading.lines]
    omega
  refine ⟨by simpa using number, by rw [longer, ← lineStart], ?_, lineChars, preview, ?_, regex, ?_⟩
  · rw [Reading.text, List.append_nil, longer]
    rw [Reading.text, List.append_nil] at offset
    rw [offset]
  · intro text found
    have here := literal text found
    rw [find_nil_of_lawful lawful found] at here ⊢
    exact here
  · simp [Reading.EndsCr]

variable (lib) in
theorem takeChunk_spec (lawful : query.Lawful) (chunk : Text) {reading : Reading}
    (readable : reading.Lawful) (represents : Represents query [] state reading) :
    ∃ after, after.Lawful ∧ after.text = reading.text ++ chunk ∧
      Represents query [] (takeChunk lib query state chunk).2 after ∧
      yielded lib query after = yielded lib query reading ++
        (takeChunk lib query state chunk).1 := by
  have goesOn : ∀ {state : LineState} {reading : Reading} {chunk : Text}, reading.Lawful →
      (reading.EndsCr → chunk.head? ≠ some '\n') → Represents query chunk state reading →
      ∃ after, after.Lawful ∧ after.text = reading.text ++ chunk ∧
        Represents query []
          (takePieces lib query state (cutAtBreaks chunk).1 (cutAtBreaks chunk).2).2 after ∧
        yielded lib query after = yielded lib query reading ++
          (takePieces lib query state (cutAtBreaks chunk).1 (cutAtBreaks chunk).2).1 := by
    intro state reading chunk readable apart represents
    obtain ⟨isCut, spelled⟩ := cutAtBreaks_isCut chunk
    rw [← spelled] at apart represents
    obtain ⟨after, readable', text, represents', same⟩ := takePieces_spec lawful isCut readable apart represents
    exact ⟨after, readable', text.trans (by rw [spelled]), represents', same⟩
  unfold takeChunk dropPendingFeed
  by_cases pending : (state.pendingCr && chunk ≠ []) = true
  · simp only [if_pos pending]
    simp only [Bool.and_eq_true, decide_eq_true_eq] at pending
    obtain ⟨⟨empty, ⟨body, _⟩, last, rfl⟩, -⟩ := represents.pendingCr.1 pending.1
    by_cases feed : chunk.head? = some '\n'
    · obtain ⟨rest, rfl⟩ := List.head?_eq_some_iff.1 feed
      obtain ⟨ended, current⟩ := reading
      obtain rfl : current = [] := empty
      obtain ⟨ended, rfl⟩ := List.getLast?_eq_some_iff.1 last
      have apart : Reading.EndsCr ⟨ended ++ [(body, ['\r', '\n'])], []⟩ → rest.head? ≠ some '\n' := by
        rintro ⟨-, entry, found, single⟩
        rw [List.getLast?_concat, Option.some.injEq] at found
        rw [← found] at single
        cases single
      obtain ⟨after, readable', text, represents', same⟩ := goesOn readable.join apart (represents.join lawful)
      refine ⟨after, readable', ?_, represents', same.trans ?_⟩
      · have feed : Reading.text ⟨ended ++ [(body, ['\r', '\n'])], []⟩ =
            Reading.text ⟨ended ++ [(body, ['\r'])], []⟩ ++ ['\n'] := by
          simp [Reading.text, Reading.lines]
        rw [text, feed, List.append_assoc]
        rfl
      · have unbroken : Unbroken body :=
          readable.unbroken (body, ['\r']) (List.mem_append_right _ (List.mem_singleton_self _))
        have before :=
          readable.join.terminated (body, ['\r', '\n']) (List.mem_append_right _ (List.mem_singleton_self _))
        have behind := readable.terminated (body, ['\r']) (List.mem_append_right _ (List.mem_singleton_self _))
        have joined :
            yielded lib query ⟨ended ++ [(body, ['\r', '\n'])], []⟩ =
              yielded lib query ⟨ended, body⟩ ++ _ :=
          yielded_close lib query ⟨ended, body⟩ unbroken before
        have single :
            yielded lib query ⟨ended ++ [(body, ['\r'])], []⟩ = yielded lib query ⟨ended, body⟩ ++ _ :=
          yielded_close lib query ⟨ended, body⟩ unbroken behind
        rw [joined, single]
        rfl
    · have plain : ¬(∃ rest, chunk = '\n' :: rest) := fun ⟨rest, spelled⟩ => feed (spelled ▸ rfl)
      have again : Represents query chunk { state with pendingCr := false } reading :=
        represents.again (by simp [pending.2])
      obtain ⟨after, found⟩ := goesOn readable (fun _ => feed) again
      refine ⟨after, ?_⟩
      split
      next rest => exact absurd ⟨rest, rfl⟩ plain
      next => exact found
  · simp only [if_neg pending]
    simp only [Bool.and_eq_true, decide_eq_true_eq, not_and_or, not_not] at pending
    have apart : reading.EndsCr → chunk.head? ≠ some '\n' := by
      intro ends
      obtain still | rfl := pending
      · exact absurd (represents.pendingCr.2 ⟨ends, rfl⟩) still
      · simp
    have again : Represents query chunk { state with pendingCr := state.pendingCr } reading := by
      refine represents.again ?_
      rw [represents.pendingCr]
      obtain still | rfl := pending
      · have never : ¬reading.EndsCr := fun ends => still (represents.pendingCr.2 ⟨ends, rfl⟩)
        simp [never]
      · rfl
    exact goesOn readable apart again

theorem takeChunks_spec (lawful : query.Lawful) (chunks : List Text) {reading : Reading}
    (readable : reading.Lawful) (represents : Represents query [] state reading) :
    yielded lib query reading ++ takeChunks lib query state chunks =
      records lib query 1 0 (splitKeepends (reading.text ++ chunks.flatten)) := by
  induction chunks generalizing state reading with
  | nil =>
    rw [List.flatten_nil, List.append_nil, readable.splitKeepends, records_append, takeChunks,
        represents.lineChars,
      represents.logLine lib, Nat.zero_add]
    cases empty : reading.current with
    | nil => rfl
    | cons c rest =>
      have unbroken := readable.current
      rw [empty] at unbroken
      rw [if_neg (by simp), if_neg (by simp), records, records, lineText_unbroken unbroken, Reading.lines,
        List.length_map, yielded, Reading.lines]
  | cons chunk rest ih =>
    obtain ⟨after, readable', text, represents', same⟩ := takeChunk_spec lib lawful chunk readable represents
    rw [takeChunks, ← List.append_assoc, ← same, ih readable' represents', text, List.flatten_cons,
        List.append_assoc]

end Runs

theorem compile_lawful (previewChars : Nat) (pattern : Option Text) :
    (Query.compile previewChars pattern).Lawful := by
  intro literal found
  simp only [Query.compile, Option.filter_eq_some_iff, Bool.and_eq_true, decide_eq_true_eq] at found
  exact found.2.1

theorem iterLogLines_eq (lib : RegexLibrary) (chunks : List Text) (previewChars : Nat) (pattern : Option Text) :
    iterLogLines lib chunks previewChars pattern =
      records lib (.compile previewChars pattern) 1 0 (splitKeepends chunks.flatten) := by
  have lawful := compile_lawful previewChars pattern
  have fresh : Reading.Lawful ⟨[], []⟩ := ⟨by simp, by simp, List.isChain_nil, by simp [Unbroken]⟩
  exact takeChunks_spec lawful chunks fresh (represents_initial lawful)

theorem characterPage_eq (chunks : List Text) (offset limit : Nat) :
    characterPage chunks offset limit = (chunks.flatten.drop offset).take limit := by
  induction chunks generalizing offset limit with
  | nil => simp [characterPage]
  | cons chunk rest ih =>
    rw [characterPage, List.flatten_cons, List.drop_append]
    split
    next before => rw [ih, List.drop_eq_nil_of_le before, List.nil_append]
    next inside =>
      rw [Nat.sub_eq_zero_of_le (by omega), List.drop_zero, List.take_append]
      dsimp only
      rw [List.length_take]
      split
      next done =>
        have enough : limit - (chunk.drop offset).length = 0 := by omega
        rw [enough, List.take_zero, List.append_nil]
      next more =>
        have left : limit - min limit (chunk.drop offset).length = limit - (chunk.drop offset).length := by omega
        rw [ih, left, List.drop_zero]

theorem records_getElem? (lib : RegexLibrary) (query : Query) (number offset : Nat) (lines : List Text)
    (index : Nat) : (records lib query number offset lines)[index]? = lines[index]?.map fun line =>
      record lib query (number + index) (offset + (lines.take index).flatten.length) (lineText line) := by
  induction lines generalizing number offset index with
  | nil => rfl
  | cons line lines ih =>
    cases index with
    | zero => rfl
    | succ index =>
      rw [records, List.getElem?_cons_succ, List.getElem?_cons_succ, ih, List.take_succ_cons, List.flatten_cons,
        List.length_append, Nat.add_assoc, Nat.add_assoc, Nat.add_comm 1]

structure IsLogLine (text : Text) (previewChars : Nat) (pattern : Option Text) (index : Nat) (body : Text)
    (line : LogLine) : Prop where
  number : line.number = index + 1
  offset : line.offset = ((splitKeepends text).take index).flatten.length
  text : line.text = body.take previewChars
  chars : line.chars = body.length
  unasked : pattern = none → line.matched = none ∧ line.matchOffset = none
  overlong : pattern = some [] → maxRegexLineChars < body.length → line.matched = none ∧ line.matchOffset = none
  matched : ∀ needle, pattern = some needle → (needle = [] → body.length ≤ maxRegexLineChars) →
    line.matched = some (decide (needle <:+: body)) ∧ line.matchOffset = (find needle body).map (line.offset + ·)

theorem length_records (lib : RegexLibrary) (query : Query) (number offset : Nat) (lines : List Text) :
    (records lib query number offset lines).length = lines.length := by
  induction lines generalizing number offset with
  | nil => rfl
  | cons line lines ih => rw [records, List.length_cons, ih, List.length_cons]

theorem record_isLogLine (lib : RegexLibrary) (text : Text) (previewChars : Nat) {pattern : Option Text}
    (plain : ∀ needle, pattern = some needle → needle.any isRegexMeta = false) (index : Nat) (body : Text) :
    IsLogLine text previewChars pattern index body
      (record lib (.compile previewChars pattern) (index + 1)
        ((splitKeepends text).take index).flatten.length body) := by
  have occurs : ∀ needle : Text, (find needle body).isSome = decide (needle <:+: body) := by
    intro needle
    rw [Bool.eq_iff_iff, decide_eq_true_iff, Option.isSome_iff_ne_none, Ne, find_eq_none, not_not]
  cases pattern with
  | none =>
    refine ⟨rfl, rfl, rfl, rfl, fun _ => ⟨rfl, rfl⟩, ?_, ?_⟩
    · intro absent
      cases absent
    · intro needle absent
      cases absent
  | some needle =>
    have noMeta := plain needle rfl
    by_cases empty : needle = []
    · subst empty
      have asRegex : Query.compile previewChars (some []) = ⟨previewChars, none, some []⟩ := rfl
      rw [asRegex]
      simp only [record]
      by_cases short : body.length ≤ maxRegexLineChars
      · rw [if_pos short, lib.search_plain [] body rfl, find_nil]
        refine ⟨rfl, rfl, rfl, rfl, ?_, fun _ long => absurd short (Nat.not_le.2 long), ?_⟩
        · intro absent
          cases absent
        · rintro _ ⟨⟩ -
          rw [find_nil]
          exact ⟨by simp, rfl⟩
      · rw [if_neg short]
        refine ⟨rfl, rfl, rfl, rfl, ?_, fun _ _ => ⟨rfl, rfl⟩, ?_⟩
        · intro absent
          cases absent
        · rintro _ ⟨⟩ bound
          exact absurd (bound rfl) short
    · have asLiteral : Query.compile previewChars (some needle) = ⟨previewChars, some needle, none⟩ := by
        simp [Query.compile, Option.filter, empty, noMeta]
      rw [asLiteral]
      simp only [record]
      refine ⟨rfl, rfl, rfl, rfl, ?_, ?_, ?_⟩
      · intro absent
        cases absent
      · rintro ⟨⟩
        exact absurd rfl empty
      · rintro _ ⟨⟩ -
        exact ⟨congrArg some (occurs needle), rfl⟩

/-- However a text is cut, its log lines are its lines and its pages are its slices. -/
theorem log_lines_for_every_chunking (lib : RegexLibrary) (chunks : List Text) :
    (∀ (previewChars : Nat) (pattern : Option Text),
      (∀ needle, pattern = some needle → needle.any isRegexMeta = false) →
      (iterLogLines lib chunks previewChars pattern).length = (splitLines chunks.flatten).length ∧
      ∀ index line, (iterLogLines lib chunks previewChars pattern)[index]? = some line →
        ∃ body, (splitLines chunks.flatten)[index]? = some body ∧
          IsLogLine chunks.flatten previewChars pattern index body line) ∧
    ∀ offset limit, characterPage chunks offset limit = (chunks.flatten.drop offset).take limit := by
  refine ⟨fun previewChars pattern plain => ?_, characterPage_eq chunks⟩
  have each := records_getElem? lib (.compile previewChars pattern) 1 0 (splitKeepends chunks.flatten)
  rw [← iterLogLines_eq] at each
  constructor
  · rw [iterLogLines_eq, length_records, splitLines, List.length_map]
  · intro index line found
    rw [each, Option.map_eq_some_iff] at found
    obtain ⟨whole, here, rfl⟩ := found
    refine ⟨lineText whole, ?_, ?_⟩
    · rw [splitLines, List.getElem?_map, here, Option.map_some]
    · rw [Nat.zero_add, Nat.add_comm 1]
      exact record_isLogLine lib chunks.flatten previewChars plain index (lineText whole)

def spelledSearch : RegexLibrary := ⟨find, fun _ _ _ => rfl⟩

/-- The break between these lines is cut, and the second holds what is looked for. -/
theorem cut_break_lines : ∃ body, (splitLines [['a', '\r'], ['\n', 'b', 'c']].flatten)[1]? = some body ∧
    IsLogLine [['a', '\r'], ['\n', 'b', 'c']].flatten 1 (some ['c']) 1 body
      ⟨2, 3, ['b'], 2, some true, some 4⟩ := by
  have plain : ∀ needle, some ['c'] = some needle → needle.any isRegexMeta = false := by
    rintro _ ⟨⟩
    decide
  exact ((log_lines_for_every_chunking spelledSearch [['a', '\r'], ['\n', 'b', 'c']]).1 1
      (some ['c']) plain).2 1 _
    (by decide)

/-- The empty pattern is compiled, and what is compiled is not looked for in a line this long. -/
theorem overlong_line_is_not_searched :
    let body := List.replicate (maxRegexLineChars + 1) 'a'
    iterLogLines spelledSearch [body] 3 (some []) =
      [⟨1, 0, ['a', 'a', 'a'], maxRegexLineChars + 1, none, none⟩] ∧
      ([] : Text) <:+: body := by
  intro body
  have unbroken : Unbroken body := by
    intro c mem
    rw [List.eq_of_mem_replicate mem]
    rfl
  have long : body.length = maxRegexLineChars + 1 := List.length_replicate
  have whole : splitKeepends [body].flatten = [body] := by
    rw [List.flatten_singleton]
    exact splitKeepends_unbroken unbroken
  refine ⟨?_, List.nil_infix⟩
  rw [iterLogLines_eq, whole, records, records, lineText_unbroken unbroken, record, long]
  rfl

end OpenSquilla.Outputs
