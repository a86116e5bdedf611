import OpenSquilla.Shared.ShellWords
import OpenSquilla.Shared.TextScan

set_option autoImplicit false

namespace OpenSquilla.Commands

open TextLines TextScan

structure HereDocument where
  delimiter : Text
  stripTabs : Bool
  deriving DecidableEq

def endsWord (c : Char) : Bool := isSpace c || [';', '&', '|', '(', ')', '<', '>'].contains c

-- `\w` of the regular expressions, which is Unicode's
variable (isWord : Char → Bool)

-- The rest after the delimiter, its closing quote, and what has to follow.
def closesHereDocument (quote : Option Char) (after : Text) : Option Text :=
  let after? := match quote with
    | none => some after
    | some quote => if after.head? = some quote then some after.tail else none
  after?.filter (fun after => after.head?.all endsWord)

/-- `_HEREDOC_RE` at a position, with the character before it: what is matched, and what is left. -/
def matchHereDocument (previous : Option Char) (text : Text) : Option (HereDocument × Text) :=
  match text with
  | '<' :: '<' :: rest =>
    let stripTabs := rest.head? = some '-'
    let rest := if stripTabs then rest.tail else rest
    let afterSpaces := rest.dropWhile isSpace
    let quote := afterSpaces.head?.filter (fun c => c = '\'' || c = '"')
    let name := if quote.isSome then afterSpaces.tail else afterSpaces
    match name with
    | first :: letters =>
      if previous = some '<' || rest.head? = some '<' then none
      else if first.isAlpha || first = '_' then
        (closesHereDocument quote (letters.dropWhile isWord)).map fun left =>
          (⟨first :: letters.takeWhile isWord, stripTabs⟩, left)
      else none
    | [] => none
  | _ => none

-- What `_heredoc_delimiters` keeps while it reads a line.
structure LineState where
  quote : Option Char
  arithmeticClosers : List Char
  wordStart : Bool
  delimiters : List HereDocument := []
  previous : Option Char := none
  -- characters that the index has moved past
  skip : Nat := 0
  comment : Bool := false

namespace LineState

def start (quote : Option Char) (arithmeticClosers : List Char) : LineState where
  quote := quote
  arithmeticClosers := arithmeticClosers
  wordStart := quote = none && arithmeticClosers = []

def readArithmetic (state : LineState) (closer c : Char) : LineState :=
  if c = '(' then { state with arithmeticClosers := state.arithmeticClosers ++ [')'] }
  else if c = '[' then { state with arithmeticClosers := state.arithmeticClosers ++ [']'] }
  else if c = closer then { state with arithmeticClosers := state.arithmeticClosers.dropLast }
  else state

def readPlain (state : LineState) (c : Char) (rest : Text) : LineState :=
  if ['$', '(', '('].isPrefixOf (c :: rest) then
    { state with arithmeticClosers := [')', ')'], wordStart := false, skip := 2 }
  else if ['$', '['].isPrefixOf (c :: rest) then
    { state with arithmeticClosers := [']'], wordStart := false, skip := 1 }
  else if state.wordStart && ['(', '('].isPrefixOf (c :: rest) then
    { state with arithmeticClosers := [')', ')'], wordStart := false, skip := 1 }
  else if c = '#' && state.wordStart then { state with comment := true }
  else if c = '\'' || c = '"' then { state with quote := some c, wordStart := false }
  else
    match matchHereDocument isWord state.previous (c :: rest) with
    | some (document, left) =>
      { state with
        delimiters := state.delimiters ++ [document]
        wordStart := false
        skip := rest.length - left.length }
    | none => { state with wordStart := endsWord c }

def read (state : LineState) (c : Char) (rest : Text) : LineState :=
  if state.quote = some '\'' then
    if c = '\'' then { state with quote := none } else state
  else if c = '\\' then { state with wordStart := false, skip := 1 }
  else if state.quote = some '"' then
    if c = '"' then { state with quote := none } else state
  else
    match state.arithmeticClosers.getLast? with
    | some closer => state.readArithmetic closer c
    | none => state.readPlain isWord c rest

def next (state : LineState) (c : Char) (rest : Text) : LineState :=
  if state.comment then state
  else
    match state.skip with
    | skip + 1 => { state with skip := skip, previous := some c }
    | 0 => { state.read isWord c rest with previous := some c }

def readLine : LineState → Text → LineState
  | state, [] => state
  | state, c :: rest => readLine (state.next isWord c rest) rest

end LineState

def stripLines : List HereDocument → Option Char → List Char → List Text → List Text
  | _, _, _, [] => []
  | document :: pending, quote, arithmeticClosers, line :: rest =>
    let candidate := if document.stripTabs then line.dropWhile (· = '\t') else line
    stripLines (if candidate = document.delimiter then pending else document :: pending) quote
      arithmeticClosers rest
  | [], quote, arithmeticClosers, line :: rest =>
    let state := (LineState.start quote arithmeticClosers).readLine isWord line
    line :: stripLines state.delimiters state.quote state.arithmeticClosers rest

def stripShellHeredocBodies (command : Text) : Text :=
  if ['<', '<'] <:+: command then joinLines (stripLines isWord [] none [] (splitFeeds command))
  else command

section Quiet

variable {isWord}

-- No line starts a here-document. The first line is read on from a state.
def Quiet (isWord : Char → Bool) : LineState → List Text → Prop
  | _, [] => True
  | state, line :: rest =>
    (state.readLine isWord line).delimiters = [] ∧
      Quiet isWord
        (.start (state.readLine isWord line).quote (state.readLine isWord line).arithmeticClosers) rest

theorem stripLines_of_quiet {quote : Option Char} {arithmeticClosers : List Char} {lines : List Text}
    (quiet : Quiet isWord (.start quote arithmeticClosers) lines) :
    stripLines isWord [] quote arithmeticClosers lines = lines := by
  induction lines generalizing quote arithmeticClosers with
  | nil => rfl
  | cons line rest ih =>
    rw [stripLines, quiet.1, ih quiet.2]

theorem stripShellHeredocBodies_of_quiet {command : Text}
    (quiet : Quiet isWord (.start none []) (splitFeeds command)) :
    stripShellHeredocBodies isWord command = command := by
  unfold stripShellHeredocBodies
  split
  next => rw [stripLines_of_quiet quiet, joinLines_splitFeeds]
  next => rfl

structure LineState.Rests (state : LineState) (quote : Option Char) : Prop where
  quote : state.quote = quote
  arithmeticClosers : state.arithmeticClosers = []
  delimiters : state.delimiters = []
  skip : state.skip = 0
  comment : state.comment = false

theorem quiet_nil {state : LineState} (none : state.delimiters = []) : Quiet isWord state (splitFeeds []) :=
  ⟨none, trivial⟩

theorem quiet_cons {state : LineState} {c : Char} {text : Text} (same : c ≠ '\n')
    (later : ∀ rest, Quiet isWord (state.next isWord c rest) (splitFeeds text)) :
    Quiet isWord state (splitFeeds (c :: text)) := by
  rw [splitFeeds, if_neg same]
  cases pieces : splitFeeds text with
  | nil => exact absurd pieces (splitFeeds_ne_nil text)
  | cons piece pieces' =>
    have quiet := later piece
    rw [pieces] at quiet
    exact quiet

theorem quiet_feed {state : LineState} {text : Text} (none : state.delimiters = [])
    (later : Quiet isWord (.start state.quote state.arithmeticClosers) (splitFeeds text)) :
    Quiet isWord state (splitFeeds ('\n' :: text)) := by
  rw [splitFeeds, if_pos rfl]
  exact ⟨none, later⟩

theorem LineState.Rests.next {state : LineState} {quote : Option Char} (rests : state.Rests quote) (c : Char)
    (rest : Text) : state.next isWord c rest = { state.read isWord c rest with previous := some c } := by
  rw [LineState.next, rests.comment, rests.skip]
  rfl

theorem rests_start {quote : Option Char} : (LineState.start quote []).Rests quote :=
  ⟨rfl, rfl, rfl, rfl, rfl⟩

theorem LineState.Rests.read {state : LineState} (outside : state.Rests none) {c : Char} (backslash : c ≠ '\\')
    (rest : Text) : state.read isWord c rest = state.readPlain isWord c rest := by
  have unquoted : ∀ quote, state.quote ≠ some quote := by
    intro quote
    rw [outside.quote]
    exact (Option.some_ne_none quote).symm
  have closers : state.arithmeticClosers.getLast? = none := by
    rw [outside.arithmeticClosers]
    rfl
  rw [LineState.read, if_neg (unquoted _), if_neg backslash, if_neg (unquoted _), closers]

theorem quiet_single {state : LineState} {text rest : Text} (each : ∀ c ∈ text, c ≠ '\'')
    (inside : state.Rests (some '\''))
    (later : ∀ next : LineState, next.Rests none → Quiet isWord next (splitFeeds rest)) :
    Quiet isWord state (splitFeeds (text ++ '\'' :: rest)) := by
  induction text generalizing state with
  | nil =>
    apply quiet_cons (by decide)
    intro tail
    apply later
    rw [inside.next, LineState.read, if_pos inside.quote, if_pos rfl]
    exact ⟨rfl, inside.arithmeticClosers, inside.delimiters, inside.skip, inside.comment⟩
  | cons c text ih =>
    rw [List.forall_mem_cons] at each
    rw [List.cons_append]
    by_cases feed : c = '\n'
    · subst feed
      apply quiet_feed inside.delimiters
      rw [inside.quote, inside.arithmeticClosers]
      exact ih each.2 rests_start
    · apply quiet_cons feed
      intro tail
      apply ih each.2
      rw [inside.next, LineState.read, if_pos inside.quote, if_neg each.1]
      exact ⟨inside.quote, inside.arithmeticClosers, inside.delimiters, inside.skip, inside.comment⟩

theorem LineState.readPlain_ordinary {state : LineState} {c : Char} {rest : Text} (quotes : c ≠ '\'' ∧ c ≠ '"')
    (openers : c ≠ '$' ∧ c ≠ '(' ∧ c ≠ '#' ∧ c ≠ '<') :
    state.readPlain isWord c rest = { state with wordStart := endsWord c } := by
  have dollar : ('$' == c) = false := beq_eq_false_iff_ne.2 openers.1.symm
  have paren : ('(' == c) = false := beq_eq_false_iff_ne.2 openers.2.1.symm
  have unmatched : matchHereDocument isWord state.previous (c :: rest) = none := by
    unfold matchHereDocument
    split
    next same => exact absurd (List.cons.inj same).1 openers.2.2.2
    next => rfl
  simp only [readPlain, List.isPrefixOf, dollar, paren, Bool.false_and, Bool.and_false, Bool.false_eq_true,
      if_false,
    openers.2.2.1, quotes.1, quotes.2, decide_false, Bool.or_self, unmatched]

theorem quiet_ordinary {state : LineState} {c : Char} {rest : Text} (outside : state.Rests none)
    (quotes : c ≠ '\'' ∧ c ≠ '"') (openers : c ≠ '$' ∧ c ≠ '(' ∧ c ≠ '#' ∧ c ≠ '<')
    (backslash : c ≠ '\\') (feed : c ≠ '\n')
    (later : ∀ next : LineState, next.Rests none → Quiet isWord next (splitFeeds rest)) :
    Quiet isWord state (splitFeeds (c :: rest)) := by
  apply quiet_cons feed
  intro tail
  apply later
  rw [outside.next, outside.read backslash, LineState.readPlain_ordinary quotes openers]
  exact ⟨outside.quote, outside.arithmeticClosers, outside.delimiters, outside.skip, outside.comment⟩

open ShellWords in
theorem quiet_plain {state : LineState} {text rest : Text} (each : ∀ c ∈ text, isPlain c = true)
    (outside : state.Rests none)
    (later : ∀ next : LineState, next.Rests none → Quiet isWord next (splitFeeds rest)) :
    Quiet isWord state (splitFeeds (text ++ rest)) := by
  induction text generalizing state with
  | nil => exact later state outside
  | cons c text ih =>
    rw [List.forall_mem_cons] at each
    have apart : ∀ special, isPlain special = false → c ≠ special := fun _ => ne_of_isPlain each.1
    apply quiet_ordinary outside
    · exact ⟨apart _ (by decide), apart _ (by decide)⟩
    · exact ⟨apart _ (by decide), apart _ (by decide), apart _ (by decide), apart _ (by decide)⟩
    · exact apart _ (by decide)
    · exact apart _ (by decide)
    · exact fun next resting => ih each.2 resting

theorem LineState.Rests.opened {state : LineState} (outside : state.Rests none) {c : Char}
    (opens : c = '\'' ∨ c = '"') (rest : Text) : (state.next isWord c rest).Rests (some c) := by
  have backslash : c ≠ '\\' := by
    obtain rfl | rfl := opens
    all_goals decide
  have opening : state.readPlain isWord c rest = { state with quote := some c, wordStart := false } := by
    obtain rfl | rfl := opens
    all_goals simp [LineState.readPlain, List.isPrefixOf]
  rw [outside.next, outside.read backslash, opening]
  exact ⟨rfl, outside.arithmeticClosers, outside.delimiters, outside.skip, outside.comment⟩

theorem LineState.Rests.double {state : LineState} (inside : state.Rests (some '"')) {c : Char}
    (backslash : c ≠ '\\') (rest : Text) :
    (state.next isWord c rest).Rests (if c = '"' then none else some '"') := by
  rw [inside.next, LineState.read, inside.quote, if_neg (by decide), if_neg backslash, if_pos rfl]
  split
  next => exact ⟨rfl, inside.arithmeticClosers, inside.delimiters, inside.skip, inside.comment⟩
  next => exact ⟨inside.quote, inside.arithmeticClosers, inside.delimiters, inside.skip, inside.comment⟩

theorem quiet_apostrophe {state : LineState} {rest : Text} (escaped : Bool) (outside : state.Rests none)
    (later : ∀ next : LineState, next.Rests none → Quiet isWord next (splitFeeds rest)) :
    Quiet isWord state (splitFeeds ((ShellWords.Piece.apostrophe escaped).spelled ++ rest)) := by
  cases escaped with
  | true =>
    apply quiet_cons (by decide)
    intro first
    apply quiet_cons (by decide)
    intro second
    apply later
    have backslash : state.read isWord '\\' first = { state with wordStart := false, skip := 1 } := by
      simp [LineState.read, outside.quote]
    rw [outside.next, backslash, LineState.next]
    simp only [outside.comment, Bool.false_eq_true, if_false]
    exact ⟨outside.quote, outside.arithmeticClosers, outside.delimiters, rfl, rfl⟩
  | false =>
    apply quiet_cons (by decide)
    intro first
    have inside : (state.next isWord '"' first).Rests (some '"') := outside.opened (.inr rfl) first
    apply quiet_cons (by decide)
    intro second
    have still : ((state.next isWord '"' first).next isWord '\'' second).Rests (some '"') :=
      inside.double (by decide) second
    apply quiet_cons (by decide)
    intro third
    exact later _ (still.double (by decide) third)

open ShellWords in
theorem quiet_pieces {state : LineState} (pieces : List Piece) {rest : Text} (outside : state.Rests none)
    (later : ∀ next : LineState, next.Rests none → Quiet isWord next (splitFeeds rest)) :
    Quiet isWord state (splitFeeds (spelled pieces ++ rest)) := by
  induction pieces generalizing state with
  | nil => exact later state outside
  | cons piece pieces ih =>
    rw [spelled_cons, List.append_assoc]
    have onward : ∀ next : LineState, next.Rests none →
        Quiet isWord next (splitFeeds (spelled pieces ++ rest)) :=
      fun next resting => ih resting
    cases piece with
    | plain text each => exact quiet_plain each outside onward
    | single text each =>
      rw [Piece.spelled, List.cons_append, List.append_assoc, List.singleton_append]
      apply quiet_cons (by decide)
      intro tail
      exact quiet_single each (outside.opened (.inl rfl) tail) onward
    | apostrophe escaped => exact quiet_apostrophe escaped outside onward

open ShellWords in
theorem quiet_words {state : LineState} (words : List Word) {rest : Text} (outside : state.Rests none)
    (later : ∀ next : LineState, next.Rests none → Quiet isWord next (splitFeeds rest)) :
    Quiet isWord state (splitFeeds (line words ++ rest)) := by
  induction words generalizing state with
  | nil => exact later state outside
  | cons word words ih =>
    cases words with
    | nil => exact quiet_pieces word.pieces outside later
    | cons second words =>
      rw [line]
      · rw [List.append_assoc, List.cons_append]
        apply quiet_pieces word.pieces outside
        intro next resting
        apply quiet_ordinary resting <;> try decide
        exact fun next resting => ih resting
      · rintro ⟨⟩

open ShellWords in
theorem quiet_line {state : LineState} (words : List Word) (outside : state.Rests none) :
    Quiet isWord state (splitFeeds (line words)) := by
  rw [← List.append_nil (line words)]
  exact quiet_words words outside fun next resting => quiet_nil resting.delimiters

theorem stripShellHeredocBodies_line (words : List ShellWords.Word) :
    stripShellHeredocBodies isWord (ShellWords.line words) = ShellWords.line words :=
  stripShellHeredocBodies_of_quiet (quiet_line words rests_start)

end Quiet

end OpenSquilla.Commands
