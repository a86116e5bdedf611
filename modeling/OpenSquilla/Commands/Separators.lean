import OpenSquilla.Commands.Targets

set_option autoImplicit false

namespace OpenSquilla.Commands

open TextLines TextScan ShellWords
open RaisingRuns (raiseIf of_bind_ok)

inductive Separator
  | semicolon
  | ampersand
  | bar
  | both
  | either
  | feed

def Separator.text : Separator → Text
  | semicolon => [';']
  | ampersand => ['&']
  | bar => ['|']
  | both => ['&', '&']
  | either => ['|', '|']
  | feed => ['\n']

def CommandAction.stricter (one other : CommandAction) : CommandAction :=
  if one.strictness ≤ other.strictness then other else one

-- The text ends in a backslash that no backslash before it escapes.
def EndsEscaped (text : Text) : Prop := (text.reverse.takeWhile (· = '\\')).length % 2 = 1

instance (text : Text) : Decidable (EndsEscaped text) := inferInstanceAs (Decidable (_ = _))

structure Scanning where
  quote : Option Char := none
  escaped : Bool := false

namespace Scanning

def next (state : Scanning) (c : Char) : Scanning :=
  if state.escaped then { state with escaped := false }
  else if c = '\\' ∧ state.quote ≠ some '\'' then { state with escaped := true }
  else
    match state.quote with
    | some quote => { state with quote := if c = quote then none else some quote }
    | none => { state with quote := if c = '\'' || c = '"' then some c else none }

def scanned (state : Scanning) (text : Text) : Scanning := text.foldl next state

/-- Outside of single quotes the number of backslashes read last says whether one is open. -/
def Agrees (state : Scanning) (text : Text) : Prop :=
  (state.quote = some '\'' → state.escaped = false) ∧
    (state.quote ≠ some '\'' → (state.escaped = true ↔ EndsEscaped text))

theorem endsEscaped_concat (text : Text) (c : Char) :
    EndsEscaped (text ++ [c]) ↔ c = '\\' ∧ ¬EndsEscaped text := by
  unfold EndsEscaped
  rw [List.reverse_append, List.reverse_singleton, List.singleton_append, List.takeWhile_cons]
  by_cases backslash : c = '\\'
  · simp only [backslash, decide_true, if_true, List.length_cons, true_and]
    omega
  · simp [backslash]

theorem agrees_scanned (text : Text) : (scanned {} text).Agrees text := by
  induction text using List.reverseRecOn with
  | nil =>
    constructor
    · rintro ⟨⟩
    · intro _
      exact iff_of_false Bool.false_ne_true (by decide)
  | append_singleton text c ih =>
    rw [scanned, List.foldl_concat, ← scanned]
    generalize scanned {} text = state at ih
    obtain ⟨quote, escaped⟩ := state
    unfold Agrees at ih ⊢
    rw [endsEscaped_concat]
    unfold next
    grind

end Scanning

section Joined

variable {segment rest text one other : Text} {c boundary : Char}

theorem splitFrom_next {state : Scanning} (inside : ¬(state = {} ∧ isBoundary c = true)) :
    splitFrom state.quote state.escaped segment (c :: rest) =
      splitFrom (state.next c).quote (state.next c).escaped (segment ++ [c]) rest := by
  obtain ⟨quote, escaped⟩ := state
  cases escaped with
  | true =>
    cases quote <;>
      · rw [splitFrom]
        rfl
  | false =>
    simp only [Scanning.next, Bool.false_eq_true, if_false]
    cases quote with
    | some quote =>
      rw [splitFrom]
      by_cases escapes : c = '\\' ∧ quote ≠ '\'' <;> simp [escapes]
    | none =>
      have ordinary : isBoundary c = false := by simpa using inside
      rw [splitFrom, ordinary]
      by_cases backslash : c = '\\'
      · simp [backslash]
      · by_cases opens : c = '\'' ∨ c = '"' <;> simp [backslash, opens]

theorem splitFrom_boundary (bounds : isBoundary boundary = true) :
    splitFrom none false segment (boundary :: rest) =
      (splitFrom none false [] rest).map (keepSegment segment ++ ·) := by
  have apart : ∀ special, isBoundary special = false → boundary ≠ special := by
    rintro special plain rfl
    rw [bounds] at plain
    cases plain
  have quotes : (decide (boundary = '\'') || decide (boundary = '"')) = false := by
    simp [apart '\'' (by decide), apart '"' (by decide)]
  rw [splitFrom, if_neg (apart _ (by decide)), quotes, if_neg Bool.false_ne_true, if_pos bounds]

theorem next_boundary (bounds : isBoundary c = true) : Scanning.next {} c = {} := by
  have apart : ∀ special, isBoundary special = false → c ≠ special := by
    rintro special plain rfl
    rw [bounds] at plain
    cases plain
  simp [Scanning.next, apart '\\' (by decide), apart '\'' (by decide), apart '"' (by decide)]

theorem splitFrom_separator (separator : Separator) : splitFrom none false segment (separator.text ++ rest) =
      (splitFrom none false [] rest).map (keepSegment segment ++ ·) := by
  have again : ∀ {boundary}, isBoundary boundary = true →
      splitFrom none false [] (boundary :: rest) = splitFrom none false [] rest := by
    intro boundary bounds
    rw [splitFrom_boundary bounds]
    cases splitFrom none false [] rest <;> rfl
  cases separator with
  | semicolon => exact splitFrom_boundary rfl
  | ampersand => exact splitFrom_boundary rfl
  | bar => exact splitFrom_boundary rfl
  | feed => exact splitFrom_boundary rfl
  | both => exact (splitFrom_boundary rfl).trans (congrArg _ (again rfl))
  | either => exact (splitFrom_boundary rfl).trans (congrArg _ (again rfl))

theorem splitFrom_append {state : Scanning} (separator : Separator) (settled : state.scanned text = {}) :
    splitFrom state.quote state.escaped segment (text ++ (separator.text ++ rest)) = (do
      let first ← splitFrom state.quote state.escaped segment text
      let others ← splitFrom none false [] rest
      return first ++ others) := by
  induction text generalizing state segment with
  | nil =>
    cases settled
    rw [List.nil_append, splitFrom_separator, splitFrom]
    rfl
  | cons c text ih =>
    rw [Scanning.scanned, List.foldl_cons, ← Scanning.scanned] at settled
    rw [List.cons_append]
    by_cases outer : state = {} ∧ isBoundary c = true
    · obtain ⟨rfl, cut⟩ := outer
      rw [next_boundary cut] at settled
      rw [splitFrom_boundary cut, splitFrom_boundary cut, ih settled]
      cases splitFrom none false [] text with
      | error raised => rfl
      | ok first =>
        cases splitFrom none false [] rest with
        | error raised => rfl
        | ok others =>
          dsimp only [bind, Except.bind, Except.map, pure, Except.pure]
          rw [List.append_assoc]
    · rw [splitFrom_next outer, splitFrom_next outer, ih settled]

theorem quote_scanned {state : Scanning} {segments : List Text}
    (ran : splitFrom state.quote state.escaped segment text = .ok segments) :
    (state.scanned text).quote = none := by
  induction text generalizing state segment segments with
  | nil =>
    obtain ⟨quote, escaped⟩ := state
    cases quote with
    | none => rfl
    | some quote =>
      rw [splitFrom] at ran
      cases ran
  | cons c text ih =>
    rw [Scanning.scanned, List.foldl_cons, ← Scanning.scanned]
    by_cases outer : state = {} ∧ isBoundary c = true
    · obtain ⟨rfl, cut⟩ := outer
      rw [splitFrom_boundary cut] at ran
      obtain ⟨others, ran, -⟩ := RaisingRuns.of_map_ok ran
      rw [next_boundary cut]
      exact ih ran
    · rw [splitFrom_next outer] at ran
      exact ih ran

theorem scanned_settled {segments : List Text} (ran : splitFrom none false [] text = .ok segments)
    (plain : ¬EndsEscaped text) : Scanning.scanned {} text = {} := by
  have closed : (Scanning.scanned {} text).quote = none := quote_scanned ran
  have agrees := Scanning.agrees_scanned text
  generalize Scanning.scanned {} text = state at closed agrees
  obtain ⟨quote, escaped⟩ := state
  cases closed
  cases escaped with
  | false => rfl
  | true => exact absurd ((agrees.2 (Option.some_ne_none _).symm).1 rfl) plain

theorem splitFrom_joined {first : List Text} (separator : Separator)
    (ran : splitFrom none false [] one = .ok first) (plain : ¬EndsEscaped one) :
    splitFrom none false [] (one ++ separator.text ++ other) =
      (splitFrom none false [] other).map (first ++ ·) := by
  have split : splitFrom none false [] (one ++ (separator.text ++ other)) = (do
      let first ← splitFrom none false [] one
      let others ← splitFrom none false [] other
      return first ++ others) := splitFrom_append separator (scanned_settled ran plain)
  rw [List.append_assoc, split, ran]
  cases splitFrom none false [] other <;> rfl

end Joined

theorem CommandAction.stricter_deny {one other : CommandAction} :
    one.stricter other = .deny ↔ one = .deny ∨ other = .deny := by
  cases one <;> cases other <;> decide

theorem CommandAction.stricter_guarded {one other : CommandAction} :
    one.stricter other ≠ .auto ↔ one ≠ .auto ∨ other ≠ .auto := by
  cases one <;> cases other <;> decide

theorem CommandAction.eq_of_iff {one other : CommandAction} (deny : one = .deny ↔ other = .deny)
    (guarded : one ≠ .auto ↔ other ≠ .auto) : one = other := by
  cases one <;> cases other <;> simp at deny guarded <;> rfl

theorem action_strictest_append (decisions more : List CommandDecision) :
    (strictest (decisions ++ more)).action = (strictest decisions).action.stricter (strictest more).action := by
  apply CommandAction.eq_of_iff
  · simp only [CommandAction.stricter_deny, strictest_deny, List.mem_append, or_and_right, exists_or]
  · simp only [CommandAction.stricter_guarded, strictest_guarded, List.mem_append, or_and_right, exists_or]

namespace Target

variable {lib : Library} {target : Target} {policy : CommandPolicy} {one other : Text}

-- No line of the text is removed as part of a here-document.
def KeepsLines (lib : Library) : Target → Text → Prop
  | windows, _ => True
  | posix _, command => stripShellHeredocBodies lib.isWord command = command

theorem splitSegments_of_kept {command : Text} (kept : target.KeepsLines lib command) :
    target.splitSegments lib command = splitFrom none false [] command := by
  cases target with
  | windows => rfl
  | posix platform =>
    rw [KeepsLines] at kept
    rw [splitSegments, Commands.splitSegments, kept]

theorem keepsLines_of_no_marker {command : Text} (unmarked : ¬['<', '<'] <:+: command) :
    target.KeepsLines lib command := by
  cases target with
  | windows => trivial
  | posix platform => exact if_neg unmarked

theorem parseShellSegments_joined {first second : List CommandSegment} (separator : Separator)
    (parsedOne : target.parseShellSegments lib one = .ok first)
    (parsedOther : target.parseShellSegments lib other = .ok second) (plain : ¬EndsEscaped one)
    (keptOne : target.KeepsLines lib one) (keptOther : target.KeepsLines lib other)
    (keptJoined : target.KeepsLines lib (one ++ separator.text ++ other)) :
    target.parseShellSegments lib (one ++ separator.text ++ other) = .ok (first ++ second) := by
  rw [parseShellSegments, splitSegments_of_kept keptOne] at parsedOne
  rw [parseShellSegments, splitSegments_of_kept keptOther] at parsedOther
  obtain ⟨sourcesOne, splitOne, parsedOne⟩ := of_bind_ok parsedOne
  obtain ⟨sourcesOther, splitOther, parsedOther⟩ := of_bind_ok parsedOther
  obtain ⟨segmentsOne, readOne, parsedOne⟩ := of_bind_ok parsedOne
  obtain ⟨segmentsOther, readOther, parsedOther⟩ := of_bind_ok parsedOther
  obtain ⟨_, some, parsedOne⟩ := of_bind_ok parsedOne
  obtain ⟨_, -, parsedOther⟩ := of_bind_ok parsedOther
  cases parsedOne
  cases parsedOther
  have nonempty : first ++ second ≠ [] :=
    List.append_ne_nil_of_left_ne_nil (RaisingRuns.raiseIf_eq_ok.1 some) second
  rw [parseShellSegments, splitSegments_of_kept keptJoined, splitFrom_joined separator splitOne plain,
      splitOther]
  simp only [Except.map, bind, Except.bind, List.mapM_append, readOne, readOther, raiseIf, if_neg nonempty, pure,
    Except.pure]

def actionOf (lib : Library) (target : Target) (policy : CommandPolicy) (command : Text) :
    Except Raised CommandAction :=
  (target.decideShellCommand lib policy command).map CommandDecision.action

theorem actionOf_joined {first second : List CommandSegment} (separator : Separator)
    (parsedOne : target.parseShellSegments lib one = .ok first)
    (parsedOther : target.parseShellSegments lib other = .ok second) (plain : ¬EndsEscaped one)
    (keptOne : target.KeepsLines lib one) (keptOther : target.KeepsLines lib other)
    (keptJoined : target.KeepsLines lib (one ++ separator.text ++ other)) :
    target.actionOf lib policy (one ++ separator.text ++ other) = (do
      let action ← target.actionOf lib policy one
      let otherAction ← target.actionOf lib policy other
      return action.stricter otherAction) := by
  have joined := parseShellSegments_joined separator parsedOne parsedOther plain keptOne keptOther keptJoined
  simp only [actionOf, decideShellCommand, joined, parsedOne, parsedOther, List.mapM_append]
  cases first.mapM (fun segment => target.decideCommand lib policy segment.argv) with
  | error raised => rfl
  | ok decisions =>
    cases second.mapM (fun segment => target.decideCommand lib policy segment.argv) with
    | error raised => rfl
    | ok more =>
      simp only [bind, Except.bind, pure, Except.pure, Except.map, action_strictest_append]

end Target

/-- Argument lists as a shell command, each quoted and joined to the next by a separator. -/
def rendered : List Text → List (Separator × List Text) → Text
  | argv, [] => join argv
  | argv, (separator, next) :: rest => join argv ++ separator.text ++ rendered next rest

section Rendered

variable {isWord : Char → Bool}

theorem quiet_separator {state : LineState} (separator : Separator) {rest : Text} (outside : state.Rests none)
    (later : ∀ next : LineState, next.Rests none → Quiet isWord next (splitFeeds rest)) :
    Quiet isWord state (splitFeeds (separator.text ++ rest)) := by
  have ordinary : ∀ {c : Char} {state : LineState} {rest : Text}, c ∈ [';', '&', '|'] → state.Rests none →
      (∀ next : LineState, next.Rests none → Quiet isWord next (splitFeeds rest)) →
      Quiet isWord state (splitFeeds (c :: rest)) := by
    intro c state rest mem outside later
    simp only [List.mem_cons, List.not_mem_nil, or_false] at mem
    obtain rfl | rfl | rfl := mem <;>
      exact quiet_ordinary outside (by decide) (by decide) (by decide) (by decide) later
  cases separator with
  | semicolon => exact ordinary (by decide) outside later
  | ampersand => exact ordinary (by decide) outside later
  | bar => exact ordinary (by decide) outside later
  | both => exact ordinary (by decide) outside (fun next resting => ordinary (by decide) resting later)
  | either => exact ordinary (by decide) outside (fun next resting => ordinary (by decide) resting later)
  | feed =>
    apply quiet_feed outside.delimiters
    rw [outside.quote, outside.arithmeticClosers]
    exact later _ rests_start

theorem stripShellHeredocBodies_rendered (argv : List Text) (rest : List (Separator × List Text)) :
    stripShellHeredocBodies isWord (rendered argv rest) = rendered argv rest := by
  apply stripShellHeredocBodies_of_quiet
  have outside : (LineState.start none []).Rests none := rests_start
  revert outside
  generalize LineState.start none [] = state
  induction rest generalizing argv state with
  | nil =>
    intro outside
    rw [rendered, ← line_quoteWord]
    exact quiet_line (argv.map quoteWord) outside
  | cons first rest ih =>
    obtain ⟨separator, following⟩ := first
    intro outside
    rw [rendered, ← line_quoteWord, List.append_assoc]
    apply quiet_words _ outside
    intro next resting
    exact quiet_separator separator resting (ih following)

theorem isSpace_of_isPlain {c : Char} (plain : isPlain c = true) : isSpace c = false := by
  have spaced : ∀ code ∈ spaces, isPlain (Char.ofNat code) = false := by decide
  rw [Bool.eq_false_iff]
  intro space
  have blank := spaced c.toNat (List.contains_iff_mem.1 space)
  rw [Char.ofNat_toNat, plain] at blank
  cases blank

theorem edges_piece (piece : Piece) : (∀ c, piece.spelled.head? = some c → isSpace c = false) ∧
      ∀ c, piece.spelled.getLast? = some c → isSpace c = false := by
  cases piece with
  | plain text each =>
    constructor
    · exact fun c first => isSpace_of_isPlain (each c (List.mem_of_head? first))
    · exact fun c last => isSpace_of_isPlain (each c (List.mem_of_getLast? last))
  | single text each =>
    constructor
    · rintro c ⟨⟩
      decide
    · intro c last
      rw [Piece.spelled, ← List.cons_append, List.getLast?_concat] at last
      cases last
      decide
  | apostrophe escaped =>
    cases escaped <;>
      · constructor <;>
        · rintro c ⟨⟩
          decide

theorem edges_spelled (pieces : List Piece) : (∀ c, (spelled pieces).head? = some c → isSpace c = false) ∧
      ∀ c, (spelled pieces).getLast? = some c → isSpace c = false := by
  induction pieces with
  | nil => simp [spelled]
  | cons piece pieces ih =>
    have edges := edges_piece piece
    rw [spelled_cons, List.head?_append, List.getLast?_append]
    constructor
    · intro c first
      obtain first | ⟨-, first⟩ := Option.or_eq_some_iff.1 first
      · exact edges.1 c first
      · exact ih.1 c first
    · intro c last
      obtain last | ⟨-, last⟩ := Option.or_eq_some_iff.1 last
      · exact ih.2 c last
      · exact edges.2 c last

theorem keepSegment_line (words : List Word) :
    keepSegment (line words) = if words = [] then [] else [line words] := by
  cases words with
  | nil => decide
  | cons word rest =>
    have head := head?_line word rest
    have written : line (word :: rest) ≠ [] := by
      intro empty
      rw [empty] at head
      exact word.written (List.head?_eq_none_iff.1 head.symm)
    have stripped : strip (line (word :: rest)) = line (word :: rest) := by
      apply strip_of_edges
      · rw [head]
        exact (edges_spelled word.pieces).1
      · obtain ⟨before, last, split⟩ :=
          (List.eq_nil_or_concat' (word :: rest)).resolve_left (List.cons_ne_nil _ _)
        rw [split, getLast?_line]
        exact (edges_spelled last.pieces).2
    rw [keepSegment, stripped, if_neg written, if_neg (List.cons_ne_nil _ _)]

theorem keepSegment_join (argv : List Text) : keepSegment (join argv) = ([argv].filter (· ≠ [])).map join := by
  rw [← line_quoteWord, keepSegment_line, line_quoteWord]
  cases argv <;> simp

theorem splitFrom_rendered (argv : List Text) (rest : List (Separator × List Text)) :
    splitFrom none false [] (rendered argv rest) =
      .ok (((argv :: rest.map Prod.snd).filter (· ≠ [])).map join) := by
  induction rest generalizing argv with
  | nil =>
      rw [rendered, ← line_quoteWord, splitFrom_line, List.nil_append, line_quoteWord, keepSegment_join]; rfl
  | cons first rest ih =>
    obtain ⟨separator, next⟩ := first
    have split : argv :: ((separator, next) :: rest).map Prod.snd = [argv] ++ (next :: rest.map Prod.snd) := rfl
    rw [rendered, ← line_quoteWord, List.append_assoc, splitFrom_words, List.nil_append, line_quoteWord,
      splitFrom_separator, ih, keepSegment_join, split, List.filter_append, List.map_append]
    rfl

end Rendered

namespace Target

def unwrapped (lib : Library) (target : Target) (argv : List Text) : Except Raised CommandSegment := do
  let stripped ← target.stripWrappers lib (size argv + 1) argv
  raiseIf (stripped = []) (.valueError "empty shell command segment")
  return { source := join argv, argv := stripped }

theorem parseShellSegments_rendered (lib : Library) (platform : Platform) (argv : List Text)
    (rest : List (Separator × List Text)) : (posix platform).parseShellSegments lib (rendered argv rest) = (do
      let parsed ← ((argv :: rest.map Prod.snd).filter (· ≠ [])).mapM ((posix platform).unwrapped lib)
      raiseIf (parsed = []) (.valueError "empty shell command")
      return parsed) := by
  have kept : (posix platform).KeepsLines lib (rendered argv rest) :=
    stripShellHeredocBodies_rendered argv rest
  have segment : (posix platform).parseSegment lib ∘ join = (posix platform).unwrapped lib := by
    funext argv
    have words : (posix platform).shlexSplit (join argv) = .ok argv := shlexSplit_ok_iff.2 (split_join argv)
    simp only [Function.comp_apply, parseSegment, tokenize, words, unwrapped, bind, Except.bind]
  rw [parseShellSegments, splitSegments_of_kept kept, splitFrom_rendered]
  simp only [bind, Except.bind, List.mapM_map, segment]

/-- Decisions compose over separators, and quoted argument lists come back as segments of their own, without
their wrappers and the empty ones. -/
theorem decisions_compose (lib : Library) :
    (∀ (target : Target) (policy : CommandPolicy) (one other : Text) (separator : Separator)
      (first second : List CommandSegment), target.parseShellSegments lib one = .ok first →
      target.parseShellSegments lib other = .ok second → ¬EndsEscaped one →
      target.KeepsLines lib one → target.KeepsLines lib other →
      target.KeepsLines lib (one ++ separator.text ++ other) →
      target.parseShellSegments lib (one ++ separator.text ++ other) = .ok (first ++ second) ∧
      target.actionOf lib policy (one ++ separator.text ++ other) = (do
        let action ← target.actionOf lib policy one
        let otherAction ← target.actionOf lib policy other
        return action.stricter otherAction)) ∧
    ∀ (platform : Platform) (argv : List Text) (rest : List (Separator × List Text)),
      (posix platform).parseShellSegments lib (rendered argv rest) = (do
        let parsed ← ((argv :: rest.map Prod.snd).filter (· ≠ [])).mapM ((posix platform).unwrapped lib)
        raiseIf (parsed = []) (.valueError "empty shell command")
        return parsed) := by
  refine ⟨?_, parseShellSegments_rendered lib⟩
  intro target policy one other separator first second parsedOne parsedOther plain keptOne keptOther keptJoined
  exact ⟨parseShellSegments_joined separator parsedOne parsedOther plain keptOne keptOther keptJoined,
    actionOf_joined separator parsedOne parsedOther plain keptOne keptOther keptJoined⟩

theorem decisions_compose_list_and_push :
    (posix .linux).parseShellSegments (posixLibrary Char.isAlphanum) "ls;git push".toList =
      .ok [⟨"ls".toList, ["ls".toList]⟩, ⟨"git push".toList, ["git".toList, "push".toList]⟩] ∧
    (posix .linux).actionOf (posixLibrary Char.isAlphanum) {} "ls;git push".toList = .ok .approval := by
  have unmarked : ¬['<', '<'] <:+: "ls;git push".toList := by decide
  have joined := (decisions_compose (posixLibrary Char.isAlphanum)).1 (.posix .linux) {} "ls".toList
    "git push".toList .semicolon [⟨"ls".toList, ["ls".toList]⟩]
    [⟨"git push".toList, ["git".toList, "push".toList]⟩] (by decide) (by decide) (by decide)
    (keepsLines_of_no_marker (by decide)) (keepsLines_of_no_marker (by decide))
      (keepsLines_of_no_marker unmarked)
  have list : (posix .linux).actionOf (posixLibrary Char.isAlphanum) {} "ls".toList = .ok .auto := by decide
  have push : (posix .linux).actionOf (posixLibrary Char.isAlphanum) {} "git push".toList = .ok .approval := by
    decide
  rw [list, push] at joined
  exact joined

/-- A backslash at the end of a Windows path takes the separator with it, a wrapper around nothing is refused,
and an arithmetic expansion left open makes the comment behind it a here-document. -/
theorem joined_commands_escape :
    let lib := posixLibrary Char.isAlphanum
    let disabled : CommandPolicy := { systemTools := .disabled }
    (windows.actionOf (windowsLibrary Char.isAlphanum) disabled "dir C:\\".toList = .ok .auto ∧
      windows.actionOf (windowsLibrary Char.isAlphanum) disabled "reg query HKLM".toList = .ok .deny ∧
      windows.actionOf (windowsLibrary Char.isAlphanum) disabled "dir C:\\&reg query HKLM".toList = .ok .auto) ∧
    (posix .linux).parseShellSegments lib (rendered ["sudo".toList] []) =
      .error (.valueError "empty shell command segment") ∧
    (posix .linux).KeepsLines lib "#)) <<EOF\nsystemctl stop sshd".toList ∧
      (posix .linux).actionOf lib disabled "echo $((".toList = .ok .auto ∧
      (posix .linux).actionOf lib disabled "#)) <<EOF\nsystemctl stop sshd".toList = .ok .deny ∧
      (posix .linux).actionOf lib disabled "echo $((\n#)) <<EOF\nsystemctl stop sshd".toList =
        .ok .auto := by
  have kept : stripShellHeredocBodies Char.isAlphanum "#)) <<EOF\nsystemctl stop sshd".toList =
      "#)) <<EOF\nsystemctl stop sshd".toList := by
    decide
  refine ⟨⟨?_, ?_, ?_⟩, ?_, kept, ?_, ?_, ?_⟩
  all_goals decide

end Target

end OpenSquilla.Commands
