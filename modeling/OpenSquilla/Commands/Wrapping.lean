import OpenSquilla.Commands.Policy

set_option autoImplicit false

namespace OpenSquilla.Commands

open TextLines TextScan ShellWords
open RaisingRuns (raiseIf of_bind_ok)

theorem mem_of_commandAfter {isFlag : Text → Bool} {argv : List Text} {source : Text}
    (found : commandAfter isFlag argv = some source) : source ∈ argv := by
  induction argv with
  | nil => cases found
  | cons token rest ih =>
    cases rest with
    | nil => cases found
    | cons next rest =>
      rw [commandAfter] at found
      split at found
      · cases found
        exact List.mem_cons_of_mem _ List.mem_cons_self
      · exact List.mem_cons_of_mem _ (ih found)

theorem size_dropWhile_le (p : Text → Bool) (argv : List Text) : size (argv.dropWhile p) ≤ size argv := by
  induction argv with
  | nil => exact Nat.le_refl _
  | cons token rest ih =>
    rw [List.dropWhile_cons, size_cons]
    split
    · omega
    · rw [size_cons]

def Unwrapped.Below (bound : Nat) : Unwrapped → Prop
  | .bare => True
  | .onward argv => size argv < bound
  | .command source => source.length < bound

theorem orBare_below {bound : Nat} {isFlag : Text → Bool} {rest : List Text} (below : size rest < bound) :
    (orBare (commandAfter isFlag rest)).Below bound := by
  cases found : commandAfter isFlag rest with
  | none => trivial
  | some source =>
    have bounded := length_le_size (mem_of_commandAfter found)
    exact Nat.lt_of_le_of_lt bounded below

theorem unwrapOnce_below (argv : List Text) : (unwrapOnce argv).Below (size argv) := by
  cases argv with
  | nil => trivial
  | cons first rest =>
    rw [size_cons]
    cases first with
    | nil => exact trivial
    | cons c first =>
      have below : size rest < (c :: first).length + size rest := by
        rw [List.length_cons]
        omega
      dsimp only [unwrapOnce]
      split
      next => exact Nat.lt_of_le_of_lt (size_dropWhile_le _ rest) below
      next =>
        split
        next =>
          split
          next flag source tail =>
            split
            · have bounded : source.length ≤ size (flag :: source :: tail) := length_le_size (by simp)
              exact Nat.lt_of_le_of_lt bounded below
            · trivial
          next => trivial
        next =>
          split
          next => exact orBare_below below
          next =>
            split
            next => exact orBare_below below
            next => trivial

theorem shlexSplit_ok_iff {source : Text} {tokens : List Text} :
    shlexSplit source = .ok tokens ↔ split source = .ok tokens := by
  unfold shlexSplit
  cases split source with
  | ok words => simp
  | error unfinished => cases unfinished <;> simp

theorem stripWrappers_enough {argv : List Text} {passes more : Nat} (enough : size argv < passes)
    (enoughMore : size argv < more) : stripWrappers passes argv = stripWrappers more argv := by
  induction bound : size argv using Nat.strong_induction_on generalizing argv passes more with
  | _ bound ih =>
    subst bound
    obtain _ | passes := passes
    · omega
    obtain _ | more := more
    · omega
    have below := unwrapOnce_below argv
    rw [stripWrappers, stripWrappers]
    cases once : unwrapOnce argv with
    | bare => rfl
    | onward rest =>
      rw [once] at below
      dsimp only [Unwrapped.Below] at below
      exact ih (size rest) below (by omega) (by omega) rfl
    | command source =>
      rw [once] at below
      dsimp only [Unwrapped.Below] at below ⊢
      cases ran : shlexSplit source with
      | error raised => rfl
      | ok tokens =>
        have shorter := size_split_le (shlexSplit_ok_iff.1 ran)
        exact ih (size tokens) (by omega) (by omega) (by omega) rfl

theorem unwrapOnce_of_stripWrappers {argv result : List Text} {passes : Nat} (enough : size argv < passes)
    (ran : stripWrappers passes argv = .ok result) : unwrapOnce result = .bare := by
  induction passes generalizing argv with
  | zero => omega
  | succ passes ih =>
    have below := unwrapOnce_below argv
    rw [stripWrappers] at ran
    cases once : unwrapOnce argv with
    | bare =>
      rw [once] at ran
      cases ran
      exact once
    | onward rest =>
      rw [once] at ran below
      dsimp only [Unwrapped.Below] at below
      exact ih (by omega) ran
    | command source =>
      rw [once] at ran below
      dsimp only [Unwrapped.Below] at below
      obtain ⟨tokens, split, ran⟩ := of_bind_ok ran
      have shorter := size_split_le (shlexSplit_ok_iff.1 split)
      exact ih (by omega) ran

theorem stripWrappers_of_tokenize {source : Text} {argv : List Text} (ran : tokenize source = .ok argv) :
    stripWrappers (size argv + 1) argv = .ok argv := by
  obtain ⟨tokens, -, ran⟩ := of_bind_ok ran
  have bare := unwrapOnce_of_stripWrappers (Nat.lt_succ_self _) ran
  rw [stripWrappers, bare]

inductive ShellName
  | sh
  | bash
  | zsh
  | fish

def ShellName.text : ShellName → Text
  | sh => "sh".toList
  | bash => "bash".toList
  | zsh => "zsh".toList
  | fish => "fish".toList

def commandFlag (login : Bool) : Text := if login then "-lc".toList else "-c".toList

-- A variable with its value, as it is written after `env`.
structure Assignment where
  variable_ : Text
  identifier : ∀ c ∈ variable_, isPlain c = true
  value : List Piece

def Assignment.word (assignment : Assignment) : Word where
  pieces := .plain (assignment.variable_ ++ ['=']) (by
    intro c mem
    obtain mem | mem := List.mem_append.1 mem
    · exact assignment.identifier c mem
    · rw [List.mem_singleton] at mem
      subst mem
      decide) :: assignment.value
  written := by simp [spelled, Piece.spelled]

structure Quoted (text : Text) where
  first : Piece
  rest : List Piece
  quoted : ∀ piece ∈ first :: rest, piece.quoted = true
  spells : value (first :: rest) = text

def Quoted.word {text : Text} (quoted : Quoted text) : Word where
  pieces := quoted.first :: quoted.rest
  written := by
    have first := quoted.quoted quoted.first List.mem_cons_self
    cases piece : quoted.first with
    | plain text each =>
      rw [piece] at first
      cases first
    | single text each => simp [spelled, Piece.spelled]
    | apostrophe escaped => cases escaped <;> simp [spelled, Piece.spelled]

-- A shell with its flag, behind `env` and its assignments or not.
structure Wrapper where
  env : Option (List Assignment)
  shell : ShellName
  login : Bool

def plainWord (text : Text) (each : ∀ c ∈ text, isPlain c = true) (nonempty : text ≠ []) : Word where
  pieces := [.plain text each]
  written := by simpa [spelled, Piece.spelled] using nonempty

namespace Wrapper

def words (wrapper : Wrapper) : List Word :=
  (wrapper.env.elim [] fun assignments =>
    plainWord "env".toList (by decide) (by decide) :: assignments.map Assignment.word) ++
  [plainWord wrapper.shell.text (by cases wrapper.shell <;> decide) (by cases wrapper.shell <;> decide),
    plainWord (commandFlag wrapper.login) (by cases wrapper.login <;> decide)
      (by cases wrapper.login <;> decide)]

def apply (wrapper : Wrapper) {text : Text} (quoted : Quoted text) : Text :=
  line (wrapper.words ++ [quoted.word])

end Wrapper

inductive Nested : Text → Text → Prop
  | wrap {command : Text} (wrapper : Wrapper) (quoted : Quoted command) :
    Nested command (wrapper.apply quoted)
  | again {command wrapped : Text} (nested : Nested command wrapped) (wrapper : Wrapper)
    (quoted : Quoted wrapped) : Nested command (wrapper.apply quoted)

theorem unwrapOnce_shell (shell : ShellName) (login : Bool) (source : Text) :
    unwrapOnce [shell.text, commandFlag login, source] = .command source := by
  have executable : normalizeExecutable shell.text = shell.text := by
    cases shell <;> decide
  dsimp only [unwrapOnce]
  rw [executable]
  cases shell <;> cases login <;> rfl

theorem value_plainWord {text : Text} (each : ∀ c ∈ text, isPlain c = true) (nonempty : text ≠ []) :
    (plainWord text each nonempty).value = text := by
  simp [plainWord, Word.value, value, Piece.value]

theorem spelled_plainWord {text : Text} (each : ∀ c ∈ text, isPlain c = true) (nonempty : text ≠ []) :
    (plainWord text each nonempty).spelled = text := by
  simp [plainWord, Word.spelled, spelled, Piece.spelled]

theorem value_assignment (assignment : Assignment) : assignment.word.value.contains '=' = true := by
  simp [Assignment.word, Word.value, value, Piece.value]

theorem dropWhile_env (assignments : List Assignment) (wrapper : Wrapper) (rest : List Text) :
    (assignments.map (fun assignment => assignment.word.value) ++ wrapper.shell.text :: rest).dropWhile
      (fun token => token.head? = some '-' || token.contains '=') = wrapper.shell.text :: rest := by
  rw [List.dropWhile_append_of_pos]
  · apply List.dropWhile_cons_of_neg
    cases wrapper.shell <;> decide
  · intro token mem
    obtain ⟨assignment, -, rfl⟩ := List.mem_map.1 mem
    rw [value_assignment, Bool.or_true]

theorem stripWrappers_shell {passes : Nat} (shell : ShellName) (login : Bool) (source : Text)
    (enough : size [shell.text, commandFlag login, source] < passes) :
    stripWrappers passes [shell.text, commandFlag login, source] = tokenize source := by
  obtain _ | passes := passes
  · omega
  rw [stripWrappers, unwrapOnce_shell, tokenize]
  dsimp only
  cases ran : shlexSplit source with
  | error raised => rfl
  | ok tokens =>
    have shorter := size_split_le (shlexSplit_ok_iff.1 ran)
    have below := unwrapOnce_below [shell.text, commandFlag login, source]
    rw [unwrapOnce_shell] at below
    dsimp only [Unwrapped.Below] at below
    apply stripWrappers_enough <;> omega

theorem tokenize_apply (wrapper : Wrapper) {text : Text} (quoted : Quoted text) :
    tokenize (wrapper.apply quoted) = tokenize text := by
  have tokens : shlexSplit (wrapper.apply quoted) = .ok ((wrapper.words ++ [quoted.word]).map Word.value) :=
    shlexSplit_ok_iff.2 (split_line _)
  have spells : quoted.word.value = text := quoted.spells
  have values : (wrapper.words ++ [quoted.word]).map Word.value =
      (wrapper.env.elim [] fun assignments =>
        "env".toList :: assignments.map (fun assignment => assignment.word.value)) ++
      [wrapper.shell.text, commandFlag wrapper.login, text] := by
    unfold Wrapper.words
    cases wrapper.env with
    | none => simp [value_plainWord, spells]
    | some assignments => simp [value_plainWord, spells, Function.comp_def]
  rw [values] at tokens
  rw [tokenize, tokens]
  dsimp only [bind, Except.bind]
  cases wrapper.env with
  | none => exact stripWrappers_shell wrapper.shell wrapper.login text (Nat.lt_succ_self _)
  | some assignments =>
    have once : unwrapOnce ("env".toList :: (assignments.map (fun assignment => assignment.word.value) ++
        [wrapper.shell.text, commandFlag wrapper.login, text])) =
        .onward [wrapper.shell.text, commandFlag wrapper.login, text] := by
      dsimp only [unwrapOnce]
      rw [dropWhile_env]
      rfl
    rw [Option.elim_some, List.cons_append, stripWrappers, once]
    apply stripWrappers_shell
    have below := unwrapOnce_below ("env".toList :: (assignments.map (fun assignment => assignment.word.value) ++
      [wrapper.shell.text, commandFlag wrapper.login, text]))
    rw [once] at below
    exact below

theorem tokenize_nested {command wrapped : Text} (nested : Nested command wrapped) :
    tokenize wrapped = tokenize command := by
  induction nested with
  | wrap wrapper quoted => exact tokenize_apply wrapper quoted
  | again nested wrapper quoted ih => rw [tokenize_apply, ih]

section Segments

variable {segment rest : Text}

theorem splitFrom_plain {text : Text} (each : ∀ c ∈ text, isPlain c = true) :
    splitFrom none false segment (text ++ rest) = splitFrom none false (segment ++ text) rest := by
  induction text generalizing segment with
  | nil => rw [List.nil_append, List.append_nil]
  | cons c text ih =>
    rw [List.forall_mem_cons] at each
    have apart : ∀ special, isPlain special = false → c ≠ special := fun _ => ne_of_isPlain each.1
    have inside : isBoundary c = false := by
      simp [isBoundary, apart ';' (by decide), apart '&' (by decide), apart '|' (by decide),
        apart '\n' (by decide)]
    have quote : (decide (c = '\'') || decide (c = '"')) = false := by
      simp [apart '\'' (by decide), apart '"' (by decide)]
    rw [List.cons_append, splitFrom, if_neg (apart '\\' (by decide)), quote, inside, if_neg Bool.false_ne_true,
      if_neg Bool.false_ne_true, ih each.2, List.append_assoc, List.singleton_append]

theorem splitFrom_single {text : Text} (each : ∀ c ∈ text, c ≠ '\'') :
    splitFrom (some '\'') false segment (text ++ '\'' :: rest) =
      splitFrom none false (segment ++ text ++ ['\'']) rest := by
  induction text generalizing segment with
  | nil =>
    rw [List.nil_append, List.append_nil, splitFrom]
    rfl
  | cons c text ih =>
    rw [List.forall_mem_cons] at each
    have inQuote : (decide (c = '\\') && decide ('\'' ≠ '\'')) = false := by simp
    rw [List.cons_append, splitFrom, inQuote, if_neg Bool.false_ne_true, if_neg each.1, ih each.2]
    simp

theorem splitFrom_piece (piece : Piece) : splitFrom none false segment (piece.spelled ++ rest) =
      splitFrom none false (segment ++ piece.spelled) rest := by
  cases piece with
  | plain text each => exact splitFrom_plain each
  | single text each =>
    have opened : splitFrom none false segment ('\'' :: (text ++ '\'' :: rest)) =
        splitFrom (some '\'') false (segment ++ ['\'']) (text ++ '\'' :: rest) := by
      rw [splitFrom]
      rfl
    rw [Piece.spelled, List.cons_append, List.append_assoc, List.singleton_append, opened, splitFrom_single each]
    simp
  | apostrophe escaped =>
    cases escaped with
    | true => simp [Piece.spelled, splitFrom]
    | false => simp [Piece.spelled, splitFrom]

theorem splitFrom_pieces (pieces : List Piece) : splitFrom none false segment (spelled pieces ++ rest) =
      splitFrom none false (segment ++ spelled pieces) rest := by
  induction pieces generalizing segment with
  | nil => simp [spelled]
  | cons piece pieces ih => rw [spelled_cons, List.append_assoc, splitFrom_piece, ih, List.append_assoc]

theorem splitFrom_words (words : List Word) :
    splitFrom none false segment (line words ++ rest) = splitFrom none false (segment ++ line words) rest := by
  induction words generalizing segment with
  | nil => rw [line, List.append_nil, List.nil_append]
  | cons word words ih =>
    have onward : ∀ rest, splitFrom none false segment (word.spelled ++ rest) =
        splitFrom none false (segment ++ word.spelled) rest := fun rest => splitFrom_pieces word.pieces
    cases words with
    | nil => exact onward rest
    | cons next words =>
      have blank : ∀ segment rest, splitFrom none false segment (' ' :: rest) =
          splitFrom none false (segment ++ [' ']) rest := by
        intro segment rest
        rw [splitFrom]
        rfl
      rw [line, List.append_assoc, List.cons_append, onward, blank, ih]
      · simp
      · rintro ⟨⟩

theorem splitFrom_line (words : List Word) :
    splitFrom none false segment (line words) = .ok (keepSegment (segment ++ line words)) := by
  have whole :
      splitFrom none false segment (line words ++ []) = splitFrom none false (segment ++ line words) [] :=
    splitFrom_words words
  rw [List.append_nil, splitFrom] at whole
  exact whole

end Segments

theorem head?_line (word : Word) (words : List Word) : (line (word :: words)).head? = word.spelled.head? := by
  cases words with
  | nil => rfl
  | cons next words =>
    rw [line]
    · exact List.head?_append_of_ne_nil _ word.written
    · rintro ⟨⟩

theorem getLast?_line (words : List Word) (word : Word) :
    (line (words ++ [word])).getLast? = word.spelled.getLast? := by
  induction words with
  | nil => rfl
  | cons first words ih =>
    obtain ⟨next, tail, more⟩ := List.exists_cons_of_ne_nil (List.append_ne_nil_of_right_ne_nil words
      (List.cons_ne_nil word []))
    rw [List.cons_append, more, line]
    · rw [List.getLast?_append, List.getLast?_cons, ← more, ih]
      cases last : word.spelled.getLast? with
      | none => exact absurd (List.getLast?_eq_none_iff.1 last) word.written
      | some c => rfl
    · rintro ⟨⟩

theorem getLast?_spelled {pieces : List Piece} (some : pieces ≠ [])
    (quoted : ∀ piece ∈ pieces, piece.quoted = true) :
    (spelled pieces).getLast? = .some '\'' ∨ (spelled pieces).getLast? = .some '"' := by
  induction pieces with
  | nil => exact absurd rfl some
  | cons piece pieces ih =>
    rw [List.forall_mem_cons] at quoted
    rw [spelled_cons]
    cases pieces with
    | nil =>
      simp only [spelled, List.flatMap_nil, List.append_nil]
      cases piece with
      | plain text each => cases quoted.1
      | single text each =>
        left
        rw [Piece.spelled, ← List.cons_append, List.getLast?_concat]
      | apostrophe escaped =>
        cases escaped with
        | true => exact .inl rfl
        | false => exact .inr rfl
    | cons next pieces =>
      have last := ih (List.cons_ne_nil next pieces) quoted.2
      rw [List.getLast?_append]
      obtain last | last := last
      · rw [last]
        exact .inl rfl
      · rw [last]
        exact .inr rfl

theorem strip_apply (wrapper : Wrapper) {text : Text} (quoted : Quoted text) :
    strip (wrapper.apply quoted) = wrapper.apply quoted := by
  apply strip_of_edges
  · intro c first
    unfold Wrapper.apply Wrapper.words at first
    cases env : wrapper.env with
    | none =>
      rw [env] at first
      simp only [Option.elim_none, List.nil_append, List.cons_append, head?_line, spelled_plainWord] at first
      cases shell : wrapper.shell <;>
        · rw [shell] at first
          cases first
          decide
    | some assignments =>
      rw [env] at first
      simp only [Option.elim_some, List.cons_append, head?_line] at first
      cases first
      decide
  · intro c last
    rw [Wrapper.apply, getLast?_line] at last
    obtain quote | quote := getLast?_spelled (List.cons_ne_nil quoted.first quoted.rest) quoted.quoted
    all_goals
      rw [Word.spelled, Quoted.word, quote] at last
      cases last
      decide

variable {isWord : Char → Bool}

theorem splitSegments_apply (wrapper : Wrapper) {text : Text} (quoted : Quoted text) :
    splitSegments isWord (wrapper.apply quoted) = .ok [wrapper.apply quoted] := by
  have nonempty : wrapper.apply quoted ≠ [] := by
    intro empty
    have last := getLast?_line wrapper.words quoted.word
    rw [← Wrapper.apply, empty] at last
    exact quoted.word.written (List.getLast?_eq_none_iff.1 last.symm)
  have whole : splitFrom none false [] (wrapper.apply quoted) = .ok (keepSegment (wrapper.apply quoted)) :=
    splitFrom_line _
  rw [splitSegments, Wrapper.apply, stripShellHeredocBodies_line, ← Wrapper.apply, whole, keepSegment,
      strip_apply,
    if_neg nonempty]

-- What is decided on the tokens of a text that is not split into segments.
def unsplitAction (platform : Platform) (policy : CommandPolicy) (text : Text) : CommandAction :=
  match tokenize text with
  | .ok argv => if argv = [] then .approval else (builtinDecision platform policy argv).action
  | .error _ => .approval

variable {platform : Platform} {policy : CommandPolicy}

theorem strictest_deny {decisions : List CommandDecision} :
    (strictest decisions).action = .deny ↔ ∃ decision ∈ decisions, decision.action = .deny := by
  unfold strictest
  cases denied : decisions.find? (fun decision => decision.action = .deny) with
  | some decision =>
    have deny := List.find?_some denied
    rw [decide_eq_true_eq] at deny
    exact iff_of_true deny ⟨decision, List.mem_of_find?_eq_some denied, deny⟩
  | none =>
    rw [List.find?_eq_none] at denied
    simp only [decide_eq_true_eq] at denied
    refine iff_of_false ?_ (fun ⟨decision, mem, deny⟩ => denied decision mem deny)
    cases asked : decisions.find? (fun decision => decision.action = .approval) with
    | some decision => exact denied decision (List.mem_of_find?_eq_some asked)
    | none => exact CommandAction.noConfusion

theorem strictest_guarded {decisions : List CommandDecision} :
    (strictest decisions).action ≠ .auto ↔ ∃ decision ∈ decisions, decision.action ≠ .auto := by
  unfold strictest
  cases denied : decisions.find? (fun decision => decision.action = .deny) with
  | some decision =>
    have deny := List.find?_some denied
    rw [decide_eq_true_eq] at deny
    have strict : decision.action ≠ .auto := by
      rw [deny]
      decide
    exact iff_of_true strict ⟨decision, List.mem_of_find?_eq_some denied, strict⟩
  | none =>
    cases asked : decisions.find? (fun decision => decision.action = .approval) with
    | some decision =>
      have approval := List.find?_some asked
      rw [decide_eq_true_eq] at approval
      have strict : decision.action ≠ .auto := by
        rw [approval]
        decide
      exact iff_of_true strict ⟨decision, List.mem_of_find?_eq_some asked, strict⟩
    | none =>
      -- neither denied nor asked for, every command is let through
      rw [List.find?_eq_none] at denied asked
      refine iff_of_false (fun strict => strict rfl) ?_
      rintro ⟨decision, mem, strict⟩
      have notDenied := denied decision mem
      have notAsked := asked decision mem
      cases action : decision.action <;> simp_all

theorem action_strictest_single (decision : CommandDecision) :
    (strictest [decision]).action = decision.action := by
  cases action : decision.action <;> simp [strictest, action]

section NoPrefixes

variable (noApproval : policy.requireApprovalPrefixes = []) (noAuto : policy.autoAllowPrefixes = [])
include noApproval noAuto

theorem decideCommand_of_tokenize {source : Text} {argv : List Text} (ran : tokenize source = .ok argv)
    (nonempty : argv ≠ []) :
    decideCommand platform policy argv = .ok (builtinDecision platform policy argv) := by
  rw [decideCommand, stripWrappers_of_tokenize ran]
  dsimp only [bind, Except.bind]
  rw [if_neg nonempty, decideTokens, noApproval, noAuto]
  rfl

theorem decide_apply (wrapper : Wrapper) {text : Text} (quoted : Quoted text) :
    ∃ decision, decideShellCommand isWord platform policy (wrapper.apply quoted) = .ok decision ∧
      decision.action = unsplitAction platform policy text := by
  have segments : parseShellSegments isWord (wrapper.apply quoted) = do
      let segment ← parseSegment (wrapper.apply quoted)
      return [segment] := by
    rw [parseShellSegments, splitSegments_apply]
    dsimp only [bind, Except.bind]
    rw [List.mapM_cons, List.mapM_nil]
    cases parseSegment (wrapper.apply quoted) with
    | error raised => rfl
    | ok segment => rfl
  unfold unsplitAction
  cases ran : tokenize text with
  | error raised =>
    rw [decideShellCommand, segments, parseSegment, tokenize_apply, ran]
    exact ⟨_, rfl, rfl⟩
  | ok argv =>
    by_cases empty : argv = []
    · subst empty
      rw [decideShellCommand, segments, parseSegment, tokenize_apply, ran]
      exact ⟨_, rfl, rfl⟩
    · have decided : decideCommand platform policy argv = .ok (builtinDecision platform policy argv) :=
        decideCommand_of_tokenize noApproval noAuto ran empty
      refine ⟨strictest [builtinDecision platform policy argv], ?_, ?_⟩
      · rw [decideShellCommand, segments, parseSegment, tokenize_apply, ran]
        dsimp only [bind, Except.bind, raiseIf]
        rw [if_neg empty]
        dsimp only [pure, Except.pure]
        rw [List.mapM_cons, List.mapM_nil, decided]
        rfl
      · dsimp only
        rw [if_neg empty]
        exact action_strictest_single _

theorem decide_nested {command wrapped : Text} (nested : Nested command wrapped) :
    ∃ decision, decideShellCommand isWord platform policy wrapped = .ok decision ∧
      decision.action = unsplitAction platform policy command := by
  cases nested with
  | wrap wrapper quoted => exact decide_apply noApproval noAuto wrapper quoted
  | @again inner nested wrapper quoted =>
    have same : unsplitAction platform policy inner = unsplitAction platform policy command := by
      unfold unsplitAction
      rw [tokenize_nested nested]
    rw [← same]
    exact decide_apply noApproval noAuto wrapper quoted

theorem decide_accepted {command : Text} {segments : List CommandSegment}
    (accepted : parseShellSegments isWord command = .ok segments) :
    decideShellCommand isWord platform policy command =
      .ok (strictest (segments.map (fun segment => builtinDecision platform policy segment.argv))) := by
  have each : ∀ segment ∈ segments, decideCommand platform policy segment.argv =
      .ok (builtinDecision platform policy segment.argv) := by
    obtain ⟨sources, -, ran⟩ := of_bind_ok accepted
    obtain ⟨parsed, parsing, ran⟩ := of_bind_ok ran
    obtain ⟨_, -, ran⟩ := of_bind_ok ran
    cases ran
    intro segment mem
    obtain ⟨source, -, parse⟩ := (RaisingRuns.mem_of_mapM_ok parsing segment).1 mem
    obtain ⟨argv, tokens, parse⟩ := of_bind_ok parse
    obtain ⟨_, nonempty, parse⟩ := of_bind_ok parse
    cases parse
    exact decideCommand_of_tokenize noApproval noAuto tokens (RaisingRuns.raiseIf_eq_ok.1 nonempty)
  have all : segments.mapM (fun segment => decideCommand platform policy segment.argv) =
      .ok (segments.map (fun segment => builtinDecision platform policy segment.argv)) := by
    clear accepted
    induction segments with
    | nil => rfl
    | cons segment rest ih =>
      rw [List.forall_mem_cons] at each
      rw [List.mapM_cons, each.1, ih each.2]
      rfl
  rw [decideShellCommand, accepted]
  dsimp only
  rw [all]
  rfl

end NoPrefixes

def Denied (platform : Platform) (policy : CommandPolicy) (argv : List Text) : Prop :=
  isSystemTool platform argv = true ∧ policy.systemTools = .disabled

/-- The command is a system tool, which the policy does not leave alone, or a `git push`. -/
def Guarded (platform : Platform) (policy : CommandPolicy) (argv : List Text) : Prop :=
  (isSystemTool platform argv = true ∧ policy.systemTools ≠ .auto) ∨ isGitPush argv = true

theorem builtinDecision_deny {argv : List Text} :
    (builtinDecision platform policy argv).action = .deny ↔ Denied platform policy argv := by
  unfold builtinDecision Denied
  cases isSystemTool platform argv <;> cases isGitPush argv <;> cases policy.systemTools <;> simp

theorem builtinDecision_guarded {argv : List Text} :
    (builtinDecision platform policy argv).action ≠ .auto ↔ Guarded platform policy argv := by
  unfold builtinDecision Guarded
  cases isSystemTool platform argv <;> cases isGitPush argv <;> cases policy.systemTools <;> simp

def CommandAction.strictness : CommandAction → Nat
  | auto => 0
  | approval => 1
  | deny => 2

theorem strictness_le_iff {one other : CommandAction} :
    one.strictness ≤ other.strictness ↔ (one = .deny → other = .deny) ∧ (one ≠ .auto → other ≠ .auto) := by
  cases one <;> cases other <;> decide

/-- Some command among the segments of a text is denied or guarded only if the command that its unsplit
words give is so too. -/
def KeptUnsplit (platform : Platform) (policy : CommandPolicy) (command : Text)
    (segments : List CommandSegment) : Prop :=
  ((∃ segment ∈ segments, Denied platform policy segment.argv) →
    ∃ argv, tokenize command = .ok argv ∧ Denied platform policy argv) ∧
  ((∃ segment ∈ segments, Guarded platform policy segment.argv) →
    ∀ argv, tokenize command = .ok argv → argv ≠ [] → Guarded platform policy argv)

theorem unsplitAction_deny {command : Text} : unsplitAction platform policy command = .deny ↔
    ∃ argv, tokenize command = .ok argv ∧ Denied platform policy argv := by
  unfold unsplitAction
  cases tokenize command with
  | error raised => simp
  | ok argv =>
    by_cases empty : argv = []
    · subst empty
      simp [Denied, isSystemTool]
    · simp [empty, builtinDecision_deny]

theorem unsplitAction_guarded {command : Text} : unsplitAction platform policy command ≠ .auto ↔
    ∀ argv, tokenize command = .ok argv → argv ≠ [] → Guarded platform policy argv := by
  unfold unsplitAction
  cases tokenize command with
  | error raised => simp
  | ok argv =>
    by_cases empty : argv = []
    · simp [empty]
    · simp [empty, ← builtinDecision_guarded]

theorem keptUnsplit_of_single {command : Text} {segment : CommandSegment}
    (accepted : parseShellSegments isWord command = .ok [segment]) (whole : segment.source = command) :
    KeptUnsplit platform policy command [segment] := by
  obtain ⟨sources, -, ran⟩ := of_bind_ok accepted
  obtain ⟨parsed, parsing, ran⟩ := of_bind_ok ran
  obtain ⟨_, -, ran⟩ := of_bind_ok ran
  cases ran
  obtain ⟨source, -, parse⟩ := (RaisingRuns.mem_of_mapM_ok parsing segment).1 List.mem_cons_self
  obtain ⟨argv, tokens, parse⟩ := of_bind_ok parse
  obtain ⟨_, -, parse⟩ := of_bind_ok parse
  cases parse
  subst whole
  simp only [KeptUnsplit, List.mem_singleton, exists_eq_left]
  refine ⟨fun denied => ⟨argv, tokens, denied⟩, fun guarded other ran _ => ?_⟩
  obtain rfl := Except.ok.inj (tokens.symm.trans ran)
  exact guarded

/-- However often a command is wrapped, the wrapping is at least as strict as the command exactly when the
command's unsplit words are, as they are for a single segment. -/
theorem wrapping_keeps_strictness {command wrapped : Text} {segments : List CommandSegment}
    (noApproval : policy.requireApprovalPrefixes = []) (noAuto : policy.autoAllowPrefixes = [])
    (accepted : parseShellSegments isWord command = .ok segments) (nested : Nested command wrapped) :
    ((∃ before after, decideShellCommand isWord platform policy command = .ok before ∧
      decideShellCommand isWord platform policy wrapped = .ok after ∧
      before.action.strictness ≤ after.action.strictness) ↔ KeptUnsplit platform policy command segments) ∧
    ∀ segment, segments = [segment] → segment.source = command →
      KeptUnsplit platform policy command segments := by
  have before : decideShellCommand isWord platform policy command = .ok (strictest (segments.map
      (fun segment => builtinDecision platform policy segment.argv))) :=
    decide_accepted noApproval noAuto accepted
  have wrapping : ∃ decision, decideShellCommand isWord platform policy wrapped = .ok decision ∧
      decision.action = unsplitAction platform policy command :=
    decide_nested noApproval noAuto nested
  obtain ⟨after, wrapping, action⟩ := wrapping
  have denied : (strictest (segments.map (fun segment => builtinDecision platform policy segment.argv))).action =
      .deny ↔ ∃ segment ∈ segments, Denied platform policy segment.argv := by
    rw [strictest_deny]
    simp only [List.mem_map, exists_exists_and_eq_and, builtinDecision_deny]
  have guarded :
      (strictest (segments.map (fun segment => builtinDecision platform policy segment.argv))).action ≠
      .auto ↔ ∃ segment ∈ segments, Guarded platform policy segment.argv := by
    rw [strictest_guarded]
    simp only [List.mem_map, exists_exists_and_eq_and, builtinDecision_guarded]
  refine ⟨?_, fun segment single whole => single ▸ keptUnsplit_of_single (single ▸ accepted) whole⟩
  rw [KeptUnsplit, ← denied, ← guarded, ← unsplitAction_deny, ← unsplitAction_guarded, ← action,
    ← strictness_le_iff]
  constructor
  · rintro ⟨_, _, first, second, le⟩
    obtain rfl := Except.ok.inj (before.symm.trans first)
    obtain rfl := Except.ok.inj (wrapping.symm.trans second)
    exact le
  · exact fun le => ⟨_, after, before, wrapping, le⟩

def bashCommand : Wrapper where
  env := none
  shell := .bash
  login := false

def singleQuoted (text : Text) (each : ∀ c ∈ text, c ≠ '\'') : Quoted text where
  first := .single text each
  rest := []
  quoted piece mem := by
    rw [List.mem_singleton] at mem
    rw [mem]
    rfl
  spells := by simp [value, Piece.value]

theorem wrapping_keeps_a_push :
    ∃ before after, decideShellCommand Char.isAlphanum .linux {} "git push".toList = .ok before ∧
      decideShellCommand Char.isAlphanum .linux {}
        (bashCommand.apply (singleQuoted "git push".toList (by decide))) = .ok after ∧
      before.action.strictness ≤ after.action.strictness := by
  have accepted : parseShellSegments Char.isAlphanum "git push".toList =
      .ok [⟨"git push".toList, ["git".toList, "push".toList]⟩] := by
    decide
  apply (wrapping_keeps_strictness rfl rfl accepted (.wrap bashCommand (singleQuoted _ (by decide)))).1.2
  exact keptUnsplit_of_single accepted rfl

/-- `git push` after another command asks for approval, but not when `bash -c` runs the two. -/
theorem wrapped_push_is_auto :
    (bashCommand.apply (singleQuoted "ls; git push".toList (by decide)) = "bash -c 'ls; git push'".toList) ∧
    (parseShellSegments Char.isAlphanum "ls; git push".toList).isOk = true ∧
    ¬∃ before after, decideShellCommand Char.isAlphanum .linux {} "ls; git push".toList = .ok before ∧
      decideShellCommand Char.isAlphanum .linux {} "bash -c 'ls; git push'".toList = .ok after ∧
      before.action.strictness ≤ after.action.strictness := by
  have direct : decideShellCommand Char.isAlphanum .linux {} "ls; git push".toList =
      .ok { action := .approval, code := "builtin_git_push", argv := ["git".toList, "push".toList] } := by
    decide
  have wrapping : decideShellCommand Char.isAlphanum .linux {} "bash -c 'ls; git push'".toList =
      .ok { action := .auto, code := "default_auto" } := by
    decide
  refine ⟨by decide, by decide, ?_⟩
  rintro ⟨before, after, first, second, le⟩
  obtain rfl := Except.ok.inj (direct.symm.trans first)
  obtain rfl := Except.ok.inj (wrapping.symm.trans second)
  exact absurd le (by decide)

end OpenSquilla.Commands
