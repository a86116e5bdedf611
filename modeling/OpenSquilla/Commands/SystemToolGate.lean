import OpenSquilla.Commands.Targets

set_option autoImplicit false

-- Commands behind `env` and `sudo` are looked up in the catalog by the first word that the loop in
-- `_strip_wrappers` does not pass over. That is the wrapped command as long as no option has its
-- value in the next argument; and `sudo` itself is always passed over.

namespace OpenSquilla.Commands

open TextLines ShellWords
open RaisingRuns (of_bind_ok)

namespace Target

variable {lib : Library} {target : Target}

theorem normalizeExecutable_nil : target.normalizeExecutable lib [] = [] := by
  cases target <;> simp [normalizeExecutable, lib.pathName_nil, lib.casefold_nil, withoutSuffix]

theorem unwrapOnce_nil_cons (rest : List Text) : target.unwrapOnce lib ([] :: rest) = .bare := by
  have wrapper : target.isWrapper lib [] = false := by
    rw [isWrapper, normalizeExecutable_nil]
    rfl
  dsimp only [unwrapOnce]
  rw [wrapper, normalizeExecutable_nil]
  rfl

theorem unwrapOnce_below (argv : List Text) : (target.unwrapOnce lib argv).Below (size argv) := by
  cases argv with
  | nil => trivial
  | cons first rest =>
    cases first with
    | nil =>
      rw [unwrapOnce_nil_cons]
      trivial
    | cons c first =>
      have below : size rest < size ((c :: first) :: rest) := by
        rw [size_cons, List.length_cons]
        omega
      dsimp only [unwrapOnce]
      split_ifs
      · exact Nat.lt_of_le_of_lt (size_dropWhile_le _ rest) below
      · split
        next flag source tail =>
          split_ifs
          · have bounded : source.length ≤ size (flag :: source :: tail) := length_le_size (by simp)
            exact Nat.lt_of_le_of_lt bounded below
          · trivial
        next => trivial
      · exact orBare_below below
      · exact orBare_below below
      · trivial

/-- The command that the loop in `_strip_wrappers` arrives at behind `env` and `sudo`. -/
def bareCommand (lib : Library) (target : Target) : List Text → List Text
  | [] => []
  | first :: rest =>
    if target.isWrapper lib first then
      rest.dropWhile (fun token => target.isWrapper lib token || isSkipped token)
    else first :: rest

/-- Something holds of the command behind the wrappers, or of the one in the text that a shell there is given. -/
inductive LeadsTo (lib : Library) (target : Target) (holds : List Text → Prop) : List Text → Prop
  | bare {argv : List Text} (stops : target.unwrapOnce lib (target.bareCommand lib argv) = .bare)
    (here : holds (target.bareCommand lib argv)) : LeadsTo lib target holds argv
  | shell {argv words : List Text} {source : Text}
    (starts : target.unwrapOnce lib (target.bareCommand lib argv) = .command source)
    (read : target.shlexSplit source = .ok words) (inside : LeadsTo lib target holds words) :
    LeadsTo lib target holds argv

section Loop

variable {holds : List Text → Prop} {first : Text} {rest argv : List Text}

theorem unwrapOnce_wrapper (wrapper : target.isWrapper lib first = true) :
    target.unwrapOnce lib (first :: rest) = .onward (rest.dropWhile isSkipped) := by
  dsimp only [unwrapOnce]
  rw [if_pos wrapper]

theorem bareCommand_of_not_wrapper (bare : target.isWrapper lib first = false) :
    target.bareCommand lib (first :: rest) = first :: rest := by
  rw [bareCommand, bare, if_neg Bool.false_ne_true]

theorem orBare_ne_onward {found : Option Text} {next : List Text} : orBare found ≠ .onward next := by
  cases found <;>
    · rintro ⟨⟩

theorem onward_cases {next : List Text} (once : target.unwrapOnce lib argv = .onward next) :
    ∃ first rest, argv = first :: rest ∧ target.isWrapper lib first = true ∧
      next = rest.dropWhile isSkipped := by
  cases argv with
  | nil => cases once
  | cons first rest =>
    cases wrapper : target.isWrapper lib first with
    | true =>
      rw [unwrapOnce_wrapper wrapper] at once
      cases once
      exact ⟨first, rest, rfl, wrapper, rfl⟩
    | false =>
      exfalso
      dsimp only [unwrapOnce] at once
      rw [wrapper, if_neg Bool.false_ne_true] at once
      split_ifs at once
      · split at once
        next => split_ifs at once
        next => cases once
      · exact orBare_ne_onward once
      · exact orBare_ne_onward once

theorem bareCommand_of_stops (stops : ∀ next, target.unwrapOnce lib argv ≠ .onward next) :
    target.bareCommand lib argv = argv := by
  cases argv with
  | nil => rfl
  | cons first rest =>
    apply bareCommand_of_not_wrapper
    rw [Bool.eq_false_iff]
    exact fun wrapper => stops _ (unwrapOnce_wrapper wrapper)

theorem bareCommand_onward {next : List Text} (once : target.unwrapOnce lib argv = .onward next) :
    target.bareCommand lib argv = target.bareCommand lib next := by
  obtain ⟨first, rest, rfl, wrapper, rfl⟩ := onward_cases once
  rw [bareCommand, if_pos wrapper]
  induction rest with
  | nil => rfl
  | cons token rest ih =>
    cases skipped : isSkipped token with
    | true =>
      rw [List.dropWhile_cons_of_pos (by rw [skipped, Bool.or_true]), List.dropWhile_cons_of_pos skipped]
      exact ih (unwrapOnce_wrapper wrapper)
    | false =>
      rw [List.dropWhile_cons, List.dropWhile_cons_of_neg (by rw [skipped]; exact Bool.false_ne_true),
          bareCommand,
        skipped, Bool.or_false]

theorem leadsTo_onward {next : List Text} (once : target.unwrapOnce lib argv = .onward next) :
    LeadsTo lib target holds argv ↔ LeadsTo lib target holds next := by
  have same := bareCommand_onward once
  constructor
  · rintro (⟨stops, here⟩ | ⟨starts, read, inside⟩)
    · rw [same] at stops here
      exact .bare stops here
    · rw [same] at starts
      exact .shell starts read inside
  · rintro (⟨stops, here⟩ | ⟨starts, read, inside⟩)
    · rw [← same] at stops here
      exact .bare stops here
    · rw [← same] at starts
      exact .shell starts read inside

theorem leadsTo_bare (once : target.unwrapOnce lib argv = .bare) :
    LeadsTo lib target holds argv ↔ holds argv := by
  have same : target.bareCommand lib argv = argv := by
    apply bareCommand_of_stops
    rw [once]
    rintro next ⟨⟩
  constructor
  · rintro (⟨stops, here⟩ | ⟨starts, read, inside⟩)
    · rwa [same] at here
    · rw [same, once] at starts
      cases starts
  · intro here
    apply LeadsTo.bare <;> rwa [same]

theorem leadsTo_command {source : Text} (once : target.unwrapOnce lib argv = .command source) :
    LeadsTo lib target holds argv ↔
      ∃ words, target.shlexSplit source = .ok words ∧ LeadsTo lib target holds words := by
  have same : target.bareCommand lib argv = argv := by
    apply bareCommand_of_stops
    rw [once]
    rintro next ⟨⟩
  constructor
  · rintro (⟨stops, here⟩ | ⟨starts, read, inside⟩)
    · rw [same, once] at stops
      cases stops
    · rw [same, once] at starts
      cases starts
      exact ⟨_, read, inside⟩
  · rintro ⟨words, read, inside⟩
    exact .shell (by rwa [same]) read inside

theorem leadsTo_iff {passes : Nat} (enough : size argv < passes) :
    LeadsTo lib target holds argv ↔ ∃ tokens, target.stripWrappers lib passes argv = .ok tokens ∧
      holds tokens := by
  induction passes generalizing argv with
  | zero => omega
  | succ passes ih =>
    have below : (target.unwrapOnce lib argv).Below (size argv) := unwrapOnce_below argv
    rw [stripWrappers]
    cases once : target.unwrapOnce lib argv with
    | bare => simp [leadsTo_bare once]
    | onward next =>
      rw [once] at below
      dsimp only [Unwrapped.Below] at below
      rw [leadsTo_onward once, ih (by omega)]
    | command source =>
      rw [once] at below
      dsimp only [Unwrapped.Below] at below
      rw [leadsTo_command once]
      cases ran : target.shlexSplit source with
      | error raised => simp [ran, bind, Except.bind]
      | ok words =>
        have shorter := size_shlexSplit_le ran
        have inside : LeadsTo lib target holds words ↔
            ∃ tokens, target.stripWrappers lib passes words = .ok tokens ∧ holds tokens := ih (by omega)
        simp [ran, bind, Except.bind, inside]

end Loop

section Gate

variable (takesValue : Text → Text → Bool)

inductive Arguments (takesValue : Text → Bool) : List Text → Prop
  | done : Arguments takesValue []
  | assignment {token : Text} {rest : List Text} (assigns : token.contains '=' = true)
    (plain : token.head? ≠ some '-') (later : Arguments takesValue rest) : Arguments takesValue (token :: rest)
  | option {token : Text} {rest : List Text} (dash : token.head? = some '-') (alone : takesValue token = false)
    (later : Arguments takesValue rest) : Arguments takesValue (token :: rest)
  | valued {token value : Text} {rest : List Text} (dash : token.head? = some '-')
      (takes : takesValue token = true)
    (later : Arguments takesValue rest) : Arguments takesValue (token :: value :: rest)

/-- A command behind any sequence of `env` and `sudo`. The options that take the next argument as their value are
those of the two programs. -/
inductive Wraps (lib : Library) (target : Target) : List Text → List Text → Prop
  | direct {command : List Text} : Wraps lib target command command
  | wrapper {first : Text} {arguments inner command : List Text} (named : target.isWrapper lib first = true)
    (read : Arguments (takesValue (target.normalizeExecutable lib first)) arguments)
    (starts : ∀ token, inner.head? = some token → isSkipped token = false)
    (inside : Wraps lib target inner command) : Wraps lib target (first :: (arguments ++ inner)) command

-- The gate on the wrapped commands of an argv, with no prefixes of the user.
structure Gated (lib : Library) (target : Target) (mode : SystemTools) (argv : List Text) : Prop where
  denied : ∀ command, Wraps takesValue lib target argv command → target.isSystemTool lib command = true →
    mode = .disabled →
    ∃ decision, target.decideCommand lib { systemTools := mode } argv = .ok decision ∧
      decision.action = .deny
  prompted : ∀ command, Wraps takesValue lib target argv command →
    target.isSystemTool lib command = true →
    mode = .prompt →
    ∀ decision, target.decideCommand lib { systemTools := mode } argv = .ok decision →
      decision.action ≠ .auto
  pushes : ∀ command, Wraps takesValue lib target argv command → target.isGitPush lib command = true →
    ∀ decision, target.decideCommand lib { systemTools := mode } argv = .ok decision →
      decision.action ≠ .auto

def Unguarded (lib : Library) (target : Target) (mode : SystemTools) (command : List Text) : Prop :=
  command ≠ [] ∧ target.isGitPush lib command = false ∧
    (mode ≠ .auto → target.isSystemTool lib command = false)

variable {takesValue} {mode : SystemTools} {argv : List Text}

theorem decideCommand_unprefixed : target.decideCommand lib { systemTools := mode } argv =
    (target.stripWrappers lib (size argv + 1) argv).map (fun tokens =>
      if tokens = [] then parseFailed else target.builtinDecision lib { systemTools := mode } tokens) := by
  rw [decideCommand]
  cases target.stripWrappers lib (size argv + 1) argv with
  | error raised => rfl
  | ok tokens =>
    dsimp only [bind, Except.bind, Except.map]
    split <;> rfl

theorem decides_iff {action : CommandAction} :
    (∃ decision, target.decideCommand lib { systemTools := mode } argv = .ok decision ∧
      decision.action = action) ↔
      LeadsTo lib target (fun tokens => (if tokens = [] then parseFailed
        else target.builtinDecision lib { systemTools := mode } tokens).action = action) argv := by
  rw [decideCommand_unprefixed, leadsTo_iff (Nat.lt_succ_self _)]
  constructor
  · rintro ⟨decision, ran, same⟩
    obtain ⟨tokens, stripped, rfl⟩ := RaisingRuns.of_map_ok ran
    exact ⟨tokens, stripped, same⟩
  · rintro ⟨tokens, stripped, same⟩
    rw [stripped]
    exact ⟨_, rfl, same⟩

theorem LeadsTo.imp {holds other : List Text → Prop} (imp : ∀ command, holds command → other command)
    (leads : LeadsTo lib target holds argv) : LeadsTo lib target other argv := by
  induction leads with
  | bare stops here => exact .bare stops (imp _ here)
  | shell starts read inside ih => exact .shell starts read ih

theorem leadsTo_congr {holds other : List Text → Prop} (same : ∀ command, holds command ↔ other command) :
    LeadsTo lib target holds argv ↔ LeadsTo lib target other argv :=
  ⟨.imp (fun command => (same command).1), .imp (fun command => (same command).2)⟩

theorem denies_iff : (∃ decision, target.decideCommand lib { systemTools := .disabled } argv = .ok decision ∧
        decision.action = .deny) ↔
      LeadsTo lib target (fun command => target.isSystemTool lib command = true) argv := by
  rw [decides_iff]
  apply leadsTo_congr
  intro command
  cases command with
  | nil => simp [parseFailed, isSystemTool]
  | cons executable rest =>
    rw [if_neg (List.cons_ne_nil _ _), builtinDecision]
    cases target.isSystemTool lib (executable :: rest) <;>
        cases target.isGitPush lib (executable :: rest) <;>
      simp

theorem autos_iff : (∃ decision, target.decideCommand lib { systemTools := mode } argv = .ok decision ∧
        decision.action = .auto) ↔ LeadsTo lib target (Unguarded lib target mode) argv := by
  rw [decides_iff]
  apply leadsTo_congr
  intro command
  cases command with
  | nil => simp [parseFailed, Unguarded]
  | cons executable rest =>
    rw [if_neg (List.cons_ne_nil _ _), builtinDecision, Unguarded]
    cases target.isSystemTool lib (executable :: rest) <;>
        cases target.isGitPush lib (executable :: rest) <;>
      cases mode <;> simp

theorem Arguments.skipped {takes : Text → Bool} {arguments : List Text} (read : Arguments takes arguments)
    (alone : ∀ option ∈ arguments, takes option = false) : ∀ token ∈ arguments, isSkipped token = true := by
  induction read with
  | done => exact List.forall_mem_nil _
  | assignment assigns plain later ih =>
    rw [List.forall_mem_cons] at alone ⊢
    exact ⟨by rw [isSkipped, assigns, Bool.or_true], ih alone.2⟩
  | option dash _ later ih =>
    rw [List.forall_mem_cons] at alone ⊢
    exact ⟨by simp [isSkipped, dash], ih alone.2⟩
  | valued dash takes later ih =>
    rw [alone _ List.mem_cons_self] at takes
    cases takes

theorem dropWhile_arguments {arguments inner : List Text} (skipped : ∀ token ∈ arguments, isSkipped token = true)
    (starts : ∀ token, inner.head? = some token → isSkipped token = false) :
    (arguments ++ inner).dropWhile isSkipped = inner := by
  rw [List.dropWhile_append_of_pos skipped]
  cases inner with
  | nil => rfl
  | cons token rest =>
    apply List.dropWhile_cons_of_neg
    rw [starts token rfl]
    exact Bool.false_ne_true

theorem leadsTo_of_wraps {command : List Text} (wraps : Wraps takesValue lib target argv command)
    (alone : ∀ executable, ∀ option ∈ argv, takesValue executable option = false)
    (bare : target.unwrapOnce lib command = .bare) : LeadsTo lib target (· = command) argv := by
  induction wraps with
  | direct => exact (leadsTo_bare bare).2 rfl
  | wrapper named read starts inside ih =>
    have within := fun executable option mem => alone executable option (List.mem_cons_of_mem _ mem)
    have skipped := read.skipped fun option mem => within _ option (List.mem_append_left _ mem)
    apply (leadsTo_onward (unwrapOnce_wrapper named)).2
    rw [dropWhile_arguments skipped starts]
    exact ih (fun executable option mem => within executable option (List.mem_append_right _ mem)) bare

theorem decideCommand_wrapped {command : List Text} (wraps : Wraps takesValue lib target argv command)
    (alone : ∀ executable, ∀ option ∈ argv, takesValue executable option = false)
    (bare : target.unwrapOnce lib command = .bare) :
    target.decideCommand lib { systemTools := mode } argv =
      target.decideCommand lib { systemTools := mode } command := by
  obtain ⟨tokens, stripped, rfl⟩ := (leadsTo_iff (Nat.lt_succ_self _)).1 (leadsTo_of_wraps wraps alone bare)
  have still : target.stripWrappers lib (size tokens + 1) tokens = .ok tokens := by
    rw [stripWrappers, bare]
  rw [decideCommand, decideCommand, stripped, still]

/-- The gate holds where the loop in `_strip_wrappers` arrives at a guarded command: the first word that is no
wrapper's name, starts with no dash and holds no equals sign, or what a shell there is given. Where no option has
its value in the next argument, the wrapped command is decided as it stands. -/
theorem gated_iff (lib : Library) (target : Target) (takesValue : Text → Text → Bool) (mode : SystemTools)
    (argv : List Text) : (Gated takesValue lib target mode argv ↔
      ((∃ command, Wraps takesValue lib target argv command ∧ target.isSystemTool lib command = true) →
        (mode = .disabled →
          LeadsTo lib target (fun command => target.isSystemTool lib command = true) argv) ∧
        (mode = .prompt → ¬LeadsTo lib target (Unguarded lib target mode) argv)) ∧
      ((∃ command, Wraps takesValue lib target argv command ∧ target.isGitPush lib command = true) →
        ¬LeadsTo lib target (Unguarded lib target mode) argv)) ∧
    ∀ command, Wraps takesValue lib target argv command →
      (∀ executable, ∀ option ∈ argv, takesValue executable option = false) →
      target.unwrapOnce lib command = .bare →
      target.decideCommand lib { systemTools := mode } argv =
        target.decideCommand lib { systemTools := mode } command := by
  refine ⟨?_, fun command => decideCommand_wrapped⟩
  simp only [← autos_iff, not_exists, not_and]
  constructor
  · intro gated
    refine ⟨?_, ?_⟩
    · rintro ⟨command, wraps, tool⟩
      refine ⟨?_, fun prompt => gated.prompted command wraps tool prompt⟩
      rintro rfl
      exact denies_iff.1 (gated.denied command wraps tool rfl)
    · rintro ⟨command, wraps, push⟩
      exact gated.pushes command wraps push
  · rintro ⟨tools, pushes⟩
    constructor
    · rintro command wraps tool rfl
      exact denies_iff.2 ((tools ⟨command, wraps, tool⟩).1 rfl)
    · intro command wraps tool prompt
      exact (tools ⟨command, wraps, tool⟩).2 prompt
    · intro command wraps push
      exact pushes ⟨command, wraps, push⟩

-- `sudo` is in the catalog, and the value of an option is taken for the command
theorem sudo_is_let_through :
    let lib := posixLibrary Char.isAlphanum
    ¬Gated (fun _ _ => false) lib (.posix .linux) .disabled ["sudo".toList, "ls".toList] ∧
      ¬Gated (fun _ option => option = "-u".toList) lib (.posix .linux) .prompt
        ["env".toList, "-u".toList, "HOME".toList, "systemctl".toList, "stop".toList, "sshd".toList] := by
  refine ⟨fun gated => ?_, fun gated => ?_⟩
  · obtain ⟨decision, ran, denied⟩ := gated.denied _ .direct (by decide) rfl
    have auto : (posix .linux).decideCommand (posixLibrary Char.isAlphanum) { systemTools := .disabled }
        ["sudo".toList, "ls".toList] =
          .ok { action := .auto, code := "default_auto", argv := ["ls".toList] } := by
      decide
    rw [auto] at ran
    cases ran
    cases denied
  · have wraps : Wraps (fun _ option => option = "-u".toList) (posixLibrary Char.isAlphanum) (.posix .linux)
        ("env".toList :: (["-u".toList, "HOME".toList] ++ ["systemctl".toList, "stop".toList, "sshd".toList]))
        ["systemctl".toList, "stop".toList, "sshd".toList] := by
      apply Wraps.wrapper (by decide) (.valued (by decide) (by decide) .done) _ .direct
      rintro token ⟨⟩
      decide
    have auto : (posix .linux).decideCommand (posixLibrary Char.isAlphanum) { systemTools := .prompt }
        ["env".toList, "-u".toList, "HOME".toList, "systemctl".toList, "stop".toList, "sshd".toList] =
        .ok { action := .auto, code := "default_auto", argv :=
          ["HOME".toList, "systemctl".toList, "stop".toList, "sshd".toList] } := by
      decide
    exact gated.prompted _ wraps (by decide) rfl _ auto rfl

end Gate

end Target

end OpenSquilla.Commands
