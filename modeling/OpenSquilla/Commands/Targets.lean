import OpenSquilla.Commands.Wrapping

set_option autoImplicit false

-- The policy as it takes the name of a platform: on Windows executables are compared without case
-- and suffix, words keep their quotes, and there are no here-documents.

namespace OpenSquilla.Commands

open TextLines TextScan ShellWords
open RaisingRuns (raiseIf of_bind_ok)

inductive Target
  | windows
  | posix (platform : Platform)

/-- The parts of Python's library that depend on the running system or on Unicode's tables. -/
structure Library where
  -- `PurePath(value).name`
  pathName : Text → Text
  -- `str.casefold`
  casefold : Text → Text
  -- `\w` of the regular expressions
  isWord : Char → Bool
  pathName_nil : pathName [] = []
  casefold_nil : casefold [] = []

def withoutDrive (path : Text) : Text :=
  if ['\\', '\\'].isPrefixOf path then
    let share := path.drop (if (path.take 8).map Char.toUpper = "\\\\?\\UNC\\".toList then 8 else 2)
    ((share.dropWhile (· ≠ '\\')).tail.dropWhile (· ≠ '\\')).tail
  else if path.tail.head? = some ':' then path.drop 2
  else path

def windowsPathName (path : Text) : Text :=
  let parts := (withoutDrive (path.map (fun c => if c = '/' then '\\' else c))).splitOn '\\'
  (parts.filter (fun part => part ≠ [] && part ≠ ['.'])).getLast?.getD []

def posixLibrary (isWord : Char → Bool) : Library where
  pathName := pathName
  casefold := casefold
  isWord := isWord
  pathName_nil := by decide
  casefold_nil := rfl

def windowsLibrary (isWord : Char → Bool) : Library where
  pathName := windowsPathName
  casefold := casefold
  isWord := isWord
  pathName_nil := by decide
  casefold_nil := rfl

def withoutSuffix (name : Text) : Text :=
  if [".exe", ".cmd", ".bat", ".com"].any (fun suffix => suffix.toList.isSuffixOf name) then
    name.take (name.length - 4)
  else name

namespace Target

variable (lib : Library)

def normalizeExecutable (target : Target) (value : Text) : Text :=
  let name := lib.pathName (value.map (fun c => if c = '\\' then '/' else c))
  match target with
  | windows => withoutSuffix (lib.casefold name)
  | posix _ => name

def normalizeArgv (target : Target) (argv : List Text) : List Text :=
  match argv.filter (· ≠ []), target with
  | [], _ => []
  | executable :: rest, windows => (normalizeExecutable lib windows executable :: rest).map lib.casefold
  | executable :: rest, posix platform => normalizeExecutable lib (posix platform) executable :: rest

-- `shlex.split`, of which Windows takes the mode without POSIX rules.
def shlexSplit : Target → Text → Except Raised (List Text)
  | windows, source =>
    (VerbatimWords.split source).mapError (fun _ => .valueError "No closing quotation")
  | posix _, source => Commands.shlexSplit source

def isWrapper (target : Target) (executable : Text) : Bool :=
  ["env".toList, "sudo".toList].contains (target.normalizeExecutable lib executable)

-- What the loop in `_strip_wrappers` passes over behind `env` and `sudo`.
def isSkipped (token : Text) : Bool := token.head? = some '-' || token.contains '='

def unwrapOnce (target : Target) : List Text → Unwrapped
  | [] => .bare
  | first :: rest =>
    let executable := target.normalizeExecutable lib first
    if target.isWrapper lib first then .onward (rest.dropWhile isSkipped)
    else if executable = "cmd".toList then
      match rest with
      | flag :: source :: _ =>
        if lib.casefold flag ∈ ["/c".toList, "/k".toList] then .command source else .bare
      | _ => .bare
    else if executable ∈ ["powershell".toList, "pwsh".toList] then
      orBare (commandAfter (fun token => lib.casefold token ∈ ["-c".toList, "-command".toList]) rest)
    else if executable ∈ ["bash".toList, "sh".toList, "zsh".toList, "fish".toList] then
      orBare (commandAfter (fun token => token ∈ ["-c".toList, "-lc".toList]) rest)
    else .bare

def stripWrappers (target : Target) : Nat → List Text → Except Raised (List Text)
  | 0, argv => .ok argv
  | passes + 1, argv =>
    match target.unwrapOnce lib argv with
    | .bare => .ok argv
    | .onward rest => stripWrappers target passes rest
    | .command source => do stripWrappers target passes (← target.shlexSplit source)

def tokenize (target : Target) (source : Text) : Except Raised (List Text) := do
  let tokens ← target.shlexSplit source
  target.stripWrappers lib (size tokens + 1) tokens

def parseSegment (target : Target) (source : Text) : Except Raised CommandSegment := do
  let argv ← target.tokenize lib source
  raiseIf (argv = []) (.valueError "empty shell command segment")
  return { source := source, argv := argv }

def splitSegments (target : Target) (command : Text) : Except Raised (List Text) :=
  match target with
  | windows => splitFrom none false [] command
  | posix _ => Commands.splitSegments lib.isWord command

def parseShellSegments (target : Target) (command : Text) : Except Raised (List CommandSegment) := do
  let sources ← target.splitSegments lib command
  let parsed ← sources.mapM (target.parseSegment lib)
  raiseIf (parsed = []) (.valueError "empty shell command")
  return parsed

def matchesPrefix (target : Target) (argv rule : List Text) : Except Raised Bool := do
  let normalized := target.normalizeArgv lib (← validateCommandPrefix rule)
  return (target.normalizeArgv lib argv).take normalized.length = normalized

def bestPrefix (target : Target) (argv : List Text) (rules : List (List Text)) : Except Raised (List Text) := do
  let found ← rules.filterM (target.matchesPrefix lib argv)
  return found.foldl (fun best rule => if best.length < rule.length then rule else best) []

def systemToolNames : Target → List Text
  | windows => ["wsl".toList, "wmic".toList, "sc".toList, "reg".toList, "schtasks".toList]
  | posix platform => Commands.systemToolNames platform

def isSystemTool (target : Target) : List Text → Bool
  | [] => false
  | executable :: _ => target.systemToolNames.contains (target.normalizeExecutable lib executable)

def isGitPush (target : Target) (tokens : List Text) : Bool :=
  (target.normalizeArgv lib tokens).take 2 = ["git".toList, "push".toList]

def builtinDecision (target : Target) (policy : CommandPolicy) (tokens : List Text) : CommandDecision :=
  if target.isSystemTool lib tokens && policy.systemTools = .disabled then
    { action := .deny, code := "system_tool_disabled", argv := tokens }
  else if target.isSystemTool lib tokens && policy.systemTools = .prompt then
    { action := .approval, code := "system_tool_prompt", argv := tokens }
  else if target.isGitPush lib tokens then
      { action := .approval, code := "builtin_git_push", argv := tokens }
  else { action := .auto, code := "default_auto", argv := tokens }

def decideTokens (target : Target) (policy : CommandPolicy) (tokens : List Text) :
    Except Raised CommandDecision := do
  let auto ← target.bestPrefix lib tokens policy.autoAllowPrefixes
  if auto ≠ [] then
    return { action := .auto, code := "user_auto_allow", argv := tokens, matchedPrefix := auto }
  else
    let approval ← target.bestPrefix lib tokens policy.requireApprovalPrefixes
    if approval ≠ [] then
      return { action := .approval, code := "user_approval_prefix", argv := tokens, matchedPrefix := approval }
    else return target.builtinDecision lib policy tokens

def decideCommand (target : Target) (policy : CommandPolicy) (argv : List Text) :
    Except Raised CommandDecision := do
  let tokens ← target.stripWrappers lib (size argv + 1) argv
  if tokens = [] then return parseFailed else target.decideTokens lib policy tokens

def decideShellCommand (target : Target) (policy : CommandPolicy) (command : Text) :
    Except Raised CommandDecision :=
  match target.parseShellSegments lib command with
  | .error _ => .ok parseFailed
  | .ok segments => do
    let decisions ← segments.mapM (fun segment => target.decideCommand lib policy segment.argv)
    return strictest decisions

section Posix

variable (isWord : Char → Bool) (platform : Platform)

theorem unwrapOnce_posix (argv : List Text) :
    (posix platform).unwrapOnce (posixLibrary isWord) argv = Commands.unwrapOnce argv := by
  cases argv with
  | nil => rfl
  | cons first rest =>
    have wrapper : (posix platform).isWrapper (posixLibrary isWord) first = true ↔
        Commands.normalizeExecutable first ∈ ["env".toList, "sudo".toList] := List.contains_iff_mem
    dsimp only [unwrapOnce, Commands.unwrapOnce]
    simp only [wrapper]
    rfl

theorem stripWrappers_posix (passes : Nat) (argv : List Text) :
    (posix platform).stripWrappers (posixLibrary isWord) passes argv = Commands.stripWrappers passes argv := by
  induction passes generalizing argv with
  | zero => rfl
  | succ passes ih =>
    rw [stripWrappers, Commands.stripWrappers, unwrapOnce_posix]
    cases Commands.unwrapOnce argv with
    | bare => rfl
    | onward rest => exact ih rest
    | command source =>
      simp only [ih]
      rfl

theorem decideCommand_posix (policy : CommandPolicy) (argv : List Text) :
    (posix platform).decideCommand (posixLibrary isWord) policy argv =
      Commands.decideCommand platform policy argv := by
  have normalized : (posix platform).normalizeArgv (posixLibrary isWord) = Commands.normalizeArgv := by
    funext argv
    unfold normalizeArgv Commands.normalizeArgv
    cases List.filter (fun token => decide (token ≠ [])) argv <;> rfl
  have matching : (posix platform).matchesPrefix (posixLibrary isWord) = Commands.matchesPrefix := by
    funext argv rule
    simp only [matchesPrefix, Commands.matchesPrefix, normalized]
  have prefixes : (posix platform).bestPrefix (posixLibrary isWord) = Commands.bestPrefix := by
    funext argv rules
    rw [bestPrefix, Commands.bestPrefix, matching]
  have tools : (posix platform).isSystemTool (posixLibrary isWord) = Commands.isSystemTool platform := by
    funext argv
    cases argv <;> rfl
  have builtin : (posix platform).builtinDecision (posixLibrary isWord) = Commands.builtinDecision platform := by
    funext policy tokens
    simp only [builtinDecision, Commands.builtinDecision, isGitPush, Commands.isGitPush, normalized, tools]
    rfl
  simp only [decideCommand, Commands.decideCommand, stripWrappers_posix, decideTokens, Commands.decideTokens,
    prefixes, builtin]

theorem decideShellCommand_posix (policy : CommandPolicy) (command : Text) :
    (posix platform).decideShellCommand (posixLibrary isWord) policy command =
      Commands.decideShellCommand isWord platform policy command := by
  have segment : (posix platform).parseSegment (posixLibrary isWord) = Commands.parseSegment := by
    funext source
    simp only [parseSegment, Commands.parseSegment, tokenize, Commands.tokenize, stripWrappers_posix]
    rfl
  have parsed : (posix platform).parseShellSegments (posixLibrary isWord) command =
      Commands.parseShellSegments isWord command := by
    simp only [parseShellSegments, Commands.parseShellSegments, segment]
    rfl
  have decided :
      (fun segment : CommandSegment => (posix platform).decideCommand
        (posixLibrary isWord) policy segment.argv) =
      fun segment => Commands.decideCommand platform policy segment.argv :=
    funext fun segment => decideCommand_posix isWord platform policy segment.argv
  rewrite [decideShellCommand, Commands.decideShellCommand, parsed, decided]
  cases Commands.parseShellSegments isWord command with
  | error raised => rfl
  | ok segments => rfl

end Posix

variable {lib : Library} {target : Target}

theorem size_shlexSplit_le {source : Text} {tokens : List Text} (ran : target.shlexSplit source = .ok tokens) :
    size tokens ≤ source.length := by
  cases target with
  | windows =>
    apply VerbatimWords.size_split_le
    rw [shlexSplit] at ran
    cases words : VerbatimWords.split source with
    | error raised =>
      rw [words] at ran
      cases ran
    | ok tokens =>
      rw [words] at ran
      cases ran
      rfl
  | posix platform => exact size_split_le (shlexSplit_ok_iff.1 ran)

end Target

end OpenSquilla.Commands
