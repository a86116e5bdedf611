import OpenSquilla.Commands.HereDocuments
import OpenSquilla.Shared.RaisingRuns

set_option autoImplicit false

namespace OpenSquilla.Commands

open TextLines TextScan ShellWords
open RaisingRuns (raiseIf)

inductive Platform
  | darwin
  | linux

inductive CommandAction
  | auto
  | approval
  | deny
  deriving DecidableEq

inductive SystemTools
  | auto
  | prompt
  | disabled
  deriving DecidableEq

structure CommandPolicy where
  requireApprovalPrefixes : List (List Text) := []
  autoAllowPrefixes : List (List Text) := []
  systemTools : SystemTools := .auto

structure CommandSegment where
  source : Text
  argv : List Text
  deriving DecidableEq

structure CommandDecision where
  action : CommandAction
  code : String
  argv : List Text := []
  matchedPrefix : List Text := []
  deriving DecidableEq

inductive Raised
  | valueError (message : String)
  deriving DecidableEq

def pathName (path : Text) : Text :=
  ((path.splitOn '/').filter (fun part => part ≠ [] && part ≠ ['.'])).getLast?.getD []

def normalizeExecutable (value : Text) : Text := pathName (value.map (fun c => if c = '\\' then '/' else c))

def normalizeArgv (argv : List Text) : List Text :=
  match argv.filter (· ≠ []) with
  | [] => []
  | executable :: rest => normalizeExecutable executable :: rest

/-- `str.casefold`, as far as a comparison with an ASCII flag without an `s` can see it. -/
def casefold (text : Text) : Text :=
  text.map (fun c => if c = Char.ofNat 0x212A then 'k' else c.toLower)

def shlexSplit (source : Text) : Except Raised (List Text) :=
  match split source with
  | .ok tokens => .ok tokens
  | .error .noClosingQuotation => .error (.valueError "No closing quotation")
  | .error .noEscapedCharacter => .error (.valueError "No escaped character")

-- The argument after the first of the flags that has one after it.
def commandAfter (isFlag : Text → Bool) : List Text → Option Text
  | token :: next :: rest => if isFlag token then some next else commandAfter isFlag (next :: rest)
  | _ => none

inductive Unwrapped
  | bare
  | onward (argv : List Text)
  | command (source : Text)
  deriving DecidableEq

def orBare (command : Option Text) : Unwrapped := command.elim .bare .command

def unwrapOnce : List Text → Unwrapped
  | [] => .bare
  | first :: rest =>
    let executable := normalizeExecutable first
    if executable ∈ ["env".toList, "sudo".toList] then
      .onward (rest.dropWhile (fun token => token.head? = some '-' || token.contains '='))
    else if executable = "cmd".toList then
      match rest with
      | flag :: source :: _ =>
        if casefold flag ∈ ["/c".toList, "/k".toList] then .command source else .bare
      | _ => .bare
    else if executable ∈ ["powershell".toList, "pwsh".toList] then
      orBare (commandAfter (fun token => casefold token ∈ ["-c".toList, "-command".toList]) rest)
    else if executable ∈ ["bash".toList, "sh".toList, "zsh".toList, "fish".toList] then
      orBare (commandAfter (fun token => token ∈ ["-c".toList, "-lc".toList]) rest)
    else .bare

-- Each pass leaves less text, so that the passes are counted by a bound on it.
def stripWrappers : Nat → List Text → Except Raised (List Text)
  | 0, argv => .ok argv
  | passes + 1, argv =>
    match unwrapOnce argv with
    | .bare => .ok argv
    | .onward rest => stripWrappers passes rest
    | .command source => do stripWrappers passes (← shlexSplit source)

def tokenize (source : Text) : Except Raised (List Text) := do
  let tokens ← shlexSplit source
  stripWrappers (size tokens + 1) tokens

def isBoundary (c : Char) : Bool := [';', '&', '|', '\n'].contains c

def keepSegment (segment : Text) : List Text := if strip segment = [] then [] else [strip segment]

/-- The loop of `_split_segments`. What it reads as `&&` or `||` is two boundaries with nothing between. -/
def splitFrom : Option Char → Bool → Text → Text → Except Raised (List Text)
  | quote, _, segment, [] =>
    if quote.isSome then .error (.valueError "unbalanced shell quote") else .ok (keepSegment segment)
  | quote, true, segment, c :: rest => splitFrom quote false (segment ++ [c]) rest
  | some quote, false, segment, c :: rest =>
    if c = '\\' && quote ≠ '\'' then splitFrom (some quote) true (segment ++ [c]) rest
    else splitFrom (if c = quote then none else some quote) false (segment ++ [c]) rest
  | none, false, segment, c :: rest =>
    if c = '\\' then splitFrom none true (segment ++ [c]) rest
    else if c = '\'' || c = '"' then splitFrom (some c) false (segment ++ [c]) rest
    else if isBoundary c then (splitFrom none false [] rest).map (keepSegment segment ++ ·)
    else splitFrom none false (segment ++ [c]) rest

def parseSegment (source : Text) : Except Raised CommandSegment := do
  let argv ← tokenize source
  raiseIf (argv = []) (.valueError "empty shell command segment")
  return { source := source, argv := argv }

-- `\w` of the regular expressions
variable (isWord : Char → Bool)

def splitSegments (command : Text) : Except Raised (List Text) :=
  splitFrom none false [] (stripShellHeredocBodies isWord command)

def parseShellSegments (command : Text) : Except Raised (List CommandSegment) := do
  let sources ← splitSegments isWord command
  let parsed ← sources.mapM parseSegment
  raiseIf (parsed = []) (.valueError "empty shell command")
  return parsed

def isUnsafeRuleToken (token : Text) : Bool :=
  ['&', '&'] <:+: token ||
    token.any (fun c => [';', '|', '<', '>', Char.ofNat 96, '$', '(', ')', '\r', '\n'].contains c)

def validateCommandPrefix (rule : List Text) : Except Raised (List Text) := do
  let cleaned := rule.map strip
  raiseIf (cleaned = [] ∨ [] ∈ cleaned) (.valueError "command prefix requires non-empty tokens")
  raiseIf (cleaned.any isUnsafeRuleToken = true)
    (.valueError "command prefix may not contain shell control operators")
  return cleaned

def matchesPrefix (argv rule : List Text) : Except Raised Bool := do
  let normalized := normalizeArgv (← validateCommandPrefix rule)
  return (normalizeArgv argv).take normalized.length = normalized

def bestPrefix (argv : List Text) (rules : List (List Text)) : Except Raised (List Text) := do
  let found ← rules.filterM (matchesPrefix argv)
  return found.foldl (fun best rule => if best.length < rule.length then rule else best) []

def systemToolNames : Platform → List Text
  | .darwin => ["launchctl".toList, "crontab".toList, "sudo".toList]
  | .linux => ["systemctl".toList, "crontab".toList, "sudo".toList]

def isSystemTool (platform : Platform) : List Text → Bool
  | [] => false
  | executable :: _ => (systemToolNames platform).contains (normalizeExecutable executable)

def isGitPush (tokens : List Text) : Bool := (normalizeArgv tokens).take 2 = ["git".toList, "push".toList]

def builtinDecision (platform : Platform) (policy : CommandPolicy) (tokens : List Text) : CommandDecision :=
  if isSystemTool platform tokens && policy.systemTools = .disabled then
    { action := .deny, code := "system_tool_disabled", argv := tokens }
  else if isSystemTool platform tokens && policy.systemTools = .prompt then
    { action := .approval, code := "system_tool_prompt", argv := tokens }
  else if isGitPush tokens then { action := .approval, code := "builtin_git_push", argv := tokens }
  else { action := .auto, code := "default_auto", argv := tokens }

def parseFailed : CommandDecision where
  action := .approval
  code := "command_parse_failed"

def decideTokens (platform : Platform) (policy : CommandPolicy) (tokens : List Text) :
    Except Raised CommandDecision := do
  let auto ← bestPrefix tokens policy.autoAllowPrefixes
  if auto ≠ [] then
    return { action := .auto, code := "user_auto_allow", argv := tokens, matchedPrefix := auto }
  else
    let approval ← bestPrefix tokens policy.requireApprovalPrefixes
    if approval ≠ [] then
      return { action := .approval, code := "user_approval_prefix", argv := tokens, matchedPrefix := approval }
    else return builtinDecision platform policy tokens

def decideCommand (platform : Platform) (policy : CommandPolicy) (argv : List Text) :
    Except Raised CommandDecision := do
  let tokens ← stripWrappers (size argv + 1) argv
  if tokens = [] then return parseFailed else decideTokens platform policy tokens

-- The first decision that denies, else the first that asks for approval.
def strictest (decisions : List CommandDecision) : CommandDecision :=
  ((decisions.find? (fun decision => decision.action = .deny)).or
    (decisions.find? (fun decision => decision.action = .approval))).getD
      { action := .auto, code := "default_auto" }

def decideShellCommand (platform : Platform) (policy : CommandPolicy) (command : Text) :
    Except Raised CommandDecision :=
  match parseShellSegments isWord command with
  | .error _ => .ok parseFailed
  | .ok segments => do
    let decisions ← segments.mapM (fun segment => decideCommand platform policy segment.argv)
    return strictest decisions

end OpenSquilla.Commands
