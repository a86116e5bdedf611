import OpenSquilla.Commands.HereDocuments

set_option autoImplicit false

-- How a shell reads the lines of a script, as far as it matters for the bodies of its here-documents.

namespace OpenSquilla.Commands

open TextLines TextScan

def HereDocument.endsAt (document : HereDocument) (line : Text) : Prop :=
  (if document.stripTabs then line.dropWhile (· = '\t') else line) = document.delimiter

instance (document : HereDocument) (line : Text) : Decidable (document.endsAt line) :=
  inferInstanceAs (Decidable (_ = _))

-- What can be open around a character.
inductive Opened
  | single
  -- `$'`
  | escapes
  | double
  -- `$(`, `<(` and `>(`
  | command
  | backquote
  -- `${`
  | parameter
  -- the inner parenthesis of `$((` and `((`, and one within it
  | arithmetic
  | inner
  -- `$[`
  | bracket
  | group
  -- from `case` to `esac`
  | choice
  deriving DecidableEq

structure ShellState where
  -- the innermost first
  opened : List Opened := []
  wordStart : Bool := true
  commandStart : Bool := true
  comment : Bool := false
  escaped : Bool := false
  -- characters that are read already
  skip : Nat := 0
  -- the operators since the last bodies, and what is open around each
  waiting : List (HereDocument × List Opened) := []
  -- the documents whose bodies are read next
  bodies : List HereDocument := []

def isMeta (c : Char) : Bool := [' ', '\t', ';', '&', '|', '(', ')', '<', '>'].contains c

/-- A word without its quotes, and what is behind it, unless it goes on behind the line. -/
def shellWord : Option Char → Text → Option (Text × Text)
  | none, [] => some ([], [])
  | some _, [] => none
  | some '\'', c :: rest =>
    if c = '\'' then shellWord none rest else (shellWord (some '\'') rest).map (Prod.map (c :: ·) id)
  | none, '\\' :: c :: rest => (shellWord none rest).map (Prod.map (c :: ·) id)
  | some quote, '\\' :: c :: rest =>
    (shellWord (some quote) rest).map
      (Prod.map ((if ['$', '`', '"', '\\'].contains c then [c] else ['\\', c]) ++ ·) id)
  | some quote, c :: rest =>
    if c = quote then shellWord none rest else (shellWord (some quote) rest).map (Prod.map (c :: ·) id)
  | none, c :: rest =>
    if isMeta c then some ([], c :: rest)
    else if c = '\'' || c = '"' then shellWord (some c) rest
    else (shellWord none rest).map (Prod.map (c :: ·) id)

-- The document of an operator by what is behind `<<`, and how long that is.
def shellDocument (text : Text) : Option (HereDocument × Nat) :=
  let stripTabs := text.head? = some '-'
  let word := (if stripTabs then text.tail else text).dropWhile fun c => c = ' ' || c = '\t'
  if word.head?.all isMeta then none
  else (shellWord none word).map fun (delimiter, left) => (⟨delimiter, stripTabs⟩, text.length - left.length)

-- Behind these words a command starts.
def commandFollows (word : Text) : Bool :=
  ["if", "then", "elif", "else", "while", "until", "do", "!", "\x7b"].contains (String.ofList word)

-- Two parentheses are closed together: no parenthesis is closed alone behind them, within so many others.
def closesTwice : Nat → Text → Bool
  | depth, '(' :: rest => closesTwice (depth + 1) rest
  | 0, ')' :: rest => rest.head? = some ')'
  | depth + 1, ')' :: rest => closesTwice depth rest
  | depth, _ :: rest => closesTwice depth rest
  | _, [] => true

namespace ShellState

def opens (shell : ShellState) (what : List Opened) (skip : Nat) : ShellState :=
  { shell with opened := what ++ shell.opened, wordStart := true, commandStart := true, skip := skip }

def closes (shell : ShellState) (count : Nat) (skip : Nat) : ShellState :=
  { shell with opened := shell.opened.drop count, wordStart := false, commandStart := false, skip := skip }

def readWord (shell : ShellState) (word : Text) : ShellState :=
  if shell.commandStart && word = ['c', 'a', 's', 'e'] then
    { shell.opens [.choice] 3 with wordStart := false, commandStart := false }
  else if shell.commandStart && word = ['e', 's', 'a', 'c'] && shell.opened.head? = some .choice then
      shell.closes 1 3
  else
    { shell with
      wordStart := false
      commandStart := shell.commandStart && commandFollows word ||
        word = ['i', 'n'] && shell.opened.head? = some .choice }

def readPlain (shell : ShellState) (c : Char) (rest : Text) : ShellState :=
  if shell.wordStart && ['(', '('].isPrefixOf (c :: rest) then
    if closesTwice 0 rest.tail then shell.opens [.arithmetic, .group] 1 else shell.opens [.group, .group] 1
  else if ['<', '('].isPrefixOf (c :: rest) || ['>', '('].isPrefixOf (c :: rest) then shell.opens [.command] 1
  else if c = '(' then shell.opens [.group] 0
  else if c = ')' then
    if shell.opened.head? = some .command then shell.closes 1 0
    -- the one behind a pattern of `case` closes nothing
    else { shell.opens [] 0 with
            opened := if shell.opened.head? = some .group then shell.opened.tail else shell.opened }
  else if c = '#' && shell.wordStart then { shell with comment := true }
  else if c = '\'' then shell.opens [.single] 0
  else if ['$', '\''].isPrefixOf (c :: rest) then shell.opens [.escapes] 1
  else if c = '"' then shell.opens [.double] 0
  else if ['<', '<', '<'].isPrefixOf (c :: rest) then
      { shell with wordStart := true, commandStart := false, skip := 2 }
  else if ['<', '<'].isPrefixOf (c :: rest) then
    match shellDocument rest.tail with
    | some (document, length) =>
      { shell.closes 0 (length + 1) with waiting := shell.waiting ++ [(document, shell.opened)] }
    | none => { shell with wordStart := true, commandStart := false, skip := 1 }
  else if isMeta c then
    { shell with
      wordStart := true
      commandStart := [';', '&', '|'].contains c || (c = ' ' || c = '\t') && shell.commandStart }
  else if shell.wordStart then shell.readWord ((c :: rest).takeWhile fun c => !isMeta c)
  else shell

def readOpened (shell : ShellState) (c : Char) (rest : Text) : ShellState :=
  if ['$', '(', '('].isPrefixOf (c :: rest) && closesTwice 0 (rest.drop 2) then
      shell.opens [.arithmetic, .command] 2
  else if ['$', '('].isPrefixOf (c :: rest) then shell.opens [.command] 1
  else if ['$', '['].isPrefixOf (c :: rest) then shell.opens [.bracket] 1
  else if ['$', '\x7b'].isPrefixOf (c :: rest) then shell.opens [.parameter] 1
  else
    match shell.opened.head? with
    | some .double => if c = '"' then shell.closes 1 0 else shell
    | some .parameter =>
      if c = '\x7d' then shell.closes 1 0
      else if c = '"' then shell.opens [.double] 0
      else if c = '\'' then shell.opens [.single] 0
      else if ['$', '\''].isPrefixOf (c :: rest) then shell.opens [.escapes] 1
      else shell
    | some .arithmetic =>
      if c = '(' then shell.opens [.inner] 0
      else if [')', ')'].isPrefixOf (c :: rest) then shell.closes 2 1
      -- a subshell after all
      else if c = ')' then shell.closes 1 0
      else shell
    | some .inner => if c = '(' then shell.opens [.inner] 0 else if c = ')' then shell.closes 1 0 else shell
    | some .bracket => if c = '[' then shell.opens [.bracket] 0 else if c = ']' then shell.closes 1 0 else shell
    | _ => shell.readPlain c rest

def read (shell : ShellState) (c : Char) (rest : Text) : ShellState :=
  if shell.escaped then { shell.closes 0 0 with escaped := false }
  else if c = '`' && .backquote ∈ shell.opened then
    -- whatever is open within it
    { shell.closes ((shell.opened.takeWhile (· ≠ .backquote)).length + 1) 0 with
      comment := false
      waiting := shell.waiting.filter (.backquote ∉ ·.2) }
  else if shell.comment then shell
  else
    match shell.skip, shell.opened.head? with
    | skip + 1, _ => { shell with skip := skip }
    | 0, some .single => if c = '\'' then shell.closes 1 0 else shell
    | 0, some .escapes =>
      if c = '\\' then { shell with escaped := true } else if c = '\'' then shell.closes 1 0 else shell
    | 0, _ =>
      if c = '\\' then { shell with escaped := true }
      else if c = '`' then shell.opens [.backquote] 0
      else shell.readOpened c rest

def readLine : ShellState → Text → ShellState
  | shell, [] => shell
  | shell, c :: rest => readLine (shell.read c rest) rest

-- A newline ends a command here, and is no part of a quotation or an expansion.
def endsCommands (shell : ShellState) : Bool :=
  !shell.escaped && match shell.opened.head? with
    | none | some .command | some .backquote | some .group | some .choice => true
    | _ => false

-- Subshells read the bodies of the operators before them, substitutions do not.
def substitutions (opened : List Opened) : List Opened := opened.filter fun what => what ≠ .group ∧
    what ≠ .choice

def newline (shell : ShellState) : ShellState :=
  if shell.endsCommands then
    let read := fun document : HereDocument × List Opened =>
      (substitutions shell.opened).isSuffixOf (substitutions document.2)
    { shell.opens [] 0 with
      comment := false
      waiting := shell.waiting.filter (!read ·)
      bodies := (shell.waiting.filter read).map Prod.fst }
  else { shell with escaped := false }

-- A backquote ends the substitution, and with it the body.
def leavesBody (shell : ShellState) (line : Text) : Prop := .backquote ∈ shell.opened ∧ '`' ∈ line

instance (shell : ShellState) (line : Text) : Decidable (shell.leavesBody line) :=
  inferInstanceAs (Decidable (_ ∧ _))

-- The document that a line belongs to, as one of its body or as its delimiter.
def body (shell : ShellState) (line : Text) : Option HereDocument :=
  if shell.leavesBody line then none else shell.bodies.head?

def line (shell : ShellState) (line : Text) : ShellState :=
  match shell.bodies with
  | [] => (shell.readLine line).newline
  | document :: later =>
    if shell.leavesBody line then ({ shell with bodies := [] }.readLine (line.dropWhile (· ≠ '`'))).newline
    else { shell with bodies := if document.endsAt line then later else document :: later }

end ShellState

end OpenSquilla.Commands
