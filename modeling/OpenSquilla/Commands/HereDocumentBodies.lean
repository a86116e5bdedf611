import OpenSquilla.Commands.ShellLines

set_option autoImplicit false

-- `strip_shell_heredoc_bodies` starts removing with the line behind an operator. A shell may still
-- read a command
-- there, or no operator before.

namespace OpenSquilla.Commands

open TextLines TextScan

variable (isWord : Char → Bool)

-- The lines that `strip_shell_heredoc_bodies` leaves out, each for the document that is pending.
def removedLines : List HereDocument → Option Char → List Char → List Text → List (Option HereDocument)
  | _, _, _, [] => []
  | document :: pending, quote, arithmeticClosers, line :: rest =>
    some document :: removedLines (if document.endsAt line then pending else
      document :: pending) quote arithmeticClosers rest
  | [], quote, arithmeticClosers, line :: rest =>
    let state := (LineState.start quote arithmeticClosers).readLine isWord line
    none :: removedLines state.delimiters state.quote state.arithmeticClosers rest

def removed (command : Text) : List (Option HereDocument) := removedLines isWord [] none [] (splitFeeds command)

def linesBehind (document : HereDocument) (lines : List Text) : List Text :=
  (lines.dropWhile (¬document.endsAt ·)).tail

-- The documents that lines are removed for.
def reached : List HereDocument → List Text → List HereDocument
  | document :: later, line :: rest => document :: reached later (linesBehind document (line :: rest))
  | _, _ => []

/-- Where an operator is recognised the shell ends the command with the line and has the documents first among
those whose bodies it reads then. It stays within a body to the delimiter. -/
def OperatorsAgree : List HereDocument → Option Char → List Char → ShellState → List Text → Prop
  | _, _, _, _, [] => True
  | document :: pending, quote, arithmeticClosers, shell, line :: rest =>
    ¬shell.leavesBody line ∧ OperatorsAgree (if document.endsAt line then pending else
      document :: pending) quote arithmeticClosers (shell.line line) rest
  | [], quote, arithmeticClosers, shell, line :: rest =>
    let state := (LineState.start quote arithmeticClosers).readLine isWord line
    reached state.delimiters rest <+: (shell.line line).bodies ∧
      OperatorsAgree state.delimiters state.quote state.arithmeticClosers (shell.line line) rest

instance decidableOperatorsAgree : ∀ (pending : List HereDocument) (quote : Option Char)
    (arithmeticClosers : List Char) (shell : ShellState) (lines : List Text),
    Decidable (OperatorsAgree isWord pending quote arithmeticClosers shell lines)
  | _, _, _, _, [] => isTrue (by simp only [OperatorsAgree])
  | _ :: _, _, _, _, _ :: _ => @instDecidableAnd _ _ inferInstance (decidableOperatorsAgree _ _ _ _ _)
  | [], _, _, _, _ :: _ => @instDecidableAnd _ _ inferInstance (decidableOperatorsAgree _ _ _ _ _)

variable {isWord}

end OpenSquilla.Commands
