import OpenSquilla.Shared.JsonReader
import OpenSquilla.Shared.BoundedTail

set_option autoImplicit false

namespace OpenSquilla.Previews

open TextLines JsonText BoundedTail

def previewContentLimit : Nat := 65536

def previewPathLimit : Nat := 4096

inductive FileTool
  | writeFile
  | executeCode
  deriving DecidableEq

def FileTool.name : FileTool → Text
  | .writeFile => "write_file".toList
  | .executeCode => "execute_code".toList

def FileTool.contentKey : FileTool → Text
  | .writeFile => "content".toList
  | .executeCode => "code".toList

inductive Role
  | skip
  | key
  | content
  | path
  deriving DecidableEq

structure ContentStore (C : Type) where
  clear : C
  push : C → Char → C

structure PartialFileInput (C : Type) where
  toolName : FileTool
  path : Text
  content : C
  contentChars : Nat
  contentComplete : Bool
  pathComplete : Bool
  depth : Int
  expectKey : Bool
  key : Text
  inString : Bool
  role : Role
  token : Text
  tokenOverflow : Bool
  escape : Option Str
  highSurrogate : Option (Fin 2048)

def isHighSurrogate (offset : Fin 2048) : Bool := offset.val < 1024

def pairOf (high low : Fin 2048) : Char := Char.ofNat (0x10000 + high.val * 0x400 + (low.val - 1024))

def PartialFileInput.tokenLimit : Role → Nat
  | .path => previewPathLimit
  | _ => 128

def loadsEscape : Str → Option CodePoint
  | [.char 'u', .char a, .char b, .char c, .char d] => (hexCode [a, b, c, d]).map pointOf
  | [.char mark] => (backslashes.lookup mark).map .char
  | _ => none

namespace PartialFileInput

variable {C : Type} (store : ContentStore C)

def initial (toolName : FileTool) : PartialFileInput C where
  toolName
  path := []
  content := store.clear
  contentChars := 0
  contentComplete := false
  pathComplete := false
  depth := 0
  expectKey := false
  key := []
  inString := false
  role := .skip
  token := []
  tokenOverflow := false
  escape := none
  highSurrogate := none

def takeChar (input : PartialFileInput C) (c : Char) : PartialFileInput C :=
  match input.role with
  | .content => { input with content := store.push input.content c, contentChars := input.contentChars + 1 }
  | .path | .key =>
    if input.token.length < tokenLimit input.role then { input with token := input.token ++ [c] }
    else { input with tokenOverflow := true }
  | .skip => input

def decoded (input : PartialFileInput C) (point : CodePoint) : PartialFileInput C :=
  match point, input.highSurrogate with
  | .char c, _ => takeChar store { input with highSurrogate := none } c
  | .surrogate offset, pending =>
    if isHighSurrogate offset then { input with highSurrogate := some offset }
    else
      match pending with
      | some high => takeChar store { input with highSurrogate := none } (pairOf high offset)
      | none => input

def closeString (input : PartialFileInput C) : PartialFileInput C :=
  let input := { input with inString := false, highSurrogate := none }
  match input.role with
  | .key => { input with key := if input.tokenOverflow then [] else input.token, expectKey := false }
  | .path =>
      { input with pathComplete := !input.tokenOverflow, path := if input.tokenOverflow then [] else
        input.token }
  | .content => { input with contentComplete := true }
  | .skip => input

def stringRole (input : PartialFileInput C) : Role :=
  if input.depth = 1 ∧ input.expectKey = true then .key
  else if input.depth = 1 ∧ input.key = input.toolName.contentKey then .content
  else if input.depth = 1 ∧ input.key = "path".toList ∧ input.toolName = .writeFile then .path
  else .skip

def openString (input : PartialFileInput C) : PartialFileInput C :=
  let input := { input with inString := true, token := [], tokenOverflow := false, role := stringRole input }
  match input.role with
  | .path => { input with pathComplete := false }
  | .content => { input with content := store.clear, contentChars := 0, contentComplete := false }
  | .key | .skip => input

def readEscape (input : PartialFileInput C) (escape : Str) : PartialFileInput C :=
  if escape.head? = some (.char 'u') ∧ escape.length < 5 then { input with escape := some escape }
  else
    let input :=
      match loadsEscape escape with
      | some point => decoded store input point
      | none => input
    { input with escape := none }

def readPoint (input : PartialFileInput C) (point : CodePoint) : PartialFileInput C :=
  if input.inString then
    match input.escape with
    | some escape => readEscape store input (escape ++ [point])
    | none =>
      if point = .char '\\' then { input with escape := some [] }
      else if point = .char '"' then closeString input
      else decoded store input point
  else if point = .char '"' then openString store input
  else if point = .char '\x7b' ∨ point = .char '[' then
    { input with
      depth := input.depth + 1
      expectKey := if input.depth + 1 = 1 then decide (point = .char '\x7b') else input.expectKey }
  else if point = .char '\x7d' ∨ point = .char ']' then { input with depth := input.depth - 1 }
  else if point = .char ',' ∧ input.depth = 1 then { input with expectKey := true, key := [] }
  else input

end PartialFileInput

-- The content that is shown, and what a fragment has added to it so far.
structure Kept where
  content : Text
  appended : Text

def keptStore (limit : Nat) : ContentStore Kept where
  clear := ⟨[], []⟩
  push kept c := { kept with appended := lastOf limit (kept.appended ++ [c]) }

def PartialFileInput.feedUpTo (limit : Nat) (input : PartialFileInput Kept) (fragment : Str) :
    PartialFileInput Kept :=
  let read := fragment.foldl (readPoint (keptStore limit)) { input with content := ⟨input.content.content, []⟩ }
  let kept := read.content
  { read with content := ⟨if kept.appended ≠ [] then lastOf limit (kept.content ++ kept.appended) else
    kept.content, []⟩ }

def PartialFileInput.feed : PartialFileInput Kept → Str → PartialFileInput Kept := feedUpTo previewContentLimit

end OpenSquilla.Previews
