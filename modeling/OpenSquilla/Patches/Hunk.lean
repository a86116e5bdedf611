import Mathlib.Data.List.DropRight
import Mathlib.Data.List.Sort
import OpenSquilla.Shared.TextLines

set_option autoImplicit false

namespace OpenSquilla.Patches

open TextLines

structure Hunk where
  oldStart : Nat
  oldCount : Nat
  newStart : Nat
  newCount : Nat
  -- each line keeps its mark: ' ', '-' or '+'
  lines : List Text := []
  deriving DecidableEq

inductive PatchOp
  | addFile (path content : Text)
  | updateFile (path : Text) (hunks : List Hunk)
  | deleteFile (path : Text)
  deriving DecidableEq

def PatchOp.path : PatchOp → Text
  | .addFile path _ => path
  | .updateFile path _ => path
  | .deleteFile path => path

-- What a call is refused for, with the values its message shows.
inductive PatchError
  | noBeginPatch
  | noEndPatch
  | noHunks (path : Text)
  | noOperations
  | invalidHunkHeader
  | startsOutside (line : Nat)
  | exceedsLength (line : Nat)
  | contextMismatch (line : Nat) (expected got : Text)
  | oldCountMismatch (declared found : Nat)
  | ambiguous (first second : Nat)
  | overlap (line : Nat)
  | targetExists (path : Text)
  | noFileToUpdate (path : Text)
  | noFileToDelete (path : Text)
  | invalidPath (path : Text)
  | unreadable
  | unencodable
  | fileExists
  | fileNotFound
  | isADirectory
  deriving DecidableEq

def rstrip (strips : Char → Bool) (text : Text) : Text := text.rdropWhile strips

def rstripNewline (text : Text) : Text := rstrip (fun c => c = '\r' || c = '\n') text

def matchLine (actual expected : Text) : Bool :=
  actual = expected ||
    rstrip (fun c => c = ' ' || c = '\t') (rstripNewline actual) =
      rstrip (fun c => c = ' ' || c = '\t') (rstripNewline expected)

def isOldLine : Text → Bool
  | mark :: _ => mark = ' ' || mark = '-'
  | [] => false

-- The loop over the lines of a hunk, at a position of the file.
def verifyLines (fileLines : List Text) : Nat → List Text → Option PatchError
  | _, [] => none
  | checkPos, raw :: rest =>
    if isOldLine raw then
      match fileLines[checkPos]? with
      | none => some (.exceedsLength (checkPos + 1))
      | some actual =>
        if matchLine actual raw.tail then verifyLines fileLines (checkPos + 1) rest
        else
          some (.contextMismatch (checkPos + 1) (rstrip (· = '\n') raw.tail) (rstrip (· = '\n') actual))
    else verifyLines fileLines checkPos rest

def hunkVerifyError (fileLines : List Text) (pos : Nat) (hunk : Hunk) : Option PatchError :=
  if fileLines.length < pos then some (.startsOutside (pos + 1))
  else verifyLines fileLines pos hunk.lines

def findUnique (fileLines : List Text) (hunk : Hunk) : List Nat → Option Nat → Except PatchError (Option Nat)
  | [], found => .ok found
  | candidate :: rest, found =>
    if (hunkVerifyError fileLines candidate hunk).isSome then findUnique fileLines hunk rest found
    else
      match found with
      | some first => .error (.ambiguous (first + 1) (candidate + 1))
      | none => findUnique fileLines hunk rest (some candidate)

def relocateHunk (fileLines : List Text) (hunk : Hunk) : Except PatchError Nat :=
  let oldCount := hunk.lines.countP isOldLine
  if oldCount ≠ hunk.oldCount then .error (.oldCountMismatch hunk.oldCount oldCount)
  else
    let declared := hunk.oldStart - 1
    match hunkVerifyError fileLines declared hunk with
    | none => .ok declared
    | some error =>
      -- an insertion has no content anchor
      if oldCount = 0 then .error error
      else
        match findUnique fileLines hunk (List.range (fileLines.length + 1 - oldCount)) none with
        | .error ambiguous => .error ambiguous
        | .ok none => .error error
        | .ok (some found) => .ok found

def addedLine (content : Text) : Text :=
  if content.getLast? = some '\n' then content else content ++ ['\n']

def newLines (result : List Text) : Nat → List Text → List Text
  | _, [] => []
  | srcPos, raw :: rest =>
    match raw with
    | [] => newLines result srcPos rest
    | mark :: content =>
      if mark = ' ' then result.getD srcPos [] :: newLines result (srcPos + 1) rest
      else if mark = '-' then newLines result (srcPos + 1) rest
      else if mark = '+' then addedLine content :: newLines result srcPos rest
      else newLines result srcPos rest

def applyHunk (fileLines : List Text) (hunk : Hunk) (pos : Nat) : List Text :=
  fileLines.take pos ++ newLines fileLines pos hunk.lines ++ fileLines.drop (pos + hunk.oldCount)

abbrev PlannedHunk := Nat × Hunk

def relocateHunks (fileLines : List Text) : List Hunk → Except PatchError (List PlannedHunk)
  | [] => .ok []
  | hunk :: rest =>
    match relocateHunk fileLines hunk with
    | .error raised => .error raised
    | .ok pos => (relocateHunks fileLines rest).map ((pos, hunk) :: ·)

def resolveHunks (fileLines : List Text) (hunks : List Hunk) : Except PatchError (List PlannedHunk) :=
  (relocateHunks fileLines hunks).map
    (List.insertionSort (fun first second => first.1 ≤ second.1))

def checkOverlap : Int → Nat → List PlannedHunk → Except PatchError Unit
  | _, _, [] => .ok ()
  | previousPos, previousEnd, (pos, hunk) :: rest =>
    if pos < previousEnd ∨ (pos : Int) = previousPos then .error (.overlap (pos + 1))
    else checkOverlap pos (pos + hunk.oldCount) rest

def applyUpdateContent (content : Text) (hunks : List Hunk) : Except PatchError Text := do
  let lines := splitKeepends content
  let planned ← resolveHunks lines hunks
  checkOverlap (-1) 0 planned
  return (planned.reverse.foldl (fun lines item => applyHunk lines item.2 item.1) lines).flatten

section Anchors

variable {fileLines : List Text} {hunk : Hunk} {pos : Nat}

theorem verifyLines_fits {lines : List Text} {checkPos : Nat} (inside : checkPos ≤ fileLines.length)
    (fits : verifyLines fileLines checkPos lines = none) :
    checkPos + lines.countP isOldLine ≤ fileLines.length := by
  induction lines generalizing checkPos with
  | nil => simpa using inside
  | cons raw rest ih =>
    unfold verifyLines at fits
    rw [List.countP_cons]
    split at fits
    next old =>
      split at fits
      · cases fits
      next actual found =>
        have here := (List.getElem?_eq_some_iff.mp found).1
        split at fits
        · have tail := ih here fits
          rw [if_pos old]
          omega
        · cases fits
    next new =>
      have tail := ih inside fits
      rw [if_neg new]
      omega

theorem hunkVerifyError_fits (fits : hunkVerifyError fileLines pos hunk = none) :
    pos + hunk.lines.countP isOldLine ≤ fileLines.length := by
  unfold hunkVerifyError at fits
  split at fits
  · cases fits
  next inside => exact verifyLines_fits (Nat.le_of_not_lt inside) fits

theorem findUnique_fits {candidates : List Nat} {found : Option Nat}
    (known : ∀ first, found = some first → hunkVerifyError fileLines first hunk = none)
    (unique : findUnique fileLines hunk candidates found = .ok (some pos)) :
    hunkVerifyError fileLines pos hunk = none := by
  induction candidates generalizing found with
  | nil => exact known pos (Except.ok.inj unique)
  | cons candidate rest ih =>
    unfold findUnique at unique
    split at unique
    · exact ih known unique
    next fits =>
      split at unique
      · cases unique
      · refine ih (fun first same => ?_) unique
        obtain rfl := Option.some.inj same
        simpa using fits

/-- A resolved position is one where the hunk fits, and its old lines are as many as declared. -/
theorem relocateHunk_fits (resolved : relocateHunk fileLines hunk = .ok pos) :
    hunkVerifyError fileLines pos hunk = none ∧ hunk.lines.countP isOldLine = hunk.oldCount := by
  unfold relocateHunk at resolved
  dsimp only at resolved
  split at resolved
  · cases resolved
  next counted =>
    refine ⟨?_, not_not.mp counted⟩
    split at resolved
    next fits => exact Except.ok.inj resolved ▸ fits
    next =>
      split at resolved
      · cases resolved
      · split at resolved
        next => cases resolved
        next => cases resolved
        next found unique =>
          rw [← Except.ok.inj resolved]
          exact findUnique_fits (by nofun) unique

theorem relocateHunk_inside (resolved : relocateHunk fileLines hunk = .ok pos) :
    pos + hunk.oldCount ≤ fileLines.length := by
  obtain ⟨fits, counted⟩ := relocateHunk_fits resolved
  rw [← counted]
  exact hunkVerifyError_fits fits

end Anchors

end OpenSquilla.Patches
