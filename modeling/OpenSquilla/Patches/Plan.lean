import OpenSquilla.Patches.Hunk
import OpenSquilla.Shared.FileTree

set_option autoImplicit false

namespace OpenSquilla.Patches

open TextLines

-- How texts are stored in files. What was written is read back.
structure Codec (Bytes : Type) where
  encode : Text → Option Bytes
  decode : Bytes → Option Text
  exact : ∀ text bytes, encode text = some bytes → decode bytes = some text

inductive PatchOperation
  | applyPatchAdd
  | applyPatchUpdate
  | applyPatchDelete
  deriving DecidableEq

structure PlannedPatchWrite where
  path : Text
  resolved : FilePath
  afterContent : Option Text
  operation : PatchOperation
  deriving DecidableEq

inductive PathState
  | file
  | dir
  | absent

-- The content of the paths that earlier operations touched.
abbrev VirtualContent := FilePath → Option (Option Text)

abbrev PathStates := FilePath → Option PathState

structure PatchCounts where
  added : Nat := 0
  modified : Nat := 0
  deleted : Nat := 0

section Model

variable {Bytes : Type} (codec : Codec Bytes)

-- resolution depends on the root, the sandbox and the symbolic links, which no operation changes
variable (validatePath : Text → Except PatchError FilePath)

def readText (tree : FileTree Bytes) (path : FilePath) : Except PatchError Text :=
  match tree.node path with
  | none => .error .fileNotFound
  | some .dir => .error .isADirectory
  | some (.file bytes) =>
    match codec.decode bytes with
    | none => .error .unreadable
    | some text => .ok text

def planAdd (disk : FileTree Bytes) (path content : Text) (resolved : FilePath) :
    Except PatchError PlannedPatchWrite :=
  if disk.present resolved then .error (.targetExists path)
  else .ok { path, resolved, afterContent := some content, operation := .applyPatchAdd }

def planUpdate (disk : FileTree Bytes) (path : Text) (hunks : List Hunk) (resolved : FilePath) :
    Except PatchError PlannedPatchWrite := do
  if !disk.present resolved then throw (.noFileToUpdate path)
  let text ← readText codec disk resolved
  let updated ← applyUpdateContent text hunks
  return { path, resolved, afterContent := some updated, operation := .applyPatchUpdate }

def planDelete (disk : FileTree Bytes) (path : Text) (resolved : FilePath) :
    Except PatchError PlannedPatchWrite :=
  if disk.present resolved then
    .ok { path, resolved, afterContent := none, operation := .applyPatchDelete }
  else .error (.noFileToDelete path)

/-- An operation on a path that an earlier one touched sees the content planned for it. -/
def planTouched (currentContent : Option Text) (op : PatchOp) (resolved : FilePath) :
    Except PatchError PlannedPatchWrite :=
  match op, currentContent with
  | .addFile path _, some _ => .error (.targetExists path)
  | .addFile path content, none =>
    .ok { path, resolved, afterContent := some content, operation := .applyPatchAdd }
  | .updateFile path _, none => .error (.noFileToUpdate path)
  | .updateFile path hunks, some current => do
    let updated ← applyUpdateContent current hunks
    return { path, resolved, afterContent := some updated, operation := .applyPatchUpdate }
  | .deleteFile path, none => .error (.noFileToDelete path)
  | .deleteFile path, some _ =>
    .ok { path, resolved, afterContent := none, operation := .applyPatchDelete }

def planOp (disk : FileTree Bytes) (virtualContent : VirtualContent) (op : PatchOp) :
    Except PatchError PlannedPatchWrite := do
  let resolved ← validatePath op.path
  match virtualContent resolved with
  | some currentContent => planTouched currentContent op resolved
  | none =>
    match op with
    | .addFile path content => planAdd disk path content resolved
    | .updateFile path hunks => planUpdate codec disk path hunks resolved
    | .deleteFile path => planDelete disk path resolved

def planFrom (disk : FileTree Bytes) : VirtualContent → List PatchOp →
    Except PatchError (List PlannedPatchWrite)
  | _, [] => .ok []
  | virtualContent, op :: rest => do
    let item ← planOp codec validatePath disk virtualContent op
    let planned ← planFrom disk
      (Function.update virtualContent item.resolved (some item.afterContent)) rest
    return item :: planned

def planOps (disk : FileTree Bytes) (ops : List PatchOp) : Except PatchError (List PlannedPatchWrite) :=
  planFrom codec validatePath disk (fun _ => none) ops

def pathAncestors (path : FilePath) : List FilePath := path.tails.reverse

def preflightAncestors (disk : FileTree Bytes) : List FilePath → PathStates → Except PatchError PathStates
  | [], states => .ok states
  | ancestor :: rest, states =>
    match states ancestor with
    | some .file => .error .fileExists
    | some .dir => preflightAncestors disk rest states
    | some .absent => preflightAncestors disk rest (Function.update states ancestor (some .dir))
    | none =>
      if disk.present ancestor && !disk.isDir ancestor then .error .fileExists
      else preflightAncestors disk rest (Function.update states ancestor (some .dir))

def preflightWriteParent (disk : FileTree Bytes) (path : FilePath) (states : PathStates) :
    Except PatchError PathStates :=
  preflightAncestors disk (pathAncestors path.tail) states

def preflightDelete (disk : FileTree Bytes) (states : PathStates) (path : FilePath) :
    Except PatchError PathStates :=
  match states path with
  | none =>
    if !disk.present path then .error .fileNotFound
    else if disk.isDir path then .error .isADirectory
    else .ok (Function.update states path (some .absent))
  | some .absent => .error .fileNotFound
  | some .dir => .error .isADirectory
  | some .file => .ok (Function.update states path (some .absent))

def preflightWrite (disk : FileTree Bytes) (states : PathStates) (path : FilePath) (text : Text) :
    Except PatchError PathStates :=
  match codec.encode text with
  | none => .error .unencodable
  | some _ => do
    let states ← preflightWriteParent disk path states
    match states path with
    | some .dir => .error .isADirectory
    | none =>
      if disk.isDir path then .error .isADirectory
      else return Function.update states path (some .file)
    | some _ => return Function.update states path (some .file)

def preflightItem (disk : FileTree Bytes) (states : PathStates) (item : PlannedPatchWrite) :
    Except PatchError PathStates :=
  match item.afterContent with
  | none => preflightDelete disk states item.resolved
  | some text => preflightWrite codec disk states item.resolved text

def preflightFrom (disk : FileTree Bytes) : PathStates → List PlannedPatchWrite → Except PatchError PathStates
  | states, [] => .ok states
  | states, item :: rest => do preflightFrom disk (← preflightItem codec disk states item) rest

def preflightPlannedWrites (disk : FileTree Bytes) (planned : List PlannedPatchWrite) :
    Except PatchError Unit :=
  (preflightFrom codec disk (fun _ => none) planned).map (fun _ => ())

def removeFile (tree : FileTree Bytes) (path : FilePath) : Except PatchError (FileTree Bytes) :=
  match tree.unlink path with
  | some tree => .ok tree
  | none => .error (if tree.present path then .isADirectory else .fileNotFound)

def writeFile (tree : FileTree Bytes) (path : FilePath) (text : Text) : Except PatchError (FileTree Bytes) :=
  match tree.makeDirs path.tail with
  | none => .error .fileExists
  | some tree =>
    match codec.encode text with
    | none => .error .unencodable
    | some bytes =>
      match tree.write bytes path with
      | none => .error .isADirectory
      | some tree => .ok tree

def commitItem (tree : FileTree Bytes) (item : PlannedPatchWrite) : Except PatchError (FileTree Bytes) :=
  match item.afterContent with
  | none => removeFile tree item.resolved
  | some text => writeFile codec tree item.resolved text

def PatchCounts.record (counts : PatchCounts) (item : PlannedPatchWrite) : PatchCounts :=
  match item.afterContent, item.operation with
  | none, _ => { counts with deleted := counts.deleted + 1 }
  | some _, .applyPatchAdd => { counts with added := counts.added + 1 }
  | some _, _ => { counts with modified := counts.modified + 1 }

-- The loop that writes. An error leaves what was written before it.
def commitFrom : FileTree Bytes → PatchCounts → List PlannedPatchWrite →
    FileTree Bytes × Except PatchError PatchCounts
  | tree, counts, [] => (tree, .ok counts)
  | tree, counts, item :: rest =>
    match commitItem codec tree item with
    | .error raised => (tree, .error raised)
    | .ok tree => commitFrom tree (counts.record item) rest

def commitPlannedWrites (disk : FileTree Bytes) (planned : List PlannedPatchWrite) :
    FileTree Bytes × Except PatchError PatchCounts :=
  match preflightPlannedWrites codec disk planned with
  | .error raised => (disk, .error raised)
  | .ok () => commitFrom codec disk {} planned

def applyOps (disk : FileTree Bytes) (ops : List PatchOp) :
    FileTree Bytes × Except PatchError (PatchCounts × List PlannedPatchWrite) :=
  match planOps codec validatePath disk ops with
  | .error raised => (disk, .error raised)
  | .ok planned =>
    ((commitPlannedWrites codec disk planned).1,
      (commitPlannedWrites codec disk planned).2.map (·, planned))

-- What one operation means for the files, whatever was planned before.
def applyOp (tree : FileTree Bytes) (op : PatchOp) : Except PatchError (FileTree Bytes) := do
  let path ← validatePath op.path
  match op, tree.node path with
  | .addFile named _, some _ => .error (.targetExists named)
  | .addFile _ content, none => writeFile codec tree path content
  | .updateFile named _, none => .error (.noFileToUpdate named)
  | .updateFile _ hunks, some _ =>
    let text ← readText codec tree path
    let updated ← applyUpdateContent text hunks
    writeFile codec tree path updated
  | .deleteFile named, none => .error (.noFileToDelete named)
  | .deleteFile _, some _ => removeFile tree path

def applyEach : FileTree Bytes → List PatchOp → Except PatchError (FileTree Bytes)
  | tree, [] => .ok tree
  | tree, op :: rest => do applyEach (← applyOp codec validatePath tree op) rest

end Model

end OpenSquilla.Patches
