import Mathlib.Data.List.Sort
import OpenSquilla.Sandbox.Paths
import OpenSquilla.Shared.DeepestRule
import OpenSquilla.Shared.Dict

set_option autoImplicit false

-- A rule covers what its spellings cover, and a later declaration of a spelling takes the place of
-- an earlier one. The deepest rules that cover a path decide, the most restrictive of them first.

namespace OpenSquilla.Sandbox

open TextLines

inductive FileSystemAccess
  | deny
  | read
  | write
  deriving DecidableEq

namespace FileSystemAccess

-- the constructors stand from the most restrictive on
instance : LinearOrder FileSystemAccess := LinearOrder.lift' FileSystemAccess.ctorIdx (by
  intro one other same
  cases one <;> cases other <;> first | rfl | cases same)

theorem deny_le (access : FileSystemAccess) : deny ≤ access := Nat.zero_le _

theorem le_write (access : FileSystemAccess) : access ≤ write := by
  cases access <;> decide

theorem le_deny_iff {access : FileSystemAccess} : access ≤ deny ↔ access = deny := by
  cases access <;> decide

end FileSystemAccess

structure FileSystemPermissionEntry where
  path : PurePath
  access : FileSystemAccess
  logicalPath : Option PurePath := none

def FileSystemPermissionEntry.lexicalPath (entry : FileSystemPermissionEntry) : PurePath :=
  entry.logicalPath.getD entry.path

structure FileSystemPermissionProfile where
  entries : List FileSystemPermissionEntry
  deniedReadGlobs : List Text := []
  defaultAccess : FileSystemAccess := .deny

abbrev PathKey := PathFlavour × Text

abbrev Spelling := PathKey × PathKey

abbrev Identity := PathKey × PathKey × FileSystemAccess

namespace FileSystem

variable (fs : FileSystem)

def normalizedEntry (entry : FileSystemPermissionEntry) : FileSystemPermissionEntry :=
  let logical := fs.logicalAbsolutePath entry.lexicalPath
  let canonical := fs.logicalAbsolutePath entry.path
  { path := canonical
    access := entry.access
    logicalPath :=
      if entry.logicalPath.isSome || fs.canonicalKey logical ≠ fs.canonicalKey canonical then
          some logical else none }

def spelling (entry : FileSystemPermissionEntry) : Spelling :=
  (fs.canonicalKey entry.lexicalPath, fs.canonicalKey entry.path)

def identity (entry : FileSystemPermissionEntry) : Identity :=
  (fs.canonicalKey entry.lexicalPath, fs.canonicalKey entry.path, entry.access)

-- The spellings of a write rule whose frozen path still is where it was.
def writeEntryPathVariants (entry : FileSystemPermissionEntry) : List PurePath :=
  let currentFrozen := fs.currentPlatformCanonical entry.path
  let currentLogical := fs.currentPlatformCanonical entry.lexicalPath
  if fs.canonicalKey currentFrozen ≠ fs.canonicalKey entry.path then []
  else if fs.canonicalKey currentLogical = fs.canonicalKey entry.path then
    fs.deduplicatePaths [entry.lexicalPath, entry.path]
  else fs.deduplicatePaths [entry.path]

-- The spellings of a rule, those of its current targets among them.
def currentPathVariants (entry : FileSystemPermissionEntry) : List PurePath :=
  fs.deduplicatePaths
    [entry.lexicalPath, entry.path, fs.canonical entry.lexicalPath, fs.canonical entry.path]

def entryPathVariants (entry : FileSystemPermissionEntry) : List PurePath :=
  let normalized := fs.normalizedEntry entry
  if normalized.access = .write then fs.writeEntryPathVariants normalized
  else fs.currentPathVariants normalized

end FileSystem

namespace FileSystemPermissionProfile

variable (fs : FileSystem)

-- The declarations so far, by identity, and the identity that each spelling has.
structure Declarations where
  count : Nat := 0
  finalByIdentity : Dict Identity (Nat × FileSystemPermissionEntry) := Dict.empty
  identityBySpelling : Dict Spelling Identity := Dict.empty

def Declarations.declare (declared : Declarations) (entry : FileSystemPermissionEntry) : Declarations :=
  let normalized := fs.normalizedEntry entry
  let kept := match declared.identityBySpelling.get? (fs.spelling normalized) with
    | some prior => declared.finalByIdentity.erase prior
    | none => declared.finalByIdentity
  { count := declared.count + 1
    finalByIdentity := kept.set (fs.identity normalized) (declared.count, normalized)
    identityBySpelling := declared.identityBySpelling.set (fs.spelling normalized) (fs.identity normalized) }

def effectiveEntries (profile : FileSystemPermissionProfile) : List FileSystemPermissionEntry :=
  let declared := profile.entries.foldl (Declarations.declare fs) {}
  (declared.finalByIdentity.values.insertionSort (fun one other => one.1 ≤ other.1)).map Prod.snd

/-- Each root of an effective rule that covers the candidate, with its depth and the access. -/
def coveringRules (profile : FileSystemPermissionProfile) (candidate : PurePath) :
    List (Nat × FileSystemAccess) :=
  (profile.effectiveEntries fs).flatMap (fun entry =>
    ((fs.entryPathVariants entry).filter (fun root => fs.isRelativeTo candidate root)).map
      (fun root => (root.parts.length, entry.access)))

def winningRule (profile : FileSystemPermissionProfile) (candidate : PurePath) : FileSystemAccess × Bool :=
  let found := profile.coveringRules fs candidate
  (DeepestRule.winner profile.defaultAccess found, !found.isEmpty)

def matchesDeniedGlob (profile : FileSystemPermissionProfile) (candidates : List PurePath) : Bool :=
  candidates.any (fun candidate => profile.deniedReadGlobs.any (fs.matchesDeniedReadGlob candidate))

def resolve (profile : FileSystemPermissionProfile) (path : PurePath) : FileSystemAccess :=
  let candidates := fs.pathVariants path
  if profile.matchesDeniedGlob fs candidates then .deny
  else DeepestRule.least (candidates.map (fun candidate => (profile.winningRule fs candidate).1)) .deny

def asReadOnly (profile : FileSystemPermissionProfile) : FileSystemPermissionProfile where
  entries := profile.entries.map (fun entry =>
    { entry with access := if entry.access = .deny then .deny else .read })
  deniedReadGlobs := profile.deniedReadGlobs
  defaultAccess := if profile.defaultAccess = .write then .read else profile.defaultAccess

end FileSystemPermissionProfile

end OpenSquilla.Sandbox
