import Mathlib.Data.List.DropRight
import OpenSquilla.Shared.TextLines

set_option autoImplicit false

namespace OpenSquilla.Sandbox

open TextLines

inductive PathFlavour
  | posix
  | windows
  deriving DecidableEq

structure PurePath where
  flavour : PathFlavour := .posix
  -- an instance of `Path`
  concrete : Bool := true
  drive : Text := []
  root : Text := ['/']
  tail : List Text
  deriving DecidableEq

/-- The state of the host, as long as one evaluation lasts, with the case tables of Unicode. -/
structure FileSystem where
  host : PathFlavour
  lower : Text → Text
  casefold : Text → Text
  -- `os.path.abspath` of the path with its user expanded
  absolute : PurePath → PurePath
  -- `path.expanduser().resolve(strict=False)`
  resolved : PurePath → PurePath
  expandUser : Text → Text
  parse : PathFlavour → Text → PurePath

namespace PurePath

def anchor (path : PurePath) : Text := path.drive ++ path.root

def parts (path : PurePath) : List Text := (if path.anchor = [] then [] else [path.anchor]) ++ path.tail

def separator (path : PurePath) : Char := if path.flavour = .windows then '\\' else '/'

def str (path : PurePath) : Text :=
  let text := path.anchor ++ (path.tail.intersperse [path.separator]).flatten
  if text = [] then ['.'] else text

def toSlashes (text : Text) : Text := text.map (fun c => if c = '\\' then '/' else c)

def asPosix (path : PurePath) : Text := if path.flavour = .windows then toSlashes path.str else path.str

end PurePath

namespace FileSystem

variable (fs : FileSystem)

def normcase (path : PurePath) : Text := if path.flavour = .windows then fs.lower path.str else path.str

def withSegments (flavour : PathFlavour) (other : PurePath) : PurePath :=
  if other.flavour = flavour then other
  else fs.parse flavour (if flavour = .posix then PurePath.toSlashes other.str else other.str)

def isRelativeTo (path root : PurePath) : Bool :=
  let other := fs.withSegments path.flavour root
  other.flavour = path.flavour && (List.range (path.tail.length + 1)).any (fun k =>
    fs.normcase { path with tail := path.tail.take k } = fs.normcase other)

def canonical (path : PurePath) : PurePath := if path.concrete then fs.resolved path else path

def logicalAbsolutePath (path : PurePath) : PurePath := if path.concrete then fs.absolute path else path

def currentPlatformCanonical (path : PurePath) : PurePath :=
  if path.concrete then fs.canonical path
  else if path.flavour = fs.host then fs.canonical { path with concrete := true }
  else path

def canonicalKey (path : PurePath) : PathFlavour × Text :=
  if path.flavour = .windows then (.windows, fs.casefold path.asPosix) else (.posix, path.asPosix)

def deduplicatePaths (paths : List PurePath) : List PurePath :=
  paths.foldl (fun unique path =>
    if fs.canonicalKey path ∈ unique.map fs.canonicalKey then unique else unique ++ [path]) []

def pathVariants (path : PurePath) : List PurePath :=
  let logical := fs.logicalAbsolutePath path
  fs.deduplicatePaths [logical, fs.canonical logical]

end FileSystem

inductive GlobItem
  | any
  | one
  | literal (c : Char)
  | set (negated : Bool) (ranges : List (Char × Char))

def readRanges : Text → List (Char × Char)
  | low :: '-' :: high :: rest => (low, high) :: readRanges rest
  | c :: rest => (c, c) :: readRanges rest
  | [] => []

/-- The set behind an opening bracket. A closing bracket right at its front belongs to it. -/
def readSet (text : Text) : Option (GlobItem × Text) :=
  let (negated, body) := match text with
    | '!' :: rest => (true, rest)
    | rest => (false, rest)
  let (front, rest) := match body with
    | ']' :: rest => ([']'], rest)
    | rest => ([], rest)
  if rest.contains ']' then
    some (.set negated (readRanges (front ++ rest.takeWhile (· ≠ ']'))), (rest.dropWhile (· ≠ ']')).drop 1)
  else none

-- the fuel is the length of the pattern, of which each step reads something
def translateFrom : Nat → Text → List GlobItem
  | 0, _ | _, [] => []
  | fuel + 1, c :: rest =>
    if c = '*' then .any :: translateFrom fuel rest
    else if c = '?' then .one :: translateFrom fuel rest
    else if c = '[' then
      match readSet rest with
      | some (item, behind) => item :: translateFrom fuel behind
      | none => .literal '[' :: translateFrom fuel rest
    else .literal c :: translateFrom fuel rest

def translate (pattern : Text) : List GlobItem := translateFrom pattern.length pattern

def GlobItem.holds : GlobItem → Char → Bool
  | .any, _ | .one, _ => true
  | .literal expected, c => c = expected
  | .set negated ranges, c => negated != ranges.any (fun range => range.1 ≤ c && c ≤ range.2)

def matchItems : List GlobItem → Text → Bool
  | [], text => text.isEmpty
  | .any :: items, text => text.tails.any (matchItems items)
  | _ :: _, [] => false
  | item :: items, c :: rest => item.holds c && matchItems items rest

def fnmatchcase (name pattern : Text) : Bool := matchItems (translate pattern) name

def isWildcard (part : Text) : Bool := part.any (fun c => c = '*' || c = '?' || c = '[')

-- The pattern with its front, up to the first wildcard, resolved.
def FileSystem.canonicalGlob (fs : FileSystem) (pattern : Text) : Text :=
  let expanded := fs.expandUser pattern
  let path : PurePath := { fs.parse fs.host expanded with concrete := true }
  let plain := path.parts.takeWhile (fun part => !isWildcard part)
  if plain = [] then PurePath.toSlashes expanded
  else
    let front :=
      fs.resolved { path with tail := path.tail.take (plain.length - if path.anchor = [] then 0 else 1) }
    if plain = path.parts then front.asPosix
    else front.asPosix.rdropWhile (· = '/') ++ ['/'] ++
        ((path.parts.drop plain.length).intersperse ['/']).flatten

def FileSystem.matchesDeniedReadGlob (fs : FileSystem) (candidate : PurePath) (pattern : Text) : Bool :=
  if candidate.flavour = .windows then
    fnmatchcase (fs.casefold candidate.asPosix) (fs.casefold (fs.canonicalGlob pattern))
  else fnmatchcase candidate.asPosix (fs.canonicalGlob pattern)

end OpenSquilla.Sandbox
