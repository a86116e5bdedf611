import OpenSquilla.Shared.JsonReader

set_option autoImplicit false

namespace OpenSquilla.Transport

open TextLines TextScan JsonText

abbrev Bytes := List UInt8

def snapshotSegmentBytes : Nat := 192 * 1024

def captureMaxNodes : Nat := 250000

-- the depth that `freeze_json` allows
def captureMaxDepth : Nat := 128

def stringChars : Nat := 16 * 1024

inductive TransferCode
  | snapshotTooLarge
  | snapshotStale
  | snapshotBusy
  deriving DecidableEq

inductive EncodingError
  | transfer (code : TransferCode)
  | unicodeEncodeError
  | valueError
  deriving DecidableEq

section Freezing

variable {F : Type}

/-- What `freeze_json` is given: a mapping with keys that may be no strings, and values of other types. -/
inductive Value (F : Type)
  | scalar (value : Scalar F)
  -- a list or a tuple
  | list (items : List (Value F))
  | dict (items : List (Option Str × Value F))
  -- another type, or a float that is not finite
  | other

structure Counters where
  nodes : Nat
  minimumBytes : Nat

def weight : Scalar F → Nat
  | .str points => points.length
  | _ => 1

def enter (maxBytes depth weight : Nat) (counters : Counters) : Except TransferCode Counters :=
  let counters := ⟨counters.nodes + 1, counters.minimumBytes + weight⟩
  if captureMaxNodes < counters.nodes || maxBytes < counters.minimumBytes || captureMaxDepth < depth then
    throw .snapshotTooLarge
  else return counters

mutual

-- `visit`. The frozen tree has tuples for its arrays, `_Object` for its objects.
def visit (maxBytes : Nat) : Value F → Nat → Counters → Except TransferCode (Json F × Counters)
  | .scalar value, depth, counters => do
    let counters ← enter maxBytes depth (weight value) counters
    return (.scalar value, counters)
  | .dict items, depth, counters => do
    let counters ← enter maxBytes depth 1 counters
    let (pairs, counters) ← visitPairs maxBytes items (depth + 1) counters
    return (.object pairs, counters)
  | .list items, depth, counters => do
    let counters ← enter maxBytes depth 1 counters
    let (items, counters) ← visitItems maxBytes items (depth + 1) counters
    return (.array items, counters)
  | .other, depth, counters => do
    let _ ← enter maxBytes depth 1 counters
    throw .snapshotStale

def visitPairs (maxBytes : Nat) :
    List (Option Str × Value F) → Nat → Counters → Except TransferCode (List (Str × Json F) × Counters)
  | [], _, counters => return ([], counters)
  | (none, _) :: _, _, _ => throw .snapshotStale
  | (some key, child) :: rest, depth, counters => do
    let counters ← enter maxBytes depth key.length counters
    let (child, counters) ← visit maxBytes child depth counters
    let (pairs, counters) ← visitPairs maxBytes rest depth counters
    return ((key, child) :: pairs, counters)

def visitItems (maxBytes : Nat) : List (Value F) → Nat → Counters →
    Except TransferCode (List (Json F) × Counters)
  | [], _, counters => return ([], counters)
  | child :: rest, depth, counters => do
    let (child, counters) ← visit maxBytes child depth counters
    let (items, counters) ← visitItems maxBytes rest depth counters
    return (child :: items, counters)

end

def freezeJson (value : Value F) (maxBytes : Nat) : Except TransferCode (Json F) := do
  let (frozen, _) ← visit maxBytes value 0 ⟨0, 0⟩
  return frozen

end Freezing

section Chunks

variable {F : Type} (floats : Floats F)

abbrev Chunk := Except EncodingError Bytes

def encodeUtf8 : Str → Chunk
  | [] => return []
  | .char c :: rest => do
    let bytes ← encodeUtf8 rest
    return String.utf8EncodeChar c ++ bytes
  | .surrogate _ :: _ => throw .unicodeEncodeError

def dumpsFragment (points : Str) : Str :=
  points.flatMap fun
    | .char c => (escapeChar c).map .char
    | .surrogate offset => [.surrogate offset]

def fragments (points : Str) : List Str :=
  (List.range ((points.length + stringChars - 1) / stringChars)).map fun index =>
    (points.drop (index * stringChars)).take stringChars

def mark (c : Char) : Chunk := return String.utf8EncodeChar c

def stringChunks (points : Str) : List Chunk :=
  mark '"' :: ((fragments points).map fun fragment => encodeUtf8 (dumpsFragment fragment)) ++ [mark '"']

def dumpsPlain (value : Scalar F) : Chunk := return (value.text floats).flatMap String.utf8EncodeChar

def scalarChunks : Scalar F → List Chunk
  | .str points => stringChunks points
  | .int value =>
    [if maxStrDigits < (Nat.toDigits 10 value.natAbs).length then throw .valueError else
      dumpsPlain floats (.int value)]
  | value => [dumpsPlain floats value]

mutual

def jsonChunks : Json F → List Chunk
  | .object fields => mark '\x7b' :: fieldChunks 0 fields ++ [mark '\x7d']
  | .array items => mark '[' :: itemChunks 0 items ++ [mark ']']
  | .scalar value => scalarChunks floats value

def fieldChunks : Nat → List (Str × Json F) → List Chunk
  | _, [] => []
  | index, (key, item) :: rest =>
    (if index ≠ 0 then [mark ','] else []) ++ (stringChunks key ++ mark ':' :: jsonChunks item) ++
      fieldChunks (index + 1) rest

def itemChunks : Nat → List (Json F) → List Chunk
  | _, [] => []
  | index, item :: rest =>
    (if index ≠ 0 then [mark ','] else []) ++ jsonChunks item ++ itemChunks (index + 1) rest

end

end Chunks

structure Hooks where
  isCurrent : Nat → Bool
  onBytes : Nat → Nat → Except EncodingError Unit

def Hooks.default : Hooks where
  isCurrent _ := true
  onBytes _ _ := return

structure Buffers where
  segments : List Bytes
  pending : Bytes
  size : Nat

-- The inner loop, which takes at most as many steps as there are bytes.
def cutSegments : Nat → List Bytes → Bytes → List Bytes × Bytes
  | 0, segments, pending => (segments, pending)
  | fuel + 1, segments, pending =>
    if snapshotSegmentBytes ≤ pending.length then
      cutSegments fuel (segments ++ [pending.take snapshotSegmentBytes]) (pending.drop snapshotSegmentBytes)
    else (segments, pending)

def encodeChunks (hooks : Hooks) (maxBytes : Nat) :
    Nat → List Chunk → Buffers → Except EncodingError (List Bytes)
  | _, [], buffers =>
      return if buffers.pending = [] then buffers.segments else buffers.segments ++ [buffers.pending]
  | index, chunk :: rest, buffers => do
    let chunk ← chunk
    if hooks.isCurrent index = false then throw (.transfer .snapshotStale)
    let size := buffers.size + chunk.length
    if maxBytes < size then throw (.transfer .snapshotTooLarge)
    hooks.onBytes index chunk.length
    let pending := buffers.pending ++ chunk
    let (segments, pending) := cutSegments pending.length buffers.segments pending
    encodeChunks hooks maxBytes (index + 1) rest ⟨segments, pending, size⟩

def encodeSegments {F : Type} (floats : Floats F) (hooks : Hooks) (maxBytes : Nat) (frozen : Json F) :
    Except EncodingError (List Bytes) :=
  encodeChunks hooks maxBytes 0 (jsonChunks floats frozen) ⟨[], [], 0⟩

end OpenSquilla.Transport
