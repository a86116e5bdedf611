import Mathlib.Algebra.Order.BigOperators.Group.List
import Mathlib.Algebra.Order.Ring.Nat
import OpenSquilla.Transport.SnapshotEncoding
import OpenSquilla.Shared.RaisingRuns

set_option autoImplicit false

namespace OpenSquilla.Transport

open TextLines TextScan JsonText RaisingRuns

section Pieces

variable {F : Type} (floats : Floats F)

inductive Piece (F : Type)
  | mark (c : Char)
  | fragment (points : Str)
  | plain (value : Scalar F)

namespace Piece

def text : Piece F → Text
  | mark c => [c]
  | fragment points => escaped points
  | plain value => value.text floats

def bytes (piece : Piece F) : Bytes := (piece.text floats).flatMap String.utf8EncodeChar

-- No lone surrogate, and no more digits than Python writes.
def Encodable : Piece F → Prop
  | mark _ => True
  | fragment points => IsText points
  | plain (.int value) => (Nat.toDigits 10 value.natAbs).length ≤ maxStrDigits
  | plain _ => True

def chunk : Piece F → Chunk
  | mark c => Transport.mark c
  | fragment points => encodeUtf8 (dumpsFragment points)
  | plain (.int value) =>
    if maxStrDigits < (Nat.toDigits 10 value.natAbs).length then throw .valueError else
        dumpsPlain floats (.int value)
  | plain value => dumpsPlain floats value

end Piece

def stringPieces (points : Str) : List (Piece F) := .mark '"' :: (fragments points).map .fragment ++ [.mark '"']

def scalarPieces : Scalar F → List (Piece F)
  | .str points => stringPieces points
  | value => [.plain value]

def pieces : Json F → List (Piece F) :=
  Json.fold scalarPieces (fun items => .mark '[' :: [.mark ','].intercalate items ++ [.mark ']'])
    (fun fields => .mark '\x7b' ::
      [.mark ','].intercalate (fields.map fun field => stringPieces field.1 ++ .mark ':' :: field.2) ++
        [.mark '\x7d'])

theorem pieces_array (items : List (Json F)) :
    pieces (.array items) = .mark '[' :: [.mark ','].intercalate (items.map pieces) ++ [.mark ']'] := by
  rw [pieces, fold_array]

theorem pieces_object (fields : List (Str × Json F)) : pieces (.object fields) =
    .mark '\x7b' :: [.mark ','].intercalate (fields.map fun field =>
      stringPieces field.1 ++ .mark ':' :: pieces field.2) ++
      [.mark '\x7d'] := by
  rw [pieces, fold_object, List.map_map]
  rfl

def compactSize (json : Json F) : Nat := ((json.text floats).flatMap String.utf8EncodeChar).length

end Pieces

theorem flatMap_range_take {α : Type*} (text : List α) (size count : Nat) :
    (List.range count).flatMap (fun index => (text.drop (index * size)).take size) =
      text.take (count * size) := by
  induction count with
  | zero => simp
  | succ count ih =>
    rw [List.range_succ, List.flatMap_append, ih, List.flatMap_singleton, Nat.succ_mul, List.take_add]

theorem flatten_fragments (points : Str) : (fragments points).flatten = points := by
  have whole := flatMap_range_take points stringChars ((points.length + stringChars - 1) / stringChars)
  rw [fragments, ← List.flatMap_def, whole, List.take_of_length_le]
  have size : stringChars = 16384 := rfl
  rw [size]
  omega

section ChunkLaws

variable {F : Type} {floats : Floats F}

theorem encodeUtf8_chars (chars : Text) (rest : Str) :
    encodeUtf8 (chars.map .char ++ rest) = (encodeUtf8 rest).map (chars.flatMap String.utf8EncodeChar ++ ·) := by
  induction chars with
  | nil =>
    rw [List.map_nil, List.nil_append]
    cases encodeUtf8 rest <;> rfl
  | cons c chars ih =>
    rw [List.map_cons, List.cons_append, encodeUtf8, ih]
    cases encodeUtf8 rest with
    | error raised => rfl
    | ok bytes => exact congrArg Except.ok (List.append_assoc _ _ _).symm

theorem encodeUtf8_fragment_text {points : Str} (text : IsText points) :
    encodeUtf8 (dumpsFragment points) = .ok ((escaped points).flatMap String.utf8EncodeChar) := by
  induction points with
  | nil => rfl
  | cons point points ih =>
    obtain ⟨⟨c, rfl⟩, later⟩ := List.forall_mem_cons.1 text
    have rest := ih later
    rw [dumpsFragment] at rest
    rw [dumpsFragment, List.flatMap_cons, encodeUtf8_chars, rest, escaped, escaped, List.flatMap_cons,
      List.flatMap_append]
    rfl

theorem encodeUtf8_fragment_surrogate {points : Str} (surrogates : ¬IsText points) :
    encodeUtf8 (dumpsFragment points) = .error .unicodeEncodeError := by
  induction points with
  | nil => exact absurd (List.forall_mem_nil _) surrogates
  | cons point points ih =>
    rw [dumpsFragment, List.flatMap_cons]
    cases point with
    | surrogate offset => rfl
    | char c =>
      have later : ¬IsText points := fun text => surrogates (List.forall_mem_cons.2 ⟨⟨c, rfl⟩, text⟩)
      have rest := ih later
      rw [dumpsFragment] at rest
      rw [encodeUtf8_chars, rest]
      rfl

theorem Piece.chunk_of_encodable {piece : Piece F} (encodable : piece.Encodable) :
    piece.chunk floats = .ok (piece.bytes floats) := by
  cases piece with
  | mark c => exact congrArg Except.ok (List.append_nil _).symm
  | fragment points => exact encodeUtf8_fragment_text encodable
  | plain value =>
    cases value with
    | int value =>
      rw [chunk, if_neg (Nat.not_lt.2 encodable)]
      rfl
    | null | bool | float | str => rfl

theorem Piece.chunk_of_unencodable (floats : Floats F) {piece : Piece F} (unencodable : ¬piece.Encodable) :
    ∃ raised, piece.chunk floats = .error raised ∧ raised ≠ .transfer .snapshotTooLarge := by
  cases piece with
  | mark c => exact absurd trivial unencodable
  | fragment points => exact ⟨_, encodeUtf8_fragment_surrogate unencodable, by decide⟩
  | plain value =>
    cases value with
    | int value =>
      refine ⟨.valueError, ?_, by decide⟩
      rw [chunk, if_pos (Nat.not_le.1 unencodable)]
      rfl
    | null | bool | float | str => exact absurd trivial unencodable

theorem stringChunks_eq (floats : Floats F) (points : Str) :
    stringChunks points = (stringPieces points).map (Piece.chunk floats) := by
  simp [stringChunks, stringPieces, Piece.chunk, Function.comp_def]

theorem scalarChunks_eq (value : Scalar F) :
    scalarChunks floats value = (scalarPieces value).map (Piece.chunk floats) := by
  cases value with
  | str points => exact stringChunks_eq floats points
  | null | bool | int | float => rfl

theorem map_intercalate {α β : Type*} (f : α → β) (mark : α) (lists : List (List α)) :
    ([mark].intercalate lists).map f = [f mark].intercalate (lists.map (List.map f)) := by
  cases lists with
  | nil => rfl
  | cons first rest =>
    rw [List.map_cons, intercalate_cons, intercalate_cons, List.map_append, List.map_flatMap, List.flatMap_map]
    rfl

theorem jsonChunks_eq (json : Json F) : jsonChunks floats json = (pieces json).map (Piece.chunk floats) := by
  induction json using Json.induct with
  | scalar value => exact scalarChunks_eq value
  | array items ih =>
    have behind : ∀ index items,
        (∀ item ∈ items, jsonChunks floats item = (pieces item).map (Piece.chunk floats)) →
        itemChunks floats (index + 1) items =
          items.flatMap fun item => mark ',' :: (pieces item).map (Piece.chunk floats) := by
      intro index items same
      induction items generalizing index with
      | nil => rfl
      | cons item items more =>
        obtain ⟨here, later⟩ := List.forall_mem_cons.1 same
        rw [itemChunks, more _ later, here, if_pos (Nat.succ_ne_zero _), List.flatMap_cons]
        rfl
    have whole :
        itemChunks floats 0 items = ([Piece.mark ','].intercalate (items.map pieces)).map
          (Piece.chunk floats) := by
      rw [map_intercalate]
      cases items with
      | nil => rfl
      | cons item items =>
        obtain ⟨here, later⟩ := List.forall_mem_cons.1 ih
        rw [itemChunks, behind _ _ later, here, List.map_cons, List.map_cons, intercalate_cons, List.map_map,
          List.flatMap_map]
        rfl
    rw [jsonChunks, pieces_array, whole, List.map_append]
    rfl
  | object fields ih =>
    have behind : ∀ index fields,
        (∀ field ∈ fields, jsonChunks floats field.2 = (pieces field.2).map (Piece.chunk floats)) →
        fieldChunks floats (index + 1) fields = fields.flatMap fun field =>
          mark ',' :: (stringPieces field.1 ++ Piece.mark ':' :: pieces field.2).map (Piece.chunk floats) := by
      intro index fields same
      induction fields generalizing index with
      | nil => rfl
      | cons field fields more =>
        obtain ⟨here, later⟩ := List.forall_mem_cons.1 same
        rw [fieldChunks, more _ later, here, if_pos (Nat.succ_ne_zero _), List.flatMap_cons,
          stringChunks_eq floats, List.map_append]
        rfl
    have whole : fieldChunks floats 0 fields =
        ([Piece.mark ','].intercalate (fields.map fun field =>
          stringPieces field.1 ++ .mark ':' :: pieces field.2)).map
          (Piece.chunk floats) := by
      rw [map_intercalate]
      cases fields with
      | nil => rfl
      | cons field fields =>
        obtain ⟨here, later⟩ := List.forall_mem_cons.1 ih
        rw [fieldChunks, behind _ _ later, here, List.map_cons, List.map_cons, intercalate_cons, List.map_map,
          List.flatMap_map, stringChunks_eq floats, List.map_append]
        rfl
    rw [jsonChunks, pieces_object, whole, List.map_append]
    rfl

end ChunkLaws

section Documents

variable {F : Type} {floats : Floats F}

theorem flatMap_intercalate {α β : Type*} (f : α → List β) {mark : α} {separator : β}
    (spelled : f mark = [separator]) (lists : List (List α)) :
    ([mark].intercalate lists).flatMap f = [separator].intercalate (lists.map (List.flatMap f)) := by
  cases lists with
  | nil => rfl
  | cons first rest =>
    rw [List.map_cons, intercalate_cons, intercalate_cons, List.flatMap_append, List.flatMap_assoc,
        List.flatMap_map]
    simp only [List.flatMap_cons, spelled, List.singleton_append]

theorem escaped_flatten (parts : List Str) : escaped parts.flatten = parts.flatMap escaped := by
  induction parts with
  | nil => rfl
  | cons part parts ih =>
    rw [escaped] at ih
    rw [List.flatten_cons, escaped, List.flatMap_append, ih, List.flatMap_cons]
    rfl

theorem flatMap_stringPieces (floats : Floats F) (points : Str) :
    (stringPieces points).flatMap (Piece.text floats) = quoted points := by
  have whole : ((fragments points).map .fragment).flatMap (Piece.text floats) = escaped points := by
    have fragment : (fragments points).flatMap escaped = escaped points := by
      rw [← escaped_flatten, flatten_fragments]
    rw [List.flatMap_map]
    exact fragment
  rw [stringPieces, List.cons_append, List.flatMap_cons, List.flatMap_append, whole]
  rfl

theorem flatMap_pieces (json : Json F) : (pieces json).flatMap (Piece.text floats) = json.text floats := by
  have comma : Piece.text floats (.mark ',') = [','] := rfl
  induction json using Json.induct with
  | scalar value =>
    cases value with
    | str points => exact flatMap_stringPieces floats points
    | null | bool | int | float => exact List.append_nil _
  | array items ih =>
    have same : (items.map pieces).map (List.flatMap (Piece.text floats)) = items.map (·.text floats) := by
      rw [List.map_map]
      exact List.map_congr_left ih
    rw [pieces_array, text_array, List.cons_append, List.flatMap_cons, List.flatMap_append,
      flatMap_intercalate _ comma, same]
    rfl
  | object fields ih =>
    have same : (fields.map fun field => stringPieces field.1 ++ .mark ':' :: pieces field.2).map
        (List.flatMap (Piece.text floats)) = fields.map fun field => quoted field.1 ++
          ':' :: field.2.text floats := by
      rw [List.map_map]
      refine List.map_congr_left fun field mem => ?_
      rw [Function.comp_apply, List.flatMap_append, flatMap_stringPieces, List.flatMap_cons, ih field mem]
      rfl
    rw [pieces_object, text_object, List.cons_append, List.flatMap_cons, List.flatMap_append,
      flatMap_intercalate _ comma, same]
    rfl

theorem flatMap_bytes (json : Json F) :
    (pieces json).flatMap (Piece.bytes floats) = (json.text floats).flatMap String.utf8EncodeChar := by
  rw [← flatMap_pieces, List.flatMap_assoc]
  rfl

theorem mem_intercalate_of_mem {α : Type*} {mark piece : α} {lists : List (List α)} {list : List α}
    (inside : list ∈ lists) (mem : piece ∈ list) : piece ∈ [mark].intercalate lists := by
  cases lists with
  | nil => cases inside
  | cons first rest =>
    rw [intercalate_cons, List.mem_append, List.mem_flatMap]
    obtain rfl | inside := List.mem_cons.1 inside
    · exact .inl mem
    · exact .inr ⟨list, inside, List.mem_cons_of_mem _ mem⟩

theorem isText_of_stringPieces {points : Str}
    (encodable : ∀ piece ∈ (stringPieces points : List (Piece F)), piece.Encodable) : IsText points := by
  intro point mem
  rw [← flatten_fragments points] at mem
  obtain ⟨fragment, inside, here⟩ := List.mem_flatten.1 mem
  have text := encodable (.fragment fragment) (by simp [stringPieces, inside])
  exact text point here

theorem isText_of_pieces {json : Json F} (encodable : ∀ piece ∈ pieces json, piece.Encodable) : json.IsText := by
  induction json using Json.induct with
  | scalar value =>
    cases value with
    | str points => exact isText_of_stringPieces encodable
    | null | bool | int | float => trivial
  | array items ih =>
    rw [pieces_array] at encodable
    refine isText_array.2 fun item mem => ih item mem fun piece inside => encodable piece ?_
    exact List.mem_append_left _
        (List.mem_cons_of_mem _ (mem_intercalate_of_mem (List.mem_map_of_mem mem) inside))
  | object fields ih =>
    rw [pieces_object] at encodable
    have here : ∀ field ∈ fields, ∀ piece ∈ stringPieces field.1 ++ .mark ':' :: pieces field.2,
        piece.Encodable := by
      intro field mem piece inside
      refine encodable piece (List.mem_append_left _ (List.mem_cons_of_mem _ (mem_intercalate_of_mem ?_ inside)))
      exact List.mem_map_of_mem (f := fun field => stringPieces field.1 ++ .mark ':' :: pieces field.2) mem
    refine isText_object.2 fun field mem => ⟨?_, ?_⟩
    · have key : ∀ piece ∈ (stringPieces field.1 : List (Piece F)), piece.Encodable :=
        fun piece inside => here field mem piece (List.mem_append_left _ inside)
      exact isText_of_stringPieces key
    · refine ih field mem fun piece inside => here field mem piece ?_
      exact List.mem_append_right _ (List.mem_cons_of_mem _ inside)

end Documents

section SegmentLaws

variable {F : Type} {floats : Floats F} {maxBytes : Nat}

def IsSegmented (segments : List Bytes) : Prop :=
  ∃ whole last, segments = whole ++ last ∧ (∀ segment ∈ whole, segment.length = snapshotSegmentBytes) ∧
    (last = [] ∨ ∃ rest, last = [rest] ∧ rest ≠ [] ∧ rest.length < snapshotSegmentBytes)

structure Buffers.Holds (buffers : Buffers) (bytes : Bytes) : Prop where
  whole : ∀ segment ∈ buffers.segments, segment.length = snapshotSegmentBytes
  short : buffers.pending.length < snapshotSegmentBytes
  size : buffers.size = bytes.length
  bytes : buffers.segments.flatten ++ buffers.pending = bytes

theorem cutSegments_holds {fuel : Nat} {segments : List Bytes} {pending : Bytes} (enough : pending.length ≤ fuel)
    (whole : ∀ segment ∈ segments, segment.length = snapshotSegmentBytes) :
    (∀ segment ∈ (cutSegments fuel segments pending).1, segment.length = snapshotSegmentBytes) ∧
      (cutSegments fuel segments pending).2.length < snapshotSegmentBytes ∧
      (cutSegments fuel segments pending).1.flatten ++ (cutSegments fuel segments pending).2 =
        segments.flatten ++ pending := by
  have positive : 0 < snapshotSegmentBytes := by decide
  induction fuel generalizing segments pending with
  | zero =>
    rw [cutSegments]
    exact ⟨whole, by dsimp only; omega, rfl⟩
  | succ fuel ih =>
    rw [cutSegments]
    split
    next long =>
      have cut : ∀ segment ∈ segments ++ [pending.take snapshotSegmentBytes],
          segment.length = snapshotSegmentBytes := by
        intro segment mem
        obtain mem | rfl := by simpa using mem
        · exact whole segment mem
        · rw [List.length_take]
          omega
      have rest : (pending.drop snapshotSegmentBytes).length ≤ fuel := by
        rw [List.length_drop]
        omega
      obtain ⟨each, short, same⟩ := ih rest cut
      refine ⟨each, short, same.trans ?_⟩
      rw [List.flatten_append, List.flatten_singleton, List.append_assoc, List.take_append_drop]
    next short => exact ⟨whole, Nat.not_le.1 short, rfl⟩

theorem Buffers.Holds.push {buffers : Buffers} {bytes : Bytes} (holds : buffers.Holds bytes) (chunk : Bytes) :
    Buffers.Holds ⟨(cutSegments (buffers.pending ++ chunk).length buffers.segments (buffers.pending ++ chunk)).1,
      (cutSegments (buffers.pending ++ chunk).length buffers.segments (buffers.pending ++ chunk)).2,
      buffers.size + chunk.length⟩ (bytes ++ chunk) := by
  obtain ⟨each, short, same⟩ := cutSegments_holds (Nat.le_refl (buffers.pending ++ chunk).length) holds.whole
  refine ⟨each, short, ?_, ?_⟩
  · dsimp only
    rw [List.length_append, holds.size]
  · dsimp only
    rw [same, ← List.append_assoc, holds.bytes]

theorem Buffers.Holds.segmented {buffers : Buffers} {bytes : Bytes} (holds : buffers.Holds bytes) :
    let segments := if buffers.pending = [] then buffers.segments else buffers.segments ++ [buffers.pending]
    IsSegmented segments ∧ segments.flatten = bytes := by
  have same := holds.bytes
  dsimp only
  split
  next empty =>
    rw [empty, List.append_nil] at same
    exact ⟨⟨_, [], (List.append_nil _).symm, holds.whole, .inl rfl⟩, same⟩
  next some =>
    refine ⟨⟨_, _, rfl, holds.whole, .inr ⟨_, rfl, some, holds.short⟩⟩, ?_⟩
    rw [List.flatten_append, List.flatten_singleton, same]

-- The bytes in front of each piece without bytes are too many already.
def Refused (floats : Floats F) (maxBytes : Nat) (written : Bytes) (pieces : List (Piece F)) : Prop :=
  ∀ front piece back, pieces = front ++ piece :: back → ¬piece.Encodable →
    maxBytes < written.length + (front.flatMap (Piece.bytes floats)).length

-- What becomes of the pieces, when some bytes are written.
def Outcome (floats : Floats F) (maxBytes : Nat) (written : Bytes) (pieces : List (Piece F)) :
    Except EncodingError (List Bytes) → Prop
  | .ok segments => (∀ piece ∈ pieces, piece.Encodable) ∧
      (written ++ pieces.flatMap (Piece.bytes floats)).length ≤ maxBytes ∧
      IsSegmented segments ∧ segments.flatten = written ++ pieces.flatMap (Piece.bytes floats)
  | .error raised =>
    raised = .transfer .snapshotTooLarge ∧ maxBytes < (written ++ pieces.flatMap (Piece.bytes floats)).length ∧
        Refused floats maxBytes written pieces ∨
      raised ≠ .transfer .snapshotTooLarge ∧ ¬Refused floats maxBytes written pieces

theorem refused_cons {written : Bytes} {piece : Piece F} (encodable : piece.Encodable) (rest : List (Piece F)) :
    Refused floats maxBytes written (piece :: rest) ↔
      Refused floats maxBytes (written ++ piece.bytes floats) rest := by
  constructor
  · intro refused front other back split unencodable
    have far := refused (piece :: front) other back (by rw [split, List.cons_append]) unencodable
    rwa [List.flatMap_cons, List.length_append, ← Nat.add_assoc, ← List.length_append] at far
  · intro refused front other back split unencodable
    cases front with
    | nil =>
      obtain ⟨rfl, -⟩ := List.cons.inj split
      exact absurd encodable unencodable
    | cons first front =>
      obtain ⟨rfl, behind⟩ := List.cons.inj split
      have far := refused front other back behind unencodable
      rwa [List.flatMap_cons, List.length_append, ← Nat.add_assoc, ← List.length_append]

theorem Outcome.cons {written : Bytes} {piece : Piece F} {rest : List (Piece F)}
    {result : Except EncodingError (List Bytes)} (encodable : piece.Encodable)
    (outcome : Outcome floats maxBytes (written ++ piece.bytes floats) rest result) :
    Outcome floats maxBytes written (piece :: rest) result := by
  have same : written ++ (piece :: rest).flatMap (Piece.bytes floats) =
      written ++ piece.bytes floats ++ rest.flatMap (Piece.bytes floats) := by
    rw [List.flatMap_cons, List.append_assoc]
  cases result with
  | ok segments =>
    obtain ⟨each, fits, segmented, flat⟩ := outcome
    exact ⟨List.forall_mem_cons.2 ⟨encodable, each⟩, same ▸ fits, segmented, flat.trans same.symm⟩
  | error raised =>
    obtain ⟨large, full, refused⟩ | ⟨other, raises⟩ := outcome
    · exact .inl ⟨large, same ▸ full, (refused_cons encodable rest).2 refused⟩
    · exact .inr ⟨other, mt (refused_cons encodable rest).1 raises⟩

theorem refused_of_full {written : Bytes} (full : maxBytes < written.length) (pieces : List (Piece F)) :
    Refused floats maxBytes written pieces := fun _ _ _ _ _ => Nat.lt_of_lt_of_le full (Nat.le_add_right _ _)

theorem encodeChunks_cons (maxBytes index : Nat) (chunk : Bytes) (rest : List Chunk) (buffers : Buffers) :
    encodeChunks .default maxBytes index (.ok chunk :: rest) buffers =
      if maxBytes < buffers.size + chunk.length then .error (.transfer .snapshotTooLarge)
      else
        let cut := cutSegments (buffers.pending ++ chunk).length buffers.segments (buffers.pending ++ chunk)
        encodeChunks .default maxBytes (index + 1) rest ⟨cut.1, cut.2, buffers.size + chunk.length⟩ := by
  rw [encodeChunks]
  by_cases full : maxBytes < buffers.size + chunk.length
  · rw [if_pos full]
    simp only [bind, Except.bind, if_pos full]
    rfl
  · rw [if_neg full]
    simp only [bind, Except.bind, if_neg full]
    rfl

theorem encodeChunks_outcome {pieces : List (Piece F)} (index : Nat) {buffers : Buffers} {written : Bytes}
    (holds : buffers.Holds written) (fits : written.length ≤ maxBytes) : Outcome floats maxBytes written pieces
      (encodeChunks .default maxBytes index (pieces.map (Piece.chunk floats)) buffers) := by
  induction pieces generalizing index buffers written with
  | nil =>
    obtain ⟨segmented, flat⟩ := holds.segmented
    rw [List.map_nil, encodeChunks]
    refine ⟨List.forall_mem_nil _, ?_, segmented, ?_⟩
    · rwa [List.flatMap_nil, List.append_nil]
    · rwa [List.flatMap_nil, List.append_nil]
  | cons piece rest ih =>
    rw [List.map_cons]
    by_cases encodable : piece.Encodable
    · have size : (written ++ piece.bytes floats).length = buffers.size + (piece.bytes floats).length := by
        rw [List.length_append, holds.size]
      rw [Piece.chunk_of_encodable encodable, encodeChunks_cons, ← size]
      split
      next full =>
        refine .inl ⟨rfl, ?_, (refused_cons encodable rest).2 (refused_of_full full rest)⟩
        rw [List.flatMap_cons, ← List.append_assoc, List.length_append]
        exact Nat.lt_of_lt_of_le full (Nat.le_add_right _ _)
      next fits =>
        have outcome := ih (index + 1) (holds.push (piece.bytes floats)) (Nat.not_lt.1 fits)
        rw [← size] at outcome
        exact outcome.cons encodable
    · -- the generator raises, before the size is looked at
      obtain ⟨raised, chunk, other⟩ := Piece.chunk_of_unencodable floats encodable
      rw [chunk]
      refine .inr ⟨other, fun refused => ?_⟩
      have far := refused [] piece rest rfl encodable
      simp only [List.flatMap_nil, List.length_nil] at far
      omega

end SegmentLaws

section FreezingLaws

variable {F : Type} {maxBytes : Nat}

def Value.ofJson : Json F → Value F :=
  Json.fold .scalar .list fun fields => .dict (fields.map fun field => (some field.1, field.2))

def nodes : Json F → Nat :=
  Json.fold (fun _ => 1) (fun items => 1 + items.sum)
    (fun fields => 1 + (fields.map fun field => 1 + field.2).sum)

def depth : Json F → Nat :=
  Json.fold (fun _ => 0) (fun items => (items.map (· + 1)).foldr max 0)
    (fun fields => (fields.map fun field => field.2 + 1).foldr max 0)

def minimumBytes : Json F → Nat :=
  Json.fold weight (fun items => 1 + items.sum) (fun fields =>
    1 + (fields.map fun field => field.1.length + field.2).sum)

def Counters.add (counters : Counters) (nodes minimumBytes : Nat) : Counters :=
  ⟨counters.nodes + nodes, counters.minimumBytes + minimumBytes⟩

def Counters.Fit (counters : Counters) (maxBytes : Nat) : Prop :=
  counters.nodes ≤ captureMaxNodes ∧ counters.minimumBytes ≤ maxBytes

theorem enter_of_fit {depth weight : Nat} {counters : Counters} (fit : (counters.add 1 weight).Fit maxBytes)
    (shallow : depth ≤ captureMaxDepth) :
    enter maxBytes depth weight counters = .ok (counters.add 1 weight) := by
  obtain ⟨nodes, bytes⟩ := fit
  rw [enter, if_neg]
  · rfl
  · simp only [Bool.or_eq_true, decide_eq_true_eq, not_or, Nat.not_lt]
    exact ⟨⟨nodes, bytes⟩, shallow⟩

theorem ofJson_array (items : List (Json F)) : Value.ofJson (.array items) = .list (items.map .ofJson) := by
  rw [Value.ofJson, fold_array]

theorem ofJson_object (fields : List (Str × Json F)) :
    Value.ofJson (.object fields) = .dict (fields.map fun field => (some field.1, .ofJson field.2)) := by
  rw [Value.ofJson, fold_object, List.map_map]
  rfl

def FreezesItself (maxBytes : Nat) (json : Json F) : Prop :=
  ∀ {level counters frozen after}, visit maxBytes (.ofJson json) level counters = .ok (frozen, after) →
    frozen = json

theorem visitItems_eq {items frozen : List (Json F)} (each : ∀ item ∈ items, FreezesItself maxBytes item)
    {level : Nat} {counters after : Counters}
    (visited : visitItems maxBytes (items.map .ofJson) level counters = .ok (frozen, after)) :
    frozen = items := by
  induction items generalizing frozen counters after with
  | nil =>
    cases visited
    rfl
  | cons item items ih =>
    obtain ⟨here, later⟩ := List.forall_mem_cons.1 each
    obtain ⟨⟨child, counters⟩, first, visited⟩ := of_bind_ok visited
    obtain ⟨⟨rest, counters⟩, others, visited⟩ := of_bind_ok visited
    cases visited
    rw [here first, ih later others]

theorem visitPairs_eq {fields frozen : List (Str × Json F)}
    (each : ∀ field ∈ fields, FreezesItself maxBytes field.2) {level : Nat} {counters after : Counters}
    (visited : visitPairs maxBytes (fields.map fun field => (some field.1, .ofJson field.2)) level counters =
      .ok (frozen, after)) : frozen = fields := by
  induction fields generalizing frozen counters after with
  | nil =>
    cases visited
    rfl
  | cons field fields ih =>
    obtain ⟨here, later⟩ := List.forall_mem_cons.1 each
    obtain ⟨counters, -, visited⟩ := of_bind_ok visited
    obtain ⟨⟨child, counters⟩, first, visited⟩ := of_bind_ok visited
    obtain ⟨⟨rest, counters⟩, others, visited⟩ := of_bind_ok visited
    cases visited
    rw [here first, ih later others]

theorem visit_eq (json : Json F) : FreezesItself maxBytes json := by
  induction json using Json.induct with
  | scalar value =>
    intro level counters frozen after visited
    obtain ⟨counters, -, visited⟩ := of_bind_ok visited
    cases visited
    rfl
  | array items ih =>
    intro level counters frozen after visited
    rw [ofJson_array] at visited
    obtain ⟨counters, -, visited⟩ := of_bind_ok visited
    obtain ⟨⟨items', counters⟩, inside, visited⟩ := of_bind_ok visited
    cases visited
    rw [visitItems_eq ih inside]
  | object fields ih =>
    intro level counters frozen after visited
    rw [ofJson_object] at visited
    obtain ⟨counters, -, visited⟩ := of_bind_ok visited
    obtain ⟨⟨fields', counters⟩, inside, visited⟩ := of_bind_ok visited
    cases visited
    rw [visitPairs_eq ih inside]

theorem Counters.Fit.of_add {counters : Counters} {nodes bytes moreNodes moreBytes : Nat}
    (fit : (counters.add (nodes + moreNodes) (bytes + moreBytes)).Fit maxBytes) :
    (counters.add nodes bytes).Fit maxBytes := by
  obtain ⟨nodes, bytes⟩ := fit
  simp only [add, Fit] at nodes bytes ⊢
  omega

theorem Counters.add_add (counters : Counters) (nodes bytes moreNodes moreBytes : Nat) :
    (counters.add nodes bytes).add moreNodes moreBytes =
      counters.add (nodes + moreNodes) (bytes + moreBytes) := by
  simp only [add, Nat.add_assoc]

theorem depth_array (items : List (Json F)) :
    depth (.array items) = (items.map fun item => depth item + 1).foldr max 0 := by
  rw [depth, fold_array, List.map_map]
  rfl

theorem depth_object (fields : List (Str × Json F)) :
    depth (.object fields) = (fields.map fun field => depth field.2 + 1).foldr max 0 := by
  rw [depth, fold_object, List.map_map]
  rfl

theorem nodes_array (items : List (Json F)) : nodes (.array items) = 1 + (items.map nodes).sum := by
  rw [nodes, fold_array]

theorem nodes_object (fields : List (Str × Json F)) :
    nodes (.object fields) = 1 + (fields.map fun field => 1 + nodes field.2).sum := by
  rw [nodes, fold_object, List.map_map]
  rfl

theorem minimumBytes_array (items : List (Json F)) :
    minimumBytes (.array items) = 1 + (items.map minimumBytes).sum := by
  rw [minimumBytes, fold_array]

theorem minimumBytes_object (fields : List (Str × Json F)) :
    minimumBytes (.object fields) = 1 + (fields.map fun field => field.1.length + minimumBytes field.2).sum := by
  rw [minimumBytes, fold_object, List.map_map]
  rfl

-- What `visit` counts of a document. Its limits are all that is checked.
def FreezesWithin (maxBytes : Nat) (json : Json F) : Prop :=
  ∀ (level : Nat) (counters : Counters), (counters.add (nodes json) (minimumBytes json)).Fit maxBytes →
    level + depth json ≤ captureMaxDepth →
      visit maxBytes (.ofJson json) level counters = .ok (json, counters.add (nodes json) (minimumBytes json))

theorem visitItems_of_fit {items : List (Json F)} (each : ∀ item ∈ items, FreezesWithin maxBytes item)
    {level : Nat}
    {counters : Counters} (fit : (counters.add (items.map nodes).sum (items.map minimumBytes).sum).Fit maxBytes)
    (shallow : level + (items.map fun item => depth item + 1).foldr max 0 ≤ captureMaxDepth) :
    visitItems maxBytes (items.map .ofJson) (level + 1) counters =
      .ok (items, counters.add (items.map nodes).sum (items.map minimumBytes).sum) := by
  induction items generalizing counters with
  | nil => rfl
  | cons item items ih =>
    obtain ⟨here, later⟩ := List.forall_mem_cons.1 each
    simp only [List.map_cons, List.sum_cons, List.foldr_cons] at fit shallow ⊢
    have first := here (level + 1) counters fit.of_add (by omega)
    rw [← Counters.add_add] at fit ⊢
    have rest := ih later fit (by omega)
    simp only [visitItems, first, rest, bind, Except.bind]
    rfl

theorem visitPairs_of_fit {fields : List (Str × Json F)}
    (each : ∀ field ∈ fields, FreezesWithin maxBytes field.2) {level : Nat} {counters : Counters}
    (fit : (counters.add (fields.map fun field => 1 + nodes field.2).sum
      (fields.map fun field => field.1.length + minimumBytes field.2).sum).Fit maxBytes)
    (shallow : level + (fields.map fun field => depth field.2 + 1).foldr max 0 ≤ captureMaxDepth) :
    visitPairs maxBytes (fields.map fun field => (some field.1, .ofJson field.2)) (level + 1) counters =
      .ok (fields, counters.add (fields.map fun field => 1 + nodes field.2).sum
        (fields.map fun field => field.1.length + minimumBytes field.2).sum) := by
  induction fields generalizing counters with
  | nil => rfl
  | cons field fields ih =>
    obtain ⟨here, later⟩ := List.forall_mem_cons.1 each
    simp only [List.map_cons, List.sum_cons, List.foldr_cons] at fit shallow ⊢
    have both := fit.of_add
    have key := enter_of_fit both.of_add (by omega : level + 1 ≤ captureMaxDepth)
    rw [← Counters.add_add] at both
    have first := here (level + 1) _ both (by omega)
    rw [← Counters.add_add, ← Counters.add_add] at fit ⊢
    have rest := ih later fit (by omega)
    simp only [visitPairs, key, first, rest, bind, Except.bind]
    rfl

theorem visit_of_fit (json : Json F) : FreezesWithin maxBytes json := by
  induction json using Json.induct with
  | scalar value =>
    intro level counters fit shallow
    have admitted := enter_of_fit fit (Nat.le_trans (Nat.le_add_right _ _) shallow)
    exact congrArg (· >>= _) admitted
  | array items ih =>
    intro level counters fit shallow
    rw [nodes_array, minimumBytes_array] at fit ⊢
    rw [depth_array] at shallow
    have admitted := enter_of_fit fit.of_add (Nat.le_trans (Nat.le_add_right _ _) shallow)
    rw [← Counters.add_add] at fit ⊢
    rw [ofJson_array, visit, admitted]
    simp only [visitItems_of_fit ih fit shallow, bind, Except.bind]
    rfl
  | object fields ih =>
    intro level counters fit shallow
    rw [nodes_object, minimumBytes_object] at fit ⊢
    rw [depth_object] at shallow
    have admitted := enter_of_fit fit.of_add (Nat.le_trans (Nat.le_add_right _ _) shallow)
    rw [← Counters.add_add] at fit ⊢
    rw [ofJson_object, visit, admitted]
    simp only [visitPairs_of_fit ih fit shallow, bind, Except.bind]
    rfl

theorem length_le_utf8 (text : Text) : text.length ≤ (text.flatMap String.utf8EncodeChar).length := by
  induction text with
  | nil => exact Nat.le_refl 0
  | cons c text ih =>
    have one : 0 < (String.utf8EncodeChar c).length := by
      rw [String.length_utf8EncodeChar]
      exact c.utf8Size_pos
    rw [List.flatMap_cons, List.length_append, List.length_cons]
    omega

theorem length_le_escaped (points : Str) : points.length ≤ (escaped points).length := by
  induction points with
  | nil => exact Nat.le_refl 0
  | cons point points ih =>
    have one : 0 < (escapeChar point.shown).length := by
      unfold escapeChar
      split
      · exact Nat.zero_lt_succ _
      · split <;> exact Nat.zero_lt_succ _
    rw [escaped] at ih
    rw [escaped, List.flatMap_cons, List.length_append, List.length_cons]
    omega

theorem sum_le_intercalate {α : Type*} (mark : α) (lists : List (List α)) :
    (lists.map List.length).sum ≤ ([mark].intercalate lists).length := by
  cases lists with
  | nil => exact Nat.le_refl 0
  | cons first rest =>
    have others : (rest.map List.length).sum ≤ (rest.flatMap (mark :: ·)).length := by
      induction rest with
      | nil => exact Nat.le_refl 0
      | cons next rest ih =>
        rw [List.map_cons, List.sum_cons, List.flatMap_cons, List.length_append, List.length_cons]
        omega
    rw [List.map_cons, List.sum_cons, intercalate_cons, List.length_append]
    omega

theorem minimumBytes_le (floats : Floats F) (json : Json F) : minimumBytes json ≤ (json.text floats).length := by
  induction json using Json.induct with
  | scalar value =>
    cases value with
    | str points =>
      have long := length_le_escaped points
      have quotes : (quoted points).length = (escaped points).length + 2 := by simp [quoted]
      show points.length ≤ (quoted points).length
      omega
    | null | bool | int | float => exact List.length_pos_iff.2 (solid_text floats (.scalar _)).ne_nil
  | array items ih =>
    have each : (items.map minimumBytes).sum ≤ ((items.map (·.text floats)).map List.length).sum := by
      rw [List.map_map]
      exact List.sum_le_sum ih
    have whole := sum_le_intercalate ',' (items.map (·.text floats))
    rw [minimumBytes_array, text_array, List.length_append, List.length_cons]
    omega
  | object fields ih =>
    have each : (fields.map fun field => field.1.length + minimumBytes field.2).sum ≤
        ((fields.map fun field => quoted field.1 ++ ':' :: field.2.text floats).map List.length).sum := by
      rw [List.map_map]
      refine List.sum_le_sum fun field mem => ?_
      have key := length_le_escaped field.1
      have item := ih field mem
      have quotes : (quoted field.1).length = (escaped field.1).length + 2 := by simp [quoted]
      rw [Function.comp_apply, List.length_append, List.length_cons]
      omega
    have whole := sum_le_intercalate ',' (fields.map fun field => quoted field.1 ++ ':' :: field.2.text floats)
    rw [minimumBytes_object, text_object, List.length_append, List.length_cons]
    omega

theorem freezeJson_of_fit (floats : Floats F) {json : Json F} (size : compactSize floats json ≤ maxBytes)
    (count : nodes json ≤ captureMaxNodes) (shallow : depth json ≤ captureMaxDepth) :
    freezeJson (.ofJson json) maxBytes = .ok json := by
  have estimate := (minimumBytes_le floats json).trans (length_le_utf8 _)
  have fit : (Counters.add ⟨0, 0⟩ (nodes json) (minimumBytes json)).Fit maxBytes := by
    refine ⟨?_, ?_⟩
    · simpa [Counters.add] using count
    · simpa [Counters.add] using estimate.trans size
  rw [freezeJson, visit_of_fit json 0 ⟨0, 0⟩ fit (by rwa [Nat.zero_add])]
  rfl

theorem freezeJson_eq {json frozen : Json F} (accepted : freezeJson (.ofJson json) maxBytes = .ok frozen) :
    frozen = json := by
  obtain ⟨⟨frozen, after⟩, visited, accepted⟩ := of_bind_ok accepted
  cases accepted
  exact visit_eq json visited

end FreezingLaws

section RoundTrip

variable {F : Type} {floats : Floats F} {maxBytes : Nat}

structure Document (F : Type) where
  json : Json F
  distinct : json.Distinct

def RoundTrips (floats : Floats F) (maxBytes : Nat) (document : Document F) :
    Except EncodingError (List Bytes) → Prop
  | .ok segments => IsSegmented segments ∧ segments.flatten.length ≤ maxBytes ∧
      loads floats segments.flatten = some document.json ∧ compactSize floats document.json ≤ maxBytes
  | .error raised => raised = .transfer .snapshotTooLarge ∧ maxBytes < compactSize floats document.json

-- In front of each piece that has no bytes, the text is too long already.
def Reached (floats : Floats F) (maxBytes : Nat) (json : Json F) : Prop :=
  ∃ front piece back, pieces json = front ++ piece :: back ∧ ¬piece.Encodable ∧
    (front.flatMap (Piece.bytes floats)).length ≤ maxBytes

theorem refused_iff (json : Json F) : Refused floats maxBytes [] (pieces json) ↔
    ¬Reached floats maxBytes json := by
  constructor
  · rintro refused ⟨front, piece, back, split, unencodable, short⟩
    have far := refused front piece back split unencodable
    rw [List.length_nil, Nat.zero_add] at far
    exact absurd short (Nat.not_le.2 far)
  · intro none front piece back split unencodable
    rw [List.length_nil, Nat.zero_add]
    by_contra short
    exact none ⟨front, piece, back, split, unencodable, Nat.not_lt.1 short⟩

theorem encodeSegments_roundTrips_iff (document : Document F) :
    RoundTrips floats maxBytes document (encodeSegments floats .default maxBytes document.json) ↔
      ¬Reached floats maxBytes document.json := by
  have empty : Buffers.Holds ⟨[], [], 0⟩ [] := ⟨List.forall_mem_nil _, by decide, rfl, rfl⟩
  have outcome : Outcome floats maxBytes [] (pieces document.json)
      (encodeChunks .default maxBytes 0 ((pieces document.json).map (Piece.chunk floats)) ⟨[], [], 0⟩) :=
    encodeChunks_outcome 0 empty (Nat.zero_le maxBytes)
  rw [← refused_iff, encodeSegments, jsonChunks_eq]
  generalize encodeChunks .default maxBytes 0 ((pieces document.json).map (Piece.chunk floats))
      ⟨[], [], 0⟩ = result
    at outcome
  cases result with
  | ok segments =>
    obtain ⟨encodable, fits, segmented, flat⟩ := outcome
    rw [List.nil_append, flatMap_bytes] at fits flat
    refine iff_of_true ⟨segmented, by rwa [flat], ?_, fits⟩ ?_
    · rw [flat]
      exact loads_text (isText_of_pieces encodable) document.distinct
    · intro front piece back split unencodable
      exact absurd (encodable piece (split ▸ List.mem_append_right _ List.mem_cons_self)) unencodable
  | error raised =>
    obtain ⟨large, full, refused⟩ | ⟨other, raises⟩ := outcome
    · rw [List.nil_append, flatMap_bytes] at full
      exact iff_of_true ⟨large, full⟩ refused
    · exact iff_of_false (fun trips => other trips.1) raises

/-- A snapshot that is accepted comes back, or is too large, as long as none of the pieces it comes to lacks bytes.
What fits is accepted. -/
theorem snapshots_round_trip_iff (floats : Floats F) (document : Document F) :
    (∀ limit maxBytes frozen, freezeJson (.ofJson document.json) limit = .ok frozen →
      (RoundTrips floats maxBytes document (encodeSegments floats .default maxBytes frozen) ↔
        ¬Reached floats maxBytes document.json)) ∧
    ∀ maxBytes, compactSize floats document.json ≤ maxBytes → nodes document.json ≤ captureMaxNodes →
      depth document.json ≤ captureMaxDepth → ∃ frozen,
        freezeJson (.ofJson document.json) maxBytes = .ok frozen := by
  refine ⟨fun limit maxBytes frozen accepted => ?_, fun maxBytes size count shallow => ?_⟩
  · rw [freezeJson_eq accepted]
    exact encodeSegments_roundTrips_iff document
  · exact ⟨_, freezeJson_of_fit floats size count shallow⟩

def loneSurrogate : Document Unit := ⟨.scalar (.str [.surrogate ⟨0, Nat.succ_pos 2047⟩]), trivial⟩

/-- A lone surrogate is frozen, but it has no bytes. -/
theorem lone_surrogate_raises : freezeJson (.ofJson loneSurrogate.json) 100 = .ok loneSurrogate.json ∧
      encodeSegments zeroFloats .default 100 loneSurrogate.json = .error .unicodeEncodeError ∧
      ¬RoundTrips zeroFloats 100 loneSurrogate (encodeSegments zeroFloats .default 100 loneSurrogate.json) := by
  have raises : encodeSegments zeroFloats .default 100 loneSurrogate.json = .error .unicodeEncodeError := rfl
  refine ⟨rfl, raises, ?_⟩
  rw [raises]
  rintro ⟨other, -⟩
  cases other

def smallDocument : Document Unit where
  json := .object [(asStr "say".toList, .scalar (.str (asStr "\"é\"\n".toList))),
    (asStr "none".toList, .array [.scalar .null, .scalar (.float ())])]
  distinct := distinct_object.2 ⟨by decide, by simp [Json.Distinct]⟩

theorem encodable_smallDocument : ∀ piece ∈ pieces smallDocument.json, piece.Encodable := by
  have texts : ∀ text : Text, IsText (asStr text) := by
    intro text point mem
    obtain ⟨c, -, rfl⟩ := List.mem_map.1 mem
    exact ⟨c, rfl⟩
  intro piece mem
  have listed :
      piece ∈ [.mark '\x7b', .mark '"', .fragment (asStr "say".toList), .mark '"', .mark ':', .mark '"',
      .fragment (asStr "\"é\"\n".toList), .mark '"', .mark ',', .mark '"', .fragment (asStr "none".toList),
      .mark '"', .mark ':', .mark '[', .plain .null, .mark ',', .plain (.float ()), .mark ']',
        .mark '\x7d'] := mem
  simp only [List.mem_cons, List.not_mem_nil, or_false] at listed
  rcases listed with rfl | rfl | rfl | rfl | rfl | rfl | rfl | rfl | rfl | rfl | rfl | rfl | rfl | rfl | rfl | rfl |
    rfl | rfl | rfl
  all_goals first | exact trivial | exact texts _

/-- A document with escapes is within one limit and beyond another. -/
theorem small_document_round_trips :
    (RoundTrips zeroFloats 100 smallDocument (encodeSegments zeroFloats .default 100 smallDocument.json) ∧
      (encodeSegments zeroFloats .default 100 smallDocument.json).toBool = true) ∧
    RoundTrips zeroFloats 20 smallDocument (encodeSegments zeroFloats .default 20 smallDocument.json) ∧
      (encodeSegments zeroFloats .default 20 smallDocument.json).toBool = false := by
  have unreached : ∀ maxBytes, ¬Reached zeroFloats maxBytes smallDocument.json := by
    rintro maxBytes ⟨front, piece, back, split, unencodable, -⟩
    exact unencodable (encodable_smallDocument piece (split ▸ List.mem_append_right _ List.mem_cons_self))
  have trips := (snapshots_round_trip_iff zeroFloats smallDocument).1 100
  exact ⟨⟨(trips 100 smallDocument.json rfl).2 (unreached 100), rfl⟩,
    (trips 20 smallDocument.json rfl).2 (unreached 20), rfl⟩

end RoundTrip

end OpenSquilla.Transport
