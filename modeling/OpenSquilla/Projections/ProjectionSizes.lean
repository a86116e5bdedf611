import OpenSquilla.Projections.HistoricalTools
import OpenSquilla.Shared.RaisingRuns

set_option autoImplicit false

namespace OpenSquilla.Projections

open TextLines TextScan JsonText
open RaisingRuns (of_bind_ok)

section Prices

def IsPlain (c : Char) : Prop := 32 ≤ c.toNat ∧ c ≠ '"' ∧ c ≠ '\\'

instance (c : Char) : Decidable (IsPlain c) := inferInstanceAs (Decidable (_ ∧ _ ∧ _))

def Fair (price : Char → Nat) : Prop := ∀ c, IsPlain c → price c = 1

theorem fair_one : Fair fun _ => 1 := fun _ _ => rfl

theorem fair_spelled : Fair spelled := by
  intro c plain
  have short : shortEscapes.lookup c = none := by
    rw [List.lookup_eq_none_iff]
    intro entry mem
    simp only [shortEscapes, List.mem_cons, List.not_mem_nil, or_false] at mem
    rcases mem with rfl | rfl | rfl | rfl | rfl | rfl | rfl
    · simpa using plain.2.1
    · simpa using plain.2.2
    all_goals
      simp only [bne_iff_ne]
      rintro rfl
      exact absurd plain.1 (by decide)
  have visible : ¬c.toNat < 32 := by have := plain.1; omega
  rw [spelled, escapeChar, short]
  simp only [if_neg visible]
  rfl

variable {price : Char → Nat}

theorem Fair.cost_eq (fair : Fair price) {text : Text} (plain : ∀ c ∈ text, IsPlain c) :
    cost price text = text.length :=
  cost_plain fun c mem => fair c (plain c mem)

theorem isPlain_of_isDigit {c : Char} (digit : c.isDigit = true) : IsPlain c := by
  simp only [Char.isDigit, Bool.and_eq_true, decide_eq_true_eq] at digit
  refine ⟨?_, ?_, ?_⟩
  · have := UInt32.le_iff_toNat_le.mp digit.1
    have zero : '0'.val.toNat = 48 := rfl
    simp only [Char.toNat]
    omega
  · rintro rfl
    exact absurd digit.1 (by decide)
  · rintro rfl
    exact absurd digit.2 (by decide)

theorem Fair.cost_toDigits (fair : Fair price) (n : Nat) :
    cost price (Nat.toDigits 10 n) = (Nat.toDigits 10 n).length :=
  fair.cost_eq fun _ mem => isPlain_of_isDigit (Nat.isDigit_of_mem_toDigits (by decide) (by decide) mem)

theorem isPlain_of_isHexDigit {c : Char} (hex : isHexDigit c = true) : IsPlain c := by
  have each : ∀ d ∈ "0123456789abcdef".toList, IsPlain d := by decide
  exact each c (by simpa [isHexDigit] using hex)

theorem Fair.cost_sha256 {F : Type} (fair : Fair price) (lib : Libraries F) (bytes : List UInt8) :
    cost price (lib.sha256 bytes) = 64 := by
  obtain ⟨length, hex⟩ := lib.sha256_hex bytes
  rw [fair.cost_eq fun c mem => isPlain_of_isHexDigit (hex c mem), length]

end Prices

section Encoding

-- No surrogate stands alone in it.
def Encodes (points : Str) : Prop := ∀ offset, .surrogate offset ∉ points

def utf8 (text : Text) : List UInt8 := text.flatMap String.utf8EncodeChar

theorem encodeUtf8_of_encodes {points : Str} (encodes : Encodes points) :
    encodeUtf8 points = .ok (utf8 (shownText points)) := by
  induction points with
  | nil => rfl
  | cons point rest ih =>
    have later : Encodes rest := fun offset mem => encodes offset (List.mem_cons_of_mem _ mem)
    cases point with
    | char c =>
      rw [encodeUtf8, ih later]
      rfl
    | surrogate offset => exact absurd (List.mem_cons_self ..) (encodes offset)

theorem encodes_of_encodeUtf8 {points : Str} {bytes : List UInt8} (encoded : encodeUtf8 points = .ok bytes) :
    Encodes points := by
  induction points generalizing bytes with
  | nil => exact fun _ => List.not_mem_nil
  | cons point rest ih =>
    cases point with
    | char c =>
      obtain ⟨later, ran, -⟩ := of_bind_ok encoded
      intro offset mem
      obtain same | mem := List.mem_cons.mp mem
      · cases same
      · exact ih ran offset mem
    | surrogate offset => cases encoded

end Encoding

section Notes

variable (price : Char → Nat)

def digits (n : Nat) : Nat := (Nat.toDigits 10 n).length

-- The head and the tail with the lines that announce them.
def quotedCost (text : Text) : Nat :=
  let (head, tail, _) := headTail text resultPreviewChars
  5 + 2 * price '\n' + cost price head + if tail ≠ [] ∧ tail ≠ head then
    8 + 3 * price '\n' + cost price tail else 0

def argumentNoteCost (toolName toolUseId field value : Text) (originalInputChars : Nat) : Nat :=
  258 + 8 * price '\n' + cost price toolName + cost price toolUseId + cost price field + digits value.length +
    digits originalInputChars + digits (headTail value resultPreviewChars).2.2 + quotedCost price value

def resultNoteCost (text toolUseId : Text) : Nat :=
  448 + 8 * price '\n' + cost price toolUseId + digits text.length +
    digits (headTail text resultPreviewChars).2.2 +
    quotedCost price text

def keptLines (text : Text) : List Text :=
  (splitLines text).take 1 ++ ((splitLines text).drop 1).filter isKeptLine

def projectionNoteCost (text toolUseId : Text) : Nat :=
  ((keptLines text).map fun line => cost price line + price '\n').sum + 411 + 7 * price '\n' +
    cost price toolUseId +
    digits text.length + digits (headTail text resultPreviewChars).2.2 + quotedCost price text

variable {price : Char → Nat}

theorem cost_joinLines_quoted (fair : Fair price) {lines : List Text} (some : lines ≠ []) (text : Text) :
    cost price
      (joinLines
        (lines ++ quotedLines (headTail text resultPreviewChars).1 (headTail text resultPreviewChars).2.1)) =
      (lines.map (cost price)).sum + (lines.length - 1) * price '\n' + quotedCost price text := by
  have heading : cost price "head:".toList = 5 := fair.cost_eq (by decide)
  have dots : cost price "...".toList = 3 := fair.cost_eq (by decide)
  have ending : cost price "tail:".toList = 5 := fair.cost_eq (by decide)
  obtain ⟨more, enough⟩ := Nat.exists_eq_add_of_lt (List.length_pos_iff.mpr some)
  rw [cost_joinLines, quotedCost, quotedLines]
  rcases headTail text resultPreviewChars with ⟨head, tail, omitted⟩
  simp only [List.map_append, List.sum_append, List.length_append, enough, Nat.zero_add, Nat.add_sub_cancel]
  split
  · have gaps : more + 1 +
        (["head:".toList, head].length + ["...".toList, "tail:".toList, tail].length) - 1 = more + 5 := rfl
    rw [gaps, Nat.add_mul]
    simp only [List.map_cons, List.map_nil, List.sum_cons, List.sum_nil, heading, dots, ending]
    omega
  · have gaps : more + 1 + (["head:".toList, head].length + ([] : List Text).length) - 1 = more + 2 := rfl
    rw [gaps, Nat.add_mul]
    simp only [List.map_cons, List.map_nil, List.sum_cons, List.sum_nil, heading]
    omega

variable {F : Type} (lib : Libraries F)

def digest (text : Text) : Text := lib.sha256 (utf8 text)

theorem Fair.cost_digest (fair : Fair price) (text : Text) : cost price (digest lib text) = 64 :=
  fair.cost_sha256 lib _

def argumentNote (toolName toolUseId : Text) (field value : Str) (originalInputChars : Nat) : Str :=
  joinPoints (argumentLines toolName toolUseId field (shownText value) originalInputChars
    (digest lib (shownText value)))

theorem toolArgumentProjection_eq_ok {toolName toolUseId : Text} {field value note : Str}
    {originalInputChars : Nat} :
    toolArgumentProjection lib toolName toolUseId field value originalInputChars = .ok note ↔
      Encodes value ∧ note = argumentNote lib toolName toolUseId field value originalInputChars := by
  constructor
  · intro ran
    obtain ⟨bytes, encoded, ran⟩ := of_bind_ok ran
    have encodes := encodes_of_encodeUtf8 encoded
    cases encoded.symm.trans (encodeUtf8_of_encodes encodes)
    exact ⟨encodes, (Except.ok.inj ran).symm⟩
  · rintro ⟨encodes, rfl⟩
    rw [toolArgumentProjection, encodeUtf8_of_encodes encodes]
    rfl

def sortMetadata (metadata : List (Text × Text)) : List (Text × Text) :=
  metadata.insertionSort fun first second => first.1 ≤ second.1

def compactedHeader (text label : Text) : List Text :=
  ["[".toList ++ label ++ "_compacted]".toList,
    "original_chars: ".toList ++ Nat.toDigits 10 text.length,
    "sha256: ".toList ++ digest lib text,
    "omitted_chars: ".toList ++ Nat.toDigits 10 (headTail text resultPreviewChars).2.2,
    "reason: historical payload omitted from later-turn provider replay.".toList]

def compactedText (text label : Text) (metadata : List (Text × Text)) : Text :=
  joinLines (compactedLines text label metadata (digest lib text))

theorem compactHistoricalText_eq_ok {text : Str} {label compacted : Text} {metadata : List (Text × Text)} :
    compactHistoricalText lib text label metadata = .ok compacted ↔
      Encodes text ∧ compacted = compactedText lib (shownText text) label metadata := by
  constructor
  · intro ran
    obtain ⟨bytes, encoded, ran⟩ := of_bind_ok ran
    have encodes := encodes_of_encodeUtf8 encoded
    cases encoded.symm.trans (encodeUtf8_of_encodes encodes)
    exact ⟨encodes, (Except.ok.inj ran).symm⟩
  · rintro ⟨encodes, rfl⟩
    rw [compactHistoricalText, encodeUtf8_of_encodes encodes]
    rfl

theorem compactedText_eq (text label : Text) (metadata : List (Text × Text)) :
    compactedText lib text label metadata =
      joinLines (compactedHeader lib text label ++
        (sortMetadata metadata).map (fun entry => entry.1 ++ ": ".toList ++ entry.2) ++
        quotedLines (headTail text resultPreviewChars).1 (headTail text resultPreviewChars).2.1) := rfl

def compactedProjection (text toolUseId : Text) : Text :=
  joinLines ((splitLines text).take 1 ++ ((splitLines text).drop 1).filter isKeptLine ++
    ["historical_replay_projection: recoverability header preserved; projected body compacted.".toList,
      "historical_replay_sha256: ".toList ++ digest lib text,
      compactedText lib text "historical_tool_result_projection_body".toList
        [("tool_use_id".toList, toolUseId)]])

theorem compactHistoricalToolResultProjection_eq_ok {text : Str} {toolUseId compacted : Text} :
    compactHistoricalToolResultProjection lib text toolUseId = .ok compacted ↔
      Encodes text ∧ compacted = compactedProjection lib (shownText text) toolUseId := by
  constructor
  · intro ran
    obtain ⟨bytes, encoded, ran⟩ := of_bind_ok ran
    have encodes := encodes_of_encodeUtf8 encoded
    cases encoded.symm.trans (encodeUtf8_of_encodes encodes)
    obtain ⟨body, made, ran⟩ := of_bind_ok ran
    obtain ⟨-, rfl⟩ := (compactHistoricalText_eq_ok lib).mp made
    exact ⟨encodes, (Except.ok.inj ran).symm⟩
  · rintro ⟨encodes, rfl⟩
    rw [compactHistoricalToolResultProjection, encodeUtf8_of_encodes encodes,
      (compactHistoricalText_eq_ok lib).mpr ⟨encodes, rfl⟩]
    rfl

theorem cost_argumentNote (fair : Fair price) (toolName toolUseId : Text) (field value : Str)
    (originalInputChars : Nat) :
    cost price (shownText (argumentNote lib toolName toolUseId field value originalInputChars)) =
      argumentNoteCost price toolName toolUseId (shownText field) (shownText value) originalInputChars := by
  have shown : shownText ∘ asStr = id := funext shownText_asStr
  have mark : cost price argumentProjectionMark = 34 := fair.cost_eq (by decide)
  have tool : cost price "tool: ".toList = 6 := fair.cost_eq (by decide)
  have id : cost price "tool_use_id: ".toList = 13 := fair.cost_eq (by decide)
  have key : cost price "field: ".toList = 7 := fair.cost_eq (by decide)
  have chars : cost price "original_chars: ".toList = 16 := fair.cost_eq (by decide)
  have inputChars : cost price "original_input_chars: ".toList = 22 := fair.cost_eq (by decide)
  have sha256 : cost price "sha256: ".toList = 8 := fair.cost_eq (by decide)
  have omittedChars : cost price "omitted_chars: ".toList = 15 := fair.cost_eq (by decide)
  have reason :
      cost price "reason: historical tool argument omitted from later-turn provider replay.".toList = 73 :=
    fair.cost_eq (by decide)
  rw [argumentNote, shownText_joinPoints, argumentLines]
  dsimp only
  rw [List.map_append, List.map_map, shown, List.map_id, cost_joinLines_quoted fair (by simp)]
  simp only [List.map_cons, List.map_nil, shownText_append, shownText_asStr, List.sum_cons, List.sum_nil,
    List.length_cons, List.length_nil, cost_append, mark, tool, id, key, chars, inputChars, sha256,
      omittedChars, reason,
    fair.cost_toDigits, fair.cost_digest, argumentNoteCost, digits]
  obtain ⟨head, tail, omitted⟩ := headTail (shownText value) resultPreviewChars
  dsimp only
  omega

theorem cost_compactedText (fair : Fair price) (text label : Text) (metadata : List (Text × Text)) :
    cost price (compactedText lib text label metadata) =
      cost price label + 182 + (5 + metadata.length - 1) * price '\n' + digits text.length +
        digits (headTail text resultPreviewChars).2.2 +
        (metadata.map fun entry => cost price (entry.1 ++ ": ".toList ++ entry.2)).sum +
          quotedCost price text := by
  have opened : cost price "[".toList = 1 := fair.cost_eq (by decide)
  have closed : cost price "_compacted]".toList = 11 := fair.cost_eq (by decide)
  have chars : cost price "original_chars: ".toList = 16 := fair.cost_eq (by decide)
  have sha256 : cost price "sha256: ".toList = 8 := fair.cost_eq (by decide)
  have omittedChars : cost price "omitted_chars: ".toList = 15 := fair.cost_eq (by decide)
  have reason : cost price "reason: historical payload omitted from later-turn provider replay.".toList = 67 :=
    fair.cost_eq (by decide)
  have sorted : (sortMetadata metadata).Perm metadata := List.perm_insertionSort _ _
  have total := (sorted.map fun entry => cost price (entry.1 ++ ": ".toList ++ entry.2)).sum_eq
  have header : ((compactedHeader lib text label).map (cost price)).sum =
      cost price label + 118 + digits text.length + digits (headTail text resultPreviewChars).2.2 + 64 := by
    simp only [compactedHeader, List.map_cons, List.map_nil, List.sum_cons, List.sum_nil, cost_append,
        opened, closed, chars,
      sha256, omittedChars, reason, fair.cost_toDigits, fair.cost_digest, digits]
    omega
  have count : (compactedHeader lib text label).length = 5 := rfl
  rw [compactedText_eq, cost_joinLines_quoted fair (by simp [compactedHeader]), List.map_append,
      List.map_map,
    List.sum_append, header, List.length_append, List.length_map, count, sorted.length_eq]
  simp only [Function.comp_def, total]
  omega

def resultMetadata (reference : Text × Text) (toolUseId : Text) : List (Text × Text) :=
  [("retrieve_hint".toList,
    "Use retrieve_tool_result with this handle to inspect the original raw output.".toList),
    ("tool_result_handle".toList, reference.1), ("tool_result_sha256".toList, reference.2),
    ("tool_use_id".toList, toolUseId)]

def referenceChars : Text := "tr-0123456789abcdef".toList

theorem mem_referenceChars {c : Char} (hex : isHexDigit c = true) : c ∈ referenceChars := by
  have each : ∀ d ∈ "0123456789abcdef".toList, d ∈ referenceChars := by decide
  exact each c (by simpa [isHexDigit] using hex)

theorem isHandle_spec {handle : Text} (valid : isHandle handle = true) :
    handle.length = 35 ∧ ∀ c ∈ handle, c ∈ referenceChars := by
  simp only [isHandle, Bool.and_eq_true, beq_iff_eq, List.all_eq_true, List.isPrefixOf_iff_prefix] at valid
  obtain ⟨⟨⟨rest, rfl⟩, length⟩, hex⟩ := valid
  rw [List.drop_left' (by decide)] at length hex
  have start : "tr-".toList.length = 3 := by decide
  have mark : ∀ c ∈ "tr-".toList, c ∈ referenceChars := by decide
  refine ⟨by rw [List.length_append, length, start], fun c mem => ?_⟩
  rcases List.mem_append.mp mem with first | later
  · exact mark c first
  · exact mem_referenceChars (hex c later)

theorem isSha256_spec {sha256 : Text} (valid : isSha256 sha256 = true) :
    sha256.length = 64 ∧ ∀ c ∈ sha256, c ∈ referenceChars := by
  simp only [isSha256, Bool.and_eq_true, beq_iff_eq, List.all_eq_true] at valid
  exact ⟨valid.1, fun c mem => mem_referenceChars (valid.2 c mem)⟩

theorem Fair.cost_reference (fair : Fair price) {text : Text} (made : ∀ c ∈ text, c ∈ referenceChars) :
    cost price text = text.length := by
  have each : ∀ c ∈ referenceChars, IsPlain c := by decide
  exact fair.cost_eq fun c mem => each c (made c mem)

theorem cost_resultNote (fair : Fair price) (text toolUseId : Text) {reference : Text × Text}
    (handle : isHandle reference.1 = true) (sha256 : isSha256 reference.2 = true) : cost price
      (compactedText lib text "historical_tool_result".toList (resultMetadata reference toolUseId)) =
      resultNoteCost price text toolUseId := by
  have label : cost price "historical_tool_result".toList = 22 := fair.cost_eq (by decide)
  have colon : cost price ": ".toList = 2 := fair.cost_eq (by decide)
  have hintKey : cost price "retrieve_hint".toList = 13 := fair.cost_eq (by decide)
  have hint : cost price "Use retrieve_tool_result with this handle to inspect the original raw output.".toList = 77 :=
    fair.cost_eq (by decide)
  have handleKey : cost price "tool_result_handle".toList = 18 := fair.cost_eq (by decide)
  have shaKey : cost price "tool_result_sha256".toList = 18 := fair.cost_eq (by decide)
  have idKey : cost price "tool_use_id".toList = 11 := fair.cost_eq (by decide)
  have handleCost : cost price reference.1 = 35 := by
    rw [fair.cost_reference (isHandle_spec handle).2, (isHandle_spec handle).1]
  have shaCost : cost price reference.2 = 64 := by
    rw [fair.cost_reference (isSha256_spec sha256).2, (isSha256_spec sha256).1]
  rw [cost_compactedText lib fair, resultNoteCost]
  simp only [resultMetadata, List.map_cons, List.map_nil, List.sum_cons, List.sum_nil, List.length_cons,
      List.length_nil,
    cost_append, label, colon, hintKey, hint, handleKey, shaKey, idKey, handleCost, shaCost]
  omega

theorem cost_projectionNote (fair : Fair price) (text toolUseId : Text) :
    cost price (compactedProjection lib text toolUseId) =
      projectionNoteCost price text toolUseId := by
  have notice : cost price
      "historical_replay_projection: recoverability header preserved; projected body compacted.".toList = 88 :=
    fair.cost_eq (by decide)
  have sha256 : cost price "historical_replay_sha256: ".toList = 26 := fair.cost_eq (by decide)
  have label : cost price "historical_tool_result_projection_body".toList = 38 := fair.cost_eq (by decide)
  have colon : cost price ": ".toList = 2 := fair.cost_eq (by decide)
  have idKey : cost price "tool_use_id".toList = 11 := fair.cost_eq (by decide)
  have kept : ((keptLines text).map fun line => cost price line + price '\n').sum =
      ((keptLines text).map (cost price)).sum + (keptLines text).length * price '\n' := by
    rw [List.sum_map_add, List.map_const', List.sum_replicate_nat]
  have gaps : (keptLines text).length + 3 - 1 = (keptLines text).length + 2 := rfl
  rw [compactedProjection, ← keptLines, cost_joinLines, projectionNoteCost, kept]
  simp only [List.map_append, List.map_cons, List.map_nil, List.sum_append, List.sum_cons, List.sum_nil,
      List.length_append,
    List.length_cons, List.length_nil, cost_append, notice, sha256, fair.cost_digest,
      cost_compactedText lib fair,
    label, colon, idKey, Nat.zero_add, Nat.reduceAdd, gaps, Nat.add_mul]
  omega

end Notes

end OpenSquilla.Projections
