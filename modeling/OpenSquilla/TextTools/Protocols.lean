import OpenSquilla.Shared.Dict
import OpenSquilla.TextTools.Candidates

set_option autoImplicit false

namespace OpenSquilla.TextTools

open TextLines (Text)
open TextScan (isSpace strip)

inductive Json
  | null
  | bool (value : Bool)
  | number (text : Text)
  | string (value : Text)
  | array (items : List Json)
  | object (fields : List (Text × Json))

-- The JSON library, and what it takes for a finite JSON value.
structure JsonLibrary where
  -- the value that starts at a position and where it ends; non-standard constants and repeated
  -- keys may be refused
  rawDecode : (rejectConstants uniqueKeys : Bool) → Text → Nat → Option (Json × Nat)
  strictLoads : Text → Option Json
  isStrict : Json → Bool
  forward : ∀ rejectConstants uniqueKeys text position value stop,
    rawDecode rejectConstants uniqueKeys text position = some (value, stop) → position ≤ stop

abbrev Arguments := List (Text × Json)

inductive ParseFormat
  | json
  | xml

structure RawTextToolCall where
  toolName : Text
  arguments : Arguments
  parseFormat : ParseFormat

structure ProtocolSpan where
  start : Nat
  stop : Nat
  calls : List RawTextToolCall

def skipWhitespace (text : Text) (index : Nat) : Nat :=
  index + ((text.drop index).takeWhile isSpace).length

def removeOneFramingEol (value : Text) : Text :=
  let value := if ['\r', '\n'].isPrefixOf value then value.drop 2
    else if value.head?.any isNewline then value.drop 1 else value
  if ['\r', '\n'].isSuffixOf value then value.take (value.length - 2)
  else if value.getLast?.any isNewline then value.dropLast else value

def nameUntil (closing : Char) (text : Text) (position : Nat) : Option (Text × Nat) :=
  let name := (text.drop position).takeWhile (· ≠ closing)
  if name ≠ [] ∧ text[position + name.length]? = some closing then
    some (name, position + name.length + 1)
  else none

def taggedName (opening text : Text) (position : Nat) : Option (Text × Nat) := do
  let position ← literal opening text position
  nameUntil '>' text position

def quotedName (opening text : Text) (position : Nat) : Option (Text × Nat) := do
  let opened ← literal opening text position
  let position := skipWhitespace text opened
  if position = opened then none else
  let position ← literal "name".toList text position
  let position ← literal ['='] text (skipWhitespace text position)
  let position ← literal ['"'] text (skipWhitespace text position)
  let (name, position) ← nameUntil '"' text position
  let position ← literal ['>'] text (skipWhitespace text position)
  return (name, position)

structure XmlTags where
  parameterOpen : Text → Nat → Option (Text × Nat)
  parameterClose : Pattern
  close : Pattern

def qwenTags : XmlTags where
  parameterOpen := taggedName "<parameter=".toList
  parameterClose := literal "</parameter>".toList
  close := literal "</function>".toList

def minimaxTags : XmlTags where
  parameterOpen := quotedName "<parameter".toList
  parameterClose := literal "</parameter>".toList
  close := literal "</invoke>".toList

-- The parameters up to the closing tag, and where it ends.
def xmlParameters (tags : XmlTags) (text : Text) : Nat → Nat → Arguments → Option (Arguments × Nat)
  | 0, _, _ => none
  | fuel + 1, cursor, arguments =>
    let cursor := skipWhitespace text cursor
    match tags.close text cursor with
    | some stop => some (arguments, stop)
    | none =>
      match tags.parameterOpen text cursor with
      | none => none
      | some (rawName, opened) =>
        let name := strip rawName
        if name = [] ∨ name ∈ arguments.map Prod.fst then none
        else
          match tags.parameterClose.search text (text.length + 1) opened with
          | none => none
          | some (closing, closed) =>
            let value := removeOneFramingEol (slice text opened closing)
            xmlParameters tags text fuel closed (arguments ++ [(name, .string value)])

variable (json : JsonLibrary)

def rawQwenJsonCall : Json → Option RawTextToolCall
  | .object fields =>
    let arguments :=
      match (fields.lookup "arguments".toList).getD (.object []) with
      | .string encoded => json.strictLoads encoded
      | other => some other
    match fields.lookup "name".toList, arguments with
    | some (.string name), some (.object arguments) =>
      if strip name ≠ [] ∧ json.isStrict (.object arguments) then
        some ⟨strip name, arguments, .json⟩
      else none
    | _, _ => none
  | _ => none

def rawQwenXmlCallAt (text : Text) (index : Nat) : Option (RawTextToolCall × Nat) := do
  let (name, cursor) ← taggedName "<function=".toList text index
  if strip name = [] then none else
  let (arguments, stop) ← xmlParameters qwenTags text (text.length + 1) cursor []
  return (⟨strip name, arguments, .xml⟩, stop)

def qwenBodyAt (text : Text) (cursor : Nat) : Option (RawTextToolCall × Nat) :=
  if text[cursor]? = some '\x7b' then do
    let (value, stop) ← json.rawDecode true true text cursor
    let call ← rawQwenJsonCall json value
    return (call, stop)
  else rawQwenXmlCallAt text cursor

def qwenProtocolSpanAt (text : Text) (start : Nat) : Option ProtocolSpan := do
  let opened ← qwenToolCallOpen text start
  let (call, bodyEnd) ← qwenBodyAt json text (skipWhitespace text opened)
  let stop ← literal "</tool_call>".toList text (skipWhitespace text bodyEnd)
  return ⟨start, stop, [call]⟩

def minimaxInvokes (text : Text) : Nat → Nat → List RawTextToolCall → Option (List RawTextToolCall × Nat)
  | 0, _, _ => none
  | fuel + 1, cursor, calls =>
    let cursor := skipWhitespace text cursor
    match literal "</minimax:tool_call>".toList text cursor with
    | some stop => if calls = [] then none else some (calls, stop)
    | none =>
      match quotedName "<invoke".toList text cursor with
      | none => none
      | some (name, opened) =>
        if strip name = [] then none
        else
          match xmlParameters minimaxTags text (text.length + 1) opened [] with
          | none => none
          | some (arguments, closed) =>
            minimaxInvokes text fuel closed (calls ++ [⟨strip name, arguments, .xml⟩])

def minimaxProtocolSpanAt (text : Text) (start : Nat) : Option ProtocolSpan := do
  let opened ← minimaxToolCallOpen text start
  let (calls, stop) ← minimaxInvokes text (text.length + 1) opened []
  return ⟨start, stop, calls⟩

-- The complete spans; what opens one but is none is passed over.
def scanProtocolSpans (text : Text) (opening : Pattern)
    (parseAt : Text → Nat → Option ProtocolSpan) : Nat → Nat → List ProtocolSpan
  | 0, _ => []
  | fuel + 1, cursor =>
    match opening.search text (text.length + 1) cursor with
    | none => []
    | some (start, opened) =>
      match parseAt text start with
      | none => scanProtocolSpans text opening parseAt fuel opened
      | some span => span :: scanProtocolSpans text opening parseAt fuel span.stop

def isNameStart (c : Char) : Bool := c.isAlpha || c = '_'

/-- A name that an opening brace follows: where the name ends, and where the brace is. -/
def plainPrefixAt (text : Text) (position : Nat) : Option (Nat × Nat) :=
  if (text[position]?).any isNameStart then
    let nameEnd := position + ((text.drop position).takeWhile isToolNameChar).length
    (braceAfter text nameEnd).map fun brace => (nameEnd, brace)
  else none

def plainPrefix : Pattern := fun text position => (plainPrefixAt text position).map Prod.snd

structure PlainMatch where
  start : Nat
  stop : Nat
  toolName : Text
  arguments : Arguments

def plainMatchAt (text : Text) (codeRanges : List MarkdownCodeRange) (start : Nat) : Option PlainMatch := do
  let (nameEnd, brace) ← plainPrefixAt text start
  if positionIsInCode start codeRanges then none else
  if start ≠ 0 ∧ (text[start - 1]?).any isToolNameChar then none else
  let (value, stop) ← json.rawDecode true false text brace
  match value with
  | .object arguments =>
    if (text.drop stop).all isSpace ∧ json.isStrict value then
      some ⟨start, stop, slice text start nameEnd, arguments⟩
    else none
  | _ => none

def plainTextToolMatch (text : Text) (codeRanges : List MarkdownCodeRange) : Option PlainMatch :=
  (plainPrefix.findIter text).reverse.findSome? fun span => plainMatchAt json text codeRanges span.1

end OpenSquilla.TextTools
