import OpenSquilla.Shared.JsonReader

set_option autoImplicit false

namespace JsonText

open TextLines

inductive StringPiece
  | plain (point : CodePoint)
  | short (mark : Char)
  | escaped (digits : List Char)

namespace StringPiece

def Lawful : StringPiece → Prop
  | plain (.char c) => c ≠ '"' ∧ c ≠ '\\' ∧ 32 ≤ c.toNat
  | plain (.surrogate _) => True
  | short mark => (backslashes.lookup mark).isSome
  | escaped digits => digits.length = 4 ∧ (hexCode digits).isSome

def text : StringPiece → Str
  | plain point => [point]
  | short mark => [.char '\\', .char mark]
  | escaped digits => .char '\\' :: .char 'u' :: digits.map .char

def point : StringPiece → CodePoint
  | plain point => point
  | short mark => .char ((backslashes.lookup mark).getD mark)
  | escaped digits => pointOf ((hexCode digits).getD 0)

end StringPiece

def surrogatePair (high low : Nat) : Char := Char.ofNat (0x10000 + (high - 0xD800) * 0x400 + (low - 0xDC00))

-- The string of a spelling. Two escaped surrogates are one character.
def pieceValue : List StringPiece → Str
  | [] => []
  | .escaped high :: .escaped low :: rest =>
    if isHigh ((hexCode high).getD 0) && isLow ((hexCode low).getD 0) then
      .char (surrogatePair ((hexCode high).getD 0) ((hexCode low).getD 0)) :: pieceValue rest
    else pointOf ((hexCode high).getD 0) :: pieceValue (.escaped low :: rest)
  | piece :: rest => piece.point :: pieceValue rest

def SpellsString (points : Str) (text : Str) : Prop :=
  ∃ pieces : List StringPiece, (∀ piece ∈ pieces, piece.Lawful) ∧ pieceValue pieces = points ∧
    text = .char '"' :: pieces.flatMap StringPiece.text ++ [.char '"']

theorem spellsString_plain {points : Str} (plain : ∀ point ∈ points, (StringPiece.plain point).Lawful) :
    SpellsString points (.char '"' :: points ++ [.char '"']) := by
  refine ⟨points.map .plain, by simpa using plain, ?_, ?_⟩
  · clear plain
    induction points with
    | nil => rfl
    | cons point points ih =>
      rw [List.map_cons, pieceValue]
      · exact congrArg (point :: ·) ih
      · simp
  · have text : (points.map StringPiece.plain).flatMap StringPiece.text = points := by
      clear plain
      induction points with
      | nil => rfl
      | cons point points ih => exact congrArg (point :: ·) ih
    rw [text]

section Documents

variable {F : Type} (floats : Floats F)

def Blanks (text : Str) : Prop := ∀ point ∈ text, ∃ c, point = .char c ∧ isBlank c = true

def Scalar.Spells : Scalar F → Str → Prop
  | null, text => text = asStr "null".toList
  | bool value, text => text = asStr (if value then "true".toList else "false".toList)
  | int value, text =>
      ∃ number : Number, number.Lawful ∧ number.isFloat = false ∧ number.toInt = value ∧
        text = asStr number.text
  | float value, text =>
    ∃ number : Number, number.Lawful ∧ number.isFloat = true ∧ floats.read number = value ∧
      text = asStr number.text
  | str points, text => SpellsString points text

def SpellsItems {α : Type} (spells : α → Str → Prop) (items : List α) (text : Str) : Prop :=
  (items = [] ∧ Blanks text) ∨
    ∃ parts : List Str, parts ≠ [] ∧ List.Forall₂ spells items parts ∧ text = [.char ','].intercalate parts

def SpellsItem (spells : Str → Prop) (text : Str) : Prop :=
  ∃ before body behind, Blanks before ∧ spells body ∧ Blanks behind ∧ text = before ++ body ++ behind

def SpellsField (field : Str × (Str → Prop)) (text : Str) : Prop :=
  ∃ before key between body, Blanks before ∧ SpellsString field.1 key ∧ Blanks between ∧
    SpellsItem field.2 body ∧
    text = before ++ key ++ between ++ .char ':' :: body

def Json.Spells : Json F → Str → Prop :=
  fold (Scalar.Spells floats)
    (fun items text => ∃ inner, SpellsItems SpellsItem items inner ∧ text = .char '[' :: inner ++ [.char ']'])
    (fun fields text => ∃ inner, SpellsItems SpellsField fields inner ∧
      text = .char '\x7b' :: inner ++ [.char '\x7d'])

theorem spells_array {items : List (Json F)} {text : Str} : (Json.array items).Spells floats text ↔
    ∃ inner, SpellsItems SpellsItem (items.map (Json.Spells floats)) inner ∧
      text = .char '[' :: inner ++ [.char ']'] := by
  rw [Json.Spells, fold_array]

theorem spells_object {fields : List (Str × Json F)} {text : Str} : (Json.object fields).Spells floats text ↔
    ∃ inner, SpellsItems SpellsField (fields.map fun field => (field.1, field.2.Spells floats)) inner ∧
      text = .char '\x7b' :: inner ++ [.char '\x7d'] := by
  rw [Json.Spells, fold_object]

end Documents

def Paired : Str → Prop
  | [] => True
  | .char _ :: rest => Paired rest
  | .surrogate high :: .surrogate low :: rest => high.val < 1024 ∧ 1024 ≤ low.val ∧ Paired rest
  | .surrogate _ :: _ => False

-- The characters of a string, a pair of surrogates being one.
def characters : Str → Text
  | [] => []
  | .char c :: rest => c :: characters rest
  | .surrogate high :: .surrogate low :: rest =>
    Char.ofNat (0x10000 + high.val * 0x400 + (low.val - 1024)) :: characters rest
  | .surrogate _ :: rest => characters rest

theorem characters_asStr (text : Text) : characters (asStr text) = text := by
  induction text with
  | nil => rfl
  | cons c text ih => exact congrArg (c :: ·) ih

theorem eq_asStr_of_characters {points : Str} {text : Text} (paired : Paired points)
    (same : characters points = text) (basic : ∀ c ∈ text, c.toNat < 0x10000) : points = asStr text := by
  induction points using characters.induct generalizing text with
  | case1 => exact same ▸ rfl
  | case2 c rest ih =>
    subst same
    exact congrArg (CodePoint.char c :: ·) (ih paired rfl fun d mem =>
        basic d (List.mem_cons_of_mem _ mem))
  | case3 high low rest ih =>
    subst same
    obtain ⟨isHigh, isLow, -⟩ := paired
    have wide := basic _ List.mem_cons_self
    have bound := low.isLt
    have valid : (0x10000 + high.val * 0x400 + (low.val - 1024)).isValidChar := by
      simp only [Nat.isValidChar]
      omega
    rw [Char.ofNat, dif_pos valid] at wide
    have code : (Char.ofNatAux _ valid).toNat = 0x10000 + high.val * 0x400 + (low.val - 1024) := rfl
    omega
  | case4 offset rest other ih =>
    cases rest with
    | nil => exact paired.elim
    | cons point rest =>
      cases point with
      | char c => exact paired.elim
      | surrogate low => exact absurd rfl (other low rest)

end JsonText
