import Mathlib.Algebra.BigOperators.Group.List.Basic
import OpenSquilla.Shared.TextScan

set_option autoImplicit false

namespace JsonText

open TextLines TextScan

inductive CodePoint
  | char (c : Char)
  -- `U+D800` and on
  | surrogate (offset : Fin 2048)
  deriving DecidableEq

abbrev Str := List CodePoint

inductive Scalar (F : Type)
  | null
  | bool (value : Bool)
  | int (value : Int)
  | float (value : F)
  | str (points : Str)

inductive Json (F : Type)
  | scalar (value : Scalar F)
  | array (items : List (Json F))
  | object (fields : List (Str × Json F))

structure Exponent where
  mark : Char
  sign : Option Char
  digits : Text

structure Number where
  negative : Bool
  integer : Text
  fraction : Option Text
  exponent : Option Exponent

def IsDigits (text : Text) : Prop := text ≠ [] ∧ ∀ c ∈ text, c.isDigit = true

def IsInteger (text : Text) : Prop := IsDigits text ∧ (text.head? = some '0' → text = ['0'])

structure Exponent.Lawful (exponent : Exponent) : Prop where
  mark : exponent.mark = 'e' ∨ exponent.mark = 'E'
  sign : ∀ c, exponent.sign = some c → c = '+' ∨ c = '-'
  digits : IsDigits exponent.digits

structure Number.Lawful (number : Number) : Prop where
  integer : IsInteger number.integer
  fraction : ∀ digits, number.fraction = some digits → IsDigits digits
  exponent : ∀ exponent, number.exponent = some exponent → exponent.Lawful

def Exponent.text (exponent : Exponent) : Text := exponent.mark :: (exponent.sign.toList ++ exponent.digits)

def Number.text (number : Number) : Text :=
  (if number.negative then ['-'] else []) ++ number.integer ++
    (number.fraction.elim [] ('.' :: ·) ++ number.exponent.elim [] Exponent.text)

def Number.isFloat (number : Number) : Bool := number.fraction.isSome || number.exponent.isSome

def Number.ofInt (value : Int) : Number := ⟨value < 0, Nat.toDigits 10 value.natAbs, none, none⟩

def Number.toInt (number : Number) : Int :=
  if number.negative then -(decimal number.integer : Int) else decimal number.integer

/-- The finite floating-point numbers, with the text of each and what a text reads as. -/
structure Floats (F : Type) where
  repr : F → Number
  read : Number → F
  lawful : ∀ value, (repr value).Lawful ∧ (repr value).isFloat = true
  read_repr : ∀ value, read (repr value) = value

def zeroText : Number := ⟨false, ['0'], some ['0'], none⟩

theorem zero_lawful : ∀ _ : Unit, zeroText.Lawful ∧ zeroText.isFloat = true := by
  refine fun _ => ⟨⟨⟨⟨by decide, by decide⟩, fun _ => rfl⟩, ?_, ?_⟩, rfl⟩
  · rintro digits found
    cases found
    exact ⟨by decide, by decide⟩
  · rintro exponent found
    cases found

theorem zero_read : ∀ value : Unit, () = value := fun _ => rfl

-- Zero is the only number.
def zeroFloats : Floats Unit where
  repr _ := zeroText
  read _ := ()
  lawful := zero_lawful
  read_repr := zero_read

section Folds

variable {F β : Type}

mutual

def Json.fold (scalar : Scalar F → β) (array : List β → β) (object : List (Str × β) → β) : Json F → β
  | .scalar value => scalar value
  | .array items => array (foldItems scalar array object items)
  | .object fields => object (foldFields scalar array object fields)

def foldItems (scalar : Scalar F → β) (array : List β → β) (object : List (Str × β) → β) : List (Json F) → List β
  | [] => []
  | item :: rest => item.fold scalar array object :: foldItems scalar array object rest

def foldFields (scalar : Scalar F → β) (array : List β → β) (object : List (Str × β) → β) :
    List (Str × Json F) → List (Str × β)
  | [] => []
  | (key, item) :: rest => (key, item.fold scalar array object) :: foldFields scalar array object rest

end

variable (scalar : Scalar F → β) (array : List β → β) (object : List (Str × β) → β)

theorem foldItems_eq (items : List (Json F)) :
    foldItems scalar array object items = items.map (·.fold scalar array object) := by
  induction items with
  | nil => rfl
  | cons item rest ih => rw [foldItems, ih, List.map_cons]

theorem foldFields_eq (fields : List (Str × Json F)) :
    foldFields scalar array object fields = fields.map fun field => (field.1,
      field.2.fold scalar array object) := by
  induction fields with
  | nil => rfl
  | cons field rest ih => rw [foldFields, ih, List.map_cons]

@[simp]
theorem fold_scalar (value : Scalar F) : (Json.scalar value).fold scalar array object = scalar value := rfl

@[simp]
theorem fold_array (items : List (Json F)) :
    (Json.array items).fold scalar array object = array (items.map (·.fold scalar array object)) := by
  rw [Json.fold, foldItems_eq]

@[simp]
theorem fold_object (fields : List (Str × Json F)) : (Json.object fields).fold scalar array object =
    object (fields.map fun field => (field.1, field.2.fold scalar array object)) := by
  rw [Json.fold, foldFields_eq]

theorem Json.induct {motive : Json F → Prop} (scalar : ∀ value, motive (.scalar value))
    (array : ∀ items, (∀ item ∈ items, motive item) → motive (.array items))
    (object : ∀ fields, (∀ field ∈ fields, motive field.2) → motive (.object fields)) (json : Json F) :
    motive json := by
  refine @Json.rec F motive (fun items => ∀ item ∈ items, motive item)
      (fun fields => ∀ field ∈ fields, motive field.2)
    (fun field => motive field.2) scalar array object (List.forall_mem_nil _) ?_
      (List.forall_mem_nil _) ?_ ?_ json
  · exact fun _ _ here later => List.forall_mem_cons.2 ⟨here, later⟩
  · exact fun _ _ here later => List.forall_mem_cons.2 ⟨here, later⟩
  · exact fun _ _ here => here

end Folds

theorem intercalate_cons {α : Type*} (mark : α) (first : List α) (rest : List (List α)) :
    [mark].intercalate (first :: rest) = first ++ rest.flatMap (mark :: ·) := by
  induction rest generalizing first with
  | nil => simp [List.intercalate]
  | cons next rest ih =>
    have split :
        [mark].intercalate (first :: next :: rest) = first ++ mark :: [mark].intercalate (next :: rest) := by
      simp [List.intercalate, List.intersperse]
    rw [split, ih, List.flatMap_cons, List.cons_append]

section Texts

variable {F : Type}

def shortEscapes : List (Char × Char) :=
  [('"', '"'), ('\\', '\\'), (Char.ofNat 8, 'b'), (Char.ofNat 12, 'f'), ('\n', 'n'), ('\r', 'r'), ('\t', 't')]

def escapeChar (c : Char) : Text :=
  match shortEscapes.lookup c with
  | some mark => ['\\', mark]
  | none =>
    if c.toNat < 32 then
        ['\\', 'u', '0', '0', Nat.digitChar (c.toNat / 16), Nat.digitChar (c.toNat % 16)] else [c]

/-- A lone surrogate has no character of its own. The one in its place takes as many bytes. -/
def CodePoint.shown : CodePoint → Char
  | char c => c
  | surrogate _ => Char.ofNat 0xFFFD

def asStr (text : Text) : Str := text.map .char

def escaped (points : Str) : Text := points.flatMap fun point => escapeChar point.shown

def quoted (points : Str) : Text := '"' :: escaped points ++ ['"']

def Scalar.text (floats : Floats F) : Scalar F → Text
  | null => "null".toList
  | bool value => if value then "true".toList else "false".toList
  | int value => (Number.ofInt value).text
  | float value => (floats.repr value).text
  | str points => quoted points

def Json.text (floats : Floats F) : Json F → Text :=
  fold (Scalar.text floats) (fun items => '[' :: [','].intercalate items ++ [']'])
    (fun fields => '\x7b' :: [','].intercalate (fields.map fun field => quoted field.1 ++ ':' :: field.2) ++
      ['\x7d'])

@[simp]
theorem text_scalar (floats : Floats F) (value : Scalar F) :
    (Json.scalar value).text floats = value.text floats := rfl

theorem text_array (floats : Floats F) (items : List (Json F)) :
    (Json.array items).text floats = '[' :: [','].intercalate (items.map (·.text floats)) ++ [']'] := by
  rw [Json.text, fold_array]

theorem text_object (floats : Floats F) (fields : List (Str × Json F)) : (Json.object fields).text floats =
    '\x7b' :: [','].intercalate (fields.map fun field => quoted field.1 ++ ':' :: field.2.text floats) ++
      ['\x7d'] := by
  rw [Json.text, fold_object, List.map_map]
  rfl

def IsText (points : Str) : Prop := ∀ point ∈ points, ∃ c, point = .char c

def Scalar.IsText : Scalar F → Prop
  | str points => JsonText.IsText points
  | _ => True

def Json.IsText : Json F → Prop :=
  fold Scalar.IsText (fun items => ∀ item ∈ items, item)
    (fun fields => ∀ field ∈ fields, JsonText.IsText field.1 ∧ field.2)

@[simp]
theorem isText_array {items : List (Json F)} : (Json.array items).IsText ↔ ∀ item ∈ items, item.IsText := by
  rw [Json.IsText, fold_array, List.forall_mem_map]

@[simp]
theorem isText_object {fields : List (Str × Json F)} :
    (Json.object fields).IsText ↔ ∀ field ∈ fields, JsonText.IsText field.1 ∧ field.2.IsText := by
  rw [Json.IsText, fold_object, List.forall_mem_map]

def Json.Distinct : Json F → Prop :=
  fold (fun _ => True) (fun items => ∀ item ∈ items, item)
    (fun fields => (fields.map Prod.fst).Nodup ∧ ∀ field ∈ fields, field.2)

@[simp]
theorem distinct_array {items : List (Json F)} : (Json.array items).Distinct ↔ ∀ item ∈ items,
    item.Distinct := by
  rw [Json.Distinct, fold_array, List.forall_mem_map]

@[simp]
theorem distinct_object {fields : List (Str × Json F)} :
    (Json.object fields).Distinct ↔ (fields.map Prod.fst).Nodup ∧ ∀ field ∈ fields, field.2.Distinct := by
  rw [Json.Distinct, fold_object, List.forall_mem_map, List.map_map]
  rfl

end Texts

end JsonText
