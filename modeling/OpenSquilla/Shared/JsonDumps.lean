import Mathlib.Algebra.GroupWithZero.Nat
import Mathlib.Data.Char
import Mathlib.Data.List.Sort
import OpenSquilla.Shared.JsonText

set_option autoImplicit false

namespace JsonText

open TextLines TextScan

section Costs

-- What a text takes up when every character has its price.
def cost (price : Char → Nat) (text : Text) : Nat := (text.map price).sum

variable {price : Char → Nat}

@[simp]
theorem cost_nil : cost price [] = 0 := rfl

@[simp]
theorem cost_cons (c : Char) (text : Text) : cost price (c :: text) = price c + cost price text := by
  simp [cost]

@[simp]
theorem cost_append (first second : Text) :
    cost price (first ++ second) = cost price first + cost price second := by
  simp [cost]

theorem cost_one (text : Text) : cost (fun _ => 1) text = text.length := by
  induction text with
  | nil => rfl
  | cons c rest ih => rw [cost_cons, ih, List.length_cons, Nat.add_comm]

theorem cost_plain {text : Text} (plain : ∀ c ∈ text, price c = 1) : cost price text = text.length := by
  induction text with
  | nil => rfl
  | cons c rest ih =>
    rw [List.forall_mem_cons] at plain
    rw [cost_cons, plain.1, ih plain.2, List.length_cons, Nat.add_comm]

theorem cost_joinLines (lines : List Text) :
    cost price (joinLines lines) = (lines.map (cost price)).sum + (lines.length - 1) * price '\n' := by
  induction lines with
  | nil => simp [joinLines]
  | cons line rest ih =>
    cases rest with
    | nil => simp [joinLines]
    | cons next rest =>
      rw [joinLines_cons (List.cons_ne_nil next rest), cost_append, cost_append, cost_cons, cost_nil, ih]
      simp only [List.map_cons, List.sum_cons, List.length_cons, Nat.add_sub_cancel]
      rw [Nat.add_mul, Nat.one_mul]
      omega

end Costs

def spelled (c : Char) : Nat := (escapeChar c).length

def shownText (points : Str) : Text := points.map CodePoint.shown

@[simp]
theorem shownText_asStr (text : Text) : shownText (asStr text) = text := by
  simp [shownText, asStr, Function.comp_def, CodePoint.shown]

@[simp]
theorem shownText_append (first second : Str) :
    shownText (first ++ second) = shownText first ++ shownText second := List.map_append ..

@[simp]
theorem length_shownText (points : Str) : (shownText points).length = points.length := List.length_map ..

-- `"\n".join`
def joinPoints (lines : List Str) : Str := [CodePoint.char '\n'].intercalate lines

theorem shownText_joinPoints (lines : List Str) :
    shownText (joinPoints lines) = joinLines (lines.map shownText) := by
  induction lines with
  | nil => rfl
  | cons line rest ih =>
    cases rest with
    | nil => simp [joinPoints, joinLines, List.intercalate]
    | cons next rest =>
      rw [joinPoints, intercalate_cons, List.flatMap_cons, shownText_append, List.map_cons,
        joinLines_cons (by simp), ← ih, joinPoints, intercalate_cons]
      simp [shownText, CodePoint.shown]

theorem length_quoted (points : Str) : (quoted points).length = 2 + cost spelled (shownText points) := by
  simp only [quoted, escaped, shownText, cost, List.length_append, List.length_cons, List.length_nil,
      List.length_flatMap,
    List.map_map, Function.comp_def, spelled]
  omega

section Dumps

variable {F : Type}

def KeyLe (first second : Str) : Prop := shownText first ≤ shownText second

instance (first second : Str) : Decidable (KeyLe first second) :=
  inferInstanceAs (Decidable (shownText first ≤ shownText second))

def sortEntries {β : Type} (entries : List (Str × β)) : List (Str × β) :=
  entries.insertionSort fun first second => KeyLe first.1 second.1

def dumps (floats : Floats F) : Json F → Text :=
  Json.fold (Scalar.text floats) (fun items => '[' :: [',', ' '].intercalate items ++ [']'])
    (fun fields => '\x7b' ::
      [',', ' '].intercalate ((sortEntries fields).map fun field =>
        quoted field.1 ++ ':' :: ' ' :: field.2) ++ ['\x7d'])

def quotedPoints (points : Str) : Str :=
  .char '"' :: (points.flatMap fun
    | .char c => asStr (escapeChar c)
    | .surrogate offset => [.surrogate offset]) ++ [.char '"']

-- The text that `dumps` shows, with the lone surrogates that are in it.
def dumpsPoints (floats : Floats F) : Json F → Str :=
  Json.fold
    (fun
      | .str points => quotedPoints points
      | value => asStr (value.text floats))
    (fun items => .char '[' :: (asStr [',', ' ']).intercalate items ++ [.char ']'])
    (fun fields => .char '\x7b' ::
      (asStr [',', ' ']).intercalate ((sortEntries fields).map fun field =>
        quotedPoints field.1 ++ .char ':' :: .char ' ' :: field.2) ++ [.char '\x7d'])

theorem shownText_quotedPoints (points : Str) : shownText (quotedPoints points) = quoted points := by
  have each : ∀ points : Str, shownText (points.flatMap fun
      | .char c => asStr (escapeChar c)
      | .surrogate offset => [.surrogate offset]) = escaped points := by
    intro points
    induction points with
    | nil => rfl
    | cons point rest ih =>
      rw [List.flatMap_cons, shownText_append, ih]
      cases point with
      | char c => rw [shownText_asStr]; rfl
      | surrogate offset => rfl
  unfold quotedPoints
  simp only [List.cons_append, shownText, List.map_cons, List.map_append]
  rw [← shownText, each]
  rfl

theorem shownText_intercalate (mark : Str) (texts : List Str) :
    shownText (mark.intercalate texts) = (shownText mark).intercalate (texts.map shownText) := by
  induction texts with
  | nil => rfl
  | cons text rest ih =>
    cases rest with
    | nil => simp [List.intercalate, shownText]
    | cons next rest =>
      rw [List.intercalate_cons_cons, shownText_append, shownText_append, ih, List.map_cons, List.map_cons,
        List.map_cons, List.intercalate_cons_cons]

theorem sortEntries_map {β γ : Type} (f : β → γ) (entries : List (Str × β)) :
    sortEntries (entries.map fun entry => (entry.1, f entry.2)) =
      (sortEntries entries).map fun entry => (entry.1, f entry.2) :=
  (List.map_insertionSort (fun first second : Str × β => KeyLe first.1 second.1)
    (fun first second : Str × γ => KeyLe first.1 second.1) (fun entry => (entry.1, f entry.2)) entries
    fun _ _ _ _ => Iff.rfl).symm

theorem shownText_dumpsPoints (floats : Floats F) (json : Json F) :
    shownText (dumpsPoints floats json) = dumps floats json := by
  induction json using Json.induct with
  | scalar value =>
    cases value with
    | str points => exact shownText_quotedPoints points
    | _ => exact shownText_asStr _
  | array items ih =>
    have each : items.map (shownText ∘ dumpsPoints floats) = items.map (dumps floats) := List.map_congr_left ih
    rw [dumps, dumpsPoints, fold_array, fold_array, ← dumps, ← dumpsPoints, ← each, ← List.map_map]
    simp only [List.cons_append, shownText, List.map_cons, List.map_append]
    rw [← shownText, shownText_intercalate]
    rfl
  | object fields ih =>
    have each : fields.map (fun field => (field.1, dumps floats field.2)) =
        (fields.map fun field => (field.1, dumpsPoints floats field.2)).map
          fun field => (field.1, shownText field.2) := by
      rw [List.map_map]
      exact List.map_congr_left fun field mem => Prod.ext rfl (ih field mem).symm
    rw [dumps, dumpsPoints, fold_object, fold_object, ← dumps, ← dumpsPoints, each]
    generalize fields.map (fun field => (field.1, dumpsPoints floats field.2)) = texts
    rw [sortEntries_map]
    simp only [List.cons_append, shownText, List.map_cons, List.map_append]
    rw [← shownText, shownText_intercalate, List.map_map, List.map_map]
    have parts : ∀ field : Str × Str,
        shownText (quotedPoints field.1 ++ .char ':' :: .char ' ' :: field.2) =
          quoted field.1 ++ ':' :: ' ' :: shownText field.2 := by
      intro field
      rw [shownText_append, shownText_quotedPoints]
      rfl
    simp only [Function.comp_def, parts]
    rfl

def width (floats : Floats F) (json : Json F) : Nat := (dumps floats json).length

theorem length_intercalate (mark : Text) (texts : List Text) :
    (mark.intercalate texts).length = (texts.map List.length).sum + (texts.length - 1) * mark.length := by
  induction texts with
  | nil => simp [List.intercalate]
  | cons first rest ih =>
    cases rest with
    | nil => simp [List.intercalate]
    | cons next rest =>
      have split :
          mark.intercalate (first :: next :: rest) = first ++ (mark ++ mark.intercalate (next :: rest)) := by
        simp [List.intercalate, List.intersperse]
      rw [split, List.length_append, List.length_append, ih]
      simp only [List.map_cons, List.sum_cons, List.length_cons, Nat.add_sub_cancel]
      rw [Nat.add_mul, Nat.one_mul]
      omega

def fieldWidth (floats : Floats F) (field : Str × Json F) :
    Nat := (quoted field.1).length + 2 + width floats field.2

theorem width_array (floats : Floats F) (items : List (Json F)) :
    width floats (.array items) = 2 + (items.map (width floats)).sum + (items.length - 1) * 2 := by
  rw [width, dumps, fold_array]
  simp only [List.length_append, List.length_cons, List.length_nil, length_intercalate, List.map_map,
      List.length_map]
  have each : (List.length ∘ fun item : Json F => dumps floats item) = width floats := rfl
  rw [← dumps, each]
  omega

theorem width_object (floats : Floats F) (fields : List (Str × Json F)) :
    width floats (.object fields) = 2 + (fields.map (fieldWidth floats)).sum + (fields.length - 1) * 2 := by
  rw [width, dumps, fold_object, ← dumps]
  simp only [List.length_append, List.length_cons, List.length_nil, length_intercalate, List.map_map,
      List.length_map]
  have sorted := List.perm_insertionSort (fun first second : Str × Text => KeyLe first.1 second.1)
    (fields.map fun field => (field.1, dumps floats field.2))
  have total := (sorted.map fun field => (quoted field.1 ++ ':' :: ' ' :: field.2).length).sum_eq
  have each : ((fun field : Str × Text => (quoted field.1 ++ ':' :: ' ' :: field.2).length) ∘
      fun field : Str × Json F => (field.1, dumps floats field.2)) = fieldWidth floats := by
    funext field
    simp [fieldWidth, width]
    omega
  have count :
      (sortEntries (fields.map fun field => (field.1, dumps floats field.2))).length = fields.length := by
    rw [sortEntries, List.length_insertionSort, List.length_map]
  rw [count]
  rw [List.map_map, each] at total
  have parts : (List.map (List.length ∘ fun field : Str × Text => quoted field.1 ++ ':' :: ' ' :: field.2)
      (sortEntries (fields.map fun field => (field.1, dumps floats field.2)))).sum =
        (fields.map (fieldWidth floats)).sum :=
    total
  rw [parts]
  omega

theorem width_str (floats : Floats F) (points : Str) :
    width floats (.scalar (.str points)) = 2 + cost spelled (shownText points) := length_quoted points

theorem width_array_le {floats : Floats F} {before after : List (Json F)}
    (each : List.Forall₂ (fun old new => width floats new ≤ width floats old) before after) :
    width floats (.array after) ≤ width floats (.array before) := by
  have lengths := each.length_eq
  have sums : (after.map (width floats)).sum ≤ (before.map (width floats)).sum := by
    induction each with
    | nil => simp
    | cons le rest ih =>
      simp only [List.map_cons, List.sum_cons]
      exact Nat.add_le_add le (ih (by simpa using lengths))
  rw [width_array, width_array, lengths]
  omega

end Dumps

end JsonText
