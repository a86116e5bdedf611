import Mathlib.Algebra.Order.Ring.Int
import Mathlib.Data.Finset.Basic
import OpenSquilla.Shared.Calendar
import OpenSquilla.Shared.RaisingRuns
import OpenSquilla.Shared.TextCuts

set_option autoImplicit false

namespace OpenSquilla.Scheduler

open RaisingRuns TextCuts TextLines TextScan

inductive FieldName
  | minute
  | hour
  | dayOfMonth
  | month
  | dayOfWeek

def FieldName.text : FieldName → String
  | .minute => "minute"
  | .hour => "hour"
  | .dayOfMonth => "day_of_month"
  | .month => "month"
  | .dayOfWeek => "day_of_week"

-- Sunday is 0
def fieldRanges : FieldName → Int × Int
  | .minute => (0, 59)
  | .hour => (0, 23)
  | .dayOfMonth => (1, 31)
  | .month => (1, 12)
  | .dayOfWeek => (0, 6)

def monthNames : List (String × Nat) :=
  [("jan", 1), ("feb", 2), ("mar", 3), ("apr", 4), ("may", 5), ("jun", 6), ("jul", 7), ("aug", 8), ("sep", 9),
    ("oct", 10), ("nov", 11), ("dec", 12)]

def dowNames : List (String × Nat) :=
  [("sun", 0), ("mon", 1), ("tue", 2), ("wed", 3), ("thu", 4), ("fri", 5), ("sat", 6)]

def FieldName.names : FieldName → List (String × Nat)
  | .month => monthNames
  | .dayOfWeek => dowNames
  | _ => []

structure CronField where
  values : Finset Int
  restricted : Bool := true
  deriving DecidableEq

abbrev CronParseError := String

def spellings (names : List (String × Nat)) : List (Text × Nat) :=
  names.flatMap (fun name =>
    [(name.1.toList.map Char.toLower, name.2), (name.1.toList.map Char.toUpper, name.2)])

def digitTable (names : List (String × Nat)) : List (Text × Text) :=
  (spellings names).map (fun spelling => (spelling.1, Nat.toDigits 10 spelling.2))

def marked (c : Char) : Char := if c = '/' then '§' else if c = '-' then '¶' else c

def unmarked (c : Char) : Char := if c = '§' then '/' else if c = '¶' then '-' else c

def resolveNames (names : List (String × Nat)) (part : Text) : Text :=
  if names = [] then part else (replaceAll (digitTable names) (part.map marked)).map unmarked

def range (start stop step : Int) : List Int :=
  (List.range ((stop - start + step - 1) / step).toNat).map (fun (k : Nat) => start + k * step)

section Parse

variable (field : FieldName)

def FieldName.lowest : Int := (fieldRanges field).1

def FieldName.highest : Int := (fieldRanges field).2

def toInt (text : Text) : Except CronParseError Int :=
  match readInt text with
  | none => .error ("Invalid value '" ++ String.ofList text ++ "' in field '" ++ field.text ++ "'")
  | some value =>
    if field.lowest ≤ value ∧ value ≤ field.highest then .ok value
    else
      .error ("Value " ++ toString value ++ " out of range [" ++ toString (field.lowest) ++ ", " ++
        toString (field.highest) ++ "] for field '" ++ field.text ++ "'")

def parseBounds (startText endText : Text) : Except CronParseError (Int × Int) := do
  let start ← toInt field startText
  let finish ← toInt field endText
  if finish < start then .error ("Range start > end in field '" ++ field.text ++ "'") else .ok (start, finish)

def parseRangePart (rangePart : Text) : Except CronParseError (Int × Int) :=
  if rangePart = ['*'] then .ok (field.lowest, field.highest)
  else
    match cutAt '-' rangePart with
    | some (startText, endText) => parseBounds field startText endText
    | none => (toInt field rangePart).map (fun start => (start, field.highest))

def parsePart (part : Text) : Except CronParseError (List Int) :=
  match cutAt '/' part with
  | some (rangePart, stepText) =>
    match readInt stepText with
    | none => .error ("Invalid step '" ++ String.ofList stepText ++ "' in field '" ++ field.text ++ "'")
    | some step =>
      if step ≤ 0 then .error ("Step must be > 0 in field '" ++ field.text ++ "'")
      else (parseRangePart field rangePart).map (fun bounds => range bounds.1 (bounds.2 + 1) step)
  | none =>
    match cutAt '-' part with
    | some (startText, endText) =>
      (parseBounds field startText endText).map (fun bounds => range bounds.1 (bounds.2 + 1) 1)
    | none =>
      if part = ['*'] then .ok (range (field.lowest) (field.highest + 1) 1)
      else (toInt field part).map ([·])

/-- `_parse_field`. The day fields are put together with an OR unless one is a bare star. -/
def parseField (token : Text) (names : List (String × Nat)) : Except CronParseError CronField := do
  let parts ← (token.splitOn ',').mapM (fun part => parsePart field (resolveNames names (strip part)))
  return ⟨parts.flatten.toFinset, strip token ≠ ['*']⟩

end Parse

inductive Span
  | all
  | value (v : Int)
  | range (first last : Int)

structure Item where
  span : Span
  step : Option Int := none

section Grammar

-- how an operand is read, and how a step
variable (reads stepReads : Text → Int → Prop) (lo hi : Int)

inductive SpanWritten : Text → Span → Prop
  | all : SpanWritten ['*'] .all
  | value {text : Text} {v : Int} (whole : '-' ∉ text) (read : reads text v) (within : lo ≤ v ∧ v ≤ hi) :
    SpanWritten text (.value v)
  | range {firstText lastText : Text} {first last : Int} (whole : '-' ∉ firstText)
      (readFirst : reads firstText first)
      (readLast : reads lastText last) (firstWithin : lo ≤ first ∧ first ≤ hi)
      (lastWithin : lo ≤ last ∧ last ≤ hi)
      (ordered : first ≤ last) :
    SpanWritten (firstText ++ '-' :: lastText) (.range first last)

-- The text of one item: a star, a value or a range, with a step or none.
inductive Written : Text → Item → Prop
  | plain {text : Text} {span : Span} (whole : '/' ∉ text) (written : SpanWritten reads lo hi text span) :
    Written text ⟨span, none⟩
  | stepped {text stepText : Text} {span : Span} {step : Int} (whole : '/' ∉ text)
      (written : SpanWritten reads lo hi text span) (read : stepReads stepText step) (positive : 1 ≤ step) :
    Written (text ++ '/' :: stepText) ⟨span, some step⟩

def Item.Denotes : Item → Int → Prop
  | ⟨.all, step⟩, v => lo ≤ v ∧ v ≤ hi ∧ step.getD 1 ∣ v - lo
  | ⟨.value first, none⟩, v => v = first
  | ⟨.value first, some step⟩, v => first ≤ v ∧ v ≤ hi ∧ step ∣ v - first
  | ⟨.range first last, step⟩, v => first ≤ v ∧ v ≤ last ∧ step.getD 1 ∣ v - first

end Grammar

def Item.values (lo hi : Int) : Item → List Int
  | ⟨.all, step⟩ => range lo (hi + 1) (step.getD 1)
  | ⟨.value first, none⟩ => [first]
  | ⟨.value first, some step⟩ => range first (hi + 1) step
  | ⟨.range first last, step⟩ => range first (last + 1) (step.getD 1)

theorem mem_range {start stop step : Int} (positive : 1 ≤ step) (v : Int) :
    v ∈ range start stop step ↔ start ≤ v ∧ v < stop ∧ step ∣ v - start := by
  simp only [range, List.mem_map, List.mem_range]
  constructor
  · rintro ⟨k, below, rfl⟩
    have bound : (k : Int) < (stop - start + step - 1) / step := by omega
    have reached : (k + 1 : Int) * step ≤ stop - start + step - 1 :=
      (Int.le_ediv_iff_mul_le (by omega)).mp (by omega)
    have steps : 0 ≤ (k : Int) * step := mul_nonneg (Int.natCast_nonneg k) (by omega)
    rw [add_mul, one_mul] at reached
    refine ⟨by omega, by omega, ?_⟩
    rw [add_sub_cancel_left]
    exact Int.dvd_mul_left ..
  · rintro ⟨above, below, k, apart⟩
    have nonneg : 0 ≤ k := by
      by_contra negative
      have : step * k ≤ step * (-1) := mul_le_mul_of_nonneg_left (by omega) (by omega)
      omega
    have counted : k + 1 ≤ (stop - start + step - 1) / step := by
      rw [Int.le_ediv_iff_mul_le (by omega), add_mul, one_mul, mul_comm]
      omega
    refine ⟨k.toNat, by omega, ?_⟩
    rw [Int.toNat_of_nonneg nonneg, mul_comm]
    omega

theorem Item.mem_values {lo hi : Int} {reads stepReads : Text → Int → Prop} {text : Text} {item : Item}
    (written : Written reads stepReads lo hi text item) (v : Int) :
    v ∈ item.values lo hi ↔ item.Denotes lo hi v := by
  have steps : 1 ≤ item.step.getD 1 := by
    cases written with
    | plain whole span => exact Int.le_refl 1
    | stepped whole span read positive => exact positive
  obtain ⟨span, step⟩ := item
  cases span with
  | all => rw [values, mem_range steps, Denotes, Int.lt_add_one_iff]
  | value first =>
    cases step with
    | none => rw [values, Denotes, List.mem_singleton]
    | some step =>
      rw [Option.getD_some] at steps
      rw [values, mem_range steps, Denotes, Int.lt_add_one_iff]
  | range first last => rw [values, mem_range steps, Denotes, Int.lt_add_one_iff]

section Parsing

variable {field : FieldName} {text part : Text}

def ReadsInt (text : Text) (value : Int) : Prop := readInt text = some value

theorem not_readsInt_star (value : Int) : ¬ReadsInt ['*'] value := by
  have unread : readInt ['*'] = none := by decide
  rw [ReadsInt, unread]
  rintro ⟨⟩

theorem toInt_eq_ok {value : Int} :
    toInt field text = .ok value ↔ ReadsInt text value ∧ field.lowest ≤ value ∧ value ≤ field.highest := by
  unfold toInt ReadsInt
  cases read : readInt text with
  | none => simp
  | some found =>
    dsimp only
    split
    next within =>
      constructor
      · rintro ⟨⟩
        exact ⟨rfl, within⟩
      · rintro ⟨⟨⟩, -⟩
        rfl
    next without =>
      refine iff_of_false (by simp) ?_
      rintro ⟨⟨⟩, within⟩
      exact without within

theorem parseBounds_eq_ok {startText endText : Text} {bounds : Int × Int} :
    parseBounds field startText endText = .ok bounds ↔
      toInt field startText = .ok bounds.1 ∧ toInt field endText = .ok bounds.2 ∧ bounds.1 ≤ bounds.2 := by
  constructor
  · intro ran
    obtain ⟨start, starts, ran⟩ := of_bind_ok ran
    obtain ⟨finish, ends, ran⟩ := of_bind_ok ran
    split at ran
    next => cases ran
    next ordered =>
      cases ran
      exact ⟨starts, ends, Int.not_lt.mp ordered⟩
  · rintro ⟨starts, ends, ordered⟩
    unfold parseBounds
    rw [starts, ends]
    exact if_neg (Int.not_lt.mpr ordered)

def Span.bounds (lo hi : Int) : Span → Int × Int
  | .all => (lo, hi)
  | .value first => (first, hi)
  | .range first last => (first, last)

theorem spanWritten_iff {reads : Text → Int → Prop} {lo hi : Int} {span : Span} :
    SpanWritten reads lo hi text span ↔
      (text = ['*'] ∧ span = .all) ∨
      (cutAt '-' text = none ∧ ∃ v, span = .value v ∧ reads text v ∧ lo ≤ v ∧ v ≤ hi) ∨
      ∃ cut, cutAt '-' text = some cut ∧ ∃ first last, span = .range first last ∧
        (reads cut.1 first ∧ lo ≤ first ∧ first ≤ hi) ∧ (reads cut.2 last ∧ lo ≤ last ∧ last ≤ hi) ∧
          first ≤ last := by
  constructor
  · intro written
    cases written with
    | all => exact .inl ⟨rfl, rfl⟩
    | value whole read within => exact .inr (.inl ⟨cutAt_eq_none.mpr whole, _, rfl, read, within⟩)
    | range whole readFirst readLast firstWithin lastWithin ordered =>
      exact .inr (.inr ⟨_, cutAt_append whole, _, _, rfl, ⟨readFirst, firstWithin⟩, ⟨readLast, lastWithin⟩,
          ordered⟩)
  · rintro (⟨rfl, rfl⟩ | ⟨whole, v, rfl, read, within⟩ | ⟨cut, found, first, last, rfl, starts, ends, ordered⟩)
    · exact .all
    · exact .value (cutAt_eq_none.mp whole) read within
    · obtain ⟨whole, rfl⟩ := cutAt_eq_some.mp found
      exact .range whole starts.1 ends.1 starts.2 ends.2 ordered

theorem written_iff {reads stepReads : Text → Int → Prop} {lo hi : Int} {item : Item} :
    Written reads stepReads lo hi text item ↔
      (cutAt '/' text = none ∧ item.step = none ∧ SpanWritten reads lo hi text item.span) ∨
      ∃ cut, cutAt '/' text = some cut ∧ SpanWritten reads lo hi cut.1 item.span ∧
        ∃ step, item.step = some step ∧ stepReads cut.2 step ∧ 1 ≤ step := by
  constructor
  · intro written
    cases written with
    | plain whole written => exact .inl ⟨cutAt_eq_none.mpr whole, rfl, written⟩
    | stepped whole written read positive =>
      exact .inr ⟨_, cutAt_append whole, written, _, rfl, read, positive⟩
  · obtain ⟨span, step⟩ := item
    rintro (⟨whole, rfl, written⟩ | ⟨cut, found, written, step, rfl, read, positive⟩)
    · exact .plain (cutAt_eq_none.mp whole) written
    · obtain ⟨whole, rfl⟩ := cutAt_eq_some.mp found
      exact .stepped whole written read positive

theorem parseRangePart_eq_ok {bounds : Int × Int} : parseRangePart field text = .ok bounds ↔
      ∃ span, SpanWritten ReadsInt field.lowest field.highest text span ∧
        span.bounds field.lowest field.highest = bounds := by
  constructor
  · intro ran
    unfold parseRangePart at ran
    split at ran
    next star =>
      cases ran
      exact ⟨.all, star ▸ .all, rfl⟩
    next =>
      cases found : cutAt '-' text with
      | none =>
        rw [found] at ran
        obtain ⟨first, starts, rfl⟩ := of_map_ok ran
        exact ⟨.value first, spanWritten_iff.mpr (.inr (.inl ⟨found, first, rfl, toInt_eq_ok.mp starts⟩)), rfl⟩
      | some cut =>
        rw [found] at ran
        obtain ⟨starts, ends, ordered⟩ := parseBounds_eq_ok.mp ran
        refine ⟨.range bounds.1 bounds.2, spanWritten_iff.mpr (.inr (.inr ?_)), rfl⟩
        exact ⟨cut, found, _, _, rfl, toInt_eq_ok.mp starts, toInt_eq_ok.mp ends, ordered⟩
  · rintro ⟨span, written, rfl⟩
    unfold parseRangePart
    obtain ⟨rfl, rfl⟩ | ⟨whole, first, rfl, starts⟩ | ⟨cut, found, first, last, rfl, starts, ends, ordered⟩ :=
      spanWritten_iff.mp written
    · exact if_pos rfl
    · have nostar : text ≠ ['*'] := by
        rintro rfl
        exact not_readsInt_star first starts.1
      rw [if_neg nostar, whole]
      dsimp only
      rw [toInt_eq_ok.mpr starts]
      rfl
    · have nostar : text ≠ ['*'] := by
        rintro rfl
        cases found
      rw [if_neg nostar, found]
      exact parseBounds_eq_ok.mpr ⟨toInt_eq_ok.mpr starts, toInt_eq_ok.mpr ends, ordered⟩

theorem parsePart_eq_ok {values : List Int} : parsePart field part = .ok values ↔
      ∃ item, Written ReadsInt ReadsInt field.lowest field.highest part item ∧
        item.values field.lowest field.highest = values := by
  unfold parsePart
  cases sliced : cutAt '/' part with
  | some cut =>
    dsimp only
    constructor
    · intro ran
      cases read : readInt cut.2 with
      | none =>
        rw [read] at ran
        cases ran
      | some step =>
        rw [read] at ran
        dsimp only at ran
        split at ran
        next => cases ran
        next positive =>
          obtain ⟨bounds, ranged, rfl⟩ := of_map_ok ran
          obtain ⟨span, written, rfl⟩ := parseRangePart_eq_ok.mp ranged
          refine ⟨⟨span, some step⟩, written_iff.mpr (.inr ⟨cut, sliced, written, step, rfl, read, ?_⟩), ?_⟩
          · omega
          · cases span <;> rfl
    · rintro ⟨⟨span, step⟩, written, rfl⟩
      obtain ⟨whole, -⟩ | ⟨found, same, spanned, step, rfl, read, positive⟩ := written_iff.mp written
      · rw [sliced] at whole
        cases whole
      · rw [sliced] at same
        cases same
        rw [show readInt cut.2 = some step from read]
        dsimp only
        rw [if_neg (by omega), parseRangePart_eq_ok.mpr ⟨span, spanned, rfl⟩]
        cases span <;> rfl
  | none =>
    dsimp only
    constructor
    · intro ran
      cases found : cutAt '-' part with
      | some cut =>
        rw [found] at ran
        obtain ⟨bounds, bounded, rfl⟩ := of_map_ok ran
        obtain ⟨starts, ends, ordered⟩ := parseBounds_eq_ok.mp bounded
        refine ⟨⟨.range bounds.1 bounds.2, none⟩, written_iff.mpr (.inl ⟨sliced, rfl, ?_⟩), rfl⟩
        refine spanWritten_iff.mpr (.inr (.inr ?_))
        exact ⟨cut, found, _, _, rfl, toInt_eq_ok.mp starts, toInt_eq_ok.mp ends, ordered⟩
      | none =>
        rw [found] at ran
        dsimp only at ran
        split at ran
        next star =>
          cases ran
          exact ⟨⟨.all, none⟩, written_iff.mpr (.inl ⟨sliced, rfl, star ▸ .all⟩), rfl⟩
        next =>
          obtain ⟨value, reads, rfl⟩ := of_map_ok ran
          refine ⟨⟨.value value, none⟩, written_iff.mpr (.inl ⟨sliced, rfl, ?_⟩), rfl⟩
          exact spanWritten_iff.mpr (.inr (.inl ⟨found, value, rfl, toInt_eq_ok.mp reads⟩))
    · rintro ⟨⟨span, step⟩, written, rfl⟩
      obtain ⟨-, unstepped, spanned⟩ | ⟨found, same, -⟩ := written_iff.mp written
      · obtain rfl : step = none := unstepped
        obtain ⟨rfl, star⟩ | ⟨whole, value, single, read⟩ | ⟨cut, found, first, last, ranged, starts, ends,
            ordered⟩ :=
          spanWritten_iff.mp spanned
        · obtain rfl : span = .all := star
          rfl
        · obtain rfl : span = .value value := single
          have nostar : part ≠ ['*'] := by
            rintro rfl
            exact not_readsInt_star value read.1
          rw [whole]
          dsimp only
          rw [if_neg nostar, toInt_eq_ok.mpr read]
          rfl
        · obtain rfl : span = .range first last := ranged
          have bounded : parseBounds field cut.1 cut.2 = .ok (first, last) :=
            parseBounds_eq_ok.mpr ⟨toInt_eq_ok.mpr starts, toInt_eq_ok.mpr ends, ordered⟩
          rw [found]
          dsimp only
          rw [bounded]
          rfl
      · rw [sliced] at same
        cases same

end Parsing

section Names

variable {field : FieldName} {text : Text}

/-- A listed name in lower or upper case, white space aside, or an integer as `int` reads it. -/
def Operand (field : FieldName) (text : Text) (value : Int) : Prop :=
  (∃ spelling ∈ spellings field.names, trim text = spelling.1 ∧ (spelling.2 : Int) = value) ∨ ReadsInt text value

def spanOperands (text : Text) : List Text :=
  match cutAt '-' text with
  | some (first, last) => [first, last]
  | none => [text]

def operands (part : Text) : List Text :=
  match cutAt '/' part with
  | some (rangePart, stepText) => stepText :: spanOperands rangePart
  | none => spanOperands part

/-- No name stands in the text, unless the text is that name with white space around it. -/
def StandsAlone (field : FieldName) (text : Text) : Prop :=
  (∃ spelling ∈ spellings field.names, trim text = spelling.1) ∨
    ∀ spelling ∈ spellings field.names, ¬spelling.1 <:+: text

instance : Decidable (StandsAlone field text) :=
  inferInstanceAs (Decidable (_ ∨ ∀ spelling ∈ spellings field.names, ¬spelling.1 <:+: text))

/-- In a field with names, every name is a whole operand, and neither of the characters that stand in for the
two separators is there. -/
structure NamesStandAlone (field : FieldName) (token : Text) : Prop where
  unmarked : field.names ≠ [] → '§' ∉ token ∧ '¶' ∉ token
  alone : ∀ part ∈ token.splitOn ',', ∀ operand ∈ operands (strip part), StandsAlone field operand

theorem digitTable_solid : ∀ field : FieldName, Solid (digitTable field.names) := by
  intro field
  cases field <;> decide

theorem digitTable_apart : ∀ field : FieldName, ∀ mark ∈ ['/', '-', '*', '§', '¶'],
    Apart mark (digitTable field.names) := by
  intro field
  cases field <;> decide

theorem readInt_spelling (field : FieldName) : ∀ spelling ∈ spellings field.names,
    readInt (replaceAll (digitTable field.names) spelling.1) = some (spelling.2 : Int) := by
  cases field <;> decide

theorem readInt_spelled (field : FieldName) : ∀ spelling ∈ spellings field.names, readInt spelling.1 = none := by
  cases field <;> decide

theorem digitTable_unspaced (field : FieldName) : ∀ entry ∈ digitTable field.names, ∀ c ∈ entry.1,
    isIntSpace c = false := by
  cases field <;> decide

theorem operand_iff (alone : StandsAlone field text) {value : Int} :
    ReadsInt (replaceAll (digitTable field.names) text) value ↔ Operand field text value := by
  -- the name of a text becomes its number
  have named : ∀ spelling ∈ spellings field.names, trim text = spelling.1 →
      readInt (replaceAll (digitTable field.names) text) = some (spelling.2 : Int) := by
    intro spelling mem same
    obtain ⟨front, back, before, behind, whole⟩ := exists_trim text
    rw [whole, same, replaceAll_surrounded, readInt_append before behind, readInt_spelling field spelling mem]
    · exact digitTable_solid field
    · exact digitTable_unspaced field
    · exact before
    · exact behind
  obtain ⟨spelling, mem, same⟩ | absent := alone
  · constructor
    · intro read
      have single : some (spelling.2 : Int) = some value := (named spelling mem same).symm.trans read
      exact .inl ⟨spelling, mem, same, Option.some.inj single⟩
    · rintro (⟨other, listed, equal, rfl⟩ | read)
      · exact named other listed equal
      · rw [ReadsInt, ← readInt_trim, same, readInt_spelled field spelling mem] at read
        cases read
  · have untouched : replaceAll (digitTable field.names) text = text := by
      apply replaceAll_of_absent
      intro entry mem
      obtain ⟨spelling, listed, rfl⟩ := List.mem_map.mp mem
      exact absent spelling listed
    rw [untouched]
    constructor
    · exact .inr
    · rintro (⟨spelling, listed, equal, -⟩ | read)
      · obtain ⟨front, back, -, -, whole⟩ := exists_trim text
        rw [equal] at whole
        exact absurd ⟨front, back, whole.symm⟩ (absent spelling listed)
      · exact read

theorem marked_plain {c : Char} (noSlash : c ≠ '/') (noDash : c ≠ '-') : marked c = c := by
  rw [marked, if_neg noSlash, if_neg noDash]

theorem unmarked_marked {c : Char} (first : c ≠ '§') (second : c ≠ '¶') : unmarked (marked c) = c := by
  unfold marked
  split
  next slash => exact slash.symm
  next =>
    split
    next dash => exact dash.symm
    next => rw [unmarked, if_neg first, if_neg second]

theorem resolveNames_eq (unmarked_ : field.names ≠ [] → '§' ∉ text ∧ '¶' ∉ text) :
    resolveNames field.names text = replaceAll (digitTable field.names) text := by
  unfold resolveNames
  split
  next empty =>
    rw [empty]
    rfl
  next named =>
    have apart := digitTable_apart field
    have plain : ∀ mark ∈ ['§', '¶'], mark ∉ replaceAll (digitTable field.names) text := by
      intro mark mem
      apply not_mem_replaceAll
      · exact fun entry listed => (apart mark (List.mem_of_mem_drop (i := 3) mem) entry listed).2
      · obtain ⟨first, second⟩ := unmarked_ named
        simp only [List.mem_cons, List.not_mem_nil, or_false] at mem
        obtain rfl | rfl := mem
        · exact first
        · exact second
    have spares : ∀ entry ∈ digitTable field.names, ∀ c ∈ entry.1, ∀ d, marked d = c ↔ d = c := by
      intro entry listed c inside d
      have differs : ∀ mark ∈ ['/', '-', '*', '§', '¶'], mark ≠ c := by
        rintro mark mem rfl
        exact (apart mark mem entry listed).1 inside
      simp only [List.forall_mem_cons] at differs
      unfold marked
      split
      next slash => simp [slash, differs]
      next =>
        split
        next dash => simp [dash, differs]
        next => rfl
    have fixed : ∀ entry ∈ digitTable field.names, entry.2.map marked = entry.2 := by
      intro entry listed
      have noSlash := (apart '/' (by decide) entry listed).2
      have noDash := (apart '-' (by decide) entry listed).2
      calc
        entry.2.map marked = entry.2.map id := List.map_congr_left fun c inside =>
          marked_plain (fun slash => noSlash (slash ▸ inside)) (fun dash => noDash (dash ▸ inside))
        _ = entry.2 := List.map_id _
    calc
      (replaceAll (digitTable field.names) (text.map marked)).map unmarked
          = (replaceAll (digitTable field.names) text).map (unmarked ∘ marked) := by
        rw [replaceAll_map spares fixed, List.map_map]
      _ = (replaceAll (digitTable field.names) text).map id := List.map_congr_left fun c inside =>
        unmarked_marked (fun stands => plain '§' (by decide) (stands ▸ inside))
          (fun stands => plain '¶' (by decide) (stands ▸ inside))
      _ = replaceAll (digitTable field.names) text := List.map_id _

theorem spanWritten_replaceAll {reads : Text → Int → Prop} {lo hi : Int} {span : Span} :
    SpanWritten reads lo hi (replaceAll (digitTable field.names) text) span ↔
      SpanWritten (fun text => reads (replaceAll (digitTable field.names) text)) lo hi text span := by
  have apart := digitTable_apart field
  rw [spanWritten_iff, spanWritten_iff, cutAt_replaceAll (digitTable_solid field) (apart '-' (by decide)),
    replaceAll_eq_singleton (digitTable_solid field) (apart '*' (by decide))]
  simp only [Option.map_eq_none_iff, Option.map_eq_some_iff, exists_exists_and_eq_and]

theorem written_replaceAll {reads : Text → Int → Prop} {lo hi : Int} {item : Item} :
    Written reads reads lo hi (replaceAll (digitTable field.names) text) item ↔
      Written (fun text => reads (replaceAll (digitTable field.names) text))
        (fun text => reads (replaceAll (digitTable field.names) text)) lo hi text item := by
  have apart := digitTable_apart field
  rw [written_iff, written_iff, cutAt_replaceAll (digitTable_solid field) (apart '/' (by decide))]
  simp only [Option.map_eq_none_iff, Option.map_eq_some_iff, exists_exists_and_eq_and, spanWritten_replaceAll]

section Operands

variable {reads others : Text → Int → Prop} {lo hi : Int}

theorem SpanWritten.of_operands {span : Span}
    (agree : ∀ operand ∈ spanOperands text, ∀ value, reads operand value → others operand value)
    (written : SpanWritten reads lo hi text span) : SpanWritten others lo hi text span := by
  cases written with
  | all => exact .all
  | value whole read within =>
    rw [spanOperands, cutAt_eq_none.mpr whole] at agree
    exact .value whole (agree _ List.mem_cons_self _ read) within
  | range whole readFirst readLast firstWithin lastWithin ordered =>
    rw [spanOperands, cutAt_append whole] at agree
    exact .range whole (agree _ List.mem_cons_self _ readFirst)
      (agree _ (List.mem_cons_of_mem _ List.mem_cons_self) _ readLast) firstWithin lastWithin ordered

theorem Written.of_operands {item : Item}
    (agree : ∀ operand ∈ operands text, ∀ value, reads operand value → others operand value)
    (written : Written reads reads lo hi text item) : Written others others lo hi text item := by
  cases written with
  | plain whole written =>
    rw [operands, cutAt_eq_none.mpr whole] at agree
    exact .plain whole (written.of_operands agree)
  | stepped whole written read positive =>
    rw [operands, cutAt_append whole] at agree
    obtain ⟨step, span⟩ := List.forall_mem_cons.mp agree
    exact .stepped whole (written.of_operands span) (step _ read) positive

end Operands

end Names

variable {field : FieldName} {token : Text}

def InGrammar (field : FieldName) (part : Text) (item : Item) : Prop :=
  Written (Operand field) (Operand field) field.lowest field.highest (strip part) item

theorem parsePart_resolved (spelled : NamesStandAlone field token) {part : Text}
    (mem : part ∈ token.splitOn ',') {values : List Int} :
    parsePart field (resolveNames field.names (strip part)) = .ok values ↔
      ∃ item, InGrammar field part item ∧ item.values field.lowest field.highest = values := by
  have inside : ∀ c ∈ strip part, c ∈ token :=
    fun c stands => mem_of_mem_splitOn mem (mem_of_mem_strip stands)
  have unmarked : field.names ≠ [] → '§' ∉ strip part ∧ '¶' ∉ strip part := fun named =>
    ⟨fun stands => (spelled.unmarked named).1 (inside _ stands),
      fun stands => (spelled.unmarked named).2 (inside _ stands)⟩
  have agree : ∀ operand ∈ operands (strip part), ∀ value,
      ReadsInt (replaceAll (digitTable field.names) operand) value ↔ Operand field operand value :=
    fun operand inside value => operand_iff (spelled.alone part mem operand inside)
  rw [resolveNames_eq unmarked, parsePart_eq_ok]
  refine exists_congr fun item => and_congr_left fun _ => ?_
  rw [written_replaceAll]
  constructor
  · exact Written.of_operands fun operand inside value => (agree operand inside value).mp
  · exact Written.of_operands fun operand inside value => (agree operand inside value).mpr

theorem parseField_eq_ok {parsed : CronField} : parseField field token field.names = .ok parsed ↔
      ∃ parts, (token.splitOn ',').mapM (fun part => parsePart field (resolveNames field.names (strip part))) =
        .ok parts ∧ parsed = ⟨parts.flatten.toFinset, strip token ≠ ['*']⟩ := by
  constructor
  · intro ran
    obtain ⟨parts, parses, ran⟩ := of_bind_ok ran
    cases ran
    exact ⟨parts, parses, rfl⟩
  · rintro ⟨parts, parses, rfl⟩
    unfold parseField
    rw [parses]
    rfl

theorem FieldName.lowest_le_highest (field : FieldName) : field.lowest ≤ field.highest := by
  cases field <;> decide

theorem Written.spread {reads stepReads : Text → Int → Prop} {lo hi : Int} {text : Text} {item : Item}
    (written : Written reads stepReads lo hi text item) (nonempty : lo ≤ hi) :
    (∃ v, item.Denotes lo hi v) ∧ ∀ v, item.Denotes lo hi v → lo ≤ v ∧ v ≤ hi := by
  obtain ⟨_, spanned⟩ : ∃ text, SpanWritten reads lo hi text item.span := by
    cases written with
    | plain whole written => exact ⟨_, written⟩
    | stepped whole written read positive => exact ⟨_, written⟩
  have starts : ∀ step first : Int, step ∣ first - first := by
    intro step first
    rw [Int.sub_self]
    exact Int.dvd_zero step
  obtain ⟨span, step⟩ := item
  cases spanned with
  | all => exact ⟨⟨lo, le_refl lo, nonempty, starts _ lo⟩, fun v denoted => ⟨denoted.1, denoted.2.1⟩⟩
  | value whole read within =>
    cases step with
    | none =>
      refine ⟨⟨_, rfl⟩, ?_⟩
      rintro v rfl
      exact within
    | some step =>
      exact ⟨⟨_, le_refl _, within.2, starts _ _⟩, fun v denoted => ⟨within.1.trans denoted.1, denoted.2.1⟩⟩
  | range whole readFirst readLast firstWithin lastWithin ordered =>
    refine ⟨⟨_, le_refl _, ordered, starts _ _⟩, ?_⟩
    exact fun v denoted => ⟨firstWithin.1.trans denoted.1, denoted.2.1.trans lastWithin.2⟩

/-- A field is parsed when every part of it is in the grammar, and then to the values its parts stand for. -/
theorem parseField_grammar (field : FieldName) (token : Text) (spelled : NamesStandAlone field token) :
    ((∃ parsed, parseField field token field.names = .ok parsed) ↔
      ∀ part ∈ token.splitOn ',', ∃ item, InGrammar field part item) ∧
    ∀ parsed, parseField field token field.names = .ok parsed →
      (∀ v, v ∈ parsed.values ↔ ∃ part ∈ token.splitOn ',', ∃ item, InGrammar field part item ∧
        item.Denotes field.lowest field.highest v) ∧
      parsed.values.Nonempty ∧ ∀ v ∈ parsed.values, field.lowest ≤ v ∧ v ≤ field.highest := by
  constructor
  · simp only [parseField_eq_ok, exists_comm (α := CronField), exists_and_left, exists_eq, and_true]
    rw [exists_mapM_ok]
    refine forall₂_congr fun part mem => ?_
    simp only [parsePart_resolved spelled mem]
    exact ⟨fun ⟨_, item, written, _⟩ => ⟨item, written⟩, fun ⟨item, written⟩ => ⟨_, item, written, rfl⟩⟩
  · intro parsed ran
    obtain ⟨parts, parses, rfl⟩ := parseField_eq_ok.mp ran
    have union : ∀ v, v ∈ parts.flatten.toFinset ↔ ∃ part ∈ token.splitOn ',', ∃ item,
        InGrammar field part item ∧
        item.Denotes field.lowest field.highest v := by
      intro v
      simp only [List.mem_toFinset, List.mem_flatten, mem_of_mapM_ok parses]
      constructor
      · rintro ⟨values, ⟨part, mem, parsed⟩, inside⟩
        obtain ⟨item, written, rfl⟩ := (parsePart_resolved spelled mem).mp parsed
        exact ⟨part, mem, item, written, (Item.mem_values written v).mp inside⟩
      · rintro ⟨part, mem, item, written, denoted⟩
        exact ⟨_, ⟨part, mem, (parsePart_resolved spelled mem).mpr ⟨item, written, rfl⟩⟩,
          (Item.mem_values written v).mpr denoted⟩
    have spread := fun part item (written : InGrammar field part item) => written.spread field.lowest_le_highest
    refine ⟨union, ?_, ?_⟩
    · obtain ⟨part, rest, same⟩ := List.exists_cons_of_ne_nil (List.splitOn_ne_nil ',' token)
      have mem : part ∈ token.splitOn ',' := same ▸ List.mem_cons_self
      obtain ⟨values, parsed⟩ := exists_mapM_ok.mp ⟨parts, parses⟩ part mem
      obtain ⟨item, written, -⟩ := (parsePart_resolved spelled mem).mp parsed
      obtain ⟨v, denoted⟩ := (spread part item written).1
      exact ⟨v, (union v).mpr ⟨part, mem, item, written, denoted⟩⟩
    · intro v inside
      obtain ⟨part, -, item, written, denoted⟩ := (union v).mp inside
      exact (spread part item written).2 v denoted

/-- A range of months by name. -/
theorem parseField_grammar_months :
    ∃ parsed, parseField .month "jan-MAR,12/feb".toList FieldName.month.names = .ok parsed ∧
      parsed.values.Nonempty := by
  have ran : parseField .month "jan-MAR,12/feb".toList FieldName.month.names =
      .ok ⟨{1, 2, 3, 12}, true⟩ := by decide
  exact ⟨_, ran, ((parseField_grammar .month "jan-MAR,12/feb".toList ⟨by decide, by decide⟩).2 _ ran).2.1⟩

/-- A name is resolved in a step too, so the step need not be an integer. -/
theorem named_step_is_accepted :
    (∃ parsed, parseField .month "*/feb".toList FieldName.month.names = .ok parsed) ∧
      ¬∀ part ∈ "*/feb".toList.splitOn ',', ∃ item,
        Written (Operand .month) ReadsInt FieldName.month.lowest FieldName.month.highest part item := by
  constructor
  · exact ⟨⟨{1, 3, 5, 7, 9, 11}, true⟩, by decide⟩
  · intro listed
    obtain ⟨item, written⟩ := listed "*/feb".toList (by decide)
    have sliced : cutAt '/' "*/feb".toList = some (['*'], "feb".toList) := by decide
    have unread : readInt "feb".toList = none := by decide
    obtain ⟨whole, -⟩ | ⟨cut, found, -, step, -, read, -⟩ := written_iff.mp written
    · rw [sliced] at whole
      cases whole
    · rw [sliced] at found
      cases found
      rw [ReadsInt, unread] at read
      cases read

open Calendar

def presets : List (String × String) :=
  [("@yearly", "0 0 1 1 *"), ("@annually", "0 0 1 1 *"), ("@monthly", "0 0 1 * *"), ("@weekly", "0 0 * * 0"),
    ("@daily", "0 0 * * *"), ("@midnight", "0 0 * * *"), ("@hourly", "0 * * * *")]

structure CronExpression where
  minute : CronField
  hour : CronField
  dayOfMonth : CronField
  month : CronField
  dayOfWeek : CronField
  raw : Text
  deriving DecidableEq

def CronField.matches (field : CronField) (value : Int) : Bool := value ∈ field.values

def CronExpression.matches (expr : CronExpression) (dt : Civil) : Bool :=
  if !(expr.minute.matches dt.minute && expr.hour.matches dt.hour) then false
  else if !expr.month.matches dt.date.month then false
  else
    let domMatches := expr.dayOfMonth.matches dt.date.day
    let dowMatches := expr.dayOfWeek.matches ((dt.weekday + 1) % 7)
    -- the two day fields are put together with an OR when both are restricted
    if expr.dayOfMonth.restricted && expr.dayOfWeek.restricted then domMatches || dowMatches
    else domMatches && dowMatches

def expandPreset (expr : Text) : Except CronParseError Text :=
  if expr.head? = some '@' then
    orRaise ((presets.lookup (String.ofList expr)).map String.toList)
      ("Unknown preset '" ++ String.ofList expr ++ "'")
  else .ok expr

def parseCron (expr : Text) : Except CronParseError CronExpression := do
  let expr ← expandPreset (strip expr)
  match words expr with
  | [minuteTok, hourTok, domTok, monthTok, dowTok] => do
    let minute ← parseField .minute minuteTok []
    let hour ← parseField .hour hourTok []
    let dayOfMonth ← parseField .dayOfMonth domTok []
    let month ← parseField .month monthTok monthNames
    let dayOfWeek ← parseField .dayOfWeek dowTok dowNames
    return ⟨minute, hour, dayOfMonth, month, dayOfWeek, expr⟩
  | fields =>
    .error ("Expected 5 fields, got " ++ toString fields.length ++ ": '" ++ String.ofList expr ++ "'")

end OpenSquilla.Scheduler
