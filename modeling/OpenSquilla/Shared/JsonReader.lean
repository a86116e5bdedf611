import OpenSquilla.Shared.JsonText
import OpenSquilla.Shared.Dict

set_option autoImplicit false

namespace JsonText

open TextLines TextScan

inductive StringUnit
  | plain (c : Char)
  | escaped (code : Nat)

def hexValue? (c : Char) : Option Nat :=
  if c.isDigit then some (c.toNat - 48)
  else if 'a' ≤ c && c ≤ 'f' then some (c.toNat - 87)
  else if 'A' ≤ c && c ≤ 'F' then some (c.toNat - 55)
  else none

def hexCode (digits : List Char) : Option Nat :=
  (digits.mapM hexValue?).map fun values => values.foldl (fun code value => 16 * code + value) 0

def backslashes : List (Char × Char) := ('/', '/') :: shortEscapes.map fun entry => (entry.2, entry.1)

-- Behind the opening quote, the string with what follows the closing one.
def scanUnits : Text → Option (List StringUnit × Text)
  | [] => none
  | '"' :: rest => some ([], rest)
  | '\\' :: 'u' :: a :: b :: c :: d :: rest => do
    let code ← hexCode [a, b, c, d]
    let (units, rest) ← scanUnits rest
    return (.escaped code :: units, rest)
  | '\\' :: mark :: rest => do
    let c ← backslashes.lookup mark
    let (units, rest) ← scanUnits rest
    return (.plain c :: units, rest)
  | c :: rest =>
    if c.toNat < 32 then none
    else do
      let (units, rest) ← scanUnits rest
      return (.plain c :: units, rest)

def isHigh (code : Nat) : Bool := 0xD800 ≤ code && code < 0xDC00

def isLow (code : Nat) : Bool := 0xDC00 ≤ code && code < 0xE000

def pointOf (code : Nat) : CodePoint :=
  if isHigh code || isLow code then .surrogate (Fin.ofNat 2048 (code - 0xD800)) else .char (Char.ofNat code)

def joinUnits : List StringUnit → Str
  | [] => []
  | .plain c :: rest => .char c :: joinUnits rest
  | .escaped high :: .escaped low :: rest =>
    if isHigh high && isLow low then
      .char (Char.ofNat (0x10000 + (high - 0xD800) * 0x400 + (low - 0xDC00))) :: joinUnits rest
    else pointOf high :: joinUnits (.escaped low :: rest)
  | .escaped code :: rest => pointOf code :: joinUnits rest

def scanString (text : Text) : Option (Str × Text) :=
  (scanUnits text).map fun (units, rest) => (joinUnits units, rest)

def scanDigits (text : Text) : Text × Text := (text.takeWhile Char.isDigit, text.dropWhile Char.isDigit)

def scanInteger (text : Text) : Option (Text × Text) :=
  match text with
  | '0' :: rest => some (['0'], rest)
  | text => let (digits, rest) := scanDigits text; if digits = [] then none else some (digits, rest)

def scanFraction (text : Text) : Option Text × Text :=
  match text with
  | '.' :: behind =>
      let (digits, rest) := scanDigits behind; if digits = [] then (none, text) else (some digits, rest)
  | _ => (none, text)

def scanSign (text : Text) : Option Char × Text :=
  match text with
  | '+' :: rest => (some '+', rest)
  | '-' :: rest => (some '-', rest)
  | _ => (none, text)

def scanExponent (text : Text) : Option Exponent × Text :=
  match text with
  | mark :: behind =>
    if mark = 'e' || mark = 'E' then
      let (sign, unsigned) := scanSign behind
      let (digits, rest) := scanDigits unsigned
      if digits = [] then (none, text) else (some ⟨mark, sign, digits⟩, rest)
    else (none, text)
  | [] => (none, text)

def scanMinus (text : Text) : Bool × Text :=
  match text with
  | '-' :: rest => (true, rest)
  | _ => (false, text)

def scanNumber (text : Text) : Option (Number × Text) := do
  let (negative, text) := scanMinus text
  let (integer, text) ← scanInteger text
  let (fraction, text) := scanFraction text
  let (exponent, text) := scanExponent text
  return (⟨negative, integer, fraction, exponent⟩, text)

section Documents

variable {F α : Type} (floats : Floats F)

def isBlank (c : Char) : Bool := [' ', '\t', '\n', '\r'].contains c

def skipBlanks (text : Text) : Text := text.dropWhile isBlank

-- Behind an item: another one behind a comma, or the end.
def readMore (read : Text → Option (α × Text)) (close : Char) : Nat → Text → Option (List α × Text)
  | 0, _ => none
  | fuel + 1, text =>
    match skipBlanks text with
    | ',' :: rest => do
      let (item, rest) ← read (skipBlanks rest)
      let (items, rest) ← readMore read close fuel rest
      return (item :: items, rest)
    | c :: rest => if c = close then some ([], rest) else none
    | [] => none

def readItems (read : Text → Option (α × Text)) (close : Char) (fuel : Nat) (text : Text) :
    Option (List α × Text) :=
  match skipBlanks text with
  | [] => none
  | c :: rest =>
    if c = close then some ([], rest)
    else do
      let (item, rest) ← read (c :: rest)
      let (items, rest) ← readMore read close fuel rest
      return (item :: items, rest)

def readField (read : Text → Option (α × Text)) (text : Text) : Option ((Str × α) × Text) :=
  match text with
  | '"' :: rest => do
    let (key, rest) ← scanString rest
    match skipBlanks rest with
    | ':' :: rest => do
      let (item, rest) ← read (skipBlanks rest)
      return ((key, item), rest)
    | _ => none
  | _ => none

def readScalar (text : Text) : Option (Scalar F × Text) :=
  if "null".toList.isPrefixOf text then some (.null, text.drop 4)
  else if "true".toList.isPrefixOf text then some (.bool true, text.drop 4)
  else if "false".toList.isPrefixOf text then some (.bool false, text.drop 5)
  else do
    let (number, rest) ← scanNumber text
    return (if number.isFloat then .float (floats.read number) else .int number.toInt, rest)

def readJson : Nat → Text → Option (Json F × Text)
  | 0, _ => none
  | fuel + 1, text =>
    match text with
    | '"' :: rest => (scanString rest).map fun (points, rest) => (.scalar (.str points), rest)
    | '[' :: rest => (readItems (readJson fuel) ']' fuel rest).map fun (items, rest) => (.array items, rest)
    | '\x7b' :: rest =>
      (readItems (readField (readJson fuel)) '\x7d' fuel rest).map fun (fields, rest) =>
        -- the last value under a key
        (.object (Dict.ofList fields).entries, rest)
    | text => (readScalar floats text).map fun (value, rest) => (.scalar value, rest)

-- The document of a text, with nothing but blanks around it.
def parse (text : Text) : Option (Json F) := do
  let (json, rest) ← readJson floats (text.length + 1) (skipBlanks text)
  if skipBlanks rest = [] then some json else none

def loads (bytes : List UInt8) :
    Option (Json F) := bytes.toByteArray.utf8Decode?.bind fun chars => parse floats chars.toList

end Documents

def unitOf (c : Char) : StringUnit :=
  if shortEscapes.lookup c = none && c.toNat < 32 then .escaped c.toNat else .plain c

theorem hexCode_control : ∀ n < 32,
    hexCode ['0', '0', Nat.digitChar (n / 16), Nat.digitChar (n % 16)] = some n := by
  decide

theorem backslashes_of_short {c mark : Char} (short : shortEscapes.lookup c = some mark) :
    backslashes.lookup mark = some c ∧ mark ≠ 'u' := by
  have table : ∀ entry ∈ shortEscapes, backslashes.lookup entry.2 = some entry.1 ∧ entry.2 ≠ 'u' := by decide
  obtain ⟨before, behind, split, -⟩ := List.lookup_eq_some_iff.1 short
  exact table (c, mark) (split ▸ List.mem_append_right _ List.mem_cons_self)

theorem scanUnits_short {c mark : Char} (short : shortEscapes.lookup c = some mark) (rest : Text) :
    scanUnits ('\\' :: mark :: rest) = (scanUnits rest).map fun (units, rest) => (.plain c :: units, rest) := by
  obtain ⟨found, other⟩ := backslashes_of_short short
  rw [scanUnits.eq_4 _ _ (by simp [other]), found]
  cases scanUnits rest <;> rfl

theorem scanUnits_plain {c : Char} (quote : c ≠ '"') (slash : c ≠ '\\') (visible : ¬c.toNat < 32) (rest : Text) :
    scanUnits (c :: rest) = (scanUnits rest).map fun (units, rest) => (.plain c :: units, rest) := by
  rw [scanUnits, if_neg visible]
  · cases scanUnits rest <;> rfl
  all_goals simp [quote, slash]

theorem scanUnits_escapeChar (c : Char) (rest : Text) :
    scanUnits (escapeChar c ++ rest) = (scanUnits rest).map fun (units, rest) => (unitOf c :: units, rest) := by
  unfold escapeChar unitOf
  cases short : shortEscapes.lookup c with
  | some mark => exact scanUnits_short short rest
  | none =>
    by_cases control : c.toNat < 32
    · simp only [if_pos control, List.cons_append, List.nil_append, scanUnits, hexCode_control _ control]
      cases scanUnits rest <;> simp [control]
    · have quote : c ≠ '"' := by
        rintro rfl
        cases short
      have slash : c ≠ '\\' := by
        rintro rfl
        cases short
      simp only [if_neg control, List.cons_append, List.nil_append, scanUnits_plain quote slash control]
      simp [control]

theorem joinUnits_unitOf (c : Char) (units : List StringUnit) :
    joinUnits (unitOf c :: units) = .char c :: joinUnits units := by
  unfold unitOf
  split_ifs with control
  · simp only [Bool.and_eq_true, decide_eq_true_eq] at control
    have high : isHigh c.toNat = false := by simp [isHigh]; omega
    have low : isLow c.toNat = false := by simp [isLow]; omega
    have point : pointOf c.toNat = .char c := by simp [pointOf, high, low]
    cases units with
    | nil => simp [joinUnits, point]
    | cons unit units =>
      cases unit with
      | plain d => simp [joinUnits, point]
      | escaped code => rw [joinUnits, high, Bool.false_and, if_neg Bool.false_ne_true, point]
  · rw [joinUnits]

theorem scanUnits_escaped {points : Str} (text : IsText points) (rest : Text) :
    ∃ units, joinUnits units = points ∧ scanUnits (escaped points ++ '"' :: rest) = some (units, rest) := by
  induction points with
  | nil => exact ⟨[], rfl, by rw [escaped, List.flatMap_nil, List.nil_append, scanUnits]⟩
  | cons point points ih =>
    obtain ⟨⟨c, rfl⟩, later⟩ := List.forall_mem_cons.1 text
    obtain ⟨units, joined, scanned⟩ := ih later
    rw [escaped] at scanned
    refine ⟨unitOf c :: units, by rw [joinUnits_unitOf, joined], ?_⟩
    rw [escaped, List.flatMap_cons, List.append_assoc, CodePoint.shown, scanUnits_escapeChar, scanned]
    rfl

theorem scanString_escaped {points : Str} (text : IsText points) (rest : Text) :
    scanString (escaped points ++ '"' :: rest) = some (points, rest) := by
  obtain ⟨units, rfl, scanned⟩ := scanUnits_escaped text rest
  rw [scanString, scanned]
  rfl

def Stops (rest : Text) : Prop := ∀ c, rest.head? = some c → c.isDigit = false ∧ c ≠ '.' ∧ c ≠ 'e' ∧ c ≠ 'E'

theorem scanDigits_append {digits rest : Text} (each : ∀ c ∈ digits, c.isDigit = true)
    (stops : ∀ c, rest.head? = some c → c.isDigit = false) : scanDigits (digits ++ rest) = (digits, rest) := by
  have taken : rest.takeWhile Char.isDigit = [] := by
    cases rest with
    | nil => rfl
    | cons c rest => rw [List.takeWhile_cons_of_neg (by simp [stops c rfl])]
  have left : rest.dropWhile Char.isDigit = rest := by
    cases rest with
    | nil => rfl
    | cons c rest => rw [List.dropWhile_cons_of_neg (by simp [stops c rfl])]
  rw [scanDigits, List.takeWhile_append_of_pos each, List.dropWhile_append_of_pos each, taken, left,
      List.append_nil]

theorem scanInteger_append {integer rest : Text} (lawful : IsInteger integer)
    (stops : ∀ c, rest.head? = some c → c.isDigit = false) :
    scanInteger (integer ++ rest) = some (integer, rest) := by
  obtain ⟨⟨some, each⟩, zero⟩ := lawful
  obtain ⟨first, digits, rfl⟩ := List.exists_cons_of_ne_nil some
  by_cases leading : first = '0'
  · rw [leading] at zero ⊢
    rw [zero rfl, List.singleton_append, scanInteger]
  · rw [scanInteger]
    · simp only [scanDigits_append each stops, if_neg some]
    · rintro rest' same
      exact leading (List.cons.inj same).1

theorem scanFraction_append {fraction : Option Text} {rest : Text}
    (lawful : ∀ digits, fraction = some digits → IsDigits digits)
    (stops : ∀ c, rest.head? = some c → c.isDigit = false ∧ c ≠ '.') :
    scanFraction (fraction.elim [] ('.' :: ·) ++ rest) = (fraction, rest) := by
  cases fraction with
  | none =>
    rw [Option.elim_none, List.nil_append]
    cases rest with
    | nil => rfl
    | cons c rest =>
      rw [scanFraction]
      rintro behind same
      exact (stops c rfl).2 (List.cons.inj same).1
  | some digits =>
    obtain ⟨some, each⟩ := lawful digits rfl
    simp only [Option.elim_some, List.cons_append, scanFraction,
      scanDigits_append each fun c head => (stops c head).1, if_neg some]

theorem scanSign_append {sign : Option Char} {rest : Text} (lawful : ∀ c, sign = some c → c = '+' ∨ c = '-')
    (stops : ∀ c, rest.head? = some c → c ≠ '+' ∧ c ≠ '-') : scanSign (sign.toList ++ rest) = (sign, rest) := by
  cases sign with
  | none =>
    rw [Option.toList_none, List.nil_append]
    cases rest with
    | nil => rfl
    | cons c rest => rw [scanSign] <;> simp [stops c rfl]
  | some c =>
    obtain rfl | rfl := lawful c rfl
    · rfl
    · rfl

theorem scanExponent_append {exponent : Option Exponent} {rest : Text}
    (lawful : ∀ written, exponent = some written → written.Lawful) (stops : Stops rest) :
    scanExponent (exponent.elim [] Exponent.text ++ rest) = (exponent, rest) := by
  cases exponent with
  | none =>
    rw [Option.elim_none, List.nil_append]
    cases rest with
    | nil => rfl
    | cons c rest => rw [scanExponent, if_neg (by simp [stops c rfl])]
  | some exponent =>
    obtain ⟨mark, sign, some, each⟩ := lawful exponent rfl
    have unsigned : ∀ c, (exponent.digits ++ rest).head? = Option.some c → c ≠ '+' ∧ c ≠ '-' := by
      intro c head
      rw [List.head?_append_of_ne_nil _ some] at head
      have digit := each c (List.mem_of_head? head)
      constructor <;>
        · rintro rfl
          cases digit
    have marked : (exponent.mark = 'e' || exponent.mark = 'E') = true := by simpa using mark
    rw [Option.elim_some, Exponent.text, List.cons_append, List.append_assoc, scanExponent, if_pos marked]
    simp only [scanSign_append sign unsigned, scanDigits_append each fun c head => (stops c head).1, if_neg some]

theorem scanMinus_append {negative : Bool} {rest : Text} (plain : rest.head? ≠ some '-') :
    scanMinus ((if negative then ['-'] else []) ++ rest) = (negative, rest) := by
  cases negative with
  | true => rfl
  | false =>
    rw [if_neg Bool.false_ne_true, List.nil_append, scanMinus]
    rintro behind rfl
    exact plain rfl

theorem head?_of_digits {digits : Text} (lawful : IsDigits digits) (rest : Text) :
    ∃ c, (digits ++ rest).head? = some c ∧ c.isDigit = true := by
  obtain ⟨some, each⟩ := lawful
  obtain ⟨first, digits, rfl⟩ := List.exists_cons_of_ne_nil some
  exact ⟨first, rfl, each first List.mem_cons_self⟩

theorem scanNumber_append {number : Number} {rest : Text} (lawful : number.Lawful) (stops : Stops rest) :
    scanNumber (number.text ++ rest) = some (number, rest) := by
  have digitless : ∀ c, (number.exponent.elim [] Exponent.text ++ rest).head? = some c →
      c.isDigit = false ∧ c ≠ '.' := by
    intro c head
    cases exponent : number.exponent with
    | none =>
      rw [exponent, Option.elim_none, List.nil_append] at head
      exact ⟨(stops c head).1, (stops c head).2.1⟩
    | some written =>
      rw [exponent, Option.elim_some, Exponent.text, List.cons_append, List.head?_cons,
          Option.some.injEq] at head
      obtain mark | mark := (lawful.exponent written exponent).mark
      · rw [← head, mark]
        decide
      · rw [← head, mark]
        decide
  have pointless : ∀ c,
      (number.fraction.elim [] ('.' :: ·) ++ (number.exponent.elim [] Exponent.text ++ rest)).head? =
      some c → c.isDigit = false := by
    intro c head
    cases fraction : number.fraction with
    | none =>
      rw [fraction, Option.elim_none, List.nil_append] at head
      exact (digitless c head).1
    | some digits =>
      rw [fraction, Option.elim_some, List.cons_append, List.head?_cons, Option.some.injEq] at head
      rw [← head]
      decide
  have unsigned : ∀ rest : Text, (number.integer ++ rest).head? ≠ some '-' := by
    intro rest minus
    obtain ⟨c, head, digit⟩ := head?_of_digits lawful.integer.1 rest
    rw [minus, Option.some.injEq] at head
    rw [← head] at digit
    cases digit
  simp only [Number.text, List.append_assoc, scanNumber, scanMinus_append (unsigned _),
    scanInteger_append lawful.integer pointless, bind, Option.bind,
      scanFraction_append lawful.fraction digitless,
    scanExponent_append lawful.exponent stops]
  rfl

theorem head?_toDigits {n : Nat} (zero : (Nat.toDigits 10 n).head? = some '0') : n = 0 := by
  induction n using Nat.strong_induction_on with
  | _ n ih =>
    by_cases small : n < 10
    · have one : ∀ n < 10, Nat.digitChar n = '0' → n = 0 := by decide
      rw [Nat.toDigits_of_lt_base small, List.head?_cons, Option.some.injEq] at zero
      exact one n small zero
    · rw [Nat.toDigits_of_base_le (by decide) (by omega),
          List.head?_append_of_ne_nil _ Nat.toDigits_ne_nil] at zero
      have front := ih (n / 10) (by omega) zero
      omega

theorem lawful_ofInt (value : Int) : (Number.ofInt value).Lawful where
  integer := by
    refine ⟨⟨Nat.toDigits_ne_nil,
        fun c mem => Nat.isDigit_of_mem_toDigits (by decide) (by decide) mem⟩, ?_⟩
    intro zero
    show Nat.toDigits 10 value.natAbs = _
    rw [head?_toDigits zero, Nat.toDigits_zero]
  fraction := by
    intro digits absent
    cases absent
  exponent := by
    intro exponent absent
    cases absent

theorem toInt_ofInt (value : Int) : (Number.ofInt value).toInt = value := by
  rw [Number.toInt, Number.ofInt, decimal_toDigits]
  simp only [decide_eq_true_eq]
  split <;> omega

theorem head?_text {number : Number} (lawful : number.Lawful) :
    ∃ c rest, number.text = c :: rest ∧ (c = '-' ∨ c.isDigit = true) := by
  rw [Number.text, List.append_assoc]
  cases number.negative with
  | true => exact ⟨'-', _, rfl, .inl rfl⟩
  | false =>
    obtain ⟨c, head, digit⟩ := head?_of_digits lawful.integer.1
      (number.fraction.elim [] ('.' :: ·) ++ number.exponent.elim [] Exponent.text)
    obtain ⟨rest, split⟩ := List.head?_eq_some_iff.1 head
    exact ⟨c, rest, split, .inr digit⟩

section RoundTrip

variable {F α : Type} {floats : Floats F} {read : Text → Option (α × Text)} {close : Char} {spell : α → Text}

def Ends (rest : Text) : Prop := ∀ c, rest.head? = some c → c = ',' ∨ c = ']' ∨ c = '\x7d'

theorem Ends.stops {rest : Text} (ends : Ends rest) : Stops rest := by
  intro c head
  obtain rfl | rfl | rfl := ends c head <;> decide

theorem ends_cons {c : Char} (mark : c = ',' ∨ c = ']' ∨ c = '\x7d') (rest : Text) : Ends (c :: rest) := by
  intro first head
  rw [List.head?_cons, Option.some.injEq] at head
  rwa [← head]

def Solid (text : Text) : Prop :=
  ∃ c rest, text = c :: rest ∧ isBlank c = false ∧ c ≠ ',' ∧ c ≠ ']' ∧ c ≠ '\x7d'

theorem Solid.skipBlanks {text : Text} (solid : Solid text) (rest : Text) :
    skipBlanks (text ++ rest) = text ++ rest := by
  obtain ⟨c, behind, rfl, plain, -⟩ := solid
  exact List.dropWhile_cons_of_neg (by simp [plain])

def Reads (read : Text → Option (α × Text)) (text : Text) (item : α) : Prop :=
  ∀ rest, Ends rest → read (text ++ rest) = some (item, rest)

theorem skipBlanks_close (closes : close = ']' ∨ close = '\x7d') (rest : Text) :
    skipBlanks (close :: rest) = close :: rest := by
  obtain rfl | rfl := closes <;> rfl

theorem readMore_spelled (closes : close = ']' ∨ close = '\x7d') {items : List α}
    (reads : ∀ item ∈ items, Reads read (spell item) item) (solid : ∀ item ∈ items, Solid (spell item))
    {fuel : Nat} (enough : items.length < fuel) (rest : Text) :
    readMore read close fuel (items.flatMap (fun item => ',' :: spell item) ++ close :: rest) =
      some (items, rest) := by
  induction items generalizing fuel with
  | nil =>
    obtain ⟨fuel, rfl⟩ := Nat.exists_eq_succ_of_ne_zero (Nat.ne_zero_of_lt enough)
    rw [List.flatMap_nil, List.nil_append, readMore, skipBlanks_close closes]
    obtain rfl | rfl := closes
    · rfl
    · rfl
  | cons item items ih =>
    obtain ⟨fuel, rfl⟩ := Nat.exists_eq_succ_of_ne_zero (Nat.ne_zero_of_lt enough)
    obtain ⟨here, later⟩ := List.forall_mem_cons.1 reads
    obtain ⟨first, others⟩ := List.forall_mem_cons.1 solid
    have ends : Ends (items.flatMap (fun item => ',' :: spell item) ++ close :: rest) := by
      cases items with
      | nil => exact ends_cons (.inr closes) rest
      | cons next items => exact ends_cons (.inl rfl) _
    have comma :
        skipBlanks (',' :: (spell item ++ (items.flatMap (fun item => ',' :: spell item) ++ close :: rest))) =
        ',' :: (spell item ++ (items.flatMap (fun item => ',' :: spell item) ++ close :: rest)) := rfl
    rw [List.flatMap_cons, List.cons_append, List.cons_append, List.append_assoc, readMore, comma]
    simp only [first.skipBlanks, here _ ends, bind, Option.bind, ih later others (Nat.lt_of_succ_lt_succ enough)]
    rfl

theorem readItems_spelled (closes : close = ']' ∨ close = '\x7d') {items : List α}
    (reads : ∀ item ∈ items, Reads read (spell item) item) (solid : ∀ item ∈ items, Solid (spell item))
    {fuel : Nat} (enough : items.length ≤ fuel) (rest : Text) :
    readItems read close fuel ([','].intercalate (items.map spell) ++ close :: rest) = some (items, rest) := by
  cases items with
  | nil =>
    have empty : [','].intercalate ([].map spell) ++ close :: rest = close :: rest := rfl
    rw [empty, readItems, skipBlanks_close closes]
    simp
  | cons item items =>
    obtain ⟨here, later⟩ := List.forall_mem_cons.1 reads
    obtain ⟨first, others⟩ := List.forall_mem_cons.1 solid
    have ends : Ends (items.flatMap (fun item => ',' :: spell item) ++ close :: rest) := by
      cases items with
      | nil => exact ends_cons (.inr closes) rest
      | cons next items => exact ends_cons (.inl rfl) _
    have read_ := here _ ends
    rw [List.map_cons, intercalate_cons, List.flatMap_map, List.append_assoc, readItems, first.skipBlanks]
    obtain ⟨c, behind, spelled, -, -, bracket, brace⟩ := first
    have opens : c ≠ close := by
      obtain rfl | rfl := closes
      · exact bracket
      · exact brace
    rw [spelled, List.cons_append] at read_ ⊢
    simp only [if_neg opens, read_, bind, Option.bind, readMore_spelled closes later others enough rest]
    rfl

theorem length_le_intercalate {text : Text} {texts : List Text} (mem : text ∈ texts) :
    text.length ≤ ([','].intercalate texts).length := by
  cases texts with
  | nil => cases mem
  | cons first rest =>
    rw [intercalate_cons, List.length_append]
    obtain rfl | mem := List.mem_cons.1 mem
    · omega
    · obtain ⟨before, behind, rfl⟩ := List.append_of_mem mem
      simp
      omega

theorem count_le_intercalate (texts : List Text) (some : ∀ text ∈ texts, text ≠ []) :
    texts.length ≤ ([','].intercalate texts).length := by
  cases texts with
  | nil => exact Nat.zero_le _
  | cons first rest =>
    have one := List.length_pos_iff.2 (some first List.mem_cons_self)
    have others : rest.length ≤ (rest.flatMap (',' :: ·)).length := by
      clear some
      induction rest with
      | nil => exact Nat.zero_le _
      | cons next rest ih =>
        rw [List.flatMap_cons, List.length_append, List.length_cons, List.length_cons]
        omega
    rw [intercalate_cons, List.length_append, List.length_cons]
    omega

theorem quoted_append (points : Str) (rest : Text) :
    quoted points ++ rest = '"' :: (escaped points ++ '"' :: rest) := by
  simp [quoted]

theorem solid_text (floats : Floats F) (json : Json F) : Solid (json.text floats) := by
  have number : ∀ number : Number, number.Lawful → Solid number.text := by
    intro number lawful
    obtain ⟨c, rest, spelled, first⟩ := head?_text lawful
    refine ⟨c, rest, spelled, ?_⟩
    obtain rfl | digit := first
    · decide
    · refine ⟨?_, ?_, ?_, ?_⟩
      · rw [Bool.eq_false_iff]
        intro blank
        have blanks : ∀ c ∈ [' ', '\t', '\n', '\r'], c.isDigit = false := by decide
        rw [blanks c (List.contains_iff_mem.1 blank)] at digit
        cases digit
      all_goals
        rintro rfl
        cases digit
  cases json with
  | scalar value =>
    cases value with
    | null => exact ⟨'n', _, rfl, by decide⟩
    | bool value => cases value with
      | true => exact ⟨'t', _, rfl, by decide⟩
      | false => exact ⟨'f', _, rfl, by decide⟩
    | int value => exact number _ (lawful_ofInt value)
    | float value => exact number _ (floats.lawful value).1
    | str points => exact ⟨'"', _, rfl, by decide⟩
  | array items => exact ⟨'[', _, text_array floats items, by decide⟩
  | object fields => exact ⟨'\x7b', _, text_object floats fields, by decide⟩

theorem Solid.ne_nil {text : Text} (solid : Solid text) : text ≠ [] := by
  obtain ⟨c, rest, rfl, -⟩ := solid
  exact List.cons_ne_nil _ _

theorem readScalar_number (floats : Floats F) {number : Number} (lawful : number.Lawful) {rest : Text}
    (ends : Ends rest) : readScalar floats (number.text ++ rest) =
      some (if number.isFloat then .float (floats.read number) else .int number.toInt, rest) := by
  obtain ⟨c, behind, spelled, first⟩ := head?_text lawful
  have other : ∀ word : Text, (∀ d, word.head? = some d → d ≠ '-' ∧ d.isDigit = false) → word ≠ [] →
      word.isPrefixOf (number.text ++ rest) = false := by
    intro word starts some
    obtain ⟨d, word, rfl⟩ := List.exists_cons_of_ne_nil some
    obtain ⟨minus, digit⟩ := starts d rfl
    rw [spelled, List.cons_append, List.isPrefixOf_cons_cons, Bool.and_eq_false_iff, beq_eq_false_iff_ne]
    left
    rintro rfl
    obtain same | same := first
    · exact minus same
    · rw [digit] at same
      cases same
  have letter : ∀ {word : Text} (c : Char), word.head? = some c → c ≠ '-' → c.isDigit = false →
      ∀ d, word.head? = some d → d ≠ '-' ∧ d.isDigit = false := by
    intro word c first minus digit d same
    obtain rfl := Option.some.inj (first.symm.trans same)
    exact ⟨minus, digit⟩
  rw [readScalar, other "null".toList (letter 'n' rfl (by decide) rfl) (by decide),
    other "true".toList (letter 't' rfl (by decide) rfl) (by decide),
    other "false".toList (letter 'f' rfl (by decide) rfl) (by decide)]
  simp only [Bool.false_eq_true, if_false, scanNumber_append lawful ends.stops]
  rfl

theorem readJson_scalar {value : Scalar F} (text : value.IsText) {fuel : Nat} :
    Reads (readJson floats (fuel + 1)) (value.text floats) (.scalar value) := by
  intro rest ends
  have number : ∀ number : Number, number.Lawful →
      readJson floats (fuel + 1) (number.text ++ rest) =
        some (.scalar (if number.isFloat then .float (floats.read number) else .int number.toInt), rest) := by
    intro number lawful
    have read := readScalar_number floats lawful ends
    obtain ⟨c, behind, spelled, first⟩ := head?_text lawful
    rw [spelled, List.cons_append] at read ⊢
    rw [readJson, read, Option.map_some]
    all_goals
      rintro rest' same
      rw [(List.cons.inj same).1] at first
      simp at first
  cases value with
  | null => rfl
  | bool value => cases value <;> rfl
  | int value => exact (number _ (lawful_ofInt value)).trans (by rw [toInt_ofInt]; rfl)
  | float value =>
    obtain ⟨lawful, isFloat⟩ := floats.lawful value
    exact (number _ lawful).trans (by rw [isFloat, if_pos rfl, floats.read_repr])
  | str points =>
    rw [Scalar.text, quoted_append, readJson, scanString_escaped text]
    rfl

theorem readField_spelled {read : Text → Option (α × Text)} {key : Str} {item : α} {spelled : Text}
    (text : IsText key) (solid : Solid spelled) (reads : Reads read spelled item) :
    Reads (readField read) (quoted key ++ ':' :: spelled) (key, item) := by
  intro rest ends
  have colon : skipBlanks (':' :: (spelled ++ rest)) = ':' :: (spelled ++ rest) := rfl
  rw [List.append_assoc, quoted_append, readField, List.cons_append]
  simp only [scanString_escaped text, bind, Option.bind, colon, solid.skipBlanks, reads rest ends]
  rfl

theorem readJson_text {json : Json F} (text : json.IsText) (distinct : json.Distinct) {fuel : Nat}
    (enough : (json.text floats).length ≤ fuel) : Reads (readJson floats fuel) (json.text floats) json := by
  induction json using Json.induct generalizing fuel with
  | scalar value =>
    have some := List.length_pos_iff.2 (solid_text floats (.scalar value)).ne_nil
    obtain ⟨fuel, rfl⟩ := Nat.exists_eq_succ_of_ne_zero (by omega : fuel ≠ 0)
    exact readJson_scalar text
  | array items ih =>
    intro rest ends
    rw [text_array] at enough ⊢
    simp only [List.length_append, List.length_cons, List.length_nil] at enough
    obtain ⟨fuel, rfl⟩ := Nat.exists_eq_succ_of_ne_zero (by omega : fuel ≠ 0)
    have reads : ∀ item ∈ items, Reads (readJson floats fuel) (item.text floats) item := by
      intro item mem
      have short := length_le_intercalate (List.mem_map_of_mem (f := (·.text floats)) mem)
      exact ih item mem (isText_array.1 text item mem) (distinct_array.1 distinct item mem) (by omega)
    have count : items.length ≤ fuel := by
      have short := count_le_intercalate (items.map (·.text floats)) (by
        intro text mem
        obtain ⟨item, -, rfl⟩ := List.mem_map.1 mem
        exact (solid_text floats item).ne_nil)
      rw [List.length_map] at short
      omega
    have read := readItems_spelled (.inl rfl) reads (fun item _ => solid_text floats item) count rest
    simp only [List.cons_append, List.append_assoc, List.nil_append, readJson, read, Option.map_some]
  | object fields ih =>
    intro rest ends
    rw [text_object] at enough ⊢
    simp only [List.length_append, List.length_cons, List.length_nil] at enough
    obtain ⟨fuel, rfl⟩ := Nat.exists_eq_succ_of_ne_zero (by omega : fuel ≠ 0)
    have solid : ∀ field ∈ fields, Solid (quoted field.1 ++ ':' :: field.2.text floats) := fun field _ =>
      ⟨'"', _, rfl, by decide⟩
    have reads : ∀ field ∈ fields, Reads (readField (readJson floats fuel))
        (quoted field.1 ++ ':' :: field.2.text floats) field := by
      intro field mem
      have short := length_le_intercalate
        (List.mem_map_of_mem (f := fun field => quoted field.1 ++ ':' :: field.2.text floats) mem)
      rw [List.length_append, List.length_cons] at short
      obtain ⟨key, item⟩ := isText_object.1 text field mem
      exact readField_spelled key (solid_text floats field.2)
        (ih field mem item ((distinct_object.1 distinct).2 field mem) (by omega))
    have count : fields.length ≤ fuel := by
      have short := count_le_intercalate (fields.map fun field => quoted field.1 ++ ':' :: field.2.text floats)
        (by
          intro text mem
          obtain ⟨field, inside, rfl⟩ := List.mem_map.1 mem
          exact (solid field inside).ne_nil)
      rw [List.length_map] at short
      omega
    have read := readItems_spelled (.inr rfl) reads solid count rest
    simp only [List.cons_append, List.append_assoc, List.nil_append, readJson, read, Option.map_some,
      Dict.entries_ofList (distinct_object.1 distinct).1]

theorem parse_text {json : Json F} (text : json.IsText) (distinct : json.Distinct) :
    parse floats (json.text floats) = some json := by
  have ends : Ends [] := by
    rintro c head
    cases head
  have read := readJson_text text distinct (Nat.le_succ (json.text floats).length) [] ends
  have start := (solid_text floats json).skipBlanks []
  rw [List.append_nil] at read start
  rw [parse, start, read]
  rfl

theorem loads_text {json : Json F} (text : json.IsText) (distinct : json.Distinct) :
    loads floats ((json.text floats).flatMap String.utf8EncodeChar) = some json := by
  have decoded : ((json.text floats).flatMap String.utf8EncodeChar).toByteArray.utf8Decode? =
      some (json.text floats).toArray := List.utf8Decode?_utf8Encode
  rw [loads, decoded]
  exact parse_text text distinct

end RoundTrip

end JsonText
