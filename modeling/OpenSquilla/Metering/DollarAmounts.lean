import Mathlib.Data.Nat.Digits.Lemmas
import OpenSquilla.Shared.DecimalContext
import OpenSquilla.Shared.TextCuts

set_option autoImplicit false

-- `usd_to_nanos` multiplies and quantizes in the context of the caller, so that an amount of many
-- digits is rounded to the context before it is rounded to nanos.

namespace OpenSquilla.Metering

open TextLines TextScan TextCuts DecimalContext

structure FiniteDecimal where
  negative : Bool := false
  coefficient : Nat
  exponent : Int

def FiniteDecimal.value (decimal : FiniteDecimal) : ℚ :=
  (if decimal.negative then -1 else 1) * decimal.coefficient * 10 ^ decimal.exponent

inductive Number
  | finite (decimal : FiniteDecimal)
  | infinity
  | nan

-- Digits with a point among them, and how many stand behind it.
def readMantissa (text : Text) : Option (Nat × Nat) :=
  let (whole, fraction) := (cutAt '.' text).getD (text, [])
  let digits := whole ++ fraction
  if digits ≠ [] ∧ digits.all isDigit then some (decimal digits, fraction.length) else none

def readExponent (text : Text) : Option Int :=
  let (sign, digits) := match text with
    | '-' :: rest => (-1, rest)
    | '+' :: rest => (1, rest)
    | rest => (1, rest)
  if digits ≠ [] ∧ digits.all isDigit then some (sign * decimal digits) else none

-- The numeric string that `Decimal` reads, letter case and underscores aside.
def readNumber (text : Text) : Option Number :=
  let body := ((strip text).filter (· ≠ '_')).map Char.toLower
  let (negative, unsigned) := match body with
    | '-' :: rest => (true, rest)
    | '+' :: rest => (false, rest)
    | rest => (false, rest)
  if unsigned = "inf".toList ∨ unsigned = "infinity".toList then some .infinity
  else if ["nan".toList, "snan".toList].any (fun name =>
      name.isPrefixOf unsigned && (unsigned.drop name.length).all isDigit) then some .nan
  else do
    let (mantissa, exponent) ← match cutAt 'e' unsigned with
      | none => some (unsigned, 0)
      | some (mantissa, exponent) => (readExponent exponent).map (mantissa, ·)
    let (coefficient, places) ← readMantissa mantissa
    some (.finite ⟨negative, coefficient, exponent - places⟩)

def FiniteDecimal.constructible (decimal : FiniteDecimal) : Bool :=
  -1999999999999999997 ≤ decimal.exponent &&
    decimal.exponent + Nat.log 10 decimal.coefficient ≤ 999999999999999999

inductive UsdValue
  | none
  | bool (value : Bool)
  -- a float by what `math.isfinite` and `str` make of it
  | float (isFinite : Bool) (text : Text)
  | decimal (number : Number)
  | int (value : Int)
  | text (text : Text)

inductive AmountRaised
  | typeError (message : String)
  | valueError (message : String)
  | overflowError (message : String)
  | signal (signal : Signal)
  deriving DecidableEq

def Number.constructible : Number → Bool
  | .finite decimal => decimal.constructible
  | _ => true

-- `Decimal(str(value))`, where neither of the two raises.
def UsdValue.asDecimal : UsdValue → Option Number
  | .none | .bool _ => Option.none
  | .float _ written | .text written => (readNumber written).filter Number.constructible
  | .decimal number => some number
  | .int value =>
    -- `str` refuses an integer of too many digits
    if 10 ^ maxStrDigits ≤ value.natAbs then Option.none
    else some (.finite ⟨value < 0, value.natAbs, 0⟩)

def maxSqliteInteger : Int := 2 ^ 63 - 1

def nanosOf (context : Context) (amount : ℚ) : Except AmountRaised Int := do
  if amount < 0 then throw (.valueError "USD amount must be non-negative")
  let product ← (context.finish (amount * 10 ^ 9)).mapError .signal
  let nanos ← (context.toInteger product).mapError .signal
  if maxSqliteInteger < nanos then throw (.overflowError "USD amount exceeds the SQLite integer range")
  pure nanos

def usdToNanos (context : Context) (value : UsdValue) : Except AmountRaised Int :=
  match value with
  | .none => .ok 0
  | .bool _ => .error (.typeError "USD amount must be numeric, not bool")
  | .float false _ => .error (.valueError "USD amount must be finite")
  | value =>
    match value.asDecimal with
    | some (.finite decimal) => nanosOf context decimal.value
    | some _ => .error (.valueError "USD amount must be finite")
    | Option.none => .error (.valueError "USD amount must be numeric")

def defaultContext : Context where
  prec := 28

def nearestNanos (amount : ℚ) : Int := halfUp (amount * 10 ^ 9)

-- What an amount is once it is rounded to nanos, and to nothing else before.
def roundedOnce (amount : ℚ) : Except AmountRaised Int :=
  if nearestNanos amount ≤ maxSqliteInteger then .ok (nearestNanos amount)
  else .error (.overflowError "USD amount exceeds the SQLite integer range")

-- The nanos are not so near below a half that 28 digits round them to it.
def ClearOfHalf (nanos : ℚ) : Prop :=
  10 ^ (((Nat.digits 10 (halfUp nanos).toNat).length : ℤ) - 28) < 2 * halfUp nanos + 1 - 2 * nanos

section Rounding

variable {nanos : ℚ}

theorem fits_half {k : ℤ} (small : |k| < 10 ^ 25) : defaultContext.Fits (k + 1 / 2) := by
  refine ⟨10 * k + 5, -1, ?_, ?_, by decide⟩
  · push_cast
    ring
  · rw [abs_lt] at small ⊢
    have lower : -(10 ^ 25 : ℚ) < k := by exact_mod_cast small.1
    have upper : (k : ℚ) < 10 ^ 25 := by exact_mod_cast small.2
    rw [show defaultContext.prec = 28 from rfl]
    push_cast
    constructor <;> linarith

theorem fits_zpow {e : ℤ} (normal : -100 ≤ e) : defaultContext.Fits (10 ^ e) :=
  ⟨1, e, by simp, by rw [show defaultContext.prec = 28 from rfl]; norm_num,
    by rw [show defaultContext.etiny = -1000026 from rfl]; omega⟩

theorem lastDigit_of_mem (digits : ℤ) (normal : -100 ≤ digits) (lower : 10 ^ (digits - 1) ≤ nanos)
    (upper : nanos < 10 ^ digits) : defaultContext.lastDigit nanos = digits - 28 := by
  have positive : 0 < nanos := (zpow_pos (by norm_num) _).trans_le lower
  have log : Int.log 10 |nanos| = digits - 1 := by
    rw [abs_of_pos positive]
    apply le_antisymm
    · apply Int.le_sub_one_of_lt
      exact (Int.lt_zpow_iff_log_lt (b := 10) (by norm_num) positive).1 (by exact_mod_cast upper)
    · exact (Int.zpow_le_iff_le_log (b := 10) (by norm_num) positive).1 (by exact_mod_cast lower)
  rw [Context.lastDigit, log, show defaultContext.etiny = -1000026 from rfl,
    show defaultContext.prec = 28 from rfl]
  omega

theorem leading_le (n : Nat) : (10 : ℚ) ^ (((Nat.digits 10 n).length : ℤ) - 1) ≤ n + 1 / 10 := by
  by_cases zero : n = 0
  · subst zero
    norm_num
  · have step : 10 ^ (Nat.digits 10 n).length ≤ 10 * n := Nat.base_pow_length_digits_le' 8 n zero
    have scaled : (10 : ℚ) ^ (Nat.digits 10 n).length ≤ 10 * n := by exact_mod_cast step
    rw [zpow_sub_one₀ (by norm_num), zpow_natCast]
    linarith

theorem rounded_lt_half_iff (nonneg : 0 ≤ nanos) (bounded : halfUp nanos < 10 ^ 19) :
    defaultContext.rounded nanos < halfUp nanos + 1 / 2 ↔ ClearOfHalf nanos := by
  have below := (halfUp_eq_iff.1 (rfl : halfUp nanos = _)).2
  obtain ⟨n, whole⟩ := Int.eq_ofNat_of_zero_le (le_halfUp_iff.2 (by push_cast; linarith) : 0 ≤ halfUp nanos)
  unfold ClearOfHalf
  rw [whole] at bounded below ⊢
  rw [Int.toNat_natCast, Int.cast_natCast]
  rw [Int.cast_natCast] at below
  have leading := leading_le n
  have short : (Nat.digits 10 n).length ≤ 19 :=
    (Nat.digits_length_le_iff (by norm_num) n).2 (by exact_mod_cast bounded)
  have full : n + 1 ≤ 10 ^ (Nat.digits 10 n).length := Nat.lt_base_pow_length_digits (by norm_num)
  generalize (Nat.digits 10 n).length = digits at leading short full ⊢
  by_cases inside : (10 : ℚ) ^ ((digits : ℤ) - 1) ≤ nanos
  · have top : nanos < 10 ^ (digits : ℤ) := by
      have : (n : ℚ) + 1 ≤ 10 ^ digits := by exact_mod_cast full
      rw [zpow_natCast]
      linarith
    have last := lastDigit_of_mem digits (by omega) inside top
    -- the half is an even multiple of the last digit that is kept
    have multiple : (n : ℚ) + 1 / 2 =
        (2 * ((2 * n + 1) * 25 * 10 ^ (26 - digits)) : ℤ) * 10 ^ defaultContext.lastDigit nanos := by
      have scale : (10 : ℚ) ^ (26 - digits) * 10 ^ ((digits : ℤ) - 28) = 10 ^ (-2 : ℤ) := by
        rw [← zpow_natCast, ← zpow_add₀ (by norm_num)]
        congr 1
        omega
      rw [last]
      push_cast
      rw [mul_assoc, mul_assoc _ ((10 : ℚ) ^ (26 - digits)), scale]
      ring
    rw [Context.rounded_lt_iff (by omega) multiple below, last]
    constructor <;> intro <;> linarith
  · rw [not_le] at inside
    have reached := Context.rounded_le (fits_zpow (by omega)) nonneg inside.le
    have small : (10 : ℚ) ^ ((digits : ℤ) - 28) ≤ 10 ^ (-9 : ℤ) := zpow_le_zpow_right₀ (by norm_num) (by omega)
    norm_num at small
    constructor <;> intro <;> linarith

theorem rounded_whole (lower : 10 ^ 27 ≤ nanos) (upper : nanos < 10 ^ 28) :
    defaultContext.rounded nanos = halfEven nanos := by
  have last : defaultContext.lastDigit nanos = 0 :=
    lastDigit_of_mem 28 (by norm_num) (by norm_num at lower ⊢; linarith) (by exact_mod_cast upper)
  rw [Context.rounded, last, zpow_zero, div_one, mul_one]

theorem halfUp_rounded_lt_iff (nonneg : 0 ≤ nanos) :
    halfUp (defaultContext.rounded nanos) < 10 ^ 28 ↔ halfUp nanos < 10 ^ 28 := by
  rw [halfUp_lt_iff, halfUp_lt_iff]
  push_cast
  constructor
  · intro small
    by_contra large
    rcases lt_or_ge nanos (10 ^ 28) with below | above
    · have even : halfEven nanos = 10 ^ 28 := by
        apply halfEven_of_even (by norm_num)
        rw [abs_le]
        push_cast
        constructor <;> linarith
      rw [rounded_whole (by norm_num at large ⊢; linarith) below, even] at small
      norm_num at small
    · have reached := Context.le_rounded (fits_zpow (e := 28) (by norm_num)) nonneg (by exact_mod_cast above)
      norm_num at reached small
      linarith
  · intro small
    rcases lt_or_ge nanos (10 ^ 27) with below | above
    · have reached := Context.rounded_le (fits_zpow (e := 27) (by norm_num)) nonneg (by exact_mod_cast below.le)
      norm_num at reached ⊢
      linarith
    · have near := (abs_le.1 (abs_halfEven_sub_le nanos)).2
      have whole : halfEven nanos ≤ 10 ^ 28 - 1 := by
        have : (halfEven nanos : ℚ) < 10 ^ 28 := by linarith
        have : halfEven nanos < 10 ^ 28 := by exact_mod_cast this
        omega
      have bounded : (halfEven nanos : ℚ) ≤ 10 ^ 28 - 1 := by exact_mod_cast whole
      rw [rounded_whole above (by linarith)]
      linarith

section Amount

variable {amount : ℚ}

theorem nanosOf_of_lt (nonneg : 0 ≤ amount)
    (small : halfUp (defaultContext.rounded (amount * 10 ^ 9)) < 10 ^ 28) : nanosOf defaultContext amount =
      if maxSqliteInteger < halfUp (defaultContext.rounded (amount * 10 ^ 9)) then
        .error (.overflowError "USD amount exceeds the SQLite integer range")
      else .ok (halfUp (defaultContext.rounded (amount * 10 ^ 9))) := by
  have lower : 0 ≤ defaultContext.rounded (amount * 10 ^ 9) := Context.rounded_nonneg (by positivity)
  unfold nanosOf
  generalize amount * 10 ^ 9 = nanos at small lower ⊢
  have upper := halfUp_lt_iff.1 small
  have finished : defaultContext.finish nanos = .ok (defaultContext.rounded nanos) := by
    apply Context.finish_of_lt
    rw [abs_of_nonneg lower, show defaultContext.prec = 28 from rfl]
    push_cast at upper
    linarith
  have quantized : defaultContext.toInteger (defaultContext.rounded nanos) =
      .ok (halfUp (defaultContext.rounded nanos)) := by
    apply Context.toInteger_of_lt
    have whole : 0 ≤ halfUp (defaultContext.rounded nanos) := le_halfUp_iff.2 (by push_cast; linarith)
    rwa [abs_of_nonneg whole]
  simp only [if_neg (not_lt.2 nonneg), finished, Except.mapError, bind, Except.bind, quantized]
  rfl

theorem nanosOf_of_ge (nonneg : 0 ≤ amount)
    (large : 10 ^ 28 ≤ halfUp (defaultContext.rounded (amount * 10 ^ 9))) :
    ∃ raised, nanosOf defaultContext amount = .error (.signal raised) := by
  have quantized :
      defaultContext.toInteger (defaultContext.rounded (amount * 10 ^ 9)) = .error .invalidOperation :=
    if_pos (large.trans (le_abs_self _))
  simp only [nanosOf, if_neg (not_lt.2 nonneg), Context.finish]
  split
  next => exact ⟨.overflow, rfl⟩
  next =>
    simp only [Except.mapError, bind, Except.bind, quantized]
    exact ⟨.invalidOperation, rfl⟩

theorem le_halfUp_rounded (nonneg : 0 ≤ nanos) {k : ℤ} (positive : 0 ≤ k) (small : k < 10 ^ 19)
    (reached : k ≤ halfUp nanos) : k ≤ halfUp (defaultContext.rounded nanos) := by
  have half := fits_half (k := k - 1) (by rw [abs_lt]; constructor <;> omega)
  rw [le_halfUp_iff] at reached ⊢
  push_cast at half
  have bounded := Context.le_rounded half nonneg (by linarith)
  linarith

theorem nanosOf_eq_roundedOnce_iff (nonneg : 0 ≤ amount) :
    nanosOf defaultContext amount = roundedOnce amount ↔ nearestNanos amount < 10 ^ 28 ∧
      (nearestNanos amount ≤ maxSqliteInteger → ClearOfHalf (amount * 10 ^ 9)) := by
  have positive : 0 ≤ amount * 10 ^ 9 := by positivity
  have near := nanosOf_of_lt nonneg
  have far := nanosOf_of_ge nonneg
  unfold roundedOnce nearestNanos
  generalize amount * 10 ^ 9 = nanos at positive near far ⊢
  rcases lt_or_ge (halfUp (defaultContext.rounded nanos)) (10 ^ 28) with small | large
  · rw [near small, and_iff_right ((halfUp_rounded_lt_iff positive).1 small)]
    rcases le_or_gt (halfUp nanos) maxSqliteInteger with held | beyond
    · have known : halfUp nanos < 10 ^ 19 := held.trans_lt (by decide)
      have whole : 0 ≤ halfUp nanos := le_halfUp_iff.2 (by push_cast; linarith)
      have lower := le_halfUp_rounded positive whole known le_rfl
      have below : halfUp (defaultContext.rounded nanos) = halfUp nanos ↔
          defaultContext.rounded nanos < halfUp nanos + 1 / 2 := by
        rw [halfUp_eq_iff, and_iff_right (le_halfUp_iff.1 lower)]
      rw [if_pos held, ← rounded_lt_half_iff positive known, ← below]
      constructor
      · intro same _
        split at same
        next => cases same
        next => exact Except.ok.inj same
      · intro same
        rw [same held, if_neg (not_lt.2 held)]
    · have raised : maxSqliteInteger < halfUp (defaultContext.rounded nanos) :=
        le_halfUp_rounded (k := 2 ^ 63) positive (by norm_num) (by norm_num) beyond
      simp [if_pos raised, not_le.2 beyond]
  · obtain ⟨raised, ran⟩ := far large
    have beyond := not_lt.1 (mt (halfUp_rounded_lt_iff positive).2 (not_lt.2 large))
    rw [ran]
    constructor
    · intro same
      split at same <;> cases same
    · rintro ⟨within, -⟩
      exact absurd within (not_lt.2 beyond)

end Amount

end Rounding

-- The number that an argument denotes, whatever its size.
def UsdValue.denotes : UsdValue → Option ℚ
  | .decimal (.finite number) => some number.value
  | .int value => some value
  | .text written =>
    match readNumber written with
    | some (.finite number) => some number.value
    | _ => Option.none
  | _ => Option.none

-- Neither `str` nor `Decimal` refuses the argument for its size.
def UsdValue.Convertible : UsdValue → Prop
  | .int value => value.natAbs < 10 ^ maxStrDigits
  | .text written => ∀ number, readNumber written = some (.finite number) → number.constructible = true
  | _ => True

section Argument

variable {value : UsdValue} {amount : ℚ}

theorem usdToNanos_convertible (context : Context) (denoted : value.denotes = some amount)
    (able : value.Convertible) : usdToNanos context value = nanosOf context amount := by
  cases value with
  | none => cases denoted
  | bool => cases denoted
  | float => cases denoted
  | decimal number =>
    cases number with
    | finite number =>
      cases denoted
      rfl
    | infinity => cases denoted
    | nan => cases denoted
  | int value =>
    cases denoted
    have exact : (⟨value < 0, value.natAbs, 0⟩ : FiniteDecimal).value = value := by
      rcases lt_or_ge value 0 with negative | nonneg
      · simp [FiniteDecimal.value, negative, abs_of_neg]
      · simp [FiniteDecimal.value, not_lt.2 nonneg, abs_of_nonneg nonneg]
    have short : ¬10 ^ maxStrDigits ≤ value.natAbs := not_le.2 able
    simp only [usdToNanos, UsdValue.asDecimal, if_neg short, exact]
  | text written =>
    rw [UsdValue.denotes] at denoted
    split at denoted
    next number read =>
      cases denoted
      have kept : (readNumber written).filter Number.constructible = some (.finite number) := by
        rw [read]
        exact if_pos (able number read)
      simp only [usdToNanos, UsdValue.asDecimal, kept]
    next => cases denoted

theorem usdToNanos_inconvertible (context : Context) (denoted : value.denotes = some amount)
    (unable : ¬value.Convertible) :
    usdToNanos context value = .error (.valueError "USD amount must be numeric") := by
  cases value with
  | none => cases denoted
  | bool => cases denoted
  | float => cases denoted
  | decimal number => exact absurd trivial unable
  | int value =>
    have long : 10 ^ maxStrDigits ≤ value.natAbs := not_lt.1 unable
    simp only [usdToNanos, UsdValue.asDecimal, if_pos long]
  | text written =>
    simp only [UsdValue.Convertible, not_forall] at unable
    obtain ⟨number, read, unable⟩ := unable
    have dropped : (readNumber written).filter Number.constructible = none := by
      rw [read]
      exact if_neg unable
    simp only [usdToNanos, UsdValue.asDecimal, dropped]

/-- An amount is converted to the nearest nanos, or overflows, exactly when its text converts, the nanos
have at most 28 digits, and nanos that SQLite holds are clear of the half above them. -/
theorem usdToNanos_eq_roundedOnce_iff (denoted : value.denotes = some amount) (nonneg : 0 ≤ amount) :
    usdToNanos defaultContext value = roundedOnce amount ↔
      value.Convertible ∧ nearestNanos amount < 10 ^ 28 ∧
        (nearestNanos amount ≤ maxSqliteInteger → ClearOfHalf (amount * 10 ^ 9)) := by
  by_cases able : value.Convertible
  · rw [usdToNanos_convertible defaultContext denoted able, nanosOf_eq_roundedOnce_iff nonneg,
        and_iff_right able]
  · rw [usdToNanos_inconvertible defaultContext denoted able]
    constructor
    · intro same
      unfold roundedOnce at same
      split at same <;> cases same
    · rintro ⟨converts, -⟩
      exact absurd converts able

end Argument

theorem usdToNanos_eq_roundedOnce_iff_halfNano :
    usdToNanos defaultContext (.text "0.0000000005".toList) = roundedOnce (5 / 10 ^ 10) ↔
      UsdValue.Convertible (.text "0.0000000005".toList) ∧ nearestNanos (5 / 10 ^ 10) < 10 ^ 28 ∧
        (nearestNanos (5 / 10 ^ 10) ≤ maxSqliteInteger → ClearOfHalf (5 / 10 ^ 10 * 10 ^ 9)) :=
  usdToNanos_eq_roundedOnce_iff (by decide +kernel) (by norm_num)

-- 29 digits of nanos, a digit of the 29th place below one half.
def belowHalf : FiniteDecimal where
  coefficient := 49999999999999999999999999999
  exponent := -38

-- rounded to 28 digits it is the half, which is rounded up
theorem usdToNanos_belowHalf :
    UsdValue.denotes (.decimal (.finite belowHalf)) = some belowHalf.value ∧ 0 ≤ belowHalf.value ∧
      usdToNanos defaultContext (.decimal (.finite belowHalf)) = .ok 1 ∧
      usdToNanos defaultContext (.decimal (.finite belowHalf)) ≠ roundedOnce belowHalf.value := by
  decide +kernel

end OpenSquilla.Metering
