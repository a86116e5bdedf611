import Mathlib.Data.Int.Log
import Mathlib.Data.Rat.Floor
import Mathlib.Tactic.Positivity

set_option autoImplicit false

-- An operation rounds its exact result to the significant digits of the context, to an even digit
-- on a tie. A result that the precision holds is the exact one.

namespace DecimalContext

def halfEven (x : ℚ) : ℤ :=
  if x - ⌊x⌋ < 1 / 2 then ⌊x⌋
  else if 1 / 2 < x - ⌊x⌋ then ⌊x⌋ + 1
  else if ⌊x⌋ % 2 = 0 then ⌊x⌋ else ⌊x⌋ + 1

def halfUp (x : ℚ) : ℤ := ⌊x + 1 / 2⌋

section Nearest

variable {x : ℚ} {n : ℤ}

theorem halfEven_cases (x : ℚ) :
    (halfEven x = ⌊x⌋ ∧ x - ⌊x⌋ ≤ 1 / 2) ∨ (halfEven x = ⌊x⌋ + 1 ∧ 1 / 2 ≤ x - ⌊x⌋) := by
  unfold halfEven
  split
  next below => exact .inl ⟨rfl, below.le⟩
  next notBelow =>
    split
    next above => exact .inr ⟨rfl, above.le⟩
    next notAbove =>
      have tie : x - ⌊x⌋ = 1 / 2 := le_antisymm (not_lt.1 notAbove) (not_lt.1 notBelow)
      split
      next => exact .inl ⟨rfl, tie.le⟩
      next => exact .inr ⟨rfl, tie.ge⟩

theorem abs_halfEven_sub_le (x : ℚ) : |(halfEven x : ℚ) - x| ≤ 1 / 2 := by
  have floor := Int.floor_le x
  have next := Int.lt_floor_add_one x
  rw [abs_le]
  rcases halfEven_cases x with ⟨down, near⟩ | ⟨up, near⟩
  · rw [down]
    constructor <;> linarith
  · rw [up]
    push_cast
    constructor <;> linarith

theorem halfEven_le (bounded : x ≤ n) : halfEven x ≤ n := by
  have floor : ⌊x⌋ ≤ n := by exact_mod_cast (Int.floor_le x).trans bounded
  rcases halfEven_cases x with ⟨down, -⟩ | ⟨up, near⟩
  · exact down.trans_le floor
  · have below : (⌊x⌋ : ℚ) < n := by linarith
    rw [up]
    exact_mod_cast below

theorem le_halfEven (bounded : n ≤ x) : n ≤ halfEven x := by
  have floor : n ≤ ⌊x⌋ := Int.le_floor.2 bounded
  rcases halfEven_cases x with ⟨down, -⟩ | ⟨up, -⟩ <;> omega

@[simp] theorem halfEven_intCast (n : ℤ) : halfEven (n : ℚ) = n :=
  le_antisymm (halfEven_le le_rfl) (le_halfEven le_rfl)

@[simp] theorem halfEven_zero : halfEven 0 = 0 := by simpa using halfEven_intCast 0

theorem halfEven_of_even (even : n % 2 = 0) (near : |(n : ℚ) - x| ≤ 1 / 2) : halfEven x = n := by
  have floor := Int.floor_le x
  have next := Int.lt_floor_add_one x
  rw [abs_le] at near
  -- an integer so near is the one below or the one above
  have upper : n ≤ ⌊x⌋ + 1 := by
    have : (n : ℚ) < ⌊x⌋ + 2 := by linarith
    have : n < ⌊x⌋ + 2 := by exact_mod_cast this
    omega
  have lower : ⌊x⌋ ≤ n := by
    have : (⌊x⌋ : ℚ) < n + 1 := by linarith
    have : ⌊x⌋ < n + 1 := by exact_mod_cast this
    omega
  rcases (by omega : n = ⌊x⌋ ∨ n = ⌊x⌋ + 1) with down | up
  · rw [down] at near even
    rw [halfEven, down]
    by_cases below : x - ⌊x⌋ < 1 / 2
    · rw [if_pos below]
    · rw [if_neg below, if_neg (by linarith), if_pos even]
  · rw [up] at near even
    push_cast at near
    rw [halfEven, up, if_neg (by linarith)]
    split
    next => rfl
    next => rw [if_neg (by omega)]

theorem halfUp_eq_iff : halfUp x = n ↔ (n : ℚ) - 1 / 2 ≤ x ∧ x < n + 1 / 2 := by
  rw [halfUp, Int.floor_eq_iff]
  constructor <;> rintro ⟨lower, upper⟩ <;> constructor <;> linarith

@[simp] theorem halfUp_intCast (n : ℤ) : halfUp (n : ℚ) = n := by
  rw [halfUp_eq_iff]
  constructor <;> linarith

theorem le_halfUp_iff : n ≤ halfUp x ↔ (n : ℚ) - 1 / 2 ≤ x := by
  rw [halfUp, Int.le_floor]
  constructor <;> intro <;> linarith

theorem halfUp_lt_iff : halfUp x < n ↔ x < (n : ℚ) - 1 / 2 := by
  rw [← not_le, le_halfUp_iff, not_le]

end Nearest

structure Context where
  prec : Nat
  emin : ℤ := -999999
  emax : ℤ := 999999
  positive : 0 < prec := by decide
  wide : emin ≤ 0 := by decide
  roomy : prec ≤ emax := by decide

inductive Signal
  | invalidOperation
  | overflow
  deriving DecidableEq

namespace Context

def etiny (context : Context) : ℤ := context.emin - context.prec + 1

def lastDigit (context : Context) (x : ℚ) : ℤ := max (Int.log 10 |x| - context.prec + 1) context.etiny

def rounded (context : Context) (x : ℚ) : ℚ :=
  halfEven (x / 10 ^ context.lastDigit x) * 10 ^ context.lastDigit x

-- The result of an operation whose exact result is given.
def finish (context : Context) (x : ℚ) : Except Signal ℚ :=
  if 10 ^ (context.emax + 1) ≤ |context.rounded x| then .error .overflow else .ok (context.rounded x)

-- `quantize(Decimal("1"), ROUND_HALF_UP)` of a number that is not negative.
def toInteger (context : Context) (x : ℚ) : Except Signal ℤ :=
  if 10 ^ context.prec ≤ |halfUp x| then .error .invalidOperation else .ok (halfUp x)

def Fits (context : Context) (x : ℚ) : Prop :=
  ∃ k e : ℤ, x = k * 10 ^ e ∧ |(k : ℚ)| < 10 ^ context.prec ∧ context.etiny ≤ e

variable {context : Context} {x b : ℚ}

theorem exists_multiple {k e last : ℤ} (below : last ≤ e) : ∃ n : ℤ, (k : ℚ) * 10 ^ e = n * 10 ^ last := by
  refine ⟨k * 10 ^ (e - last).toNat, ?_⟩
  have split : (10 : ℚ) ^ e = 10 ^ (e - last).toNat * 10 ^ last := by
    rw [← zpow_natCast, ← zpow_add₀ (by norm_num), Int.toNat_of_nonneg (by omega), sub_add_cancel]
  rw [split]
  push_cast
  ring

theorem rounded_of_multiple {n : ℤ} (multiple : x = n * 10 ^ context.lastDigit x) : context.rounded x = x := by
  have unit : (10 : ℚ) ^ context.lastDigit x ≠ 0 := zpow_ne_zero _ (by norm_num)
  rw [rounded, (div_eq_iff unit).2 multiple, halfEven_intCast]
  exact multiple.symm

@[simp] theorem rounded_zero : context.rounded 0 = 0 := rounded_of_multiple (n := 0) (by simp)

theorem rounded_of_fits (fits : context.Fits x) : context.rounded x = x := by
  obtain ⟨k, e, value, digits, normal⟩ := fits
  by_cases zero : x = 0
  · rw [zero, rounded_zero]
  · have size : |x| < 10 ^ (context.prec + e) := by
      rw [value, abs_mul, abs_of_pos (zpow_pos (by norm_num : (0 : ℚ) < 10) e), zpow_add₀ (by norm_num),
          zpow_natCast]
      exact mul_lt_mul_of_pos_right digits (zpow_pos (by norm_num) e)
    have log : Int.log 10 |x| < context.prec + e :=
      (Int.lt_zpow_iff_log_lt (b := 10) (by norm_num) (abs_pos.2 zero)).1 (by exact_mod_cast size)
    have below : context.lastDigit x ≤ e := max_le (by omega) normal
    obtain ⟨n, multiple⟩ := exists_multiple (k := k) below
    exact rounded_of_multiple (n := n) (value.trans multiple)

/-- A number that has no digit where the context keeps the last one is at most a power of ten below. -/
theorem le_leading (fits : context.Fits b) (positive : 0 < x) : (∃ n : ℤ, b = n * 10 ^ context.lastDigit x) ∨
      (b < 10 ^ (context.prec - 1) * 10 ^ context.lastDigit x ∧
        (10 : ℚ) ^ (context.prec - 1) * 10 ^ context.lastDigit x ≤ x) := by
  obtain ⟨k, e, value, digits, normal⟩ := fits
  rcases le_or_gt (context.lastDigit x) e with below | above
  · obtain ⟨n, multiple⟩ := exists_multiple (k := k) below
    exact .inl ⟨n, value.trans multiple⟩
  · right
    have last : context.lastDigit x = Int.log 10 |x| - context.prec + 1 := by
      unfold lastDigit at above ⊢
      omega
    have leading : (10 : ℚ) ^ (context.prec - 1) * 10 ^ context.lastDigit x = 10 ^ Int.log 10 |x| := by
      have positive := context.positive
      rw [← zpow_natCast, ← zpow_add₀ (by norm_num), last]
      congr 1
      omega
    rw [leading]
    constructor
    · calc b ≤ |b| := le_abs_self b
        _ < 10 ^ (context.prec + e) := by
          rw [value, abs_mul, abs_of_pos (zpow_pos (by norm_num : (0 : ℚ) < 10) e), zpow_add₀ (by norm_num),
              zpow_natCast]
          exact mul_lt_mul_of_pos_right digits (zpow_pos (by norm_num) e)
        _ ≤ 10 ^ Int.log 10 |x| := zpow_le_zpow_right₀ (by norm_num) (by omega)
    · have := Int.zpow_log_le_self (b := 10) (by norm_num) (abs_pos.2 positive.ne')
      rw [abs_of_pos positive] at this ⊢
      exact_mod_cast this

theorem le_rounded (fits : context.Fits b) (nonneg : 0 ≤ x) (bounded : b ≤ x) : b ≤ context.rounded x := by
  rcases nonneg.eq_or_lt with rfl | positive
  · rwa [rounded_zero]
  · have unit : (0 : ℚ) < 10 ^ context.lastDigit x := zpow_pos (by norm_num) _
    have reached : ∀ n : ℤ, n * 10 ^ context.lastDigit x ≤ x →
        n * 10 ^ context.lastDigit x ≤ context.rounded x := by
      intro n below
      apply mul_le_mul_of_nonneg_right _ unit.le
      exact_mod_cast le_halfEven ((le_div_iff₀ unit).2 below)
    rcases le_leading fits positive with ⟨n, rfl⟩ | ⟨smaller, leading⟩
    · exact reached n bounded
    · have := reached (10 ^ (context.prec - 1)) (by push_cast; exact leading)
      push_cast at this
      exact smaller.le.trans this

theorem rounded_le (fits : context.Fits b) (nonneg : 0 ≤ x) (bounded : x ≤ b) : context.rounded x ≤ b := by
  rcases nonneg.eq_or_lt with rfl | positive
  · rwa [rounded_zero]
  · have unit : (0 : ℚ) < 10 ^ context.lastDigit x := zpow_pos (by norm_num) _
    rcases le_leading fits positive with ⟨n, rfl⟩ | ⟨smaller, leading⟩
    · apply mul_le_mul_of_nonneg_right _ unit.le
      exact_mod_cast halfEven_le ((div_le_iff₀ unit).2 bounded)
    · exact absurd (smaller.trans_le leading) (not_lt.2 bounded)

theorem rounded_nonneg (nonneg : 0 ≤ x) : 0 ≤ context.rounded x :=
  le_rounded
    ⟨0, 0, by simp, by simp, by have := context.positive; have := context.wide; unfold etiny; omega⟩ nonneg nonneg

variable (context) in
theorem abs_rounded_sub_le (x : ℚ) : |context.rounded x - x| ≤ 10 ^ context.lastDigit x / 2 := by
  have unit : (0 : ℚ) < 10 ^ context.lastDigit x := zpow_pos (by norm_num) _
  have scaled : context.rounded x - x =
      (halfEven (x / 10 ^ context.lastDigit x) - x / 10 ^ context.lastDigit x) * 10 ^ context.lastDigit x := by
    rw [sub_mul, div_mul_cancel₀ _ unit.ne']
    rfl
  calc |context.rounded x - x|
      = |(halfEven
        (x / 10 ^ context.lastDigit x) : ℚ) - x / 10 ^ context.lastDigit x| * 10 ^ context.lastDigit x := by
        rw [scaled, abs_mul, abs_of_pos unit]
    _ ≤ 1 / 2 * 10 ^ context.lastDigit x := mul_le_mul_of_nonneg_right (abs_halfEven_sub_le _) unit.le
    _ = 10 ^ context.lastDigit x / 2 := one_div_mul_eq_div _ _

/-- A number just below an even multiple of the last digit is rounded up to it from half a digit on. -/
theorem rounded_lt_iff {n : ℤ} (even : n % 2 = 0) (multiple : b = n * 10 ^ context.lastDigit x) (below : x < b) :
    context.rounded x < b ↔ 10 ^ context.lastDigit x < 2 * (b - x) := by
  have unit : (0 : ℚ) < 10 ^ context.lastDigit x := zpow_pos (by norm_num) _
  constructor
  · intro less
    by_contra near
    have close : |(n : ℚ) - x / 10 ^ context.lastDigit x| ≤ 1 / 2 := by
      have apart : ((n : ℚ) - x / 10 ^ context.lastDigit x) * 10 ^ context.lastDigit x = b - x := by
        rw [sub_mul, div_mul_cancel₀ _ unit.ne', multiple]
      have positive : 0 < (n : ℚ) - x / 10 ^ context.lastDigit x := by
        apply pos_of_mul_pos_left _ unit.le
        rw [apart]
        exact sub_pos.2 below
      rw [abs_of_pos positive]
      apply le_of_mul_le_mul_right _ unit
      rw [apart]
      linarith
    rw [rounded, halfEven_of_even even close, ← multiple] at less
    exact lt_irrefl _ less
  · intro far
    have near := (abs_le.1 (abs_rounded_sub_le context x)).2
    linarith

theorem finish_of_lt (small : |context.rounded x| < 10 ^ context.prec) :
    context.finish x = .ok (context.rounded x) := by
  apply if_neg
  rw [not_le]
  apply small.trans_le
  rw [← zpow_natCast]
  exact zpow_le_zpow_right₀ (by norm_num) (by have := context.roomy; omega)

theorem toInteger_of_lt (small : |halfUp x| < 10 ^ context.prec) : context.toInteger x = .ok (halfUp x) :=
  if_neg (not_le.2 small)

end Context

end DecimalContext
