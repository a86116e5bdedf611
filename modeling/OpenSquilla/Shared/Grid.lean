import Mathlib.Algebra.Order.Floor.Ring
import Mathlib.Tactic.Ring

set_option autoImplicit false

namespace Grid

variable {K : Type*} [Field K] [LinearOrder K] [IsStrictOrderedRing K]

def instants (anchor step : K) : Set K := {instant | ∃ k : ℕ, instant = anchor + k * step}

def after (anchor step start : K) : Set K := {instant | instant ∈ instants anchor step ∧ start < instant}

variable {anchor step start : K}

theorem least_before (positive : 0 < step) (before : start < anchor) :
    IsLeast (after anchor step start) anchor := by
  constructor
  · exact ⟨⟨0, by rw [Nat.cast_zero, zero_mul, add_zero]⟩, before⟩
  · rintro _ ⟨⟨k, rfl⟩, -⟩
    have forward : 0 ≤ (k : K) * step := mul_nonneg (Nat.cast_nonneg k) positive.le
    linarith

theorem least_between (positive : 0 < step) (k : ℕ) (above : anchor + k * step ≤ start)
    (below : start < anchor + (k + 1 : ℕ) * step) :
    IsLeast (after anchor step start) (anchor + (k + 1 : ℕ) * step) := by
  constructor
  · exact ⟨⟨k + 1, rfl⟩, below⟩
  · rintro _ ⟨⟨j, rfl⟩, later⟩
    have apart : (k : K) * step < j * step := by linarith
    have order : k < j := Nat.cast_lt.mp (lt_of_mul_lt_mul_right apart positive.le)
    have steps : ((k + 1 : ℕ) : K) * step ≤ j * step :=
      mul_le_mul_of_nonneg_right (Nat.cast_le.mpr order) positive.le
    linarith

theorem least_floor [FloorRing K] (positive : 0 < step) (behind : anchor ≤ start) :
    IsLeast (after anchor step start) (anchor + (⌊(start - anchor) / step⌋ + 1 : ℤ) * step) := by
  have nonneg : 0 ≤ ⌊(start - anchor) / step⌋ :=
    Int.floor_nonneg.mpr (div_nonneg (sub_nonneg.mpr behind) positive.le)
  obtain ⟨k, counted⟩ := Int.eq_ofNat_of_zero_le nonneg
  have floored := Int.floor_le ((start - anchor) / step)
  have beyond := Int.lt_floor_add_one ((start - anchor) / step)
  rw [counted] at floored beyond ⊢
  rw [le_div_iff₀ positive] at floored
  rw [div_lt_iff₀ positive] at beyond
  have least : IsLeast (after anchor step start) _ := least_between positive k
    (by push_cast at floored; linarith) (by push_cast at beyond ⊢; linarith)
  push_cast at least ⊢
  exact least

/-- Instants that start with the least one behind a start and go on by one step each are all those behind it. -/
theorem range_of_steps (positive : 0 < step) {visits : ℕ → K}
    (first : IsLeast (after anchor step start) (visits 0)) (next : ∀ n, visits (n + 1) = visits n + step) :
    StrictMono visits ∧ Set.range visits = after anchor step start := by
  have counted : ∀ n : ℕ, visits n = visits 0 + n * step := by
    intro n
    induction n with
    | zero => rw [Nat.cast_zero, zero_mul, add_zero]
    | succ n ih =>
      rw [next, ih, Nat.cast_succ]
      ring
  obtain ⟨⟨⟨k, origin⟩, later⟩, least⟩ := first
  constructor
  · apply strictMono_nat_of_lt_succ
    intro n
    rw [next]
    linarith
  · ext instant
    constructor
    · rintro ⟨n, rfl⟩
      refine ⟨⟨k + n, ?_⟩, ?_⟩
      · rw [counted, origin, Nat.cast_add]
        ring
      · have forward : 0 ≤ (n : K) * step := mul_nonneg (Nat.cast_nonneg n) positive.le
        rw [counted]
        linarith
    · rintro ⟨⟨j, rfl⟩, behind⟩
      have reached : visits 0 ≤ anchor + j * step := least ⟨⟨j, rfl⟩, behind⟩
      rw [origin] at reached
      have order : k ≤ j := by
        have steps : (k : K) * step ≤ j * step := by linarith
        exact Nat.cast_le.mp (le_of_mul_le_mul_right steps positive)
      refine ⟨j - k, ?_⟩
      rw [counted, origin, Nat.cast_sub order]
      ring

end Grid
