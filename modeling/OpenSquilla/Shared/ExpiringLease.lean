import Mathlib.Order.Lattice

set_option autoImplicit false

-- One lease is granted at a time. Another owner takes it over only once it has expired, with a
-- greater token; whoever lost it may go on holding a grant, but an expired one.

namespace ExpiringLease

universe u v

variable {ω : Type u} {τ : Type v}

structure Grant (ω : Type u) (τ : Type v) where
  owner : ω
  token : Int
  expiresAt : τ

structure State (ω : Type u) (τ : Type v) where
  clock : τ
  latest : Option (Grant ω τ)
  held : ω → Option (Grant ω τ)

variable [DecidableEq ω] [LinearOrder τ]

inductive Step (before : State ω τ) : State ω τ → Prop
  | idle (clock : τ) (later : before.clock ≤ clock) : Step before { before with clock := clock }
  | take (clock : τ) (later : before.clock ≤ clock) (grant : Grant ω τ)
      (free : ∀ old ∈ before.latest, old.owner = grant.owner ∨ old.expiresAt ≤ clock)
      (newer : ∀ old ∈ before.latest, old.token < grant.token) :
      Step before ⟨clock, some grant, Function.update before.held grant.owner (some grant)⟩
  | extend (clock : τ) (later : before.clock ≤ clock) (old : Grant ω τ)
      (current : before.latest = some old) (expiresAt : τ) :
      Step before ⟨clock, some { old with expiresAt := expiresAt },
        Function.update before.held old.owner (some { old with expiresAt := expiresAt })⟩
  | release (clock : τ) (later : before.clock ≤ clock) (old : Grant ω τ)
      (current : before.latest = some old) (expiresAt : τ) :
      Step before ⟨clock, some { old with expiresAt := expiresAt },
        Function.update before.held old.owner none⟩

def Sound (state : State ω τ) : Prop :=
  ∀ owner grant, state.held owner = some grant →
    grant.owner = owner ∧ (state.latest = some grant ∨ grant.expiresAt ≤ state.clock)

variable {before after : State ω τ}

theorem Step.sound (step : Step before after) (sound : Sound before) : Sound after := by
  intro owner grant holds
  cases step with
  | idle clock later =>
    obtain ⟨own, current | expired⟩ := sound owner grant holds
    · exact ⟨own, Or.inl current⟩
    · exact ⟨own, Or.inr (expired.trans later)⟩
  | take clock later new free newer =>
    dsimp only at holds ⊢
    by_cases same : owner = new.owner
    · subst same
      rw [Function.update_self] at holds
      cases holds
      exact ⟨rfl, Or.inl rfl⟩
    · rw [Function.update_of_ne same] at holds
      obtain ⟨own, current | expired⟩ := sound owner grant holds
      · obtain mine | expired := free grant current
        · exact absurd (own.symm.trans mine) same
        · exact ⟨own, Or.inr expired⟩
      · exact ⟨own, Or.inr (expired.trans later)⟩
  | extend clock later old current expiresAt =>
    dsimp only at holds ⊢
    by_cases same : owner = old.owner
    · subst same
      rw [Function.update_self] at holds
      cases holds
      exact ⟨rfl, Or.inl rfl⟩
    · rw [Function.update_of_ne same] at holds
      obtain ⟨own, latest | expired⟩ := sound owner grant holds
      · cases current.symm.trans latest
        exact absurd own.symm same
      · exact ⟨own, Or.inr (expired.trans later)⟩
  | release clock later old current expiresAt =>
    dsimp only at holds ⊢
    by_cases same : owner = old.owner
    · subst same
      rw [Function.update_self] at holds
      cases holds
    · rw [Function.update_of_ne same] at holds
      obtain ⟨own, latest | expired⟩ := sound owner grant holds
      · cases current.symm.trans latest
        exact absurd own.symm same
      · exact ⟨own, Or.inr (expired.trans later)⟩

omit [DecidableEq ω] in
theorem Sound.exclusive {state : State ω τ} (sound : Sound state) {instant : τ}
    (reached : state.clock ≤ instant) {first second : ω} {one two : Grant ω τ}
    (holdsOne : state.held first = some one) (holdsTwo : state.held second = some two)
    (validOne : instant < one.expiresAt) (validTwo : instant < two.expiresAt) : first = second := by
  obtain ⟨ownOne, latestOne | expired⟩ := sound first one holdsOne
  · obtain ⟨ownTwo, latestTwo | expired⟩ := sound second two holdsTwo
    · cases latestOne.symm.trans latestTwo
      exact ownOne.symm.trans ownTwo
    · exact absurd (expired.trans reached) (not_le.mpr validTwo)
  · exact absurd (expired.trans reached) (not_le.mpr validOne)

def Reached (token : Int) (state : State ω τ) : Prop :=
  ∃ grant ∈ state.latest, token ≤ grant.token

theorem Step.reached (step : Step before after) {token : Int} (reached : Reached token before) :
    Reached token after := by
  obtain ⟨grant, latest, below⟩ := reached
  cases step with
  | idle => exact ⟨grant, latest, below⟩
  | take clock later new free newer => exact ⟨new, rfl, Int.le_trans below (Int.le_of_lt (newer grant latest))⟩
  | extend clock later old current expiresAt =>
    cases current.symm.trans latest
    exact ⟨_, rfl, below⟩
  | release clock later old current expiresAt =>
    cases current.symm.trans latest
    exact ⟨_, rfl, below⟩

end ExpiringLease
