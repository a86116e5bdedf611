import Mathlib.Data.List.Count
import Mathlib.Logic.Relation

set_option autoImplicit false

-- Each key has at most one holder at a time. A lease is granted to a token that was never granted
-- before, and only where nobody holds; once ended it is never held again.

universe u v

inductive LeaseEvent (κ : Type u) (τ : Type v)
  | granted (key : κ) (token : τ)
  | ended (key : κ) (token : τ)

structure LeaseTable (κ : Type u) (τ : Type v) where
  holder : κ → Option τ
  history : List (LeaseEvent κ τ)

namespace LeaseTable

variable {κ : Type u} {τ : Type v} [DecidableEq κ] [DecidableEq τ]

def ends (token : τ) : LeaseEvent κ τ → Bool
  | .ended _ other => other = token
  | .granted .. => false

inductive Step (table : LeaseTable κ τ) : LeaseTable κ τ → Prop
  | idle : Step table table
  | grant (key : κ) (token : τ) (free : table.holder key = none)
      (fresh : ∀ other, .granted other token ∉ table.history) :
      Step table ⟨Function.update table.holder key (some token),
        table.history ++ [.granted key token]⟩
  | finish (key : κ) (token : τ) (held : table.holder key = some token) :
      Step table ⟨Function.update table.holder key none, table.history ++ [.ended key token]⟩

structure Sound (table : LeaseTable κ τ) : Prop where
  held : ∀ key token, table.holder key = some token ↔
    .granted key token ∈ table.history ∧ .ended key token ∉ table.history
  owner : ∀ first second token, .granted first token ∈ table.history →
    .granted second token ∈ table.history → first = second
  granted : ∀ key token, .ended key token ∈ table.history → .granted key token ∈ table.history
  once : ∀ token, table.history.countP (ends token) ≤ 1

omit [DecidableEq κ] in
theorem empty_sound : Sound (⟨fun _ => none, []⟩ : LeaseTable κ τ) := by
  constructor <;> simp

variable {table next : LeaseTable κ τ}

omit [DecidableEq κ] in
theorem not_ended_of_fresh (sound : table.Sound) {token : τ}
    (fresh : ∀ other, .granted other token ∉ table.history) (key : κ) : .ended key token ∉ table.history :=
  fun ended => fresh key (sound.granted key token ended)

omit [DecidableEq κ] in
/-- Whoever holds a lease is the only one who could end it, so no end under its token came before. -/
theorem countP_ends_of_held (sound : table.Sound) {key : κ} {token : τ}
    (held : table.holder key = some token) : table.history.countP (ends token) = 0 := by
  obtain ⟨granted, notEnded⟩ := (sound.held key token).mp held
  rw [List.countP_eq_zero]
  intro event mem isEnd
  cases event with
  | granted => cases isEnd
  | ended other otherToken =>
    obtain rfl := of_decide_eq_true isEnd
    obtain rfl := sound.owner other key otherToken (sound.granted other otherToken mem) granted
    exact notEnded mem

theorem Step.sound (sound : table.Sound) (step : Step table next) : next.Sound := by
  cases step with
  | idle => exact sound
  | grant key token free fresh =>
    have unended := not_ended_of_fresh sound fresh
    constructor
    · intro other otherToken
      have before := sound.held other otherToken
      by_cases here : other = key
      · subst here
        have noGrant : ∀ old, .granted other old ∈ table.history → .ended other old ∈ table.history := by
          intro old granted
          by_contra notEnded
          have holds := (sound.held other old).mpr ⟨granted, notEnded⟩
          rw [free] at holds
          cases holds
        by_cases same : otherToken = token
        · subst same
          simp [unended]
        · have different : token ≠ otherToken := Ne.symm same
          simp only [Function.update_self, Option.some.injEq, different, false_iff, List.mem_append,
            List.mem_singleton, LeaseEvent.granted.injEq, reduceCtorEq, or_false, true_and, same,
            not_and, not_not]
          exact noGrant otherToken
      · simp [here, before]
    · intro first second other one two
      simp only [List.mem_append, List.mem_singleton, LeaseEvent.granted.injEq] at one two
      rcases one with one | ⟨rfl, rfl⟩ <;> rcases two with two | ⟨rfl, same⟩
      · exact sound.owner first second other one two
      · exact absurd (same ▸ one) (fresh first)
      · exact absurd two (fresh second)
      · rfl
    · intro other otherToken ended
      simp only [List.mem_append, List.mem_singleton, reduceCtorEq, or_false] at ended
      exact List.mem_append_left _ (sound.granted other otherToken ended)
    · intro other
      simpa [ends] using sound.once other
  | finish key token held =>
    obtain ⟨granted, notEnded⟩ := (sound.held key token).mp held
    constructor
    · intro other otherToken
      have before := sound.held other otherToken
      by_cases here : other = key
      · subst here
        by_cases same : otherToken = token
        · subst same
          simp
        · have notHeld : ¬table.holder other = some otherToken := by
            rw [held]
            exact fun bad => same (Option.some.inj bad).symm
          simp only [Function.update_self, reduceCtorEq, false_iff, List.mem_append,
            List.mem_singleton, or_false, LeaseEvent.ended.injEq, same, and_false]
          exact fun live => notHeld (before.mpr live)
      · simp [here, before]
    · intro first second other one two
      simp only [List.mem_append, List.mem_singleton, reduceCtorEq, or_false] at one two
      exact sound.owner first second other one two
    · intro other otherToken ended
      simp only [List.mem_append, List.mem_singleton, LeaseEvent.ended.injEq] at ended
      rcases ended with before | ⟨rfl, rfl⟩
      · exact List.mem_append_left _ (sound.granted other otherToken before)
      · exact List.mem_append_left _ granted
    · intro other
      rw [List.countP_append]
      by_cases same : other = token
      · subst same
        rw [countP_ends_of_held sound held]
        simp [ends]
      · have different : token ≠ other := Ne.symm same
        simpa [ends, different] using sound.once other

omit [DecidableEq κ] in
theorem holder_unique (sound : table.Sound) {key : κ} {first second : τ}
    (one : .granted key first ∈ table.history ∧ .ended key first ∉ table.history)
    (two : .granted key second ∈ table.history ∧ .ended key second ∉ table.history) : first = second := by
  have firstHolds := (sound.held key first).mpr one
  rw [(sound.held key second).mpr two] at firstHolds
  exact (Option.some.inj firstHolds).symm

omit [DecidableEq κ] in
theorem not_held_of_ended (sound : table.Sound) {key : κ} {token : τ}
    (ended : .ended key token ∈ table.history) : table.holder key ≠ some token :=
  fun held => ((sound.held key token).mp held).2 ended

end LeaseTable
