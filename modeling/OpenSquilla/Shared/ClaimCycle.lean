import Mathlib.Data.List.Basic

set_option autoImplicit false

universe u v

inductive ClaimEvent (χ : Type u)
  | claimed (claim : χ)
  | released (claim : χ)
  | completed (claim : χ)
  deriving DecidableEq

inductive ClaimPhase (χ : Type u)
  | free
  | held (claim : χ)
  | closed

namespace ClaimCycle

variable {χ : Type u} [DecidableEq χ]

def advance : ClaimPhase χ → ClaimEvent χ → Option (ClaimPhase χ)
  | .free, .claimed claim => some (.held claim)
  | .held holder, .released claim => if holder = claim then some .free else none
  | .held holder, .completed claim => if holder = claim then some .closed else none
  | _, _ => none

@[simp] theorem advance_released (claim : χ) :
    advance (.held claim) (.released claim) = some .free := if_pos rfl

@[simp] theorem advance_complete (claim : χ) :
    advance (.held claim) (.completed claim) = some .closed := if_pos rfl

def replay : ClaimPhase χ → List (ClaimEvent χ) → Option (ClaimPhase χ)
  | phase, [] => some phase
  | phase, event :: rest => (advance phase event).bind (replay · rest)

@[simp] theorem replay_nil (phase : ClaimPhase χ) : replay phase [] = some phase := rfl

@[simp] theorem replay_single (phase : ClaimPhase χ) (event : ClaimEvent χ) :
    replay phase [event] = advance phase event := by
  simp only [replay]
  cases advance phase event <;> rfl

theorem replay_append (phase : ClaimPhase χ) (first second : List (ClaimEvent χ)) :
    replay phase (first ++ second) = (replay phase first).bind (replay · second) := by
  induction first generalizing phase with
  | nil => rfl
  | cons event rest ih =>
    simp only [List.cons_append, replay]
    cases advance phase event with
    | none => rfl
    | some next => exact ih next

theorem replay_closed {events : List (ClaimEvent χ)} {last : ClaimPhase χ}
    (replayed : replay .closed events = some last) : events = [] := by
  cases events with
  | nil => rfl
  | cons event rest => cases event <;> cases replayed

theorem released_of_free {holder : χ} {events : List (ClaimEvent χ)}
    (replayed : replay (.held holder) events = some .free) : .released holder ∈ events := by
  cases events with
  | nil => cases replayed
  | cons event rest =>
    cases event with
    | claimed claim => cases replayed
    | released claim =>
      by_cases same : holder = claim
      · simp [same]
      · simp [replay, advance, same] at replayed
    | completed claim =>
      by_cases same : holder = claim
      · simp only [replay, advance, same, if_true, Option.bind_some] at replayed
        obtain rfl := replay_closed replayed
        cases replayed
      · simp [replay, advance, same] at replayed

theorem replay_split {start last : ClaimPhase χ} {early late : List (ClaimEvent χ)}
    {event : ClaimEvent χ} (replayed : replay start (early ++ event :: late) = some last) :
    ∃ before after, replay start early = some before ∧ advance before event = some after ∧
      replay after late = some last := by
  rw [replay_append, Option.bind_eq_some_iff] at replayed
  obtain ⟨before, reached, replayed⟩ := replayed
  obtain ⟨after, taken, replayed⟩ := Option.bind_eq_some_iff.mp replayed
  exact ⟨before, after, reached, taken, replayed⟩

theorem advance_claimed {before after : ClaimPhase χ} {claim : χ}
    (taken : advance before (.claimed claim) = some after) : before = .free ∧ after = .held claim := by
  cases before with
  | free => exact ⟨rfl, (Option.some.inj taken).symm⟩
  | held holder => cases taken
  | closed => cases taken

theorem advance_completed {before after : ClaimPhase χ} {claim : χ}
    (taken : advance before (.completed claim) = some after) : after = .closed := by
  cases before with
  | free => cases taken
  | held holder =>
    by_cases same : holder = claim
    · simpa [advance, same, eq_comm] using taken
    · simp [advance, same] at taken
  | closed => cases taken

theorem released_between {start last : ClaimPhase χ} {early between late : List (ClaimEvent χ)}
    {first second : χ}
    (replayed : replay start (early ++ .claimed first :: (between ++ .claimed second :: late)) =
      some last) : .released first ∈ between := by
  obtain ⟨before, held, -, taken, replayed⟩ := replay_split replayed
  obtain ⟨-, rfl⟩ := advance_claimed taken
  obtain ⟨back, after, reached, taken, -⟩ := replay_split replayed
  obtain ⟨rfl, -⟩ := advance_claimed taken
  exact released_of_free reached

theorem nothing_after_completed {start last : ClaimPhase χ} {early late : List (ClaimEvent χ)}
    {claim : χ} (replayed : replay start (early ++ .completed claim :: late) = some last) : late = [] := by
  obtain ⟨before, after, -, taken, replayed⟩ := replay_split replayed
  obtain rfl := advance_completed taken
  exact replay_closed replayed

section Keyed

variable {κ : Type v} [DecidableEq κ]

def eventsAt (key : κ) (history : List (κ × ClaimEvent χ)) : List (ClaimEvent χ) :=
  (history.filter (·.1 = key)).map Prod.snd

omit [DecidableEq χ] in
@[simp] theorem eventsAt_nil (key : κ) : eventsAt key ([] : List (κ × ClaimEvent χ)) = [] := rfl

omit [DecidableEq χ] in
@[simp] theorem eventsAt_append (key : κ) (first second : List (κ × ClaimEvent χ)) :
    eventsAt key (first ++ second) = eventsAt key first ++ eventsAt key second := by
  simp [eventsAt]

omit [DecidableEq χ] in
@[simp] theorem eventsAt_cons (key other : κ) (event : ClaimEvent χ) (history : List (κ × ClaimEvent χ)) :
    eventsAt key ((other, event) :: history) =
      if other = key then event :: eventsAt key history else eventsAt key history := by
  by_cases same : other = key <;> simp [eventsAt, same]

omit [DecidableEq χ] in
theorem mem_eventsAt {key : κ} {event : ClaimEvent χ} {history : List (κ × ClaimEvent χ)} :
    event ∈ eventsAt key history ↔ (key, event) ∈ history := by
  simp [eventsAt]

end Keyed

end ClaimCycle
