import Mathlib.Logic.Basic

set_option autoImplicit false

namespace RaisingRuns

universe u v w x

variable {ε : Type u} {α β : Type v}

theorem of_bind_ok {action : Except ε α} {next : α → Except ε β} {result : β}
    (ran : action >>= next = .ok result) : ∃ value, action = .ok value ∧ next value = .ok result := by
  cases action with
  | error raised => cases ran
  | ok value => exact ⟨value, rfl, ran⟩

theorem of_map_ok {f : α → β} {action : Except ε α} {result : β} (ran : action.map f = .ok result) :
    ∃ value, action = .ok value ∧ f value = result := by
  cases action with
  | error raised => cases ran
  | ok value => exact ⟨value, rfl, Except.ok.inj ran⟩

def raiseIf (condition : Prop) [Decidable condition] (raised : ε) : Except ε Unit :=
  if condition then .error raised else .ok ()

def raiseAny : Option ε → Except ε Unit
  | none => .ok ()
  | some raised => .error raised

def orRaise (found : Option α) (raised : ε) : Except ε α := found.elim (.error raised) .ok

@[simp] theorem raiseIf_eq_ok {condition : Prop} [Decidable condition] {raised : ε} {u : Unit} :
    raiseIf condition raised = .ok u ↔ ¬condition := by
  unfold raiseIf
  split <;> simp_all

@[simp] theorem orRaise_eq_ok {found : Option α} {raised : ε} {value : α} :
    orRaise found raised = .ok value ↔ found = some value := by
  cases found <;> simp [orRaise]

theorem mem_of_mapM_ok {f : α → Except ε β} {list : List α} {results : List β}
    (ran : list.mapM f = .ok results) (result : β) :
    result ∈ results ↔ ∃ value ∈ list, f value = .ok result := by
  induction list generalizing results with
  | nil =>
    cases ran
    simp
  | cons first rest ih =>
    rw [List.mapM_cons] at ran
    obtain ⟨head, done, ran⟩ := of_bind_ok ran
    obtain ⟨tail, continued, ran⟩ := of_bind_ok ran
    cases ran
    simp only [List.mem_cons, ih continued, exists_eq_or_imp, done, Except.ok.injEq]
    rw [eq_comm]

theorem exists_mapM_ok {f : α → Except ε β} {list : List α} :
    (∃ results, list.mapM f = .ok results) ↔ ∀ value ∈ list, ∃ result, f value = .ok result := by
  induction list with
  | nil => exact iff_of_true ⟨[], rfl⟩ (List.forall_mem_nil _)
  | cons first rest ih =>
    rw [List.mapM_cons, List.forall_mem_cons, ← ih]
    constructor
    · rintro ⟨results, ran⟩
      obtain ⟨head, done, ran⟩ := of_bind_ok ran
      obtain ⟨tail, continued, ran⟩ := of_bind_ok ran
      exact ⟨⟨head, done⟩, tail, continued⟩
    · rintro ⟨⟨head, done⟩, tail, continued⟩
      refine ⟨head :: tail, ?_⟩
      rw [done, continued]
      rfl

theorem mapM_eq_ok_map {f : α → Except ε β} {g : α → β} {list : List α}
    (each : ∀ value ∈ list, f value = .ok (g value)) : list.mapM f = .ok (list.map g) := by
  induction list with
  | nil => rfl
  | cons first rest ih =>
    rw [List.forall_mem_cons] at each
    rw [List.mapM_cons, each.1, ih each.2]
    rfl

variable {σ ι ο : Type v}

def runAll (step : σ → ι → Except ε (σ × ο)) : σ → List ι → Except ε (σ × List (ι × ο))
  | state, [] => .ok (state, [])
  | state, input :: rest => do
    let (state, output) ← step state input
    let (state, trace) ← runAll step state rest
    return (state, (input, output) :: trace)

theorem runAll_inputs {step : σ → ι → Except ε (σ × ο)} {state last : σ} {inputs : List ι}
    {trace : List (ι × ο)} (ran : runAll step state inputs = .ok (last, trace)) :
    trace.map Prod.fst = inputs := by
  induction inputs generalizing state trace with
  | nil =>
    cases ran
    rfl
  | cons input rest ih =>
    obtain ⟨⟨next, output⟩, -, ran⟩ := of_bind_ok ran
    obtain ⟨⟨reached, later⟩, continued, ran⟩ := of_bind_ok ran
    cases ran
    rw [List.map_cons, ih continued]

theorem runAll_invariant {step : σ → ι → Except ε (σ × ο)} (I : σ → List (ι × ο) → Prop)
    (preserved : ∀ state trace input next output, I state trace →
      step state input = .ok (next, output) → I next (trace ++ [(input, output)]))
    {state last : σ} {inputs : List ι} {before trace : List (ι × ο)} (holds : I state before)
    (ran : runAll step state inputs = .ok (last, trace)) : I last (before ++ trace) := by
  induction inputs generalizing state before trace with
  | nil =>
    cases ran
    rwa [List.append_nil]
  | cons input rest ih =>
    obtain ⟨⟨next, output⟩, stepped, ran⟩ := of_bind_ok ran
    obtain ⟨⟨reached, later⟩, continued, ran⟩ := of_bind_ok ran
    cases ran
    have through := ih (preserved state before input next output holds stepped) continued
    rwa [List.append_assoc] at through

end RaisingRuns

namespace Transactions

universe u v w

variable {σ : Type u} {ε : Type v} {α : Type w}

def transact (before : σ) : Except ε (σ × α) → σ × Except ε α
  | .ok (after, value) => (after, .ok value)
  | .error raised => (before, .error raised)

@[simp] theorem transact_ok (before after : σ) (value : α) :
    transact (ε := ε) before (.ok (after, value)) = (after, .ok value) := rfl

@[simp] theorem transact_error (before : σ) (raised : ε) :
    transact (α := α) before (.error raised) = (before, .error raised) := rfl

theorem transact_keeps {before : σ} {body : Except ε (σ × α)} (R : σ → σ → Prop) (refl : R before before)
    (kept : ∀ after value, body = .ok (after, value) → R before after) : R before (transact before body).1 := by
  cases body with
  | error raised => exact refl
  | ok result => exact kept result.1 result.2 rfl

end Transactions
