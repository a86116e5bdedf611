import Mathlib.Logic.Relation

set_option autoImplicit false

namespace Runs

universe u v

variable {σ : Type u} {ι : Type v}

def run (step : σ → ι → σ) : σ → List ι → σ
  | state, [] => state
  | state, input :: rest => run step (step state input) rest

@[simp] theorem run_nil (step : σ → ι → σ) (state : σ) : run step state [] = state := rfl

@[simp] theorem run_cons (step : σ → ι → σ) (state : σ) (input : ι) (rest : List ι) :
    run step state (input :: rest) = run step (step state input) rest := rfl

theorem run_append (step : σ → ι → σ) (state : σ) (first second : List ι) :
    run step state (first ++ second) = run step (run step state first) second := by
  induction first generalizing state with
  | nil => rfl
  | cons input rest ih => exact ih (step state input)

variable {step : σ → ι → σ} {state : σ}

theorem run_invariant (I : σ → Prop)
    (preserved : ∀ state input, I state → I (step state input)) (holds : I state) (inputs : List ι) :
    I (run step state inputs) := by
  induction inputs generalizing state with
  | nil => exact holds
  | cons input rest ih => exact ih (preserved state input holds)

theorem run_relation (R : σ → σ → Prop) (refl : ∀ state, R state state) (trans : ∀ a b c, R a b → R b c → R a c)
    (each : ∀ state input, R state (step state input))
    (state : σ) (inputs : List ι) : R state (run step state inputs) := by
  induction inputs generalizing state with
  | nil => exact refl state
  | cons input rest ih => exact trans _ _ _ (each state input) (ih _)

-- Each input of the run is allowed in the state that takes it.
def Along (step : σ → ι → σ) (allowed : σ → ι → Prop) : σ → List ι → Prop
  | _, [] => True
  | state, input :: rest => allowed state input ∧ Along step allowed (step state input) rest

instance decidableAlong {step : σ → ι → σ} {allowed : σ → ι → Prop}
    [∀ state input, Decidable (allowed state input)] :
    ∀ state inputs, Decidable (Along step allowed state inputs)
  | _, [] => isTrue trivial
  | state, input :: rest =>
    match decidableAlong (step state input) rest with
    | isTrue later => decidable_of_iff (allowed state input) ⟨fun first => ⟨first, later⟩, And.left⟩
    | isFalse bad => isFalse (fun along => bad along.2)

theorem along_of_forall {allowed : ι → Prop} (state : σ) (inputs : List ι)
    (each : ∀ input ∈ inputs, allowed input) : Along step (fun _ input => allowed input) state inputs := by
  induction inputs generalizing state with
  | nil => trivial
  | cons input rest ih =>
    rw [List.forall_mem_cons] at each
    exact ⟨each.1, ih (step state input) each.2⟩

theorem along_append {allowed : σ → ι → Prop} (state : σ) (first second : List ι) :
    Along step allowed state (first ++ second) ↔
      Along step allowed state first ∧ Along step allowed (run step state first) second := by
  induction first generalizing state with
  | nil => simp [Along]
  | cons input rest ih => simp only [List.cons_append, Along, run_cons, ih, and_assoc]

theorem Along.and {first second : σ → ι → Prop} {inputs : List ι}
    (one : Along step first state inputs) (two : Along step second state inputs) :
    Along step (fun state input => first state input ∧ second state input) state inputs := by
  induction inputs generalizing state with
  | nil => trivial
  | cons input rest ih => exact ⟨⟨one.1, two.1⟩, ih one.2 two.2⟩

theorem Along.imp {first second : σ → ι → Prop} {inputs : List ι} (along : Along step first state inputs)
    (each : ∀ state input, first state input → second state input) : Along step second state inputs := by
  induction inputs generalizing state with
  | nil => trivial
  | cons input rest ih => exact ⟨each state input along.1, ih along.2⟩

theorem Along.with_invariant {allowed : σ → ι → Prop} (I : σ → Prop)
    (preserved : ∀ state input, I state → allowed state input → I (step state input)) (holds : I state)
    {inputs : List ι} (along : Along step allowed state inputs) :
    Along step (fun state input => I state ∧ allowed state input) state inputs := by
  induction inputs generalizing state with
  | nil => trivial
  | cons input rest ih =>
    exact ⟨⟨holds, along.1⟩, ih (preserved state input holds along.1) along.2⟩

theorem run_constant_along {β : Type*} (f : σ → β) {inputs : List ι}
    (along : Along step (fun state input => f (step state input) = f state) state inputs) :
    f (run step state inputs) = f state := by
  induction inputs generalizing state with
  | nil => rfl
  | cons input rest ih => exact (ih along.2).trans along.1

theorem run_invariant_along {allowed : σ → ι → Prop} (I : σ → Prop)
    (preserved : ∀ state input, I state → allowed state input → I (step state input)) (holds : I state)
    (inputs : List ι) (along : Along step allowed state inputs) :
    I (run step state inputs) := by
  induction inputs generalizing state with
  | nil => exact holds
  | cons input rest ih => exact ih (preserved state input holds along.1) along.2

end Runs

namespace Quota

open Runs

universe u v

variable {σ : Type u} {ι : Type v} {step : σ → ι → σ}

-- The inputs of the run at which the event takes place, counted.
def times (step : σ → ι → σ) (event : σ → ι → Bool) : σ → List ι → Nat
  | _, [] => 0
  | state, input :: rest => (event state input).toNat + times step event (step state input) rest

theorem times_le_room {event : σ → ι → Bool} {allowed : σ → ι → Prop} (room : σ → Nat)
    (spends : ∀ state input, allowed state input →
      room (step state input) + (event state input).toNat ≤ room state)
    {state : σ} {inputs : List ι} (along : Along step allowed state inputs) :
    times step event state inputs ≤ room state := by
  induction inputs generalizing state with
  | nil => exact Nat.zero_le _
  | cons input rest ih =>
    have later := ih along.2
    have now := spends state input along.1
    rw [times]
    omega

end Quota

namespace Past

universe u v

variable {σ : Type u} {ι : Type v} {step : σ → ι → σ} {start : σ}

def state (step : σ → ι → σ) (start : σ) : List ι → σ
  | [] => start
  | input :: past => step (state step start past) input

@[simp] theorem state_nil : state step start [] = start := rfl

@[simp] theorem state_cons (input : ι) (past : List ι) :
    state step start (input :: past) = step (state step start past) input := rfl

theorem invariant (I : σ → Prop) (preserved : ∀ state input, I state → I (step state input))
    (holds : I start) (past : List ι) : I (state step start past) := by
  induction past with
  | nil => exact holds
  | cons input past ih => exact preserved _ input ih

-- The event took place, and `kept` held of every past from then on.
def Since (event : List ι → ι → Prop) (kept : List ι → Prop) : List ι → Prop
  | [] => False
  | input :: past => kept (input :: past) ∧ (event past input ∨ Since event kept past)

variable {event other : List ι → ι → Prop} {steady more : List ι → Prop} {past : List ι} {input : ι}

theorem Since.now (happens : event past input) (holds : steady (input :: past)) :
    Since event steady (input :: past) :=
  ⟨holds, .inl happens⟩

theorem Since.later (since : Since event steady past) (holds : steady (input :: past)) :
    Since event steady (input :: past) :=
  ⟨holds, .inr since⟩

theorem Since.kept (since : Since event steady past) : steady past := by
  cases past with
  | nil => exact since.elim
  | cons input past => exact since.1

-- The inputs of the past at which the event took place, counted.
def times (event : List ι → ι → Prop) [∀ past input, Decidable (event past input)] : List ι → Nat
  | [] => 0
  | input :: past => times event past + if event past input then 1 else 0

theorem times_le_one [∀ past input, Decidable (event past input)] (done : List ι → Prop)
    (lasting : ∀ past input, done past → done (input :: past))
    (finishes : ∀ past input, event past input → done (input :: past))
    (excludes : ∀ past input, done past → ¬event past input) (past : List ι) : times event past ≤ 1 := by
  have counted : times event past = 0 ∨ (times event past = 1 ∧ done past) := by
    induction past with
    | nil => exact .inl rfl
    | cons input past ih =>
      by_cases happens : event past input
      · obtain none | ⟨-, before⟩ := ih
        · exact .inr ⟨by simp [times, none, happens], finishes past input happens⟩
        · exact absurd happens (excludes past input before)
      · obtain none | ⟨once, before⟩ := ih
        · exact .inl (by simp [times, none, happens])
        · exact .inr ⟨by simp [times, once, happens], lasting past input before⟩
  omega

end Past
