import Mathlib.Order.Basic
import OpenSquilla.Shared.Runs

set_option autoImplicit false

-- A reader keeps the stamp of what it read and writes only if the stamp is still the same. That
-- fences off a kind of step when no step lowers the stamp and every step of the kind raises it.
-- The stamp of what is gone for good is the greatest one.

namespace VersionFence

open Runs

universe u v w

variable {σ : Type u} {ι : Type v} {τ : Type w} [Preorder τ]
  {step : σ → ι → σ} {allowed : σ → ι → Prop} {stamp : σ → τ} {state : σ} {inputs : List ι}

theorem stamp_le_run (kept : ∀ state input, allowed state input → stamp state ≤ stamp (step state input))
    (along : Along step allowed state inputs) : stamp state ≤ stamp (run step state inputs) := by
  induction inputs generalizing state with
  | nil => exact le_refl _
  | cons input rest ih => exact (kept state input along.1).trans (ih along.2)

theorem unraised_along (kept : ∀ state input, allowed state input → stamp state ≤ stamp (step state input))
    (along : Along step allowed state inputs) {bound : τ} (within : bound ≤ stamp state)
    (unchanged : stamp (run step state inputs) ≤ bound) :
    Along step (fun state input => stamp state ≤ bound ∧ ¬stamp state < stamp (step state input))
      state inputs := by
  induction inputs generalizing state with
  | nil => trivial
  | cons input rest ih =>
    have first := kept state input along.1
    have last := stamp_le_run kept along.2
    have held : stamp (step state input) ≤ bound := last.trans unchanged
    refine ⟨⟨first.trans held, fun raised => ?_⟩, ih along.2 (within.trans first) unchanged⟩
    exact absurd (raised.trans_le (held.trans within)) (lt_irrefl _)

theorem unmarked_along (stamp : σ → τ) {marked : σ → ι → Prop}
    (kept : ∀ state input, allowed state input → stamp state ≤ stamp (step state input))
    {bound : τ} (raised : ∀ state input, allowed state input → stamp state ≤ bound →
      marked state input → stamp state < stamp (step state input))
    (along : Along step allowed state inputs) (within : bound ≤ stamp state)
    (unchanged : stamp (run step state inputs) ≤ bound) :
    Along step (fun state input => ¬marked state input) state inputs := by
  have quiet := (unraised_along kept along within unchanged).and along
  refine quiet.imp fun state input held isMarked => ?_
  exact held.1.2 (raised state input held.2 held.1.1 isMarked)

end VersionFence
