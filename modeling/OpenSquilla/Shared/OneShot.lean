import Mathlib.Order.Basic

set_option autoImplicit false

universe u v

inductive OneShot (ω : Type u) (τ : Type v)
  | unseen
  | waiting (work : ω)
  | settled (outcome : τ)

namespace OneShot

variable {ω : Type u} {τ : Type v} {revised : ω → ω → Prop}

inductive Later (revised : ω → ω → Prop) : OneShot ω τ → OneShot ω τ → Prop
  | same (phase : OneShot ω τ) : Later revised phase phase
  | seen (phase : OneShot ω τ) : Later revised unseen phase
  | revises {work next : ω} (changed : revised work next) :
      Later revised (waiting work) (waiting next)
  | settles (work : ω) (outcome : τ) : Later revised (waiting work) (settled outcome)

theorem Later.trans (chained : ∀ a b c, revised a b → revised b c → revised a c)
    {first second third : OneShot ω τ} (early : Later revised first second)
    (late : Later revised second third) : Later revised first third := by
  cases early with
  | same => exact late
  | seen => exact .seen third
  | revises changed =>
    cases late with
    | same => exact .revises changed
    | revises again => exact .revises (chained _ _ _ changed again)
    | settles => exact .settles _ _
  | settles =>
    cases late with
    | same => exact .settles _ _

end OneShot
