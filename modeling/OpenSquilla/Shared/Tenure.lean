import Mathlib.Order.Basic

set_option autoImplicit false

universe u

structure Tenure (Worker : Type u) where
  holder : Option Worker
  started : Nat
  settled : Nat

namespace Tenure

variable {Worker : Type u} {tenure next : Tenure Worker}

def Balanced (tenure : Tenure Worker) : Prop :=
  tenure.started = tenure.settled + if tenure.holder.isSome then 1 else 0

inductive Move : Tenure Worker → Tenure Worker → Prop
  | keep (tenure : Tenure Worker) : Move tenure tenure
  | take (worker : Worker) (started settled : Nat) :
      Move ⟨none, started, settled⟩ ⟨some worker, started + 1, settled⟩
  | release (worker : Worker) (started settled : Nat) :
      Move ⟨some worker, started, settled⟩ ⟨none, started, settled + 1⟩

theorem Move.balanced (move : Move tenure next) (balanced : tenure.Balanced) : next.Balanced := by
  cases move with
  | keep => exact balanced
  | take | release =>
    simp only [Balanced, Option.isSome_none, Option.isSome_some] at balanced ⊢
    simp at balanced ⊢
    omega

theorem Move.keep_of {other : Tenure Worker} (holder : other.holder = tenure.holder)
    (started : other.started = tenure.started) (settled : other.settled = tenure.settled) :
    Move tenure other := by
  cases tenure
  cases other
  cases holder
  cases started
  cases settled
  exact .keep _

theorem Move.take_of {worker : Worker} (free : tenure.holder = none) (holder : next.holder = some worker)
    (started : next.started = tenure.started + 1) (settled : next.settled = tenure.settled) :
    Move tenure next := by
  cases tenure
  cases next
  cases free
  cases holder
  cases started
  cases settled
  exact .take worker _ _

theorem Move.release_of {worker : Worker} (held : tenure.holder = some worker) (free : next.holder = none)
    (started : next.started = tenure.started) (settled : next.settled = tenure.settled + 1) :
    Move tenure next := by
  cases tenure
  cases next
  cases held
  cases free
  cases started
  cases settled
  exact .release worker _ _

theorem Move.settled_iff (move : Move tenure next) :
    tenure.settled < next.settled ↔ tenure.holder.isSome = true ∧ next.holder = none := by
  cases move with
  | keep => cases tenure with | mk holder started settled => cases holder <;> simp
  | take | release => simp

end Tenure
