import OpenSquilla.Shared.Runs
import OpenSquilla.Transport.FlowWindow

set_option autoImplicit false

namespace OpenSquilla.Transport

open Runs

def globalBufferBytes : Int := 256 * 1024 * 1024

inductive BudgetKind
  | bulk
  | recovery
  | control
  deriving DecidableEq, Repr

structure TransportBudget where
  limit : Int
  used : Int
  byKind : Option BudgetKind → Int

namespace TransportBudget

def init (limit : Int) : TransportBudget where
  limit := limit
  used := 0
  byKind := fun _ => 0

def charge (budget : TransportBudget) (kind : Option BudgetKind) (size : Int) : TransportBudget where
  limit := budget.limit
  used := budget.used + size
  byKind := Function.update budget.byKind kind (budget.byKind kind + size)

-- What a reservation of this kind must leave to the kinds it may not crowd out.
def headroom (budget : TransportBudget) (kind : Option BudgetKind) : Int :=
  (if kind = some .bulk ∨ kind = some .recovery then
    max 0 (controlBufferBytes - budget.byKind (some .control)) else 0) +
  if kind = some .bulk then max 0 (recoveryWindowBytes - budget.byKind (some .recovery)) else 0

def reserve (budget : TransportBudget) (size : Int) (kind : Option BudgetKind) :
    Except FlowError Bool × TransportBudget :=
  if size < 0 then
    (.error (.valueError "transport reservation must be a nonnegative integer"), budget)
  else if budget.limit - budget.headroom kind < budget.used + size then (.ok false, budget)
  else (.ok true, budget.charge kind size)

def release (budget : TransportBudget) (size : Int) (kind : Option BudgetKind) :
    Except FlowError Unit × TransportBudget :=
  if ¬(0 ≤ size ∧ size ≤ budget.byKind kind) then
    (.error (.valueError "transport release exceeds its reservation"), budget)
  else (.ok (), budget.charge kind (-size))

end TransportBudget

inductive BudgetOp
  | reserve (size : Int) (kind : Option BudgetKind)
  | release (size : Int) (kind : Option BudgetKind)
  deriving DecidableEq, Repr

def BudgetOp.kind : BudgetOp → Option BudgetKind
  | .reserve _ kind => kind
  | .release _ kind => kind

namespace TransportBudget

def step (budget : TransportBudget) : BudgetOp → TransportBudget
  | .reserve size kind => (budget.reserve size kind).2
  | .release size kind => (budget.release size kind).2

def bulkUsed (budget : TransportBudget) : Int := budget.byKind (some .bulk)

def recoveryUsed (budget : TransportBudget) : Int := budget.byKind (some .recovery)

def controlUsed (budget : TransportBudget) : Int := budget.byKind (some .control)

@[simp] theorem charge_limit (budget : TransportBudget) (kind : Option BudgetKind) (size : Int) :
    (budget.charge kind size).limit = budget.limit := rfl

@[simp] theorem charge_used (budget : TransportBudget) (kind : Option BudgetKind) (size : Int) :
    (budget.charge kind size).used = budget.used + size := rfl

@[simp] theorem charge_byKind (budget : TransportBudget) (kind other : Option BudgetKind)
    (size : Int) : (budget.charge kind size).byKind other =
      if other = kind then budget.byKind kind + size else budget.byKind other := by
  simp [charge, Function.update_apply]

/-- A step charges one kind, by a reservation that leaves its headroom or by a release of
what the kind holds. -/
theorem step_cases (budget : TransportBudget) (op : BudgetOp) : budget.step op = budget ∨
    ∃ size, budget.step op = budget.charge op.kind size ∧
      (0 ≤ size ∧ budget.used + size ≤ budget.limit - budget.headroom op.kind ∨
        size ≤ 0 ∧ 0 ≤ budget.byKind op.kind + size) := by
  cases op with
  | reserve size kind =>
    simp only [step, reserve, BudgetOp.kind]
    split
    · exact .inl rfl
    · split
      · exact .inl rfl
      next room => exact .inr ⟨size, rfl, .inl ⟨by omega, by omega⟩⟩
  | release size kind =>
    simp only [step, release, BudgetOp.kind]
    split
    · exact .inl rfl
    next held => exact .inr ⟨-size, rfl, .inr ⟨by omega, by omega⟩⟩

/-- Bulk traffic always leaves both reserved windows free, and recovery traffic the control
window, even while another kind has grown past its own window. -/
structure Guarded (budget : TransportBudget) : Prop where
  counted : budget.used = budget.bulkUsed + budget.recoveryUsed + budget.controlUsed
  unclassified : budget.byKind none = 0
  nonnegative : ∀ kind, 0 ≤ budget.byKind kind
  within : budget.used ≤ budget.limit
  bulkLeavesBoth : budget.bulkUsed + recoveryWindowBytes + controlBufferBytes ≤ budget.limit
  leavesControl : budget.bulkUsed + budget.recoveryUsed + controlBufferBytes ≤ budget.limit

theorem init_guarded (limit : Int) (large : controlBufferBytes + recoveryWindowBytes ≤ limit) :
    (init limit).Guarded := by
  have control : 0 ≤ controlBufferBytes := by decide
  have recovery : 0 ≤ recoveryWindowBytes := by decide
  constructor <;> simp [init, bulkUsed, recoveryUsed, controlUsed] <;> omega

theorem step_guarded (budget : TransportBudget) (op : BudgetOp) (guarded : budget.Guarded)
    (classified : op.kind ≠ none) : (budget.step op).Guarded := by
  rcases step_cases budget op with same | ⟨size, charged, allowed⟩
  · rw [same]
    exact guarded
  rw [charged]
  obtain ⟨counted, unclassified, nonnegative, within, bulkLeavesBoth, leavesControl⟩ := guarded
  simp only [bulkUsed, recoveryUsed, controlUsed] at counted bulkLeavesBoth leavesControl
  have bulk := nonnegative (some .bulk)
  have recovery := nonnegative (some .recovery)
  have control := nonnegative (some .control)
  have others : ∀ kind, 0 ≤ (budget.charge op.kind size).byKind kind := by
    intro kind
    simp only [charge_byKind]
    split
    · rcases allowed with ⟨grows, _⟩ | ⟨_, held⟩
      · have each := nonnegative op.kind
        omega
      · exact held
    · exact nonnegative kind
  cases kind : op.kind with
  | none => exact absurd kind classified
  | some charge =>
    rw [kind] at allowed others
    cases charge with
    | bulk =>
      simp only [headroom, true_or, if_true] at allowed
      refine ⟨?_, by simp [unclassified], others, ?_, ?_, ?_⟩ <;>
        simp [bulkUsed, recoveryUsed, controlUsed] <;> omega
    | recovery =>
      simp only [headroom, or_true, if_true] at allowed
      refine ⟨?_, by simp [unclassified], others, ?_, ?_, ?_⟩ <;>
        simp [bulkUsed, recoveryUsed, controlUsed] <;> simp at allowed <;> omega
    | control =>
      simp [headroom] at allowed
      refine ⟨?_, by simp [unclassified], others, ?_, ?_, ?_⟩ <;>
        simp [bulkUsed, recoveryUsed, controlUsed] <;> omega

theorem run_guarded {budget : TransportBudget} (guarded : budget.Guarded) (ops : List BudgetOp)
    (classified : ∀ op ∈ ops, op.kind ≠ none) : (run step budget ops).Guarded :=
  run_invariant_along Guarded step_guarded guarded ops (along_of_forall budget ops classified)

theorem run_limit (budget : TransportBudget) (ops : List BudgetOp) :
    (run step budget ops).limit = budget.limit := by
  refine run_invariant (fun (state : TransportBudget) => state.limit = budget.limit) ?_ rfl ops
  intro state op same
  rcases step_cases state op with idle | ⟨size, charged, _⟩
  · rw [idle]
    exact same
  · rw [charged]
    exact same

theorem reserve_granted {budget : TransportBudget} {size : Int} {kind : Option BudgetKind}
    (nonnegative : 0 ≤ size) (room : budget.used + size ≤ budget.limit - budget.headroom kind) :
    (budget.reserve size kind).1 = .ok true := by
  unfold reserve
  rw [if_neg (by omega), if_neg (by omega)]

/-- A control reservation within its window always succeeds, and so does a recovery one
while control stays within its own, whatever bulk traffic holds. -/
theorem headroom_guaranteed (limit : Int)
    (large : controlBufferBytes + recoveryWindowBytes ≤ limit) (ops : List BudgetOp)
    (classified : ∀ op ∈ ops, op.kind ≠ none) :
    let budget := run step (init limit) ops
    budget.used =
      budget.byKind none + budget.bulkUsed + budget.recoveryUsed + budget.controlUsed ∧
    budget.used ≤ limit ∧
    (∀ size, 0 ≤ size → budget.controlUsed + size ≤ controlBufferBytes →
      (budget.reserve size (some .control)).1 = .ok true) ∧
    (budget.controlUsed ≤ controlBufferBytes →
      ∀ size, 0 ≤ size → budget.recoveryUsed + size ≤ recoveryWindowBytes →
        (budget.reserve size (some .recovery)).1 = .ok true) := by
  intro budget
  have same : budget.limit = limit := run_limit (init limit) ops
  obtain ⟨counted, unclassified, _, within, bulkLeavesBoth, leavesControl⟩ : budget.Guarded :=
    run_guarded (init_guarded limit large) ops classified
  refine ⟨by rw [unclassified, counted]; omega, same ▸ within, ?_, ?_⟩
  · intro size nonnegative fits
    apply reserve_granted nonnegative
    have free : budget.headroom (some .control) = 0 := by simp [headroom]
    omega
  · intro controlWithin size nonnegative fits
    apply reserve_granted nonnegative
    have free : budget.headroom (some .recovery) = controlBufferBytes - budget.controlUsed := by
      simp only [headroom, controlUsed] at controlWithin ⊢
      simp
      omega
    omega

theorem headroom_guaranteed_under_bulk :
    let budget := run step (init globalBufferBytes) [.reserve (254 * 1024 * 1024) (some .bulk),
      .reserve (1024 * 1024) (some .bulk), .reserve 1000 (some .control)]
    (budget.reserve (1024 * 1024) (some .recovery)).1 = .ok true :=
  (headroom_guaranteed globalBufferBytes (by decide)
    [.reserve (254 * 1024 * 1024) (some .bulk), .reserve (1024 * 1024) (some .bulk),
      .reserve 1000 (some .control)] (by decide)).2.2.2 (by decide) _ (by decide) (by decide)

end TransportBudget

end OpenSquilla.Transport
