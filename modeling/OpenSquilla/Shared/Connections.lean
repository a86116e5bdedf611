import Mathlib.Tactic.Common

set_option autoImplicit false

-- An action that raises keeps what it wrote. Only a rollback gives back the tables at which the
-- open transaction began, so an action that escapes between the two leaves its transaction to the
-- next caller.

namespace Connections

structure Session (τ κ : Type) where
  tables : τ
  -- the tables a rollback goes back to, while a transaction is open
  began : Option τ := none
  -- what the owner of the connection keeps beside the tables
  kept : κ

abbrev Action (τ κ ε : Type) := ExceptT ε (StateM (Session τ κ))

variable {τ κ ε π α β : Type}

def outcome (action : Action τ κ ε α) (session : Session τ κ) : Except ε α × Session τ κ :=
  action.run.run session

def tablesNow : Action τ κ ε τ := return (← get).tables

def keptNow : Action τ κ ε κ := return (← get).kept

def write (change : τ → τ) : Action τ κ ε Unit :=
  modify fun session => { session with tables := change session.tables }

def keep (change : κ → κ) : Action τ κ ε Unit :=
  modify fun session => { session with kept := change session.kept }

def arrive (faults : π → Option ε) (point : π) : Action τ κ ε Unit :=
  match faults point with
  | none => pure ()
  | some fault => throw fault

def begin (busy : ε) : Action τ κ ε Unit := do
  let session ← get
  if session.began.isSome then throw busy
  else set { session with began := some session.tables }

def Session.rolledBack (session : Session τ κ) : Session τ κ :=
  { session with tables := session.began.getD session.tables, began := none }

def rollback : Action τ κ ε Unit := modify Session.rolledBack

def commit : Action τ κ ε Unit := modify fun session => { session with began := none }

section Outcomes

variable (session : Session τ κ)

@[simp] theorem outcome_pure (value : α) :
    outcome (pure value : Action τ κ ε α) session = (.ok value, session) := rfl

@[simp] theorem outcome_throw (fault : ε) :
    outcome (throw fault : Action τ κ ε α) session = (.error fault, session) := rfl

theorem outcome_bind (action : Action τ κ ε α) (next : α → Action τ κ ε β) : outcome (action >>= next) session =
      match outcome action session with
      | (.ok value, later) => outcome (next value) later
      | (.error fault, later) => (.error fault, later) := by
  simp only [outcome, ExceptT.run_bind, StateT.run_bind]
  change (match action.run.run session with | (result, later) => _) = _
  rcases action.run.run session with ⟨_ | _, later⟩ <;> rfl

theorem outcome_map (change : α → β) (action : Action τ κ ε α) : outcome (change <$> action) session =
      ((outcome action session).1.map change, (outcome action session).2) := by
  rw [map_eq_pure_bind, outcome_bind]
  rcases outcome action session with ⟨_ | _, later⟩ <;> rfl

theorem outcome_tryCatch (action : Action τ κ ε α) (handler : ε → Action τ κ ε α) :
    outcome (tryCatch action handler) session =
      match outcome action session with
      | (.ok value, later) => (.ok value, later)
      | (.error fault, later) => outcome (handler fault) later := by
  simp only [outcome, ExceptT.run_tryCatch, StateT.run_bind]
  change (match action.run.run session with | (result, later) => _) = _
  rcases action.run.run session with ⟨_ | _, later⟩ <;> rfl

@[simp] theorem outcome_tablesNow :
    outcome (tablesNow : Action τ κ ε τ) session = (.ok session.tables, session) := rfl

@[simp] theorem outcome_keptNow :
    outcome (keptNow : Action τ κ ε κ) session = (.ok session.kept, session) := rfl

@[simp] theorem outcome_write (change : τ → τ) : outcome (write change : Action τ κ ε Unit) session =
      (.ok (), { session with tables := change session.tables }) := rfl

@[simp] theorem outcome_keep (change : κ → κ) : outcome (keep change : Action τ κ ε Unit) session =
      (.ok (), { session with kept := change session.kept }) := rfl

@[simp] theorem outcome_rollback :
    outcome (rollback : Action τ κ ε Unit) session = (.ok (), session.rolledBack) := rfl

@[simp] theorem outcome_commit :
    outcome (commit : Action τ κ ε Unit) session = (.ok (), { session with began := none }) := rfl

theorem outcome_arrive (faults : π → Option ε) (point : π) :
    outcome (arrive faults point : Action τ κ ε Unit) session =
      ((faults point).elim (.ok ()) .error, session) := by
  unfold arrive
  cases faults point <;> rfl

theorem outcome_begin (busy : ε) : outcome (begin busy : Action τ κ ε Unit) session =
      if session.began.isSome then (.error busy, session)
      else (.ok (), { session with began := some session.tables }) := by
  have unfolded : outcome (begin busy : Action τ κ ε Unit) session =
      outcome (if session.began.isSome then throw busy
        else set { session with began := some session.tables } : Action τ κ ε Unit) session := rfl
  rw [unfolded]
  split <;> rfl

end Outcomes

-- What holds of the answer and of the connection at the end.
def Ends (post : Except ε α → Session τ κ → Prop) (action : Action τ κ ε α) (session : Session τ κ) : Prop :=
  post (outcome action session).1 (outcome action session).2

-- After the first of two actions, the second one, unless the first raised.
def Continues (post : Except ε β → Session τ κ → Prop) (next : α → Action τ κ ε β) :
    Except ε α → Session τ κ → Prop
  | .ok value, later => Ends post (next value) later
  | .error fault, later => post (.error fault) later

def Recovers (post : Except ε α → Session τ κ → Prop) (handler : ε → Action τ κ ε α) :
    Except ε α → Session τ κ → Prop
  | .ok value, later => post (.ok value) later
  | .error fault, later => Ends post (handler fault) later

section Ends

variable (session : Session τ κ)

@[simp] theorem ends_pure (post : Except ε α → Session τ κ → Prop) (value : α) :
    Ends post (pure value) session ↔ post (.ok value) session := Iff.rfl

@[simp] theorem ends_throw (post : Except ε α → Session τ κ → Prop) (fault : ε) :
    Ends post (throw fault) session ↔ post (.error fault) session := Iff.rfl

theorem ends_bind (post : Except ε β → Session τ κ → Prop) (action : Action τ κ ε α)
    (next : α → Action τ κ ε β) :
    Ends post (action >>= next) session ↔ Ends (Continues post next) action session := by
  unfold Ends
  rw [outcome_bind]
  rcases outcome action session with ⟨_ | _, later⟩ <;> rfl

theorem ends_tryCatch (post : Except ε α → Session τ κ → Prop) (action : Action τ κ ε α)
    (handler : ε → Action τ κ ε α) :
    Ends post (tryCatch action handler) session ↔ Ends (Recovers post handler) action session := by
  unfold Ends
  rw [outcome_tryCatch]
  rcases outcome action session with ⟨_ | _, later⟩ <;> rfl

theorem ends_arrive (post : Except ε β → Session τ κ → Prop) (faults : π → Option ε) (point : π)
    (next : Unit → Action τ κ ε β) : Ends post (arrive faults point >>= next) session ↔
      match faults point with
      | none => Ends post (next ()) session
      | some fault => post (.error fault) session := by
  rw [ends_bind, Ends, outcome_arrive]
  cases faults point <;> rfl

variable (post : Except ε α → Session τ κ → Prop)

theorem ends_begin (busy : ε) (next : Unit → Action τ κ ε α) (closed : session.began = none) :
    Ends post (begin busy >>= next) session ↔
      Ends post (next ()) { session with began := some session.tables } := by
  rw [ends_bind, Ends, outcome_begin, closed]
  rfl

@[simp] theorem ends_tablesNow (next : τ → Action τ κ ε α) :
    Ends post (tablesNow >>= next) session ↔ Ends post (next session.tables) session := by
  rw [ends_bind]
  rfl

@[simp] theorem ends_keptNow (next : κ → Action τ κ ε α) :
    Ends post (keptNow >>= next) session ↔ Ends post (next session.kept) session := by
  rw [ends_bind]
  rfl

@[simp] theorem ends_write (change : τ → τ) (next : Unit → Action τ κ ε α) :
    Ends post (write change >>= next) session ↔
      Ends post (next ()) { session with tables := change session.tables } := by
  rw [ends_bind]
  rfl

@[simp] theorem ends_keep (change : κ → κ) (next : Unit → Action τ κ ε α) :
    Ends post (keep change >>= next) session ↔
      Ends post (next ()) { session with kept := change session.kept } := by
  rw [ends_bind]
  rfl

@[simp] theorem ends_rollback (next : Unit → Action τ κ ε α) :
    Ends post (rollback >>= next) session ↔ Ends post (next ()) session.rolledBack := by
  rw [ends_bind]
  rfl

@[simp] theorem ends_commit (next : Unit → Action τ κ ε α) :
    Ends post (commit >>= next) session ↔ Ends post (next ()) { session with began := none } := by
  rw [ends_bind]
  rfl

end Ends

/-- No transaction is open at the end, and the tables are the entry's if the action raised. -/
def LeftBy (entry : τ) (result : Except ε α) (later : Session τ κ) : Prop :=
  later.began = none ∧ ∀ fault, result = .error fault → later.tables = entry

def Leaves (entry : τ) (action : Action τ κ ε α) (session : Session τ κ) : Prop :=
  Ends (LeftBy entry) action session

@[simp] theorem leftBy_ok (entry : τ) (value : α) (later : Session τ κ) :
    LeftBy entry (.ok value : Except ε α) later ↔ later.began = none := by
  simp [LeftBy]

@[simp] theorem leftBy_error (entry : τ) (fault : ε) (later : Session τ κ) :
    LeftBy entry (.error fault : Except ε α) later ↔ later.began = none ∧ later.tables = entry := by
  simp [LeftBy]

section Rules

variable (entry : τ) (session : Session τ κ)

theorem begins_iff (busy : ε) :
    (outcome (begin busy : Action τ κ ε Unit) session).1 = .ok () ↔ session.began = none := by
  rw [outcome_begin]
  cases opened : session.began <;> simp

@[simp] theorem leaves_pure (value : α) :
    Leaves entry (pure value : Action τ κ ε α) session ↔ session.began = none :=
  leftBy_ok entry value session

@[simp] theorem leaves_throw (fault : ε) : Leaves entry (throw fault : Action τ κ ε α) session ↔
      session.began = none ∧ session.tables = entry :=
  leftBy_error entry fault session

theorem leaves_tryCatch (action : Action τ κ ε α) (handler : ε → Action τ κ ε α) :
    Leaves entry (tryCatch action handler) session ↔
      Ends (Recovers (LeftBy entry) handler) action session :=
  ends_tryCatch session (LeftBy entry) action handler

@[simp] theorem leaves_map (change : α → β) (action : Action τ κ ε α) :
    Leaves entry (change <$> action) session ↔ Leaves entry action session := by
  unfold Leaves Ends
  rw [outcome_map]
  rcases outcome action session with ⟨fault | value, later⟩ <;> simp [Except.map]

variable (faults : π → Option ε) (point : π) (next : Unit → Action τ κ ε α)

theorem leaves_arrive_open (opened : session.began ≠ none) :
    Leaves entry (arrive faults point >>= next) session ↔
      faults point = none ∧ Leaves entry (next ()) session := by
  unfold Leaves
  rw [ends_arrive]
  cases faults point with
  | none => simp
  | some fault => simp [opened]

@[simp] theorem leaves_arrive : Leaves entry (arrive faults point : Action τ κ ε Unit) session ↔
      session.began = none ∧ (faults point = none ∨ session.tables = entry) := by
  unfold Leaves Ends
  rw [outcome_arrive]
  cases faults point <;> simp

theorem leaves_begin (busy : ε) (closed : session.began = none) : Leaves entry (begin busy >>= next) session ↔
      Leaves entry (next ()) { session with began := some session.tables } :=
  ends_begin session (LeftBy entry) busy next closed

@[simp] theorem leaves_tablesNow (next : τ → Action τ κ ε α) :
    Leaves entry (tablesNow >>= next) session ↔ Leaves entry (next session.tables) session :=
  ends_tablesNow session (LeftBy entry) next

@[simp] theorem leaves_keptNow (next : κ → Action τ κ ε α) :
    Leaves entry (keptNow >>= next) session ↔ Leaves entry (next session.kept) session :=
  ends_keptNow session (LeftBy entry) next

@[simp] theorem leaves_write (change : τ → τ) : Leaves entry (write change >>= next) session ↔
      Leaves entry (next ()) { session with tables := change session.tables } :=
  ends_write session (LeftBy entry) change next

@[simp] theorem leaves_keep (change : κ → κ) : Leaves entry (keep change >>= next) session ↔
      Leaves entry (next ()) { session with kept := change session.kept } :=
  ends_keep session (LeftBy entry) change next

@[simp] theorem leaves_rollback :
    Leaves entry (rollback >>= next) session ↔ Leaves entry (next ()) session.rolledBack :=
  ends_rollback session (LeftBy entry) next

@[simp] theorem leaves_commit : Leaves entry (commit >>= next) session ↔
      Leaves entry (next ()) { session with began := none } :=
  ends_commit session (LeftBy entry) next

end Rules

end Connections
