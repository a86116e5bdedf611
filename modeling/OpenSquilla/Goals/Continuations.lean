import OpenSquilla.Goals.Windows

set_option autoImplicit false

namespace OpenSquilla.Goals

open Runs
open TextLines TextScan
open RaisingRuns (raiseIf raiseAny orRaise of_bind_ok of_map_ok raiseIf_eq_ok orRaise_eq_ok)
open PendingInputs (canonicalizeSessionKey)

variable (automaticGoalTaskId : Text → Nat → Nat → Text) (goalId : Text) (maxTurns runtimeBudgetSeconds : Nat)

-- The call writes the goal, brings it in or takes it away.
def Writes (store : Store) (op : GoalOp) : Prop :=
  (store.step automaticGoalTaskId op).selectGoalById goalId ≠ store.selectGoalById goalId

-- A resume, an edit that asks for one or finds the goal complete, or a new goal.
def BeginsWindow (store : Store) (op : GoalOp) : Prop :=
  ((∃ goal ∈ store.goals.rows, goal.goalId = goalId ∧ op.Resets goal) ∨ op.Opens goalId) ∧
    Writes automaticGoalTaskId goalId store op

def GoalOp.Reopens : GoalOp → Prop
  | .resumeGoal call => call.expected.goalId = goalId
  | .editGoal edit => edit.expected.goalId = goalId
  | op => op.Opens goalId

def GoalOp.Limited : GoalOp → Prop
  | .acceptGoalContinuation call =>
    call.maxTurns = maxTurns ∧ call.runtimeBudgetSeconds = runtimeBudgetSeconds
  | .settleGoalTask settle =>
    settle.maxTurns = maxTurns ∧ settle.runtimeBudgetSeconds = runtimeBudgetSeconds
  | _ => True

def accepted (store : Store) : GoalOp → Bool
  | .acceptGoalContinuation call =>
    call.expected.goalId = goalId &&
      ((store.acceptGoalContinuation automaticGoalTaskId call).toOption.any (·.1.isLeft))
  | _ => false

def turnsLeft (store : Store) : Nat :=
  (store.selectGoalById goalId).elim 0 (maxTurns - ·.windowTurnsStarted)

variable {automaticGoalTaskId goalId maxTurns runtimeBudgetSeconds}

variable {store next : Store} {op : GoalOp} {goal row : GoalRecord}

theorem accepted_ok {call : Continuation}
    (accepts : accepted automaticGoalTaskId goalId store (.acceptGoalContinuation call) = true) :
    call.expected.goalId = goalId ∧ ∃ goal,
      Store.Continued call store (store.step automaticGoalTaskId (.acceptGoalContinuation call)) goal := by
  unfold accepted at accepts
  rw [Bool.and_eq_true, decide_eq_true_eq] at accepts
  refine ⟨accepts.1, ?_⟩
  cases ran : store.acceptGoalContinuation automaticGoalTaskId call with
  | error raised => simp [ran, Except.toOption] at accepts
  | ok answer =>
    obtain ⟨answer, next⟩ := answer
    have left : answer.isLeft = true := by simpa [ran, Except.toOption] using accepts.2
    have stepped : store.step automaticGoalTaskId (.acceptGoalContinuation call) = next := by
      simp [Store.step, Store.run, ran, Except.map]
    rw [stepped]
    exact (Store.acceptGoalContinuation_ok ran).2 left

theorem onward_of_steady (steady : ¬BeginsWindow automaticGoalTaskId goalId store op)
    (mem : row ∈ (store.step automaticGoalTaskId op).goals.rows) (same : row.goalId = goalId) :
    ∃ goal ∈ store.goals.rows, Onward goal row := by
  subst same
  have unwritten (begins : (∃ goal ∈ store.goals.rows, goal.goalId = row.goalId ∧ op.Resets goal) ∨
      op.Opens row.goalId) : ∃ goal ∈ store.goals.rows, Onward goal row := by
    have kept := not_not.mp fun writes => steady ⟨begins, writes⟩
    rw [Store.selectGoalById_of_mem mem] at kept
    exact ⟨row, (Store.selectGoalById_eq_some kept.symm).1, .refl row⟩
  obtain ⟨goal, present, step⟩ | opens := Store.step_windows automaticGoalTaskId op store row mem
  · cases step with
    | onward onward => exact ⟨goal, present, onward⟩
    | reset goalId resets => exact unwritten (.inl ⟨goal, present, goalId.symm, resets⟩)
  · exact unwritten (.inr opens)

theorem turnsLeft_step (steady : ¬BeginsWindow automaticGoalTaskId goalId store op)
    (limited : op.Limited maxTurns runtimeBudgetSeconds) :
    turnsLeft goalId maxTurns (store.step automaticGoalTaskId op) +
      (accepted automaticGoalTaskId goalId store op).toNat ≤ turnsLeft goalId maxTurns store := by
  cases accepts : accepted automaticGoalTaskId goalId store op with
  | true =>
    cases op with
    | acceptGoalContinuation call =>
      obtain ⟨named, goal, continued⟩ := accepted_ok accepts
      obtain ⟨row, mem, rowId, started⟩ := continued.started
      have before := Store.selectGoalById_of_mem continued.mem
      have after := Store.selectGoalById_of_mem mem
      rw [rowId] at after
      rw [continued.goalId, named] at before after
      have room := continued.turns
      rw [limited.1] at room
      simp only [turnsLeft, before, after, Option.elim, started, Bool.toNat_true]
      omega
    | _ => cases accepts
  | false =>
    unfold turnsLeft
    cases after : (store.step automaticGoalTaskId op).selectGoalById goalId with
    | none => exact Nat.zero_le _
    | some row =>
      obtain ⟨mem, same⟩ := Store.selectGoalById_eq_some after
      obtain ⟨goal, present, onward⟩ := onward_of_steady steady mem same
      have before := Store.selectGoalById_of_mem present
      rw [← onward.goalId, same] at before
      have turns := onward.turns
      simp only [before, Option.elim, Bool.toNat_false]
      omega

theorem onward_run {ops : List GoalOp} (along : Along (Store.step automaticGoalTaskId)
      (fun store op => ¬BeginsWindow automaticGoalTaskId goalId store op) store ops)
    (mem : row ∈ (run (Store.step automaticGoalTaskId) store ops).goals.rows) (same : row.goalId = goalId) :
    ∃ goal ∈ store.goals.rows, Onward goal row := by
  induction ops generalizing store with
  | nil => exact ⟨row, mem, .refl row⟩
  | cons op rest ih =>
    obtain ⟨mid, midMember, later⟩ := ih along.2 mem
    obtain ⟨goal, present, earlier⟩ := onward_of_steady along.1 midMember (later.goalId.symm.trans same)
    exact ⟨goal, present, earlier.trans later⟩

theorem reopens_of_resets (resets : op.Resets goal) (same : goal.goalId = goalId) : op.Reopens goalId := by
  subst same
  cases op with
  | resumeGoal => exact resets
  | editGoal => exact resets.1
  | _ => exact resets.elim

theorem reopens_of_opens (opens : op.Opens goalId) : op.Reopens goalId := by
  cases op with
  | acceptTurn | createGoalForRunningTask => exact opens
  | _ => exact opens.elim

theorem steady_of_not_reopens (closed : ¬(op.Reopens goalId ∧ Writes automaticGoalTaskId goalId store op)) :
    ¬BeginsWindow automaticGoalTaskId goalId store op := by
  rintro ⟨begins, writes⟩
  refine closed ⟨?_, writes⟩
  obtain ⟨goal, -, same, resets⟩ | opens := begins
  · exact reopens_of_resets resets same
  · exact reopens_of_opens opens

theorem pauseGoal_paused {call : GoalCommand} {reason : Option Text} {result : GoalCommandResult}
    (ran : store.pauseGoal call reason = .ok (result, next)) (fresh : result.replayed = false) :
    ∃ row ∈ next.goals.rows, row.goalId = call.expected.goalId ∧ row.status = .paused := by
  obtain ⟨command, -, ran⟩ := of_bind_ok ran
  obtain ⟨normalized, -, ran⟩ := of_bind_ok ran
  obtain ⟨replay, replays, ran⟩ := of_bind_ok ran
  cases replay with
  | some replay =>
    obtain ⟨receipt, -, replays⟩ : ∃ receipt, store.receipts.get? command.toRequestKey = some receipt ∧
        replay.replayed = true := by
      unfold Store.replayGoalCommand at replays
      split at replays
      next => cases replays
      next receipt found =>
        obtain ⟨_, -, replays⟩ := of_bind_ok replays
        cases replays
        exact ⟨receipt, found, rfl⟩
    cases ran
    rw [replays] at fresh
    cases fresh
  | none =>
    obtain ⟨goal, expected, ran⟩ := of_bind_ok ran
    obtain ⟨_, -, ran⟩ := of_bind_ok ran
    obtain ⟨paused, updated, ran⟩ := of_bind_ok ran
    obtain ⟨_, -, ran⟩ := of_bind_ok ran
    cases ran
    obtain ⟨present, session, same, revision⟩ := Store.requireExpectedGoal_ok expected
    have written := Store.updated_mem updated present (by simp [ExpectedGoal.meets, session, same, revision])
    exact ⟨_, written, same, rfl⟩

theorem pauseGoalForSystem_paused {pause : SystemPause} {found : GoalRecord}
    (ran : store.pauseGoalForSystem pause = .ok (some found, next)) :
    found ∈ next.goals.rows ∧ found.goalId = pause.goalId ∧ found.status = .paused := by
  obtain ⟨reason, -, ran⟩ := of_bind_ok ran
  dsimp only at ran
  split at ran
  next => cases ran
  next current selected =>
    split at ran
    next => cases ran
    next same =>
      obtain ⟨paused, updated, ran⟩ := of_bind_ok ran
      rw [not_or, not_or, not_not, not_not, not_not] at same
      obtain ⟨present, session⟩ := Store.selectGoal_eq_some selected
      have written := Store.updated_mem updated present (by simp [session, same.1, same.2.1])
      obtain ⟨answer, rfl⟩ := Prod.mk.inj (Except.ok.inj ran)
      obtain ⟨foundMember, foundSession⟩ := Store.selectGoal_eq_some answer
      obtain rfl := Store.eq_of_sessionKey foundMember written (foundSession.trans session.symm)
      exact ⟨foundMember, same.1, rfl⟩

variable (automaticGoalTaskId goalId maxTurns runtimeBudgetSeconds)

-- A run in which no window of the goal begins and every limit is the given one.
abbrev WithinWindow : Store → List GoalOp → Prop :=
  Along (Store.step automaticGoalTaskId) fun store op =>
    ¬BeginsWindow automaticGoalTaskId goalId store op ∧ op.Limited maxTurns runtimeBudgetSeconds

structure BoundedContinuations : Prop where
  turns : ∀ store ops, WithinWindow automaticGoalTaskId goalId maxTurns runtimeBudgetSeconds store ops →
    Quota.times (Store.step automaticGoalTaskId) (accepted automaticGoalTaskId goalId) store ops ≤ maxTurns
  -- `started` is the goal as the window began, `goal` as the run left it
  time : ∀ store ops, WithinWindow automaticGoalTaskId goalId maxTurns runtimeBudgetSeconds store ops →
    ∀ started ∈ store.goals.rows, started.goalId = goalId →
    ∀ goal ∈ (run (Store.step automaticGoalTaskId) store ops).goals.rows, goal.goalId = goalId →
      runtimeBudgetSeconds * 1000 ≤ goal.activeTimeMs - started.activeTimeMs →
    ∀ op : GoalOp, op.Limited maxTurns runtimeBudgetSeconds →
      accepted automaticGoalTaskId goalId (run (Store.step automaticGoalTaskId) store ops) op = false
  gated : ∀ store op, accepted automaticGoalTaskId goalId store op = true →
    ∃ goal ∈ store.goals.rows, goal.goalId = goalId ∧ goal.status = .active ∧
      goal.activeTaskId = none ∧ store.busy goal.sessionKey = false
  userPause : ∀ (store : Store) call reason result next,
    store.pauseGoal call reason = .ok (result, next) → result.replayed = false →
    ∃ goal ∈ next.goals.rows, goal.goalId = call.expected.goalId ∧ goal.status = .paused
  systemPause : ∀ (store : Store) pause goal next,
    store.pauseGoalForSystem pause = .ok (some goal, next) →
    goal ∈ next.goals.rows ∧ goal.goalId = pause.goalId ∧ goal.status = .paused
  pauseHolds : ∀ store ops,
    Along (Store.step automaticGoalTaskId)
      (fun store op => ¬(op.Reopens goalId ∧ Writes automaticGoalTaskId goalId store op)) store ops →
    ∀ paused ∈ store.goals.rows, paused.goalId = goalId → paused.status = .paused →
    ∀ goal ∈ (run (Store.step automaticGoalTaskId) store ops).goals.rows, goal.goalId = goalId →
      goal.status ≠ .active

theorem continuations_bounded :
    BoundedContinuations automaticGoalTaskId goalId maxTurns runtimeBudgetSeconds := by
  constructor
  case turns =>
    intro store ops within
    have used := Quota.times_le_room (turnsLeft goalId maxTurns)
      (fun store op allowed => turnsLeft_step allowed.1 allowed.2) within
    refine used.trans ?_
    unfold turnsLeft
    cases store.selectGoalById goalId with
    | none => exact Nat.zero_le _
    | some goal => exact Nat.sub_le _ _
  case time =>
    intro store ops within started startedMember startedId goal mem same reached op limited
    obtain ⟨base, present, onward⟩ := onward_run (within.imp fun _ _ allowed => allowed.1) mem same
    obtain rfl := Store.eq_of_goalId present startedMember
      (onward.goalId.symm.trans (same.trans startedId.symm))
    by_contra accepts
    replace accepts := Bool.not_eq_false _ ▸ accepts
    cases op with
    | acceptGoalContinuation call =>
      obtain ⟨named, other, continued⟩ := accepted_ok accepts
      obtain rfl := Store.eq_of_goalId continued.mem mem
        (continued.goalId.trans (named.trans same.symm))
      have settled := onward.settledTime
      have room := continued.time
      rw [limited.2] at room
      omega
    | _ => cases accepts
  case gated =>
    intro store op accepts
    cases op with
    | acceptGoalContinuation call =>
      obtain ⟨named, goal, continued⟩ := accepted_ok accepts
      exact ⟨goal, continued.mem, continued.goalId.trans named, continued.active, continued.free,
        continued.idle⟩
    | _ => cases accepts
  case userPause =>
    intro store call reason result next ran fresh
    exact pauseGoal_paused ran fresh
  case systemPause =>
    intro store pause goal next ran
    exact pauseGoalForSystem_paused ran
  case pauseHolds =>
    intro store ops along paused pausedMember pausedId status goal mem same active
    obtain ⟨base, present, onward⟩ :=
      onward_run (along.imp fun _ _ closed => steady_of_not_reopens closed) mem same
    obtain rfl := Store.eq_of_goalId present pausedMember
      (onward.goalId.symm.trans (same.trans pausedId.symm))
    have wasActive := onward.status active
    rw [status] at wasActive
    cases wasActive

end OpenSquilla.Goals
