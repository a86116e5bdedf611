import OpenSquilla.Goals.Ownership

set_option autoImplicit false

namespace OpenSquilla.Goals

open TextLines TextScan
open RaisingRuns (raiseIf raiseAny orRaise of_bind_ok of_map_ok raiseIf_eq_ok orRaise_eq_ok)

variable {op : GoalOp} {store middle next : Store} {row : GoalRecord} {taskId : Text}

def GoalOp.EndsFor (taskId : Text) : GoalOp → Prop
  | .commitGoalTerminal context _ _ _ => context.taskId = taskId
  | .settleGoalTask settle => settle.context.taskId = taskId
  | .deferGoalContinuation context _ _ => context.taskId = taskId
  | .compensateGoalActivationFailure context _ _ _ => context.taskId = taskId
  | .compensateTerminalPersistenceFailure context _ _ => context.taskId = taskId
  | _ => False

/-- The row is as it was, or a settlement has looked again at the usage of its goal. -/
def LeavesRow (op : GoalOp) (row : GoalRecord) (next : Store) : Prop :=
  row ∈ next.goals.rows ∨ ∃ settle, op = .settleGoalTask settle ∧ row.goalId = settle.context.goalId ∧
    ∃ coverage, { row with usageCoverage := coverage } ∈ next.goals.rows

namespace Store

theorem updateGoals_unowned {chosen : GoalRecord → Bool} {f : GoalRecord → GoalRecord}
    (ran : store.updateGoals chosen f = .ok next)
    (held : ∀ row, chosen row = true → row.activeTaskId = some taskId) (mem : row ∈ store.goals.rows)
    (unowned : row.activeTaskId ≠ some taskId) : row ∈ next.goals.rows := by
  have missed : ¬chosen row = true := fun picked => unowned (held row picked)
  rw [(updateGoals_ok ran).2]
  exact List.mem_map.2 ⟨row, mem, if_neg missed⟩

theorem owned_of_chosen {goalId : Text} (row : GoalRecord)
    (picked : (row.goalId = goalId && row.activeTaskId = some taskId) = true) :
    row.activeTaskId = some taskId := by
  rw [Bool.and_eq_true] at picked
  exact of_decide_eq_true picked.2

theorem commitGoalTerminal_unowned {context : GoalTurnContext} {status : GoalStatus}
    {blockedReason : Option Text} {now : Nat} {result : GoalRecord}
    (ran : store.commitGoalTerminal context status blockedReason now = .ok (result, next))
    (mem : row ∈ store.goals.rows) (unowned : row.activeTaskId ≠ some context.taskId) :
    row ∈ next.goals.rows := by
  obtain ⟨_, -, ran⟩ := of_bind_ok ran
  obtain ⟨reason, -, ran⟩ := of_bind_ok ran
  obtain ⟨_, -, ran⟩ := of_bind_ok ran
  obtain ⟨goal, -, ran⟩ := of_bind_ok ran
  obtain ⟨_, -, ran⟩ := of_bind_ok ran
  obtain ⟨_, -, ran⟩ := of_bind_ok ran
  split at ran
  next =>
    obtain ⟨_, -, ran⟩ := of_bind_ok ran
    cases ran
    exact mem
  next =>
    obtain ⟨_, -, ran⟩ := of_bind_ok ran
    obtain ⟨committed, updated, ran⟩ := of_bind_ok ran
    obtain ⟨_, -, ran⟩ := of_bind_ok ran
    cases ran
    refine updateGoals_unowned updated (fun row picked => ?_) mem unowned
    rw [Bool.and_eq_true] at picked
    exact of_decide_eq_true picked.2

theorem compensateGoalTask_unowned {compensation : Compensation} {result : Option GoalRecord}
    (ran : store.compensateGoalTask compensation = .ok (result, next)) (mem : row ∈ store.goals.rows)
    (unowned : row.activeTaskId ≠ some compensation.context.taskId) : row ∈ next.goals.rows := by
  unfold compensateGoalTask at ran
  dsimp only at ran
  split at ran
  next =>
    cases ran
    exact mem
  next task _ =>
    obtain ⟨_, -, ran⟩ := of_bind_ok ran
    obtain ⟨_, -, ran⟩ := of_bind_ok ran
    have kept : row ∈ (store.abandonTask compensation.context.taskId compensation.reason compensation.now
        task).goals.rows := by
      unfold abandonTask
      split <;> exact mem
    split at ran
    next =>
      cases ran
      exact mem
    next =>
      split at ran
      next =>
        cases ran
        exact kept
      next =>
        obtain ⟨_, updated, ran⟩ := of_bind_ok ran
        cases ran
        exact updateGoals_unowned updated owned_of_chosen kept unowned

theorem settleGoalTask_unowned {settle : SettleGoalTask} {result : Option GoalRecord}
    (ran : store.settleGoalTask settle = .ok (result, next)) (mem : row ∈ store.goals.rows)
    (unowned : row.activeTaskId ≠ some settle.context.taskId) :
    LeavesRow (.settleGoalTask settle) row next := by
  obtain ⟨_, -, ran⟩ := of_bind_ok ran
  obtain ⟨task, -, ran⟩ := of_bind_ok ran
  obtain ⟨_, -, ran⟩ := of_bind_ok ran
  obtain ⟨_, -, ran⟩ := of_bind_ok ran
  obtain ⟨⟨_, middle⟩, refreshes, ran⟩ := of_bind_ok ran
  obtain ⟨_, refreshed, same⟩ := of_bind_ok refreshes
  cases same
  -- what the second update finds is a row that its task does not own either
  have kept : ∀ other ∈ middle.goals.rows, other.activeTaskId ≠ some settle.context.taskId →
      other ∈ next.goals.rows := by
    intro other present free
    dsimp only at ran
    split at ran
    next =>
      cases ran
      exact present
    next =>
      obtain ⟨_, -, ran⟩ := of_bind_ok ran
      obtain ⟨_, updated, ran⟩ := of_bind_ok ran
      cases ran
      exact updateGoals_unowned updated owned_of_chosen present free
  by_cases named : row.goalId = settle.context.goalId
  · refine .inr ⟨settle, rfl, named, _, kept _ (updated_mem refreshed mem ?_) unowned⟩
    exact decide_eq_true named
  · refine .inl (kept row ?_ unowned)
    rw [(updateGoals_ok refreshed).2]
    exact List.mem_map.2 ⟨row, mem, if_neg (by simpa using named)⟩

theorem step_unowned (automaticGoalTaskId : Text → Nat → Nat → Text) (ends : op.EndsFor taskId)
    (mem : row ∈ store.goals.rows) (unowned : row.activeTaskId ≠ some taskId) :
    LeavesRow op row (store.step automaticGoalTaskId op) := by
  unfold step
  split
  next next ran =>
    cases op with
    | commitGoalTerminal =>
      cases ends
      obtain ⟨⟨_, _⟩, called, rfl⟩ := of_map_ok ran
      exact .inl (commitGoalTerminal_unowned called mem unowned)
    | settleGoalTask =>
      cases ends
      obtain ⟨⟨_, _⟩, called, rfl⟩ := of_map_ok ran
      exact settleGoalTask_unowned called mem unowned
    | deferGoalContinuation | compensateTerminalPersistenceFailure =>
      cases ends
      obtain ⟨⟨_, _⟩, called, rfl⟩ := of_map_ok ran
      exact .inl (compensateGoalTask_unowned called mem unowned)
    | compensateGoalActivationFailure =>
      cases ends
      obtain ⟨⟨_, _⟩, called, rfl⟩ := of_map_ok ran
      obtain ⟨_, -, called⟩ := of_bind_ok called
      exact .inl (compensateGoalTask_unowned called mem unowned)
    | _ => exact ends.elim
  next => exact .inl mem

end Store

/-- The row comes from a row of the same goal with a lower revision, up to its coverage, or it is new. -/
def Revised (op : GoalOp) (before : Store) (row : GoalRecord) : Prop :=
  (∃ goal ∈ before.goals.rows, goal.goalId = row.goalId ∧ goal.sessionKey = row.sessionKey ∧
    (goal.stateRevision < row.stateRevision ∨ ∃ coverage, row = { goal with usageCoverage := coverage })) ∨
  (op.Opens row.goalId ∧ row.stateRevision = 1)

theorem Origin.revised {tasks : Dict Text AgentTask} (origin : Origin op store.goals.rows tasks row) :
    Revised op store row := by
  cases origin with
  | opened _ opens _ stateRevision => exact .inr ⟨opens, stateRevision⟩
  | row goal mem step =>
    refine .inl ⟨goal, mem, step.goalId.symm, step.sessionKey.symm, ?_⟩
    cases step with
    | covered coverage => exact .inr ⟨coverage, rfl⟩
    | advanced advance => exact .inl advance.stateRevision

-- The store after the calls, the newest of which is the first of the list.
def stateAfter (automaticGoalTaskId : Text → Nat → Nat → Text) (past : List GoalOp) : Store :=
  Past.state (Store.step automaticGoalTaskId) {} past

theorem stateAfter_sound (automaticGoalTaskId : Text → Nat → Nat → Text) (past : List GoalOp) :
    (stateAfter automaticGoalTaskId past).Sound :=
  Past.invariant Store.Sound
    (fun store op sound => (store.step_change automaticGoalTaskId op sound.tasks).sound sound)
    (sound_empty {} rfl rfl) past

theorem stateAfter_change (automaticGoalTaskId : Text → Nat → Nat → Text) (op : GoalOp) (past : List GoalOp) :
    Change op (stateAfter automaticGoalTaskId past) (stateAfter automaticGoalTaskId (op :: past)) :=
  Store.step_change automaticGoalTaskId op (stateAfter_sound automaticGoalTaskId past).tasks

theorem settled_at_most_once (automaticGoalTaskId : Text → Nat → Nat → Text) (goalId taskId : Text)
    (past : List GoalOp) : Past.times (fun past op => Settles (stateAfter automaticGoalTaskId past)
      (stateAfter automaticGoalTaskId (op :: past)) goalId taskId) past ≤ 1 := by
  apply Past.times_le_one (fun past => Done (stateAfter automaticGoalTaskId past) taskId)
  · intro past op done
    exact (stateAfter_change automaticGoalTaskId op past).done done
  · intro past op settles
    exact (stateAfter_change automaticGoalTaskId op past).done_of_settles settles
  · intro past op done settles
    obtain ⟨goal, mem, -, owned, -⟩ := settles
    exact done.free goal mem owned

theorem goal_turns_accounted (automaticGoalTaskId : Text → Nat → Nat → Text) (past : List GoalOp) :
    (∀ row ∈ (stateAfter automaticGoalTaskId past).goals.rows,
      row.turnsStarted = row.turnsSettled + if row.activeTaskId.isSome then 1 else 0) ∧
    (∀ goalId taskId, Past.times (fun past op => Settles (stateAfter automaticGoalTaskId past)
      (stateAfter automaticGoalTaskId (op :: past)) goalId taskId) past ≤ 1) ∧
    (∀ op taskId, op.EndsFor taskId → ∀ row ∈ (stateAfter automaticGoalTaskId past).goals.rows,
      row.activeTaskId ≠ some taskId →
        LeavesRow op row (stateAfter automaticGoalTaskId (op :: past))) ∧
    (∀ op, ∀ row ∈ (stateAfter automaticGoalTaskId (op :: past)).goals.rows,
      Revised op (stateAfter automaticGoalTaskId past) row) := by
  refine ⟨?_, ?_, ?_, ?_⟩
  · exact (stateAfter_sound automaticGoalTaskId past).balanced
  · intro goalId taskId
    exact settled_at_most_once automaticGoalTaskId goalId taskId past
  · intro op taskId ends row mem unowned
    exact Store.step_unowned automaticGoalTaskId ends mem unowned
  · intro op row mem
    exact ((stateAfter_change automaticGoalTaskId op past).rows row mem).revised

def exampleKey : Text := "agent:main:main".toList

def exampleContext : GoalTurnContext where
  sessionId := "s".toList
  epoch := 0
  goalId := "g".toList
  objectiveRevision := 1
  objectiveSnapshot := "ship".toList
  taskId := "t".toList

def exampleSettle (now : Nat) (usageMissing : Bool) : GoalOp :=
  .settleGoalTask {
    context := exampleContext
    maxTurns := 1
    runtimeBudgetSeconds := 60
    now := now
    usageMissing := usageMissing }

def exampleCreated : List GoalOp := [
  .createGoalForRunningTask {
    goalId := "g".toList
    sessionKey := exampleKey
    sessionId := "s".toList
    sessionEpoch := 0
    objective := "ship".toList
    createdAtMs := 0 } "t".toList,
  .advanceTask "t".toList { status := .running },
  .queueTask exampleKey { taskId := "t".toList, sessionId := some "s".toList, sessionEpoch := some 0 },
  .saveSession exampleKey { sessionId := "s".toList, epoch := 0 }]

def exampleSettled : List GoalOp :=
  exampleSettle 5 false :: .advanceTask "t".toList { status := .succeeded } :: exampleCreated

/-- The task owns nothing any more, and its second settlement changes the row without a new revision. -/
theorem settled_again_changes_coverage :
    ∃ row ∈ (stateAfter (fun _ _ _ => []) exampleSettled).goals.rows, row.activeTaskId = none ∧
      ∃ next ∈ (stateAfter (fun _ _ _ => []) (exampleSettle 6 true :: exampleSettled)).goals.rows,
        next.goalId = row.goalId ∧ next ≠ row ∧ next.stateRevision = row.stateRevision := by
  decide

end OpenSquilla.Goals
