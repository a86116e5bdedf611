import OpenSquilla.Goals.AcceptTurn
import OpenSquilla.Shared.Runs

set_option autoImplicit false

namespace OpenSquilla.Goals

open TextLines TextScan
open RaisingRuns (raiseIf raiseAny orRaise)
open PendingInputs (canonicalizeSessionKey)

structure TaskProgress where
  status : TaskStatus
  startedAt : Option Nat := none
  finishedAt : Option Nat := none
  terminalReason : Option Text := none
  errorClass : Option Text := none

inductive GoalOp
  | acceptTurn (turn : AcceptTurn)
  | createGoalForRunningTask (goal : NewGoal) (taskId : Text)
  | editGoal (edit : EditGoal)
  | claimGoalObjectiveUpdate (update : GoalObjectiveUpdate)
  | applyGoalObjectiveUpdate (update : GoalObjectiveUpdate)
  | pauseGoal (call : GoalCommand) (reason : Option Text)
  | resumeGoal (call : GoalCommand)
  | clearGoal (call : GoalCommand)
  | pauseGoalForSystem (pause : SystemPause)
  | acceptGoalContinuation (call : Continuation)
  | claimGoalForQueuedTask (claim : QueuedClaim)
  | commitGoalTerminal (context : GoalTurnContext) (status : GoalStatus) (blockedReason : Option Text)
      (now : Nat)
  | settleGoalTask (settle : SettleGoalTask)
  | deferGoalContinuation (context : GoalTurnContext) (now : Nat) (turnUsage : TokenUsage)
  | compensateGoalActivationFailure (context : GoalTurnContext) (reason : Text) (now : Nat)
      (turnUsage : TokenUsage)
  | compensateTerminalPersistenceFailure (context : GoalTurnContext) (now : Nat) (turnUsage : TokenUsage)
  -- the rest of the system: sessions are written and reset, tasks are queued and move forward
  | saveSession (sessionKey : Text) (row : SessionRow)
  | resetSession (sessionKey : Text) (row : SessionRow)
  | queueTask (sessionKey : Text) (task : NewTask)
  | advanceTask (taskId : Text) (progress : TaskProgress)

namespace Store

def queueTask (sessionKey : Text) (task : NewTask) : Store → Except Raised Store :=
  insertAgentTask task.taskId {
    sessionKey := canonicalizeSessionKey sessionKey
    details := {
      sessionId := task.sessionId
      sessionEpoch := task.sessionEpoch
      persistedUserMessageId := task.persistedUserMessageId } }

def advanceTask (taskId : Text) (progress : TaskProgress) (store : Store) : Except Raised Store := do
  let task ← orRaise (store.tasks.get? taskId) (.other "no such task")
  raiseIf (¬task.status.Forward progress.status) (.other "a task moves forward")
  return store.writeTask taskId { task with
    status := progress.status
    startedAt := progress.startedAt
    finishedAt := progress.finishedAt
    terminalReason := progress.terminalReason
    errorClass := progress.errorClass }

def run (automaticGoalTaskId : Text → Nat → Nat → Text) (store : Store) : GoalOp → Except Raised Store
  | .acceptTurn turn => store.acceptTurn turn
  | .createGoalForRunningTask fields taskId => do
    let goal ← newGoal { fields with taskId := some taskId }
    return (← store.createGoalForRunningTask goal taskId).2
  | .editGoal edit => (store.editGoal edit).map Prod.snd
  | .claimGoalObjectiveUpdate update => .ok (store.claimGoalObjectiveUpdate update).2
  | .applyGoalObjectiveUpdate update => .ok (store.applyGoalObjectiveUpdate update).2
  | .pauseGoal call reason => (store.pauseGoal call reason).map Prod.snd
  | .resumeGoal call => (store.resumeGoal call).map Prod.snd
  | .clearGoal call => (store.clearGoal call).map Prod.snd
  | .pauseGoalForSystem pause => (store.pauseGoalForSystem pause).map Prod.snd
  | .acceptGoalContinuation call =>
    (store.acceptGoalContinuation automaticGoalTaskId call).map Prod.snd
  | .claimGoalForQueuedTask claim => (store.claimGoalForQueuedTask claim).map Prod.snd
  | .commitGoalTerminal context status blockedReason now =>
    (store.commitGoalTerminal context status blockedReason now).map Prod.snd
  | .settleGoalTask settle => (store.settleGoalTask settle).map Prod.snd
  | .deferGoalContinuation context now turnUsage =>
    (store.deferGoalContinuation context now turnUsage).map Prod.snd
  | .compensateGoalActivationFailure context reason now turnUsage =>
    (store.compensateGoalActivationFailure context reason now turnUsage).map Prod.snd
  | .compensateTerminalPersistenceFailure context now turnUsage =>
    (store.compensateTerminalPersistenceFailure context now turnUsage).map Prod.snd
  | .saveSession sessionKey row => .ok { store with sessions := store.sessions.set sessionKey row }
  | .resetSession sessionKey row =>
    .ok { store.deleteGoals (fun goal => goal.sessionKey = sessionKey) with
      sessions := store.sessions.set sessionKey row }
  | .queueTask sessionKey task => store.queueTask sessionKey task
  | .advanceTask taskId progress => store.advanceTask taskId progress

def step (automaticGoalTaskId : Text → Nat → Nat → Text) (store : Store) (op : GoalOp) : Store :=
  match store.run automaticGoalTaskId op with
  | .ok next => next
  | .error _ => store

end Store

-- What one call can do to the goals and to the tasks. A row comes from a row of the same goal, or
-- it was opened for its first task. The slots of a task are written in six ways.

open RaisingRuns (of_bind_ok raiseIf_eq_ok orRaise_eq_ok)

-- The context says of the goal what the goal says of itself.
structure Captures (context : GoalTurnContext) (goal : GoalRecord) (taskId : Text) : Prop where
  sessionId : context.sessionId = goal.sessionId
  epoch : context.epoch = goal.sessionEpoch
  goalId : context.goalId = goal.goalId
  taskId : context.taskId = taskId
  objectiveRevision : context.objectiveRevision = goal.objectiveRevision
  objectiveSnapshot : context.objectiveSnapshot = goal.objective

theorem captures_goalTurnContext (goal : GoalRecord) (taskId : Text) (automatic : Bool) :
    Captures (goalTurnContext goal taskId automatic) goal taskId :=
  ⟨rfl, rfl, rfl, rfl, rfl, rfl⟩

structure Advance (goal next : GoalRecord) : Prop where
  sessionKey : next.sessionKey = goal.sessionKey
  sessionId : next.sessionId = goal.sessionId
  sessionEpoch : next.sessionEpoch = goal.sessionEpoch
  goalId : next.goalId = goal.goalId
  stateRevision : goal.stateRevision < next.stateRevision
  objectiveRevision : goal.objectiveRevision ≤ next.objectiveRevision
  objective : next.objectiveRevision = goal.objectiveRevision → next.objective = goal.objective
  tenure : Tenure.Move goal.tenure next.tenure

inductive RowStep (goal : GoalRecord) : GoalRecord → Prop
  | covered (coverage : UsageCoverage) : RowStep goal { goal with usageCoverage := coverage }
  | advanced {next : GoalRecord} (advance : Advance goal next) : RowStep goal next

/-- The task took the goal: it is not over, and all that it holds of a goal is the current one. -/
structure Gained (tasks : Dict Text AgentTask) (goal : GoalRecord) (taskId : Text) : Prop where
  holds : ∃ task context, tasks.get? taskId = some task ∧ task.status.unfinished = true ∧
    task.sessionKey = goal.sessionKey ∧ effectiveGoalTurnContext task.details = some context ∧
      Captures context goal taskId ∧ ∀ update, task.details.goalObjectiveUpdate = some update →
        update.status = .pending ∧ Captures update.context goal taskId

def Over (tasks : Dict Text AgentTask) (taskId : Text) : Prop :=
  ∃ task, tasks.get? taskId = some task ∧ task.status.unfinished = false

def GoalOp.Opens (goalId : Text) : GoalOp → Prop
  | .acceptTurn turn => ∃ goal command, turn.goalMutation = some (.start goal command) ∧ goal.goalId = goalId
  | .createGoalForRunningTask fields _ => fields.goalId = goalId
  | _ => False

inductive Origin (op : GoalOp) (before : List GoalRecord) (tasks : Dict Text AgentTask)
    (next : GoalRecord) : Prop
  | row (goal : GoalRecord) (mem : goal ∈ before) (step : RowStep goal next)
      (kept : ∀ taskId, next.activeTaskId = some taskId →
        goal.activeTaskId = some taskId ∨ Gained tasks next taskId)
      (released : ∀ taskId, goal.activeTaskId = some taskId → next.activeTaskId = none →
        Over tasks taskId)
  | opened (taskId : Text) (opens : op.Opens next.goalId) (tenure : next.tenure = ⟨some taskId, 1, 0⟩)
      (stateRevision : next.stateRevision = 1) (gained : Gained tasks next taskId)

-- The call that hands the task its first context of a goal.
def GoalOp.Accepts (taskId : Text) : GoalOp → Prop
  | .acceptTurn turn => turn.task.map NewTask.taskId = some taskId
  | .createGoalForRunningTask _ other => other = taskId
  | .acceptGoalContinuation call => call.taskId = taskId
  | .claimGoalForQueuedTask claim => claim.taskId = taskId
  | _ => False

def GoalOp.Binds (taskId : Text) : GoalOp → Prop
  | .editGoal edit => edit.bindingTaskId = some taskId
  | _ => False

def GoalOp.Adopts (taskId : Text) : GoalOp → Prop
  | .editGoal edit => edit.adoptionTaskId = some taskId
  | _ => False

def OwnedBy (rows : List GoalRecord) (context : GoalTurnContext) (taskId : Text) : Prop :=
  ∃ goal ∈ rows, goal.activeTaskId = some taskId ∧ Captures context goal taskId

inductive SlotWrite (op : GoalOp) (rows : List GoalRecord) (taskId : Text) (details : TaskDetails) :
    TaskDetails → Prop
  | kept {next : TaskDetails} (goalContext : next.goalContext = details.goalContext)
      (effective : next.goalEffectiveContext = details.goalEffectiveContext)
      (update : next.goalObjectiveUpdate = details.goalObjectiveUpdate) :
      SlotWrite op rows taskId details next
  | taken {next : TaskDetails} (context : GoalTurnContext) (accepts : op.Accepts taskId)
      (owned : OwnedBy rows context taskId) (free : details.goalContext = none)
      (goalContext : next.goalContext = some context)
      (effective : next.goalEffectiveContext = details.goalEffectiveContext)
      (update : next.goalObjectiveUpdate = details.goalObjectiveUpdate) :
      SlotWrite op rows taskId details next
  | bound {next : TaskDetails} (context : GoalTurnContext) (binds : op.Binds taskId)
      (owned : OwnedBy rows context taskId)
      (goalContext : next.goalContext = some (details.goalContext.getD context))
      (effective : next.goalEffectiveContext = some context)
      (update : ∀ update, next.goalObjectiveUpdate = some update →
        update.status = .pending ∧ op.Adopts taskId ∧ OwnedBy rows update.context taskId) :
      SlotWrite op rows taskId details next
  | adopted (update : GoalObjectiveUpdate) (adopts : op.Adopts taskId)
      (owned : OwnedBy rows update.context taskId) (pending : update.status = .pending)
      (contextual : effectiveGoalTurnContext details ≠ none) :
      SlotWrite op rows taskId details { details with goalObjectiveUpdate := some update }
  | claimed (update held : GoalObjectiveUpdate) (claims : op = .claimGoalObjectiveUpdate update)
      (holds : details.goalObjectiveUpdate = some held) (context : held.context = update.context)
      (unapplied : held.status = .pending ∨ held.status = .claimed)
      (owned : OwnedBy rows update.context taskId) :
      SlotWrite op rows taskId details
        { details with goalObjectiveUpdate := some { held with status := .claimed } }
  | applied (update held : GoalObjectiveUpdate) (applies : op = .applyGoalObjectiveUpdate update)
      (holds : details.goalObjectiveUpdate = some held) (context : held.context = update.context)
      (claimed : held.status = .claimed) (owned : OwnedBy rows update.context taskId) :
      SlotWrite op rows taskId details { details with
        goalEffectiveContext := some update.context
        goalObjectiveUpdate := some { held with status := .applied } }
  | revoked (held : GoalObjectiveUpdate) (holds : details.goalObjectiveUpdate = some held) :
      SlotWrite op rows taskId details
        { details with goalObjectiveUpdate := some { held with status := .revoked } }

/-- A queued task is a candidate while it has no context, or it was one and its context is kept. -/
def CandidateOf (task next : AgentTask) : Prop :=
  next.status = .queued → next.details.goalCandidate ≠ none → next.details.goalContext = none ∨
    (task.status = .queued ∧ task.details.goalCandidate ≠ none ∧
      next.details.goalContext = task.details.goalContext)

inductive TaskChange (op : GoalOp) (rows : List GoalRecord) (taskId : Text) :
    Option AgentTask → Option AgentTask → Prop
  | same (task : Option AgentTask) : TaskChange op rows taskId task task
  | inserted (task : AgentTask) (slots : SlotWrite op rows taskId {} task.details)
      (candidate : task.details.goalCandidate ≠ none → task.details.goalContext = none) :
      TaskChange op rows taskId none (some task)
  | written (task next : AgentTask) (sessionKey : next.sessionKey = task.sessionKey)
      (forward : task.status.Forward next.status)
      (slots : SlotWrite op rows taskId task.details next.details)
      (candidate : CandidateOf task next) : TaskChange op rows taskId (some task) (some next)

/-- A task without a context of a goal has no other slot of one, nor has a queued candidate. -/
structure AgentTask.Sound (task : AgentTask) : Prop where
  effective : task.details.goalContext = none → task.details.goalEffectiveContext = none
  update : task.details.goalContext = none → task.details.goalObjectiveUpdate = none
  candidate : task.status = .queued → task.details.goalCandidate ≠ none →
    task.details.goalContext = none

def Store.TasksSound (store : Store) : Prop :=
  ∀ taskId task, store.tasks.get? taskId = some task → task.Sound

structure Change (op : GoalOp) (before after : Store) : Prop where
  rows : ∀ next ∈ after.goals.rows, Origin op before.goals.rows after.tasks next
  tasks : ∀ taskId, TaskChange op after.goals.rows taskId (before.tasks.get? taskId) (after.tasks.get? taskId)

end OpenSquilla.Goals
