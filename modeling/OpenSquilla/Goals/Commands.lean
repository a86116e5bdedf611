import OpenSquilla.Goals.Store

set_option autoImplicit false

namespace OpenSquilla.Goals

open TextLines TextScan
open RaisingRuns (raiseIf raiseAny orRaise)
open PendingInputs (RequestKey canonicalizeSessionKey)

namespace GoalRecord

def edited (objective : Text) (now : Nat) (goal : GoalRecord) : GoalRecord :=
  let step := if goal.objective ≠ objective then 1 else 0
  let completed := goal.status = .complete
  { goal with
    objective := objective
    objectiveRevision := goal.objectiveRevision + step
    progress := if goal.objective ≠ objective then none else goal.progress
    progressRevision := goal.progressRevision + step
    stateRevision := goal.stateRevision + 1
    status := if completed then .active else goal.status
    terminalTaskId := none
    windowTurnsStarted := if completed then 0 else goal.windowTurnsStarted
    windowActiveTimeMs := if completed then 0 else goal.windowActiveTimeMs
    pauseReason := if completed then none else goal.pauseReason
    blockedReason := none
    terminalReason := if goal.status = .blocked ∨ completed then none else goal.terminalReason
    updatedAtMs := now
    finishedAtMs := if completed then none else goal.finishedAtMs }

def resumedByEdit (goal : GoalRecord) : GoalRecord :=
  { goal with
    status := .active
    pauseReason := none
    terminalReason := none
    terminalTaskId := none
    finishedAtMs := none
    windowTurnsStarted := 0
    windowActiveTimeMs := 0 }

def pausedByEdit (goal : GoalRecord) : GoalRecord :=
  { goal with
    status := .paused
    pauseReason := some "user".toList
    terminalReason := none
    blockedReason := none
    terminalTaskId := none
    finishedAtMs := none }

def bound (taskId : Text) (fresh : Bool) (goal : GoalRecord) : GoalRecord :=
  { goal with
    activeTaskId := some taskId
    turnsStarted := goal.turnsStarted + fresh.toNat
    windowTurnsStarted := goal.windowTurnsStarted + fresh.toNat }

def pausedFor (reason : Text) (terminalReason : Option Text) (now : Nat) (goal : GoalRecord) : GoalRecord :=
  { goal with
    status := .paused
    stateRevision := goal.stateRevision + 1
    terminalTaskId := none
    pauseReason := some reason
    terminalReason := terminalReason
    updatedAtMs := now
    finishedAtMs := none }

def resumed (now : Nat) (goal : GoalRecord) : GoalRecord :=
  { goal with
    status := .active
    stateRevision := goal.stateRevision + 1
    terminalTaskId := none
    windowTurnsStarted := 0
    windowActiveTimeMs := 0
    pauseReason := none
    terminalReason := none
    updatedAtMs := now
    finishedAtMs := none }

end GoalRecord

structure EditGoal where
  sessionKey : Text
  expected : ExpectedGoal
  objective : Text
  command : GoalCommandRequest
  adoptionTaskId : Option Text := none
  bindingTaskId : Option Text := none
  resumeRequested : Bool := false
  pauseRequested : Bool := false
  now : Nat
  usageMissing : Bool := false

structure GoalCommand where
  sessionKey : Text
  expected : ExpectedGoal
  command : GoalCommandRequest
  now : Nat
  usageMissing : Bool := false

structure SystemPause where
  sessionKey : Text
  goalId : Text
  expectedStateRevision : Nat
  reason : Option Text
  now : Nat

/-- The row of the session with the identity and the revision that the caller expects. -/
def ExpectedGoal.meets (expected : ExpectedGoal) (sessionKey : Text) (goal : GoalRecord) : Bool :=
  goal.sessionKey = sessionKey && goal.goalId = expected.goalId &&
    goal.stateRevision = expected.stateRevision

namespace Store

def bindingTask (goal : GoalRecord) (sessionKey : Text) (bindingTaskId : Option Text) (store : Store) :
    Except Raised (Option (Text × AgentTask)) :=
  match bindingTaskId with
  | none => .ok none
  | some taskId => do
    let stale := Raised.goalConflictError .staleGoal "The current task cannot own this Goal"
    store.requireDefaultGoalMode goal
    let task ← orRaise (store.tasks.get? taskId) stale
    raiseIf (task.sessionKey ≠ sessionKey ∨ task.status ≠ .running ∨
        task.details.sessionId ≠ some goal.sessionId ∨ task.details.sessionEpoch ≠ some goal.sessionEpoch ∨
        ¬(goal.activeTaskId = none ∨ goal.activeTaskId = some taskId)) stale
    return some (taskId, task)

def editRow (edit : EditGoal) (sessionKey objective : Text) (goal : GoalRecord)
    (binding : Option (Text × AgentTask)) (store : Store) : Except Raised Store := do
  let sameGoal := fun row : GoalRecord => decide (row.goalId = goal.goalId)
  let store ← store.updateOneGoal (edit.expected.meets sessionKey) (·.edited objective edit.now)
    (.goalConflictError .staleGoal "The Goal changed before it could be edited")
  let store ← store.updateGoalsIf (edit.resumeRequested = true ∧ goal.status ≠ .active) sameGoal
    GoalRecord.resumedByEdit
  let store ← store.updateGoalsIf (edit.pauseRequested = true) sameGoal GoalRecord.pausedByEdit
  match binding with
  | none => .ok store
  | some (taskId, _) => store.updateGoals sameGoal (·.bound taskId goal.activeTaskId.isNone)

def bindContext (updated : GoalRecord) (binding : Option (Text × AgentTask)) (store : Store) : Store :=
  match binding with
  | none => store
  | some (taskId, task) =>
    let context := goalTurnContext updated taskId false
    store.writeDetails taskId task { task.details with
      goalEffectiveContext := some context
      goalContext := some (task.details.goalContext.getD context)
      goalObjectiveUpdate := none }

def adoptObjective (updated : GoalRecord) (sessionKey taskId : Text) (now : Nat) (store : Store) : Store :=
  match store.tasks.get? taskId with
  | none => store
  | some task =>
    match effectiveGoalTurnContext task.details with
    | none => store
    | some accepted =>
      if task.sessionKey = sessionKey ∧ task.status.unfinished = true ∧
          accepted.sessionId = updated.sessionId ∧ accepted.epoch = updated.sessionEpoch ∧
          accepted.goalId = updated.goalId ∧ accepted.taskId = taskId then
        store.writeDetails taskId task { task.details with
          goalObjectiveUpdate := some {
            context := { goalTurnContext updated taskId accepted.automatic with
              continuationSeq := accepted.continuationSeq }
            stateRevision := updated.stateRevision
            acceptedAtMs := now } }
      else store

def adopt (edit : EditGoal) (updated : GoalRecord) (sessionKey : Text) (store : Store) : Store :=
  match edit.adoptionTaskId with
  | none => store
  | some taskId =>
    if updated.activeTaskId = some taskId then store.adoptObjective updated sessionKey taskId edit.now
    else store

def editCurrent (edit : EditGoal) (sessionKey objective : Text) (command : GoalCommandRequest)
    (store : Store) : Except Raised (GoalCommandResult × Store) := do
  let found ← store.requireExpectedGoal sessionKey edit.expected
  let (refreshed, store) ← store.refreshGoalUsageCoverage edit.usageMissing found.goalId
  let goal := refreshed.getD found
  let binding ← store.bindingTask goal sessionKey edit.bindingTaskId
  raiseIf (goal.status = .complete ∧ goal.activeTaskId ≠ none ∧ goal.activeTaskId ≠ edit.bindingTaskId)
    (.goalConflictError .goalBusy "The completed Goal is still settling its terminal task" goal)
  let store ← store.editRow edit sessionKey objective goal binding
  let updated ← orRaise (store.selectGoal sessionKey) (.other "assert updated is not None")
  let store := (store.bindContext updated binding).adopt edit updated sessionKey
  return ({ goal := some updated, replayed := false }, store.insertGoalCommandReceipt command updated)

-- A command whose receipt is there answers from it; another one runs.
def orReplay (command : GoalCommandRequest)
    (current : Except Raised (GoalCommandResult × Store)) (store : Store) :
    Except Raised (GoalCommandResult × Store) := do
  match ← store.replayGoalCommand command with
  | some replay => return (replay, store)
  | none => current

def editGoal (edit : EditGoal) (store : Store) : Except Raised (GoalCommandResult × Store) := do
  raiseIf (edit.resumeRequested = true ∧ edit.pauseRequested = true)
    (.goalValidationError .invalidGoalObjective "A Goal cannot pause and resume in one edit")
  let sessionKey := canonicalizeSessionKey edit.sessionKey
  let command ← prepareGoalCommand edit.command .edit sessionKey
  let objective ← normalizeGoalObjective edit.objective
  store.orReplay command (store.editCurrent edit sessionKey objective command)

def pauseGoal (call : GoalCommand) (reason : Option Text) (store : Store) :
    Except Raised (GoalCommandResult × Store) := do
  let sessionKey := canonicalizeSessionKey call.sessionKey
  let command ← prepareGoalCommand call.command .pause sessionKey
  let reason ← normalizeGoalReason reason
  store.orReplay command do
    let goal ← store.requireExpectedGoal sessionKey call.expected
    raiseIf (goal.status ≠ .active)
      (.goalConflictError .goalNotResumable "Only an active Goal can be paused" goal)
    let store ← store.updateGoals (call.expected.meets sessionKey)
      (·.pausedFor (reason.getD "user".toList) none call.now)
    let updated ← orRaise (store.selectGoal sessionKey) (.other "assert updated is not None")
    return ({ goal := some updated, replayed := false }, store.insertGoalCommandReceipt command updated)

def resumeGoal (call : GoalCommand) (store : Store) : Except Raised (GoalCommandResult × Store) := do
  let sessionKey := canonicalizeSessionKey call.sessionKey
  let command ← prepareGoalCommand call.command .resume sessionKey
  store.orReplay command do
    let goal ← store.requireExpectedGoal sessionKey call.expected
    raiseIf (¬(goal.status = .paused ∨ goal.status = .blocked ∨ goal.status = .usageLimited))
      (.goalConflictError .goalNotResumable "This Goal is not resumable" goal)
    let (_, store) ← store.refreshGoalUsageCoverage call.usageMissing goal.goalId
    let store ← store.updateGoals (call.expected.meets sessionKey) (·.resumed call.now)
    let updated ← orRaise (store.selectGoal sessionKey) (.other "assert updated is not None")
    return ({ goal := some updated, replayed := false }, store.insertGoalCommandReceipt command updated)

def revokeUpdate (goal : GoalRecord) (store : Store) : Store :=
  match goal.activeTaskId with
  | none => store
  | some taskId =>
    match store.tasks.get? taskId with
    | none => store
    | some task =>
      match task.details.goalObjectiveUpdate with
      | none => store
      | some update =>
        if update.status ≠ .applied then
          store.writeDetails taskId task
            { task.details with goalObjectiveUpdate := some { update with status := .revoked } }
        else store

def clearGoal (call : GoalCommand) (store : Store) : Except Raised (GoalCommandResult × Store) := do
  let sessionKey := canonicalizeSessionKey call.sessionKey
  let command ← prepareGoalCommand call.command .clear sessionKey
  store.orReplay command do
    let goal ← store.requireExpectedGoal sessionKey call.expected
    let store := store.revokeUpdate goal
    raiseIf (store.goals.rows.countP (call.expected.meets sessionKey) ≠ 1)
      (.goalConflictError .staleGoal "The Goal changed before it could be cleared")
    let store := store.deleteGoals (call.expected.meets sessionKey)
    return ({ goal := none, replayed := false }, store.insertGoalCommandReceipt command goal)

-- The owning task with its slot, while the goal still stands as the update says.
def heldUpdate (update : GoalObjectiveUpdate) (statuses : List UpdateStatus) (store : Store) :
    Option (AgentTask × GoalObjectiveUpdate) := do
  let context := update.context
  let goal ← (store.selectGoalById context.goalId).filter (fun goal =>
    goal.sessionId = context.sessionId && goal.sessionEpoch = context.epoch &&
      goal.objectiveRevision = context.objectiveRevision && goal.objective = context.objectiveSnapshot &&
      goal.activeTaskId = some context.taskId && (goal.status = .active || goal.status = .paused))
  let task ← store.tasks.get? context.taskId
  let held ← task.details.goalObjectiveUpdate
  if task.status = .running ∧ task.sessionKey = goal.sessionKey ∧ held.context = context ∧
      held.stateRevision = update.stateRevision ∧ held.status ∈ statuses then
    return (task, held)
  else none

def claimGoalObjectiveUpdate (update : GoalObjectiveUpdate) (store : Store) :
    Option GoalObjectiveUpdate × Store :=
  match store.heldUpdate update [.pending, .claimed] with
  | none => (none, store)
  | some (task, held) =>
    let claimed := { held with status := .claimed }
    (some claimed, store.writeDetails update.context.taskId task
      { task.details with goalObjectiveUpdate := some claimed })

def applyGoalObjectiveUpdate (update : GoalObjectiveUpdate) (store : Store) :
    Option GoalObjectiveUpdate × Store :=
  match store.heldUpdate update [.claimed] with
  | none => (none, store)
  | some (task, held) =>
    let applied := { held with status := .applied }
    (some applied, store.writeDetails update.context.taskId task
      { task.details with
        goalEffectiveContext := some update.context
        goalObjectiveUpdate := some applied })

def pauseGoalForSystem (pause : SystemPause) (store : Store) : Except Raised (Option GoalRecord × Store) := do
  let sessionKey := canonicalizeSessionKey pause.sessionKey
  let reason := (← normalizeGoalReason pause.reason).getD "system".toList
  match store.selectGoal sessionKey with
  | none => return (none, store)
  | some current =>
    if current.goalId ≠ pause.goalId ∨ current.stateRevision ≠ pause.expectedStateRevision ∨
        current.status ≠ .active then
      return (none, store)
    else
      let store ← store.updateGoals
        (fun goal => goal.sessionKey = sessionKey && goal.goalId = pause.goalId &&
          goal.stateRevision = pause.expectedStateRevision)
        (·.pausedFor reason (some reason) pause.now)
      return (store.selectGoal sessionKey, store)

end Store

end OpenSquilla.Goals
