import OpenSquilla.Goals.Store

set_option autoImplicit false

namespace OpenSquilla.Goals

open TextLines TextScan
open RaisingRuns (raiseIf raiseAny orRaise)
open PendingInputs (RequestKey canonicalizeSessionKey)

namespace GoalRecord

def took (taskId : Text) (now : Nat) (goal : GoalRecord) : GoalRecord :=
  { goal with
    activeTaskId := some taskId
    terminalTaskId := none
    turnsStarted := goal.turnsStarted + 1
    windowTurnsStarted := goal.windowTurnsStarted + 1
    stateRevision := goal.stateRevision + 1
    updatedAtMs := now }

def continuedBy (taskId : Text) (continuationSeq now : Nat) (goal : GoalRecord) : GoalRecord :=
  { goal.took taskId now with continuationSeq := continuationSeq }

def sourcedFrom (task : AgentTask) (goal : GoalRecord) : GoalRecord :=
  { goal with sourceUserMessageId :=
      (task.details.persistedUserMessageId.filter (· ≠ [])).or goal.sourceUserMessageId }

def guardrailPaused (reason : Text) (now : Nat) (goal : GoalRecord) : GoalRecord :=
  { goal with
    status := .paused
    stateRevision := goal.stateRevision + 1
    pauseReason := some reason
    terminalReason := some reason
    updatedAtMs := now }

def committed (status : GoalStatus) (taskId : Text) (blockedReason : Option Text) (now : Nat)
    (goal : GoalRecord) : GoalRecord :=
  { goal with
    status := status
    stateRevision := goal.stateRevision + 1
    terminalTaskId := some taskId
    blockedReason := if status = .blocked then blockedReason else none
    pauseReason := if status = .paused then some "user".toList else none
    terminalReason := some (
      if status = .blocked then "model_blocked".toList
      else if status = .paused then "user".toList
      else "model_complete".toList)
    updatedAtMs := now
    finishedAtMs := if status = .complete then some now else none }

end GoalRecord

-- Zero when the task never started, never finished, or its clock went back.
def AgentTask.durationMs (task : AgentTask) : Nat :=
  match task.startedAt, task.finishedAt with
  | some started, some finished => finished - started
  | _, _ => 0

structure Verdict where
  status : GoalStatus
  pauseReason : Option Text
  blockedReason : Option Text
  terminalReason : Option Text
  finishedAtMs : Option Nat

structure SettleGoalTask where
  context : GoalTurnContext
  maxTurns : Nat
  runtimeBudgetSeconds : Nat
  usageLimited : Bool := false
  successorExpected : Bool := false
  processRestart : Bool := false
  now : Nat
  usageMissing : Bool := false
  -- the sums of the finalized events of the turn that belong to no goal
  turnUsage : TokenUsage := {}

def raiseOnGuardrails (maxTurns runtimeBudgetSeconds : Nat) : Except Raised Unit := do
  raiseIf (¬(1 ≤ maxTurns ∧ maxTurns ≤ 500))
    (.goalValidationError .invalidGoalGuardrail "max_turns must be between 1 and 500")
  raiseIf (¬(60 ≤ runtimeBudgetSeconds ∧ runtimeBudgetSeconds ≤ 86400))
    (.goalValidationError .invalidGoalGuardrail
      "runtime_budget_seconds must be between 60 and 86400")

def Verdict.paused (reason : String) (verdict : Verdict) : Verdict :=
  { verdict with
    status := .paused, pauseReason := some reason.toList, terminalReason := some reason.toList }

def activeVerdict (settle : SettleGoalTask) (goal : GoalRecord) (task : AgentTask)
    (sameObjective : Bool) (windowActiveAfter : Nat) (verdict : Verdict) : Except Raised Verdict :=
  if settle.usageLimited then
    .ok { status := .usageLimited, pauseReason := some "usage_limited".toList, blockedReason := none,
          terminalReason := some "usage_limited".toList, finishedAtMs := none }
  else if task.errorClass = some "approval_required".toList ∨
      task.errorClass = some "human_decision_required".toList then
    .ok { verdict.paused "approval_required" with blockedReason := none, finishedAtMs := none }
  else match task.status with
  | .succeeded =>
    if sameObjective = false then .ok verdict
    else if settle.maxTurns ≤ goal.windowTurnsStarted then .ok (verdict.paused "turn_limit")
    else if settle.runtimeBudgetSeconds * 1000 ≤ windowActiveAfter then
      .ok (verdict.paused "runtime_limit")
    else .ok verdict
  | .failed | .timeout =>
    if task.errorClass = some "goal_checkpoint_required".toList then
      .ok { verdict.paused "goal_checkpoint_required" with blockedReason := none }
    else do
      -- an empty text counts as none
      let reason := ((task.errorClass.filter (· ≠ [])).or (task.terminalReason.filter (· ≠ []))).getD
        "turn_error".toList
      return { status := .blocked, pauseReason := none, blockedReason := ← normalizeGoalReason reason,
               terminalReason := some "turn_error".toList, finishedAtMs := none }
  | .cancelled =>
    if settle.successorExpected then .ok { verdict with status := .active, pauseReason := none }
    else if settle.processRestart then .ok (verdict.paused "process_restart")
    else .ok (verdict.paused "user_cancelled")
  | .abandoned => .ok (verdict.paused "process_restart")
  | .queued | .running => .ok verdict

def settleVerdict (settle : SettleGoalTask) (goal : GoalRecord) (task : AgentTask)
    (windowActiveAfter : Nat) : Except Raised Verdict :=
  let sameObjective : Bool := goal.objectiveRevision = settle.context.objectiveRevision
  let consumed := sameObjective && task.startedAt.isSome && (goal.status = .active || goal.status = .paused)
  let verdict : Verdict := {
    status := goal.status
    pauseReason := goal.pauseReason
    blockedReason := if consumed then none else goal.blockedReason
    terminalReason := goal.terminalReason
    finishedAtMs := goal.finishedAtMs }
  if goal.status = .active then activeVerdict settle goal task sameObjective windowActiveAfter verdict
  else .ok verdict

def GoalRecord.settled (verdict : Verdict) (terminalTaskId : Option Text)
    (activeTimeAfter windowActiveAfter now : Nat) (turnUsage : TokenUsage) (goal : GoalRecord) : GoalRecord :=
  { goal with
    status := verdict.status
    stateRevision := goal.stateRevision + 1
    activeTaskId := none
    terminalTaskId := terminalTaskId
    turnsSettled := goal.turnsSettled + 1
    activeTimeMs := activeTimeAfter
    windowActiveTimeMs := windowActiveAfter
    usage := goal.usage.plus turnUsage
    pauseReason := verdict.pauseReason
    blockedReason := verdict.blockedReason
    terminalReason := verdict.terminalReason
    finishedAtMs := verdict.finishedAtMs
    updatedAtMs := now }

structure Compensation where
  context : GoalTurnContext
  reason : Text
  now : Nat
  preserveUnstartedContinuation : Bool := false
  turnUsage : TokenUsage := {}

def GoalRecord.compensated (compensation : Compensation) (preserveStatus consumed : Bool)
    (terminalTaskId : Option Text) (durationMs : Nat) (goal : GoalRecord) : GoalRecord :=
  { goal with
    status := if preserveStatus then goal.status else .paused
    stateRevision := goal.stateRevision + 1
    activeTaskId := none
    terminalTaskId := terminalTaskId
    turnsSettled := goal.turnsSettled + 1
    activeTimeMs := goal.activeTimeMs + durationMs
    windowActiveTimeMs := goal.windowActiveTimeMs + durationMs
    usage := goal.usage.plus compensation.turnUsage
    pauseReason := if preserveStatus then goal.pauseReason else some compensation.reason
    terminalReason := if preserveStatus then goal.terminalReason else some compensation.reason
    blockedReason :=
      if (goal.status = .active ∨ goal.status = .paused) ∧ consumed = true then none
      else goal.blockedReason
    updatedAtMs := compensation.now }

structure Continuation where
  expected : ExpectedGoal
  expectedContinuationSeq : Nat
  taskId : Text
  sessionKey : Text
  maxTurns : Nat := 256
  runtimeBudgetSeconds : Nat := 3600
  now : Nat
  usageMissing : Bool := false
  -- what the guard of the project workspace raises
  workspace : Option Raised := none

structure GoalTaskAcceptance where
  goal : GoalRecord
  context : GoalTurnContext

structure GoalGuardrailPause where
  goal : GoalRecord
  reason : Text

structure QueuedClaim where
  candidate : GoalClaimCandidate
  taskId : Text
  frozenCollaborationMode : CollaborationMode
  now : Nat
  usageMissing : Bool := false

namespace Store

/-- The insertion of a goal for a task that is running, in the place of a completed one. -/
def insertCreatedGoal (goal : GoalRecord) (taskId : Text) (current : Option GoalRecord)
    (store : Store) : Except Raised (GoalRecord × Store) := do
  let task ← orRaise (store.tasks.get? taskId)
    (.goalConflictError .staleGoal "The creating task is no longer running")
  raiseIf (task.sessionKey ≠ goal.sessionKey ∨ task.status ≠ .running)
    (.goalConflictError .staleGoal "The creating task is no longer running")
  raiseIf (task.details.sessionId ≠ some goal.sessionId ∨
      task.details.sessionEpoch ≠ some goal.sessionEpoch)
    (.goalConflictError .staleGoal "The creating task belongs to another generation")
  let goal := goal.sourcedFrom task
  raiseIf (effectiveGoalTurnContext task.details ≠ none)
    (.goalConflictError .staleGoal "The creating task already belongs to another Goal")
  let store := current.elim store (fun current => store.deleteGoals (·.goalId = current.goalId))
  let store ← store.insertGoal goal
  return (goal, store.writeDetails taskId task
    { task.details with goalContext := some (goalTurnContext goal taskId false) })

def createGoalForRunningTask (goal : GoalRecord) (taskId : Text) (store : Store) :
    Except Raised (GoalRecord × Store) := do
  store.requireDefaultGoalMode goal
  match store.selectGoal goal.sessionKey with
  | none => store.insertCreatedGoal goal taskId none
  | some current =>
    if current.goalId = goal.goalId ∧ current.activeTaskId = some taskId then do
      raiseIf (current.objective ≠ goal.objective)
        (.goalConflictError .goalActive "The creating task already has a Goal" current)
      return (current, store)
    else do
      raiseIf (current.status ≠ .complete ∨ current.activeTaskId ≠ none)
        (.goalConflictError .goalActive "The session already has an unfinished Goal" current)
      store.insertCreatedGoal goal taskId current

/-- `automatic_goal_task_id` hashes the identity of a continuation to that of its task. -/
def acceptGoalContinuation (automaticGoalTaskId : Text → Nat → Nat → Text) (call : Continuation)
    (store : Store) : Except Raised ((GoalTaskAcceptance ⊕ GoalGuardrailPause) × Store) := do
  raiseOnGuardrails call.maxTurns call.runtimeBudgetSeconds
  let sessionKey := canonicalizeSessionKey call.sessionKey
  let found ← store.requireExpectedGoal sessionKey call.expected
  raiseIf (found.status ≠ .active)
    (.goalConflictError .goalNotResumable "Only an active Goal can continue" found)
  raiseIf (found.activeTaskId ≠ none)
    (.goalConflictError .goalBusy "The Goal already owns a task" found)
  raiseIf (found.continuationSeq ≠ call.expectedContinuationSeq)
    (.goalConflictError .staleGoal "The Goal continuation sequence changed" found)
  store.requireDefaultGoalMode found
  raiseAny call.workspace
  store.requireIdleGoalSession sessionKey
  let (refreshed, store) ← store.refreshGoalUsageCoverage call.usageMissing found.goalId
  let goal := refreshed.getD found
  let current := fun row : GoalRecord =>
    row.sessionKey = goal.sessionKey && row.goalId = goal.goalId &&
      row.stateRevision = goal.stateRevision && row.activeTaskId = none && row.status = .active
  let guardrail : Option Text :=
    if call.maxTurns ≤ goal.windowTurnsStarted then some "turn_limit".toList
    else if call.runtimeBudgetSeconds * 1000 ≤ goal.windowActiveTimeMs then
      some "runtime_limit".toList
    else none
  match guardrail with
  | some reason =>
    let store ← store.updateOneGoal current (·.guardrailPaused reason call.now)
      (.goalConflictError .staleGoal "The Goal changed before guardrail evaluation")
    let paused ← orRaise (store.selectGoal goal.sessionKey) (.other "assert paused is not None")
    return (.inr ⟨paused, reason⟩, store)
  | none =>
    let nextSeq := goal.continuationSeq + 1
    raiseIf (call.taskId ≠ automaticGoalTaskId goal.goalId goal.objectiveRevision nextSeq)
      (.goalValidationError .invalidGoalCommand
        "Automatic Goal task id does not match its continuation fence")
    let context : GoalTurnContext :=
      { goalTurnContext goal call.taskId true with continuationSeq := nextSeq }
    let store ← store.insertAgentTask call.taskId {
      sessionKey := sessionKey
      details := {
        sessionId := some goal.sessionId
        sessionEpoch := some goal.sessionEpoch
        goalContext := some context } }
    let store ← store.updateOneGoal current
      (·.continuedBy call.taskId nextSeq call.now)
      (.goalConflictError .staleGoal "The Goal changed before continuation acceptance")
    let updated ← orRaise (store.selectGoal goal.sessionKey) (.other "assert updated is not None")
    return (.inl ⟨updated, context⟩, store)

/-- The goal that the queued task was accepted as a candidate for, while it can be claimed. -/
def claimableGoal (claim : QueuedClaim) (store : Store) : Option (AgentTask × GoalRecord) := do
  let task ← (store.tasks.get? claim.taskId).filter (fun task => task.status = .queued)
  let candidate ← task.details.goalCandidate
  let goal ← store.selectGoal task.sessionKey
  if candidate = claim.candidate ∧ goal.sessionId = candidate.sessionId ∧
      goal.sessionEpoch = candidate.epoch ∧ goal.goalId = candidate.goalId ∧
      goal.status = .active ∧ goal.activeTaskId = none then
    return (task, goal)
  else none

def claimGoalForQueuedTask (claim : QueuedClaim) (store : Store) :
    Except Raised (Option GoalTaskAcceptance × Store) :=
  if claim.frozenCollaborationMode ≠ .default then .ok (none, store)
  else
    match store.claimableGoal claim with
    | none => .ok (none, store)
    | some (task, found) => do
      let (refreshed, store) ← store.refreshGoalUsageCoverage claim.usageMissing found.goalId
      let goal := refreshed.getD found
      match store.requireDefaultGoalMode goal with
      | .error (.goalConflictError .sessionGenerationChanged _ _) => return (none, store)
      | .error (.goalConflictError .planModeActive _ _) => return (none, store)
      | .error raised => throw raised
      | .ok () =>
        if store.tasks.entries.any (fun (taskId, other) => other.sessionKey = task.sessionKey &&
            taskId ≠ claim.taskId && other.status = .running) then
          return (none, store)
        else
          let context := goalTurnContext goal claim.taskId false
          let store := store.writeDetails claim.taskId task { task.details with
            goalCandidate := none
            goalContext := some context }
          let store ← store.updateOneGoal
            (fun row => row.sessionKey = task.sessionKey && row.goalId = goal.goalId &&
              row.activeTaskId = none)
            (·.took claim.taskId claim.now)
            (.goalConflictError .staleGoal "The Goal changed during queued-task claim")
          let updated ← orRaise (store.selectGoal task.sessionKey) (.other "assert updated is not None")
          return (some ⟨updated, context⟩, store)

def requirePersistedGoalContext (context : GoalTurnContext) (current : GoalRecord) (store : Store) :
    Except Raised AgentTask := do
  let task ← orRaise (store.tasks.get? context.taskId)
    (.goalConflictError .staleGoal "The owning Goal task no longer exists" current)
  raiseIf (task.sessionKey ≠ current.sessionKey ∨ effectiveGoalTurnContext task.details ≠ context)
    (.goalConflictError .staleGoal "The task does not carry this Goal generation" current)
  return task

def commitGoalTerminal (context : GoalTurnContext) (status : GoalStatus) (blockedReason : Option Text)
    (now : Nat) (store : Store) : Except Raised (GoalRecord × Store) := do
  raiseIf (¬(status = .complete ∨ status = .blocked ∨ status = .paused))
    (.goalValidationError .invalidGoalStatus "update_goal status must be complete, blocked, or paused")
  let reason ← normalizeGoalReason blockedReason
  raiseIf (status ≠ .blocked ∧ reason ≠ none)
    (.goalValidationError .invalidGoalReason "blocked reason is only valid for blocked Goals")
  let goal ← orRaise (store.selectGoalById context.goalId)
    (.goalConflictError .goalNotFound "The Goal no longer exists")
  raiseIf (goal.sessionId ≠ context.sessionId ∨ goal.sessionEpoch ≠ context.epoch ∨
      goal.objectiveRevision ≠ context.objectiveRevision)
    (.goalConflictError .staleGoal "The Goal objective changed before terminal commit" goal)
  let _ ← store.requirePersistedGoalContext context goal
  if goal.status = .complete ∨ goal.status = .blocked then
    raiseIf (¬(goal.status = status ∧ goal.terminalTaskId = some context.taskId))
      (.goalConflictError .staleGoal "The Goal already has a different terminal result" goal)
    return (goal, store)
  else
    raiseIf (¬(goal.status = .active ∨ goal.status = .paused) ∨
        goal.activeTaskId ≠ some context.taskId)
      (.goalConflictError .staleGoal "The task no longer owns this Goal" goal)
    let store ← store.updateGoals
      (fun row => row.goalId = context.goalId && row.objectiveRevision = context.objectiveRevision &&
        row.activeTaskId = some context.taskId)
      (·.committed status context.taskId reason now)
    let updated ← orRaise (store.selectGoalById context.goalId) (.other "assert updated is not None")
    return (updated, store)

-- The row that the context names, while the task of the context owns it.
def ownedGoal (context : GoalTurnContext) (store : Store) : Option GoalRecord :=
  (store.selectGoalById context.goalId).filter (fun goal =>
    goal.sessionId = context.sessionId && goal.sessionEpoch = context.epoch &&
      goal.activeTaskId = some context.taskId)

def settleGoalTask (settle : SettleGoalTask) (store : Store) : Except Raised (Option GoalRecord × Store) := do
  raiseOnGuardrails settle.maxTurns settle.runtimeBudgetSeconds
  let context := settle.context
  let task ← orRaise (store.tasks.get? context.taskId)
    (.goalConflictError .goalBusy "The authoritative Goal task is unavailable")
  raiseIf (task.status.unfinished = true)
    (.goalConflictError .goalBusy "The Goal task has not reached a durable terminal state")
  raiseIf (effectiveGoalTurnContext task.details ≠ context)
    (.goalConflictError .staleGoal "The terminal task does not carry this Goal generation")
  let (_, store) ← store.refreshGoalUsageCoverage settle.usageMissing context.goalId
  match (store.ownedGoal context).filter (fun goal => goal.sessionKey = task.sessionKey) with
  | none => return (none, store)
  | some goal =>
    let turnUsage := if goal.usageAccountingVersion = 0 then settle.turnUsage else {}
    let verdict ← settleVerdict settle goal task (goal.windowActiveTimeMs + task.durationMs)
    let terminalTaskId :=
      if (goal.status = .complete ∨ goal.status = .blocked) ∧
          goal.terminalTaskId = some context.taskId then goal.terminalTaskId
      else none
    let store ← store.updateGoals
      (fun row => row.goalId = context.goalId && row.activeTaskId = some context.taskId)
      (·.settled verdict terminalTaskId (goal.activeTimeMs + task.durationMs)
        (goal.windowActiveTimeMs + task.durationMs) settle.now turnUsage)
    return (store.selectGoalById context.goalId, store)

def abandonTask (taskId reason : Text) (now : Nat) (task : AgentTask) (store : Store) : Store :=
  if task.status.unfinished then
    store.writeTask taskId { task with
      status := .abandoned
      terminalReason := some reason
      finishedAt := some (task.finishedAt.getD now) }
  else store

def compensateGoalTask (compensation : Compensation) (store : Store) :
    Except Raised (Option GoalRecord × Store) :=
  let context := compensation.context
  match store.tasks.get? context.taskId with
  | none => .ok (none, store)
  | some task => do
    raiseIf (effectiveGoalTurnContext task.details ≠ context)
      (.goalConflictError .staleGoal "The compensated task does not carry this Goal generation")
    raiseIf (compensation.preserveUnstartedContinuation = true ∧ context.automatic = false)
      (.goalConflictError .staleGoal "Only an automatic Goal continuation can be deferred")
    if compensation.preserveUnstartedContinuation = true ∧
        (task.status ≠ .queued ∨ task.startedAt ≠ none) then
      return (none, store)
    else
      let durationMs := task.startedAt.elim 0 (fun started =>
        task.finishedAt.getD compensation.now - started)
      let store := store.abandonTask context.taskId compensation.reason compensation.now task
      match store.ownedGoal context with
      | none => return (none, store)
      | some goal =>
        let preserveStatus := compensation.preserveUnstartedContinuation ||
          goal.status = .complete || goal.status = .blocked
        let terminalTaskId :=
          if preserveStatus = true ∧ goal.terminalTaskId = some context.taskId then goal.terminalTaskId
          else none
        let consumed := task.startedAt.isSome && goal.objectiveRevision = context.objectiveRevision
        let store ← store.updateGoals
          (fun row => row.goalId = context.goalId && row.activeTaskId = some context.taskId)
          (·.compensated compensation preserveStatus consumed terminalTaskId durationMs)
        return (store.selectGoalById context.goalId, store)

def deferGoalContinuation (context : GoalTurnContext) (now : Nat) (turnUsage : TokenUsage) :
    Store → Except Raised (Option GoalRecord × Store) :=
  compensateGoalTask {
    context := context
    reason := "owner_disconnected".toList
    now := now
    preserveUnstartedContinuation := true
    turnUsage := turnUsage }

def compensateGoalActivationFailure (context : GoalTurnContext) (reason : Text) (now : Nat)
    (turnUsage : TokenUsage) (store : Store) : Except Raised (Option GoalRecord × Store) := do
  raiseIf (¬(reason = "activation_failed".toList ∨ reason = "feature_disabled".toList ∨
      reason = "lease_revoked".toList ∨ reason = "process_restart".toList))
    (.goalValidationError .invalidGoalCommand "Invalid Goal activation compensation reason")
  store.compensateGoalTask { context := context, reason := reason, now := now, turnUsage := turnUsage }

def compensateTerminalPersistenceFailure (context : GoalTurnContext) (now : Nat)
    (turnUsage : TokenUsage) : Store → Except Raised (Option GoalRecord × Store) :=
  compensateGoalTask {
    context := context, reason := "persistence_error".toList, now := now, turnUsage := turnUsage }

end Store

end OpenSquilla.Goals
