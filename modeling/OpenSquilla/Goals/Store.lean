import OpenSquilla.Goals.Record

set_option autoImplicit false

namespace OpenSquilla.Goals

open TextLines TextScan
open RaisingRuns (raiseIf raiseAny orRaise)
open PendingInputs (RequestKey canonicalizeSessionKey)

inductive CollaborationMode
  | default
  | plan
  deriving DecidableEq

structure SessionRow where
  sessionId : Text
  epoch : Nat
  collaborationMode : CollaborationMode := .default
  -- `origin` holds a side conversation
  sidechat : Bool := false

inductive GoalAction
  | set
  | edit
  | pause
  | resume
  | clear
  deriving DecidableEq

def GoalAction.value : GoalAction → String
  | set => "set"
  | edit => "edit"
  | pause => "pause"
  | resume => "resume"
  | clear => "clear"

structure GoalCommandRequest extends RequestKey where
  action : GoalAction
  requestFingerprint : Text

structure GoalCommandReceipt where
  action : GoalAction
  requestFingerprint : Text
  acceptedSessionId : Text
  acceptedSessionEpoch : Nat

structure GoalCommandResult where
  goal : Option GoalRecord
  replayed : Bool

structure Store where
  sessions : Dict Text SessionRow := Dict.empty
  goals : Table (fun goal : GoalRecord => goal) GoalRecord.Clashes := Table.empty
  tasks : Dict Text AgentTask := Dict.empty
  receipts : Dict RequestKey GoalCommandReceipt := Dict.empty

def isCanonicalUuid4 (value : Text) : Bool :=
  let hex := "0123456789abcdef".toList
  value.length = 36 &&
    value.zipIdx.all (fun (c, index) =>
      if index = 8 ∨ index = 13 ∨ index = 18 ∨ index = 23 then c = '-'
      else if index = 14 then c = '4'
      else if index = 19 then "89ab".toList.contains c
      else hex.contains c)

def GoalCommandRequest.validate (command : GoalCommandRequest) : Except Raised Unit := do
  raiseIf (strip command.sourceScope = [])
    (.goalValidationError .invalidGoalCommand "source_scope is required")
  raiseIf (strip command.requestSessionKey = [])
    (.goalValidationError .invalidGoalCommand "request_session_key is required")
  raiseIf (isCanonicalUuid4 command.clientRequestId = false)
    (.goalValidationError .invalidGoalCommand "clientRequestId must be a UUID v4")
  raiseIf (command.requestFingerprint.length ≠ 64 ∨
      command.requestFingerprint.all ("0123456789abcdef".toList.contains ·) = false)
    (.goalValidationError .invalidGoalCommand
      "request_fingerprint must be a lower-case SHA-256 digest")

def prepareGoalCommand (command : GoalCommandRequest) (action : GoalAction) (sessionKey : Text) :
    Except Raised GoalCommandRequest := do
  command.validate
  raiseIf (command.action ≠ action)
    (.goalValidationError .invalidGoalCommand
      ("expected Goal action " ++ action.value ++ ", got " ++ command.action.value))
  raiseIf (canonicalizeSessionKey command.requestSessionKey ≠ canonicalizeSessionKey sessionKey)
    (.goalValidationError .invalidGoalCommand "Goal command session key does not match its target")
  return { command with requestSessionKey := canonicalizeSessionKey sessionKey }

namespace Store

def selectGoal (sessionKey : Text) (store : Store) : Option GoalRecord :=
  store.goals.rows.find? (fun goal => goal.sessionKey = sessionKey)

def selectGoalById (goalId : Text) (store : Store) : Option GoalRecord :=
  store.goals.rows.find? (fun goal => goal.goalId = goalId)

def updateGoals (chosen : GoalRecord → Bool) (f : GoalRecord → GoalRecord) (store : Store) :
    Except Raised Store := do
  let rows ← orRaise (store.goals.updateWhere? chosen f) .integrityError
  return { store with goals := rows }

def updateGoalsIf (condition : Prop) [Decidable condition] (chosen : GoalRecord → Bool)
    (f : GoalRecord → GoalRecord) (store : Store) : Except Raised Store :=
  if condition then store.updateGoals chosen f else .ok store

def updateOneGoal (chosen : GoalRecord → Bool) (f : GoalRecord → GoalRecord) (missed : Raised)
    (store : Store) : Except Raised Store := do
  raiseIf (store.goals.rows.countP chosen ≠ 1) missed
  store.updateGoals chosen f

def insertGoal (goal : GoalRecord) (store : Store) : Except Raised Store := do
  let rows ← orRaise (store.goals.insert? goal) .integrityError
  return { store with goals := rows }

def deleteGoals (gone : GoalRecord → Bool) (store : Store) : Store :=
  { store with goals := store.goals.delete gone }

def insertAgentTask (taskId : Text) (task : AgentTask) (store : Store) : Except Raised Store := do
  raiseIf (taskId ∈ store.tasks.keys) .integrityError
  return { store with tasks := store.tasks.set taskId task }

def writeTask (taskId : Text) (task : AgentTask) (store : Store) : Store :=
  { store with tasks := store.tasks.set taskId task }

def writeDetails (taskId : Text) (task : AgentTask) (details : TaskDetails) (store : Store) : Store :=
  store.writeTask taskId { task with details := details }

def replayGoalCommand (command : GoalCommandRequest) (store : Store) :
    Except Raised (Option GoalCommandResult) :=
  match store.receipts.get? command.toRequestKey with
  | none => .ok none
  | some receipt => do
    raiseIf (receipt.action ≠ command.action ∨ receipt.requestFingerprint ≠ command.requestFingerprint)
      (.goalConflictError .idempotencyConflict
        "clientRequestId was already used for a different Goal command")
    return some { goal := store.selectGoal command.requestSessionKey, replayed := true }

def insertGoalCommandReceipt (command : GoalCommandRequest) (goal : GoalRecord) (store : Store) : Store :=
  { store with receipts := store.receipts.set command.toRequestKey {
      action := command.action
      requestFingerprint := command.requestFingerprint
      acceptedSessionId := goal.sessionId
      acceptedSessionEpoch := goal.sessionEpoch } }

def requireExpectedGoal (sessionKey : Text) (expected : ExpectedGoal) (store : Store) :
    Except Raised GoalRecord := do
  let goal ← orRaise (store.selectGoal sessionKey)
    (.goalConflictError .goalNotFound "No Goal exists for this session")
  raiseIf (goal.sessionId ≠ expected.sessionId ∨ goal.sessionEpoch ≠ expected.epoch)
    (.goalConflictError .sessionGenerationChanged
      "The session generation changed before the Goal command" goal)
  raiseIf (goal.goalId ≠ expected.goalId ∨ goal.stateRevision ≠ expected.stateRevision)
    (.goalConflictError .staleGoal "The Goal changed before the command" goal)
  return goal

-- The row of the session while it has this identity and epoch.
def sessionRow (sessionKey sessionId : Text) (epoch : Nat) (store : Store) : Option SessionRow :=
  (store.sessions.get? sessionKey).filter (fun row => row.sessionId = sessionId ∧ row.epoch = epoch)

def requireDefaultGoalMode (goal : GoalRecord) (store : Store) : Except Raised Unit := do
  let row ← orRaise (store.sessionRow goal.sessionKey goal.sessionId goal.sessionEpoch)
    (.goalConflictError .sessionGenerationChanged
      "The session generation changed before Goal admission" goal)
  raiseIf (row.sidechat = true)
    (.goalConflictError .sidechatUnsupported "Goals are unavailable in a side conversation" goal)
  raiseIf (row.collaborationMode ≠ .default)
    (.goalConflictError .planModeActive "Goal execution cannot start while Plan mode is active" goal)

def busy (sessionKey : Text) (store : Store) : Bool :=
  store.tasks.values.any (fun task => task.sessionKey = sessionKey && task.status.unfinished)

def requireIdleGoalSession (sessionKey : Text) (store : Store) : Except Raised Unit :=
  raiseIf (store.busy sessionKey = true)
    (.goalConflictError .goalBusy "The session already has a queued or running task")

/--
`_refresh_goal_usage_coverage_on_conn`, where `usageMissing` is what `usage_events` answers: an event
of the goal is unknown, lacks its usage, or was started by a task that is over.
-/
def refreshGoalUsageCoverage (usageMissing : Bool) (goalId : Text) (store : Store) :
    Except Raised (Option GoalRecord × Store) := do
  let store ← store.updateGoals (fun goal => goal.goalId = goalId) (fun goal =>
    { goal with usageCoverage :=
        if usageMissing then .partialUsage
        else if goal.usageAccountingVersion = 0 then .partialHistory
        else .complete })
  return (store.selectGoalById goalId, store)

end Store

end OpenSquilla.Goals
