import OpenSquilla.PendingInputs.Store
import OpenSquilla.Shared.Dict
import OpenSquilla.Shared.Tenure

set_option autoImplicit false

namespace OpenSquilla.Goals

open TextLines TextScan
open RaisingRuns (raiseIf raiseAny orRaise)
open PendingInputs (RequestKey canonicalizeSessionKey)

inductive GoalStatus
  | active
  | paused
  | blocked
  | usageLimited
  | complete
  deriving DecidableEq

inductive UsageCoverage
  | complete
  | partialUsage
  | partialHistory
  deriving DecidableEq

structure TokenUsage where
  inputTokens : Nat := 0
  outputTokens : Nat := 0
  reasoningTokens : Nat := 0
  cacheReadTokens : Nat := 0
  cacheWriteTokens : Nat := 0
  totalTokens : Nat := 0
  deriving DecidableEq

def TokenUsage.plus (usage turn : TokenUsage) : TokenUsage where
  inputTokens := usage.inputTokens + turn.inputTokens
  outputTokens := usage.outputTokens + turn.outputTokens
  reasoningTokens := usage.reasoningTokens + turn.reasoningTokens
  cacheReadTokens := usage.cacheReadTokens + turn.cacheReadTokens
  cacheWriteTokens := usage.cacheWriteTokens + turn.cacheWriteTokens
  totalTokens := usage.totalTokens + turn.totalTokens

structure GoalRecord where
  sessionKey : Text
  sessionId : Text
  sessionEpoch : Nat
  goalId : Text
  objective : Text
  status : GoalStatus := .active
  stateRevision : Nat := 1
  objectiveRevision : Nat := 1
  progressRevision : Nat := 0
  -- the text of `progress_json`
  progress : Option Text := none
  continuationSeq : Nat := 0
  activeTaskId : Option Text := none
  sourceUserMessageId : Option Text := none
  terminalTaskId : Option Text := none
  turnsStarted : Nat := 0
  turnsSettled : Nat := 0
  windowTurnsStarted : Nat := 0
  activeTimeMs : Nat := 0
  windowActiveTimeMs : Nat := 0
  usage : TokenUsage := {}
  usageAccountingVersion : Nat := 1
  usageCoverage : UsageCoverage := .complete
  usageAccountingStartedAtMs : Option Nat := none
  pauseReason : Option Text := none
  blockedReason : Option Text := none
  terminalReason : Option Text := none
  createdAtMs : Nat
  updatedAtMs : Nat
  finishedAtMs : Option Nat := none
  deriving DecidableEq

-- The primary key and the unique indexes of `session_goals`.
def GoalRecord.Clashes (one other : GoalRecord) : Prop :=
  one.sessionKey = other.sessionKey ∨ one.goalId = other.goalId ∨
    (one.activeTaskId.isSome = true ∧ one.activeTaskId = other.activeTaskId)

instance : DecidableRel GoalRecord.Clashes := fun _ _ => inferInstanceAs (Decidable (_ ∨ _))

instance : Std.Symm GoalRecord.Clashes where
  symm one other clashes := by
    obtain same | same | ⟨held, same⟩ := clashes
    · exact .inl same.symm
    · exact .inr (.inl same.symm)
    · exact .inr (.inr ⟨same ▸ held, same.symm⟩)

def GoalRecord.tenure (goal : GoalRecord) : Tenure Text :=
  ⟨goal.activeTaskId, goal.turnsStarted, goal.turnsSettled⟩

inductive GoalErrorCode
  | goalNotFound
  | sessionGenerationChanged
  | staleGoal
  | idempotencyConflict
  | goalActive
  | goalBusy
  | goalNotResumable
  | sidechatUnsupported
  | planModeActive
  | invalidGoalObjective
  | invalidGoalCommand
  | invalidGoalGuardrail
  | invalidGoalStatus
  | invalidGoalReason

inductive Raised
  | goalConflictError (code : GoalErrorCode) (message : String) (current : Option GoalRecord := none)
  | goalValidationError (code : GoalErrorCode) (message : String)
  | valueError (message : String)
  | runtimeError (message : String)
  | sidechatAdmissionRejectedError (message : String)
  | taskCollectionUnavailableError (message : String)
  | turnIngressConflictError (message : String)
  | staleEpochError (message : String)
  | integrityError
  | other (message : String)

structure ExpectedGoal where
  sessionId : Text
  epoch : Nat
  goalId : Text
  stateRevision : Nat

structure GoalClaimCandidate where
  sessionId : Text
  epoch : Nat
  goalId : Text
  deriving DecidableEq

structure GoalTurnContext where
  sessionId : Text
  epoch : Nat
  goalId : Text
  objectiveRevision : Nat
  objectiveSnapshot : Text
  taskId : Text
  continuationSeq : Nat := 0
  automatic : Bool := false
  deriving DecidableEq

inductive UpdateStatus
  | pending
  | claimed
  | applied
  | revoked
  deriving DecidableEq

structure GoalObjectiveUpdate where
  context : GoalTurnContext
  stateRevision : Nat
  acceptedAtMs : Nat
  status : UpdateStatus := .pending
  deriving DecidableEq

inductive TaskStatus
  | queued
  | running
  | succeeded
  | failed
  | cancelled
  | timeout
  | abandoned
  deriving DecidableEq

def TaskStatus.unfinished (status : TaskStatus) : Bool := status = .queued || status = .running

-- Forward through queued, running and one terminal status.
def TaskStatus.Forward (before after : TaskStatus) : Prop :=
  after = before ∨ before = .queued ∨ (before = .running ∧ after ≠ .queued)

instance : DecidableRel TaskStatus.Forward := fun _ _ => inferInstanceAs (Decidable (_ ∨ _))

structure TaskDetails where
  sessionId : Option Text := none
  sessionEpoch : Option Nat := none
  persistedUserMessageId : Option Text := none
  goalContext : Option GoalTurnContext := none
  goalEffectiveContext : Option GoalTurnContext := none
  goalObjectiveUpdate : Option GoalObjectiveUpdate := none
  goalCandidate : Option GoalClaimCandidate := none

structure AgentTask where
  sessionKey : Text
  status : TaskStatus := .queued
  startedAt : Option Nat := none
  finishedAt : Option Nat := none
  terminalReason : Option Text := none
  errorClass : Option Text := none
  details : TaskDetails := {}

def effectiveGoalTurnContext (details : TaskDetails) : Option GoalTurnContext :=
  details.goalEffectiveContext.or details.goalContext

def goalTurnContext (goal : GoalRecord) (taskId : Text) (automatic : Bool) : GoalTurnContext where
  sessionId := goal.sessionId
  epoch := goal.sessionEpoch
  goalId := goal.goalId
  objectiveRevision := goal.objectiveRevision
  objectiveSnapshot := goal.objective
  taskId := taskId
  continuationSeq := goal.continuationSeq
  automatic := automatic

def maxGoalObjectiveChars : Nat := 4000

def maxGoalReasonChars : Nat := 1000

def normalizeGoalObjective (value : Text) : Except Raised Text := do
  let normalized := strip value
  raiseIf (normalized = [])
    (.goalValidationError .invalidGoalObjective "Goal objective must not be empty")
  raiseIf (maxGoalObjectiveChars < normalized.length)
    (.goalValidationError .invalidGoalObjective "Goal objective exceeds 4000 characters")
  return normalized

def normalizeGoalReason (value : Option Text) : Except Raised (Option Text) := do
  let normalized := strip (value.getD [])
  raiseIf (maxGoalReasonChars < normalized.length)
    (.goalValidationError .invalidGoalReason "Goal reason exceeds 1000 characters")
  return if normalized = [] then none else some normalized

structure NewGoal where
  goalId : Text
  sessionKey : Text
  sessionId : Text
  sessionEpoch : Nat
  objective : Text
  taskId : Option Text := none
  sourceUserMessageId : Option Text := none
  createdAtMs : Nat

def newGoal (fields : NewGoal) : Except Raised GoalRecord := do
  let normalized ← normalizeGoalObjective fields.objective
  raiseIf (fields.goalId = [] ∨ fields.sessionKey = [] ∨ fields.sessionId = [])
    (.goalValidationError .invalidGoalCommand "goal_id, session_key and session_id are required")
  raiseIf (∃ source ∈ fields.sourceUserMessageId, strip source = [])
    (.goalValidationError .invalidGoalCommand "source_user_message_id must not be blank")
  return {
    sessionKey := fields.sessionKey
    sessionId := fields.sessionId
    sessionEpoch := fields.sessionEpoch
    goalId := fields.goalId
    objective := normalized
    activeTaskId := fields.taskId
    sourceUserMessageId := fields.sourceUserMessageId.map strip
    turnsStarted := fields.taskId.elim 0 (fun _ => 1)
    windowTurnsStarted := fields.taskId.elim 0 (fun _ => 1)
    usageAccountingStartedAtMs := some fields.createdAtMs
    createdAtMs := fields.createdAtMs
    updatedAtMs := fields.createdAtMs }

end OpenSquilla.Goals
