import OpenSquilla.Goals.Commands
import OpenSquilla.Goals.Turns

set_option autoImplicit false

namespace OpenSquilla.Goals

open TextLines TextScan
open RaisingRuns (raiseIf raiseAny orRaise)
open PendingInputs (RequestKey canonicalizeSessionKey)

inductive GoalMutation
  | start (goal : GoalRecord) (command : GoalCommandRequest)
  | claim (candidate : GoalClaimCandidate)
  | claimCurrent

/-- A task record as a caller of `accept_turn` makes it: it is queued and names no goal. -/
structure NewTask where
  taskId : Text
  sessionId : Option Text := none
  sessionEpoch : Option Nat := none
  persistedUserMessageId : Option Text := none

/--
A turn as the goal tables see it. `admission` and `settlement` are what the other parts of
`accept_turn` raise before and after the writes to the goal, `receipt` says that the request was
accepted before, and whether its fingerprint is the same.
-/
structure AcceptTurn where
  sessionKey : Text
  sessionId : Text
  expectedEpoch : Nat
  messageId : Text
  sourceScope : Text
  clientRequestId : Text
  requestFingerprint : Text
  task : Option NewTask := none
  mergeIntoTask : Bool := false
  goalMutation : Option GoalMutation := none
  planRun : Bool := false
  -- the session row to write, and whether it replaces an earlier generation
  sessionNode : Option SessionRow := none
  reset : Bool := false
  receipt : Option Bool := none
  updatedAt : Nat
  arguments : Option Raised := none
  admission : Option Raised := none
  settlement : Option Raised := none

namespace AcceptTurn

def bindTaskSessionOwner (details : TaskDetails) (sessionId : Text) (sessionEpoch : Nat) :
    Except Raised TaskDetails := do
  raiseIf (∃ bound ∈ details.sessionId, bound = [])
    (.valueError "Task session owner session_id must be a non-empty string")
  raiseIf (∃ bound ∈ details.sessionId, bound ≠ sessionId)
    (.staleEpochError "Task session owner changed before durable acceptance")
  raiseIf (∃ bound ∈ details.sessionEpoch, bound ≠ sessionEpoch)
    (.staleEpochError "Task session owner changed before durable acceptance")
  return { details with sessionId := some sessionId, sessionEpoch := some sessionEpoch }

-- The task and the details it comes with, bound to the session of the turn.
def incomingTask (turn : AcceptTurn) : Except Raised (Option (Text × TaskDetails)) :=
  match turn.task with
  | none => .ok none
  | some task => do
    let details ← bindTaskSessionOwner {
      sessionId := task.sessionId
      sessionEpoch := task.sessionEpoch
      persistedUserMessageId := task.persistedUserMessageId } turn.sessionId turn.expectedEpoch
    return some (task.taskId, details)

-- The checks of a mutation against the turn that carries it.
def prepareMutation (turn : AcceptTurn) : Except Raised (Option GoalMutation) := do
  raiseIf (turn.goalMutation.isSome = true ∧ turn.planRun = true)
    (.valueError "Goal turns cannot start or claim a Plan run")
  match turn.goalMutation, turn.task with
  | none, _ => return none
  | some (.start goal command), task => do
    raiseIf (task.isNone = true ∨ turn.mergeIntoTask = true)
      (.valueError "Goal set requires one newly accepted runtime task")
    let objective ← normalizeGoalObjective goal.objective
    let goal := { goal with
      sessionKey := canonicalizeSessionKey goal.sessionKey
      objective := objective
      sourceUserMessageId := some (goal.sourceUserMessageId.getD turn.messageId) }
    let command ← prepareGoalCommand command .set turn.sessionKey
    raiseIf (goal.sessionKey ≠ canonicalizeSessionKey turn.sessionKey ∨ goal.sessionId ≠ turn.sessionId ∨
        goal.sessionEpoch ≠ turn.expectedEpoch ∨ goal.activeTaskId ≠ task.map NewTask.taskId ∨
        goal.sourceUserMessageId ≠ some turn.messageId ∨
        command.sourceScope ≠ strip turn.sourceScope ∨
        command.clientRequestId ≠ strip turn.clientRequestId ∨
        command.requestFingerprint ≠ turn.requestFingerprint)
      (.valueError "Goal set, transcript, task and idempotency identities must match")
    return some (.start goal command)
  | some claim, task => do
    raiseIf (task.isNone = true) (.valueError "Goal claim requires an accepted runtime task")
    return some claim

end AcceptTurn

def GoalRecord.FreshFor (taskId messageId : Text) (goal : GoalRecord) : Prop :=
  goal.status = .active ∧ goal.stateRevision = 1 ∧ goal.objectiveRevision = 1 ∧
    goal.progressRevision = 0 ∧ goal.continuationSeq = 0 ∧ goal.activeTaskId = some taskId ∧
      goal.sourceUserMessageId = some messageId ∧ goal.terminalTaskId = none ∧
        goal.turnsStarted = 1 ∧ goal.turnsSettled = 0 ∧ goal.windowTurnsStarted = 1

instance (taskId messageId : Text) (goal : GoalRecord) : Decidable (goal.FreshFor taskId messageId) :=
  inferInstanceAs (Decidable (_ ∧ _))

namespace Store

/-- The session row of the turn, and the end of the goal of the generation it replaces. -/
def writeSession (turn : AcceptTurn) (sessionKey : Text) (store : Store) : Store :=
  match turn.sessionNode with
  | none => store
  | some row =>
    let store := { store with sessions := store.sessions.set sessionKey row }
    if turn.reset then store.deleteGoals (fun goal => goal.sessionKey = sessionKey) else store

def startGoal (sessionKey messageId taskId : Text) (goal : GoalRecord) (details : TaskDetails)
    (store : Store) : Except Raised (TaskDetails × Store) := do
  raiseIf (¬goal.FreshFor taskId messageId)
    (.goalValidationError .invalidGoalCommand "Goal set requires a fresh Goal bound to its first task")
  let current := store.selectGoal sessionKey
  raiseIf (current.any (fun goal => goal.status ≠ .complete) = true)
    (.goalConflictError .goalActive "An unfinished Goal already exists for this session" current)
  raiseIf (current.any (fun goal => goal.activeTaskId ≠ none) = true)
    (.goalConflictError .goalBusy "The completed Goal still owns an unsettled task" current)
  store.requireDefaultGoalMode goal
  store.requireIdleGoalSession sessionKey
  let store ← (store.deleteGoals (fun row => row.sessionKey = sessionKey)).insertGoal goal
  return ({ details with
    goalCandidate := none
    goalContext := some (goalTurnContext goal taskId false) }, store)

/-- The goal of the session with the candidate it answers to, when it is active and matches. -/
def matchingGoal (turn : AcceptTurn) (sessionKey : Text) (candidate : Option GoalClaimCandidate)
    (store : Store) : Option (GoalRecord × GoalClaimCandidate) :=
  match store.selectGoal sessionKey with
  | none => none
  | some current =>
    let candidate := candidate.getD ⟨turn.sessionId, turn.expectedEpoch, current.goalId⟩
    if current.sessionId = candidate.sessionId ∧ current.sessionEpoch = candidate.epoch ∧
        current.goalId = candidate.goalId ∧ current.status = .active then some (current, candidate)
    else none

def claimGoal (turn : AcceptTurn) (sessionKey taskId : Text) (candidate : Option GoalClaimCandidate)
    (details : TaskDetails) (store : Store) : Except Raised (TaskDetails × Store) :=
  match store.matchingGoal turn sessionKey candidate with
  | none => .ok ({ details with goalCandidate := none }, store)
  | some (current, candidate) =>
    let modeIsDefault := (store.sessionRow sessionKey turn.sessionId turn.expectedEpoch).any
      (fun row => row.collaborationMode = .default)
    if modeIsDefault = true ∧ current.activeTaskId = none ∧ store.busy sessionKey = false ∧
        turn.mergeIntoTask = false then do
      let store ← store.updateGoals
        (fun row => row.sessionKey = sessionKey && row.goalId = current.goalId &&
          row.activeTaskId = none && row.status = .active)
        (·.took taskId turn.updatedAt)
      return ({ details with
        goalCandidate := none
        goalContext := some (goalTurnContext current taskId false) }, store)
    else .ok ({ details with goalCandidate := some candidate }, store)

def mutateGoal (turn : AcceptTurn) (sessionKey taskId : Text) (details : TaskDetails)
    (store : Store) : Option GoalMutation → Except Raised (TaskDetails × Store)
  | none => .ok (details, store)
  | some (.start goal _) => store.startGoal sessionKey turn.messageId taskId goal details
  | some (.claim candidate) => store.claimGoal turn sessionKey taskId (some candidate) details
  | some .claimCurrent => store.claimGoal turn sessionKey taskId none details

/-- Collect the details into a queued task. An incoming field stands in for the existing one. -/
def mergeDetails (turn : AcceptTurn) (claims : Bool) (incoming existing : TaskDetails) : TaskDetails where
  sessionId := existing.sessionId
  sessionEpoch := existing.sessionEpoch
  persistedUserMessageId :=
    some ((existing.persistedUserMessageId.or incoming.persistedUserMessageId).getD turn.messageId)
  goalContext := incoming.goalContext.or existing.goalContext
  goalEffectiveContext := incoming.goalEffectiveContext.or existing.goalEffectiveContext
  goalObjectiveUpdate := incoming.goalObjectiveUpdate.or existing.goalObjectiveUpdate
  goalCandidate :=
    if (claims = true ∧ incoming.goalContext = none ∧ incoming.goalCandidate = none) ∨
        (incoming.goalContext.or existing.goalContext).isSome = true then none
    else incoming.goalCandidate.or existing.goalCandidate

def acceptTask (turn : AcceptTurn) (sessionKey taskId : Text) (claims : Bool) (details : TaskDetails)
    (store : Store) : Except Raised Store := do
  if turn.mergeIntoTask then
    let existing ← orRaise ((store.tasks.get? taskId).filter (fun task =>
        task.sessionKey = sessionKey ∧ task.status = .queued))
      (.taskCollectionUnavailableError "The target task is no longer queued for collection")
    let owned ← AcceptTurn.bindTaskSessionOwner existing.details turn.sessionId turn.expectedEpoch
    return store.writeDetails taskId existing (mergeDetails turn claims details owned)
  else
    store.insertAgentTask taskId {
      sessionKey := sessionKey
      details := { details with persistedUserMessageId := some turn.messageId } }

def GoalMutation.claims : Option GoalMutation → Bool
  | some (.claim _) | some .claimCurrent => true
  | _ => false

-- What a side conversation makes of the mutation: it carries no goal.
def sidechatMutation (turn : AcceptTurn) (sessionKey : Text) (store : Store) :
    Option GoalMutation → Except Raised (Option GoalMutation)
  | mutation =>
    if (store.sessions.get? sessionKey).any SessionRow.sidechat then do
      let mutation := mutation.filter (fun mutation => mutation matches .start .. | .claim _)
      raiseIf (mutation.isSome = true ∨ turn.planRun = true ∨ turn.reset = true)
        (.sidechatAdmissionRejectedError
          "Side conversations do not support Goals, Plan runs or reset")
      return mutation
    else .ok mutation

def acceptFreshTurn (turn : AcceptTurn) (sessionKey : Text) (task : Option (Text × TaskDetails))
    (mutation : Option GoalMutation) (store : Store) : Except Raised Store := do
  raiseAny turn.admission
  let store := store.writeSession turn sessionKey
  match task with
  | none =>
    raiseAny turn.settlement
    return store
  | some (taskId, incoming) => do
    let (details, store) ← store.mutateGoal turn sessionKey taskId incoming mutation
    raiseAny turn.settlement
    let store ← store.acceptTask turn sessionKey taskId (GoalMutation.claims mutation) details
    match mutation with
    | some (.start goal command) => return store.insertGoalCommandReceipt command goal
    | _ => return store

-- The answer to a turn that was accepted before. It writes nothing.
def replayTurn (mutation : Option GoalMutation) (sameRequest : Bool) (store : Store) : Except Raised Unit :=
  match mutation with
  | some (.start _ command) => do
    raiseIf (sameRequest = false) (.goalConflictError .idempotencyConflict
      "clientRequestId was already used for a different Goal command")
    let replay ← store.replayGoalCommand command
    raiseIf (replay = none)
      (.runtimeError "Goal turn receipt exists without its atomic command receipt")
  | _ => raiseIf (sameRequest = false)
      (.turnIngressConflictError "client_request_id was already used for a different turn")

-- No receipt of the command is there without a receipt of its turn.
def raiseOnCommandReceipt (mutation : Option GoalMutation) (store : Store) : Except Raised Unit :=
  match mutation with
  | some (.start _ command) => do
    let replay ← store.replayGoalCommand command
    raiseIf (replay ≠ none)
      (.runtimeError "Goal command receipt exists without its atomic turn receipt")
  | _ => .ok ()

def acceptTurn (turn : AcceptTurn) (store : Store) : Except Raised Store := do
  raiseAny turn.arguments
  let sessionKey := canonicalizeSessionKey turn.sessionKey
  let task ← turn.incomingTask
  let mutation ← turn.prepareMutation
  let mutation ← store.sidechatMutation turn sessionKey mutation
  match turn.receipt with
  | some sameRequest => do
    store.replayTurn mutation sameRequest
    return store
  | none => do
    store.raiseOnCommandReceipt mutation
    store.acceptFreshTurn turn sessionKey task mutation

end Store

end OpenSquilla.Goals
