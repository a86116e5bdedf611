import OpenSquilla.Activations.Store

set_option autoImplicit false

namespace OpenSquilla.Activations

open PendingInputs (canonicalizeSessionKey)
open RaisingRuns TextLines Transactions

def PermitState.ofRelease? (state : Text) : Option PermitState :=
  if state = "released".toList then some .released
  else if state = "expired".toList then some .expired
  else none

structure AgentTaskUpdate where
  sessionKey : Option Text := none
  status : Option AgentTaskStatus := none
  finishedAt : Option (Option Int) := none
  terminalReason : Option (Option Text) := none
  details : Option TaskDetails := none
  detailsPatch : Option DetailsPatch := none

def AgentTaskUpdate.apply (update : AgentTaskUpdate) (task : AgentTask) : AgentTask where
  sessionKey := update.sessionKey.getD task.sessionKey
  status := update.status.getD task.status
  finishedAt := update.finishedAt.getD task.finishedAt
  terminalReason := update.terminalReason.getD task.terminalReason
  details := update.detailsPatch.elim (update.details.getD task.details) task.details.patched

structure TaskSettlement where
  status : AgentTaskStatus
  finishedAt : Option Int
  terminalReason : Option (Option Text) := none
  detailsPatch : DetailsPatch := {}

structure SessionReset where
  sessionKey : Text
  sessionId : Text
  epoch : Int
  expectedSessionId : Text
  expectedEpoch : Int

def SessionReset.invalidation (reset : SessionReset) : ActivationInvalidation where
  kind := .str "session_reset".toList
  replacedSessionId := .str reset.expectedSessionId
  replacedSessionEpoch := .int reset.expectedEpoch
  replacementSessionId := .str reset.sessionId
  replacementSessionEpoch := .int reset.epoch

-- The details belong to the generation that the reset replaces.
def TaskDetails.ownedBy (details : TaskDetails) (reset : SessionReset) : Bool :=
  details.sessionId.equals (.str reset.expectedSessionId) && details.sessionEpoch = .int reset.expectedEpoch &&
    details.activationAuthority.isSome

def TaskDetails.invalidated (details : TaskDetails) (reset : SessionReset) : TaskDetails :=
  if details.ownedBy reset = false then details
  else if details.activationInvalidation.any (·.equals reset.invalidation) then details
  else { details with activationInvalidation := some reset.invalidation }

namespace Store

def releaseActivationPermit (now : Int) (taskId sessionKey state : Text) (store : Store) :
    Store × Except Raised (Option ActivationPermit) :=
  match PermitState.ofRelease? state with
  | none => (store, .error (.valueError "activation permit release state is invalid"))
  | some state =>
    let key := canonicalizeSessionKey sessionKey
    let permits := store.permits.close state (fun _ => some now) fun permit =>
      permit.taskId = taskId && permit.coordinates.sessionKey = key
    ({ store with permits },
      .ok (permits.rows.find? fun permit => permit.taskId = taskId && permit.coordinates.sessionKey = key))

def createAgentTask (taskId : Text) (task : AgentTask) (expected : Option (Text × Option Int)) (store : Store) :
    Except Raised (Store × Unit) := do
  let sessionKey := canonicalizeSessionKey task.sessionKey
  raiseIf (∃ owner ∈ expected, ¬∃ session ∈ store.sessions.get? sessionKey,
    session.sessionId = owner.1 ∧ ∀ epoch ∈ owner.2, session.epoch = epoch) .staleEpochError
  raiseIf (store.tasks.get? taskId).isSome .integrityError
  return ({ store with tasks := store.tasks.set taskId { task with sessionKey } }, ())

def updateAgentTask (taskId : Text) (update : AgentTaskUpdate) (store : Store) :
    Except Raised (Store × Unit) := do
  raiseIf (update.detailsPatch.isSome ∧ update.details.isSome)
    (.valueError "details and details_patch cannot be supplied together")
  let task ← orRaise (store.tasks.get? taskId) (.keyError taskId)
  return ({ store with tasks := store.tasks.set taskId (update.apply task) }, ())

-- Settles the task and releases its permit in one transaction.
def settleAgentTask (taskId sessionKey : Text) (settlement : TaskSettlement) (store : Store) :
    Except Raised (Store × Unit) := do
  raiseIf (settlement.status.isTerminal = false ∨ settlement.finishedAt = none)
    (.valueError "invalid terminal task update")
  let key := canonicalizeSessionKey sessionKey
  let task ← orRaise ((store.tasks.get? taskId).filter (·.sessionKey = key)) (.keyError taskId)
  raiseIf (task.status.isTerminal ∧ (task.status ≠ settlement.status ∨ task.finishedAt ≠ settlement.finishedAt))
    .agentTaskTerminalConflictError
  let settled := { task with
    status := settlement.status
    finishedAt := settlement.finishedAt
    terminalReason := settlement.terminalReason.getD task.terminalReason
    details := task.details.patched settlement.detailsPatch }
  return ({ store with
    tasks := store.tasks.set taskId settled
    permits := store.permits.close .released (·.or settlement.finishedAt) fun permit =>
      permit.taskId = taskId && permit.coordinates.sessionKey = key }, ())

def restarted : Text := "process_restart".toList

def abandoned (now : Int) (task : AgentTask) : AgentTask :=
  if task.status.isTerminal then task
  else { task with
    status := .abandoned
    finishedAt := task.finishedAt.or (some now)
    terminalReason := some restarted }

-- The tasks that a restart interrupted, in this start or in an earlier one.
def interrupted (task : AgentTask) : Bool :=
  !task.status.isTerminal || (task.status = .abandoned && task.terminalReason = some restarted)

def markAbandonedAgentTasks (now : Int) (store : Store) : Store :=
  let tasks := store.tasks.mapValues (abandoned now)
  let released := store.permits.close .released (·.or (some now)) fun permit =>
    (store.tasks.get? permit.taskId).any interrupted
  { store with
    tasks := tasks
    permits := released.close .released (·.or (some now)) fun permit =>
      (tasks.get? permit.taskId).any fun task =>
        task.sessionKey = permit.coordinates.sessionKey && task.status.isTerminal }

def createSession (sessionKey : Text) (owner : SessionOwner) (store : Store) : Except Raised (Store × Unit) := do
  let key := canonicalizeSessionKey sessionKey
  raiseIf (store.sessions.get? key).isSome .integrityError
  return ({ store with sessions := store.sessions.set key owner }, ())

-- The queued tasks of the session that hold no active permit.
def unclaimed (store : Store) (sessionKey taskId : Text) (task : AgentTask) : Bool :=
  task.sessionKey = sessionKey && task.status = .queued &&
    !store.permits.rows.any fun permit =>
      permit.taskId = taskId && permit.coordinates.sessionKey = task.sessionKey && permit.state = .active

def invalidateResetGeneration (sessionKey : Text) (reset : SessionReset) (store : Store) :
    Dict Text AgentTask where
  entries := store.tasks.entries.map fun entry =>
    (entry.1, if store.unclaimed sessionKey entry.1 entry.2 then
      { entry.2 with details := entry.2.details.invalidated reset } else entry.2)
  nodupKeys := by
    rw [List.map_map]
    exact store.tasks.nodupKeys

def resetSession (reset : SessionReset) (store : Store) : Except Raised (Store × Unit) := do
  let key := canonicalizeSessionKey reset.sessionKey
  raiseIf (reset.expectedSessionId = []) (.valueError "expected_session_id is required")
  raiseIf (reset.sessionId = reset.expectedSessionId) (.valueError "reset session id must change")
  raiseIf (reset.epoch ≠ reset.expectedEpoch + 1) (.valueError "reset epoch must advance exactly once")
  raiseIf (store.sessions.get? key ≠ some ⟨reset.expectedSessionId, reset.expectedEpoch⟩) .staleEpochError
  return ({ store with
    sessions := store.sessions.set key ⟨reset.sessionId, reset.epoch⟩
    tasks := store.invalidateResetGeneration key reset }, ())

def createToken (publicId : Text) (token : SandboxToken) (store : Store) : Except Raised (Store × Unit) := do
  raiseIf (store.tokens.get? publicId).isSome .integrityError
  return ({ store with tokens := store.tokens.set publicId { token with
    authorizationRevision := 1
    revokedAt := none } }, ())

def revokeToken (now : Int) (publicId : Text) (store : Store) : Store :=
  { store with tokens := store.tokens.modify publicId fun token =>
      if token.revokedAt = none then
        { token with
          revokedAt := some (now / 1000)
          authorizationRevision := token.authorizationRevision + 1 }
      else token }

-- An edit of the permission sets, which may come with any revision.
def editToken (publicId : Text) (edited : SandboxToken) (store : Store) : Store :=
  { store with tokens := store.tokens.modify publicId fun token => { edited with revokedAt := token.revokedAt } }

end Store

inductive Operation
  | claim (permitId : Text) (claim : ActivationClaim)
  | release (taskId sessionKey state : Text)
  | createTask (taskId : Text) (task : AgentTask) (expected : Option (Text × Option Int))
  | updateTask (taskId : Text) (update : AgentTaskUpdate)
  | settleTask (taskId sessionKey : Text) (settlement : TaskSettlement)
  | markAbandoned
  | createSession (sessionKey : Text) (owner : SessionOwner)
  | resetSession (reset : SessionReset)
  | createToken (publicId : Text) (token : SandboxToken)
  | revokeToken (publicId : Text)
  | editToken (publicId : Text) (edited : SandboxToken)

structure Transaction where
  now : Int
  operation : Operation

namespace Store

def apply (libraries : Libraries) (now : Int) (store : Store) : Operation → Store
  | .claim permitId claim => (store.claimActivationPermit libraries now permitId claim).1
  | .release taskId sessionKey state => (store.releaseActivationPermit now taskId sessionKey state).1
  | .createTask taskId task expected => (transact store (store.createAgentTask taskId task expected)).1
  | .updateTask taskId update => (transact store (store.updateAgentTask taskId update)).1
  | .settleTask taskId sessionKey settlement =>
      (transact store (store.settleAgentTask taskId sessionKey settlement)).1
  | .markAbandoned => store.markAbandonedAgentTasks now
  | .createSession sessionKey owner => (transact store (store.createSession sessionKey owner)).1
  | .resetSession reset => (transact store (store.resetSession reset)).1
  | .createToken publicId token => (transact store (store.createToken publicId token)).1
  | .revokeToken publicId => store.revokeToken now publicId
  | .editToken publicId edited => store.editToken publicId edited

end Store

structure World where
  store : Store := {}
  clock : Int := 0

namespace World

def step (libraries : Libraries) (world : World) (transaction : Transaction) : World where
  store := world.store.apply libraries transaction.now transaction.operation
  clock := transaction.now

def Permitted (world : World) (transaction : Transaction) : Prop := world.clock ≤ transaction.now

instance (world : World) (transaction : Transaction) : Decidable (world.Permitted transaction) :=
  inferInstanceAs (Decidable (_ ≤ _))

end World

end OpenSquilla.Activations
