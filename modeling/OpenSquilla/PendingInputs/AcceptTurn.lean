import OpenSquilla.PendingInputs.Operations

set_option autoImplicit false

namespace OpenSquilla.PendingInputs

open TextLines TextScan
open RaisingRuns (raiseIf raiseAny orRaise)

variable {Payload : Type}

/--
What the parts of `accept_turn` outside the tables of the store raise, in their order: the checks of
the other arguments, the side conversation, the replay of a goal command, the plan, workspace and
session writes, the goal, and the writes of the task. `sessionCurrent` says whether the session row
has the epoch expected, and `taskFresh` is what the details of an accepted task say.
-/
structure Surroundings where
  planArguments : Option Raised := none
  otherArguments : Option Raised := none
  sidechat : Option Raised := none
  goalReplay : Option Raised := none
  admission : Option Raised := none
  goal : Option Raised := none
  settlement : Option Raised := none
  sessionCurrent : Bool := true
  taskFresh : Bool := false

structure PendingGuard where
  pendingInputId : Text
  fingerprint : Text
  revision : Int

structure AcceptTurn where
  entry : TranscriptEntry
  sourceScope : Text
  requestSessionKey : Text
  clientRequestId : Text
  requestFingerprint : Text
  /-- The `session_key` and the `session_id` of the session to create or to reset. -/
  sessionNode : Option (Text × Text) := none
  resetFromSessionId : Option Text := none
  initialTranscriptEntries : List TranscriptEntry := []
  taskId : Option Text := none
  receiptTaskId : Option Text := none
  pendingInputId : Option Text := none
  pendingInputFingerprint : Option Text := none
  pendingInputRevision : Option Int := none
  -- the identifier of the new receipt
  newUuid : Text
  surroundings : Surroundings := {}

structure TurnAcceptanceResult where
  receipt : TurnIngressReceipt
  replayed : Bool
  freshUserSession : Bool

def TranscriptEntry.canonical (entry : TranscriptEntry) : TranscriptEntry :=
  { entry with sessionKey := canonicalizeSessionKey entry.sessionKey }

namespace AcceptTurn

def requestKey (turn : AcceptTurn) : RequestKey where
  sourceScope := strip turn.sourceScope
  requestSessionKey := canonicalizeSessionKey turn.requestSessionKey
  clientRequestId := strip turn.clientRequestId

def pendingGuard (turn : AcceptTurn) : Option PendingGuard := do
  let pendingInputId ← turn.pendingInputId
  let fingerprint ← turn.pendingInputFingerprint
  let revision ← turn.pendingInputRevision
  return ⟨strip pendingInputId, strip fingerprint, revision⟩

def raiseOnGuard (requestFingerprint : Text) (guarded : PendingGuard) : Except Raised Unit := do
  raiseIf (guarded.pendingInputId = [] ∨ guarded.fingerprint = [])
    (.valueError "pending input dispatch identity must not be blank")
  raiseIf (requestFingerprint ≠ guarded.fingerprint)
    (.pendingChatInputConflictError
      "pending input fingerprint must match the accepted turn fingerprint")
  raiseIf (guarded.revision < 1) (.valueError "pending input revision must be a positive integer")

def raiseOnSession (turn : AcceptTurn) : Except Raised Unit := do
  match turn.sessionNode with
  | some (sessionKey, sessionId) =>
    raiseIf (canonicalizeSessionKey sessionKey ≠ turn.entry.canonical.sessionKey)
      (.valueError "prepared session and transcript session keys must match")
    raiseIf (sessionId ≠ turn.entry.sessionId)
      (.valueError "prepared session and transcript session ids must match")
  | none =>
    raiseIf (turn.resetFromSessionId.isSome)
      (.valueError "reset_from_session_id requires session_node")
    raiseIf (turn.initialTranscriptEntries ≠ [])
      (.valueError "initial transcript entries require session_node")

def raiseOnArguments (turn : AcceptTurn) : Except Raised Unit := do
  raiseIf (strip turn.sourceScope = []) (.valueError "source_scope is required")
  raiseIf (strip turn.clientRequestId = []) (.valueError "client_request_id is required")
  raiseIf (turn.requestFingerprint = []) (.valueError "request_fingerprint is required")
  raiseAny turn.surroundings.planArguments
  raiseIf ((turn.pendingInputId.isSome ∨ turn.pendingInputFingerprint.isSome ∨
      turn.pendingInputRevision.isSome) ∧ turn.pendingGuard = none)
    (.valueError "pending input dispatch guard must be complete")
  turn.pendingGuard.elim (.ok ()) (raiseOnGuard turn.requestFingerprint)
  raiseIf (∃ taskId ∈ turn.receiptTaskId, strip taskId = [])
    (.valueError "receipt_task_id must not be blank")
  raiseIf (∃ taskId ∈ turn.receiptTaskId, ∃ accepted ∈ turn.taskId, accepted ≠ strip taskId)
    (.valueError "receipt_task_id must match task_record.task_id")
  turn.raiseOnSession
  raiseAny turn.surroundings.otherArguments

def receipt (now : Int) (turn : AcceptTurn) : TurnIngressReceipt where
  toRequestKey := turn.requestKey
  receiptId := turn.newUuid
  requestFingerprint := turn.requestFingerprint
  acceptedSessionKey := turn.entry.canonical.sessionKey
  sessionId := turn.entry.sessionId
  messageId := turn.entry.messageId
  taskId := turn.taskId.or (turn.receiptTaskId.map strip)
  acceptedAt := now

end AcceptTurn

namespace Store

def selectTurnIngressReceipt (key : RequestKey) (store : Store) : Option TurnIngressReceipt :=
  store.turnIngressReceipts.rows.find? (fun receipt => receipt.toRequestKey = key)

def insertTranscriptEntry (current : Bool) (entry : TranscriptEntry) (store : Store) : Except Raised Store := do
  raiseIf (current = false) .staleEpochError
  return { store with
    transcriptEntries := store.transcriptEntries ++
      [{ toTranscriptEntry := entry, id := store.transcriptSequence + 1 }]
    transcriptSequence := store.transcriptSequence + 1 }

def insertTurnReceipt (receipt : TurnIngressReceipt) (store : Store) : Except Raised Store := do
  let rows ← orRaise (store.turnIngressReceipts.insert? receipt) .integrityError
  return { store with turnIngressReceipts := rows }

def insertDispatchReceipt (receipt : DispatchReceipt) (store : Store) : Except Raised Store := do
  let rows ← orRaise (store.dispatchReceipts.insert? receipt)
    (.pendingChatInputConflictError "pending input dispatch identity was already consumed")
  return { store with dispatchReceipts := rows }

-- `_delete_reset_history`, when the turn resets its session.
def deleteResetHistory (resetFromSessionId : Option Text) (store : Store) : Store :=
  { store with
    transcriptEntries := store.transcriptEntries.filter
      (fun row => some row.sessionId ≠ resetFromSessionId) }

end Store

/-- The row that a replayed turn leaves behind goes, when all of it matches the two receipts. -/
def consumeLeftover (codec : PayloadCodec Payload) (key : RequestKey) (guarded : PendingGuard)
    (store : Store) : Except Raised Store := do
  let unbound : Raised :=
    .pendingChatInputConflictError "pending input is not bound to the accepted turn receipt"
  let receipt ← orRaise (store.selectDispatchReceipt guarded.pendingInputId) unbound
  raiseIf (¬(receipt.sessionKey = key.requestSessionKey ∧ receipt.sourceScope = key.sourceScope ∧
    receipt.clientRequestId = key.clientRequestId ∧
      receipt.requestFingerprint = guarded.fingerprint)) unbound
  match ← store.selectPendingChatInput codec guarded.pendingInputId with
  | none => return store
  | some pending =>
    raiseIf (¬(pending.sessionKey = key.requestSessionKey ∧ pending.sourceScope = key.sourceScope ∧
        pending.clientRequestId = key.clientRequestId ∧
        pending.clientMessageId = receipt.clientMessageId ∧
        pending.requestFingerprint = guarded.fingerprint ∧
        pending.stateRevision = guarded.revision))
      (.pendingChatInputConflictError "pending input does not match the accepted turn receipt")
    return store.deletePending (fun row => row.pendingInputId = guarded.pendingInputId)

def replayTurn (codec : PayloadCodec Payload) (turn : AcceptTurn) (receipt : TurnIngressReceipt)
    (store : Store) : Except Raised (Store × TurnAcceptanceResult) := do
  raiseIf (receipt.requestFingerprint ≠ turn.requestFingerprint)
    (.turnIngressConflictError "client_request_id was already used for a different turn")
  let store ← turn.pendingGuard.elim (.ok store)
    (fun guarded => consumeLeftover codec turn.requestKey guarded store)
  raiseAny turn.surroundings.goalReplay
  return (store, ⟨receipt, true, turn.surroundings.taskFresh⟩)

/-- The row the guard is about, at the revision and with the identities that it expects. -/
def admitGuarded (codec : PayloadCodec Payload) (turn : AcceptTurn) (guarded : PendingGuard)
    (store : Store) : Except Raised (PendingChatInput Payload) := do
  let selected ← store.selectPendingChatInput codec guarded.pendingInputId
  let pending ← orRaise selected (.pendingChatInputNotFoundError guarded.pendingInputId)
  raiseIf (¬(pending.sessionKey = turn.requestKey.requestSessionKey ∧
      pending.sourceScope = turn.requestKey.sourceScope ∧
      pending.clientRequestId = turn.requestKey.clientRequestId ∧
      pending.requestFingerprint = guarded.fingerprint))
    (.pendingChatInputConflictError "pending input dispatch identity changed before acceptance")
  raiseIf (pending.stateRevision ≠ guarded.revision)
    (.pendingChatInputConflictError "pending input revision changed before acceptance")
  raiseIf (∃ messageId ∈ turn.entry.clientMessageId,
      messageId ≠ [] ∧ messageId ≠ pending.clientMessageId)
    (.pendingChatInputConflictError "pending input message identity changed before acceptance")
  return pending

def insertInitialEntries (turn : AcceptTurn) : List TranscriptEntry → Store → Except Raised Store
  | [], store => .ok store
  | entry :: rest, store => do
    raiseIf (entry.canonical.sessionKey ≠ turn.entry.canonical.sessionKey ∨
        entry.sessionId ≠ turn.entry.sessionId)
      (.valueError "initial transcript entries must target the accepted session")
    let store ← store.insertTranscriptEntry turn.surroundings.sessionCurrent entry.canonical
    insertInitialEntries turn rest store

-- The transcript and the turn receipt of a turn that was not accepted before.
def commitTurn (now : Int) (turn : AcceptTurn) (store : Store) :
    Except Raised (Store × TurnAcceptanceResult) := do
  raiseAny turn.surroundings.admission
  let store := store.deleteResetHistory turn.resetFromSessionId
  raiseAny turn.surroundings.goal
  let store ← insertInitialEntries turn turn.initialTranscriptEntries store
  let fresh := store.transcriptEntries.all (fun row => row.sessionId ≠ turn.entry.sessionId)
  let store ← store.insertTranscriptEntry turn.surroundings.sessionCurrent turn.entry.canonical
  raiseAny turn.surroundings.settlement
  let store ← store.insertTurnReceipt (turn.receipt now)
  return (store, ⟨turn.receipt now, false, fresh⟩)

-- The dispatch receipt of an accepted row, and the end of the row.
def dispatchPending (now : Int) (turn : AcceptTurn) (guarded : PendingGuard) (clientMessageId : Text)
    (store : Store) : Except Raised Store := do
  let key := turn.requestKey
  let identity : PendingIdentity :=
    ⟨guarded.pendingInputId, key.requestSessionKey, key.sourceScope, key.clientRequestId,
      clientMessageId⟩
  let store ← store.insertDispatchReceipt
    { toPendingIdentity := identity, requestFingerprint := guarded.fingerprint, acceptedAt := now }
  let consumed := fun row : PendingRow => decide (row.pendingInputId = guarded.pendingInputId ∧
    row.sessionKey = key.requestSessionKey ∧ row.sourceScope = key.sourceScope ∧
    row.clientRequestId = key.clientRequestId ∧ row.requestFingerprint = guarded.fingerprint ∧
    row.stateRevision = guarded.revision)
  raiseIf (store.pendingChatInputs.rows.countP consumed ≠ 1)
    (.pendingChatInputConflictError "pending input changed before atomic dispatch")
  return store.deletePending consumed

def acceptUnseen (codec : PayloadCodec Payload) (now : Int) (turn : AcceptTurn) (store : Store) :
    Except Raised (Store × TurnAcceptanceResult) :=
  match turn.pendingGuard with
  | none => commitTurn now turn store
  | some guarded => do
    let pending ← admitGuarded codec turn guarded store
    let (store, result) ← commitTurn now turn store
    let store ← dispatchPending now turn guarded pending.clientMessageId store
    return (store, result)

def acceptTurn (codec : PayloadCodec Payload) (now : Int) (turn : AcceptTurn) (store : Store) :
    Except Raised (Store × TurnAcceptanceResult) := do
  turn.raiseOnArguments
  raiseAny turn.surroundings.sidechat
  match store.selectTurnIngressReceipt turn.requestKey with
  | some receipt => replayTurn codec turn receipt store
  | none => acceptUnseen codec now turn store

end OpenSquilla.PendingInputs
