import Mathlib.Data.Char
import OpenSquilla.PendingInputs.Store

set_option autoImplicit false

namespace OpenSquilla.PendingInputs

open TextLines TextScan
open RaisingRuns (raiseIf raiseAny orRaise)

variable {Payload : Type}

/-- `json.dumps` of a payload, and `json.loads` with the check that it gives an object. -/
structure PayloadCodec (Payload : Type) where
  dumps : Payload → Except Raised Text
  loads : Text → Except Raised Payload

namespace PendingChatInput

def fromRow (codec : PayloadCodec Payload) (row : PendingRow) : Except Raised (PendingChatInput Payload) := do
  let payload ← codec.loads row.payload
  return { row with payload := payload }

-- `state_revision = state_revision + 1`, with the new position.
def moved (now position : Int) (row : PendingRow) : PendingRow :=
  { row with position := position, stateRevision := row.stateRevision + 1, updatedAt := now }

def orderedBefore (one other : PendingRow) : Prop :=
  one.position < other.position ∨ (one.position = other.position ∧
    (one.createdAt < other.createdAt ∨
      (one.createdAt = other.createdAt ∧ one.pendingInputId ≤ other.pendingInputId)))

instance : DecidableRel orderedBefore := fun _ _ => inferInstanceAs (Decidable (_ ∨ _))

end PendingChatInput

def DispatchReceipt.orderedBefore (one other : DispatchReceipt) : Prop :=
  one.acceptedAt < other.acceptedAt ∨
    (one.acceptedAt = other.acceptedAt ∧ one.pendingInputId ≤ other.pendingInputId)

instance : DecidableRel DispatchReceipt.orderedBefore := fun _ _ => inferInstanceAs (Decidable (_ ∨ _))

-- All that two identities share when they differ in `pending_input_id` at most.
def PendingIdentity.SameRequest (one other : PendingIdentity) : Prop :=
  one.sessionKey = other.sessionKey ∧ one.sourceScope = other.sourceScope ∧
    one.clientRequestId = other.clientRequestId ∧ one.clientMessageId = other.clientMessageId

instance : DecidableRel PendingIdentity.SameRequest := fun _ _ => inferInstanceAs (Decidable (_ ∧ _))

def maxPendingChatInputs : Nat := 5

namespace Store

def pending? (pendingInputId : Text) (store : Store) : Option PendingRow :=
  store.pendingChatInputs.rows.find? (fun row => row.pendingInputId = pendingInputId)

def selectPendingChatInput (codec : PayloadCodec Payload) (pendingInputId : Text) (store : Store) :
    Except Raised (Option (PendingChatInput Payload)) :=
  match store.pending? pendingInputId with
  | none => .ok none
  | some row => some <$> PendingChatInput.fromRow codec row

def selectCancellation (pendingInputId : Text) (store : Store) : Option Cancellation :=
  store.cancellations.rows.find? (fun row => row.pendingInputId = pendingInputId)

def selectDispatchReceipt (pendingInputId : Text) (store : Store) : Option DispatchReceipt :=
  store.dispatchReceipts.rows.find? (fun row => row.pendingInputId = pendingInputId)

def findDispatchReceipts (identity : PendingIdentity) (store : Store) : List DispatchReceipt :=
  (store.dispatchReceipts.rows.filter
    (fun row => identity.ClashesDispatched row.toPendingIdentity)).insertionSort
      DispatchReceipt.orderedBefore

def sessionRows (sessionKey : Text) (store : Store) : List PendingRow :=
  store.pendingChatInputs.rows.filter (fun row => row.sessionKey = sessionKey)

def orderedRows (sessionKey : Text) (store : Store) : List PendingRow :=
  (store.sessionRows sessionKey).insertionSort PendingChatInput.orderedBefore

def matchingRows (identity : PendingIdentity) (store : Store) : List PendingRow :=
  (store.pendingChatInputs.rows.filter
    (fun row => identity.ClashesWaiting row.toPendingIdentity)).insertionSort
      (fun one other => one.createdAt ≤ other.createdAt)

def insertPending (row : PendingRow) (store : Store) : Except Raised Store := do
  let rows ← orRaise (store.pendingChatInputs.insert? row) .integrityError
  return { store with pendingChatInputs := rows }

def insertCancellation (row : Cancellation) (store : Store) : Except Raised Store := do
  let rows ← orRaise (store.cancellations.insert? row) .integrityError
  return { store with cancellations := rows }

def deletePending (gone : PendingRow → Bool) (store : Store) : Store :=
  { store with pendingChatInputs := store.pendingChatInputs.delete gone }

def raiseOnDispatched (identity : PendingIdentity) (fingerprint : Text) (store : Store) : Except Raised Unit :=
  match store.findDispatchReceipts identity with
  | [] => .ok ()
  | receipt :: others =>
    .error (if others = [] ∧ receipt.toPendingIdentity = identity ∧
        receipt.requestFingerprint = fingerprint then
      .pendingChatInputAlreadyDispatchedError "pending input was already dispatched"
    else .pendingChatInputConflictError "pending input dispatch identity was already used")

def raiseOnCancelled (identity : PendingIdentity) (store : Store) : Except Raised Unit :=
  match store.selectCancellation identity.pendingInputId with
  | none => .ok ()
  | some cancellation =>
    .error (if cancellation.sessionKey ≠ identity.sessionKey then
      .pendingChatInputConflictError "pending input cancellation belongs to a different session"
    else .pendingChatInputCancelledError "pending input was durably cancelled")

end Store

structure Enqueue (Payload : Type) extends PendingIdentity where
  requestFingerprint : Text
  payload : Payload
  position : Option Int := none

def raiseOnIdentifiers (identity : PendingIdentity) (fingerprint : Text) : Except Raised Unit := do
  raiseIf ([] ∈ fingerprint :: identity.values)
    (.valueError "pending input identities must be non-empty")
  raiseIf (256 < identity.pendingInputId.length)
    (.valueError "pending_input_id must not exceed 256 characters")
  raiseIf (256 < identity.clientRequestId.length)
    (.valueError "client_request_id must not exceed 256 characters")
  raiseIf (256 < identity.clientMessageId.length)
    (.valueError "client_message_id must not exceed 256 characters")
  raiseIf (512 < identity.sessionKey.length ∨ 256 < identity.sourceScope.length)
    (.valueError "pending input session/source identity is too long")

def nextPosition (rows : List PendingRow) : Int := ((rows.map (·.position)).max?.getD (-1)) + 1

-- The insertion of `enqueue_pending_chat_input`, when nothing stands in its way.
def stageRow (codec : PayloadCodec Payload) (row : PendingRow) (position : Option Int) (store : Store) :
    Except Raised (Store × PendingChatInput Payload × Bool) := do
  raiseIf (maxPendingChatInputs ≤ (store.sessionRows row.sessionKey).length)
    (.pendingChatInputCapacityError s!"session already has {maxPendingChatInputs} pending inputs")
  let position := position.getD (nextPosition (store.sessionRows row.sessionKey))
  raiseIf (position < 0) (.valueError "position must be a non-negative integer")
  let store ← store.insertPending { row with position := position }
  let selected ← store.selectPendingChatInput codec row.pendingInputId
  let staged ← orRaise selected (.assertionError "")
  return (store, staged, false)

-- `sidechat` is what the admission check of side conversations raises.
def enqueuePendingChatInput [BEq Payload] (codec : PayloadCodec Payload) (now : Int)
    (sidechat : Option Raised) (args : Enqueue Payload) (store : Store) :
    Except Raised (Store × PendingChatInput Payload × Bool) := do
  let identity := args.toPendingIdentity.normalized
  let fingerprint := strip args.requestFingerprint
  raiseOnIdentifiers identity fingerprint
  let payloadJson ← codec.dumps args.payload
  raiseAny sidechat
  store.raiseOnDispatched identity fingerprint
  store.raiseOnCancelled identity
  let rows ← (store.matchingRows identity).mapM (PendingChatInput.fromRow codec)
  match rows with
  | first :: others =>
    raiseIf (¬(others = [] ∧ first.toPendingIdentity = identity ∧
        first.requestFingerprint = fingerprint ∧ (first.payload == args.payload) = true))
      (.pendingChatInputConflictError
        "pending input identity was already used for a different payload")
    return (store, first, true)
  | [] =>
    stageRow codec
      { toPendingIdentity := identity, requestFingerprint := fingerprint, payload := payloadJson,
        position := 0, stateRevision := 1, createdAt := now, updatedAt := now } args.position store

def single? {α : Type} : List α → Option α
  | [value] => some value
  | _ => none

structure ConsumeReplayed extends PendingIdentity where
  requestFingerprint : Text
  expectedRevision : Int

def consumeReplayedPendingChatInput (codec : PayloadCodec Payload) (args : ConsumeReplayed)
    (store : Store) : Except Raised (Store × Bool) := do
  let identity := args.toPendingIdentity.normalized
  let fingerprint := strip args.requestFingerprint
  raiseIf ([] ∈ fingerprint :: identity.values)
    (.valueError "pending dispatch replay identities must be non-empty")
  raiseIf (args.expectedRevision < 1)
    (.valueError "expected_revision must be a positive integer")
  let receipt ← orRaise (single? (store.findDispatchReceipts identity))
    (.pendingChatInputConflictError "pending input dispatch receipt is missing or ambiguous")
  raiseIf (¬(receipt.toPendingIdentity.SameRequest identity ∧ receipt.requestFingerprint = fingerprint))
    (.pendingChatInputConflictError "pending input does not match its accepted dispatch receipt")
  match ← store.selectPendingChatInput codec identity.pendingInputId with
  | none => return (store, false)
  | some pending =>
    raiseIf (¬(pending.toPendingIdentity.SameRequest identity ∧
        pending.requestFingerprint = fingerprint ∧ pending.stateRevision = args.expectedRevision))
      (.pendingChatInputConflictError "pending input changed before dispatch replay cleanup")
    let consumed := fun row : PendingRow => decide (row.toPendingIdentity = identity ∧
      row.requestFingerprint = fingerprint ∧ row.stateRevision = args.expectedRevision)
    raiseIf (store.pendingChatInputs.rows.countP consumed ≠ 1)
      (.pendingChatInputConflictError "pending input changed before dispatch replay cleanup")
    return (store.deletePending consumed, true)

-- The compare-and-set `UPDATE` that moves one row, when it changes exactly one.
def Store.moveRow? (now : Int) (sessionKey pendingInputId : Text) (expectedRevision position : Int)
    (store : Store) : Option Store :=
  let hit := fun row : PendingRow => decide (row.pendingInputId = pendingInputId ∧
    row.sessionKey = sessionKey ∧ row.stateRevision = expectedRevision)
  if store.pendingChatInputs.rows.countP hit = 1 then
    some { store with
      pendingChatInputs := store.pendingChatInputs.update
        (fun row => if hit row then row.moved now position else row)
        (by intro row; split <;> rfl) }
  else none

def raiseOnUnmoved (codec : PayloadCodec Payload) (sessionKey pendingInputId : Text) (store : Store) :
    Except Raised Store := do
  let selected ← store.selectPendingChatInput codec pendingInputId
  let existing ← orRaise selected (.pendingChatInputNotFoundError pendingInputId)
  .error (.pendingChatInputConflictError
    (if existing.sessionKey ≠ sessionKey then "pending input belongs to a different session"
    else "pending input revision changed before update"))

def updatePendingChatInput (codec : PayloadCodec Payload) (now : Int)
    (pendingInputId sessionKey : Text) (expectedRevision position : Int) (store : Store) :
    Except Raised (Store × PendingChatInput Payload) := do
  raiseIf (expectedRevision < 1) (.valueError "expected_revision must be a positive integer")
  raiseIf (position < 0) (.valueError "position must be a non-negative integer")
  let pendingInputId := strip pendingInputId
  let sessionKey := canonicalizeSessionKey sessionKey
  let store ← (store.moveRow? now sessionKey pendingInputId expectedRevision position).elim
    (raiseOnUnmoved codec sessionKey pendingInputId store) .ok
  let selected ← store.selectPendingChatInput codec pendingInputId
  let row ← orRaise selected (.assertionError "")
  return (store, row)

/-- The loop that reads the arguments of a reorder: the pairs behind it are in `seen`. -/
def readExpectedRevisions (seen : List (Text × Int)) : List (Text × Int) → Except Raised (List (Text × Int))
  | [] => .ok seen
  | (rawPendingId, revision) :: rest => do
    let pendingInputId := strip rawPendingId
    raiseIf (pendingInputId = [] ∨ 256 < pendingInputId.length)
      (.valueError "pending_input_id must be a non-empty bounded string")
    raiseIf (pendingInputId ∈ seen.map Prod.fst) (.valueError "pending_input_id values must be unique")
    raiseIf (revision < 1) (.valueError "expected revision must be a positive integer")
    readExpectedRevisions (seen ++ [(pendingInputId, revision)]) rest

-- The loop of compare-and-set updates, from `position` on.
def moveRows (now : Int) (sessionKey : Text) : Int → List (Text × Int) → Store → Except Raised Store
  | _, [], store => .ok store
  | position, (pendingInputId, revision) :: rest, store => do
    let store ← orRaise (store.moveRow? now sessionKey pendingInputId revision position)
      (.pendingChatInputConflictError "pending input changed during reorder")
    moveRows now sessionKey (position + 1) rest store

def reorderPendingChatInputs (codec : PayloadCodec Payload) (now : Int) (sessionKey : Text)
    (expectedRevisions : List (Text × Int)) (store : Store) :
    Except Raised (Store × List (PendingChatInput Payload)) := do
  let sessionKey := canonicalizeSessionKey sessionKey
  raiseIf (¬(2 ≤ expectedRevisions.length ∧ expectedRevisions.length ≤ maxPendingChatInputs))
    (.valueError s!"expected_revisions must contain 2-{maxPendingChatInputs} rows")
  let revisions ← readExpectedRevisions [] expectedRevisions
  let current ← (store.orderedRows sessionKey).mapM (PendingChatInput.fromRow codec)
  -- as many rows as identifiers, none of them twice: one inclusion makes the two sets equal
  raiseIf (current.length ≠ revisions.length ∨
      ¬∀ row ∈ current, row.pendingInputId ∈ revisions.map Prod.fst)
    (.pendingChatInputConflictError "pending input set changed before reorder")
  raiseIf (¬∀ row ∈ current, (row.pendingInputId, row.stateRevision) ∈ revisions)
    (.pendingChatInputConflictError "pending input revision changed before reorder")
  let store ← moveRows now sessionKey 0 revisions store
  let reordered ← (store.orderedRows sessionKey).mapM (PendingChatInput.fromRow codec)
  return (store, reordered)

def otherSession (whose : String) : Raised :=
  .pendingChatInputConflictError s!"pending input {whose}belongs to a different session"

def cancelUnstaged (now : Int) (pendingInputId sessionKey : Text) (store : Store) :
    Except Raised (Store × Bool) :=
  match store.selectDispatchReceipt pendingInputId, store.selectCancellation pendingInputId with
  | some receipt, _ => do
    raiseIf (receipt.sessionKey ≠ sessionKey) (otherSession "dispatch ")
    return (store, false)
  | none, some cancellation => do
    raiseIf (cancellation.sessionKey ≠ sessionKey) (otherSession "cancellation ")
    return (store, false)
  | none, none => do
    let store ← store.insertCancellation ⟨pendingInputId, sessionKey, now⟩
    return (store, false)

/-- The tombstone of a cancellation, unless there is a dispatch receipt or a tombstone already. -/
def buryStaged (now : Int) (pendingInputId sessionKey : Text) (store : Store) : Except Raised Store :=
  match store.selectDispatchReceipt pendingInputId, store.selectCancellation pendingInputId with
  | some receipt, _ => do
    raiseIf (receipt.sessionKey ≠ sessionKey) (otherSession "dispatch ")
    return store
  | none, some cancellation => do
    raiseIf (cancellation.sessionKey ≠ sessionKey) (otherSession "cancellation ")
    return store
  | none, none => store.insertCancellation ⟨pendingInputId, sessionKey, now⟩

def cancelPendingChatInput (codec : PayloadCodec Payload) (now : Int)
    (pendingInputId sessionKey : Text) (expectedRevision : Option Int) (store : Store) :
    Except Raised (Store × Bool) := do
  let pendingInputId := strip pendingInputId
  let sessionKey := canonicalizeSessionKey sessionKey
  raiseIf (∃ revision ∈ expectedRevision, revision < 1)
    (.valueError "expected_revision must be a positive integer")
  match ← store.selectPendingChatInput codec pendingInputId with
  | none => cancelUnstaged now pendingInputId sessionKey store
  | some existing =>
    raiseIf (existing.sessionKey ≠ sessionKey) (otherSession "")
    raiseIf (∃ revision ∈ expectedRevision, existing.stateRevision ≠ revision)
      (.pendingChatInputConflictError "pending input revision changed before cancellation")
    let store ← buryStaged now pendingInputId sessionKey store
    return (store.deletePending (fun row => row.pendingInputId = pendingInputId), true)

end OpenSquilla.PendingInputs
