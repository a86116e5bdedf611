import OpenSquilla.Plans.Record

set_option autoImplicit false

namespace OpenSquilla.Plans

open TextLines TextScan
open RaisingRuns (raiseIf raiseAny orRaise)
open PendingInputs (canonicalizeSessionKey)

abbrev Revision := PlanRevision PlanStep
abbrev Run := PlanRun StepState

-- The primary key and the unique indexes of `plan_revisions`.
def PlanRevision.Clashes {Step : Type} (one other : PlanRevision Step) : Prop :=
  one.revisionId = other.revisionId ∨
    (one.planId = other.planId ∧ one.generation = other.generation) ∨
    (one.sourceMessageId.isSome = true ∧ one.sourceSessionId = other.sourceSessionId ∧
      one.sourceMessageId = other.sourceMessageId)

instance {Step : Type} : DecidableRel (PlanRevision.Clashes : PlanRevision Step → PlanRevision Step → Prop) :=
  fun _ _ => inferInstanceAs (Decidable (_ ∨ _ ∨ _))

def PlanRun.Clashes {State : Type} (one other : PlanRun State) : Prop :=
  one.runId = other.runId ∨
    (one.sessionKey = other.sessionKey ∧ one.status.active = true ∧ other.status.active = true)

instance {State : Type} : DecidableRel (PlanRun.Clashes : PlanRun State → PlanRun State → Prop) :=
  fun _ _ => inferInstanceAs (Decidable (_ ∨ _))

instance {State : Type} : Std.Symm (PlanRun.Clashes : PlanRun State → PlanRun State → Prop) where
  symm one other clashes := by
    obtain same | ⟨same, first, second⟩ := clashes
    · exact .inl same.symm
    · exact .inr ⟨same.symm, second, first⟩

structure SessionRow where
  sessionId : Text
  epoch : Nat := 0
  activePlanRevisionId : Option Text := none
  collaborationRevision : Nat := 0
  updatedAt : Nat := 0
  totalTokens : Int := 0
  totalTokensFresh : Bool := true

structure Store where
  sessions : Dict Text SessionRow := Dict.empty
  revisions : Table (fun revision : Revision => revision) PlanRevision.Clashes := Table.empty
  runs : Table (fun run : Run => run) PlanRun.Clashes := Table.empty

namespace PlanRun

variable {State : Type}

def supersededBy (reason : Text) (timestamp : Nat) (run : PlanRun State) : PlanRun State :=
  { run with
    status := .superseded
    stateRevision := run.stateRevision + 1
    activeTaskId := none
    terminalReason := some reason
    updatedAt := timestamp
    finishedAt := some timestamp }

def queuedAgain (taskId : Text) (timestamp : Nat) (run : PlanRun State) : PlanRun State :=
  { run with
    status := .queued
    stateRevision := run.stateRevision + 1
    activeTaskId := some taskId
    pauseReason := none
    terminalReason := none
    updatedAt := timestamp }

def started (taskId : Text) (timestamp : Nat) (run : PlanRun State) : PlanRun State :=
  { run with
    status := .running
    stateRevision := run.stateRevision + 1
    activeTaskId := some taskId
    pauseReason := none
    terminalReason := none
    startedAt := some (run.startedAt.getD timestamp)
    updatedAt := timestamp }

def completed (timestamp : Nat) (run : PlanRun State) : PlanRun State :=
  { run with
    status := .completed
    stateRevision := run.stateRevision + 1
    activeTaskId := none
    pauseReason := none
    terminalReason := none
    updatedAt := timestamp
    finishedAt := some timestamp }

def pausedFor (reason : Text) (timestamp : Nat) (run : PlanRun State) : PlanRun State :=
  { run with
    status := .paused
    stateRevision := run.stateRevision + 1
    activeTaskId := none
    pauseReason := some reason
    updatedAt := timestamp }

def cancelledFor (reason : Text) (timestamp : Nat) (run : PlanRun State) : PlanRun State :=
  { run with
    status := .cancelled
    stateRevision := run.stateRevision + 1
    activeTaskId := none
    terminalReason := some reason
    updatedAt := timestamp
    finishedAt := some timestamp }

end PlanRun

structure TranscriptEntry where
  sessionKey : Text
  sessionId : Text
  messageId : Text
  role : Text
  tokenCount : Option Int := none
  hasTurnUsage : Bool := false

structure AppendPlanRevision where
  entry : TranscriptEntry
  revision : PlanRevision RawStep
  expectedParentRevisionId : Option Text
  updatedAt : Option Nat := none
  tokenDelta : Option Int := none
  markTotalTokensStale : Option Bool := none
  -- what the insertion of the entry under the expected epoch raises
  insertion : Option Raised := none

/-- The transcript entry that comes with a revision, and what it adds to the session. -/
structure TranscriptPart where
  entry : TranscriptEntry
  insertion : Option Raised
  updatedAt : Option Nat
  tokenDelta : Int
  markTotalTokensStale : Bool

structure PausePlanRun where
  runId : Text
  expectedStateRevision : Nat
  reason : Text
  expectedActiveTaskId : Option Text := none
  expectedDriverKind : Option DriverKind := none
  expectedDriverId : Option Text := none
  now : Nat

structure CancelPlanRun where
  runId : Text
  expectedStateRevision : Nat
  reason : Text
  expectedActiveTaskId : Option Text := none
  now : Nat

structure ResetSession where
  sessionKey : Text
  node : SessionRow
  expectedSessionId : Text
  expectedEpoch : Nat
  now : Nat
  -- what the archive or the purge raises
  archive : Option Raised := none

namespace Store

def selectRevision (revisionId : Text) (store : Store) : Option Revision :=
  store.revisions.rows.find? (fun revision => revision.revisionId = revisionId)

def selectRun (runId : Text) (store : Store) : Option Run :=
  store.runs.rows.find? (fun run => run.runId = runId)

def updateRuns (chosen : Run → Bool) (f : Run → Run) (store : Store) : Except Raised Store := do
  let rows ← orRaise (store.runs.updateWhere? chosen f) .integrityError
  return { store with runs := rows }

def updateOneRun (chosen : Run → Bool) (f : Run → Run) (missed : Raised) (store : Store) :
    Except Raised Store := do
  raiseIf (store.runs.rows.any chosen = false) missed
  store.updateRuns chosen f

def insertRun (run : Run) (store : Store) : Except Raised Store := do
  let rows ← orRaise (store.runs.insert? run) .integrityError
  return { store with runs := rows }

def insertRevision (revision : Revision) (store : Store) : Except Raised Store := do
  let rows ← orRaise (store.revisions.insert? revision) .integrityError
  return { store with revisions := rows }

def updatedRun (runId : Text) (store : Store) : Except Raised (Run × Store) := do
  let run ← orRaise (store.selectRun runId) (.other "assert updated is not None")
  return (run, store)

-- The active run of the session, the newest if there were more.
def activeRun (sessionKey : Text) (store : Store) : Option Run :=
  store.runs.rows.find? (fun run => run.sessionKey = sessionKey && run.status.active)

/-- The session row, while it has the identity and the epoch that the caller expects. -/
def currentSession (sessionKey sessionId : Text) (epoch : Nat) (store : Store) : Except Raised SessionRow := do
  let row ← orRaise (store.sessions.get? sessionKey)
    (.keyError ("Session not found: " ++ String.ofList sessionKey))
  raiseIf (row.sessionId ≠ sessionId ∨ row.epoch ≠ epoch)
    (.staleEpochError sessionKey epoch (some (row.sessionId, row.epoch)))
  return row

def findIdempotentPlanRevision (revision : Revision) (store : Store) : Except Raised (Option Revision) :=
  let byMessage := if revision.sourceMessageId.any (· ≠ []) then
      store.revisions.rows.find? (fun other => other.sourceSessionId = revision.sourceSessionId &&
        other.sourceMessageId = revision.sourceMessageId)
    else none
  match (store.selectRevision revision.revisionId).or byMessage with
  | none => .ok none
  | some existing => do
    raiseIf (existing.contentHash ≠ revision.contentHash ∨
        existing.parentRevisionId ≠ revision.parentRevisionId ∨
        existing.sourceSessionKey ≠ revision.sourceSessionKey ∨
        existing.sourceSessionId ≠ revision.sourceSessionId ∨ existing.sourceEpoch ≠ revision.sourceEpoch)
      (.planConflictError "revision identity was already used for different plan content")
    return some existing

def checkLineage (revision : Revision) (expectedParentRevisionId : Option Text) (store : Store) :
    Except Raised Unit :=
  match expectedParentRevisionId with
  | none => raiseIf (revision.generation ≠ 1)
      (.planValidationError "an initial plan revision must use generation 1")
  | some parentId => do
    let parent ← orRaise (store.selectRevision parentId)
      (.planConflictError "parent plan revision no longer exists")
    raiseIf (revision.planId ≠ parent.planId) (.planValidationError "a replan must preserve plan_id")
    raiseIf (revision.generation ≠ parent.generation + 1)
      (.planValidationError "a replan generation must immediately follow its parent")

def checkTranscript (revision : Revision) : Option TranscriptPart → Except Raised Unit
  | none => .ok ()
  | some part => do
    raiseIf (part.entry.sessionKey ≠ revision.sourceSessionKey ∨
        part.entry.sessionId ≠ revision.sourceSessionId)
      (.planValidationError "plan revision and transcript entry must target the same session")
    raiseIf (part.entry.role ≠ "assistant".toList)
      (.planValidationError "a durable plan revision must be attached to an assistant entry")
    raiseIf (revision.sourceMessageId ≠ none ∧ revision.sourceMessageId ≠ some part.entry.messageId)
      (.planValidationError "source_message_id must match the assistant transcript entry")
    raiseAny part.insertion

def SessionRow.activated (revision : Revision) (part : Option TranscriptPart) (row : SessionRow) : SessionRow :=
  { row with
    activePlanRevisionId := some revision.revisionId
    collaborationRevision := row.collaborationRevision + 1
    updatedAt := max row.updatedAt ((part.bind TranscriptPart.updatedAt).getD revision.createdAt)
    totalTokens := row.totalTokens + part.elim 0 TranscriptPart.tokenDelta
    totalTokensFresh := if part.any TranscriptPart.markTotalTokensStale then false else row.totalTokensFresh }

def supersedeRun (reason : Text) (timestamp : Nat) (run : Option Run) (store : Store) : Except Raised Store :=
  match run with
  | none => .ok store
  | some run => store.updateRuns (fun row => row.runId = run.runId) (·.supersededBy reason timestamp)

def insertPlanRevision (revision : Revision) (expectedParentRevisionId : Option Text)
    (part : Option TranscriptPart) (store : Store) : Except Raised (Revision × Store) := do
  let row ← store.currentSession revision.sourceSessionKey revision.sourceSessionId revision.sourceEpoch
  raiseIf (row.activePlanRevisionId ≠ expectedParentRevisionId)
    (.planConflictError "active plan revision changed before the revision was committed")
  raiseIf (revision.parentRevisionId ≠ expectedParentRevisionId)
    (.planValidationError "revision parent must match expected_parent_revision_id")
  let active := store.activeRun revision.sourceSessionKey
  raiseIf (active.any (fun run => run.status = .queued || run.status = .running) = true)
    (.planRunConflictError "cannot replace a plan while its implementation task is active")
  store.checkLineage revision expectedParentRevisionId
  checkTranscript revision part
  let store ← store.insertRevision revision
  let store := { store with
    sessions := store.sessions.set revision.sourceSessionKey (SessionRow.activated revision part row) }
  let store ← store.supersedeRun "superseded_by_new_revision".toList
    ((part.bind TranscriptPart.updatedAt).getD revision.createdAt) active
  return (revision, store)

def createPlanRevisionOnConn (revision : Revision) (expectedParentRevisionId : Option Text)
    (part : Option TranscriptPart) (store : Store) : Except Raised (Revision × Store) := do
  match ← store.findIdempotentPlanRevision revision with
  | some existing => return (existing, store)
  | none => store.insertPlanRevision revision expectedParentRevisionId part

section Hash

variable (planContentHash : Text → Text → List PlanStep → Text)

def prepareForSession (revision : PlanRevision RawStep) : Except Raised Revision := do
  let prepared ← preparePlanRevision planContentHash revision
  return { prepared with sourceSessionKey := canonicalizeSessionKey prepared.sourceSessionKey }

def createPlanRevision (revision : PlanRevision RawStep) (expectedParentRevisionId : Option Text)
    (store : Store) : Except Raised (Revision × Store) := do
  let prepared ← prepareForSession planContentHash revision
  store.createPlanRevisionOnConn prepared expectedParentRevisionId none

def appendPlanRevision (append : AppendPlanRevision) (store : Store) : Except Raised (Revision × Store) := do
  let prepared ← prepareForSession planContentHash append.revision
  let counted := if append.entry.hasTurnUsage then 0 else append.entry.tokenCount.getD 0
  let tokenDelta := append.tokenDelta.getD counted
  store.createPlanRevisionOnConn prepared append.expectedParentRevisionId (some {
    entry := { append.entry with sessionKey := canonicalizeSessionKey append.entry.sessionKey }
    insertion := append.insertion
    updatedAt := append.updatedAt
    tokenDelta := tokenDelta
    markTotalTokensStale := append.markTotalTokensStale.getD (tokenDelta ≠ 0) })

end Hash

/-- A start that names a run that is there: the run is answered, or a paused one is queued again. -/
def resumePlanRun (existing : Run) (run : PlanRun RawStepState) (now : Nat) (store : Store) :
    Except Raised (Run × Store) := do
  raiseIf (existing.sessionKey ≠ run.sessionKey ∨ existing.sessionId ≠ run.sessionId ∨
      existing.sessionEpoch ≠ run.sessionEpoch ∨ existing.planRevisionId ≠ run.planRevisionId)
    (.planRunConflictError "run_id was already used for a different plan run")
  raiseIf (existing.driverKind ≠ run.driverKind ∨ existing.driverId ≠ run.driverId)
    (.planRunConflictError "plan run is owned by a different execution driver")
  let incomingTaskId := strip (run.activeTaskId.getD [])
  if incomingTaskId = [] then return (existing, store)
  else if existing.status = .paused ∨ existing.status = .blocked then do
    raiseIf (run.stateRevision ≠ existing.stateRevision)
      (.planRunConflictError "the paused plan run changed before it was queued")
    let store ← store.updateOneRun
      (fun row => row.runId = run.runId && row.stateRevision = existing.stateRevision)
      (·.queuedAgain incomingTaskId now)
      (.planRunConflictError "the paused plan run changed before it was queued")
    store.updatedRun run.runId
  else if existing.status = .queued ∧ existing.activeTaskId = some incomingTaskId then
    return (existing, store)
  else throw (.planRunConflictError
    ("cannot attach a task to a " ++ existing.status.value ++ " plan run"))

def newestTimestamp (sessionKey : Text) (createdAt now : Nat) (store : Store) : Nat :=
  (store.runs.rows.filter (fun run => run.sessionKey = sessionKey)).foldl
    (fun newest run => max newest (run.createdAt + 1)) (max createdAt now)

-- What lets the active run of the session not be replaced by a new one.
def checkReplaceable (prepared : Run) : Option Run → Except Raised Unit
  | none => .ok ()
  | some active => do
    raiseIf (active.status = .queued ∨ active.status = .running)
      (.planRunConflictError "an implementation task is already queued or running")
    raiseIf (active.driverKind ≠ prepared.driverKind ∨
        active.driverId.filter (· ≠ []) ≠ prepared.driverId)
      (.planRunConflictError "the active plan run is owned by a different execution driver")
    raiseIf (active.driverKind = .goal)
      (.planRunConflictError "an active Goal plan run must be resumed by its existing run_id")

def insertPlanRun (run : PlanRun RawStepState) (now : Nat) (store : Store) : Except Raised (Run × Store) := do
  let row ← store.currentSession run.sessionKey run.sessionId run.sessionEpoch
  raiseIf (row.activePlanRevisionId ≠ some run.planRevisionId)
    (.planConflictError "only the current plan revision can be implemented")
  let revision ← orRaise (store.selectRevision run.planRevisionId)
    (.planConflictError "plan revision no longer exists")
  let prepared ← preparePlanRun run revision
  let active := store.activeRun run.sessionKey
  raiseIf (prepared.supersedesRunId ≠ none ∧ prepared.supersedesRunId ≠ active.map PlanRun.runId)
    (.planRunConflictError "the active run changed before implementation")
  let timestamp := store.newestTimestamp run.sessionKey prepared.createdAt now
  checkReplaceable prepared active
  let store ← store.supersedeRun "superseded_by_new_run".toList timestamp active
  let prepared := { prepared with
    supersedesRunId := active.map PlanRun.runId
    createdAt := timestamp
    updatedAt := timestamp }
  let store ← store.insertRun prepared
  return (prepared, store)

def startPlanRun (run : PlanRun RawStepState) (now : Nat) (store : Store) : Except Raised (Run × Store) :=
  let run := { run with sessionKey := canonicalizeSessionKey run.sessionKey }
  match store.selectRun run.runId with
  | some existing => store.resumePlanRun existing run now
  | none => store.insertPlanRun run now

def supersedeActivePlanRuns (sessionKey reason : Text) (timestamp : Nat) (store : Store) :
    Except Raised Store :=
  store.updateRuns (fun run => run.sessionKey = canonicalizeSessionKey sessionKey && run.status.active)
    (·.supersededBy reason timestamp)

def loadPlanRunForCas (runId : Text) (expectedStateRevision : Nat) (store : Store) :
    Except Raised (Run × SessionRow) := do
  let run ← orRaise (store.selectRun runId) (.keyError ("Plan run not found: " ++ String.ofList runId))
  raiseIf (run.stateRevision ≠ expectedStateRevision)
    (.planRunConflictError "plan run state changed before the update")
  let stale := Raised.planRunConflictError "plan run belongs to a stale session epoch"
  let row ← orRaise (store.sessions.get? run.sessionKey) stale
  raiseIf (row.sessionId ≠ run.sessionId ∨ row.epoch ≠ run.sessionEpoch) stale
  return (run, row)

def casRow (runId : Text) (expectedStateRevision : Nat) (row : Run) : Bool :=
  row.runId = runId && row.stateRevision = expectedStateRevision

def casMissed : Raised := .planRunConflictError "plan run state changed before the update"

def markPlanRunRunning (runId : Text) (expectedStateRevision : Nat) (activeTaskId : Text) (now : Nat)
    (store : Store) : Except Raised (Run × Store) := do
  raiseIf (activeTaskId = []) (.planValidationError "active_task_id is required")
  let (run, row) ← store.loadPlanRunForCas runId expectedStateRevision
  -- the run of a revision that is no longer the active one, whatever its status
  if row.activePlanRevisionId ≠ some run.planRevisionId then do
    let store ← store.updateRuns (casRow runId expectedStateRevision)
      (·.supersededBy "stale_plan_revision".toList now)
    store.updatedRun runId
  else do
    raiseIf (¬(run.status = .queued ∨ run.status = .paused ∨ run.status = .blocked))
      (.planRunConflictError ("cannot mark a " ++ run.status.value ++ " plan run as running"))
    raiseIf (run.activeTaskId ≠ none ∧ run.activeTaskId ≠ some activeTaskId)
      (.planRunConflictError "plan run is owned by another task")
    let store ← store.updateOneRun (casRow runId expectedStateRevision) (·.started activeTaskId now)
      casMissed
    store.updatedRun runId

def completePlanRun (runId : Text) (expectedStateRevision : Nat) (expectedActiveTaskId : Text) (now : Nat)
    (store : Store) : Except Raised (Run × Store) := do
  raiseIf (expectedActiveTaskId = []) (.planValidationError "expected_active_task_id is required")
  let (run, _) ← store.loadPlanRunForCas runId expectedStateRevision
  raiseIf (run.status ≠ .running)
    (.planRunConflictError ("cannot complete a " ++ run.status.value ++ " plan run"))
  raiseIf (run.activeTaskId ≠ some expectedActiveTaskId)
    (.planRunConflictError "plan run is owned by another task")
  let store ← store.updateOneRun
    (fun row => casRow runId expectedStateRevision row && row.status = .running &&
      row.activeTaskId = some expectedActiveTaskId)
    (·.completed now) casMissed
  store.updatedRun runId

def pausePlanRun (pause : PausePlanRun) (store : Store) : Except Raised (Run × Store) := do
  let reason := strip pause.reason
  raiseIf (reason = []) (.planValidationError "pause reason is required")
  let (run, _) ← store.loadPlanRunForCas pause.runId pause.expectedStateRevision
  raiseIf (¬(run.status = .queued ∨ run.status = .running ∨ run.status = .blocked))
    (.planRunConflictError ("cannot pause a " ++ run.status.value ++ " plan run"))
  raiseIf (pause.expectedActiveTaskId ≠ none ∧ run.activeTaskId ≠ pause.expectedActiveTaskId)
    (.planRunConflictError "plan run is owned by another task")
  raiseIf (pause.expectedDriverKind ≠ none ∧ some run.driverKind ≠ pause.expectedDriverKind)
    (.planRunConflictError "plan run is owned by a different execution driver")
  raiseIf (pause.expectedDriverId ≠ none ∧ run.driverId ≠ pause.expectedDriverId)
    (.planRunConflictError "plan run is owned by a different execution driver")
  let store ← store.updateOneRun (casRow pause.runId pause.expectedStateRevision)
    (·.pausedFor reason pause.now) casMissed
  store.updatedRun pause.runId

def cancelPlanRun (cancel : CancelPlanRun) (store : Store) : Except Raised (Run × Store) := do
  let reason := strip cancel.reason
  raiseIf (reason = []) (.planValidationError "cancel reason is required")
  let (run, _) ← store.loadPlanRunForCas cancel.runId cancel.expectedStateRevision
  raiseIf (run.status.active = false)
    (.planRunConflictError ("cannot cancel a " ++ run.status.value ++ " plan run"))
  raiseIf (cancel.expectedActiveTaskId ≠ none ∧ run.activeTaskId ≠ cancel.expectedActiveTaskId)
    (.planRunConflictError "plan run is owned by another task")
  let store ← store.updateOneRun (casRow cancel.runId cancel.expectedStateRevision)
    (·.cancelledFor reason cancel.now) casMissed
  store.updatedRun cancel.runId

-- The rotation of a session, as far as it concerns plans.
def resetSession (reset : ResetSession) (store : Store) : Except Raised Store := do
  let sessionKey := canonicalizeSessionKey reset.sessionKey
  raiseIf (reset.expectedSessionId = []) (.valueError "expected_session_id is required")
  raiseIf (reset.node.sessionId = reset.expectedSessionId) (.valueError "reset session id must change")
  raiseIf (reset.node.epoch ≠ reset.expectedEpoch + 1)
    (.valueError "reset epoch must advance exactly once")
  let found := store.sessions.get? sessionKey
  raiseIf (found.all (fun row => row.sessionId ≠ reset.expectedSessionId || row.epoch ≠ reset.expectedEpoch)
      = true)
    (.staleEpochError sessionKey reset.expectedEpoch (found.map (fun row => (row.sessionId, row.epoch))))
  raiseAny reset.archive
  let store := { store with sessions := store.sessions.set sessionKey reset.node }
  store.updateRuns (fun run => run.sessionKey = sessionKey && run.status.active)
    (·.supersededBy "session_reset".toList reset.now)

end Store

inductive PlanOp
  | createPlanRevision (revision : PlanRevision RawStep) (expectedParentRevisionId : Option Text)
  | appendPlanRevision (append : AppendPlanRevision)
  | startPlanRun (run : PlanRun RawStepState) (now : Nat)
  | markPlanRunRunning (runId : Text) (expectedStateRevision : Nat) (activeTaskId : Text) (now : Nat)
  | completePlanRun (runId : Text) (expectedStateRevision : Nat) (expectedActiveTaskId : Text) (now : Nat)
  | pausePlanRun (pause : PausePlanRun)
  | cancelPlanRun (cancel : CancelPlanRun)
  | supersedeActivePlanRuns (sessionKey reason : Text) (timestamp : Nat)
  | resetSession (reset : ResetSession)

namespace Store

variable (planContentHash : Text → Text → List PlanStep → Text)

def run (store : Store) : PlanOp → Except Raised Store
  | .createPlanRevision revision expectedParentRevisionId =>
    (store.createPlanRevision planContentHash revision expectedParentRevisionId).map Prod.snd
  | .appendPlanRevision append => (store.appendPlanRevision planContentHash append).map Prod.snd
  | .startPlanRun run now => (store.startPlanRun run now).map Prod.snd
  | .markPlanRunRunning runId expectedStateRevision activeTaskId now =>
    (store.markPlanRunRunning runId expectedStateRevision activeTaskId now).map Prod.snd
  | .completePlanRun runId expectedStateRevision expectedActiveTaskId now =>
    (store.completePlanRun runId expectedStateRevision expectedActiveTaskId now).map Prod.snd
  | .pausePlanRun pause => (store.pausePlanRun pause).map Prod.snd
  | .cancelPlanRun cancel => (store.cancelPlanRun cancel).map Prod.snd
  | .supersedeActivePlanRuns sessionKey reason timestamp =>
    store.supersedeActivePlanRuns sessionKey reason timestamp
  | .resetSession reset => store.resetSession reset

def step (store : Store) (op : PlanOp) : Store :=
  match store.run planContentHash op with
  | .ok next => next
  | .error _ => store

end Store

end OpenSquilla.Plans
