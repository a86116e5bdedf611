import OpenSquilla.PendingInputs.Store
import OpenSquilla.Shared.Dict

set_option autoImplicit false

namespace OpenSquilla.Plans

open TextLines TextScan
open RaisingRuns (raiseIf raiseAny orRaise)
open PendingInputs (canonicalizeSessionKey)

inductive PlanRunStatus
  | queued
  | running
  | paused
  | blocked
  | completed
  | cancelled
  | superseded
  deriving DecidableEq

namespace PlanRunStatus

def value : PlanRunStatus → String
  | queued => "queued"
  | running => "running"
  | paused => "paused"
  | blocked => "blocked"
  | completed => "completed"
  | cancelled => "cancelled"
  | superseded => "superseded"

def active : PlanRunStatus → Bool
  | queued | running | paused | blocked => true
  | completed | cancelled | superseded => false

def terminal : PlanRunStatus → Bool
  | completed | cancelled | superseded => true
  | queued | running | paused | blocked => false

theorem terminal_eq_not_active (status : PlanRunStatus) : status.terminal = !status.active := by
  cases status <;> rfl

end PlanRunStatus

inductive Raised
  | planValidationError (message : String)
  | planConflictError (message : String)
  | planRunConflictError (message : String)
  | keyError (message : String)
  | staleEpochError (sessionKey : Text) (expectedEpoch : Nat) (actual : Option (Text × Nat))
  | valueError (message : String)
  | integrityError
  | other (message : String)

inductive StepStatus
  | pending
  | inProgress
  | completed
  | blocked
  | skipped
  deriving DecidableEq

structure RawStep where
  -- `step_id`, else `stepId`
  stepId : Option Text := none
  title : Option Text := none
  details : Option Text := none

structure PlanStep where
  stepId : Text
  title : Text
  details : Option Text := none

structure RawStepState where
  stepId : Option Text := none
  status : StepStatus
  reason : Option Text := none

structure StepState where
  stepId : Text
  title : Text
  status : StepStatus
  reason : Option Text := none

structure PlanRevision (Step : Type) where
  revisionId : Text
  planId : Text
  parentRevisionId : Option Text := none
  generation : Nat := 1
  sourceSessionKey : Text
  sourceSessionId : Text
  sourceEpoch : Nat := 0
  sourceTurnId : Option Text := none
  sourceMessageId : Option Text := none
  title : Text
  markdown : Text
  steps : List Step
  contentHash : Text
  createdAt : Nat

inductive DriverKind
  | manual
  | goal
  deriving DecidableEq

structure PlanRun (State : Type) where
  runId : Text
  sessionKey : Text
  sessionId : Text
  sessionEpoch : Nat := 0
  planRevisionId : Text
  supersedesRunId : Option Text := none
  driverKind : DriverKind := .manual
  driverId : Option Text := none
  status : PlanRunStatus := .queued
  stepStates : List State := []
  currentStepId : Option Text := none
  stateRevision : Nat := 0
  activeTaskId : Option Text := none
  pauseReason : Option Text := none
  terminalReason : Option Text := none
  createdAt : Nat
  updatedAt : Nat
  startedAt : Option Nat := none
  finishedAt : Option Nat := none

def boundedText (value : Option Text) (field : String) (maximum : Nat) : Except Raised Text := do
  let value ← orRaise value (.planValidationError (field ++ " must be a string"))
  let normalized := strip value
  raiseIf (normalized = []) (.planValidationError (field ++ " must not be empty"))
  raiseIf (maximum < normalized.length)
    (.planValidationError (field ++ " exceeds " ++ toString maximum ++ " characters"))
  return normalized

def maxPlanSteps : Nat := 64
def maxPlanTitleChars : Nat := 512
def maxPlanMarkdownChars : Nat := 100000
def maxPlanStepIdChars : Nat := 128
def maxPlanStepTitleChars : Nat := 240
def maxPlanStepDetailsChars : Nat := 4000
def maxPlanStepReasonChars : Nat := 2000

def isAsciiAlnum (c : Char) : Bool :=
  ('A' ≤ c && c ≤ 'Z') || ('a' ≤ c && c ≤ 'z') || ('0' ≤ c && c ≤ '9')

def isStepId (text : Text) : Bool :=
  match text with
  | [] => false
  | first :: rest => isAsciiAlnum first && decide (rest.length ≤ maxPlanStepIdChars - 1) &&
      rest.all (fun c => isAsciiAlnum c || c = '.' || c = '_' || c = ':' || c = '-')

def stepField (index : Nat) (field : String) : String :=
  "steps[" ++ toString index ++ "]." ++ field

def normalizePlanStep (index : Nat) (seen : List Text) (raw : RawStep) : Except Raised PlanStep := do
  let stepId := strip (raw.stepId.getD ("step-" ++ toString (index + 1)).toList)
  raiseIf (isStepId stepId = false) (.planValidationError
    (stepField index "step_id must be 1-128 portable identifier characters"))
  raiseIf (stepId ∈ seen) (.planValidationError ("duplicate plan step id: " ++ String.ofList stepId))
  let title ← boundedText raw.title (stepField index "title") maxPlanStepTitleChars
  match raw.details with
  | none => return { stepId := stepId, title := title }
  | some details => do
    let details ← boundedText (some details) (stepField index "details") maxPlanStepDetailsChars
    return { stepId := stepId, title := title, details := some details }

def normalizePlanStepsFrom (index : Nat) (seen : List Text) : List RawStep → Except Raised (List PlanStep)
  | [] => .ok []
  | raw :: rest => do
    let step ← normalizePlanStep index seen raw
    let steps ← normalizePlanStepsFrom (index + 1) (step.stepId :: seen) rest
    return step :: steps

def normalizePlanSteps (steps : List RawStep) : Except Raised (List PlanStep) := do
  raiseIf (steps = []) (.planValidationError "a plan must contain at least one step")
  raiseIf (maxPlanSteps < steps.length) (.planValidationError "a plan may contain at most 64 steps")
  normalizePlanStepsFrom 0 [] steps

section Hash

-- `plan_content_hash`: the digest of the plan's canonical JSON
variable (planContentHash : Text → Text → List PlanStep → Text)

def preparePlanRevision (revision : PlanRevision RawStep) : Except Raised (PlanRevision PlanStep) := do
  let title ← boundedText (some revision.title) "title" maxPlanTitleChars
  let markdown ← boundedText (some revision.markdown) "markdown" maxPlanMarkdownChars
  let steps ← normalizePlanSteps revision.steps
  let expectedHash := planContentHash title markdown steps
  raiseIf (revision.contentHash ≠ [] ∧ revision.contentHash ≠ expectedHash)
    (.planValidationError "content_hash does not match the canonical plan body")
  raiseIf (revision.generation < 1) (.planValidationError "generation must be positive")
  raiseIf (revision.revisionId = [] ∨ revision.planId = [])
    (.planValidationError "revision_id and plan_id are required")
  raiseIf (revision.sourceSessionId = []) (.planValidationError "source_session_id is required")
  return { revision with
    title := title
    markdown := markdown
    steps := steps
    contentHash := expectedHash }

end Hash

def initialPlanStepStates (steps : List PlanStep) : List StepState :=
  steps.map (fun step => { stepId := step.stepId, title := step.title, status := .pending })

def normalizePlanStepState (index : Nat) (raw : RawStepState) (step : PlanStep) : Except Raised StepState := do
  raiseIf (raw.stepId ≠ some step.stepId)
    (.planValidationError "step_states must preserve revision step order and ids")
  let state : StepState := { stepId := step.stepId, title := step.title, status := raw.status }
  match raw.reason with
  | none => return state
  | some reason => do
    raiseIf (¬(raw.status = .blocked ∨ raw.status = .skipped))
      (.planValidationError "a step reason is valid only for blocked or skipped state")
    let reason ← boundedText (some reason) ("step_states[" ++ toString index ++ "].reason")
      maxPlanStepReasonChars
    return { state with reason := some reason }

def normalizePlanStepStates (states : List RawStepState) (steps : List PlanStep) :
    Except Raised (List StepState) := do
  raiseIf (states.length ≠ steps.length)
    (.planValidationError "step_states must cover every revision step exactly once")
  ((states.zip steps).zipIdx).mapM (fun ((raw, step), index) => normalizePlanStepState index raw step)

-- The tasks of a run are named by texts that are not blank.
def prepareActiveTaskId : Option Text → Except Raised (Option Text)
  | none => .ok none
  | some taskId => (boundedText (some taskId) "active_task_id" 256).map some

def preparePlanStepStates (states : List RawStepState) (steps : List PlanStep) :
    Except Raised (List StepState) :=
  if states = [] then .ok (initialPlanStepStates steps) else normalizePlanStepStates states steps

def preparePlanRun (run : PlanRun RawStepState) (revision : PlanRevision PlanStep) :
    Except Raised (PlanRun StepState) := do
  raiseIf (run.status ≠ .queued) (.planValidationError "a new plan run must start in queued status")
  raiseIf (run.planRevisionId ≠ revision.revisionId)
    (.planValidationError "plan run revision does not match the selected revision")
  raiseIf (run.runId = [] ∨ run.sessionId = [])
    (.planValidationError "run_id and session_id are required")
  raiseIf (run.driverKind = .goal ∧ run.driverId.all (· = []) = true)
    (.planValidationError "goal-driven runs require driver_id")
  raiseIf (run.stateRevision ≠ 0) (.planValidationError "a new plan run must start at state_revision 0")
  let activeTaskId ← prepareActiveTaskId run.activeTaskId
  let states ← preparePlanStepStates run.stepStates revision.steps
  raiseIf (states.any (fun state => state.status ≠ .pending) = true)
    (.planValidationError "a new plan run must start with pending steps")
  return { run with
    stepStates := states
    currentStepId := none
    activeTaskId := activeTaskId
    startedAt := none
    finishedAt := none
    pauseReason := none
    terminalReason := none }

end OpenSquilla.Plans
