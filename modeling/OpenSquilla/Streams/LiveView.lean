import Mathlib.Data.Finset.Basic
import OpenSquilla.Streams.Payload

set_option autoImplicit false

namespace OpenSquilla.Streams

/-- What the registry keeps under one session key. A map entry that is only ever read with a
default is that value; `events`, `liveEvents` and `liveTask` are also tested for presence. -/
structure SessionStream where
  sessionKey : String
  streamGeneration : String
  maxEventsPerSession : Nat
  seq : Nat := 0
  events : Option (List BufferedSessionEvent) := none
  liveEvents : Option (List BufferedSessionEvent) := none
  manualCompactions : Dict String (List BufferedSessionEvent) := .empty
  sessionEpoch : Option Int := none
  liveTask : Option (Option String) := none
  liveGenerationEpoch : Option Int := none
  liveAttemptPrefix : Option (String × List BufferedSessionEvent) := none
  completedEvents : List BufferedSessionEvent := []
  resetStreamSeqs : List Nat := []
  resetEvents : List BufferedSessionEvent := []
  replayCached : Bool := false
  replayFloor : Nat := 0
  scopedReplayFloor : Nat := 0
  replayResetBoundary : Option BufferedSessionEvent := none
  unpersistedTasks : Finset String := ∅
  persistedTask : Option String := none
  -- every event that entered the replay buffer, in order; no operation reads it
  recorded : List BufferedSessionEvent := []

/-- Replace the first entry that `found` selects, giving up at one that `stop` selects. -/
def replaceFirst (stop found : BufferedSessionEvent → Bool)
    (replace : BufferedSessionEvent → BufferedSessionEvent) :
    List BufferedSessionEvent → Option (List BufferedSessionEvent)
  | [] => none
  | event :: rest =>
    if stop event then none
    else if found event then some (replace event :: rest)
    else (replaceFirst stop found replace rest).map (event :: ·)

def replaceLast (stop found : BufferedSessionEvent → Bool)
    (replace : BufferedSessionEvent → BufferedSessionEvent) (events : List BufferedSessionEvent) :
    Option (List BufferedSessionEvent) :=
  (replaceFirst stop found replace events.reverse).map List.reverse

def atReset (event : BufferedSessionEvent) : Bool := isGenerationReset event.eventName

def endedAt (payload : Payload) : Option Int :=
  (payload.getAlias "ended_at" "endedAt").int?.or (payload.getAlias "emitted_at" "emittedAt").int?

def copyField (source : Payload) (payload : Payload) (field : String) : Payload :=
  match source.get? field with
  | some value => payload.set field value
  | none => payload

/-- `_replace_compacted_event`: the entry keeps its place and anchor and takes the text and
the latest boundary of the event. -/
def replaceCompactedEvent (field : String) (event existing : BufferedSessionEvent) : BufferedSessionEvent :=
  let payload := existing.payload.set field
    (.str (existing.payload.textAt field ++ event.payload.textAt field))
  let payload := (endedAt event.payload).elim payload (fun ended => payload.set "ended_at" (.int ended))
  { existing with
    payload := ["generation_epoch", "generationEpoch", "sequence"].foldl (copyField event.payload) payload }

/-- The fragment of a tool delta under the field name of the entry it is merged into. -/
def normalizeFragment (field : String) (event : BufferedSessionEvent) : BufferedSessionEvent :=
  let incoming := event.payload.deltaField
  if incoming = field then event
  else { event with
    payload := (event.payload.erase incoming).set field ((event.payload.get? incoming).getD (.str "")) }

def mergeFragment (event existing : BufferedSessionEvent) : BufferedSessionEvent :=
  let field := existing.payload.deltaField
  replaceCompactedEvent field (normalizeFragment field event) existing

def mergesEpoch (existing event : Payload) : Bool :=
  existing.generationEpoch = none || existing.generationEpoch = event.generationEpoch

def mergesThinking (event existing : BufferedSessionEvent) : Bool :=
  existing.eventName = event.eventName &&
    existing.payload.thinkingBlockId = event.payload.thinkingBlockId &&
    existing.payload.sameTextModelCall event.payload && mergesEpoch existing.payload event.payload

def mergesToolDelta (event existing : BufferedSessionEvent) : Bool :=
  existing.eventName = event.eventName && existing.payload.toolId = event.payload.toolId &&
    mergesEpoch existing.payload event.payload

-- A text delta is merged into an adjacent text delta only.
def mergesText (event existing : BufferedSessionEvent) : Bool :=
  existing.eventName = event.eventName && existing.payload.sameTextModelCall event.payload &&
    (existing.payload.get "presentation").equals (event.payload.get "presentation") &&
    Payload.compatible existing.payload.generationEpoch event.payload.generationEpoch

def sameText (field : String) (left right : Payload) : Bool :=
  (left.get field).textOrEmpty = (right.get field).textOrEmpty

def refreshesActivity (event existing : BufferedSessionEvent) : Bool :=
  existing.eventName = event.eventName && sameText "activity_id" existing.payload event.payload &&
    sameText "phase" existing.payload event.payload

def refreshActivity (event existing : BufferedSessionEvent) : BufferedSessionEvent :=
  let payload := (existing.payload.setAll event.payload).set "stream_seq" (.int existing.streamSeq)
  { existing with payload := copyField existing.payload payload "started_at" }

-- The entry an event is folded into, if the live view has one.
def compactInto (events : List BufferedSessionEvent) (event : BufferedSessionEvent) :
    Option (List BufferedSessionEvent) :=
  let anywhere : BufferedSessionEvent → Bool := fun _ => false
  if event.eventName = thinking then
    replaceLast atReset (mergesThinking event) (replaceCompactedEvent "text" event) events
  else if event.eventName = toolUseDelta then
    replaceLast atReset (mergesToolDelta event) (mergeFragment event) events
  else if event.eventName = textDelta then
    match events.getLast? with
    | some last =>
      if mergesText event last then
        some (events.dropLast ++ [replaceCompactedEvent "text" event last])
      else none
    | none => none
  else if event.eventName = toolInputPreview then
    replaceLast atReset
      (fun existing => existing.eventName = event.eventName &&
        (existing.payload.get "preview_id").equals (event.payload.get "preview_id"))
      (fun _ => event) events
  else if event.eventName = runHeartbeat then
    replaceLast anywhere (fun existing => existing.eventName = event.eventName) (fun _ => event) events
  else if event.eventName = providerActivity && event.payload.get "heartbeat" = .bool true then
    replaceLast anywhere (refreshesActivity event) (refreshActivity event) events
  else none

namespace SessionStream

def liveList (s : SessionStream) : List BufferedSessionEvent := s.liveEvents.getD []

def clearLiveState (s : SessionStream) : SessionStream :=
  { s with
    liveEvents := none
    liveTask := none
    liveGenerationEpoch := none
    liveAttemptPrefix := none }

def validCallReset (s : SessionStream) (event : BufferedSessionEvent) : Bool :=
  match (event.payload.get "old_generation_epoch").natural?,
      event.payload.resetNewGenerationEpoch, event.payload.get "rollback_model_call_id" with
  | some oldEpoch, some newEpoch, .str failedCallId =>
    let failedCallId := Payload.strip failedCallId
    if newEpoch ≤ oldEpoch || failedCallId = "" then false
    else if event.payload.taskId.isSome && event.payload.taskId ≠ s.liveTask.join then true
    else if s.liveAttemptPrefix.any (fun checkpoint => checkpoint.1 ≠ failedCallId) then false
    else s.liveGenerationEpoch.all (· = oldEpoch)
  | _, _, _ => false

def isCallReset (event : BufferedSessionEvent) : Bool :=
  event.payload.get "reset_scope" = .str "provider_call"

def bySeq (events : List BufferedSessionEvent) : List BufferedSessionEvent :=
  events.mergeSort (fun first second => first.streamSeq ≤ second.streamSeq)

def failedCallId (event : BufferedSessionEvent) : String :=
  match event.payload.get "rollback_model_call_id" with
  | .str raw => Payload.strip raw
  | _ => ""

-- What a reset of one provider call keeps of the live view.
def callResetPrefix (s : SessionStream) (event : BufferedSessionEvent) : List BufferedSessionEvent :=
  let kept := match s.liveAttemptPrefix.filter (fun checkpoint => checkpoint.1 = failedCallId event) with
    | some checkpoint =>
      -- completed effects settle independently of the model stream
      checkpoint.2 ++ s.liveList.filter (fun (item : BufferedSessionEvent) =>
        item.streamSeq ∉ checkpoint.2.map BufferedSessionEvent.streamSeq &&
          isCompletedTurnEvent item.eventName)
    | none => s.liveList.filter (fun item => item.payload.modelCallId ≠ failedCallId event)
  bySeq (kept.filter (fun item => item.eventName ≠ toolInputPreview))

def recordCallReset (s : SessionStream) (event : BufferedSessionEvent) : SessionStream :=
  let oldEpoch := event.payload.get "old_generation_epoch"
  match event.payload.resetNewGenerationEpoch with
  | none => s
  | some newEpoch =>
    if s.liveGenerationEpoch.any (fun current =>
        newEpoch ≤ current || !oldEpoch.equals (.int current)) then s
    else if failedCallId event = "" then s
    else
      { s with
        liveEvents := some (s.callResetPrefix event ++ [event])
        liveGenerationEpoch := some newEpoch
        liveAttemptPrefix := none }

def approvalId (event : BufferedSessionEvent) : Option String :=
  event.payload.identityValue ["approval_id", "approvalId"]

def answerResetPreserved (existing : List BufferedSessionEvent) (event : BufferedSessionEvent) :
    List BufferedSessionEvent :=
  let ofTurn := existing.filter (fun item => sameTurnIdentity item event)
  let started := (ofTurn.filter (fun item => item.eventName = toolUseStart)).map (·.payload.toolId)
  let completed := (ofTurn.filter (fun item =>
    item.eventName = toolUseEnd || item.eventName = toolResult && item.payload.toolId ∈ started)).map
      (·.payload.toolId)
  let resolved := (ofTurn.filter (fun item => item.eventName.endsWith ".approval.resolved")).map
    approvalId
  bySeq (ofTurn.filter (fun item =>
    isCompletedTurnEvent item.eventName || item.eventName = compaction ||
      (item.eventName.endsWith ".approval.requested" ||
        item.eventName.endsWith ".approval.resolved") && approvalId item ∈ resolved ||
      item.eventName ∈ [toolUseStart, toolUseDelta, toolUseEnd] && item.payload.toolId ∈ completed))

def recordGenerationReset (s : SessionStream) (event : BufferedSessionEvent) : SessionStream :=
  if isCallReset event then s.recordCallReset event
  else
    { s with
      liveEvents := some (answerResetPreserved s.liveList event ++ [event])
      liveGenerationEpoch := event.payload.resetNewGenerationEpoch
      liveAttemptPrefix := none }

/-- Manual maintenance lives beside the turn: its started event and the latest pulse. -/
def recordManualCompaction (s : SessionStream) (event : BufferedSessionEvent) : SessionStream :=
  match event.payload.identityValue ["compaction_id", "compactionId"] with
  | none => s
  | some operationId =>
    if (event.payload.get "status").textOrEmpty.toLower ∈ ["started", "observed", "running"] then
      let progress := (s.manualCompactions.get? operationId).getD []
      let progress := match progress with
        | first :: _ => if first.payload.get "status" = .str "started" then [first, event] else [event]
        | [] => [event]
      let operations := s.manualCompactions.set operationId progress
      { s with manualCompactions :=
        operations.dropOldest (operations.size - max 1 s.maxEventsPerSession) }
    else { s with manualCompactions := s.manualCompactions.erase operationId }

def advancedEpoch (current incoming : Option Int) : Option Int :=
  match current, incoming with
  | none, incoming => incoming
  | some current, some incoming => some (max current incoming)
  | some current, none => some current

-- The view that a failed call goes back to is the one before its first event.
def checkpointAttempt (s : SessionStream) (event : BufferedSessionEvent) : SessionStream :=
  let modelCallId := event.payload.modelCallId
  if modelCallId ≠ "" && event.eventName ∈ [textDelta, thinking, thinkingStart, thinkingEnd] &&
      !s.liveAttemptPrefix.any (fun checkpoint => checkpoint.1 = modelCallId) then
    { s with liveAttemptPrefix := some (modelCallId, s.liveList) }
  else s

def appendLive (s : SessionStream) (event : BufferedSessionEvent) : SessionStream :=
  let s := { s with
    liveGenerationEpoch := advancedEpoch s.liveGenerationEpoch event.payload.generationEpoch }
  if eventIsStaleGeneration event s.liveGenerationEpoch then s
  else
    let s := { s with liveEvents := some s.liveList }
    let s := s.checkpointAttempt event
    { s with liveEvents := some ((compactInto s.liveList event).getD (s.liveList ++ [event])) }

/-- A new task starts a live view of its own, also in place of taskless maintenance. -/
def enterTask (s : SessionStream) (task : Option String) : SessionStream :=
  match task with
  | some task =>
    let s := if s.liveTask.join = some task then s else s.clearLiveState
    { s with liveTask := some (some task) }
  | none => { s with liveTask := s.liveTask.or (some none) }

def recordLiveEvent (s : SessionStream) (event : BufferedSessionEvent) : SessionStream :=
  if isManualCompaction event.eventName event.payload then s.recordManualCompaction event
  else if event.eventName = turnCommitted then
    if event.payload.taskId ≠ none ∧ event.payload.taskId = s.liveTask.join then s.clearLiveState else s
  else
    let s := s.enterTask event.payload.taskId
    if event.eventName = done ∨ event.eventName = error then s.clearLiveState
    else if isGenerationReset event.eventName then s.recordGenerationReset event
    else s.appendLive event

-- The events of the compact materialized view of the active turn.
def liveSnapshot (s : SessionStream) : List BufferedSessionEvent :=
  bySeq (s.liveList ++ s.manualCompactions.values.flatten)

end SessionStream

end OpenSquilla.Streams
