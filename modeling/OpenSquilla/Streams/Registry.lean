import OpenSquilla.Shared.Runs
import OpenSquilla.Streams.LiveView

set_option autoImplicit false

namespace OpenSquilla.Streams

def jsMaxSafeInteger : Int := 2 ^ 53 - 1

def lossy (event : BufferedSessionEvent) : Bool := isReplayLossy event.eventName event.payload

def spared (event : BufferedSessionEvent) : Bool :=
  isGenerationReset event.eventName || isCompletedTurnEvent event.eventName

/-- Where the next event is dropped: the first lossy one, else the first one that is not
spared, else the first. -/
def evictionIndex (events : List BufferedSessionEvent) : Nat :=
  (events.findIdx? lossy).getD ((events.findIdx? (fun event => !spared event)).getD 0)

def recordScopedReplayEviction (floor : Nat) (event : BufferedSessionEvent) : Nat :=
  if event.payload.modelCallId ≠ "" then max floor event.streamSeq else floor

def trimOnce (floor : Nat) (events : List BufferedSessionEvent) : Nat × List BufferedSessionEvent :=
  match events[evictionIndex events]? with
  | some event => (recordScopedReplayEviction floor event, events.eraseIdx (evictionIndex events))
  | none => (floor, events)

def trimRounds : Nat → Nat → List BufferedSessionEvent → Nat × List BufferedSessionEvent
  | 0, floor, events => (floor, events)
  | rounds + 1, floor, events =>
    trimRounds rounds (trimOnce floor events).1 (trimOnce floor events).2

def trimSessionEvents (maxEvents floor : Nat) (events : List BufferedSessionEvent) :
    Nat × List BufferedSessionEvent := trimRounds (events.length - maxEvents) floor events

structure ReplayResult where
  currentStreamSeq : Nat
  replayComplete : Bool
  events : List BufferedSessionEvent
  gapReason : Option String := none

def replayGenerationEpoch (event : BufferedSessionEvent) (resets : List BufferedSessionEvent) : Option Int :=
  (resets.reverse.find? (fun reset =>
    reset.streamSeq < event.streamSeq && sameGenerationIdentity event reset)).bind
      (·.payload.resetNewGenerationEpoch)

def preserveCompletedBeforeReset (event reset : BufferedSessionEvent) : Bool :=
  event.eventName = turnCommitted || sameTurnIdentity event reset

namespace SessionStream

def bufferedEvents (s : SessionStream) : List BufferedSessionEvent := s.events.getD []

def boundaryFields : List String :=
  ["task_id", "taskId", "turn_id", "turnId", "assistant_message_id", "assistantMessageId",
    "new_generation_epoch", "newGenerationEpoch"]

def latestReset (s : SessionStream) : Option BufferedSessionEvent :=
  (bySeq s.resetEvents).getLast?

/-- Cache eviction keeps the sequence and the live state and makes every older cursor a gap. -/
def evictReplayCache (s : SessionStream) : SessionStream :=
  { s with
    replayFloor := s.seq
    replayResetBoundary := (s.latestReset.map (fun reset =>
      { reset with payload := reset.payload.filterKeys (· ∈ boundaryFields) })).or
        s.replayResetBoundary
    events := none
    completedEvents := []
    resetEvents := []
    resetStreamSeqs := [] }

/-- `evicts` is whether the byte budget drops this session when it is asked to admit it. -/
def refreshReplayBudget (s : SessionStream) (evicts : Bool) : SessionStream :=
  if s.persistedTask = none ∨ s.unpersistedTasks ≠ ∅ ∨ s.liveEvents ≠ none ∨ s.liveTask ≠ none ∨
      s.manualCompactions.entries ≠ [] then
    { s with replayCached := false }
  else if s.events = none then s
  else if evicts then { s.evictReplayCache with replayCached := false }
  else { s with replayCached := true }

def markTerminalPersisted (s : SessionStream) (taskId : String) (reconstructible evicts : Bool) :
    SessionStream :=
  if !reconstructible then s
  else
    { s with
      persistedTask := some taskId
      unpersistedTasks := s.unpersistedTasks.erase taskId }.refreshReplayBudget evicts

-- The budget drops the least recently used sessions when another one is admitted.
def budgetDropped (s : SessionStream) : SessionStream :=
  if s.replayCached then { s.evictReplayCache with replayCached := false } else s

def advanceSessionEpoch (s : SessionStream) (epoch : Int) : SessionStream :=
  if epoch ≤ s.sessionEpoch.getD (-1) then s
  else { s with sessionEpoch := some epoch, manualCompactions := .empty }

def promoteLegacyCursor (s : SessionStream) (sinceStreamSeq : Option Int) : Bool × SessionStream :=
  match sinceStreamSeq with
  | none => (false, s)
  | some since =>
    if ¬(0 ≤ since ∧ since < jsMaxSafeInteger) ∨ since ≤ s.seq then (false, s)
    else (true, { s with seq := since.toNat })

def enrich (s : SessionStream) (payload : Option Payload) (emittedAt : Int) : Payload :=
  (((((payload.getD .empty).set "session_key" (.str s.sessionKey)).set
    "stream_generation" (.str s.streamGeneration)).set "stream_seq" (.int (s.seq + 1))).set
    "emitted_at" (.int emittedAt))

def bufferEvent (s : SessionStream) (event : BufferedSessionEvent) : SessionStream :=
  let isReset := isGenerationReset event.eventName
  let completed := s.completedEvents ++ [event]
  let trimmed := trimSessionEvents s.maxEventsPerSession s.scopedReplayFloor
    (s.bufferedEvents ++ [event])
  { s with
    resetStreamSeqs :=
      if isReset then s.resetStreamSeqs ++ [event.streamSeq] else s.resetStreamSeqs
    resetEvents := if isReset then s.resetEvents ++ [event] else s.resetEvents
    completedEvents :=
      if isCompletedTurnEvent event.eventName then
        completed.drop (completed.length - s.maxEventsPerSession)
      else s.completedEvents
    scopedReplayFloor := trimmed.1
    events := some trimmed.2
    recorded := s.recorded ++ [event] }

/-- A delayed frame of a retired session epoch must not rebuild its maintenance snapshot. -/
def epochFenced (s : SessionStream) (eventName : String) (payload : Payload) : Bool :=
  isManualCompaction eventName payload &&
    s.sessionEpoch.any (fun current => !(payload.get "epoch").int?.any (current ≤ ·))

def noteUnpersisted (s : SessionStream) (event : BufferedSessionEvent) : SessionStream :=
  let manual := event.eventName = compaction && event.payload.get "source" = .str "manual"
  match event.payload.taskId with
  | some task =>
    if !manual && s.persistedTask ≠ some task then
      { s with unpersistedTasks := insert task s.unpersistedTasks }
    else s
  | none => s

/-- The state with the next sequence number taken and the session epoch of the payload seen. -/
def admitRecord (s : SessionStream) (enriched : Payload) : SessionStream :=
  let s := { s with seq := s.seq + 1 }
  (enriched.get "epoch").natural?.elim s s.advanceSessionEpoch

-- The event a record call makes, under the next sequence number.
def recordEvent (s : SessionStream) (eventName : String) (payload : Option Payload)
    (emittedAt : Int) : BufferedSessionEvent :=
  ⟨eventName, s.enrich payload emittedAt, s.seq + 1⟩

def publish (s : SessionStream) (event : BufferedSessionEvent) (evicts : Bool) : SessionStream :=
  (((s.bufferEvent event).recordLiveEvent event).noteUnpersisted event).refreshReplayBudget evicts

def record (s : SessionStream) (eventName : String) (payload : Option Payload) (emittedAt : Int)
    (evicts : Bool) : Option Payload × SessionStream :=
  let event := s.recordEvent eventName payload emittedAt
  let s := s.admitRecord event.payload
  if s.epochFenced eventName event.payload then (some event.payload, s)
  else if isGenerationReset eventName && isCallReset event && !s.validCallReset event then (none, s)
  else (some event.payload, s.publish event evicts)

def takeTerminalActivitySnapshot (s : SessionStream) (taskId : String) (durable : Bool) : SessionStream :=
  if s.liveTask.join = some taskId && durable then s.clearLiveState else s

def evict (s : SessionStream) : SessionStream where
  sessionKey := s.sessionKey
  streamGeneration := s.streamGeneration
  maxEventsPerSession := s.maxEventsPerSession

def gap (s : SessionStream) (reason : String) (events : List BufferedSessionEvent) : ReplayResult :=
  ⟨s.seq, false, events, some reason⟩

-- The result when the first retained sequence number and the scoped floor decide.
def windowed (s : SessionStream) (since : Int) (first : BufferedSessionEvent)
    (events : List BufferedSessionEvent) : ReplayResult :=
  let complete : Bool := (first.streamSeq : Int) - 1 ≤ since && (s.scopedReplayFloor : Int) ≤ since
  ⟨s.seq, complete, events, if complete then none else some "buffer_window_missed"⟩

def withoutRolledBack (s : SessionStream) (events : List BufferedSessionEvent) : List BufferedSessionEvent :=
  let callResets := s.resetEvents.filter isCallReset
  events.filter (fun event => !(isGenerationLossy event.eventName && callResets.any (fun reset =>
    sameGenerationIdentity event reset &&
      reset.payload.get "rollback_model_call_id" = .str event.payload.modelCallId)))

def generationResets (s : SessionStream) : List BufferedSessionEvent :=
  bySeq (s.resetEvents ++ s.replayResetBoundary.toList)

def staleInReplay (s : SessionStream) (event : BufferedSessionEvent) : Bool :=
  eventIsStaleGeneration event (replayGenerationEpoch event s.generationResets)

-- A call reset is skipped when a later epoch is already known.
def skipsReset (s : SessionStream) (event : BufferedSessionEvent) : Bool :=
  (replayGenerationEpoch event s.generationResets).any (fun epoch =>
    event.payload.resetNewGenerationEpoch.all (· ≤ epoch))

def after (since : Int) (events : List BufferedSessionEvent) : List BufferedSessionEvent :=
  events.filter (fun event => since < event.streamSeq)

-- Replay across generation resets: `events` are what is left of the buffer.
def replayAcrossResets (s : SessionStream) (since : Int) (first : BufferedSessionEvent)
    (events : List BufferedSessionEvent) (resetSeqs : List Nat) : ReplayResult :=
  let resetAt := fun (seq : Nat) => events.find? (fun event => event.streamSeq = seq)
  let answerResetSeqs := resetSeqs.filter (fun seq => (resetAt seq).any (fun event => !isCallReset event))
  let firstReset := (answerResetSeqs.head?.or resetSeqs.head?).bind resetAt
  if resetSeqs.any (fun seq => (resetAt seq).isNone) then
    s.gap "generation_reset_boundary_missed" (after since events)
  else
    match firstReset with
    | none => s.gap "generation_reset_boundary_missed" (after since events)
    | some reset =>
      if answerResetSeqs = [] then
        s.windowed since first ((after since events).filter (fun event =>
          !(if isGenerationReset event.eventName then s.skipsReset event else s.staleInReplay event)))
      else
        let before := fun (event : BufferedSessionEvent) =>
          decide (since < event.streamSeq) && decide (event.streamSeq < reset.streamSeq) &&
            preserveCompletedBeforeReset event reset
        let ofBuffer := events.filter (fun event =>
          isCompletedTurnEvent event.eventName && before event)
        let seqs := ofBuffer.map BufferedSessionEvent.streamSeq
        let ofCompleted := (s.completedEvents.filter before).filter (·.streamSeq ∉ seqs)
        ⟨s.seq, true,
          bySeq (ofCompleted ++ ofBuffer) ++ reset ::
            (events.filter (fun event => decide (reset.streamSeq < event.streamSeq) &&
              (isGenerationReset event.eventName || !s.staleInReplay event))),
          none⟩

def replay (s : SessionStream) (sinceStreamSeq : Option Int) (sinceStreamGeneration : Option String) :
    ReplayResult :=
  if sinceStreamGeneration.any (· ≠ s.streamGeneration) then s.gap "stream_generation_changed" []
  else
    match sinceStreamSeq with
    | none => ⟨s.seq, true, [], none⟩
    | some since =>
      if s.seq = 0 then
        ⟨0, since = 0, [], if since = 0 then none else some "stream_buffer_reset"⟩
      else if s.seq < since then s.gap "cursor_ahead_of_stream" []
      else if since = s.seq then ⟨s.seq, true, [], none⟩
      else if since < s.replayFloor then s.gap "buffer_window_missed" []
      else
        let resetSeqs := s.resetStreamSeqs.filter (fun (seq : Nat) => decide (since < seq))
        match s.bufferedEvents with
        | [] =>
          s.gap (if resetSeqs ≠ [] then "generation_reset_boundary_missed"
            else "stream_buffer_empty") []
        | first :: rest =>
          let events := s.withoutRolledBack (first :: rest)
          if resetSeqs ≠ [] then s.replayAcrossResets since first events resetSeqs
          else
            s.windowed since first ((after since events).filter (fun event =>
              isGenerationReset event.eventName || !s.staleInReplay event))

end SessionStream

-- The calls that act on one session, each with the answers it draws from outside.
inductive StreamOp
  | record (eventName : String) (payload : Option Payload) (emittedAt : Int) (evicts : Bool)
  | markTerminalPersisted (taskId : String) (reconstructible evicts : Bool)
  | budgetDropped
  | advanceSessionEpoch (epoch : Int)
  | promoteLegacyCursor (sinceStreamSeq : Option Int)
  | takeTerminalActivitySnapshot (taskId : String) (durable : Bool)
  | evict

namespace SessionStream

def step (s : SessionStream) : StreamOp → SessionStream
  | .record eventName payload emittedAt evicts => (s.record eventName payload emittedAt evicts).2
  | .markTerminalPersisted taskId reconstructible evicts =>
    s.markTerminalPersisted taskId reconstructible evicts
  | .budgetDropped => s.budgetDropped
  | .advanceSessionEpoch epoch => s.advanceSessionEpoch epoch
  | .promoteLegacyCursor sinceStreamSeq => (s.promoteLegacyCursor sinceStreamSeq).2
  | .takeTerminalActivitySnapshot taskId durable => s.takeTerminalActivitySnapshot taskId durable
  | .evict => s.evict

def init (sessionKey streamGeneration : String) (maxEventsPerSession : Nat) : SessionStream where
  sessionKey := sessionKey
  streamGeneration := streamGeneration
  maxEventsPerSession := maxEventsPerSession

end SessionStream

end OpenSquilla.Streams
