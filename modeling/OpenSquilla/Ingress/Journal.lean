import Mathlib.Data.Finset.Basic
import Mathlib.Algebra.Order.Ring.Rat
import OpenSquilla.Shared.Dict
import OpenSquilla.Shared.TextLines

set_option autoImplicit false

namespace OpenSquilla.Ingress

open TextLines (orText)

abbrev Time := Rat

-- What is read of a metadata value: whether it is true, and its text.
structure MetadataValue where
  truthy : Bool
  text : String

structure IngressProvenance where
  provider : String := ""
  accountId : String := ""
  eventId : Option String := none

structure IncomingMessage where
  senderId : String
  channelId : String
  content : String := ""
  metadata : Dict String MetadataValue := Dict.empty
  provenance : IngressProvenance := {}

def nativeEventKeys : List String :=
  ["update_id", "event_id", "native_message_id", "message_id", "msg_id"]

def IncomingMessage.nativeEventId (message : IncomingMessage) : String :=
  orText (message.provenance.eventId.getD "")
    (((nativeEventKeys.filterMap message.metadata.get?).find? MetadataValue.truthy).elim ""
      MetadataValue.text)

def inboundEventKey (channelName : String) (message : IncomingMessage) : Option String :=
  if message.nativeEventId = "" then none
  else
    some (orText message.provenance.provider channelName ++ ":" ++
      orText message.provenance.accountId channelName ++ ":" ++ message.nativeEventId)

/-- The `state` column; `claim_token` and `claim_started_at` are NULL but in `processing`. -/
inductive IngressState
  | accepted
  | processing (claimToken : String) (claimStartedAt : Time)
  | completed
  deriving DecidableEq

def IngressState.claimToken : IngressState → Option String
  | .processing token _ => some token
  | .accepted | .completed => none

structure IngressRow where
  channelName : String
  accountId : String
  laneKey : String
  messageJson : String
  state : IngressState
  disposition : String := ""
  reason : String := ""
  attempts : Nat := 0
  lastError : String := ""
  acceptedAt : Time
  updatedAt : Time

namespace IngressRow

def process (now : Time) (token : String) (row : IngressRow) : IngressRow :=
  { row with state := .processing token now, attempts := row.attempts + 1, updatedAt := now }

def interrupted (channelName : String) (row : IngressRow) : Bool :=
  row.channelName = channelName && row.state.claimToken.isSome

def release (now : Time) (channelName : String) (row : IngressRow) : IngressRow :=
  if row.interrupted channelName then { row with state := .accepted, updatedAt := now } else row

end IngressRow

structure IngressClaim where
  eventKey : String
  claimToken : String
  deriving DecidableEq

-- The claim on an event that no row of the journal stands for.
def IngressClaim.passThrough : IngressClaim := ⟨"", ""⟩

-- `sqlite3.IntegrityError`, or any other `sqlite3.Error`.
inductive SqliteError
  | integrity
  | other
  deriving DecidableEq

inductive Statement
  | begin
  | insert
  | update
  | select
  | rollback
  | commit
  deriving DecidableEq

-- Which statements of a call fail of themselves, and how.
abbrev Faults := Statement → Option SqliteError

def noFaults : Faults := fun _ => none

def execute (faults : Faults) (statement : Statement) : Except SqliteError Unit :=
  match faults statement with
  | some fault => .error fault
  | none => .ok ()

-- `json.dump` and the model validation of the message library.
structure MessageCodec where
  dump : IncomingMessage → String
  validate : String → Option IncomingMessage

abbrev Journal := Dict String IngressRow

def Journal.insertRow (faults : Faults) (eventKey : String) (row : IngressRow) (journal : Journal) :
    Except SqliteError Journal := do
  execute faults .insert
  if (journal.get? eventKey).isSome then .error .integrity else .ok (journal.set eventKey row)

structure Store where
  channelIngress : Journal
  unjournaledEvents : Finset String := ∅
  -- the keys of the ordered dictionary, the oldest first
  claimedUnjournaledEvents : List String := []
  recoveredPendingVisibility : Finset String := ∅
  maxClaimedUnjournaledEvents : Nat := 10000

namespace Store

-- A store just opened on the journal an earlier process left.
def opened (journal : Journal) (bound : Nat) : Store :=
  { channelIngress := journal, maxClaimedUnjournaledEvents := bound }

def touchClaimed (store : Store) (eventKey : String) : Store :=
  { store with
    claimedUnjournaledEvents := store.claimedUnjournaledEvents.erase eventKey ++ [eventKey] }

def settle (store : Store) : Except SqliteError Journal → Store × Except SqliteError Unit
  | .ok journal => ({ store with channelIngress := journal }, .ok ())
  | .error fault => (store, .error fault)

def acceptedRow (codec : MessageCodec) (now : Time) (channelName : String)
    (message : IncomingMessage) : IngressRow where
  channelName := channelName
  accountId := orText message.provenance.accountId channelName
  laneKey := message.channelId ++ ":" ++ message.senderId
  messageJson := codec.dump message
  state := .accepted
  acceptedAt := now
  updatedAt := now

def claimedRow (codec : MessageCodec) (now : Time) (token channelName : String)
    (message : IncomingMessage) : IngressRow :=
  { acceptedRow codec now channelName message with state := .processing token now, attempts := 1 }

/-- After the row's own insertion was refused: a recovered row may become visible once. -/
def acceptDuplicate (faults : Faults) (eventKey : String) (store : Store) :
    Except SqliteError (Store × Bool) := do
  execute faults .rollback
  execute faults .select
  let accepted := (store.channelIngress.get? eventKey).any (·.state = .accepted)
  if accepted ∧ eventKey ∈ store.recoveredPendingVisibility then
    .ok ({ store with recoveredPendingVisibility := store.recoveredPendingVisibility.erase eventKey },
      true)
  else .ok (store, false)

def acceptJournaled (faults : Faults) (eventKey : String) (row : IngressRow) (store : Store) :
    Except SqliteError (Store × Bool) := do
  execute faults .begin
  match store.channelIngress.insertRow faults eventKey row with
  | .error .integrity => store.acceptDuplicate faults eventKey
  | .error .other => .error .other
  | .ok journal =>
    execute faults .commit
    .ok ({ store with channelIngress := journal }, true)

def acceptInbound (codec : MessageCodec) (faults : Faults) (now : Time) (channelName : String)
    (message : IncomingMessage) (store : Store) : Store × Bool :=
  match inboundEventKey channelName message with
  | none => (store, true)
  | some eventKey =>
    if eventKey ∈ store.claimedUnjournaledEvents then (store.touchClaimed eventKey, false)
    else if eventKey ∈ store.unjournaledEvents then (store, false)
    else
      match store.acceptJournaled faults eventKey (acceptedRow codec now channelName message) with
      | .ok answer => answer
      -- the journal could not be written: accepted in memory only
      | .error _ =>
        ({ store with unjournaledEvents := insert eventKey store.unjournaledEvents }, true)

-- The transaction that makes an event accepted in memory a durable claim.
def promote (faults : Faults) (eventKey : String) (row : IngressRow) (store : Store) :
    Except SqliteError Journal := do
  execute faults .begin
  let journal ← store.channelIngress.insertRow faults eventKey row
  execute faults .commit
  return journal

def forgetUnjournaled (store : Store) (eventKey : String) : Store :=
  { store with unjournaledEvents := store.unjournaledEvents.erase eventKey }

-- Remember the claimed event, and forget the oldest one beyond the bound.
def rememberClaimed (store : Store) (eventKey : String) : Store :=
  let remembered := if eventKey ∈ store.claimedUnjournaledEvents then store.claimedUnjournaledEvents
    else store.claimedUnjournaledEvents ++ [eventKey]
  let kept := if store.maxClaimedUnjournaledEvents < remembered.length then remembered.tail
    else remembered
  { store with claimedUnjournaledEvents := kept }

def claimUnjournaled (codec : MessageCodec) (faults : Faults) (now : Time) (token : String)
    (channelName : String) (message : IncomingMessage) (eventKey : String) (store : Store) :
    Store × Option IngressClaim :=
  match store.promote faults eventKey (claimedRow codec now token channelName message) with
  -- another writer made the event durable: its row decides
  | .error .integrity => (store.forgetUnjournaled eventKey, none)
  | .error .other =>
    ((store.forgetUnjournaled eventKey).rememberClaimed eventKey, some .passThrough)
  | .ok journal =>
    ({ store.forgetUnjournaled eventKey with channelIngress := journal }, some ⟨eventKey, token⟩)

def claimable (store : Store) (channelName eventKey : String) : Bool :=
  (store.channelIngress.get? eventKey).any fun row =>
    row.channelName = channelName ∧ row.state = .accepted

def takeAccepted (faults : Faults) (now : Time) (token channelName eventKey : String)
    (store : Store) : Except SqliteError (Option Journal) := do
  execute faults .begin
  execute faults .update
  if store.claimable channelName eventKey then
    execute faults .commit
    return some (store.channelIngress.modify eventKey (IngressRow.process now token))
  else
    execute faults .rollback
    return none

def claimAccepted (faults : Faults) (now : Time) (token channelName eventKey : String)
    (store : Store) : Store × Except SqliteError (Option IngressClaim) :=
  match store.takeAccepted faults now token channelName eventKey with
  | .error fault => (store, .error fault)
  | .ok none => (store, .ok none)
  | .ok (some journal) => ({ store with channelIngress := journal }, .ok (some ⟨eventKey, token⟩))

def claimInbound (codec : MessageCodec) (faults : Faults) (now : Time) (token channelName : String)
    (message : IncomingMessage) (store : Store) : Store × Except SqliteError (Option IngressClaim) :=
  match inboundEventKey channelName message with
  | none => (store, .ok (some .passThrough))
  | some eventKey =>
    if eventKey ∈ store.claimedUnjournaledEvents then (store.touchClaimed eventKey, .ok none)
    else if eventKey ∈ store.unjournaledEvents then
      let (store, claim) := store.claimUnjournaled codec faults now token channelName message eventKey
      (store, .ok claim)
    else store.claimAccepted faults now token channelName eventKey

def holds (store : Store) (claim : IngressClaim) : Bool :=
  (store.channelIngress.get? claim.eventKey).any (·.state.claimToken = some claim.claimToken)

-- An UPDATE of the row that the claim's token is on, in a transaction of its own.
def updateRow (faults : Faults) (claim : IngressClaim) (change : IngressRow → IngressRow)
    (store : Store) : Except SqliteError Journal := do
  execute faults .update
  execute faults .commit
  return store.channelIngress.modify claim.eventKey fun row =>
    if row.state.claimToken = some claim.claimToken then change row else row

def updateClaimed (faults : Faults) (claim : Option IngressClaim) (change : IngressRow → IngressRow)
    (store : Store) : Store × Except SqliteError Unit :=
  match claim with
  | none => (store, .ok ())
  | some claim =>
    if claim.eventKey = "" then (store, .ok ())
    else store.settle (store.updateRow faults claim change)

def completeInbound (faults : Faults) (now : Time) (claim : Option IngressClaim)
    (disposition reason : String) (scrubPayload : Bool) (store : Store) : Store × Except SqliteError Unit :=
  store.updateClaimed faults claim fun row =>
    { row with
      state := .completed, disposition := disposition, reason := reason
      messageJson := if scrubPayload then "\x7b\x7d" else row.messageJson, updatedAt := now }

def failInboundSnapshot (faults : Faults) (now : Time) (claim : Option IngressClaim)
    (errorType errorText : String) (store : Store) : Store × Except SqliteError Unit :=
  store.updateClaimed faults claim fun row =>
    { row with
      state := .accepted, lastError := String.ofList ((errorType ++ ": " ++ errorText).toList.take 2000)
      updatedAt := now }

def laneOrder (first second : String × IngressRow) : Bool :=
  first.2.laneKey < second.2.laneKey ||
    (first.2.laneKey = second.2.laneKey && first.2.acceptedAt ≤ second.2.acceptedAt)

def acceptedRows (channelName : String) (journal : Journal) : List (String × IngressRow) :=
  (journal.entries.filter fun entry =>
    entry.2.channelName = channelName ∧ entry.2.state = .accepted).mergeSort laneOrder

def recoverInbound (codec : MessageCodec) (faults : Faults) (now : Time) (channelName : String)
    (store : Store) : Store × Except SqliteError (List IncomingMessage) :=
  let journal := store.channelIngress.mapValues (IngressRow.release now channelName)
  let rows := acceptedRows channelName journal
  let selected : Except SqliteError Unit := do
    execute faults .begin
    execute faults .update
    execute faults .select
  match selected, execute faults .commit with
  | .error fault, _ => (store, .error fault)
  | .ok (), committed =>
    let visible := { store with
      recoveredPendingVisibility :=
        store.recoveredPendingVisibility ∪ (rows.map Prod.fst).toFinset }
    match committed with
    -- the rows go back, the permits stay
    | .error fault => (visible, .error fault)
    | .ok () => ({ visible with channelIngress := journal },
        .ok (rows.filterMap fun entry => codec.validate entry.2.messageJson))

end Store

end OpenSquilla.Ingress
