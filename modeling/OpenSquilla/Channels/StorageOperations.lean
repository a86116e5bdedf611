import OpenSquilla.Channels.TransportLease
import OpenSquilla.Ingress.Journal
import OpenSquilla.Shared.Connections
import OpenSquilla.Shared.TextScan

set_option autoImplicit false

-- All of them share one connection. An operation may raise at each place behind its `BEGIN`, in
-- the arguments of a statement or in the statement itself.

namespace OpenSquilla.Channels.Storage

open Connections
open Ingress (IncomingMessage IngressRow IngressClaim Journal MessageCodec inboundEventKey)
open TextLines (orText)

/-- `sqlite3.IntegrityError`, another `sqlite3.Error`, or an exception of another kind. -/
inductive Fault
  | integrity
  | sqlite
  | other

inductive Point
  | select
  | compare
  | count
  | fencing
  | write
  | reselect
  | visibility
  | rollback
  | commit
  | handlerRollback
  | log
  | result
  deriving DecidableEq

abbrev Faults := Point → Option Fault

structure PairingRow where
  channelName : String
  provider : String
  accountId : String
  senderId : String
  senderName : Option String
  status : String
  createdAt : Time
  lastSeenAt : Time
  approvedAt : Option Time := none
  revokedAt : Option Time := none
  requestCount : Nat := 1
  replyTo : Option String

structure ChannelPairing where
  pairingId : String
  row : PairingRow

abbrev PairingTable := Dict String PairingRow

structure Tables where
  channelIngress : Journal := Dict.empty
  channelTransportLeases : LeaseTable := Dict.empty
  channelPairings : PairingTable := Dict.empty

structure Memory where
  pairingWrites : Nat := 0
  unjournaledEvents : Finset String := ∅
  claimedUnjournaledEvents : List String := []
  recoveredPendingVisibility : Finset String := ∅

structure Settings where
  pendingPairingTtl : Time := 7 * 24 * 3600
  maxPendingPairingsPerChannel : Nat := 25
  pairingRefreshWindow : Time := 30
  maxClaimedUnjournaledEvents : Nat := 10000

abbrev StoreSession := Session Tables Memory
abbrev StoreAction := Action Tables Memory Fault

def updateIngress (change : Journal → Journal) : StoreAction Unit :=
  write fun tables => { tables with channelIngress := change tables.channelIngress }

def updateLeases (change : LeaseTable → LeaseTable) : StoreAction Unit :=
  write fun tables => { tables with channelTransportLeases := change tables.channelTransportLeases }

def updatePairings (change : PairingTable → PairingTable) : StoreAction Unit :=
  write fun tables => { tables with channelPairings := change tables.channelPairings }

def beginImmediate : StoreAction Unit := begin Fault.sqlite

section Pairings

variable (settings : Settings) (faults : Faults) (now : Time)

def stripped (text : String) : String := String.ofList (TextScan.strip text.toList)

def filled (text : String) : Option String := if text = "" then none else some text

def pairingFromRow (pairingId : String) (row : PairingRow) : ChannelPairing :=
  ⟨pairingId, { row with senderName := row.senderName.bind filled, replyTo := row.replyTo.bind filled }⟩

structure PairingRequest where
  channelName : String
  provider : String
  accountId : String
  senderId : String
  senderName : Option String := none
  replyTo : Option String := none

namespace PairingRequest

variable (request : PairingRequest)

def safeName : Option String :=
  request.senderName.bind fun name => filled (String.ofList ((stripped name).toList.take 256))

def account : String := orText (stripped request.accountId) (stripped request.channelName)

def cleanReplyTo : Option String := request.replyTo.bind fun address => filled (stripped address)

def row : PairingRow where
  channelName := stripped request.channelName
  provider := stripped request.provider
  accountId := request.account
  senderId := stripped request.senderId
  senderName := request.safeName
  status := "pending"
  createdAt := now
  lastSeenAt := now
  replyTo := request.cleanReplyTo

def isFor (row : PairingRow) : Bool :=
  row.channelName = stripped request.channelName && row.accountId = request.account &&
    row.senderId = stripped request.senderId

def existing? (pairings : PairingTable) : Option (String × PairingRow) :=
  pairings.entries.find? fun entry => request.isFor entry.2

def refresh (row : PairingRow) : PairingRow :=
  { row with
    provider := stripped request.provider
    senderName := request.safeName.or row.senderName
    lastSeenAt := now
    replyTo := request.cleanReplyTo.or row.replyTo
    requestCount := row.requestCount + 1 }

def repeats (row : PairingRow) : Bool :=
  now - row.lastSeenAt < settings.pairingRefreshWindow &&
    (request.cleanReplyTo.isNone || request.cleanReplyTo == row.replyTo) &&
    (request.safeName.isNone || request.safeName == row.senderName)

def pendingCount (pairings : PairingTable) : Nat :=
  pairings.entries.countP fun entry =>
    entry.2.channelName = stripped request.channelName && entry.2.status = "pending"

-- The upsert; the conflict on the sender is what it updates.
def upsert (pairingId : String) (pairings : PairingTable) : PairingTable :=
  match request.existing? pairings with
  | some (existing, _) => pairings.modify existing (request.refresh now)
  | none => pairings.set pairingId (request.row now)

def collides (pairingId : String) (pairings : PairingTable) : Bool :=
  (request.existing? pairings).isNone && (pairings.get? pairingId).isSome

end PairingRequest

def staleRow (row : PairingRow) : Bool :=
  row.status = "pending" && row.lastSeenAt < now - settings.pendingPairingTtl

def dropStale (pairings : PairingTable) : PairingTable :=
  pairings.filterKeys fun pairingId => !(pairings.get? pairingId).any (staleRow settings now)

def pairingPruneEvery : Nat := 64

-- It commits before the operation's own transaction begins.
def pruneStalePendingPairings : StoreAction Unit := updatePairings (dropStale settings now)

def countPairingWrite : StoreAction Unit := do
  keep fun memory => { memory with pairingWrites := memory.pairingWrites + 1 }
  let memory ← keptNow
  if memory.pairingWrites % pairingPruneEvery = 0 then pruneStalePendingPairings settings now
  else pure ()

def persistRequest (pairingId : String) (request : PairingRequest) : StoreAction (Option ChannelPairing) := do
  arrive faults .write
  let tables ← tablesNow
  if request.collides pairingId tables.channelPairings then throw .integrity
  else
    updatePairings (request.upsert now pairingId)
    arrive faults .reselect
    let tables ← tablesNow
    let row := request.existing? tables.channelPairings
    arrive faults .commit
    commit
    arrive faults .result
    match row with
    | none => throw .other
    | some (pairingId, row) => return some (pairingFromRow pairingId row)

def answerRepeated (pairingId : String) (row : PairingRow) : StoreAction (Option ChannelPairing) := do
  arrive faults .rollback
  rollback
  arrive faults .result
  return some (pairingFromRow pairingId row)

def refusePairing : StoreAction (Option ChannelPairing) := do
  arrive faults .rollback
  rollback
  arrive faults .log
  return none

def decideRequest (pairingId : String) (request : PairingRequest) : StoreAction (Option ChannelPairing) := do
  arrive faults .select
  let tables ← tablesNow
  match request.existing? tables.channelPairings with
  | some (existing, row) =>
    arrive faults .compare
    if request.repeats settings now row then answerRepeated faults existing row
    else persistRequest faults now pairingId request
  | none =>
    arrive faults .count
    if settings.maxPendingPairingsPerChannel ≤ request.pendingCount tables.channelPairings then
      refusePairing faults
    else persistRequest faults now pairingId request

def requestPairing (pairingId : String) (request : PairingRequest) : StoreAction (Option ChannelPairing) :=
  if stripped request.channelName = "" ∨ stripped request.senderId = "" then throw .other
  else do
    countPairingWrite settings now
    beginImmediate
    decideRequest settings faults now pairingId request

def decided (status : String) (row : PairingRow) : PairingRow :=
  { row with
    status := status
    approvedAt := if status = "approved" then some now else none
    revokedAt := if status = "revoked" then some now else none }

def pairingOf? (channelName pairingId : String) (pairings : PairingTable) : Option PairingRow :=
  (pairings.get? pairingId).filter (·.channelName = channelName)

def setPairingStatus (channelName pairingId status : String) : StoreAction ChannelPairing :=
  if status ≠ "approved" ∧ status ≠ "revoked" then throw .other
  else do
    beginImmediate
    arrive faults .write
    let tables ← tablesNow
    if (pairingOf? channelName pairingId tables.channelPairings).isNone then
      arrive faults .rollback
      rollback
      throw .other
    else
      updatePairings fun pairings => pairings.modify pairingId (decided now status)
      arrive faults .reselect
      let tables ← tablesNow
      let row := pairingOf? channelName pairingId tables.channelPairings
      arrive faults .commit
      commit
      arrive faults .result
      match row with
      | none => throw .other
      | some row => return pairingFromRow pairingId row

end Pairings

section Inbound

variable (codec : MessageCodec) (settings : Settings) (faults : Faults) (now : Time)

def touchClaimed (eventKey : String) (memory : Memory) : Memory :=
  { memory with
    claimedUnjournaledEvents := memory.claimedUnjournaledEvents.erase eventKey ++ [eventKey] }

def addUnjournaled (eventKey : String) (memory : Memory) : Memory :=
  { memory with unjournaledEvents := insert eventKey memory.unjournaledEvents }

def forgetUnjournaled (eventKey : String) (memory : Memory) : Memory :=
  { memory with unjournaledEvents := memory.unjournaledEvents.erase eventKey }

def rememberClaimed (eventKey : String) (memory : Memory) : Memory :=
  let remembered :=
    if eventKey ∈ memory.claimedUnjournaledEvents then memory.claimedUnjournaledEvents
    else memory.claimedUnjournaledEvents ++ [eventKey]
  { memory with
    claimedUnjournaledEvents :=
      if settings.maxClaimedUnjournaledEvents < remembered.length then remembered.tail
      else remembered }

-- The insertion and its arguments; `event_key` is the primary key.
def insertRow (eventKey : String) (row : IngressRow) : StoreAction Unit := do
  arrive faults .write
  let tables ← tablesNow
  if (tables.channelIngress.get? eventKey).isSome then throw .integrity
  else updateIngress fun journal => journal.set eventKey row

def suppressedRollback : StoreAction Unit :=
  tryCatch (do arrive faults .handlerRollback; rollback) fun fault =>
    match fault with
    | .other => throw .other
    | .integrity | .sqlite => pure ()

def acceptDuplicate (eventKey : String) : StoreAction Bool := do
  arrive faults .rollback
  rollback
  arrive faults .reselect
  let tables ← tablesNow
  let memory ← keptNow
  let accepted := (tables.channelIngress.get? eventKey).any (·.state = .accepted)
  if accepted ∧ eventKey ∈ memory.recoveredPendingVisibility then
    keep fun memory =>
      { memory with
        recoveredPendingVisibility := memory.recoveredPendingVisibility.erase eventKey }
    return true
  else return false

def insertAccepted (eventKey : String) (row : IngressRow) : StoreAction Bool :=
  tryCatch (do insertRow faults eventKey row; return true) fun fault =>
    match fault with
    | .integrity => return false
    | .sqlite => throw .sqlite
    | .other => throw .other

def commitAccepted : StoreAction Bool := do
  arrive faults .commit
  commit
  return true

def acceptJournaled (eventKey : String) (row : IngressRow) : StoreAction Bool := do
  beginImmediate
  let inserted ← insertAccepted faults eventKey row
  if inserted then commitAccepted faults else acceptDuplicate faults eventKey

-- The journal could not be written: accepted in memory only.
def degrade (eventKey : String) (fault : Fault) : StoreAction Bool :=
  match fault with
  | .other => throw .other
  | .integrity | .sqlite => do
    suppressedRollback faults
    keep (addUnjournaled eventKey)
    arrive faults .log
    return true

def acceptInbound (channelName : String) (message : IncomingMessage) : StoreAction Bool :=
  match inboundEventKey channelName message with
  | none => return true
  | some eventKey => do
    let memory ← keptNow
    if eventKey ∈ memory.claimedUnjournaledEvents then
      keep (touchClaimed eventKey)
      return false
    else if eventKey ∈ memory.unjournaledEvents then return false
    else
      tryCatch
        (acceptJournaled faults eventKey (Ingress.Store.acceptedRow codec now channelName message))
        (degrade faults eventKey)

def promote (eventKey : String) (row : IngressRow) : StoreAction Unit := do
  beginImmediate
  insertRow faults eventKey row
  arrive faults .commit
  commit

def promotionFailed (eventKey : String) (fault : Fault) : StoreAction (Option IngressClaim) :=
  match fault with
  | .other => throw .other
  -- another writer made the event durable: its row decides
  | .integrity => do
    suppressedRollback faults
    keep (forgetUnjournaled eventKey)
    return none
  | .sqlite => do
    suppressedRollback faults
    keep (rememberClaimed settings eventKey ∘ forgetUnjournaled eventKey)
    return some .passThrough

def claimUnjournaled (token eventKey : String) (row : IngressRow) : StoreAction (Option IngressClaim) :=
  tryCatch
    (do
      promote faults eventKey row
      keep (forgetUnjournaled eventKey)
      return some ⟨eventKey, token⟩)
    (promotionFailed settings faults eventKey)

def claimable (channelName eventKey : String) (journal : Journal) : Bool :=
  (journal.get? eventKey).any fun row => row.channelName = channelName ∧ row.state = .accepted

def claimAccepted (token channelName eventKey : String) : StoreAction (Option IngressClaim) := do
  beginImmediate
  arrive faults .write
  let tables ← tablesNow
  if claimable channelName eventKey tables.channelIngress then
    updateIngress fun journal => journal.modify eventKey (IngressRow.process now token)
    arrive faults .commit
    commit
    return some ⟨eventKey, token⟩
  else
    arrive faults .rollback
    rollback
    return none

def claimInbound (token channelName : String) (message : IncomingMessage) : StoreAction (Option IngressClaim) :=
  match inboundEventKey channelName message with
  | none => return some .passThrough
  | some eventKey => do
    let memory ← keptNow
    if eventKey ∈ memory.claimedUnjournaledEvents then
      keep (touchClaimed eventKey)
      return none
    else if eventKey ∈ memory.unjournaledEvents then
      claimUnjournaled settings faults token eventKey
        (Ingress.Store.claimedRow codec now token channelName message)
    else claimAccepted faults now token channelName eventKey

def releaseInterrupted (channelName : String) (journal : Journal) : Journal :=
  journal.mapValues (IngressRow.release now channelName)

def recoverInbound (channelName : String) : StoreAction (List IncomingMessage) := do
  beginImmediate
  arrive faults .write
  updateIngress (releaseInterrupted now channelName)
  arrive faults .select
  let tables ← tablesNow
  let rows := Ingress.Store.acceptedRows channelName tables.channelIngress
  arrive faults .visibility
  keep fun memory =>
    { memory with
      recoveredPendingVisibility :=
        memory.recoveredPendingVisibility ∪ (rows.map Prod.fst).toFinset }
  arrive faults .commit
  commit
  -- a row that does not validate is passed over, but not every exception is
  arrive faults .result
  return rows.filterMap fun entry => codec.validate entry.2.messageJson

end Inbound

section Leases

variable (faults : Faults) (now : Time)

def heldByOther (ownerId : String) (row : LeaseRow) : Bool :=
  row.ownerId ≠ ownerId && now < row.expiresAt

def acquireLease (channelName accountId ownerId : String) (ttlSeconds : Time) :
    StoreAction (Option TransportLease) := do
  let expiresAt := leaseEnd now ttlSeconds
  beginImmediate
  arrive faults .select
  let tables ← tablesNow
  let row := tables.channelTransportLeases.get? (channelName, accountId)
  arrive faults .compare
  if row.any (heldByOther now ownerId) then
    arrive faults .rollback
    rollback
    return none
  else
    arrive faults .fencing
    let fencingToken := row.elim 1 (·.fencingToken + 1)
    arrive faults .write
    updateLeases fun leases =>
      leases.set (channelName, accountId) ⟨ownerId, fencingToken, expiresAt, now⟩
    arrive faults .commit
    commit
    return some ⟨channelName, accountId, ownerId, fencingToken, expiresAt⟩

end Leases

inductive Operation
  | requestPairing (pairingId : String) (request : PairingRequest)
  | setPairingStatus (channelName pairingId status : String)
  | acceptInbound (channelName : String) (message : IncomingMessage)
  | claimInbound (token channelName : String) (message : IncomingMessage)
  | recoverInbound (channelName : String)
  | acquireTransportLease (channelName accountId ownerId : String) (ttlSeconds : Time)

def Operation.run (codec : MessageCodec) (settings : Settings) (faults : Faults) (now : Time) :
    Operation → StoreAction Unit
  | .requestPairing pairingId request =>
    (fun _ => ()) <$> Storage.requestPairing settings faults now pairingId request
  | .setPairingStatus channelName pairingId status =>
    (fun _ => ()) <$> Storage.setPairingStatus faults now channelName pairingId status
  | .acceptInbound channelName message =>
    (fun _ => ()) <$> Storage.acceptInbound codec faults now channelName message
  | .claimInbound token channelName message =>
    (fun _ => ()) <$> Storage.claimInbound codec settings faults now token channelName message
  | .recoverInbound channelName =>
    (fun _ => ()) <$> Storage.recoverInbound codec faults now channelName
  | .acquireTransportLease channelName accountId ownerId ttlSeconds =>
    (fun _ => ()) <$> acquireLease faults now channelName accountId ownerId ttlSeconds

end OpenSquilla.Channels.Storage
