import OpenSquilla.Metering.Record
import OpenSquilla.Shared.KnownFacts
import OpenSquilla.Shared.RaisingRuns
import OpenSquilla.Shared.Runs
import OpenSquilla.Shared.Table

set_option autoImplicit false

namespace OpenSquilla.Metering

open TextLines
open RaisingRuns (raiseIf orRaise)

abbrev EventId := Text

abbrev ItemKey := EventId × Int

def ItemKey.upTo (one other : ItemKey) : Prop :=
  one.1 < other.1 ∨ (one.1 = other.1 ∧ one.2 ≤ other.2)

instance : DecidableRel ItemKey.upTo := fun _ _ => inferInstanceAs (Decidable (_ ∨ _))

structure MeteringRow where
  meters : List UsageMeter
  priceSnapshotId : Option Text
  tokenUsageKnown : Bool
  deriving DecidableEq

structure RevisionRow where
  item : ItemKey
  revisionNo : Nat
  revision : UsageSettlementRevision

namespace RevisionRow

def revisionId (row : RevisionRow) : Text := row.revision.revisionId

def previousRevisionId (row : RevisionRow) : Option Text := row.revision.previousRevisionId

-- The primary key and the unique index of `usage_settlement_revisions`.
def Clashes (one other : RevisionRow) : Prop :=
  one.item = other.item ∧ (one.revisionId = other.revisionId ∨ one.revisionNo = other.revisionNo)

instance : DecidableRel Clashes := fun _ _ => inferInstanceAs (Decidable (_ ∧ _))

instance : Std.Symm Clashes where
  symm one other clashes := by
    obtain ⟨item, same | same⟩ := clashes
    · exact ⟨item.symm, .inl same.symm⟩
    · exact ⟨item.symm, .inr same.symm⟩

end RevisionRow

structure Store where
  -- `usage_event_items`, which the ledger writes
  items : Dict ItemKey ItemAmounts := Dict.empty
  snapshots : Dict Text UsagePriceSnapshot := Dict.empty
  metering : Dict ItemKey MeteringRow := Dict.empty
  revisions : Table (fun row : RevisionRow => row) RevisionRow.Clashes := Table.empty
  observations : Dict (ItemKey × Text) (List UsageMeter) := Dict.empty

structure MeteringRead where
  item : ItemKey
  meters : List UsageMeter
  priceSnapshotId : Option Text
  tokenUsageKnown : Bool
  deriving DecidableEq

def mergeMeters (meters : List UsageMeter) : Except Raised (List UsageMeter) := do
  let merged ← orRaise (KnownFacts.merge UsageMeter.key UsageMeter.amount meters)
    (.usageLedgerConflictError "known usage measurement cannot be changed")
  return merged.values

namespace Store

def revision? (store : Store) (item : ItemKey) (revisionId : Text) : Option RevisionRow :=
  store.revisions.rows.find? (fun row => row.item = item && row.revisionId = revisionId)

def history (store : Store) (item : ItemKey) : List RevisionRow :=
  (store.revisions.rows.filter (fun row => row.item = item)).insertionSort
    (fun one other => one.revisionNo ≤ other.revisionNo)

def current? (store : Store) (item : ItemKey) : Option RevisionRow := (store.history item).getLast?

def recorded (store : Store) (item : ItemKey) (revisionId : Text) : List UsageMeter :=
  (store.observations.get? (item, revisionId)).getD []

-- The measurements recorded with the revisions of an item.
def observed (store : Store) (item : ItemKey) : List UsageMeter :=
  (store.history item).flatMap (fun row => store.recorded item row.revisionId)

def readItem (store : Store) (entry : ItemKey × MeteringRow) : Except Raised MeteringRead := do
  let meters ← mergeMeters (entry.2.meters ++ store.observed entry.1)
  return {
    item := entry.1
    meters := meters
    priceSnapshotId := entry.2.priceSnapshotId
    tokenUsageKnown := entry.2.tokenUsageKnown }

def readBatch (store : Store) (batch : List EventId) : Except Raised (List MeteringRead) :=
  ((store.metering.entries.filter (fun entry => entry.1.1 ∈ batch)).insertionSort
    (fun one other => one.1.upTo other.1)).mapM store.readItem

-- The slices that start at each of `range(0, len(event_ids), 400)`.
def batches (eventIds : List EventId) : List (List EventId) :=
  (List.range ((eventIds.length + 399) / 400)).map (fun k => (eventIds.drop (400 * k)).take 400)

def readMetering (store : Store) (eventIds : List EventId) : Except Raised (List MeteringRead) := do
  let reads ← (batches eventIds).mapM store.readBatch
  return reads.flatten

end Store

variable (snapshotId : UsagePriceSnapshot → Text)

namespace Store

def writeSnapshot (store : Store) (snapshot : UsagePriceSnapshot) : Except Raised (Store × Text) := do
  let snapshots := store.snapshots.setDefault (snapshotId snapshot) snapshot
  raiseIf (snapshots.get? (snapshotId snapshot) ≠ some snapshot)
    (.usageLedgerConflictError "price snapshot content differs from its identity")
  return ({ store with snapshots := snapshots }, snapshotId snapshot)

def supplySnapshot (store : Store) (revision : UsageSettlementRevision) :
    Option UsagePriceSnapshot → Except Raised Store
  | none => .ok store
  | some snapshot => do
    raiseIf (revision.priceSnapshotId ≠ some (snapshotId snapshot))
      (.usageLedgerConflictError "settlement snapshot does not match supplied price snapshot")
    let (store, _) ← store.writeSnapshot snapshotId snapshot
    return store

-- What a revision identity that is used again has to repeat.
def appendAgain (store : Store) (existing : RevisionRow) (revision : UsageSettlementRevision)
    (meters : List UsageMeter) : Except Raised (Store × Bool) := do
  raiseIf (existing.revision ≠ revision)
    (.usageLedgerConflictError "settlement revision identity was reused with different data")
  raiseIf (store.recorded existing.item revision.revisionId ≠ meters)
    (.usageLedgerConflictError "settlement revision measurements differ")
  return (store, false)

def checkMeasurements (store : Store) (item : ItemKey) (meters : List UsageMeter) : Except Raised Unit :=
  if meters = [] then .ok ()
  else do
    let rows ← store.readMetering [item.1]
    let original := ((rows.find? (fun row => row.item.2 = item.2)).map MeteringRead.meters).getD []
    let _ ← mergeMeters (original ++ meters)
    return ()

def insertObservation (store : Store) (item : ItemKey) (revisionId : Text) (meters : List UsageMeter) :
    Except Raised Store :=
  if meters = [] then .ok store
  else do
    raiseIf ((store.observations.get? (item, revisionId)).isSome = true) .integrityError
    return { store with observations := store.observations.set (item, revisionId) meters }

def appendNew (store : Store) (item : ItemKey) (revision : UsageSettlementRevision)
    (meters : List UsageMeter) : Except Raised (Store × Bool) := do
  let current := store.current? item
  raiseIf (revision.previousRevisionId ≠ current.map RevisionRow.revisionId)
    (.usageLedgerConflictError "settlement predecessor is not the current revision")
  raiseIf ((∃ row ∈ current, row.revision.authority = .providerConfirmed) ∧
      revision.authority ≠ .providerConfirmed)
    (.usageLedgerConflictError "confirmed settlement cannot be replaced by an estimate")
  raiseIf (∃ id ∈ revision.priceSnapshotId, store.snapshots.get? id = none)
    (.usageLedgerConflictError "settlement references an unknown price snapshot")
  store.checkMeasurements item meters
  raiseIf (store.items.get? item = none) .integrityError
  let row : RevisionRow := {
    item := item
    revisionNo := current.elim 1 (fun row => row.revisionNo + 1)
    revision := revision }
  let revisions ← orRaise (store.revisions.insert? row) .integrityError
  let store ← ({ store with revisions := revisions } : Store).insertObservation item revision.revisionId meters
  return (store, true)

def appendFresh (store : Store) (item : ItemKey) (revision : UsageSettlementRevision)
    (meters : List UsageMeter) : Except Raised (Store × Bool) :=
  match store.revision? item revision.revisionId with
  | some existing => store.appendAgain existing revision meters
  | none => store.appendNew item revision meters

def appendSettlement (store : Store) (item : ItemKey) (revision : UsageSettlementRevision)
    (meters : List UsageMeter) (priceSnapshot : Option UsagePriceSnapshot) : Except Raised (Store × Bool) := do
  let _ ← revision.costFields
  let store ← store.supplySnapshot snapshotId revision priceSnapshot
  store.appendFresh item revision meters

-- The snapshot of an item's measurements and the identity that its row refers to.
def itemSnapshot (store : Store) : Option UsagePriceSnapshot → Except Raised (Store × Option Text)
  | none => .ok (store, none)
  | some snapshot => do
    let (store, id) ← store.writeSnapshot snapshotId snapshot
    return (store, some id)

def insertMetering (store : Store) (item : ItemKey) (expected : MeteringRow) : Except Raised Store :=
  match store.metering.get? item with
  | some stored => do
    raiseIf (stored ≠ expected) (.usageLedgerConflictError "usage measurements are immutable")
    return store
  | none => do
    raiseIf (store.items.get? item = none) .integrityError
    return { store with metering := store.metering.set item expected }

def settleItem (store : Store) (item : ItemKey) (priceSnapshotId : Option Text) :
    Option UsageSettlementRevision → Except Raised Store
  | none => .ok store
  | some settlement => do
    let fields ← settlement.costFields
    raiseIf (store.items.get? item ≠ some fields)
      (.usageLedgerConflictError "initial settlement does not reconcile with item")
    raiseIf (settlement.priceSnapshotId ≠ none ∧ settlement.priceSnapshotId ≠ priceSnapshotId)
      (.usageLedgerConflictError "settlement snapshot does not match metering snapshot")
    let (store, _) ← store.appendSettlement snapshotId item settlement [] none
    return store

def writeItem (eventId : EventId) (store : Store) (entry : Int × UsageItemMetering) : Except Raised Store := do
  let item := (eventId, entry.1)
  let (store, priceSnapshotId) ← store.itemSnapshot snapshotId entry.2.priceSnapshot
  let _ ← mergeMeters entry.2.meters
  let store ← store.insertMetering item {
    meters := entry.2.meters
    priceSnapshotId := priceSnapshotId
    tokenUsageKnown := entry.2.tokenUsageKnown }
  store.settleItem snapshotId item priceSnapshotId entry.2.settlement

def writeMetering (store : Store) (eventId : EventId) (metering : Dict Int UsageItemMetering) :
    Except Raised Store :=
  metering.entries.foldlM (writeItem snapshotId eventId) store

end Store

inductive Op
  | appendSettlement (item : ItemKey) (revision : UsageSettlementRevision) (meters : List UsageMeter)
    (priceSnapshot : Option UsagePriceSnapshot)
  | writeMetering (eventId : EventId) (metering : Dict Int UsageItemMetering)
  | recordItem (item : ItemKey) (amounts : ItemAmounts)

def step (store : Store) : Op → Store
  | .appendSettlement item revision meters priceSnapshot =>
    match store.appendSettlement snapshotId item revision meters priceSnapshot with
    | .ok (store, _) => store
    | .error _ => store
  | .writeMetering eventId metering =>
    match store.writeMetering snapshotId eventId metering with
    | .ok store => store
    | .error _ => store
  | .recordItem item amounts => { store with items := store.items.set item amounts }

end OpenSquilla.Metering
