import OpenSquilla.Metering.Store
import OpenSquilla.Shared.LinkedHistory

set_option autoImplicit false

namespace OpenSquilla.Metering

open TextLines
open RaisingRuns (raiseIf orRaise of_bind_ok)

namespace Store

def revisionsOf (store : Store) (item : ItemKey) : List RevisionRow :=
  store.revisions.rows.filter (fun row => row.item = item)

def Linked (store : Store) (item : ItemKey) : Prop :=
  LinkedHistory.Linked RevisionRow.revisionNo RevisionRow.revisionId RevisionRow.previousRevisionId none 0
    (store.revisionsOf item)

variable {item : ItemKey}

theorem mem_revisionsOf {store : Store} {row : RevisionRow} :
    row ∈ store.revisionsOf item ↔ row ∈ store.revisions.rows ∧ row.item = item := by
  rw [revisionsOf, List.mem_filter, decide_eq_true_eq]

theorem Linked.history_eq {store : Store} (linked : store.Linked item) :
    store.history item = store.revisionsOf item := by
  apply List.Pairwise.insertionSort_eq
  exact (LinkedHistory.Linked.number_lt linked).imp fun lower => Nat.le_of_lt lower

theorem revision?_eq_none_iff {store : Store} {revisionId : Text} : store.revision? item revisionId = none ↔
      ∀ row ∈ store.revisions.rows, row.item = item → row.revisionId ≠ revisionId := by
  simp [revision?]

theorem revision?_eq_some_iff {store : Store} {revisionId : Text} {row : RevisionRow} :
    store.revision? item revisionId = some row ↔
      row ∈ store.revisions.rows ∧ row.item = item ∧ row.revisionId = revisionId := by
  unfold revision?
  rw [Table.find?_eq_some_iff]
  · simp
  · intro one other first second
    simp only [Bool.and_eq_true, decide_eq_true_eq] at first second
    exact ⟨first.1.trans second.1.symm, .inl (first.2.trans second.2.symm)⟩

structure ExtendedBy (store later : Store) : Prop where
  metering : ∀ item row, store.metering.get? item = some row → later.metering.get? item = some row
  snapshots : ∀ id snapshot, store.snapshots.get? id = some snapshot → later.snapshots.get? id = some snapshot
  revisions : store.revisions.rows <+: later.revisions.rows
  recorded : ∀ row ∈ store.revisions.rows,
    later.recorded row.item row.revisionId = store.recorded row.item row.revisionId

theorem ExtendedBy.refl (store : Store) : store.ExtendedBy store :=
  ⟨fun _ _ found => found, fun _ _ found => found, List.prefix_refl _, fun _ _ => rfl⟩

theorem ExtendedBy.trans {store middle later : Store} (first : store.ExtendedBy middle)
    (second : middle.ExtendedBy later) : store.ExtendedBy later where
  metering item row found := second.metering item row (first.metering item row found)
  snapshots id snapshot found := second.snapshots id snapshot (first.snapshots id snapshot found)
  revisions := first.revisions.trans second.revisions
  recorded row mem :=
    (second.recorded row (first.revisions.subset mem)).trans (first.recorded row mem)

structure Supplied (store next : Store) : Prop where
  snapshots : ∀ id snapshot, store.snapshots.get? id = some snapshot → next.snapshots.get? id = some snapshot
  rest : next = { store with snapshots := next.snapshots }

theorem Supplied.refl (store : Store) : store.Supplied store := ⟨fun _ _ found => found, rfl⟩

variable {store next : Store}

theorem Supplied.revisions (supplied : store.Supplied next) :
    next.revisions = store.revisions := by rw [supplied.rest]

theorem Supplied.observations (supplied : store.Supplied next) :
    next.observations = store.observations := by rw [supplied.rest]

theorem Supplied.metering (supplied : store.Supplied next) :
    next.metering = store.metering := by rw [supplied.rest]

theorem Supplied.recorded (supplied : store.Supplied next) (item : ItemKey) (id : Text) :
    next.recorded item id = store.recorded item id := by rw [supplied.rest]; rfl

theorem Supplied.extendedBy (supplied : store.Supplied next) : store.ExtendedBy next where
  metering item row found := by rwa [supplied.metering]
  snapshots := supplied.snapshots
  revisions := supplied.revisions.symm ▸ List.prefix_rfl
  recorded row _ := supplied.recorded row.item row.revisionId

variable {snapshotId : UsagePriceSnapshot → Text}

theorem writeSnapshot_ok {snapshot : UsagePriceSnapshot} {id : Text}
    (ran : store.writeSnapshot snapshotId snapshot = .ok (next, id)) :
    store.Supplied next ∧ id = snapshotId snapshot ∧ next.snapshots.get? id = some snapshot := by
  obtain ⟨_, same, ran⟩ := of_bind_ok ran
  rw [RaisingRuns.raiseIf_eq_ok, not_not] at same
  cases ran
  refine ⟨⟨fun id found stored => ?_, rfl⟩, rfl, same⟩
  dsimp only
  rw [Dict.get?_setDefault]
  split
  next here =>
    subst here
    rw [stored]
    rfl
  next => exact stored

theorem writeSnapshot_of_stored {store : Store} {snapshot : UsagePriceSnapshot}
    (stored : store.snapshots.get? (snapshotId snapshot) = some snapshot) :
    store.writeSnapshot snapshotId snapshot = .ok (store, snapshotId snapshot) := by
  have same : store.snapshots.setDefault (snapshotId snapshot) snapshot = store.snapshots := by
    apply dif_neg
    rw [not_not, Dict.mem_keys_iff]
    exact ⟨snapshot, stored⟩
  simp only [writeSnapshot, same, stored, ne_eq, not_true_eq_false, raiseIf, if_false]
  rfl

variable {revision : UsageSettlementRevision}

theorem supplySnapshot_ok {priceSnapshot : Option UsagePriceSnapshot}
    (ran : store.supplySnapshot snapshotId revision priceSnapshot = .ok next) : store.Supplied next := by
  cases priceSnapshot with
  | none =>
    cases ran
    exact .refl store
  | some snapshot =>
    obtain ⟨_, _, ran⟩ := of_bind_ok ran
    obtain ⟨⟨written, id⟩, wrote, ran⟩ := of_bind_ok ran
    cases ran
    exact (writeSnapshot_ok wrote).1

theorem itemSnapshot_ok {priceSnapshot : Option UsagePriceSnapshot} {id : Option Text}
    (ran : store.itemSnapshot snapshotId priceSnapshot = .ok (next, id)) : store.Supplied next := by
  cases priceSnapshot with
  | none =>
    cases ran
    exact .refl store
  | some snapshot =>
    obtain ⟨⟨written, _⟩, wrote, ran⟩ := of_bind_ok ran
    cases ran
    exact (writeSnapshot_ok wrote).1

structure Appended (store : Store) (item : ItemKey) (revision : UsageSettlementRevision)
    (meters : List UsageMeter) (next : Store) : Prop where
  fresh : ∀ row ∈ store.revisions.rows, row.item = item → row.revisionId ≠ revision.revisionId
  follows : revision.previousRevisionId = (store.current? item).map RevisionRow.revisionId
  authority : ∀ row ∈ store.current? item, row.revision.authority = .providerConfirmed →
    revision.authority = .providerConfirmed
  priced : ∀ id ∈ revision.priceSnapshotId, store.snapshots.get? id ≠ none
  measured : store.checkMeasurements item meters = .ok ()
  revisions : next.revisions.rows = store.revisions.rows ++
    [⟨item, (store.current? item).elim 1 (fun row => row.revisionNo + 1), revision⟩]
  observations : next.observations =
    if meters = [] then store.observations else store.observations.set (item, revision.revisionId) meters
  snapshots : next.snapshots = store.snapshots
  metering : next.metering = store.metering

variable {meters : List UsageMeter}

theorem insertObservation_ok {revisionId : Text}
    (ran : store.insertObservation item revisionId meters = .ok next) : next = { store with
      observations := if meters = [] then store.observations
        else store.observations.set (item, revisionId) meters } := by
  unfold insertObservation at ran
  split at ran
  next none =>
    cases ran
    rw [if_pos none]
  next some =>
    obtain ⟨_, _, ran⟩ := of_bind_ok ran
    cases ran
    rw [if_neg some]

theorem appendNew_ok {accepted : Bool}
    (fresh : ∀ row ∈ store.revisions.rows, row.item = item → row.revisionId ≠ revision.revisionId)
    (ran : store.appendNew item revision meters = .ok (next, accepted)) :
    accepted = true ∧ store.Appended item revision meters next := by
  obtain ⟨_, follows, ran⟩ := of_bind_ok ran
  obtain ⟨_, authority, ran⟩ := of_bind_ok ran
  obtain ⟨_, priced, ran⟩ := of_bind_ok ran
  obtain ⟨_, measured, ran⟩ := of_bind_ok ran
  obtain ⟨_, _, ran⟩ := of_bind_ok ran
  obtain ⟨revisions, inserted, ran⟩ := of_bind_ok ran
  obtain ⟨written, observed, ran⟩ := of_bind_ok ran
  cases ran
  simp only [RaisingRuns.raiseIf_eq_ok, not_and, not_not, not_exists] at follows authority priced
  obtain rfl := insertObservation_ok observed
  rw [RaisingRuns.orRaise_eq_ok, Table.insert?_eq_some_iff] at inserted
  refine ⟨rfl, fresh, follows, fun row mem confirmed => ?_, ?_, measured, inserted.2, rfl, rfl, rfl⟩
  · exact authority ⟨row, mem, confirmed⟩
  · intro id mem missing
    exact priced id mem missing

theorem appendFresh_cases {accepted : Bool}
    (ran : store.appendFresh item revision meters = .ok (next, accepted)) :
    (accepted = false ∧ next = store ∧ ∃ row ∈ store.revisions.rows,
      row.item = item ∧ row.revision = revision ∧ store.recorded item revision.revisionId = meters) ∨
    (accepted = true ∧ store.Appended item revision meters next) := by
  unfold appendFresh at ran
  split at ran
  next existing found =>
    obtain ⟨mem, same, -⟩ := revision?_eq_some_iff.1 found
    obtain ⟨_, data, ran⟩ := of_bind_ok ran
    obtain ⟨_, measurements, ran⟩ := of_bind_ok ran
    cases ran
    rw [RaisingRuns.raiseIf_eq_ok, not_not] at data measurements
    rw [same] at measurements
    exact .inl ⟨rfl, rfl, existing, mem, same, data, measurements⟩
  next missing => exact .inr (appendNew_ok (revision?_eq_none_iff.1 missing) ran)

theorem appendSettlement_ok {priceSnapshot : Option UsagePriceSnapshot} {accepted : Bool}
    (ran : store.appendSettlement snapshotId item revision meters priceSnapshot = .ok (next, accepted)) :
    (∃ amounts, revision.costFields = .ok amounts) ∧ ∃ supplied,
      store.supplySnapshot snapshotId revision priceSnapshot = .ok supplied ∧
      supplied.appendFresh item revision meters = .ok (next, accepted) := by
  obtain ⟨amounts, costs, ran⟩ := of_bind_ok ran
  obtain ⟨supplied, supply, ran⟩ := of_bind_ok ran
  exact ⟨⟨amounts, costs⟩, supplied, supply, ran⟩

theorem insertMetering_cases {expected : MeteringRow} (ran : store.insertMetering item expected = .ok next) :
    (store.metering.get? item = some expected ∧ next = store) ∨ (store.metering.get? item = none ∧
      next = { store with metering := store.metering.set item expected }) := by
  unfold insertMetering at ran
  split at ran
  next stored found =>
    obtain ⟨_, same, ran⟩ := of_bind_ok ran
    cases ran
    rw [RaisingRuns.raiseIf_eq_ok, not_not] at same
    exact .inl ⟨same ▸ found, rfl⟩
  next missing =>
    obtain ⟨_, _, ran⟩ := of_bind_ok ran
    cases ran
    exact .inr ⟨missing, rfl⟩

theorem settleItem_cases {priceSnapshotId : Option Text} {settlement : Option UsageSettlementRevision}
    (ran : store.settleItem snapshotId item priceSnapshotId settlement = .ok next) :
    next = store ∨ ∃ revision accepted,
      store.appendSettlement snapshotId item revision [] none = .ok (next, accepted) := by
  cases settlement with
  | none =>
    cases ran
    exact .inl rfl
  | some revision =>
    obtain ⟨_, _, ran⟩ := of_bind_ok ran
    obtain ⟨_, _, ran⟩ := of_bind_ok ran
    obtain ⟨_, _, ran⟩ := of_bind_ok ran
    obtain ⟨⟨appended, accepted⟩, appending, ran⟩ := of_bind_ok ran
    cases ran
    exact .inr ⟨revision, accepted, appending⟩

theorem writeItem_ok {eventId : EventId} {entry : Int × UsageItemMetering}
    (ran : store.writeItem snapshotId eventId entry = .ok next) :
    ∃ supplied written priceSnapshotId merged, store.Supplied supplied ∧
      mergeMeters entry.2.meters = .ok merged ∧
      supplied.insertMetering (eventId, entry.1)
        ⟨entry.2.meters, priceSnapshotId, entry.2.tokenUsageKnown⟩ = .ok written ∧
      written.settleItem snapshotId (eventId, entry.1) priceSnapshotId entry.2.settlement = .ok next := by
  obtain ⟨⟨supplied, priceSnapshotId⟩, supply, ran⟩ := of_bind_ok ran
  obtain ⟨merged, merging, ran⟩ := of_bind_ok ran
  obtain ⟨written, writing, ran⟩ := of_bind_ok ran
  exact ⟨supplied, written, priceSnapshotId, merged, itemSnapshot_ok supply, merging, writing, ran⟩

end Store

end OpenSquilla.Metering
