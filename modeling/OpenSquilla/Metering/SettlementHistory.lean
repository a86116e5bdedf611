import OpenSquilla.Metering.Measurements

set_option autoImplicit false

namespace OpenSquilla.Metering

open TextLines KnownFacts
open RaisingRuns (raiseIf orRaise of_bind_ok)

namespace Store

def Readable (store : Store) : Prop :=
  ∀ item row, store.metering.get? item = some row → Agree (store.measurements item row)

variable {store next : Store}

theorem Readable.of_same (readable : store.Readable)
    (metering : next.metering = store.metering) (observed : ∀ item,
      next.observed item = store.observed item) : next.Readable := by
  intro item row stored
  rw [metering] at stored
  rw [measurements, observed]
  exact readable item row stored

theorem Supplied.observed (supplied : store.Supplied next) (item : ItemKey) :
    next.observed item = store.observed item := by
  rw [supplied.rest]
  rfl

theorem Supplied.readable (supplied : store.Supplied next) (readable : store.Readable) : next.Readable :=
  readable.of_same supplied.metering supplied.observed

section Appended

variable {store next : Store} {item : ItemKey} {revision : UsageSettlementRevision} {meters : List UsageMeter}

theorem Appended.observed (appended : store.Appended item revision meters next)
    (wellFormed : store.WellFormed) (other : ItemKey) :
    next.observed other = store.observed other ++ if other = item then meters else [] := by
  have linked := appended.linked wellFormed other
  have same : ∀ row ∈ store.revisionsOf other,
      next.recorded other row.revisionId = store.recorded other row.revisionId := by
    intro row mem
    obtain ⟨stored, rfl⟩ := mem_revisionsOf.1 mem
    exact (appended.extendedBy wellFormed).recorded row stored
  rw [Store.observed, linked.history_eq, appended.revisionsOf_eq, List.flatMap_append, List.flatMap_congr same,
    ← wellFormed.history_eq, ← Store.observed]
  congr 1
  split
  next here =>
    rw [List.flatMap_singleton, appended.recorded_eq wellFormed, if_pos]
    rw [here]
    rfl
  next => rfl

theorem agree_of_checkMeasurements {row : MeteringRow} (some : meters ≠ [])
    (checked : store.checkMeasurements item meters = .ok ()) (stored : store.metering.get? item = .some row) :
    Agree (store.measurements item row ++ meters) := by
  unfold checkMeasurements at checked
  rw [if_neg some] at checked
  obtain ⟨rows, reading, checked⟩ := of_bind_ok checked
  obtain ⟨merged, merging, -⟩ := of_bind_ok checked
  have asked : item.1 ∈ [item.1] := List.mem_singleton_self _
  have reads := (mem_readMetering reading)
  obtain ⟨read, done⟩ : ∃ read, store.readItem (item, row) = .ok read :=
    exists_readItem.2 (exists_readMetering.1 ⟨rows, reading⟩ item row stored asked)
  have mem : read ∈ rows :=
    (reads read).2 ⟨(item, row), (Dict.get?_eq_some_iff _ _ _).1 stored, asked, done⟩
  -- the read of the event holds one read of the item
  have found : rows.find? (fun row => row.item.2 = item.2) = .some read := by
    cases picked : rows.find? (fun row => row.item.2 = item.2) with
    | none =>
      have absent := List.find?_eq_none.1 picked read mem
      rw [(readItem_ok done).1] at absent
      exact absurd (decide_eq_true rfl) absent
    | some other =>
      have ordinal : other.item.2 = item.2 := by simpa using List.find?_some picked
      obtain ⟨⟨otherItem, otherRow⟩, otherStored, otherAsked, otherDone⟩ :=
        (reads other).1 (List.mem_of_find?_eq_some picked)
      rw [(readItem_ok otherDone).1] at ordinal
      obtain rfl : otherItem = item := Prod.ext (List.mem_singleton.1 otherAsked) ordinal
      obtain rfl := Option.some.inj (stored.symm.trans ((Dict.get?_eq_some_iff _ _ _).2 otherStored))
      rw [← Except.ok.inj (otherDone.symm.trans done)]
  rw [found] at merging
  apply (consistent_congr _).1 (exists_mergeMeters.1 ⟨merged, merging⟩)
  intro key quantity
  have shown := (readItem_ok done).2 key quantity
  dsimp only [Option.map_some, Option.getD_some]
  rw [known_append, known_append]
  exact or_congr_left shown

theorem Appended.readable (appended : store.Appended item revision meters next) (wellFormed : store.WellFormed)
    (readable : store.Readable) : next.Readable := by
  intro other row stored
  rw [appended.metering] at stored
  rw [measurements, appended.observed wellFormed, ← List.append_assoc]
  split
  next same =>
    subst same
    by_cases none : meters = []
    · rw [none, List.append_nil]
      exact readable other row stored
    · exact agree_of_checkMeasurements none appended.measured stored
  next =>
    rw [List.append_nil]
    exact readable other row stored

end Appended

variable {snapshotId : UsagePriceSnapshot → Text}

theorem appendSettlement_readable {item : ItemKey} {revision : UsageSettlementRevision}
    {meters : List UsageMeter} {priceSnapshot : Option UsagePriceSnapshot} {accepted : Bool}
    (wellFormed : store.WellFormed) (readable : store.Readable)
    (ran : store.appendSettlement snapshotId item revision meters priceSnapshot = .ok (next, accepted)) :
    next.Readable := by
  obtain ⟨-, supplied, supply, ran⟩ := appendSettlement_ok ran
  have only := supplySnapshot_ok supply
  obtain ⟨-, rfl, -⟩ | ⟨-, appended⟩ := appendFresh_cases ran
  · exact only.readable readable
  · exact appended.readable (only.wellFormed wellFormed) (only.readable readable)

theorem settleItem_observed {item : ItemKey} {priceSnapshotId : Option Text}
    {settlement : Option UsageSettlementRevision} (wellFormed : store.WellFormed)
    (ran : store.settleItem snapshotId item priceSnapshotId settlement = .ok next) :
    next.metering = store.metering ∧ ∀ other, next.observed other = store.observed other := by
  obtain rfl | ⟨revision, accepted, appending⟩ := settleItem_cases ran
  · exact ⟨rfl, fun _ => rfl⟩
  · obtain ⟨-, supplied, supply, ran⟩ := appendSettlement_ok appending
    have only := supplySnapshot_ok supply
    obtain ⟨-, rfl, -⟩ | ⟨-, appended⟩ := appendFresh_cases ran
    · exact ⟨only.metering, only.observed⟩
    · refine ⟨appended.metering.trans only.metering, fun other => ?_⟩
      rw [appended.observed (only.wellFormed wellFormed), ite_self, List.append_nil]
      exact only.observed other

/-- The first measurements that are written for an item, each of which agrees with the others, do not
agree with those that its revisions brought before. -/
def Contradicted (store : Store) (item : ItemKey) (meters : List UsageMeter) : Prop :=
  store.metering.get? item = none ∧ Agree meters ∧ ¬Agree (meters ++ store.observed item)

instance (store : Store) (item : ItemKey) (meters : List UsageMeter) :
    Decidable (store.Contradicted item meters) :=
  inferInstanceAs (Decidable (_ ∧ _ ∧ ¬_))

theorem writeItem_readable {eventId : EventId} {entry : Int × UsageItemMetering}
    (wellFormed : store.WellFormed) (readable : store.Readable)
    (uncontradicted : ¬store.Contradicted (eventId, entry.1) entry.2.meters)
    (ran : store.writeItem snapshotId eventId entry = .ok next) :
    next.Readable ∧ ∀ item, next.observed item = store.observed item := by
  obtain ⟨supplied, written, priceSnapshotId, merged, supply, merging, writing, settling⟩ := writeItem_ok ran
  have first := supply.leadsTo wellFormed
  have second := insertMetering_leadsTo first.wellFormed writing
  obtain ⟨metering, observed⟩ := settleItem_observed second.wellFormed settling
  have supplyReadable := supply.readable readable
  have writtenReadable : written.Readable ∧ ∀ item, written.observed item = supplied.observed item := by
    obtain ⟨-, rfl⟩ | ⟨missing, rfl⟩ := insertMetering_cases writing
    · exact ⟨supplyReadable, fun _ => rfl⟩
    · refine ⟨fun item row stored => ?_, fun _ => rfl⟩
      rw [Dict.get?_set] at stored
      split at stored
      next here =>
        subst here
        cases stored
        rw [supply.metering] at missing
        by_contra disagree
        apply uncontradicted ⟨missing, exists_mergeMeters.1 ⟨merged, merging⟩, ?_⟩
        rw [← supply.observed]
        exact disagree
      next => exact supplyReadable item row stored
  refine ⟨writtenReadable.1.of_same metering observed, fun item => ?_⟩
  rw [observed, writtenReadable.2, supply.observed]

theorem writeMetering_readable {eventId : EventId} {metering : Dict Int UsageItemMetering}
    (wellFormed : store.WellFormed) (readable : store.Readable)
    (uncontradicted : ∀ entry ∈ metering.entries, ¬store.Contradicted (eventId, entry.1) entry.2.meters)
    (ran : store.writeMetering snapshotId eventId metering = .ok next) : next.Readable := by
  unfold writeMetering at ran
  generalize metering.entries = entries at ran uncontradicted
  induction entries generalizing store with
  | nil =>
    cases ran
    exact readable
  | cons entry rest ih =>
    obtain ⟨written, writing, ran⟩ := of_bind_ok ran
    rw [List.forall_mem_cons] at uncontradicted
    have leads := writeItem_leadsTo wellFormed writing
    obtain ⟨still, observed⟩ := writeItem_readable wellFormed readable uncontradicted.1 writing
    apply ih leads.wellFormed still ran
    rintro other mem ⟨missing, agree, disagree⟩
    rw [observed] at disagree
    refine uncontradicted.2 other mem ⟨?_, agree, disagree⟩
    by_contra present
    obtain ⟨row, stored⟩ := Option.ne_none_iff_exists'.1 present
    rw [leads.extendedBy.metering _ row stored] at missing
    cases missing

end Store

-- A `write_metering_on_conn` call with contradicted measurements.
def Op.Contradicted (store : Store) : Op → Prop
  | .writeMetering eventId metering =>
    ∃ entry ∈ metering.entries, store.Contradicted (eventId, entry.1) entry.2.meters
  | _ => False

variable {snapshotId : UsagePriceSnapshot → Text}

theorem step_readable {store : Store} (wellFormed : store.WellFormed) (readable : store.Readable) {op : Op}
    (uncontradicted : ¬op.Contradicted store) : (step snapshotId store op).Readable := by
  cases op with
  | appendSettlement item revision meters priceSnapshot =>
    dsimp only [step]
    split
    next ran => exact Store.appendSettlement_readable wellFormed readable ran
    next => exact readable
  | writeMetering eventId metering =>
    dsimp only [step]
    split
    next ran =>
      refine Store.writeMetering_readable wellFormed readable (fun entry mem contradicted => ?_) ran
      exact uncontradicted ⟨entry, mem, contradicted⟩
    next => exact readable
  | recordItem item amounts => exact readable

theorem run_readable {store : Store} (wellFormed : store.WellFormed) (readable : store.Readable) (ops : List Op)
    (uncontradicted : Runs.Along (step snapshotId) (fun store op => ¬op.Contradicted store) store ops) :
    (Runs.run (step snapshotId) store ops).Readable := by
  have both := Runs.run_invariant_along (fun store : Store => store.WellFormed ∧ store.Readable)
    (fun state op holds allowed =>
      ⟨(step_leadsTo holds.1 op).wellFormed, step_readable holds.1 holds.2 allowed⟩)
    ⟨wellFormed, readable⟩ ops uncontradicted
  exact both.2

-- What holds of a store after every run, and of every later one.
structure Settled (snapshotId : UsagePriceSnapshot → Text) (store : Store) : Prop where
  -- numbered from 1 without gaps, each naming its predecessor
  linked : ∀ item, LinkedHistory.Linked RevisionRow.revisionNo RevisionRow.revisionId
    RevisionRow.previousRevisionId none 0 (store.history item)
  complete : ∀ row, row ∈ store.revisions.rows ↔ row ∈ store.history row.item
  unique : ∀ item, ((store.history item).map RevisionRow.revisionId).Nodup
  confirmed : ∀ item, (store.history item).Pairwise ConfirmedFrom
  again : ∀ row ∈ store.revisions.rows, ∀ priceSnapshot : Option UsagePriceSnapshot,
    (∀ snapshot ∈ priceSnapshot, row.revision.priceSnapshotId = some (snapshotId snapshot) ∧
      store.snapshots.get? (snapshotId snapshot) = some snapshot) →
    store.appendSettlement snapshotId row.item row.revision (store.recorded row.item row.revisionId)
      priceSnapshot = .ok (store, false)
  different : ∀ row ∈ store.revisions.rows, ∀ revision meters priceSnapshot,
    revision.revisionId = row.revisionId →
    (revision ≠ row.revision ∨ meters ≠ store.recorded row.item row.revisionId) →
    ∃ raised, store.appendSettlement snapshotId row.item revision meters priceSnapshot = .error raised

theorem Store.WellFormed.settled {store : Store} (wellFormed : store.WellFormed) : Settled snapshotId store where
  linked item := by
    rw [wellFormed.history_eq]
    exact wellFormed.linked item
  complete row := by
    rw [wellFormed.history_eq, Store.mem_revisionsOf]
    exact (and_iff_left rfl).symm
  unique item := by
    rw [wellFormed.history_eq]
    apply List.pairwise_map.2
    apply (store.revisions.apart.filter _).imp_of_mem
    intro one other oneMem otherMem free same
    obtain ⟨-, first⟩ := Store.mem_revisionsOf.1 oneMem
    obtain ⟨-, second⟩ := Store.mem_revisionsOf.1 otherMem
    exact free ⟨first.trans second.symm, .inl same⟩
  confirmed item := by
    rw [wellFormed.history_eq]
    exact wellFormed.confirmed item
  again row mem _ supplied := Store.append_again wellFormed mem supplied
  different row mem revision meters priceSnapshot reused differs := by
    cases ran : store.appendSettlement snapshotId row.item revision meters priceSnapshot with
    | error raised => exact ⟨raised, rfl⟩
    | ok result =>
      obtain ⟨-, sameRevision, sameMeters⟩ := Store.append_again_ok mem reused ran
      obtain differs | differs := differs
      · exact absurd sameRevision differs
      · exact absurd sameMeters differs

theorem Store.appendSettlement_stored {store next : Store} {item : ItemKey} {revision : UsageSettlementRevision}
    {meters : List UsageMeter} {priceSnapshot : Option UsagePriceSnapshot} {accepted : Bool}
    (wellFormed : store.WellFormed)
    (ran : store.appendSettlement snapshotId item revision meters priceSnapshot = .ok (next, accepted)) :
    (∃ row ∈ next.revisions.rows, row.item = item ∧ row.revision = revision) ∧
      next.recorded item revision.revisionId = meters ∧
      ∀ snapshot ∈ priceSnapshot, revision.priceSnapshotId = some (snapshotId snapshot) ∧
        next.snapshots.get? (snapshotId snapshot) = some snapshot := by
  obtain ⟨-, supplied, supply, ran⟩ := Store.appendSettlement_ok ran
  have only := Store.supplySnapshot_ok supply
  have kept : ∀ snapshot ∈ priceSnapshot, revision.priceSnapshotId = some (snapshotId snapshot) ∧
      supplied.snapshots.get? (snapshotId snapshot) = some snapshot := by
    rintro snapshot ⟨⟩
    obtain ⟨_, named, supply⟩ := of_bind_ok supply
    obtain ⟨⟨written, id⟩, wrote, supply⟩ := of_bind_ok supply
    cases supply
    rw [RaisingRuns.raiseIf_eq_ok, not_not] at named
    obtain ⟨-, rfl, stored⟩ := Store.writeSnapshot_ok wrote
    exact ⟨named, stored⟩
  obtain ⟨-, rfl, row, mem, same, data, measurements⟩ | ⟨-, appended⟩ := Store.appendFresh_cases ran
  · exact ⟨⟨row, mem, same, data⟩, measurements, kept⟩
  · refine ⟨?_, ?_, ?_⟩
    · rw [appended.revisions]
      exact ⟨_, List.mem_append_right _ (List.mem_singleton_self _), rfl, rfl⟩
    · rw [appended.recorded_eq (only.wellFormed wellFormed), if_pos rfl]
    · rw [appended.snapshots]
      exact kept

/-- After any run the settlement history of every item is one chain, whatever calls follow: an accepted
call goes through again and changes nothing, the same identity with anything else is refused, what is
stored stays, and the reads that go through do not contradict one another. They all go through when no
item's first measurements contradict those that its revisions brought before. -/
theorem usage_settlement_history (items : Dict ItemKey ItemAmounts) (ops more : List Op) :
    let store := Runs.run (step snapshotId) { items := items } ops
    let later := Runs.run (step snapshotId) store more
    Settled snapshotId later ∧ store.ExtendedBy later ∧
      (∀ item revision meters priceSnapshot next accepted,
        store.appendSettlement snapshotId item revision meters priceSnapshot = .ok (next, accepted) →
        let later := Runs.run (step snapshotId) next more
        later.appendSettlement snapshotId item revision meters priceSnapshot = .ok (later, false) ∧
          ∀ other otherMeters otherSnapshot, other.revisionId = revision.revisionId →
            (other ≠ revision ∨ otherMeters ≠ meters) →
            ∃ raised, later.appendSettlement snapshotId item other otherMeters otherSnapshot = .error raised) ∧
      (∀ eventIds reads laterIds laterReads, store.readMetering eventIds = .ok reads →
        later.readMetering laterIds = .ok laterReads →
        ∀ item key quantity, Shown reads item key quantity → item.1 ∈ laterIds →
          ∀ other, Shown laterReads item key other ↔ other = quantity) ∧
      (Runs.Along (step snapshotId) (fun store op => ¬op.Contradicted store) { items := items } (ops ++ more) →
        ∀ eventIds, ∃ reads, later.readMetering eventIds = .ok reads) := by
  intro store later
  have begun := Store.wellFormed_empty items
  have first : ({ items := items } : Store).LeadsTo store := run_leadsTo begun ops
  have second : store.LeadsTo later := run_leadsTo first.wellFormed more
  refine ⟨second.wellFormed.settled, second.extendedBy, ?_, ?_, ?_⟩
  · intro item revision meters priceSnapshot next accepted ran later
    have appended := Store.appendSettlement_leadsTo first.wellFormed ran
    have leads : next.LeadsTo later := run_leadsTo appended.wellFormed more
    obtain ⟨⟨row, mem, rfl, rfl⟩, rfl, snapshots⟩ := Store.appendSettlement_stored first.wellFormed ran
    have still := leads.extendedBy.revisions.subset mem
    have recorded := leads.extendedBy.recorded row mem
    have settled : Settled snapshotId later := leads.wellFormed.settled
    constructor
    · have again := settled.again row still priceSnapshot fun snapshot given =>
        ⟨(snapshots snapshot given).1, leads.extendedBy.snapshots _ _ (snapshots snapshot given).2⟩
      rw [recorded] at again
      exact again
    · intro other otherMeters otherSnapshot reused differs
      apply settled.different row still other otherMeters otherSnapshot reused
      rw [recorded]
      exact differs
  · intro eventIds reads laterIds laterReads ran ranLater item key quantity shown asked
    exact second.shown first.wellFormed ran ranLater shown asked
  · intro uncontradicted eventIds
    rw [Store.exists_readMetering]
    intro item row stored _
    have readable := run_readable begun (fun _ _ found => by cases found) (ops ++ more) uncontradicted
    rw [Runs.run_append] at readable
    exact readable item row stored

def tokens (count : Nat) (bounded : count < 10 ^ 25) : UsageMeter where
  metric := "tokens".toList
  unit := "token".toList
  quantity := some {
    coefficient := count
    scale := 0
    zero negative := absurd negative Bool.false_ne_true
    range := ⟨Nat.zero_le _, bounded⟩ }
  required := by decide

def estimate (revisionId : Text) (identity : revisionId ≠ []) (previousRevisionId : Option Text)
    (forward : previousRevisionId ≠ some revisionId) : UsageSettlementRevision where
  revisionId := revisionId
  authority := .localEstimate
  status := .pending
  previousRevisionId := previousRevisionId
  identity := identity
  currencyCode := by decide
  pendingPair := rfl
  pendingCode := rfl
  rate := rfl
  noRate _ := ⟨rfl, rfl⟩
  confirmed := nofun
  unpriced := nofun
  forward := forward

/-- Two revisions of an item that has no metering yet bring different quantities, and both are accepted. When
the item's metering is written, the event cannot be read any more, with all that it showed before. -/
theorem accepted_measurements_block_reads :
    ¬∀ (items : Dict ItemKey ItemAmounts) (ops more : List Op) (eventIds : List EventId)
        (reads : List MeteringRead) (item : ItemKey) (key : MeterKey) (quantity : ℚ),
      let store := Runs.run (step UsagePriceSnapshot.source) { items := items } ops
      let later := Runs.run (step UsagePriceSnapshot.source) store more
      store.readMetering eventIds = .ok reads → Shown reads item key quantity →
        ∃ laterReads, later.readMetering eventIds = .ok laterReads ∧ Shown laterReads item key quantity := by
  intro kept
  let items : Dict ItemKey ItemAmounts :=
    Dict.ofList [(("e".toList, 0), ⟨0, 0, 0⟩), (("e".toList, 1), ⟨0, 0, 0⟩)]
  let ops : List Op := [
    .writeMetering "e".toList (Dict.ofList [(0, { meters := [tokens 1 (by decide)] })]),
    .appendSettlement ("e".toList, 1) (estimate "a".toList (by decide) none (by decide))
      [tokens 1 (by decide)] none,
    .appendSettlement ("e".toList, 1) (estimate "b".toList (by decide) (some "a".toList) (by decide))
      [tokens 2 (by decide)] none]
  let more : List Op := [.writeMetering "e".toList (Dict.ofList [(1, {})])]
  have before : (Runs.run (step UsagePriceSnapshot.source) { items := items } ops).readMetering ["e".toList] =
      .ok [⟨("e".toList, 0), [tokens 1 (by decide)], none, true⟩] := by
    decide
  have after : (Runs.run (step UsagePriceSnapshot.source) (Runs.run (step UsagePriceSnapshot.source)
      { items := items } ops) more).readMetering ["e".toList] =
      .error (.usageLedgerConflictError "known usage measurement cannot be changed") := by
    decide +kernel
  have shown : Shown [⟨("e".toList, 0), [tokens 1 (by decide)], none, true⟩] ("e".toList, 0)
      (tokens 1 (by decide)).key 1 :=
    ⟨_, List.mem_singleton_self _, rfl, _, List.mem_singleton_self _, rfl, by decide +kernel⟩
  obtain ⟨laterReads, ran, -⟩ := kept items ops more ["e".toList] _ _ _ 1 before shown
  rw [after] at ran
  cases ran

end OpenSquilla.Metering
