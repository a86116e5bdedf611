import OpenSquilla.Metering.Effects

set_option autoImplicit false

namespace OpenSquilla.Metering

open TextLines
open RaisingRuns (raiseIf orRaise of_bind_ok)

-- A later revision of an item is confirmed when an earlier one is.
def ConfirmedFrom (one other : RevisionRow) : Prop :=
  one.revision.authority = .providerConfirmed → other.revision.authority = .providerConfirmed

theorem pairwise_confirmed_snoc {rows : List RevisionRow} {row : RevisionRow}
    (ordered : rows.Pairwise ConfirmedFrom) (follows : ∀ last ∈ rows.getLast?, ConfirmedFrom last row) :
    (rows ++ [row]).Pairwise ConfirmedFrom := by
  induction rows with
  | nil => exact List.pairwise_singleton _ row
  | cons first rest ih =>
    rw [List.pairwise_cons] at ordered
    have through : ConfirmedFrom first row := by
      intro confirmed
      cases rest with
      | nil => exact follows first rfl confirmed
      | cons second rest =>
        have found := List.getLast?_eq_some_getLast (List.cons_ne_nil second rest)
        have mem := List.mem_of_getLast? found
        refine follows _ ?_ (ordered.1 _ mem confirmed)
        rw [List.getLast?_cons_cons]
        exact found
    rw [List.cons_append, List.pairwise_cons]
    constructor
    · intro other mem
      obtain mem | mem := List.mem_append.1 mem
      · exact ordered.1 other mem
      · rw [List.mem_singleton] at mem
        rwa [mem]
    · apply ih ordered.2
      intro last found
      cases rest with
      | nil => cases found
      | cons second rest =>
        rw [List.getLast?_cons_cons] at follows
        exact follows last found

namespace Store

structure WellFormed (store : Store) : Prop where
  linked : ∀ item, store.Linked item
  confirmed : ∀ item, (store.revisionsOf item).Pairwise ConfirmedFrom
  attached : ∀ item id, store.observations.get? (item, id) ≠ none →
    ∃ row ∈ store.revisions.rows, row.item = item ∧ row.revisionId = id
  priced : ∀ row ∈ store.revisions.rows, ∀ id ∈ row.revision.priceSnapshotId, store.snapshots.get? id ≠ none
  costed : ∀ row ∈ store.revisions.rows, ∃ amounts, row.revision.costFields = .ok amounts

theorem WellFormed.history_eq {store : Store} (wellFormed : store.WellFormed) (item : ItemKey) :
    store.history item = store.revisionsOf item :=
  (wellFormed.linked item).history_eq

theorem wellFormed_empty (items : Dict ItemKey ItemAmounts) : ({ items := items } : Store).WellFormed where
  linked _ := trivial
  confirmed _ := List.Pairwise.nil
  attached _ _ present := absurd rfl present
  priced _ mem := absurd mem List.not_mem_nil
  costed _ mem := absurd mem List.not_mem_nil

variable {store next : Store}

theorem Supplied.wellFormed (supplied : store.Supplied next)
    (wellFormed : store.WellFormed) : next.WellFormed where
  linked item := by
    rw [Linked, revisionsOf, supplied.revisions]
    exact wellFormed.linked item
  confirmed item := by
    rw [revisionsOf, supplied.revisions]
    exact wellFormed.confirmed item
  attached item id := by
    rw [supplied.observations, supplied.revisions]
    exact wellFormed.attached item id
  priced row mem id priced := by
    rw [supplied.revisions] at mem
    obtain ⟨snapshot, stored⟩ := Option.ne_none_iff_exists'.1 (wellFormed.priced row mem id priced)
    rw [supplied.snapshots id snapshot stored]
    exact Option.some_ne_none snapshot
  costed row mem := by
    rw [supplied.revisions] at mem
    exact wellFormed.costed row mem

section Appended

variable {store next : Store} {item : ItemKey} {revision : UsageSettlementRevision} {meters : List UsageMeter}

theorem Appended.revisionsOf_eq (appended : store.Appended item revision meters next) (other : ItemKey) :
    next.revisionsOf other = store.revisionsOf other ++
      if other = item then [⟨item, (store.current? item).elim 1 (fun row => row.revisionNo + 1), revision⟩]
      else [] := by
  rw [revisionsOf, appended.revisions, List.filter_append]
  congr 1
  split
  next same => exact List.filter_cons_of_pos (decide_eq_true same.symm)
  next different =>
    apply List.filter_cons_of_neg
    rw [decide_eq_true_eq]
    exact fun same => different same.symm

theorem Appended.recorded_eq (appended : store.Appended item revision meters next)
    (wellFormed : store.WellFormed) (other : ItemKey) (id : Text) : next.recorded other id =
      if (other, id) = (item, revision.revisionId) then meters else store.recorded other id := by
  have absent : store.observations.get? (item, revision.revisionId) = none := by
    by_contra present
    obtain ⟨row, mem, same, reused⟩ := wellFormed.attached item revision.revisionId present
    exact appended.fresh row mem same reused
  rw [recorded, recorded, appended.observations]
  by_cases here : (other, id) = (item, revision.revisionId)
  · rw [if_pos here, here]
    split
    next nothing => rw [absent, nothing, Option.getD_none]
    next => rw [Dict.get?_set, if_pos rfl, Option.getD_some]
  · rw [if_neg here]
    split
    next => rfl
    next => rw [Dict.get?_set, if_neg here]

theorem Appended.extendedBy (appended : store.Appended item revision meters next)
    (wellFormed : store.WellFormed) : store.ExtendedBy next where
  metering item row found := by rwa [appended.metering]
  snapshots id snapshot found := by rwa [appended.snapshots]
  revisions := by
    rw [appended.revisions]
    exact List.prefix_append _ _
  recorded row mem := by
    rw [appended.recorded_eq wellFormed, if_neg]
    intro here
    exact appended.fresh row mem (congrArg Prod.fst here) (congrArg Prod.snd here)

theorem Appended.linked (appended : store.Appended item revision meters next) (wellFormed : store.WellFormed)
    (other : ItemKey) : next.Linked other := by
  rw [Linked, appended.revisionsOf_eq]
  split
  next same =>
    subst same
    have linked := wellFormed.linked other
    have current : store.current? other = (store.revisionsOf other).getLast? := by
      rw [current?, wellFormed.history_eq]
    apply LinkedHistory.Linked.snoc linked
    · dsimp only [RevisionRow.revisionNo]
      rw [current, Nat.zero_add]
      cases last : (store.revisionsOf other).getLast? with
      | none =>
        rw [List.getLast?_eq_none_iff] at last
        rw [last]
        rfl
      | some row =>
        have counted := LinkedHistory.Linked.number_getLast linked last
        rw [Nat.zero_add] at counted
        exact congrArg (· + 1) counted
    · rw [Option.or_none, ← current]
      exact appended.follows
  next =>
    rw [List.append_nil]
    exact wellFormed.linked other

theorem Appended.confirmed (appended : store.Appended item revision meters next)
    (wellFormed : store.WellFormed) (other : ItemKey) : (next.revisionsOf other).Pairwise ConfirmedFrom := by
  rw [appended.revisionsOf_eq]
  split
  next same =>
    subst same
    apply pairwise_confirmed_snoc (wellFormed.confirmed other)
    intro last found
    apply appended.authority last
    rwa [current?, wellFormed.history_eq]
  next =>
    rw [List.append_nil]
    exact wellFormed.confirmed other

theorem Appended.wellFormed (appended : store.Appended item revision meters next)
    (costs : ∃ amounts, revision.costFields = .ok amounts) (wellFormed : store.WellFormed) :
    next.WellFormed where
  linked := appended.linked wellFormed
  confirmed := appended.confirmed wellFormed
  attached other id present := by
    rw [appended.revisions]
    rw [appended.observations] at present
    by_cases here : (other, id) = (item, revision.revisionId)
    · cases here
      exact ⟨_, List.mem_append_right _ (List.mem_singleton_self _), rfl, rfl⟩
    · have before : store.observations.get? (other, id) ≠ none := by
        split at present
        next => exact present
        next => rwa [Dict.get?_set, if_neg here] at present
      obtain ⟨row, mem, same, named⟩ := wellFormed.attached other id before
      exact ⟨row, List.mem_append_left _ mem, same, named⟩
  priced row mem id priced := by
    rw [appended.revisions] at mem
    rw [appended.snapshots]
    obtain mem | mem := List.mem_append.1 mem
    · exact wellFormed.priced row mem id priced
    · rw [List.mem_singleton] at mem
      subst mem
      exact appended.priced id priced
  costed row mem := by
    rw [appended.revisions] at mem
    obtain mem | mem := List.mem_append.1 mem
    · exact wellFormed.costed row mem
    · rw [List.mem_singleton] at mem
      subst mem
      exact costs

end Appended

structure LeadsTo (store next : Store) : Prop where
  wellFormed : next.WellFormed
  extendedBy : store.ExtendedBy next

theorem LeadsTo.refl {store : Store} (wellFormed : store.WellFormed) : store.LeadsTo store :=
  ⟨wellFormed, .refl store⟩

theorem LeadsTo.trans {store middle next : Store} (first : store.LeadsTo middle) (second : middle.LeadsTo next) :
    store.LeadsTo next :=
  ⟨second.wellFormed, first.extendedBy.trans second.extendedBy⟩

theorem Supplied.leadsTo (supplied : store.Supplied next)
    (wellFormed : store.WellFormed) : store.LeadsTo next :=
  ⟨supplied.wellFormed wellFormed, supplied.extendedBy⟩

variable {snapshotId : UsagePriceSnapshot → Text}

theorem appendSettlement_leadsTo {item : ItemKey} {revision : UsageSettlementRevision}
    {meters : List UsageMeter} {priceSnapshot : Option UsagePriceSnapshot} {accepted : Bool}
    (wellFormed : store.WellFormed)
    (ran : store.appendSettlement snapshotId item revision meters priceSnapshot = .ok (next, accepted)) :
    store.LeadsTo next := by
  obtain ⟨costs, supplied, supply, ran⟩ := appendSettlement_ok ran
  have first := (supplySnapshot_ok supply).leadsTo wellFormed
  obtain ⟨-, rfl, -⟩ | ⟨-, appended⟩ := appendFresh_cases ran
  · exact first
  · exact first.trans ⟨appended.wellFormed costs first.wellFormed, appended.extendedBy first.wellFormed⟩

theorem insertMetering_leadsTo {item : ItemKey} {expected : MeteringRow}
    (wellFormed : store.WellFormed) (ran : store.insertMetering item expected = .ok next) :
    store.LeadsTo next := by
  obtain ⟨-, rfl⟩ | ⟨missing, rfl⟩ := insertMetering_cases ran
  · exact .refl wellFormed
  · constructor
    · exact ⟨wellFormed.linked, wellFormed.confirmed, wellFormed.attached, wellFormed.priced, wellFormed.costed⟩
    · refine ⟨fun other row found => ?_, fun _ _ found => found, List.prefix_refl _, fun _ _ => rfl⟩
      rw [Dict.get?_set, if_neg]
      · exact found
      · rintro rfl
        rw [missing] at found
        cases found

theorem settleItem_leadsTo {item : ItemKey} {priceSnapshotId : Option Text}
    {settlement : Option UsageSettlementRevision} (wellFormed : store.WellFormed)
    (ran : store.settleItem snapshotId item priceSnapshotId settlement = .ok next) : store.LeadsTo next := by
  obtain rfl | ⟨revision, accepted, appending⟩ := settleItem_cases ran
  · exact .refl wellFormed
  · exact appendSettlement_leadsTo wellFormed appending

theorem writeItem_leadsTo {eventId : EventId} {entry : Int × UsageItemMetering}
    (wellFormed : store.WellFormed) (ran : store.writeItem snapshotId eventId entry = .ok next) :
    store.LeadsTo next := by
  obtain ⟨supplied, written, priceSnapshotId, merged, supply, -, writing, settling⟩ := writeItem_ok ran
  have first := supply.leadsTo wellFormed
  have second := first.trans (insertMetering_leadsTo first.wellFormed writing)
  exact second.trans (settleItem_leadsTo second.wellFormed settling)

theorem writeMetering_leadsTo {eventId : EventId} {metering : Dict Int UsageItemMetering}
    (wellFormed : store.WellFormed) (ran : store.writeMetering snapshotId eventId metering = .ok next) :
    store.LeadsTo next := by
  unfold writeMetering at ran
  generalize metering.entries = entries at ran
  induction entries generalizing store with
  | nil =>
    cases ran
    exact .refl wellFormed
  | cons entry rest ih =>
    obtain ⟨written, writing, ran⟩ := of_bind_ok ran
    have first := writeItem_leadsTo wellFormed writing
    exact first.trans (ih first.wellFormed ran)

end Store

variable {snapshotId : UsagePriceSnapshot → Text}

theorem step_leadsTo {store : Store} (wellFormed : store.WellFormed) (op : Op) :
    store.LeadsTo (step snapshotId store op) := by
  cases op with
  | appendSettlement item revision meters priceSnapshot =>
    dsimp only [step]
    split
    next ran => exact Store.appendSettlement_leadsTo wellFormed ran
    next => exact .refl wellFormed
  | writeMetering eventId metering =>
    dsimp only [step]
    split
    next ran => exact Store.writeMetering_leadsTo wellFormed ran
    next => exact .refl wellFormed
  | recordItem item amounts =>
    exact ⟨⟨wellFormed.linked, wellFormed.confirmed, wellFormed.attached, wellFormed.priced, wellFormed.costed⟩,
      fun _ _ found => found, fun _ _ found => found, List.prefix_refl _, fun _ _ => rfl⟩

theorem run_leadsTo {store : Store} (wellFormed : store.WellFormed) (ops : List Op) :
    store.LeadsTo (Runs.run (step snapshotId) store ops) := by
  induction ops generalizing store with
  | nil => exact .refl wellFormed
  | cons op rest ih =>
    have first : store.LeadsTo (step snapshotId store op) := step_leadsTo wellFormed op
    exact first.trans (ih first.wellFormed)

namespace Store

theorem revision?_of_mem {store : Store} {row : RevisionRow} (mem : row ∈ store.revisions.rows) :
    store.revision? row.item row.revisionId = some row :=
  revision?_eq_some_iff.2 ⟨mem, rfl, rfl⟩

theorem append_again_ok {store next : Store} {row : RevisionRow} {revision : UsageSettlementRevision}
    {meters : List UsageMeter} {priceSnapshot : Option UsagePriceSnapshot} {accepted : Bool}
    (mem : row ∈ store.revisions.rows) (reused : revision.revisionId = row.revisionId)
    (ran : store.appendSettlement snapshotId row.item revision meters priceSnapshot = .ok (next, accepted)) :
    accepted = false ∧ revision = row.revision ∧ meters = store.recorded row.item row.revisionId := by
  obtain ⟨-, supplied, supply, ran⟩ := appendSettlement_ok ran
  have only := supplySnapshot_ok supply
  rw [← only.revisions] at mem
  rw [← only.recorded]
  obtain ⟨refused, -, existing, stored, same, data, measurements⟩ | ⟨-, appended⟩ := appendFresh_cases ran
  · have named : existing.revisionId = row.revisionId := by
      rw [← reused, ← data]
      rfl
    obtain rfl := Table.eq_of_clash stored mem ⟨same, .inl named⟩
    refine ⟨refused, data.symm, ?_⟩
    rw [← measurements, reused]
  · exact absurd reused.symm (appended.fresh row mem rfl)

theorem append_again {store : Store} {row : RevisionRow} {priceSnapshot : Option UsagePriceSnapshot}
    (wellFormed : store.WellFormed) (mem : row ∈ store.revisions.rows)
    (supplied : ∀ snapshot ∈ priceSnapshot, row.revision.priceSnapshotId = some (snapshotId snapshot) ∧
      store.snapshots.get? (snapshotId snapshot) = some snapshot) :
    store.appendSettlement snapshotId row.item row.revision (store.recorded row.item row.revisionId)
      priceSnapshot = .ok (store, false) := by
  obtain ⟨amounts, costs⟩ := wellFormed.costed row mem
  have supply : store.supplySnapshot snapshotId row.revision priceSnapshot = .ok store := by
    cases priceSnapshot with
    | none => rfl
    | some snapshot =>
      obtain ⟨same, stored⟩ := supplied snapshot rfl
      simp only [supplySnapshot, same, ne_eq, not_true_eq_false, raiseIf, if_false,
        writeSnapshot_of_stored stored]
      rfl
  have again : store.appendFresh row.item row.revision (store.recorded row.item row.revisionId) =
      .ok (store, false) := by
    have found := revision?_of_mem mem
    unfold RevisionRow.revisionId at found
    simp only [appendFresh, found, appendAgain, RevisionRow.revisionId, ne_eq, not_true_eq_false, raiseIf,
      if_false]
    rfl
  simp only [appendSettlement, costs, supply]
  exact again

end Store

end OpenSquilla.Metering
