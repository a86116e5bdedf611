import OpenSquilla.Metering.History

set_option autoImplicit false

namespace OpenSquilla.Metering

open TextLines KnownFacts
open RaisingRuns (raiseIf orRaise of_bind_ok)

abbrev Measured (meters : List UsageMeter) (key : MeterKey) (quantity : ℚ) : Prop :=
  Known UsageMeter.key UsageMeter.amount meters key quantity

abbrev Agree (meters : List UsageMeter) : Prop := Consistent UsageMeter.key UsageMeter.amount meters

def Shown (reads : List MeteringRead) (item : ItemKey) (key : MeterKey) (quantity : ℚ) : Prop :=
  ∃ read ∈ reads, read.item = item ∧ Measured read.meters key quantity

theorem exists_mergeMeters {meters : List UsageMeter} :
    (∃ merged, mergeMeters meters = .ok merged) ↔ Agree meters := by
  rw [Agree, ← exists_merge_iff]
  constructor
  · rintro ⟨merged, ran⟩
    obtain ⟨facts, merging, ran⟩ := of_bind_ok ran
    exact ⟨facts, RaisingRuns.orRaise_eq_ok.1 merging⟩
  · rintro ⟨facts, merging⟩
    exact ⟨facts.values, by simp only [mergeMeters, merging]; rfl⟩

theorem measured_of_mergeMeters {meters merged : List UsageMeter} (ran : mergeMeters meters = .ok merged)
    (key : MeterKey) (quantity : ℚ) : Measured merged key quantity ↔ Measured meters key quantity := by
  obtain ⟨facts, merging, ran⟩ := of_bind_ok ran
  cases ran
  exact known_values (RaisingRuns.orRaise_eq_ok.1 merging) key quantity

namespace Store

def measurements (store : Store) (item : ItemKey) (row : MeteringRow) : List UsageMeter :=
  row.meters ++ store.observed item

theorem exists_mem_batches {eventIds : List EventId} {eventId : EventId} :
    (∃ batch ∈ batches eventIds, eventId ∈ batch) ↔ eventId ∈ eventIds := by
  constructor
  · rintro ⟨batch, mem, inside⟩
    obtain ⟨k, -, rfl⟩ := List.mem_map.1 mem
    exact List.mem_of_mem_drop (List.mem_of_mem_take inside)
  · intro mem
    obtain ⟨i, bound, rfl⟩ := List.getElem_of_mem mem
    refine ⟨(eventIds.drop (400 * (i / 400))).take 400, ?_, ?_⟩
    · apply List.mem_map_of_mem
      rw [List.mem_range]
      omega
    · rw [List.mem_iff_getElem]
      refine ⟨i % 400, ?_, ?_⟩
      · rw [List.length_take, List.length_drop]
        omega
      · simp only [List.getElem_take, List.getElem_drop, Nat.div_add_mod]

theorem mem_readBatch {store : Store} {batch : List EventId} {reads : List MeteringRead}
    (ran : store.readBatch batch = .ok reads) (read : MeteringRead) :
    read ∈ reads ↔ ∃ entry ∈ store.metering.entries, entry.1.1 ∈ batch ∧ store.readItem entry = .ok read := by
  rw [RaisingRuns.mem_of_mapM_ok ran]
  simp only [List.mem_insertionSort, List.mem_filter, decide_eq_true_eq, and_assoc]

theorem mem_readMetering {store : Store} {eventIds : List EventId} {reads : List MeteringRead}
    (ran : store.readMetering eventIds = .ok reads) (read : MeteringRead) : read ∈ reads ↔
      ∃ entry ∈ store.metering.entries, entry.1.1 ∈ eventIds ∧ store.readItem entry = .ok read := by
  obtain ⟨parts, reading, ran⟩ := of_bind_ok ran
  cases ran
  rw [List.mem_flatten]
  simp only [RaisingRuns.mem_of_mapM_ok reading]
  constructor
  · rintro ⟨part, ⟨batch, mem, ranPart⟩, inside⟩
    obtain ⟨entry, stored, chosen, done⟩ := (mem_readBatch ranPart read).1 inside
    exact ⟨entry, stored, exists_mem_batches.1 ⟨batch, mem, chosen⟩, done⟩
  · rintro ⟨entry, stored, asked, done⟩
    obtain ⟨batch, mem, chosen⟩ := exists_mem_batches.2 asked
    obtain ⟨part, ranPart⟩ := RaisingRuns.exists_mapM_ok.1 ⟨parts, reading⟩ batch mem
    exact ⟨part, ⟨batch, mem, ranPart⟩, (mem_readBatch ranPart read).2 ⟨entry, stored, chosen, done⟩⟩

theorem exists_readItem {store : Store} {entry : ItemKey × MeteringRow} :
    (∃ read, store.readItem entry = .ok read) ↔ Agree (store.measurements entry.1 entry.2) := by
  unfold measurements
  rw [← exists_mergeMeters]
  constructor
  · rintro ⟨read, ran⟩
    obtain ⟨merged, merging, ran⟩ := of_bind_ok ran
    exact ⟨merged, merging⟩
  · rintro ⟨merged, merging⟩
    exact ⟨_, by simp only [readItem, merging]; rfl⟩

theorem readItem_ok {store : Store} {entry : ItemKey × MeteringRow} {read : MeteringRead}
    (ran : store.readItem entry = .ok read) : read.item = entry.1 ∧
      ∀ key quantity, Measured read.meters key quantity ↔
        Measured (store.measurements entry.1 entry.2) key quantity := by
  obtain ⟨merged, merging, ran⟩ := of_bind_ok ran
  cases ran
  exact ⟨rfl, measured_of_mergeMeters merging⟩

theorem exists_readMetering {store : Store} {eventIds : List EventId} :
    (∃ reads, store.readMetering eventIds = .ok reads) ↔
      ∀ item row, store.metering.get? item = some row → item.1 ∈ eventIds →
        Agree (store.measurements item row) := by
  have batched : (∃ reads, store.readMetering eventIds = .ok reads) ↔
      ∃ parts, (batches eventIds).mapM store.readBatch = .ok parts := by
    constructor
    · rintro ⟨reads, ran⟩
      obtain ⟨parts, reading, ran⟩ := of_bind_ok ran
      exact ⟨parts, reading⟩
    · rintro ⟨parts, reading⟩
      exact ⟨parts.flatten, by simp only [readMetering, reading]; rfl⟩
  rw [batched, RaisingRuns.exists_mapM_ok]
  constructor
  · intro reading item row stored asked
    obtain ⟨batch, mem, chosen⟩ := exists_mem_batches.2 asked
    rw [Dict.get?_eq_some_iff] at stored
    apply exists_readItem.1 (RaisingRuns.exists_mapM_ok.1 (reading batch mem) (item, row) _)
    rw [List.mem_insertionSort, List.mem_filter, decide_eq_true_eq]
    exact ⟨stored, chosen⟩
  · intro agree batch mem
    apply RaisingRuns.exists_mapM_ok.2
    intro entry chosen
    rw [List.mem_insertionSort, List.mem_filter, decide_eq_true_eq] at chosen
    rw [exists_readItem]
    apply agree entry.1 entry.2
    · rw [Dict.get?_eq_some_iff]
      exact chosen.1
    · exact exists_mem_batches.1 ⟨batch, mem, chosen.2⟩

theorem shown_iff {store : Store} {eventIds : List EventId} {reads : List MeteringRead}
    (ran : store.readMetering eventIds = .ok reads) {item : ItemKey} {key : MeterKey} {quantity : ℚ} :
    Shown reads item key quantity ↔ item.1 ∈ eventIds ∧
      ∃ row, store.metering.get? item = some row ∧ Measured (store.measurements item row) key quantity := by
  unfold Shown
  simp only [mem_readMetering ran]
  constructor
  · rintro ⟨read, ⟨entry, stored, asked, done⟩, rfl, measured⟩
    obtain ⟨same, means⟩ := readItem_ok done
    rw [same]
    exact ⟨asked, entry.2, (Dict.get?_eq_some_iff _ _ _).2 stored, (means key quantity).1 measured⟩
  · rintro ⟨asked, row, stored, measured⟩
    have agree := exists_readMetering.1 ⟨reads, ran⟩ item row stored asked
    obtain ⟨read, done⟩ : ∃ read, store.readItem (item, row) = .ok read := exists_readItem.2 agree
    obtain ⟨same, means⟩ := readItem_ok done
    exact ⟨read, ⟨(item, row), (Dict.get?_eq_some_iff _ _ _).1 stored, asked, done⟩, same,
      (means key quantity).2 measured⟩

theorem LeadsTo.observed {store next : Store} (leads : store.LeadsTo next) (wellFormed : store.WellFormed)
    (item : ItemKey) : store.observed item <+: next.observed item := by
  obtain ⟨new, rows⟩ := leads.extendedBy.revisions
  unfold Store.observed
  rw [wellFormed.history_eq, leads.wellFormed.history_eq, revisionsOf, revisionsOf, ← rows, List.filter_append,
    List.flatMap_append]
  have same : ∀ row ∈ store.revisions.rows.filter (fun row => row.item = item),
      next.recorded item row.revisionId = store.recorded item row.revisionId := by
    intro row mem
    obtain ⟨stored, rfl⟩ := mem_revisionsOf.1 mem
    exact leads.extendedBy.recorded row stored
  rw [List.flatMap_congr same]
  exact List.prefix_append _ _

theorem LeadsTo.shown {store next : Store} (leads : store.LeadsTo next) (wellFormed : store.WellFormed)
    {eventIds laterIds : List EventId} {reads laterReads : List MeteringRead}
    (ran : store.readMetering eventIds = .ok reads) (ranLater : next.readMetering laterIds = .ok laterReads)
    {item : ItemKey} {key : MeterKey} {quantity : ℚ} (shown : Shown reads item key quantity)
    (asked : item.1 ∈ laterIds) (other : ℚ) : Shown laterReads item key other ↔ other = quantity := by
  obtain ⟨-, row, stored, measured⟩ := (shown_iff ran).1 shown
  have kept := leads.extendedBy.metering item row stored
  have still : Measured (next.measurements item row) key quantity := by
    obtain ⟨more, same⟩ := leads.observed wellFormed item
    unfold measurements
    rw [← same, ← List.append_assoc]
    exact known_append.2 (.inl measured)
  have agree := exists_readMetering.1 ⟨laterReads, ranLater⟩ item row kept asked
  rw [shown_iff ranLater]
  constructor
  · rintro ⟨-, found, foundStored, foundMeasured⟩
    obtain rfl := Option.some.inj (kept.symm.trans foundStored)
    exact consistent_iff.1 agree key other quantity foundMeasured still
  · rintro rfl
    exact ⟨asked, row, kept, still⟩

end Store

end OpenSquilla.Metering
