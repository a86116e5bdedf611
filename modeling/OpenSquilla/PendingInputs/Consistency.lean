import OpenSquilla.PendingInputs.AcceptTurn

set_option autoImplicit false

namespace OpenSquilla.PendingInputs

open TextLines OneShot

inductive Outcome
  | dispatched (receipt : DispatchReceipt)
  | cancelled (tombstone : Cancellation)

-- The row moved on: nothing but its position changed, and its revision grew.
structure PendingChatInput.Revised (row later : PendingRow) : Prop where
  identity : later.toPendingIdentity = row.toPendingIdentity
  fingerprint : later.requestFingerprint = row.requestFingerprint
  payload : later.payload = row.payload
  revision : row.stateRevision < later.stateRevision

theorem PendingChatInput.Revised.trans {first second third : PendingRow}
    (early : Revised first second) (late : Revised second third) : Revised first third where
  identity := late.identity.trans early.identity
  fingerprint := late.fingerprint.trans early.fingerprint
  payload := late.payload.trans early.payload
  revision := early.revision.trans late.revision

open PendingChatInput (Revised)

namespace Store

variable {pendingInputId : Text} {store : Store}

theorem pending?_eq_some_iff {row : PendingRow} : store.pending? pendingInputId = some row ↔
      row ∈ store.pendingChatInputs.rows ∧ row.pendingInputId = pendingInputId := by
  unfold pending?
  rw [Table.find?_eq_some_iff]
  next => simp only [decide_eq_true_eq]
  next =>
    intro one other first second
    rw [decide_eq_true_eq] at first second
    exact .inl (first.trans second.symm)

theorem pending?_eq_none_iff : store.pending? pendingInputId = none ↔
      ∀ row ∈ store.pendingChatInputs.rows, row.pendingInputId ≠ pendingInputId := by
  simp [pending?]

theorem selectDispatchReceipt_eq_some_iff {receipt : DispatchReceipt} :
    store.selectDispatchReceipt pendingInputId = some receipt ↔
      receipt ∈ store.dispatchReceipts.rows ∧ receipt.pendingInputId = pendingInputId := by
  unfold selectDispatchReceipt
  rw [Table.find?_eq_some_iff]
  next => simp only [decide_eq_true_eq]
  next =>
    intro one other first second
    rw [decide_eq_true_eq] at first second
    exact .inl (first.trans second.symm)

theorem selectDispatchReceipt_eq_none_iff : store.selectDispatchReceipt pendingInputId = none ↔
      ∀ receipt ∈ store.dispatchReceipts.rows, receipt.pendingInputId ≠ pendingInputId := by
  simp [selectDispatchReceipt]

theorem selectCancellation_eq_some_iff {tombstone : Cancellation} :
    store.selectCancellation pendingInputId = some tombstone ↔
      tombstone ∈ store.cancellations.rows ∧ tombstone.pendingInputId = pendingInputId := by
  unfold selectCancellation
  rw [Table.find?_eq_some_iff]
  next => simp only [decide_eq_true_eq]
  next =>
    intro one other first second
    rw [decide_eq_true_eq] at first second
    exact first.trans second.symm

theorem selectCancellation_eq_none_iff : store.selectCancellation pendingInputId = none ↔
      ∀ tombstone ∈ store.cancellations.rows, tombstone.pendingInputId ≠ pendingInputId := by
  simp [selectCancellation]

def phase (pendingInputId : Text) (store : Store) : OneShot PendingRow Outcome :=
  match store.selectDispatchReceipt pendingInputId, store.selectCancellation pendingInputId with
  | some receipt, _ => .settled (.dispatched receipt)
  | none, some tombstone => .settled (.cancelled tombstone)
  | none, none => (store.pending? pendingInputId).elim .unseen .waiting

structure Consistent (store : Store) : Prop where
  undispatched : ∀ row ∈ store.pendingChatInputs.rows, ∀ receipt ∈ store.dispatchReceipts.rows,
    ¬row.ClashesDispatched receipt.toPendingIdentity
  uncancelled : ∀ row ∈ store.pendingChatInputs.rows, ∀ tombstone ∈ store.cancellations.rows,
    tombstone.pendingInputId ≠ row.pendingInputId
  unburied : ∀ receipt ∈ store.dispatchReceipts.rows, ∀ tombstone ∈ store.cancellations.rows,
    tombstone.pendingInputId ≠ receipt.pendingInputId
  bounded : ∀ sessionKey, (store.sessionRows sessionKey).length ≤ maxPendingChatInputs

theorem phase_of_receipt {receipt : DispatchReceipt} (mem : receipt ∈ store.dispatchReceipts.rows) :
    store.phase receipt.pendingInputId = .settled (.dispatched receipt) := by
  have selected := selectDispatchReceipt_eq_some_iff.2 ⟨mem, rfl⟩
  simp only [phase, selected]

theorem Consistent.phase_of_tombstone (consistent : store.Consistent)
    {tombstone : Cancellation} (mem : tombstone ∈ store.cancellations.rows) :
    store.phase tombstone.pendingInputId = .settled (.cancelled tombstone) := by
  have undispatched : store.selectDispatchReceipt tombstone.pendingInputId = none := by
    refine selectDispatchReceipt_eq_none_iff.2 fun receipt present same => ?_
    exact consistent.unburied receipt present tombstone mem same.symm
  have selected := selectCancellation_eq_some_iff.2 ⟨mem, rfl⟩
  simp only [phase, undispatched, selected]

theorem Consistent.phase_of_row (consistent : store.Consistent) {row : PendingRow}
    (mem : row ∈ store.pendingChatInputs.rows) : store.phase row.pendingInputId = .waiting row := by
  have undispatched : store.selectDispatchReceipt row.pendingInputId = none := by
    refine selectDispatchReceipt_eq_none_iff.2 fun receipt present same => ?_
    exact consistent.undispatched row mem receipt present (.inl same.symm)
  have uncancelled : store.selectCancellation row.pendingInputId = none :=
    selectCancellation_eq_none_iff.2 (consistent.uncancelled row mem)
  have selected := pending?_eq_some_iff.2 ⟨mem, rfl⟩
  simp only [phase, undispatched, uncancelled, selected, Option.elim_some]

-- What every identifier of the store goes on to in `next`.
structure Progress (store next : Store) : Prop where
  dispatched : ∀ receipt ∈ store.dispatchReceipts.rows, receipt ∈ next.dispatchReceipts.rows
  cancelled : ∀ tombstone ∈ store.cancellations.rows, tombstone ∈ next.cancellations.rows
  waiting : ∀ row ∈ store.pendingChatInputs.rows,
    (∃ later ∈ next.pendingChatInputs.rows, later.pendingInputId = row.pendingInputId ∧
        (later = row ∨ Revised row later)) ∨
      (∃ receipt ∈ next.dispatchReceipts.rows, receipt.pendingInputId = row.pendingInputId) ∨
        ∃ tombstone ∈ next.cancellations.rows, tombstone.pendingInputId = row.pendingInputId

theorem Progress.later {store next : Store} (progress : store.Progress next)
    (before : store.Consistent) (after : next.Consistent) (pendingInputId : Text) :
    Later Revised (store.phase pendingInputId) (next.phase pendingInputId) := by
  cases receipt : store.selectDispatchReceipt pendingInputId with
  | some receipt =>
    obtain ⟨mem, rfl⟩ := selectDispatchReceipt_eq_some_iff.1 receipt
    rw [phase_of_receipt mem, phase_of_receipt (progress.dispatched _ mem)]
    exact .same _
  | none =>
    cases tombstone : store.selectCancellation pendingInputId with
    | some tombstone =>
      obtain ⟨mem, rfl⟩ := selectCancellation_eq_some_iff.1 tombstone
      rw [before.phase_of_tombstone mem, after.phase_of_tombstone (progress.cancelled _ mem)]
      exact .same _
    | none =>
      cases row : store.pending? pendingInputId with
      | none =>
        have unseen : store.phase pendingInputId = .unseen := by
          simp only [phase, receipt, tombstone, row, Option.elim_none]
        rw [unseen]
        exact .seen _
      | some row =>
        obtain ⟨mem, rfl⟩ := pending?_eq_some_iff.1 row
        rw [before.phase_of_row mem]
        obtain ⟨later, present, same, rfl | revised⟩ | ⟨settled, present, same⟩ |
          ⟨settled, present, same⟩ := progress.waiting _ mem
        · rw [after.phase_of_row present]
          exact .same _
        · rw [← same, after.phase_of_row present]
          exact .revises revised
        · rw [← same, phase_of_receipt present]
          exact .settles _ _
        · rw [← same, after.phase_of_tombstone present]
          exact .settles _ _

-- What one operation does to the rows, the dispatch receipts and the tombstones.
inductive Change (store next : Store) : Prop
  | quiet (waiting : next.pendingChatInputs = store.pendingChatInputs)
      (dispatched : next.dispatchReceipts = store.dispatchReceipts)
      (cancelled : next.cancellations = store.cancellations)
  | staged (row : PendingRow)
      (waiting : next.pendingChatInputs.rows = store.pendingChatInputs.rows ++ [row])
      (dispatched : next.dispatchReceipts = store.dispatchReceipts)
      (cancelled : next.cancellations = store.cancellations)
      (undispatched : ∀ receipt ∈ store.dispatchReceipts.rows,
        ¬row.ClashesDispatched receipt.toPendingIdentity)
      (uncancelled : ∀ tombstone ∈ store.cancellations.rows,
        tombstone.pendingInputId ≠ row.pendingInputId)
      (room : (store.sessionRows row.sessionKey).length < maxPendingChatInputs)
  | moved (f : PendingRow → PendingRow)
      (waiting : next.pendingChatInputs.rows = store.pendingChatInputs.rows.map f)
      (revised : ∀ row, f row = row ∨ Revised row (f row))
      (dispatched : next.dispatchReceipts = store.dispatchReceipts)
      (cancelled : next.cancellations = store.cancellations)
  | buried (tombstone : Cancellation)
      (waiting : next.pendingChatInputs.rows =
        store.pendingChatInputs.rows.filter (fun row => row.pendingInputId ≠ tombstone.pendingInputId))
      (dispatched : next.dispatchReceipts = store.dispatchReceipts)
      (cancelled : next.cancellations.rows = store.cancellations.rows ++ [tombstone])
      (undispatched : ∀ receipt ∈ store.dispatchReceipts.rows,
        receipt.pendingInputId ≠ tombstone.pendingInputId)
  | dispatched (row : PendingRow) (receipt : DispatchReceipt)
      (mem : row ∈ store.pendingChatInputs.rows)
      (same : receipt.toPendingIdentity = row.toPendingIdentity)
      (waiting : next.pendingChatInputs.rows = store.pendingChatInputs.rows.filter (fun other => other ≠ row))
      (dispatched : next.dispatchReceipts.rows = store.dispatchReceipts.rows ++ [receipt])
      (cancelled : next.cancellations = store.cancellations)

theorem Consistent.of_shrunk {store next : Store} (consistent : store.Consistent)
    (fewer : next.pendingChatInputs.rows.Sublist store.pendingChatInputs.rows) (sessionKey : Text) :
    (next.sessionRows sessionKey).length ≤ maxPendingChatInputs :=
  ((fewer.filter _).length_le).trans (consistent.bounded sessionKey)

theorem Change.consistent {store next : Store} (consistent : store.Consistent)
    (change : store.Change next) : next.Consistent := by
  cases change with
  | quiet waiting dispatched cancelled =>
    constructor
    · rw [waiting, dispatched]
      exact consistent.undispatched
    · rw [waiting, cancelled]
      exact consistent.uncancelled
    · rw [dispatched, cancelled]
      exact consistent.unburied
    · exact consistent.of_shrunk (by rw [waiting])
  | staged row waiting dispatched cancelled undispatched uncancelled room =>
    constructor
    · rw [waiting, dispatched]
      simpa only [List.forall_mem_append, List.forall_mem_singleton] using
        And.intro consistent.undispatched undispatched
    · rw [waiting, cancelled]
      simpa only [List.forall_mem_append, List.forall_mem_singleton] using
        And.intro consistent.uncancelled uncancelled
    · rw [dispatched, cancelled]
      exact consistent.unburied
    · intro sessionKey
      have before := consistent.bounded sessionKey
      simp only [sessionRows, waiting, List.filter_append, List.length_append] at before room ⊢
      by_cases here : row.sessionKey = sessionKey
      next =>
        rw [here] at room
        simpa [here] using Nat.succ_le_of_lt room
      next => simpa [here] using before
  | moved f waiting revised dispatched cancelled =>
    have identity : ∀ row, (f row).toPendingIdentity = row.toPendingIdentity := by
      intro row
      obtain same | changed := revised row
      · rw [same]
      · exact changed.identity
    constructor
    · rw [waiting, dispatched]
      simpa only [List.forall_mem_map, identity] using consistent.undispatched
    · rw [waiting, cancelled]
      simpa only [List.forall_mem_map, identity] using consistent.uncancelled
    · rw [dispatched, cancelled]
      exact consistent.unburied
    · intro sessionKey
      have kept : ((fun row : PendingRow => decide (row.sessionKey = sessionKey)) ∘ f) =
          fun row => decide (row.sessionKey = sessionKey) := by
        funext row
        simp only [Function.comp_apply, identity]
      rw [sessionRows, waiting, List.filter_map, List.length_map, kept]
      exact consistent.bounded sessionKey
  | buried tombstone waiting dispatched cancelled undispatched =>
    constructor
    · rw [waiting, dispatched]
      intro row mem
      exact consistent.undispatched row (List.mem_of_mem_filter mem)
    · rw [waiting, cancelled]
      intro row mem buried present
      rw [List.mem_filter, decide_eq_true_eq] at mem
      rw [List.mem_append, List.mem_singleton] at present
      obtain earlier | rfl := present
      · exact consistent.uncancelled row mem.1 buried earlier
      · exact fun same => mem.2 same.symm
    · rw [dispatched, cancelled]
      intro receipt mem buried present
      rw [List.mem_append, List.mem_singleton] at present
      obtain earlier | rfl := present
      · exact consistent.unburied receipt mem buried earlier
      · exact fun same => undispatched receipt mem same.symm
    · exact consistent.of_shrunk (by rw [waiting]; exact List.filter_sublist)
  | dispatched row receipt mem same waiting dispatched cancelled =>
    constructor
    · rw [waiting, dispatched]
      intro other kept settled present clashes
      rw [List.mem_filter, decide_eq_true_eq] at kept
      rw [List.mem_append, List.mem_singleton] at present
      obtain earlier | rfl := present
      · exact consistent.undispatched other kept.1 settled earlier clashes
      · rw [same] at clashes
        exact kept.2 (Table.eq_of_clash kept.1 mem clashes.waiting)
    · rw [waiting, cancelled]
      intro other kept
      exact consistent.uncancelled other (List.mem_of_mem_filter kept)
    · rw [dispatched, cancelled]
      intro settled present tombstone buried
      rw [List.mem_append, List.mem_singleton] at present
      obtain earlier | rfl := present
      · exact consistent.unburied settled earlier tombstone buried
      · rw [same]
        exact consistent.uncancelled row mem tombstone buried
    · exact consistent.of_shrunk (by rw [waiting]; exact List.filter_sublist)

theorem Change.progress {store next : Store} (change : store.Change next) : store.Progress next := by
  cases change with
  | quiet waiting dispatched cancelled =>
    refine ⟨?_, ?_, fun row mem => .inl ⟨row, ?_, rfl, .inl rfl⟩⟩
    · rw [dispatched]
      exact fun _ => id
    · rw [cancelled]
      exact fun _ => id
    · rwa [waiting]
  | staged row waiting dispatched cancelled =>
    refine ⟨?_, ?_, fun other mem => .inl ⟨other, ?_, rfl, .inl rfl⟩⟩
    · rw [dispatched]
      exact fun _ => id
    · rw [cancelled]
      exact fun _ => id
    · rw [waiting]
      exact List.mem_append_left _ mem
  | moved f waiting revised dispatched cancelled =>
    refine ⟨?_, ?_, fun row mem => .inl ⟨f row, ?_, ?_, revised row⟩⟩
    · rw [dispatched]
      exact fun _ => id
    · rw [cancelled]
      exact fun _ => id
    · rw [waiting]
      exact List.mem_map_of_mem mem
    · obtain same | changed := revised row
      · rw [same]
      · rw [changed.identity]
  | buried tombstone waiting dispatched cancelled =>
    refine ⟨?_, ?_, fun row mem => ?_⟩
    · rw [dispatched]
      exact fun _ => id
    · rw [cancelled]
      exact fun _ => List.mem_append_left _
    · rw [waiting, cancelled]
      by_cases gone : row.pendingInputId = tombstone.pendingInputId
      next => exact .inr (.inr ⟨tombstone, by simp, gone.symm⟩)
      next => exact .inl ⟨row, by simp [mem, gone], rfl, .inl rfl⟩
  | dispatched row receipt present same waiting dispatched cancelled =>
    refine ⟨?_, ?_, fun other mem => ?_⟩
    · rw [dispatched]
      exact fun _ => List.mem_append_left _
    · rw [cancelled]
      exact fun _ => id
    · rw [waiting, dispatched]
      by_cases gone : other = row
      next => exact .inr (.inl ⟨receipt, by simp, by rw [gone, same]⟩)
      next => exact .inl ⟨other, by simp [mem, gone], rfl, .inl rfl⟩

end Store

end OpenSquilla.PendingInputs
