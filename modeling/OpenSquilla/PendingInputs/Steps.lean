import OpenSquilla.PendingInputs.Consistency

set_option autoImplicit false

namespace OpenSquilla.PendingInputs

open TextLines TextScan
open RaisingRuns (of_bind_ok orRaise raiseIf_eq_ok orRaise_eq_ok)
open PendingChatInput (Revised)

variable {Payload : Type}

/-- The read row has everything of the stored one but the payload, which is decoded. -/
structure PendingChatInput.ReadFrom (row : PendingRow) (pending : PendingChatInput Payload) : Prop where
  identity : pending.toPendingIdentity = row.toPendingIdentity
  fingerprint : pending.requestFingerprint = row.requestFingerprint
  revision : pending.stateRevision = row.stateRevision

open PendingChatInput (ReadFrom)

variable {codec : PayloadCodec Payload}

theorem PendingChatInput.fromRow_ok {row : PendingRow}
    {pending : PendingChatInput Payload} (read : fromRow codec row = .ok pending) : ReadFrom row pending := by
  obtain ⟨payload, -, read⟩ := of_bind_ok read
  cases read
  exact ⟨rfl, rfl, rfl⟩

namespace Store

variable {store : Store}

theorem selectPendingChatInput_some {pendingInputId : Text} {pending : PendingChatInput Payload}
    (selected : store.selectPendingChatInput codec pendingInputId = .ok (some pending)) :
    ∃ row ∈ store.pendingChatInputs.rows, row.pendingInputId = pendingInputId ∧
      ReadFrom row pending := by
  unfold selectPendingChatInput at selected
  cases found : store.pending? pendingInputId with
  | none => simp [found] at selected
  | some row =>
    simp only [found] at selected
    cases read : PendingChatInput.fromRow codec row with
    | error raised => simp [read] at selected
    | ok value =>
      rw [read] at selected
      cases selected
      obtain ⟨mem, same⟩ := pending?_eq_some_iff.1 found
      exact ⟨row, mem, same, PendingChatInput.fromRow_ok read⟩

theorem selectPendingChatInput_none {pendingInputId : Text}
    (selected : store.selectPendingChatInput codec pendingInputId = .ok none) :
    ∀ row ∈ store.pendingChatInputs.rows, row.pendingInputId ≠ pendingInputId := by
  rw [← pending?_eq_none_iff]
  unfold selectPendingChatInput at selected
  cases found : store.pending? pendingInputId with
  | none => rfl
  | some row =>
    rw [found] at selected
    cases read : PendingChatInput.fromRow codec row <;> simp [read] at selected

theorem mem_findDispatchReceipts {identity : PendingIdentity} {receipt : DispatchReceipt} :
    receipt ∈ store.findDispatchReceipts identity ↔
      receipt ∈ store.dispatchReceipts.rows ∧
        identity.ClashesDispatched receipt.toPendingIdentity := by
  simp only [findDispatchReceipts, List.mem_insertionSort, List.mem_filter, decide_eq_true_eq]

structure SameLedger (store next : Store) : Prop where
  receipts : next.turnIngressReceipts = store.turnIngressReceipts
  entries : next.transcriptEntries = store.transcriptEntries
  sequence : next.transcriptSequence = store.transcriptSequence

theorem SameLedger.rfl : store.SameLedger store := ⟨Eq.refl _, Eq.refl _, Eq.refl _⟩

theorem Change.same (store : Store) : store.Change store := .quiet rfl rfl rfl

structure QueueStep (store next : Store) : Prop where
  change : store.Change next
  ledger : store.SameLedger next
  dispatched : next.dispatchReceipts = store.dispatchReceipts

theorem QueueStep.rfl : store.QueueStep store := ⟨.same store, .rfl, Eq.refl _⟩

theorem raiseOnDispatched_ok {identity : PendingIdentity} {fingerprint : Text}
    (free : store.raiseOnDispatched identity fingerprint = .ok ()) : ∀ receipt ∈ store.dispatchReceipts.rows,
      ¬identity.ClashesDispatched receipt.toPendingIdentity := by
  unfold raiseOnDispatched at free
  split at free
  next nothing =>
    intro receipt mem clashes
    have found := mem_findDispatchReceipts.2 ⟨mem, clashes⟩
    rw [nothing] at found
    exact absurd found List.not_mem_nil
  next => cases free

theorem raiseOnCancelled_ok {identity : PendingIdentity} (free : store.raiseOnCancelled identity = .ok ()) :
    ∀ tombstone ∈ store.cancellations.rows,
      tombstone.pendingInputId ≠ identity.pendingInputId := by
  unfold raiseOnCancelled at free
  split at free
  next nothing => exact selectCancellation_eq_none_iff.1 nothing
  next => cases free

theorem insert_ok {ρ κ : Type} {keys : ρ → κ} {clash : κ → κ → Prop} [DecidableRel clash]
    {table : Table keys clash} {row : ρ} {raised : Raised} {into : Table keys clash → Store} {next : Store}
    (inserted : (orRaise (table.insert? row) raised >>= fun rows => pure (into rows)) = .ok next) :
    ∃ rows, rows.rows = table.rows ++ [row] ∧ next = into rows := by
  obtain ⟨rows, found, inserted⟩ := of_bind_ok inserted
  cases inserted
  exact ⟨rows, (Table.insert?_eq_some_iff.1 (orRaise_eq_ok.1 found)).2, rfl⟩

end Store

open Store

variable {store next : Store}

theorem stageRow_step {row : PendingRow} {position : Option Int} {staged : PendingChatInput Payload}
    {replayed : Bool}
    (undispatched : ∀ receipt ∈ store.dispatchReceipts.rows,
      ¬row.ClashesDispatched receipt.toPendingIdentity)
    (uncancelled : ∀ tombstone ∈ store.cancellations.rows,
      tombstone.pendingInputId ≠ row.pendingInputId)
    (ran : stageRow codec row position store = .ok (next, staged, replayed)) :
    store.QueueStep next := by
  obtain ⟨_, room, ran⟩ := of_bind_ok ran
  obtain ⟨_, -, ran⟩ := of_bind_ok ran
  obtain ⟨stored, inserted, ran⟩ := of_bind_ok ran
  obtain ⟨_, -, ran⟩ := of_bind_ok ran
  obtain ⟨_, -, ran⟩ := of_bind_ok ran
  cases ran
  obtain ⟨rows, waiting, rfl⟩ := insert_ok inserted
  rw [raiseIf_eq_ok, Nat.not_le] at room
  exact ⟨.staged _ waiting rfl rfl undispatched uncancelled room, ⟨rfl, rfl, rfl⟩, rfl⟩

variable {now : Int}

theorem enqueue_step [BEq Payload] {sidechat : Option Raised} {args : Enqueue Payload}
    {staged : PendingChatInput Payload} {replayed : Bool}
    (ran : enqueuePendingChatInput codec now sidechat args store = .ok (next, staged, replayed)) :
    store.QueueStep next := by
  obtain ⟨_, -, ran⟩ := of_bind_ok ran
  obtain ⟨payloadJson, -, ran⟩ := of_bind_ok ran
  obtain ⟨_, -, ran⟩ := of_bind_ok ran
  obtain ⟨_, undispatched, ran⟩ := of_bind_ok ran
  obtain ⟨_, uncancelled, ran⟩ := of_bind_ok ran
  obtain ⟨rows, -, ran⟩ := of_bind_ok ran
  cases rows with
  | nil =>
    exact stageRow_step (raiseOnDispatched_ok undispatched) (raiseOnCancelled_ok uncancelled) ran
  | cons first others =>
    obtain ⟨_, -, ran⟩ := of_bind_ok ran
    cases ran
    exact .rfl

theorem single?_eq_some_iff {α : Type} {values : List α} {value : α} :
    single? values = some value ↔ values = [value] := by
  unfold single?
  split <;> simp_all

/-- A receipt that a replayed dispatch is about stands for a row that is gone: nothing is consumed. -/
theorem consume_step {args : ConsumeReplayed} {consumed : Bool} (consistent : store.Consistent)
    (ran : consumeReplayedPendingChatInput codec args store = .ok (next, consumed)) : store.QueueStep next := by
  obtain ⟨_, -, ran⟩ := of_bind_ok ran
  obtain ⟨_, -, ran⟩ := of_bind_ok ran
  obtain ⟨receipt, found, ran⟩ := of_bind_ok ran
  obtain ⟨_, bound, ran⟩ := of_bind_ok ran
  obtain ⟨selected, read, ran⟩ := of_bind_ok ran
  cases selected with
  | none =>
    cases ran
    exact .rfl
  | some pending =>
    obtain ⟨_, unchanged, ran⟩ := of_bind_ok ran
    rw [orRaise_eq_ok, single?_eq_some_iff] at found
    rw [raiseIf_eq_ok, not_not] at bound unchanged
    have present : receipt ∈ store.dispatchReceipts.rows :=
      (mem_findDispatchReceipts.1 (found ▸ List.mem_singleton_self receipt)).1
    obtain ⟨row, mem, -, same⟩ := selectPendingChatInput_some read
    obtain ⟨⟨session, scope, request, -⟩, -⟩ := bound
    obtain ⟨⟨session', scope', request', -⟩, -⟩ := unchanged
    rw [same.identity] at session' scope' request'
    -- the row and the receipt are of one request
    exact absurd (.inr (.inl ⟨session'.trans session.symm, scope'.trans scope.symm,
      request'.trans request.symm⟩)) (consistent.undispatched row mem receipt present)

theorem PendingChatInput.revised_moved (now position : Int) (row : PendingRow) :
    Revised row (row.moved now position) :=
  ⟨rfl, rfl, rfl, Int.lt_add_one_iff.2 (le_refl _)⟩

-- The rows moved, each by revisions of its own, and nothing else changed.
structure Store.Moves (f : PendingRow → PendingRow) (store next : Store) : Prop where
  rows : next.pendingChatInputs.rows = store.pendingChatInputs.rows.map f
  revised : ∀ row, f row = row ∨ Revised row (f row)
  dispatched : next.dispatchReceipts = store.dispatchReceipts
  cancelled : next.cancellations = store.cancellations
  ledger : store.SameLedger next

theorem Store.Moves.step {f : PendingRow → PendingRow} (moves : store.Moves f next) : store.QueueStep next :=
  ⟨.moved f moves.rows moves.revised moves.dispatched moves.cancelled, moves.ledger, moves.dispatched⟩

theorem Store.Moves.comp {f g : PendingRow → PendingRow} {first second third : Store}
    (early : first.Moves f second) (late : second.Moves g third) : first.Moves (g ∘ f) third where
  rows := by rw [late.rows, early.rows, List.map_map]
  revised row := by
    obtain unmoved | later := late.revised (f row)
    · simpa only [Function.comp_apply, unmoved] using early.revised row
    · obtain unmoved | earlier := early.revised row
      · rw [unmoved] at later
        exact .inr (by rwa [Function.comp_apply, unmoved])
      · exact .inr (earlier.trans later)
  dispatched := late.dispatched.trans early.dispatched
  cancelled := late.cancelled.trans early.cancelled
  ledger := ⟨late.ledger.receipts.trans early.ledger.receipts,
    late.ledger.entries.trans early.ledger.entries,
    late.ledger.sequence.trans early.ledger.sequence⟩

theorem moveRow?_moves {sessionKey pendingInputId : Text} {expectedRevision position : Int}
    (moved : store.moveRow? now sessionKey pendingInputId expectedRevision position = some next) :
    ∃ f, store.Moves f next := by
  simp only [Store.moveRow?] at moved
  split at moved
  next =>
    cases moved
    refine ⟨_, rfl, fun row => ?_, rfl, rfl, ⟨rfl, rfl, rfl⟩⟩
    split
    · exact .inr (PendingChatInput.revised_moved now position row)
    · exact .inl rfl
  next => cases moved

theorem moveRows_moves {sessionKey : Text} {revisions : List (Text × Int)} {position : Int}
    (moved : moveRows now sessionKey position revisions store = .ok next) : ∃ f, store.Moves f next := by
  induction revisions generalizing position store with
  | nil =>
    cases moved
    exact ⟨id, (List.map_id _).symm, fun _ => .inl rfl, rfl, rfl, .rfl⟩
  | cons pair rest ih =>
    obtain ⟨between, first, moved⟩ := of_bind_ok moved
    obtain ⟨f, early⟩ := moveRow?_moves (orRaise_eq_ok.1 first)
    obtain ⟨g, late⟩ := ih moved
    exact ⟨g ∘ f, early.comp late⟩

theorem raiseOnUnmoved_raises {sessionKey pendingInputId : Text} :
    raiseOnUnmoved codec sessionKey pendingInputId store ≠ .ok next := by
  intro ran
  obtain ⟨_, -, ran⟩ := of_bind_ok ran
  obtain ⟨_, -, ran⟩ := of_bind_ok ran
  cases ran

variable {pendingInputId sessionKey : Text}

theorem update_step {expectedRevision position : Int} {row : PendingChatInput Payload}
    (ran : updatePendingChatInput codec now pendingInputId sessionKey expectedRevision position store =
      .ok (next, row)) : store.QueueStep next := by
  obtain ⟨_, -, ran⟩ := of_bind_ok ran
  obtain ⟨_, -, ran⟩ := of_bind_ok ran
  obtain ⟨moved, updated, ran⟩ := of_bind_ok ran
  obtain ⟨_, -, ran⟩ := of_bind_ok ran
  obtain ⟨_, -, ran⟩ := of_bind_ok ran
  cases ran
  cases moves : store.moveRow? now (canonicalizeSessionKey sessionKey) (strip pendingInputId)
      expectedRevision position with
  | none =>
    rw [moves] at updated
    exact absurd updated raiseOnUnmoved_raises
  | some moved =>
    rw [moves] at updated
    cases updated
    obtain ⟨f, moves⟩ := moveRow?_moves moves
    exact moves.step

theorem reorder_step {sessionKey : Text} {expectedRevisions : List (Text × Int)}
    {rows : List (PendingChatInput Payload)}
    (ran : reorderPendingChatInputs codec now sessionKey expectedRevisions store = .ok (next, rows)) :
    store.QueueStep next := by
  obtain ⟨_, -, ran⟩ := of_bind_ok ran
  obtain ⟨_, -, ran⟩ := of_bind_ok ran
  obtain ⟨_, -, ran⟩ := of_bind_ok ran
  obtain ⟨_, -, ran⟩ := of_bind_ok ran
  obtain ⟨_, -, ran⟩ := of_bind_ok ran
  obtain ⟨moved, moves, ran⟩ := of_bind_ok ran
  obtain ⟨_, -, ran⟩ := of_bind_ok ran
  cases ran
  obtain ⟨f, moves⟩ := moveRows_moves moves
  exact moves.step

theorem buried_change {tombstone : Cancellation} {store buried next : Store}
    (undispatched : store.selectDispatchReceipt tombstone.pendingInputId = none)
    (inserted : store.insertCancellation tombstone = .ok buried) (waiting : next.pendingChatInputs.rows =
      buried.pendingChatInputs.rows.filter (fun row => row.pendingInputId ≠ tombstone.pendingInputId))
    (rest : next = { buried with pendingChatInputs := next.pendingChatInputs }) :
    store.QueueStep next := by
  obtain ⟨rows, cancelled, rfl⟩ := insert_ok inserted
  rw [rest]
  exact ⟨.buried tombstone waiting rfl cancelled (selectDispatchReceipt_eq_none_iff.1 undispatched),
    ⟨rfl, rfl, rfl⟩, rfl⟩

theorem insertCancellation_keeps {tombstone : Cancellation}
    (inserted : store.insertCancellation tombstone = .ok next) :
    next.pendingChatInputs = store.pendingChatInputs := by
  obtain ⟨rows, -, rfl⟩ := insert_ok inserted
  rfl

theorem cancelUnstaged_step {cancelled : Bool}
    (unstaged : ∀ row ∈ store.pendingChatInputs.rows, row.pendingInputId ≠ pendingInputId)
    (ran : cancelUnstaged now pendingInputId sessionKey store = .ok (next, cancelled)) :
    store.QueueStep next := by
  unfold cancelUnstaged at ran
  split at ran
  next =>
    obtain ⟨_, -, ran⟩ := of_bind_ok ran
    cases ran
    exact .rfl
  next =>
    obtain ⟨_, -, ran⟩ := of_bind_ok ran
    cases ran
    exact .rfl
  next undispatched uncancelled =>
    obtain ⟨buried, inserted, ran⟩ := of_bind_ok ran
    cases ran
    refine buried_change undispatched inserted (List.filter_eq_self.2 fun row mem => ?_).symm rfl
    rw [decide_eq_true_eq]
    exact unstaged row ((insertCancellation_keeps inserted) ▸ mem)

theorem buryStaged_eq {store : Store}
    (consistent : store.Consistent) {row : PendingRow} (mem : row ∈ store.pendingChatInputs.rows)
    (same : row.pendingInputId = pendingInputId) : store.selectDispatchReceipt pendingInputId = none ∧
      buryStaged now pendingInputId sessionKey store =
        store.insertCancellation ⟨pendingInputId, sessionKey, now⟩ := by
  subst same
  have undispatched : store.selectDispatchReceipt row.pendingInputId = none := by
    refine selectDispatchReceipt_eq_none_iff.2 fun receipt present same => ?_
    exact consistent.undispatched row mem receipt present (.inl same.symm)
  have uncancelled : store.selectCancellation row.pendingInputId = none :=
    selectCancellation_eq_none_iff.2 (consistent.uncancelled row mem)
  exact ⟨undispatched, by simp only [buryStaged, undispatched, uncancelled]⟩

theorem cancel_step {expectedRevision : Option Int} {cancelled : Bool} (consistent : store.Consistent)
    (ran : cancelPendingChatInput codec now pendingInputId sessionKey expectedRevision store =
      .ok (next, cancelled)) : store.QueueStep next := by
  obtain ⟨_, -, ran⟩ := of_bind_ok ran
  obtain ⟨selected, read, ran⟩ := of_bind_ok ran
  cases selected with
  | none => exact cancelUnstaged_step (selectPendingChatInput_none read) ran
  | some existing =>
    obtain ⟨_, -, ran⟩ := of_bind_ok ran
    obtain ⟨_, -, ran⟩ := of_bind_ok ran
    obtain ⟨buried, inserted, ran⟩ := of_bind_ok ran
    cases ran
    obtain ⟨row, mem, same, -⟩ := selectPendingChatInput_some read
    obtain ⟨undispatched, buries⟩ := buryStaged_eq consistent mem same
    rw [buries] at inserted
    refine buried_change undispatched inserted ?_ rfl
    simp only [deletePending, Table.rows_delete, decide_not]

end OpenSquilla.PendingInputs
