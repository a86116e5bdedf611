import OpenSquilla.PendingInputs.Steps

set_option autoImplicit false

namespace OpenSquilla.PendingInputs

open TextLines
open RaisingRuns (of_bind_ok raiseIf_eq_ok orRaise_eq_ok)
open PendingChatInput (ReadFrom)

variable {Payload : Type}

/-- The row the guard asks for: its revision, the identities of the request, and the fingerprint. -/
structure AcceptTurn.Guards (turn : AcceptTurn) (guarded : PendingGuard) (row : PendingRow) : Prop where
  pendingInputId : row.pendingInputId = guarded.pendingInputId
  sessionKey : row.sessionKey = turn.requestKey.requestSessionKey
  sourceScope : row.sourceScope = turn.requestKey.sourceScope
  clientRequestId : row.clientRequestId = turn.requestKey.clientRequestId
  fingerprint : row.requestFingerprint = guarded.fingerprint
  revision : row.stateRevision = guarded.revision
  message : ∀ messageId ∈ turn.entry.clientMessageId,
    messageId = [] ∨ messageId = row.clientMessageId

/-- The entries a committed turn writes: the copies of the history, then the message of the user. -/
def AcceptTurn.entries (turn : AcceptTurn) : List TranscriptEntry :=
  turn.initialTranscriptEntries.map TranscriptEntry.canonical ++ [turn.entry.canonical]

namespace Store

-- The rows, the dispatch receipts and the tombstones are as they were.
structure SameQueue (store next : Store) : Prop where
  waiting : next.pendingChatInputs = store.pendingChatInputs
  dispatched : next.dispatchReceipts = store.dispatchReceipts
  cancelled : next.cancellations = store.cancellations

theorem SameQueue.rfl {store : Store} : store.SameQueue store := ⟨Eq.refl _, Eq.refl _, Eq.refl _⟩

theorem SameQueue.trans {first second third : Store} (early : first.SameQueue second)
    (late : second.SameQueue third) : first.SameQueue third where
  waiting := late.waiting.trans early.waiting
  dispatched := late.dispatched.trans early.dispatched
  cancelled := late.cancelled.trans early.cancelled

-- The transcript grew by these entries, at identifiers of their own.
structure Writes (entries : List TranscriptEntry) (store next : Store) : Prop where
  rows : ∃ rows, next.transcriptEntries = store.transcriptEntries ++ rows ∧
    rows.map TranscriptRow.toTranscriptEntry = entries ∧
      ∀ row ∈ rows, store.transcriptSequence < row.id ∧ row.id ≤ next.transcriptSequence
  sequence : store.transcriptSequence ≤ next.transcriptSequence
  receipts : next.turnIngressReceipts = store.turnIngressReceipts
  queue : store.SameQueue next

theorem Writes.nil (store : Store) : Writes [] store store where
  rows := ⟨[], by simp, rfl, by simp⟩
  sequence := le_refl _
  receipts := rfl
  queue := .rfl

theorem Writes.append {first second third : Store} {early late : List TranscriptEntry}
    (before : Writes early first second) (after : Writes late second third) :
    Writes (early ++ late) first third where
  rows := by
    obtain ⟨rows, grown, written, numbered⟩ := before.rows
    obtain ⟨rows', grown', written', numbered'⟩ := after.rows
    refine ⟨rows ++ rows', ?_, ?_, ?_⟩
    · rw [grown', grown, List.append_assoc]
    · rw [List.map_append, written, written']
    · intro row mem
      obtain inEarly | inLate := List.mem_append.1 mem
      · exact ⟨(numbered row inEarly).1, (numbered row inEarly).2.trans after.sequence⟩
      · exact ⟨before.sequence.trans_lt (numbered' row inLate).1, (numbered' row inLate).2⟩
  sequence := before.sequence.trans after.sequence
  receipts := after.receipts.trans before.receipts
  queue := before.queue.trans after.queue

theorem insertTranscriptEntry_ok {current : Bool} {entry : TranscriptEntry} {store next : Store}
    (inserted : store.insertTranscriptEntry current entry = .ok next) : Writes [entry] store next := by
  obtain ⟨_, -, inserted⟩ := of_bind_ok inserted
  cases inserted
  refine ⟨⟨[_], rfl, rfl, ?_⟩, Nat.le_succ _, rfl, ⟨rfl, rfl, rfl⟩⟩
  simp

theorem insertTurnReceipt_ok {receipt : TurnIngressReceipt} {store next : Store}
    (inserted : store.insertTurnReceipt receipt = .ok next) :
    ∃ rows, rows.rows = store.turnIngressReceipts.rows ++ [receipt] ∧
      (∀ other ∈ store.turnIngressReceipts.rows, other.toRequestKey ≠ receipt.toRequestKey) ∧
        next = { store with turnIngressReceipts := rows } := by
  obtain ⟨rows, found, inserted⟩ := of_bind_ok inserted
  cases inserted
  obtain ⟨free, grown⟩ := Table.insert?_eq_some_iff.1 (orRaise_eq_ok.1 found)
  exact ⟨rows, grown, fun other mem same => free other mem (.inr same), rfl⟩

/-- A turn is committed: one receipt, and the entries of the turn behind the history it leaves. -/
structure Commits (now : Int) (turn : AcceptTurn) (store next : Store) : Prop where
  unseen : ∀ receipt ∈ store.turnIngressReceipts.rows, receipt.toRequestKey ≠ turn.requestKey
  receipts : next.turnIngressReceipts.rows = store.turnIngressReceipts.rows ++ [turn.receipt now]
  rows : ∃ kept rows, next.transcriptEntries = kept ++ rows ∧ kept.Sublist store.transcriptEntries ∧
    rows.map TranscriptRow.toTranscriptEntry = turn.entries ∧
      ∀ row ∈ rows, store.transcriptSequence < row.id ∧ row.id ≤ next.transcriptSequence
  sequence : store.transcriptSequence ≤ next.transcriptSequence

-- The row of the guard goes, and its dispatch receipt comes.
structure Dispatches (row : PendingRow) (receipt : DispatchReceipt) (store next : Store) : Prop where
  mem : row ∈ store.pendingChatInputs.rows
  identity : receipt.toPendingIdentity = row.toPendingIdentity
  waiting : next.pendingChatInputs.rows = store.pendingChatInputs.rows.filter (fun other => other ≠ row)
  dispatched : next.dispatchReceipts.rows = store.dispatchReceipts.rows ++ [receipt]
  cancelled : next.cancellations = store.cancellations

theorem Dispatches.change {row : PendingRow} {receipt : DispatchReceipt} {store next : Store}
    (dispatches : store.Dispatches row receipt next) : store.Change next :=
  .dispatched row receipt dispatches.mem dispatches.identity dispatches.waiting
    dispatches.dispatched dispatches.cancelled

end Store

open Store

variable {turn : AcceptTurn}

theorem insertInitialEntries_ok {entries : List TranscriptEntry} {store next : Store}
    (inserted : insertInitialEntries turn entries store = .ok next) :
    Writes (entries.map TranscriptEntry.canonical) store next := by
  induction entries generalizing store with
  | nil =>
    cases inserted
    exact .nil _
  | cons entry rest ih =>
    obtain ⟨_, -, inserted⟩ := of_bind_ok inserted
    obtain ⟨between, first, inserted⟩ := of_bind_ok inserted
    exact (insertTranscriptEntry_ok first).append (ih inserted)

variable {result : TurnAcceptanceResult}

theorem commitTurn_ok {now : Int} {store next : Store} (ran : commitTurn now turn store = .ok (next, result)) :
    store.Commits now turn next ∧ store.SameQueue next ∧ result.receipt = turn.receipt now ∧
      result.replayed = false := by
  obtain ⟨_, -, ran⟩ := of_bind_ok ran
  obtain ⟨_, -, ran⟩ := of_bind_ok ran
  obtain ⟨copied, initial, ran⟩ := of_bind_ok ran
  obtain ⟨written, entry, ran⟩ := of_bind_ok ran
  obtain ⟨_, -, ran⟩ := of_bind_ok ran
  obtain ⟨stored, receipt, ran⟩ := of_bind_ok ran
  cases ran
  have writes := (insertInitialEntries_ok initial).append (insertTranscriptEntry_ok entry)
  obtain ⟨receipts, grown, unseen, rfl⟩ := insertTurnReceipt_ok receipt
  obtain ⟨rows, appended, entries, numbered⟩ := writes.rows
  rw [writes.receipts] at grown unseen
  refine ⟨⟨unseen, grown, ⟨_, rows, appended, List.filter_sublist, entries, numbered⟩,
    writes.sequence⟩, ⟨writes.queue.waiting, writes.queue.dispatched, writes.queue.cancelled⟩, rfl, rfl⟩

variable {codec : PayloadCodec Payload}

theorem admitGuarded_ok {guarded : PendingGuard} {store : Store} {pending : PendingChatInput Payload}
    (ran : admitGuarded codec turn guarded store = .ok pending) :
    ∃ row ∈ store.pendingChatInputs.rows, turn.Guards guarded row ∧
      row.clientMessageId = pending.clientMessageId := by
  obtain ⟨selected, read, ran⟩ := of_bind_ok ran
  obtain ⟨found, present, ran⟩ := of_bind_ok ran
  obtain ⟨_, identity, ran⟩ := of_bind_ok ran
  obtain ⟨_, revision, ran⟩ := of_bind_ok ran
  obtain ⟨_, message, ran⟩ := of_bind_ok ran
  cases ran
  rw [orRaise_eq_ok] at present
  subst present
  rw [raiseIf_eq_ok, not_not] at identity revision
  rw [raiseIf_eq_ok] at message
  obtain ⟨row, mem, same, from_⟩ := selectPendingChatInput_some read
  rw [from_.identity, from_.fingerprint] at identity
  rw [from_.revision] at revision
  refine ⟨row, mem, ⟨same, identity.1, identity.2.1, identity.2.2.1, identity.2.2.2, revision, ?_⟩,
    by rw [from_.identity]⟩
  intro messageId named
  rw [← from_.identity]
  by_contra other
  exact message ⟨messageId, named, not_or.1 other⟩

theorem dispatchPending_ok {now : Int} {guarded : PendingGuard} {row : PendingRow}
    {store next : Store} (mem : row ∈ store.pendingChatInputs.rows) (guards : turn.Guards guarded row)
    (ran : dispatchPending now turn guarded row.clientMessageId store = .ok next) :
    (∃ receipt, store.Dispatches row receipt next) ∧ store.SameLedger next := by
  obtain ⟨stored, inserted, ran⟩ := of_bind_ok ran
  obtain ⟨_, -, ran⟩ := of_bind_ok ran
  cases ran
  obtain ⟨rows, grown, rfl⟩ := insert_ok inserted
  refine ⟨⟨_, mem, ?_, ?_, grown, rfl⟩, ⟨rfl, rfl, rfl⟩⟩
  · simp only [← guards.pendingInputId, ← guards.sessionKey, ← guards.sourceScope,
      ← guards.clientRequestId]
  · refine List.filter_congr fun other present => ?_
    rw [← decide_not, decide_eq_decide, not_iff_not]
    constructor
    next => exact fun same => Table.eq_of_clash present mem (.inl (same.1.trans guards.pendingInputId.symm))
    next =>
      rintro rfl
      exact ⟨guards.pendingInputId, guards.sessionKey, guards.sourceScope, guards.clientRequestId,
        guards.fingerprint, guards.revision⟩

theorem consumeLeftover_ok {key : RequestKey} {guarded : PendingGuard}
    {store next : Store} (consistent : store.Consistent)
    (ran : consumeLeftover codec key guarded store = .ok next) :
    next = store ∧ ∃ receipt ∈ store.dispatchReceipts.rows,
      receipt.pendingInputId = guarded.pendingInputId := by
  obtain ⟨receipt, found, ran⟩ := of_bind_ok ran
  obtain ⟨_, -, ran⟩ := of_bind_ok ran
  obtain ⟨selected, read, ran⟩ := of_bind_ok ran
  obtain ⟨present, same⟩ := selectDispatchReceipt_eq_some_iff.1 (orRaise_eq_ok.1 found)
  cases selected with
  | none =>
    cases ran
    exact ⟨rfl, receipt, present, same⟩
  | some pending =>
    obtain ⟨row, mem, waiting, -⟩ := selectPendingChatInput_some read
    exact absurd (.inl (waiting.trans same.symm)) (consistent.undispatched row mem receipt present)

inductive Accepted (now : Int) (turn : AcceptTurn) (store next : Store) (replayed : Bool) : Prop
  | replays (same : next = store) (seen : replayed = true)
      (bound : ∀ guarded ∈ turn.pendingGuard, ∃ receipt ∈ store.dispatchReceipts.rows,
        receipt.pendingInputId = guarded.pendingInputId)
  | commits (commits : store.Commits now turn next) (first : replayed = false)
      (unguarded : turn.pendingGuard = none) (queue : store.SameQueue next)
  | dispatches (commits : store.Commits now turn next) (first : replayed = false)
      (guarded : PendingGuard) (guard : turn.pendingGuard = some guarded) (row : PendingRow)
      (guards : turn.Guards guarded row) (receipt : DispatchReceipt)
      (dispatches : store.Dispatches row receipt next)

theorem Accepted.change {now : Int} {store next : Store} {replayed : Bool}
    (accepted : Accepted now turn store next replayed) : store.Change next := by
  cases accepted with
  | replays same =>
    rw [same]
    exact .same store
  | commits _ _ _ queue => exact .quiet queue.waiting queue.dispatched queue.cancelled
  | dispatches _ _ _ _ _ _ _ dispatches => exact dispatches.change

theorem replayTurn_ok {now : Int} {receipt : TurnIngressReceipt} {store next : Store}
    (consistent : store.Consistent) (ran : replayTurn codec turn receipt store = .ok (next, result)) :
    Accepted now turn store next result.replayed := by
  obtain ⟨_, -, ran⟩ := of_bind_ok ran
  obtain ⟨left, consumed, ran⟩ := of_bind_ok ran
  obtain ⟨_, -, ran⟩ := of_bind_ok ran
  cases ran
  cases guard : turn.pendingGuard with
  | none =>
    rw [guard] at consumed
    cases consumed
    exact .replays rfl rfl (by simp [guard])
  | some guarded =>
    rw [guard] at consumed
    obtain ⟨rfl, bound⟩ := consumeLeftover_ok consistent consumed
    exact .replays rfl rfl (by simpa [guard] using bound)

theorem acceptUnseen_ok {now : Int} {store next : Store}
    (ran : acceptUnseen codec now turn store = .ok (next, result)) :
    Accepted now turn store next result.replayed := by
  unfold acceptUnseen at ran
  split at ran
  next unguarded =>
    obtain ⟨commits, queue, -, first⟩ := commitTurn_ok ran
    exact .commits commits first unguarded queue
  next guarded guard =>
    obtain ⟨pending, admitted, ran⟩ := of_bind_ok ran
    obtain ⟨⟨committed, accepted⟩, commits, ran⟩ := of_bind_ok ran
    obtain ⟨dispatched, dispatches, ran⟩ := of_bind_ok ran
    cases ran
    obtain ⟨row, mem, guards, message⟩ := admitGuarded_ok admitted
    obtain ⟨commits, queue, -, first⟩ := commitTurn_ok commits
    rw [← message] at dispatches
    rw [← queue.waiting] at mem
    obtain ⟨⟨receipt, dispatches⟩, ledger⟩ := dispatchPending_ok mem guards dispatches
    refine .dispatches ⟨commits.unseen, ?_, ?_, ?_⟩ first guarded guard row guards receipt
      ⟨?_, dispatches.identity, ?_, ?_, ?_⟩
    · rw [ledger.receipts, commits.receipts]
    · rw [ledger.entries, ledger.sequence]
      exact commits.rows
    · rw [ledger.sequence]
      exact commits.sequence
    · rw [← queue.waiting]
      exact mem
    · rw [dispatches.waiting, queue.waiting]
    · rw [dispatches.dispatched, queue.dispatched]
    · rw [dispatches.cancelled, queue.cancelled]

theorem acceptTurn_ok {now : Int} {store next : Store} (consistent : store.Consistent)
    (ran : acceptTurn codec now turn store = .ok (next, result)) :
    Accepted now turn store next result.replayed := by
  obtain ⟨_, -, ran⟩ := of_bind_ok ran
  obtain ⟨_, -, ran⟩ := of_bind_ok ran
  split at ran
  next => exact replayTurn_ok consistent ran
  next => exact acceptUnseen_ok ran

end OpenSquilla.PendingInputs
