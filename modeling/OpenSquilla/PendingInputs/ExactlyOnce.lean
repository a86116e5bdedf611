import OpenSquilla.PendingInputs.Dispatch
import OpenSquilla.Shared.Runs

set_option autoImplicit false

namespace OpenSquilla.PendingInputs

open TextLines OneShot
open RaisingRuns (of_bind_ok raiseAny)
open PendingChatInput (Revised)

variable {Payload : Type}

inductive Request (Payload : Type)
  | enqueue (sidechat : Option Raised) (args : Enqueue Payload)
  | consumeReplayed (args : ConsumeReplayed)
  | update (pendingInputId sessionKey : Text) (expectedRevision position : Int)
  | reorder (sessionKey : Text) (expectedRevisions : List (Text × Int))
  | cancel (pendingInputId sessionKey : Text) (expectedRevision : Option Int)
  | acceptTurn (turn : AcceptTurn)

inductive Reply (Payload : Type)
  | enqueued (row : PendingChatInput Payload) (replayed : Bool)
  | consumed (removed : Bool)
  | updated (row : PendingChatInput Payload)
  | reordered (rows : List (PendingChatInput Payload))
  | cancelled (removed : Bool)
  | accepted (result : TurnAcceptanceResult)

/-- A call of some client; `unavailable` is what its transaction fails with to begin or to commit. -/
structure Call (Payload : Type) where
  now : Int
  unavailable : Option Raised := none
  request : Request Payload

namespace Call

def requestKey? (call : Call Payload) : Option RequestKey :=
  match call.request with
  | .acceptTurn turn => some turn.requestKey
  | _ => none

def guardId? (call : Call Payload) : Option Text :=
  match call.request with
  | .acceptTurn turn => turn.pendingGuard.map (·.pendingInputId)
  | _ => none

end Call

-- One call as a transaction: what raises leaves nothing behind.
def perform [BEq Payload] (codec : PayloadCodec Payload) (call : Call Payload) (store : Store) :
    Except Raised (Store × Reply Payload) := do
  raiseAny call.unavailable
  match call.request with
  | .enqueue sidechat args =>
    let (store, row, replayed) ← enqueuePendingChatInput codec call.now sidechat args store
    return (store, .enqueued row replayed)
  | .consumeReplayed args =>
    let (store, removed) ← consumeReplayedPendingChatInput codec args store
    return (store, .consumed removed)
  | .update pendingInputId sessionKey expectedRevision position =>
    let (store, row) ←
      updatePendingChatInput codec call.now pendingInputId sessionKey expectedRevision position store
    return (store, .updated row)
  | .reorder sessionKey expectedRevisions =>
    let (store, rows) ← reorderPendingChatInputs codec call.now sessionKey expectedRevisions store
    return (store, .reordered rows)
  | .cancel pendingInputId sessionKey expectedRevision =>
    let (store, removed) ←
      cancelPendingChatInput codec call.now pendingInputId sessionKey expectedRevision store
    return (store, .cancelled removed)
  | .acceptTurn turn =>
    let (store, result) ← acceptTurn codec call.now turn store
    return (store, .accepted result)

-- A call that was made, with the store before and after it.
structure Event (Payload : Type) where
  call : Call Payload
  before : Store
  after : Store
  reply : Except Raised (Reply Payload)

namespace Event

def insertedEntries (event : Event Payload) : List TranscriptEntry :=
  (event.after.transcriptEntries.filter
    (fun row => event.before.transcriptSequence < row.id)).map TranscriptRow.toTranscriptEntry

def insertedReceipts (event : Event Payload) : List TurnIngressReceipt :=
  event.after.turnIngressReceipts.rows.filter (· ∉ event.before.turnIngressReceipts.rows)

-- The call committed an entry to the transcript, or a turn receipt.
def Commits (event : Event Payload) : Prop :=
  event.insertedEntries ≠ [] ∨ event.insertedReceipts ≠ []

instance (event : Event Payload) : Decidable event.Commits := inferInstanceAs (Decidable (_ ∨ _))

/-- What is committed is the one receipt of a turn that was not replayed, and the entries of the turn. -/
structure CommitsTurn (turn : AcceptTurn) (event : Event Payload) : Prop where
  request : event.call.request = .acceptTurn turn
  reply : ∃ result, event.reply = .ok (.accepted result) ∧ result.replayed = false
  receipts : event.insertedReceipts = [turn.receipt event.call.now]
  entries : event.insertedEntries = turn.entries

end Event

structure World (Payload : Type) where
  store : Store
  history : List (Event Payload)

def Store.empty : Store where
  pendingChatInputs := Table.empty
  dispatchReceipts := Table.empty
  cancellations := Table.empty
  turnIngressReceipts := Table.empty
  transcriptEntries := []
  transcriptSequence := 0

namespace World

def start : World Payload := ⟨Store.empty, []⟩

def step [BEq Payload] (codec : PayloadCodec Payload) (world : World Payload) (call : Call Payload) :
    World Payload :=
  match perform codec call world.store with
  | .ok (next, reply) => ⟨next, world.history ++ [⟨call, world.store, next, .ok reply⟩]⟩
  | .error raised => ⟨world.store, world.history ++ [⟨call, world.store, world.store, .error raised⟩]⟩

def committedFor (key : RequestKey) (world : World Payload) : Nat :=
  world.history.countP (fun event => event.call.requestKey? = some key ∧ event.Commits)

-- How often turns guarded by this identifier were committed.
def committedUnder (pendingInputId : Text) (world : World Payload) : Nat :=
  world.history.countP (fun event => event.call.guardId? = some pendingInputId ∧ event.Commits)

end World

inductive Performed (call : Call Payload) (store next : Store) (reply : Reply Payload) : Prop
  | queued (unguarded : call.guardId? = none) (quiet : call.requestKey? = none)
      (step : store.QueueStep next)
  | accepted (turn : AcceptTurn) (result : TurnAcceptanceResult)
      (request : call.request = .acceptTurn turn) (replied : reply = .accepted result)
      (accepted : Accepted call.now turn store next result.replayed)

theorem perform_ok [BEq Payload] {codec : PayloadCodec Payload} {call : Call Payload}
    {store next : Store} {reply : Reply Payload} (consistent : store.Consistent)
    (ran : perform codec call store = .ok (next, reply)) : Performed call store next reply := by
  obtain ⟨_, -, ran⟩ := of_bind_ok ran
  obtain ⟨now, unavailable, request⟩ := call
  cases request with
  | enqueue sidechat args =>
    obtain ⟨⟨stored, row, replayed⟩, enqueued, ran⟩ := of_bind_ok ran
    cases ran
    exact .queued rfl rfl (enqueue_step enqueued)
  | consumeReplayed args =>
    obtain ⟨⟨stored, removed⟩, consumed, ran⟩ := of_bind_ok ran
    cases ran
    exact .queued rfl rfl (consume_step consistent consumed)
  | update pendingInputId sessionKey expectedRevision position =>
    obtain ⟨⟨stored, row⟩, updated, ran⟩ := of_bind_ok ran
    cases ran
    exact .queued rfl rfl (update_step updated)
  | reorder sessionKey expectedRevisions =>
    obtain ⟨⟨stored, rows⟩, reordered, ran⟩ := of_bind_ok ran
    cases ran
    exact .queued rfl rfl (reorder_step reordered)
  | cancel pendingInputId sessionKey expectedRevision =>
    obtain ⟨⟨stored, removed⟩, cancelled, ran⟩ := of_bind_ok ran
    cases ran
    exact .queued rfl rfl (cancel_step consistent cancelled)
  | acceptTurn turn =>
    obtain ⟨⟨stored, result⟩, accepted, ran⟩ := of_bind_ok ran
    cases ran
    exact .accepted turn result rfl rfl (acceptTurn_ok consistent accepted)

namespace Event

variable {event : Event Payload}

theorem insertedEntries_of_same
    (numbered : ∀ row ∈ event.before.transcriptEntries, row.id ≤ event.before.transcriptSequence)
    (ledger : event.before.SameLedger event.after) : event.insertedEntries = [] := by
  rw [insertedEntries, ledger.entries, List.map_eq_nil_iff, List.filter_eq_nil_iff]
  intro row mem later
  exact absurd (numbered row mem) (Nat.not_le.2 (of_decide_eq_true later))

theorem insertedReceipts_of_same
    (ledger : event.before.SameLedger event.after) : event.insertedReceipts = [] := by
  rw [insertedReceipts, ledger.receipts, List.filter_eq_nil_iff]
  intro receipt mem
  simpa using mem

theorem not_commits_of_same
    (numbered : ∀ row ∈ event.before.transcriptEntries, row.id ≤ event.before.transcriptSequence)
    (ledger : event.before.SameLedger event.after) : ¬event.Commits := by
  rintro (entries | receipts)
  · exact entries (insertedEntries_of_same numbered ledger)
  · exact receipts (insertedReceipts_of_same ledger)

theorem insertedReceipts_of_commits {turn : AcceptTurn}
    (commits : event.before.Commits event.call.now turn event.after) :
    event.insertedReceipts = [turn.receipt event.call.now] := by
  have new : turn.receipt event.call.now ∉ event.before.turnIngressReceipts.rows :=
    fun mem => commits.unseen _ mem rfl
  have old : event.before.turnIngressReceipts.rows.filter
      (· ∉ event.before.turnIngressReceipts.rows) = [] := by
    rw [List.filter_eq_nil_iff]
    intro receipt mem
    simpa using mem
  rw [insertedReceipts, commits.receipts, List.filter_append, old, List.nil_append,
    List.filter_singleton, decide_eq_true new]
  rfl

theorem insertedEntries_of_commits {turn : AcceptTurn}
    (numbered : ∀ row ∈ event.before.transcriptEntries, row.id ≤ event.before.transcriptSequence)
    (commits : event.before.Commits event.call.now turn event.after) :
    event.insertedEntries = turn.entries := by
  obtain ⟨kept, rows, grown, fewer, written, later⟩ := commits.rows
  have old : kept.filter (fun row => event.before.transcriptSequence < row.id) = [] := by
    rw [List.filter_eq_nil_iff]
    intro row mem new
    exact absurd (numbered row (fewer.subset mem)) (Nat.not_le.2 (of_decide_eq_true new))
  have new : rows.filter (fun row => event.before.transcriptSequence < row.id) = rows := by
    rw [List.filter_eq_self]
    exact fun row mem => decide_eq_true (later row mem).1
  rw [insertedEntries, grown, List.filter_append, old, new, List.nil_append, written]

end Event

namespace World

/-- The tables keep what the history has committed, each request and each identifier once. -/
structure Sound (world : World Payload) : Prop where
  consistent : world.store.Consistent
  numbered : ∀ row ∈ world.store.transcriptEntries, row.id ≤ world.store.transcriptSequence
  byKey : ∀ key, world.committedFor key =
    world.store.turnIngressReceipts.rows.countP (fun receipt => receipt.toRequestKey = key)
  byId : ∀ pendingInputId, world.committedUnder pendingInputId =
    world.store.dispatchReceipts.rows.countP (fun receipt => receipt.pendingInputId = pendingInputId)
  committed : ∀ event ∈ world.history, event.Commits → ∃ turn, event.CommitsTurn turn

variable {world : World Payload}

theorem Sound.quiet (sound : world.Sound) (event : Event Payload)
    (before : event.before = world.store) (consistent : event.after.Consistent)
    (ledger : event.before.SameLedger event.after)
    (dispatched : event.after.dispatchReceipts = event.before.dispatchReceipts) :
    (⟨event.after, world.history ++ [event]⟩ : World Payload).Sound := by
  have nothing : ¬event.Commits :=
    Event.not_commits_of_same (by rw [before]; exact sound.numbered) ledger
  refine ⟨consistent, ?_, fun key => ?_, fun pendingInputId => ?_, fun other mem commits => ?_⟩
  · simp only [ledger.entries, ledger.sequence, before]
    exact sound.numbered
  · simp only [committedFor, List.countP_append, List.countP_singleton, nothing, and_false,
      decide_false, ledger.receipts, before]
    exact sound.byKey key
  · simp only [committedUnder, List.countP_append, List.countP_singleton, nothing, and_false,
      decide_false, dispatched, before]
    exact sound.byId pendingInputId
  · obtain earlier | rfl := (List.mem_append.1 mem).imp_right List.mem_singleton.1
    · exact sound.committed other earlier commits
    · exact absurd commits nothing

theorem Sound.commits (sound : world.Sound) (event : Event Payload)
    {turn : AcceptTurn} {result : TurnAcceptanceResult} (before : event.before = world.store)
    (consistent : event.after.Consistent) (request : event.call.request = .acceptTurn turn)
    (reply : event.reply = .ok (.accepted result)) (first : result.replayed = false)
    (commits : event.before.Commits event.call.now turn event.after) (dispatched : ∀ pendingInputId,
      event.after.dispatchReceipts.rows.countP (fun receipt => receipt.pendingInputId = pendingInputId) =
        event.before.dispatchReceipts.rows.countP
            (fun receipt => receipt.pendingInputId = pendingInputId) +
          if event.call.guardId? = some pendingInputId then 1 else 0) :
    (⟨event.after, world.history ++ [event]⟩ : World Payload).Sound := by
  have numbered : ∀ row ∈ event.before.transcriptEntries,
      row.id ≤ event.before.transcriptSequence := by
    rw [before]
    exact sound.numbered
  have receipts := Event.insertedReceipts_of_commits commits
  have entries := Event.insertedEntries_of_commits numbered commits
  have happened : event.Commits := .inr (by simp [receipts])
  have key : event.call.requestKey? = some turn.requestKey := by simp [Call.requestKey?, request]
  refine ⟨consistent, ?_, fun other => ?_, fun pendingInputId => ?_, fun other mem committed => ?_⟩
  · obtain ⟨kept, rows, grown, fewer, -, later⟩ := commits.rows
    intro row mem
    obtain old | new := List.mem_append.1 (grown ▸ mem)
    · exact (numbered row (fewer.subset old)).trans commits.sequence
    · exact (later row new).2
  · have known := sound.byKey other
    rw [← before, committedFor] at known
    simp only [committedFor, List.countP_append, List.countP_singleton, happened, and_true, key,
      commits.receipts, known, Option.some.injEq, decide_eq_true_eq]
    rfl
  · have known := sound.byId pendingInputId
    rw [← before, committedUnder] at known
    simp only [committedUnder, List.countP_append, List.countP_singleton, happened, and_true, known,
      dispatched, decide_eq_true_eq]
  · obtain earlier | rfl := (List.mem_append.1 mem).imp_right List.mem_singleton.1
    · exact sound.committed other earlier committed
    · exact ⟨turn, request, ⟨result, reply, first⟩, receipts, entries⟩

theorem step_sound [BEq Payload] (codec : PayloadCodec Payload) (world : World Payload)
    (call : Call Payload) (sound : world.Sound) : (world.step codec call).Sound := by
  unfold step
  split
  next next reply ran =>
    obtain ⟨-, -, step⟩ | ⟨turn, result, request, rfl, accepted⟩ := perform_ok sound.consistent ran
    · exact sound.quiet ⟨call, world.store, next, .ok reply⟩ rfl
          (step.change.consistent sound.consistent) step.ledger step.dispatched
    · have consistent := accepted.change.consistent sound.consistent
      have guard : call.guardId? = turn.pendingGuard.map (·.pendingInputId) := by
        simp [Call.guardId?, request]
      cases accepted with
      | replays same =>
        subst same
        exact sound.quiet ⟨call, world.store, world.store, _⟩ rfl consistent .rfl rfl
      | commits commits first unguarded queue =>
        refine sound.commits ⟨call, world.store, next,
            _⟩ rfl consistent request rfl first commits fun pendingInputId => ?_
        simp [guard, unguarded, queue.dispatched]
      | dispatches commits first guarded guard' row guards receipt dispatches =>
        refine sound.commits ⟨call, world.store, next,
            _⟩ rfl consistent request rfl first commits fun pendingInputId => ?_
        have same : receipt.pendingInputId = guarded.pendingInputId := by
          rw [dispatches.identity, guards.pendingInputId]
        simp [guard, guard', dispatches.dispatched, List.countP_append, List.countP_singleton, same]
  next raised ran => exact sound.quiet ⟨call, world.store, world.store, _⟩ rfl sound.consistent .rfl rfl

end World

namespace Store

def Waiting (pendingInputId : Text) (store : Store) : Prop :=
  ∃ row ∈ store.pendingChatInputs.rows, row.pendingInputId = pendingInputId

def Dispatched (pendingInputId : Text) (store : Store) : Prop :=
  ∃ receipt ∈ store.dispatchReceipts.rows, receipt.pendingInputId = pendingInputId

def Cancelled (pendingInputId : Text) (store : Store) : Prop :=
  ∃ tombstone ∈ store.cancellations.rows, tombstone.pendingInputId = pendingInputId

/-- From `store` to `next` nothing that is settled is undone, and nothing that waits is lost. -/
structure Kept (pendingInputId : Text) (store next : Store) : Prop where
  dispatched : store.Dispatched pendingInputId → next.Dispatched pendingInputId
  cancelled : store.Cancelled pendingInputId → next.Cancelled pendingInputId
  waiting : store.Waiting pendingInputId →
    next.Waiting pendingInputId ∨ next.Dispatched pendingInputId ∨ next.Cancelled pendingInputId

variable {pendingInputId : Text}

end Store

namespace World

end World

end OpenSquilla.PendingInputs
