import OpenSquilla.Approvals.Claims

set_option autoImplicit false

namespace OpenSquilla.Approvals

open Runs
open Streams (Payload)

structure Consistent (row : PendingApproval) : Prop where
  consumed : row.consumed = true → row.resolved = true ∧ row.approved = true
  approved : row.resolution = .approved ↔ row.resolved = true ∧ row.approved = true
  refused : row.resolution = .denied ∨ row.resolution = .expired ↔
    row.resolved = true ∧ row.approved = false
  undecided : row.resolution = .none ↔ row.resolved = false
  claim : row.claimToken.isSome = row.claimStartedAt.isSome

namespace Consistent

variable {row : PendingApproval}

theorem unconsumed_of_unresolved (consistent : Consistent row) (unresolved : row.resolved = false) :
    row.consumed = false :=
  Bool.eq_false_iff.mpr fun consumed => by simp [(consistent.consumed consumed).1] at unresolved

theorem unclaimed (consistent : Consistent row) : Consistent row.unclaimed :=
  ⟨consistent.consumed, consistent.approved, consistent.refused, consistent.undecided, rfl⟩

theorem decide {approved : Bool} (unconsumed : row.consumed = false)
    (claim : row.claimToken.isSome = row.claimStartedAt.isSome) (params : Payload) : Consistent { row with
      resolved := true, approved := approved, resolution := decided approved, params := params } := by
  constructor
  · intro consumed
    simp [unconsumed] at consumed
  · cases approved <;> simp [decided]
  · cases approved <;> simp [decided]
  · cases approved <;> simp [decided]
  · exact claim

theorem expire (row : PendingApproval) (unconsumed : row.consumed = false) :
    Consistent { row with resolved := true, approved := false, resolution := .expired }.unclaimed := by
  constructor <;> simp [PendingApproval.unclaimed, unconsumed]

theorem change {Fresh : String → Prop} {approvalId : String} {next : PendingApproval}
    {events : List ApprovalEvent} (consistent : Consistent row)
    (change : Change Fresh approvalId row next events) : Consistent next := by
  cases change with
  | amended params deadline unresolved =>
    exact ⟨consistent.consumed, consistent.approved, consistent.refused, consistent.undecided,
      consistent.claim⟩
  | resolved approved params unresolved unclaimed =>
    exact decide (consistent.unconsumed_of_unresolved unresolved) consistent.claim params
  | claimed token now params fresh unresolved unclaimed =>
    exact ⟨consistent.consumed, consistent.approved, consistent.refused, consistent.undecided, rfl⟩
  | finalized token approved unresolved held =>
    exact decide (consistent.unconsumed_of_unresolved unresolved) consistent.claim row.params
  | completed | released => exact consistent.unclaimed
  | expired unresolved => exact expire row (consistent.unconsumed_of_unresolved unresolved)
  | claimExpired token held => exact expire { row with consumed := false } rfl
  | reopened resolved => constructor <;> simp [PendingApproval.unclaimed]
  | consumed resolved approved unclaimed unconsumed =>
    exact ⟨fun _ => ⟨resolved, approved⟩, consistent.approved, consistent.refused,
      consistent.undecided, consistent.claim⟩

end Consistent

namespace ApprovalQueue

def RowsConsistent (q : ApprovalQueue) : Prop :=
  ∀ approvalId row, q.rows.get? approvalId = some row → Consistent row

theorem move_consistent {q next : ApprovalQueue} (consistent : q.RowsConsistent) (move : Move q next) :
    next.RowsConsistent := by
  intro other otherRow otherFound
  cases move with
  | requested approvalId nspace params createdAt deadline absent =>
    by_cases here : other = approvalId
    · obtain rfl : _ = otherRow := by simpa [write, here] using otherFound
      constructor <;> simp
    · rw [write, Dict.get?_set, if_neg here] at otherFound
      exact consistent other otherRow otherFound
  | changed approvalId row next events found change =>
    by_cases here : other = approvalId
    · obtain rfl : _ = otherRow := by simpa [write, here] using otherFound
      exact (consistent approvalId row found).change change
    · rw [write, Dict.get?_set, if_neg here] at otherFound
      exact consistent other otherRow otherFound

theorem move_ttl {q next : ApprovalQueue} (move : Move q next) : next.claimTtlSeconds = q.claimTtlSeconds := by
  cases move <;> rfl

/-- The clock reading by which `get`, `consume`, `resolve` and `claim_resolution` judge claims
before they do anything else. -/
def releasesAt : ApprovalOp → Option Time
  | .get _ now => some now
  | .consume _ clocks | .resolve _ _ _ _ clocks | .claimResolution _ _ _ clocks => some clocks.before
  | _ => none

section Calls

variable {q : ApprovalQueue} {op : ApprovalOp} {now : Time} {approvalId token : String}
  {row : PendingApproval}

theorem moves_after_release (permitted : q.Permitted op) (releases : releasesAt op = some now) :
    Moves (q.releaseStaleClaims now) (q.step op) := by
  cases op with
  | get target polled =>
    cases releases
    exact .refl
  | consume target clocks =>
    cases releases
    exact transactionThenGet_moves (fun _ => consumeRow_sanctioned) clocks.after
  | resolve target approved allowIdempotent resolutionMetadata clocks =>
    cases releases
    exact transactionThenGet_moves
      (fun _ => resolveRow_sanctioned approved allowIdempotent resolutionMetadata) clocks.after
  | claimResolution target drawn resolutionMetadata clocks =>
    cases releases
    have fresh : q.FreshIn drawn := fun other claimed => permitted (List.mem_map_of_mem claimed)
    exact transactionThenGet_moves (fun _ => claimRow_sanctioned
      (freshIn_releaseStaleClaims fresh clocks.before) clocks.now resolutionMetadata) clocks.after
  | _ => cases releases

theorem moves_found {q next : ApprovalQueue} (moves : Moves q next)
    (found : (q.rows.get? approvalId).isSome) : (next.rows.get? approvalId).isSome := by
  refine moves_invariant (I := fun q => (q.rows.get? approvalId).isSome) (fun q next found move => ?_)
    found moves
  cases move <;>
  · rw [write, Dict.get?_set]
    split
    · rfl
    · exact found

theorem moves_recorded {q next : ApprovalQueue} {event : ApprovalEvent} (moves : Moves q next)
    (recorded : event ∈ q.history) : event ∈ next.history := by
  refine moves_invariant (I := fun q => event ∈ q.history) (fun q next recorded move => ?_)
    recorded moves
  obtain ⟨events, grown⟩ := move_history move
  rw [grown]
  exact List.mem_append_left _ recorded

theorem staleClaim_of_started {started threshold : Time} (unresolved : row.resolved = false)
    (held : row.claimToken = some token) (since : row.claimStartedAt = some started)
    (stale : started ≤ threshold) : row.staleClaim threshold = true := by
  simp [PendingApproval.staleClaim, unresolved, held, since, stale]

theorem released_lost (sound : q.leases.Sound) (found : q.rows.get? approvalId = some row)
    (held : row.claimToken = some token) (stale : row.staleClaim (now - q.claimTtlSeconds) = true) :
    Lost approvalId token (q.releaseStaleClaims now) where
  granted := moves_recorded (releaseStaleClaims_moves q now) (claimed_of_carried sound found held)
  gone next nextFound := by
    rw [get?_releaseStaleClaims, found, Option.map_some, freed, if_pos stale] at nextFound
    obtain rfl := Option.some.inj nextFound
    intro kept
    cases kept

theorem stale_claim_dropped (sound : q.leases.Sound) (permitted : q.Permitted op)
    (releases : releasesAt op = some now) (found : q.rows.get? approvalId = some row)
    (held : row.claimToken = some token) (stale : row.staleClaim (now - q.claimTtlSeconds) = true) :
    ∃ next, (q.step op).rows.get? approvalId = some next ∧ next.claimToken ≠ some token := by
  have moves := moves_after_release permitted releases
  have releasedSound : (q.releaseStaleClaims now).leases.Sound :=
    moves_invariant (fun _ _ => move_sound) sound (releaseStaleClaims_moves q now)
  have lost := moves_lost releasedSound (released_lost sound found held stale) moves
  have present : (q.rows.get? approvalId).isSome := by rw [found, Option.isSome_some]
  obtain ⟨next, nextFound⟩ := Option.isSome_iff_exists.mp
    (moves_found ((releaseStaleClaims_moves q now).trans moves) present)
  exact ⟨next, nextFound, lost.gone next nextFound⟩

theorem get?_transaction_of_ne {target : String} (elsewhere : approvalId ≠ target)
    (body : PendingApproval → Decision) :
    (q.transaction target body).2.rows.get? approvalId = q.rows.get? approvalId := by
  unfold transaction
  split
  · rfl
  · split
    · rfl
    · rfl
    · rw [write, Dict.get?_set, if_neg elsewhere]

theorem get?_release_of_resolved (found : q.rows.get? approvalId = some row)
    (resolved : row.resolved = true) (now : Time) :
    (q.releaseStaleClaims now).rows.get? approvalId = some row := by
  rw [get?_releaseStaleClaims, found, Option.map_some, freed_resolved resolved]

theorem get?_call_of_resolved {body : PendingApproval → Decision}
    (found : q.rows.get? approvalId = some row) (resolved : row.resolved = true)
    (refused : ∀ next events, body row ≠ .ok (some (next, events))) (target : String) (before after : Time) :
    ((q.releaseStaleClaims before).transactionThenGet target body after).2.rows.get? approvalId =
      some row := by
  have released := get?_release_of_resolved found resolved before
  by_cases here : approvalId = target
  · subst here
    rw [(transactionThenGet_refused (fun other otherFound => ?_) after).2, released]
    obtain rfl := Option.some.inj (released.symm.trans otherFound)
    exact refused
  · have kept := (get?_transaction_of_ne here body).trans released
    simp only [transactionThenGet]
    split
    · exact get?_release_of_resolved kept resolved after
    · exact kept

theorem held_row_kept (releases : releasesAt op = some now)
    (found : q.rows.get? approvalId = some row) (held : row.claimToken = some token)
    (resolved : row.resolved = true) : (q.step op).rows.get? approvalId = some row := by
  cases op with
  | get target polled => exact get?_release_of_resolved found resolved polled
  | consume target clocks =>
    exact get?_call_of_resolved found resolved (by simp [consumeRow, held]) target _ _
  | resolve target approved allowIdempotent resolutionMetadata clocks =>
    exact get?_call_of_resolved found resolved (by simp [resolveRow, held]) target _ _
  | claimResolution target drawn resolutionMetadata clocks =>
    exact get?_call_of_resolved found resolved (by simp [claimRow, held]) target _ _
  | _ => cases releases

theorem stale_claim_blocks_nobody (found : q.rows.get? approvalId = some row)
    (unresolved : row.resolved = false) {clocks : Clocks}
    (stale : row.staleClaim (clocks.before - q.claimTtlSeconds) = true) (resolutionMetadata : Payload) :
    (∀ approved allowIdempotent,
      (q.resolve approvalId approved allowIdempotent resolutionMetadata clocks).1 = .ok true) ∧
    (∀ drawn, (q.claimResolution approvalId drawn resolutionMetadata clocks).1 = .ok drawn) := by
  have released : (q.releaseStaleClaims clocks.before).rows.get? approvalId = some row.unclaimed := by
    rw [get?_releaseStaleClaims, found, Option.map_some, freed, if_pos stale]
  constructor
  · intro approved allowIdempotent
    simp [resolve, transactionThenGet, transaction, released, resolveRow, PendingApproval.unclaimed,
      unresolved]
  · intro drawn
    simp [claimResolution, transactionThenGet, transaction, released, claimRow,
      PendingApproval.unclaimed, unresolved, Except.map]

end Calls

/-- In every run the columns of each row agree, and a claim that no decision followed within its
time to live is gone after the next call. The claim of a resolved row stays. -/
theorem approval_rows_consistent (defaultTimeout : Option Time) (claimTtlSeconds : Time) (ops : List ApprovalOp)
    (permitted : Along step Permitted (init defaultTimeout claimTtlSeconds) ops)
    (approvalId : String) (row : PendingApproval)
    (found : (run step (init defaultTimeout claimTtlSeconds) ops).rows.get? approvalId = some row) :
    let q := run step (init defaultTimeout claimTtlSeconds) ops
    Consistent row ∧
    ∀ token started, row.claimToken = some token → row.claimStartedAt = some started →
      (∀ op now, q.Permitted op → releasesAt op = some now →
        (row.resolved = false → started ≤ now - max 0 claimTtlSeconds →
          ∃ next, (q.step op).rows.get? approvalId = some next ∧ next.claimToken ≠ some token) ∧
        (row.resolved = true → (q.step op).rows.get? approvalId = some row)) ∧
      (∀ clocks resolutionMetadata, row.resolved = false →
        started ≤ clocks.before - max 0 claimTtlSeconds →
        (∀ approved allowIdempotent,
          (q.resolve approvalId approved allowIdempotent resolutionMetadata clocks).1 = .ok true) ∧
        (∀ drawn, (q.claimResolution approvalId drawn resolutionMetadata clocks).1 = .ok drawn)) := by
  intro q
  have consistent : q.RowsConsistent :=
    run_move_invariant (fun _ _ => move_consistent) (fun _ _ missing => by simp [init] at missing)
      permitted
  have sound : q.leases.Sound :=
    run_move_invariant (fun _ _ => move_sound) (init_sound defaultTimeout claimTtlSeconds) permitted
  have ttl : q.claimTtlSeconds = max 0 claimTtlSeconds :=
    run_move_invariant (fun _ _ same move => (move_ttl move).trans same) rfl permitted
  rw [← ttl]
  have rowConsistent := consistent approvalId row found
  refine ⟨rowConsistent, fun token started held since => ⟨fun op now callPermitted releases =>
    ⟨fun unresolved stale => ?_, held_row_kept releases found held⟩,
    fun clocks resolutionMetadata unresolved stale => ?_⟩⟩
  · exact stale_claim_dropped sound callPermitted releases found held
      (staleClaim_of_started unresolved held since stale)
  · exact stale_claim_blocks_nobody found unresolved
      (staleClaim_of_started unresolved held since stale) resolutionMetadata

def abandonedAfterFinalize : List ApprovalOp :=
  [.request "a" "exec" .empty 0,
   .claimResolution "a" "left" .empty ⟨1, 1, 1⟩,
   .finalizeClaimedResolution "a" "left" true]

theorem finalized_claim_outlives_ttl :
    let q := run step (init (some 60) 60) abandonedAfterFinalize
    Along step Permitted (init (some 60) 60) abandonedAfterFinalize ∧
    q.claimTtlSeconds = 60 ∧
    (q.rows.get? "a").map (fun row => (row.claimToken, row.claimStartedAt)) =
      some (some "left", some 1) ∧
    ((q.step (.get "a" 1000)).rows.get? "a").map (·.claimToken) = some (some "left") ∧
    (q.consume "a" ⟨1000, 1000, 1000⟩).1 = .error (inProgress "a") ∧
    ((q.step (.consume "a" ⟨1000, 1000, 1000⟩)).rows.get? "a").map (·.claimToken) =
      some (some "left") := by
  decide +kernel

theorem approval_rows_consistent_abandoned :
    let q := run step (init (some 60) 60) (abandonedAfterFinalize.take 2)
    ∃ next, (q.step (.consume "a" ⟨61, 61, 61⟩)).rows.get? "a" = some next ∧
      next.claimToken ≠ some "left" := by
  have released := approval_rows_consistent (some 60) 60 (abandonedAfterFinalize.take 2)
    (by decide) "a"
    { nspace := "exec", params := .empty, createdAt := 0, deadline := 60,
      claimToken := some "left", claimStartedAt := some 1 } (by decide +kernel)
  exact ((released.2 "left" 1 rfl rfl).1 (.consume "a" ⟨61, 61, 61⟩) 61 trivial rfl).1 rfl
    (by decide +kernel)

end ApprovalQueue

end OpenSquilla.Approvals
