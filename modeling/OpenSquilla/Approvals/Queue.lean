import OpenSquilla.Shared.Runs
import OpenSquilla.Approvals.Row

set_option autoImplicit false

namespace OpenSquilla.Approvals

open Runs
open Streams (Payload)

-- The durable table. Every operation holds the connection alone.
structure ApprovalQueue where
  claimTtlSeconds : Time
  timeout : Option Time
  rows : Dict String PendingApproval := .empty
  -- what the transactions did so far; no operation reads it
  history : List ApprovalEvent := []

/-- The clock readings of a call: for the stale claims before its transaction, inside the
transaction, and for the stale claims when it reads the row back. -/
structure Clocks where
  before : Time
  now : Time
  after : Time

namespace ApprovalQueue

def init (defaultTimeout : Option Time) (claimTtlSeconds : Time) : ApprovalQueue where
  claimTtlSeconds := max 0 claimTtlSeconds
  timeout := defaultTimeout.map (max 0)

def write (q : ApprovalQueue) (approvalId : String) (row : PendingApproval)
    (events : List ApprovalEvent) : ApprovalQueue :=
  { q with rows := q.rows.set approvalId row, history := q.history ++ events }

def releaseStaleClaim (threshold : Time) (q : ApprovalQueue) (approvalId : String) : ApprovalQueue :=
  match q.rows.get? approvalId with
  | some row =>
    if row.staleClaim threshold then q.write approvalId row.unclaimed (row.claimEnded approvalId)
    else q
  | none => q

def releaseStaleClaims (q : ApprovalQueue) (now : Time) : ApprovalQueue :=
  q.rows.keys.foldl (releaseStaleClaim (now - q.claimTtlSeconds)) q

-- A transaction on one row, and whether it changed the row.
def transaction (q : ApprovalQueue) (approvalId : String) (body : PendingApproval → Decision) :
    Except Raised Bool × ApprovalQueue :=
  match q.rows.get? approvalId with
  | none => (.error (notFound approvalId), q)
  | some row =>
    match body row with
    | .error raised => (.error raised, q)
    | .ok none => (.ok false, q)
    | .ok (some (next, events)) => (.ok true, q.write approvalId next events)

def get (q : ApprovalQueue) (approvalId : String) (now : Time) :
    Except Raised PendingApproval × ApprovalQueue :=
  let q := q.releaseStaleClaims now
  (match q.rows.get? approvalId with
    | some row => .ok row
    | none => .error (notFound approvalId), q)

-- A transaction that changed the row is followed by a read of it.
def transactionThenGet (q : ApprovalQueue) (approvalId : String) (body : PendingApproval → Decision)
    (after : Time) : Except Raised Bool × ApprovalQueue :=
  let (result, q) := q.transaction approvalId body
  (result, if result = .ok true then (q.get approvalId after).2 else q)

-- The next identifier the request draws. One that is taken is drawn again.
def request (q : ApprovalQueue) (approvalId nspace : String) (params : Payload) (now : Time) :
    Option String × ApprovalQueue :=
  match q.rows.get? approvalId with
  | some _ => (none, q)
  | none =>
    (some approvalId, q.write approvalId
      { nspace, params, createdAt := now
        deadline := match q.timeout with
          | some timeout => if timeout = 0 then 0 else now + timeout
          | none => 0 }
      [.requested approvalId])

def updateParams (q : ApprovalQueue) (approvalId : String) (params : Payload) (clocks : Clocks) :
    Except Raised Bool × ApprovalQueue :=
  (q.releaseStaleClaims clocks.before).transactionThenGet approvalId
    (updateParamsRow approvalId · params) clocks.after

-- A lapsed, missing or claimed approval is passed over in silence.
def rearmDeadline (q : ApprovalQueue) (approvalId : String) (deadline : Time) (clocks : Clocks) :
    ApprovalQueue :=
  ((q.releaseStaleClaims clocks.before).transactionThenGet approvalId
    (fun row => if row.resolved || row.claimToken.isSome then .ok none
      else .ok (some ({ row with deadline := deadline }, []))) clocks.after).2

def extend (q : ApprovalQueue) (approvalId : String) (seconds : Time) (clocks : Clocks) :
    Except Raised Bool × ApprovalQueue :=
  if seconds ≤ 0 then (.error (.valueError "seconds must be positive"), q)
  else
    (q.releaseStaleClaims clocks.before).transactionThenGet approvalId
      (extendRow approvalId · seconds clocks.now) clocks.after

/-- The answer of a resolved row, or of the row just expired; none when it has not lapsed. -/
def expireIfUnresolved (q : ApprovalQueue) (approvalId : String) (force : Bool) (clocks : Clocks) :
    Except Raised (Option Bool) × ApprovalQueue :=
  let (result, q) := (q.releaseStaleClaims clocks.before).transactionThenGet approvalId
    (expireRow approvalId · force clocks.now) clocks.after
  (result.map (fun _ => (q.rows.get? approvalId).bind (fun row =>
    if row.resolved then some row.approved else none)), q)

def expireClaimedResolution (q : ApprovalQueue) (approvalId claimToken : String) (after : Time) :
    Except Raised Bool × ApprovalQueue :=
  q.transactionThenGet approvalId (expireClaimedRow approvalId · claimToken) after

def resolve (q : ApprovalQueue) (approvalId : String) (approved allowIdempotent : Bool)
    (resolutionMetadata : Payload) (clocks : Clocks) : Except Raised Bool × ApprovalQueue :=
  (q.releaseStaleClaims clocks.before).transactionThenGet approvalId
    (resolveRow approvalId · approved allowIdempotent resolutionMetadata) clocks.after

def claimResolution (q : ApprovalQueue) (approvalId token : String) (resolutionMetadata : Payload)
    (clocks : Clocks) : Except Raised String × ApprovalQueue :=
  let (result, q) := (q.releaseStaleClaims clocks.before).transactionThenGet approvalId
    (claimRow approvalId · token clocks.now resolutionMetadata) clocks.after
  (result.map (fun _ => token), q)

def finalizeClaimedResolution (q : ApprovalQueue) (approvalId claimToken : String) (approved : Bool) :
    Except Raised Bool × ApprovalQueue :=
  q.transaction approvalId (finalizeRow approvalId · claimToken approved)

def completeClaimedResolution (q : ApprovalQueue) (approvalId claimToken : String) (after : Time) :
    Except Raised Bool × ApprovalQueue :=
  q.transactionThenGet approvalId (completeRow approvalId · claimToken) after

def releaseResolutionClaim (q : ApprovalQueue) (approvalId claimToken : String) (after : Time) :
    Except Raised Bool × ApprovalQueue :=
  q.transactionThenGet approvalId (releaseClaimRow approvalId · claimToken) after

def reopenResolvedApproval (q : ApprovalQueue) (approvalId : String) (expectedApproved : Bool)
    (after : Time) : Except Raised Bool × ApprovalQueue :=
  q.transactionThenGet approvalId (reopenRow approvalId · expectedApproved) after

def consume (q : ApprovalQueue) (approvalId : String) (clocks : Clocks) : Except Raised Bool × ApprovalQueue :=
  (q.releaseStaleClaims clocks.before).transactionThenGet approvalId (consumeRow approvalId) clocks.after

structure ApprovalStatus where
  id : String
  nspace : String
  params : Payload
  createdAt : Time
  deadline : Time
  resolved : Bool
  approved : Bool
  resolution : Resolution
  consumed : Bool
  deriving DecidableEq

def status (q : ApprovalQueue) (approvalId : String) (now : Time) :
    Except Raised ApprovalStatus × ApprovalQueue :=
  let (entry, q) := q.get approvalId now
  (entry.map (fun row =>
    { id := approvalId
      nspace := row.nspace
      params := row.params
      createdAt := row.createdAt
      deadline := row.deadline
      resolved := row.ready
      approved := if row.ready then row.approved else false
      resolution := if row.ready then row.resolution else .none
      consumed := if row.ready then row.consumed else false }), q)

-- One round of `wait`: the answer, or none when the caller is to wait on.
def waitRound (q : ApprovalQueue) (approvalId : String) (polled now : Time) (clocks : Clocks) :
    Except Raised (Option Bool) × ApprovalQueue :=
  match q.get approvalId polled with
  | (.error raised, q) => (.error raised, q)
  | (.ok entry, q) =>
    if entry.ready then (.ok (some entry.approved), q)
    else if 0 < entry.deadline ∧ entry.deadline - now ≤ 0 then
      q.expireIfUnresolved approvalId false clocks
    else (.ok none, q)

end ApprovalQueue

inductive ApprovalOp
  | request (approvalId nspace : String) (params : Payload) (now : Time)
  | get (approvalId : String) (now : Time)
  | status (approvalId : String) (now : Time)
  | updateParams (approvalId : String) (params : Payload) (clocks : Clocks)
  | rearmDeadline (approvalId : String) (deadline : Time) (clocks : Clocks)
  | extend (approvalId : String) (seconds : Time) (clocks : Clocks)
  | waitRound (approvalId : String) (polled now : Time) (clocks : Clocks)
  | expireIfUnresolved (approvalId : String) (force : Bool) (clocks : Clocks)
  | expireClaimedResolution (approvalId claimToken : String) (after : Time)
  | resolve (approvalId : String) (approved allowIdempotent : Bool) (resolutionMetadata : Payload)
      (clocks : Clocks)
  | claimResolution (approvalId token : String) (resolutionMetadata : Payload) (clocks : Clocks)
  | finalizeClaimedResolution (approvalId claimToken : String) (approved : Bool)
  | completeClaimedResolution (approvalId claimToken : String) (after : Time)
  | releaseResolutionClaim (approvalId claimToken : String) (after : Time)
  | reopenResolvedApproval (approvalId : String) (expectedApproved : Bool) (after : Time)
  | consume (approvalId : String) (clocks : Clocks)

namespace ApprovalQueue

def step (q : ApprovalQueue) : ApprovalOp → ApprovalQueue
  | .request approvalId nspace params now => (q.request approvalId nspace params now).2
  | .get approvalId now => (q.get approvalId now).2
  | .status approvalId now => (q.status approvalId now).2
  | .updateParams approvalId params clocks => (q.updateParams approvalId params clocks).2
  | .rearmDeadline approvalId deadline clocks => q.rearmDeadline approvalId deadline clocks
  | .extend approvalId seconds clocks => (q.extend approvalId seconds clocks).2
  | .waitRound approvalId polled now clocks => (q.waitRound approvalId polled now clocks).2
  | .expireIfUnresolved approvalId force clocks => (q.expireIfUnresolved approvalId force clocks).2
  | .expireClaimedResolution approvalId claimToken after =>
    (q.expireClaimedResolution approvalId claimToken after).2
  | .resolve approvalId approved allowIdempotent resolutionMetadata clocks =>
    (q.resolve approvalId approved allowIdempotent resolutionMetadata clocks).2
  | .claimResolution approvalId token resolutionMetadata clocks =>
    (q.claimResolution approvalId token resolutionMetadata clocks).2
  | .finalizeClaimedResolution approvalId claimToken approved =>
    (q.finalizeClaimedResolution approvalId claimToken approved).2
  | .completeClaimedResolution approvalId claimToken after =>
    (q.completeClaimedResolution approvalId claimToken after).2
  | .releaseResolutionClaim approvalId claimToken after =>
    (q.releaseResolutionClaim approvalId claimToken after).2
  | .reopenResolvedApproval approvalId expectedApproved after =>
    (q.reopenResolvedApproval approvalId expectedApproved after).2
  | .consume approvalId clocks => (q.consume approvalId clocks).2

def claimedToken? : ApprovalEvent → Option String
  | .claimed _ token => some token
  | _ => none

def Permitted (q : ApprovalQueue) : ApprovalOp → Prop
  | .claimResolution _ token .. => some token ∉ q.history.map claimedToken?
  | _ => True

instance (q : ApprovalQueue) : ∀ op, Decidable (q.Permitted op)
  | .claimResolution _ token .. =>
    inferInstanceAs (Decidable (some token ∉ q.history.map claimedToken?))
  | .request .. | .get .. | .status .. | .updateParams .. | .rearmDeadline .. | .extend ..
  | .waitRound .. | .expireIfUnresolved .. | .expireClaimedResolution .. | .resolve ..
  | .finalizeClaimedResolution .. | .completeClaimedResolution .. | .releaseResolutionClaim ..
  | .reopenResolvedApproval .. | .consume .. => isTrue trivial

def FreshIn (q : ApprovalQueue) (token : String) : Prop :=
  ∀ other, .claimed other token ∉ q.history

-- A write to one row. Every operation is a chain of these.
inductive Move (q : ApprovalQueue) : ApprovalQueue → Prop
  | requested (approvalId nspace : String) (params : Payload) (createdAt deadline : Time)
      (absent : q.rows.get? approvalId = none) :
      Move q (q.write approvalId { nspace, params, createdAt, deadline } [.requested approvalId])
  | changed (approvalId : String) (row next : PendingApproval) (events : List ApprovalEvent)
      (found : q.rows.get? approvalId = some row)
      (change : Change q.FreshIn approvalId row next events) :
      Move q (q.write approvalId next events)

abbrev Moves : ApprovalQueue → ApprovalQueue → Prop := Relation.ReflTransGen Move

theorem change_released {Fresh : String → Prop} {approvalId : String} {row : PendingApproval}
    {threshold : Time} (stale : row.staleClaim threshold = true) :
    Change Fresh approvalId row row.unclaimed (row.claimEnded approvalId) := by
  simp only [PendingApproval.staleClaim, Bool.and_eq_true, Bool.not_eq_true'] at stale
  obtain ⟨token, held⟩ := Option.isSome_iff_exists.mp stale.1.2
  rw [PendingApproval.claimEnded, held]
  exact .released token stale.1.1 held

theorem releaseStaleClaim_moves (threshold : Time) (q : ApprovalQueue) (approvalId : String) :
    Moves q (q.releaseStaleClaim threshold approvalId) := by
  unfold releaseStaleClaim
  split
  next row found =>
    split
    next stale => exact .single (.changed approvalId row _ _ found (change_released stale))
    next => exact .refl
  next => exact .refl

theorem releaseStaleClaims_moves (q : ApprovalQueue) (now : Time) : Moves q (q.releaseStaleClaims now) := by
  unfold releaseStaleClaims
  generalize q.rows.keys = ids
  generalize now - q.claimTtlSeconds = threshold
  induction ids generalizing q with
  | nil => exact .refl
  | cons approvalId rest ih => exact (releaseStaleClaim_moves threshold q approvalId).trans (ih _)

theorem freshIn_releaseStaleClaims {q : ApprovalQueue} {token : String} (fresh : q.FreshIn token)
    (now : Time) : (q.releaseStaleClaims now).FreshIn token := by
  unfold releaseStaleClaims
  generalize q.rows.keys = ids
  generalize now - q.claimTtlSeconds = threshold
  induction ids generalizing q with
  | nil => exact fresh
  | cons approvalId rest ih =>
    refine ih ?_
    unfold releaseStaleClaim
    split
    next row found =>
      split
      · intro other claimed
        rcases List.mem_append.mp claimed with before | ended
        · exact fresh other before
        · obtain ⟨_, _, different⟩ := Option.map_eq_some_iff.mp (Option.mem_toList.mp ended)
          cases different
      · exact fresh
    next => exact fresh

section Calls

variable {q : ApprovalQueue} {approvalId : String} {body : PendingApproval → Decision}

theorem transaction_moves (sanctioned : ∀ row, Sanctioned q.FreshIn approvalId row (body row)) :
    Moves q (q.transaction approvalId body).2 := by
  unfold transaction
  split
  · exact .refl
  next row found =>
    have change := sanctioned row
    split
    · exact .refl
    · exact .refl
    next next events decided =>
      rw [decided] at change
      exact .single (.changed approvalId row next events found change)

theorem get_moves (q : ApprovalQueue) (approvalId : String) (now : Time) :
    Moves q (q.get approvalId now).2 := releaseStaleClaims_moves q now

theorem transactionThenGet_moves
    (sanctioned : ∀ row, Sanctioned q.FreshIn approvalId row (body row)) (after : Time) :
    Moves q (q.transactionThenGet approvalId body after).2 := by
  have moved := transaction_moves sanctioned
  unfold transactionThenGet
  dsimp only
  split
  · exact moved.trans (get_moves _ approvalId after)
  · exact moved

theorem transaction_refused (refused : ∀ row, q.rows.get? approvalId = some row →
      ∀ next events, body row ≠ .ok (some (next, events))) :
    (q.transaction approvalId body).1 ≠ .ok true ∧ (q.transaction approvalId body).2 = q := by
  unfold transaction
  split
  next => exact ⟨nofun, rfl⟩
  next row found =>
    split
    next => exact ⟨nofun, rfl⟩
    next => exact ⟨nofun, rfl⟩
    next next events decided => exact absurd decided (refused row found next events)

theorem transactionThenGet_refused (refused : ∀ row, q.rows.get? approvalId = some row →
      ∀ next events, body row ≠ .ok (some (next, events))) (after : Time) :
    (q.transactionThenGet approvalId body after).1 ≠ .ok true ∧
      (q.transactionThenGet approvalId body after).2 = q := by
  obtain ⟨unchanged, same⟩ := transaction_refused refused
  refine ⟨unchanged, ?_⟩
  simp only [transactionThenGet, unchanged, if_false, same]

theorem call_moves {q : ApprovalQueue} {before : Time}
    (sanctioned : ∀ row, Sanctioned (q.releaseStaleClaims before).FreshIn approvalId row (body row))
    (after : Time) : Moves q ((q.releaseStaleClaims before).transactionThenGet approvalId body after).2 :=
  (releaseStaleClaims_moves q before).trans (transactionThenGet_moves sanctioned after)

end Calls

theorem expireIfUnresolved_moves (q : ApprovalQueue) (approvalId : String) (force : Bool)
    (clocks : Clocks) : Moves q (q.expireIfUnresolved approvalId force clocks).2 :=
  call_moves (fun _ => expireRow_sanctioned force clocks.now) clocks.after

theorem waitRound_moves (q : ApprovalQueue) (approvalId : String) (polled now : Time)
    (clocks : Clocks) : Moves q (q.waitRound approvalId polled now clocks).2 := by
  have polledMoves := get_moves q approvalId polled
  unfold waitRound
  split
  next raised after same =>
    rw [same] at polledMoves
    exact polledMoves
  next entry after same =>
    rw [same] at polledMoves
    split
    · exact polledMoves
    · split
      · exact polledMoves.trans (expireIfUnresolved_moves after approvalId false clocks)
      · exact polledMoves

theorem step_moves {q : ApprovalQueue} {op : ApprovalOp} (permitted : q.Permitted op) :
    Moves q (q.step op) := by
  cases op with
  | request approvalId nspace params now =>
    simp only [step, request]
    split
    · exact .refl
    next absent => exact .single (.requested approvalId nspace params now _ absent)
  | get approvalId now => exact get_moves q approvalId now
  | status approvalId now => exact get_moves q approvalId now
  | updateParams approvalId params clocks =>
    exact call_moves (fun _ => updateParamsRow_sanctioned params) clocks.after
  | rearmDeadline approvalId deadline clocks =>
    refine call_moves (fun row => ?_) clocks.after
    split
    · trivial
    next pending =>
      simp only [Bool.or_eq_true, not_or, Bool.not_eq_true] at pending
      exact .amended row.params deadline pending.1
  | extend approvalId seconds clocks =>
    simp only [step, extend]
    split
    · exact .refl
    · exact call_moves (fun _ => extendRow_sanctioned seconds clocks.now) clocks.after
  | waitRound approvalId polled now clocks => exact waitRound_moves q approvalId polled now clocks
  | expireIfUnresolved approvalId force clocks =>
    exact expireIfUnresolved_moves q approvalId force clocks
  | expireClaimedResolution approvalId claimToken after =>
    exact transactionThenGet_moves (fun _ => expireClaimedRow_sanctioned claimToken) after
  | resolve approvalId approved allowIdempotent resolutionMetadata clocks =>
    exact call_moves (fun _ => resolveRow_sanctioned approved allowIdempotent resolutionMetadata)
      clocks.after
  | claimResolution approvalId token resolutionMetadata clocks =>
    have fresh : q.FreshIn token := fun other claimed => permitted (List.mem_map_of_mem claimed)
    exact call_moves (fun _ => claimRow_sanctioned (freshIn_releaseStaleClaims fresh clocks.before)
      clocks.now resolutionMetadata) clocks.after
  | finalizeClaimedResolution approvalId claimToken approved =>
    exact transaction_moves (fun _ => finalizeRow_sanctioned claimToken approved)
  | completeClaimedResolution approvalId claimToken after =>
    exact transactionThenGet_moves (fun _ => completeRow_sanctioned claimToken) after
  | releaseResolutionClaim approvalId claimToken after =>
    exact transactionThenGet_moves (fun _ => releaseClaimRow_sanctioned claimToken) after
  | reopenResolvedApproval approvalId expectedApproved after =>
    exact transactionThenGet_moves (fun _ => reopenRow_sanctioned expectedApproved) after
  | consume approvalId clocks => exact call_moves (fun _ => consumeRow_sanctioned) clocks.after

theorem moves_invariant {I : ApprovalQueue → Prop} (kept : ∀ q next, I q → Move q next → I next)
    {q next : ApprovalQueue} (holds : I q) (moves : Moves q next) : I next := by
  induction moves with
  | refl => exact holds
  | tail _ last ih => exact kept _ _ ih last

theorem run_move_invariant {I : ApprovalQueue → Prop} (kept : ∀ q next, I q → Move q next → I next)
    {q : ApprovalQueue} (holds : I q) {ops : List ApprovalOp} (permitted : Along step Permitted q ops) :
    I (run step q ops) :=
  run_invariant_along I (fun _ _ holds permitted => moves_invariant kept holds (step_moves permitted))
    holds ops permitted

def freed (threshold : Time) (row : PendingApproval) : PendingApproval :=
  if row.staleClaim threshold then row.unclaimed else row

theorem freed_freed (threshold : Time) (row : PendingApproval) :
    freed threshold (freed threshold row) = freed threshold row := by
  by_cases stale : row.staleClaim threshold = true
  · have unheld : row.unclaimed.staleClaim threshold = false := by
      simp [PendingApproval.staleClaim, PendingApproval.unclaimed]
    simp [freed, stale, unheld]
  · simp [freed, stale]

theorem get?_releaseStaleClaim (threshold : Time) (q : ApprovalQueue) (approvalId other : String) :
    (q.releaseStaleClaim threshold approvalId).rows.get? other =
      if other = approvalId then (q.rows.get? other).map (freed threshold) else q.rows.get? other := by
  unfold releaseStaleClaim
  by_cases here : other = approvalId
  · subst here
    rw [if_pos rfl]
    split
    next row found =>
      split
      next stale => simp [write, found, freed, stale]
      next fresh => simp [found, freed, fresh]
    next missing => simp [missing]
  · rw [if_neg here]
    split
    · split
      · rw [write, Dict.get?_set, if_neg here]
      · rfl
    · rfl

theorem get?_foldl_releaseStaleClaim (threshold : Time) (ids : List String) (q : ApprovalQueue)
    (approvalId : String) : (ids.foldl (releaseStaleClaim threshold) q).rows.get? approvalId =
      if approvalId ∈ ids then (q.rows.get? approvalId).map (freed threshold)
      else q.rows.get? approvalId := by
  induction ids generalizing q with
  | nil => simp
  | cons other rest ih =>
    rw [List.foldl_cons, ih, get?_releaseStaleClaim]
    by_cases here : approvalId = other
    · subst here
      have twice : (freed threshold ∘ freed threshold) = freed threshold :=
        funext (freed_freed threshold)
      simp [Option.map_map, twice]
    · simp [here]

theorem get?_releaseStaleClaims (q : ApprovalQueue) (now : Time) (approvalId : String) :
    (q.releaseStaleClaims now).rows.get? approvalId =
      (q.rows.get? approvalId).map (freed (now - q.claimTtlSeconds)) := by
  rw [releaseStaleClaims, get?_foldl_releaseStaleClaim]
  split
  · rfl
  next missing =>
    rw [← Dict.get?_eq_none_iff] at missing
    rw [missing, Option.map_none]

theorem freed_resolved {row : PendingApproval} (resolved : row.resolved = true) (threshold : Time) :
    freed threshold row = row := by
  simp [freed, PendingApproval.staleClaim, resolved]

end ApprovalQueue

end OpenSquilla.Approvals
