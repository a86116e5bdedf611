import Mathlib.Algebra.Order.Ring.Rat
import OpenSquilla.Streams.Payload

set_option autoImplicit false

namespace OpenSquilla.Approvals

open Streams (Payload)

abbrev Time := Rat

inductive Resolution
  | none
  | approved
  | denied
  | expired
  deriving DecidableEq

structure PendingApproval where
  nspace : String
  params : Payload
  createdAt : Time
  resolved : Bool := false
  approved : Bool := false
  consumed : Bool := false
  deadline : Time := 0
  resolution : Resolution := .none
  claimToken : Option String := none
  claimStartedAt : Option Time := none
  deriving DecidableEq

inductive Raised
  | keyError (message : String)
  | valueError (message : String)
  deriving DecidableEq

inductive ApprovalEvent
  | requested (approvalId : String)
  | resolved (approvalId : String) (approved : Bool)
  | claimed (approvalId token : String)
  | finalized (approvalId token : String) (approved : Bool)
  | completed (approvalId token : String)
  -- a claim that ended without a decision of its holder
  | released (approvalId token : String)
  | expired (approvalId : String)
  | claimExpired (approvalId token : String)
  | reopened (approvalId : String)
  | consumed (approvalId : String)
  deriving DecidableEq

/-- The row a transaction found becomes another one, stays as it is, or the call raises. -/
abbrev Decision := Except Raised (Option (PendingApproval × List ApprovalEvent))

def notFound (approvalId : String) : Raised := .keyError ("Approval not found: " ++ approvalId)
def notPending (approvalId : String) : Raised := .valueError ("Approval is not pending: " ++ approvalId)
def inProgress (approvalId : String) : Raised :=
  .valueError ("Approval resolution in progress: " ++ approvalId)
def alreadyResolved (approvalId : String) : Raised :=
  .valueError ("Approval already resolved: " ++ approvalId)
def claimMismatch (approvalId : String) : Raised :=
  .valueError ("Approval resolution claim mismatch: " ++ approvalId)
def notApproved (approvalId : String) : Raised := .valueError ("Approval is not approved: " ++ approvalId)
def alreadyConsumed (approvalId : String) : Raised :=
  .valueError ("Approval already consumed: " ++ approvalId)
def stateMismatch (approvalId : String) : Raised :=
  .valueError ("Approval resolved state mismatch: " ++ approvalId)

def decided (approved : Bool) : Resolution := if approved then .approved else .denied

namespace PendingApproval

def unclaimed (row : PendingApproval) : PendingApproval :=
  { row with claimToken := none, claimStartedAt := none }

def ready (row : PendingApproval) : Bool := row.resolved && row.claimToken.isNone

def staleClaim (threshold : Time) (row : PendingApproval) : Bool :=
  !row.resolved && row.claimToken.isSome && row.claimStartedAt.all (· ≤ threshold)

def claimEnded (approvalId : String) (row : PendingApproval) : List ApprovalEvent :=
  (row.claimToken.map (.released approvalId)).toList

end PendingApproval

variable (approvalId : String) (row : PendingApproval)

def updateParamsRow (params : Payload) : Decision :=
  if row.resolved || row.claimToken.isSome then .error (notPending approvalId)
  else .ok (some ({ row with params := params }, []))

def extendRow (seconds now : Time) : Decision :=
  if row.claimToken.isSome then .error (inProgress approvalId)
  else if row.resolved then .ok none
  else
    .ok (some ({ row with
      deadline := (if row.deadline = 0 then now else row.deadline) + seconds }, []))

def expireRow (force : Bool) (now : Time) : Decision :=
  if row.claimToken.isSome && !force then .error (inProgress approvalId)
  else if row.resolved then .ok none
  else if !force && now < row.deadline then .ok none
  else
    .ok (some ({ row with resolved := true, approved := false, resolution := .expired }.unclaimed,
      row.claimEnded approvalId ++ [.expired approvalId]))

def expireClaimedRow (claimToken : String) : Decision :=
  if row.claimToken ≠ some claimToken then .error (claimMismatch approvalId)
  else
    .ok (some ({ row with
      resolved := true
      approved := false
      consumed := false
      resolution := .expired }.unclaimed, [.claimExpired approvalId claimToken]))

def resolveRow (approved allowIdempotent : Bool) (resolutionMetadata : Payload) : Decision :=
  if row.claimToken.isSome then .error (inProgress approvalId)
  else if row.resolved then
    if allowIdempotent && row.approved = approved then .ok none else .error (alreadyResolved approvalId)
  else
    .ok (some ({ row with
      resolved := true
      approved := approved
      resolution := decided approved
      params := row.params.setAll resolutionMetadata }, [.resolved approvalId approved]))

def claimRow (token : String) (now : Time) (resolutionMetadata : Payload) : Decision :=
  if row.claimToken.isSome then .error (inProgress approvalId)
  else if row.resolved then .error (alreadyResolved approvalId)
  else
    .ok (some ({ row with
      claimToken := some token
      claimStartedAt := some now
      params := row.params.setAll resolutionMetadata }, [.claimed approvalId token]))

def finalizeRow (claimToken : String) (approved : Bool) : Decision :=
  if row.resolved then .error (alreadyResolved approvalId)
  else if row.claimToken ≠ some claimToken then .error (claimMismatch approvalId)
  else
    .ok (some ({ row with resolved := true, approved := approved, resolution := decided approved },
      [.finalized approvalId claimToken approved]))

def completeRow (claimToken : String) : Decision :=
  if row.resolved && row.approved && row.claimToken.isNone then .ok none
  else if !row.resolved || !row.approved then .error (notApproved approvalId)
  else if row.claimToken ≠ some claimToken then .error (claimMismatch approvalId)
  else .ok (some (row.unclaimed, [.completed approvalId claimToken]))

def releaseClaimRow (claimToken : String) : Decision :=
  if row.resolved then .ok none
  else if row.claimToken ≠ some claimToken then .ok none
  else .ok (some (row.unclaimed, [.released approvalId claimToken]))

def reopenRow (expectedApproved : Bool) : Decision :=
  if !row.resolved then .ok none
  else if row.approved ≠ expectedApproved then .error (stateMismatch approvalId)
  else
    .ok (some ({ row with
      resolved := false
      approved := false
      consumed := false
      resolution := .none }.unclaimed, row.claimEnded approvalId ++ [.reopened approvalId]))

def consumeRow : Decision :=
  if row.claimToken.isSome then .error (inProgress approvalId)
  else if !row.resolved || !row.approved then .error (notApproved approvalId)
  else if row.consumed then .error (alreadyConsumed approvalId)
  else .ok (some ({ row with consumed := true }, [.consumed approvalId]))

/-- The ways a row can change, each with what it records. A claim takes a fresh token. -/
inductive Change (Fresh : String → Prop) (approvalId : String) (row : PendingApproval) :
    PendingApproval → List ApprovalEvent → Prop
  | amended (params : Payload) (deadline : Time) (unresolved : row.resolved = false) :
      Change Fresh approvalId row { row with params := params, deadline := deadline } []
  | resolved (approved : Bool) (params : Payload) (unresolved : row.resolved = false)
      (unclaimed : row.claimToken = none) :
      Change Fresh approvalId row { row with
        resolved := true, approved := approved, resolution := decided approved, params := params }
        [.resolved approvalId approved]
  | claimed (token : String) (now : Time) (params : Payload) (fresh : Fresh token)
      (unresolved : row.resolved = false) (unclaimed : row.claimToken = none) :
      Change Fresh approvalId row { row with
        claimToken := some token, claimStartedAt := some now, params := params }
        [.claimed approvalId token]
  | finalized (token : String) (approved : Bool) (unresolved : row.resolved = false)
      (held : row.claimToken = some token) :
      Change Fresh approvalId row { row with
        resolved := true, approved := approved, resolution := decided approved }
        [.finalized approvalId token approved]
  | completed (token : String) (resolved : row.resolved = true) (approved : row.approved = true)
      (held : row.claimToken = some token) :
      Change Fresh approvalId row row.unclaimed [.completed approvalId token]
  | released (token : String) (unresolved : row.resolved = false)
      (held : row.claimToken = some token) :
      Change Fresh approvalId row row.unclaimed [.released approvalId token]
  | expired (unresolved : row.resolved = false) :
      Change Fresh approvalId row
        { row with resolved := true, approved := false, resolution := .expired }.unclaimed
        (row.claimEnded approvalId ++ [.expired approvalId])
  | claimExpired (token : String) (held : row.claimToken = some token) :
      Change Fresh approvalId row
        { row with
          resolved := true, approved := false, consumed := false, resolution := .expired }.unclaimed
        [.claimExpired approvalId token]
  | reopened (resolved : row.resolved = true) :
      Change Fresh approvalId row
        { row with
          resolved := false, approved := false, consumed := false, resolution := .none }.unclaimed
        (row.claimEnded approvalId ++ [.reopened approvalId])
  | consumed (resolved : row.resolved = true) (approved : row.approved = true)
      (unclaimed : row.claimToken = none) (unconsumed : row.consumed = false) :
      Change Fresh approvalId row { row with consumed := true } [.consumed approvalId]

-- A decision that changes the row changes it in one of these ways.
def Sanctioned (Fresh : String → Prop) (approvalId : String) (row : PendingApproval) : Decision → Prop
  | .ok (some (next, events)) => Change Fresh approvalId row next events
  | _ => True

variable {Fresh : String → Prop} {approvalId row}

theorem updateParamsRow_sanctioned (params : Payload) :
    Sanctioned Fresh approvalId row (updateParamsRow approvalId row params) := by
  unfold updateParamsRow
  split
  · trivial
  next pending =>
    simp only [Bool.or_eq_true, not_or, Bool.not_eq_true] at pending
    exact .amended params row.deadline pending.1

theorem extendRow_sanctioned (seconds now : Time) :
    Sanctioned Fresh approvalId row (extendRow approvalId row seconds now) := by
  unfold extendRow
  split
  · trivial
  · split
    · trivial
    next unresolved => exact .amended row.params _ (by simpa using unresolved)

theorem expireRow_sanctioned (force : Bool) (now : Time) :
    Sanctioned Fresh approvalId row (expireRow approvalId row force now) := by
  unfold expireRow
  split
  · trivial
  · split
    · trivial
    next unresolved =>
      split
      · trivial
      · exact .expired (by simpa using unresolved)

theorem expireClaimedRow_sanctioned (claimToken : String) :
    Sanctioned Fresh approvalId row (expireClaimedRow approvalId row claimToken) := by
  unfold expireClaimedRow
  split
  · trivial
  next held => exact .claimExpired claimToken (not_not.mp held)

theorem resolveRow_sanctioned (approved allowIdempotent : Bool) (resolutionMetadata : Payload) :
    Sanctioned Fresh approvalId row
      (resolveRow approvalId row approved allowIdempotent resolutionMetadata) := by
  unfold resolveRow
  split
  · trivial
  next unclaimed =>
    split
    · split <;> trivial
    next unresolved =>
      exact .resolved approved _ (by simpa using unresolved) (by simpa using unclaimed)

theorem claimRow_sanctioned {token : String} (fresh : Fresh token) (now : Time) (resolutionMetadata : Payload) :
    Sanctioned Fresh approvalId row (claimRow approvalId row token now resolutionMetadata) := by
  unfold claimRow
  split
  · trivial
  next unclaimed =>
    split
    · trivial
    next unresolved =>
      exact .claimed token now _ fresh (by simpa using unresolved) (by simpa using unclaimed)

theorem finalizeRow_sanctioned (claimToken : String) (approved : Bool) :
    Sanctioned Fresh approvalId row (finalizeRow approvalId row claimToken approved) := by
  unfold finalizeRow
  split
  · trivial
  next unresolved =>
    split
    · trivial
    next held => exact .finalized claimToken approved (by simpa using unresolved) (not_not.mp held)

theorem completeRow_sanctioned (claimToken : String) :
    Sanctioned Fresh approvalId row (completeRow approvalId row claimToken) := by
  unfold completeRow
  split
  · trivial
  · split
    · trivial
    next approved =>
      simp only [Bool.or_eq_true, Bool.not_eq_true', not_or, Bool.not_eq_false] at approved
      split
      · trivial
      next held => exact .completed claimToken approved.1 approved.2 (not_not.mp held)

theorem releaseClaimRow_sanctioned (claimToken : String) :
    Sanctioned Fresh approvalId row (releaseClaimRow approvalId row claimToken) := by
  unfold releaseClaimRow
  split
  · trivial
  next unresolved =>
    split
    · trivial
    next held => exact .released claimToken (by simpa using unresolved) (not_not.mp held)

theorem reopenRow_sanctioned (expectedApproved : Bool) :
    Sanctioned Fresh approvalId row (reopenRow approvalId row expectedApproved) := by
  unfold reopenRow
  split
  · trivial
  next resolved =>
    split
    · trivial
    · exact .reopened (by simpa using resolved)

theorem consumeRow_sanctioned : Sanctioned Fresh approvalId row (consumeRow approvalId row) := by
  unfold consumeRow
  split
  · trivial
  next unclaimed =>
    split
    · trivial
    next approved =>
      simp only [Bool.or_eq_true, Bool.not_eq_true', not_or, Bool.not_eq_false] at approved
      split
      · trivial
      next unconsumed =>
        exact .consumed approved.1 approved.2 (by simpa using unclaimed) (by simpa using unconsumed)

end OpenSquilla.Approvals
