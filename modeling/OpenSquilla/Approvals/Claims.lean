import OpenSquilla.Shared.Lease
import OpenSquilla.Approvals.Queue

set_option autoImplicit false

namespace OpenSquilla.Approvals

open Runs

def leaseEvent : ApprovalEvent → Option (LeaseEvent String String)
  | .claimed approvalId token => some (.granted approvalId token)
  | .completed approvalId token | .released approvalId token | .claimExpired approvalId token =>
    some (.ended approvalId token)
  | .requested _ | .resolved .. | .finalized .. | .expired _ | .reopened _ | .consumed _ => none

variable {approvalId token : String}

theorem granted_claimed_mem {history : List ApprovalEvent} :
    .granted approvalId token ∈ history.filterMap leaseEvent ↔ .claimed approvalId token ∈ history := by
  rw [List.mem_filterMap]
  constructor
  · rintro ⟨event, mem, granted⟩
    cases event with
    | claimed other otherToken =>
      obtain ⟨rfl, rfl⟩ := LeaseEvent.granted.inj (Option.some.inj granted)
      exact mem
    | _ => cases granted
  · exact fun mem => ⟨_, mem, rfl⟩

namespace ApprovalQueue

def holderIn (rows : Dict String PendingApproval) (approvalId : String) : Option String :=
  (rows.get? approvalId).bind (·.claimToken)

def leases (q : ApprovalQueue) : LeaseTable String String :=
  ⟨holderIn q.rows, q.history.filterMap leaseEvent⟩

variable {row : PendingApproval}

theorem holderIn_of_found {rows : Dict String PendingApproval} {approvalId : String}
    (found : rows.get? approvalId = some row) :
    holderIn rows approvalId = row.claimToken := by
  rw [holderIn, found]
  rfl

theorem holderIn_set (rows : Dict String PendingApproval) (approvalId : String) (row : PendingApproval) :
    holderIn (rows.set approvalId row) =
      Function.update (holderIn rows) approvalId row.claimToken := by
  funext other
  by_cases here : other = approvalId
  · subst here
    simp [holderIn]
  · simp [holderIn, here]

section Steps

variable {q next : ApprovalQueue}

theorem leases_write (q : ApprovalQueue) (approvalId : String) (row : PendingApproval)
    (events : List ApprovalEvent) : (q.write approvalId row events).leases =
      ⟨Function.update (holderIn q.rows) approvalId row.claimToken,
        q.history.filterMap leaseEvent ++ events.filterMap leaseEvent⟩ := by
  rw [leases, write, holderIn_set, List.filterMap_append]

theorem leases_write_idle {approvalId : String}
    {events : List ApprovalEvent} (kept : row.claimToken = holderIn q.rows approvalId)
    (silent : events.filterMap leaseEvent = []) :
    LeaseTable.Step q.leases (q.write approvalId row events).leases := by
  rw [leases_write, kept, Function.update_eq_self, silent, List.append_nil]
  exact .idle

theorem leases_write_ended {events : List ApprovalEvent} (held : holderIn q.rows approvalId = some token)
    (unclaimed : row.claimToken = none) (ended : events.filterMap leaseEvent = [.ended approvalId token]) :
    LeaseTable.Step q.leases (q.write approvalId row events).leases := by
  rw [leases_write, unclaimed, ended]
  exact .finish approvalId token held

theorem leases_write_claimEnded {approvalId : String} {row next : PendingApproval}
    (found : q.rows.get? approvalId = some row) (unclaimed : next.claimToken = none)
    {last : ApprovalEvent} (silent : leaseEvent last = none) : LeaseTable.Step q.leases
      (q.write approvalId next (row.claimEnded approvalId ++ [last])).leases := by
  have holder := holderIn_of_found found
  cases held : row.claimToken with
  | none =>
    refine leases_write_idle (by rw [unclaimed, holder, held]) ?_
    rw [PendingApproval.claimEnded, held, Option.map_none, Option.toList_none, List.nil_append,
      List.filterMap_cons_none silent, List.filterMap_nil]
  | some token =>
    refine leases_write_ended (holder.trans held) unclaimed ?_
    rw [PendingApproval.claimEnded, held, Option.map_some, Option.toList_some, List.filterMap_append,
      List.filterMap_cons_none silent]
    rfl

theorem move_leases (move : Move q next) : LeaseTable.Step q.leases next.leases := by
  cases move with
  | requested approvalId nspace params createdAt deadline absent =>
    refine leases_write_idle ?_ rfl
    rw [holderIn, absent, Option.bind_none]
  | changed approvalId row next events found change =>
    have holder := holderIn_of_found found
    cases change with
    | amended params deadline unresolved => exact leases_write_idle holder.symm rfl
    | resolved approved params unresolved unclaimed => exact leases_write_idle holder.symm rfl
    | claimed token now params fresh unresolved unclaimed =>
      rw [leases_write]
      refine .grant approvalId token (holder.trans unclaimed) fun other granted => ?_
      exact fresh other (granted_claimed_mem.mp granted)
    | finalized token approved unresolved held => exact leases_write_idle holder.symm rfl
    | completed token resolved approved held =>
      exact leases_write_ended (holder.trans held) rfl rfl
    | released token unresolved held => exact leases_write_ended (holder.trans held) rfl rfl
    | expired unresolved => exact leases_write_claimEnded found rfl rfl
    | claimExpired token held => exact leases_write_ended (holder.trans held) rfl rfl
    | reopened resolved => exact leases_write_claimEnded found rfl rfl
    | consumed resolved approved unclaimed unconsumed => exact leases_write_idle holder.symm rfl

theorem move_sound (sound : q.leases.Sound) (move : Move q next) : next.leases.Sound :=
  (move_leases move).sound sound

theorem init_sound (defaultTimeout : Option Time) (claimTtlSeconds : Time) :
    (init defaultTimeout claimTtlSeconds).leases.Sound := LeaseTable.empty_sound

-- The claim of the token was granted and is no longer the claim of the approval.
structure Lost (approvalId token : String) (q : ApprovalQueue) : Prop where
  granted : .claimed approvalId token ∈ q.history
  gone : ∀ row, q.rows.get? approvalId = some row → row.claimToken ≠ some token

theorem lost_iff_ended (sound : q.leases.Sound) (approvalId token : String) :
    Lost approvalId token q ↔ .ended approvalId token ∈ q.leases.history := by
  constructor
  · intro lost
    by_contra notEnded
    have held := (sound.held approvalId token).mpr ⟨granted_claimed_mem.mpr lost.granted, notEnded⟩
    obtain ⟨row, found, carried⟩ := Option.bind_eq_some_iff.mp held
    exact lost.gone row found carried
  · intro ended
    refine ⟨granted_claimed_mem.mp (sound.granted approvalId token ended), fun row found carried => ?_⟩
    exact LeaseTable.not_held_of_ended sound ended ((holderIn_of_found found).trans carried)

theorem move_history (move : Move q next) : ∃ events, next.history = q.history ++ events := by
  cases move <;> exact ⟨_, rfl⟩

theorem move_lost (sound : q.leases.Sound)
    (lost : Lost approvalId token q) (move : Move q next) : Lost approvalId token next := by
  obtain ⟨events, grown⟩ := move_history move
  rw [lost_iff_ended (move_sound sound move)]
  have ended := (lost_iff_ended sound approvalId token).mp lost
  simp only [leases, grown, List.filterMap_append]
  exact List.mem_append_left _ ended

theorem moves_lost (sound : q.leases.Sound)
    (lost : Lost approvalId token q) (moves : Moves q next) : Lost approvalId token next :=
  And.right (moves_invariant (I := fun q => q.leases.Sound ∧ Lost approvalId token q)
    (fun _ _ held move => ⟨move_sound held.1 move, move_lost held.1 held.2 move⟩) ⟨sound, lost⟩ moves)

theorem claimed_of_carried (sound : q.leases.Sound) (found : q.rows.get? approvalId = some row)
    (carried : row.claimToken = some token) : .claimed approvalId token ∈ q.history :=
  granted_claimed_mem.mp
    ((sound.held approvalId token).mp ((holderIn_of_found found).trans carried)).1

theorem completeRow_mismatch
    (mismatch : row.claimToken ≠ some token) (next : PendingApproval) (events : List ApprovalEvent) :
    completeRow approvalId row token ≠ .ok (some (next, events)) := by
  unfold completeRow
  split
  · nofun
  · split
    · nofun
    · nofun

/-- What the token still does: it cannot finalize or expire, and to complete what somebody else
already approved changes nothing. -/
def Powerless (q : ApprovalQueue) (approvalId token : String) : Prop :=
  (∀ approved, ∃ raised, q.finalizeClaimedResolution approvalId token approved = (.error raised, q)) ∧
  (∀ after, ∃ raised, q.expireClaimedResolution approvalId token after = (.error raised, q)) ∧
  (∀ after, (q.completeClaimedResolution approvalId token after).1 ≠ .ok true ∧
    (q.completeClaimedResolution approvalId token after).2 = q)

theorem lost_powerless (lost : Lost approvalId token q) : q.Powerless approvalId token := by
  refine ⟨fun approved => ?_, fun after => ?_, fun after => ?_⟩
  · unfold finalizeClaimedResolution transaction
    cases found : q.rows.get? approvalId with
    | none => exact ⟨_, rfl⟩
    | some row =>
      have mismatch := lost.gone row found
      cases resolved : row.resolved <;> simp [finalizeRow, resolved, mismatch]
  · unfold expireClaimedResolution transactionThenGet transaction
    cases found : q.rows.get? approvalId with
    | none => exact ⟨_, rfl⟩
    | some row => simp [expireClaimedRow, lost.gone row found]
  · exact transactionThenGet_refused (fun row found => completeRow_mismatch (lost.gone row found)) after

end Steps

end ApprovalQueue

end OpenSquilla.Approvals
