import OpenSquilla.Goals.Accounting

set_option autoImplicit false

-- Where the context comes from under which a task ends its goal. A task gets a context when it is
-- accepted or bound, and a new one when it applies an update that it claimed before.

namespace OpenSquilla.Goals

open TextLines TextScan
open RaisingRuns (raiseIf raiseAny orRaise of_bind_ok of_map_ok raiseIf_eq_ok orRaise_eq_ok)

variable {op : GoalOp} {before after store next : Store} {rows : List GoalRecord} {goal row : GoalRecord}
  {details written : TaskDetails} {taskId : Text} {context : GoalTurnContext} {update : GoalObjectiveUpdate}

-- The details of a task, which are empty while there is no such task.
def Store.taskDetails (taskId : Text) (store : Store) : TaskDetails :=
  (store.tasks.get? taskId).elim {} AgentTask.details

theorem Change.slots (change : Change op before after) (taskId : Text) :
    SlotWrite op after.goals.rows taskId (before.taskDetails taskId) (after.taskDetails taskId) := by
  have changed := change.tasks taskId
  unfold Store.taskDetails
  generalize before.tasks.get? taskId = existing at changed ⊢
  generalize after.tasks.get? taskId = result at changed ⊢
  cases changed with
  | same => exact .kept rfl rfl rfl
  | inserted _ slots => exact slots
  | written _ _ _ _ slots => exact slots

theorem SlotWrite.pending (write : SlotWrite op rows taskId details written)
    (slot : written.goalObjectiveUpdate = some update) (pending : update.status = .pending)
    (fresh : details.goalObjectiveUpdate ≠ some update) : op.Adopts taskId := by
  cases write with
  | kept _ _ same | taken _ _ _ _ _ _ same => exact absurd (same.symm.trans slot) fresh
  | bound _ _ _ _ _ updates => exact (updates update slot).2.1
  | adopted _ adopts => exact adopts
  | claimed | applied | revoked =>
    cases slot
    cases pending

structure Claiming (op : GoalOp) (rows : List GoalRecord) (taskId : Text) (details : TaskDetails)
    (held : GoalObjectiveUpdate) : Prop where
  asked : ∃ asked, op = .claimGoalObjectiveUpdate asked ∧ held.context = asked.context
  holds : details.goalObjectiveUpdate = some held
  pending : held.status = .pending
  owned : OwnedBy rows held.context taskId

theorem SlotWrite.claimed_update (write : SlotWrite op rows taskId details written)
    (slot : written.goalObjectiveUpdate = some update) (claimed : update.status = .claimed)
    (fresh : details.goalObjectiveUpdate ≠ some update) :
    ∃ held, update = { held with status := .claimed } ∧ Claiming op rows taskId details held := by
  cases write with
  | kept _ _ same | taken _ _ _ _ _ _ same => exact absurd (same.symm.trans slot) fresh
  | bound _ _ _ _ _ updates =>
    rw [(updates update slot).1] at claimed
    cases claimed
  | adopted _ _ _ pending =>
    cases slot
    rw [pending] at claimed
    cases claimed
  | claimed asked held claims holds context unapplied owned =>
    cases slot
    obtain pending | already := unapplied
    · exact ⟨held, rfl, ⟨asked, claims, context⟩, holds, pending, context ▸ owned⟩
    · refine absurd ?_ fresh
      rw [holds, ← already]
  | applied | revoked =>
    cases slot
    cases claimed

structure Applying (op : GoalOp) (rows : List GoalRecord) (taskId : Text) (details : TaskDetails)
    (held : GoalObjectiveUpdate) : Prop where
  asked : ∃ asked, op = .applyGoalObjectiveUpdate asked ∧ held.context = asked.context
  holds : details.goalObjectiveUpdate = some held
  claimed : held.status = .claimed
  owned : OwnedBy rows held.context taskId

theorem SlotWrite.applied_update (write : SlotWrite op rows taskId details written)
    (slot : written.goalObjectiveUpdate = some update) (applied : update.status = .applied)
    (fresh : details.goalObjectiveUpdate ≠ some update) :
    ∃ held, update = { held with status := .applied } ∧ Applying op rows taskId details held := by
  cases write with
  | kept _ _ same | taken _ _ _ _ _ _ same => exact absurd (same.symm.trans slot) fresh
  | bound _ _ _ _ _ updates =>
    rw [(updates update slot).1] at applied
    cases applied
  | adopted _ _ _ pending =>
    cases slot
    rw [pending] at applied
    cases applied
  | applied asked held applies holds context claimed owned =>
    cases slot
    exact ⟨held, rfl, ⟨asked, applies, context⟩, holds, claimed, context ▸ owned⟩
  | claimed | revoked =>
    cases slot
    cases applied

theorem SlotWrite.effective (write : SlotWrite op rows taskId details written)
    (effective : effectiveGoalTurnContext written = some context)
    (fresh : effectiveGoalTurnContext details ≠ some context) : op.Accepts taskId ∨ op.Binds taskId ∨
      ∃ held, held.context = context ∧ Applying op rows taskId details held ∧
        written.goalObjectiveUpdate = some { held with status := .applied } := by
  cases write with
  | kept goalContext same =>
    rw [effectiveGoalTurnContext, goalContext, same] at effective
    exact absurd effective fresh
  | taken _ accepts => exact .inl accepts
  | bound _ binds => exact .inr (.inl binds)
  | adopted | claimed | revoked => exact absurd effective fresh
  | applied asked held applies holds same claimed owned =>
    cases effective
    exact .inr (.inr ⟨held, same, ⟨⟨asked, applies, same⟩, holds, claimed, same ▸ owned⟩, rfl⟩)

-- The task owns no goal, or one whose objective has moved on.
def Lost (store : Store) (context : GoalTurnContext) (taskId : Text) : Prop :=
  ∀ row ∈ store.goals.rows, row.activeTaskId = some taskId → context.objectiveRevision < row.objectiveRevision

theorem OwnedBy.not_lost (owned : OwnedBy store.goals.rows context taskId) : ¬Lost store context taskId := by
  intro lost
  obtain ⟨goal, mem, owner, captures⟩ := owned
  have newer := lost goal mem owner
  rw [captures.objectiveRevision] at newer
  exact Nat.lt_irrefl _ newer

theorem RowStep.objectiveRevision {next : GoalRecord} (step : RowStep goal next) :
    goal.objectiveRevision ≤ next.objectiveRevision := by
  cases step with
  | covered => exact Nat.le_refl _
  | advanced advance => exact advance.objectiveRevision

/-- A task whose update is claimed or applied takes no goal: one that it owns it owned before. -/
theorem Change.owned_before (change : Change op before after)
    (slot : (after.taskDetails taskId).goalObjectiveUpdate = some update) (claimed : update.status ≠ .pending)
    (mem : row ∈ after.goals.rows) (owner : row.activeTaskId = some taskId) :
    ∃ goal ∈ before.goals.rows, RowStep goal row ∧ goal.activeTaskId = some taskId := by
  obtain owned | gained := (change.rows row mem).owner owner
  · exact owned
  · obtain ⟨task, _, found, -, -, -, -, updates⟩ := gained.holds
    rw [Store.taskDetails, found] at slot
    exact absurd (updates update slot).1 claimed

theorem Change.lost (change : Change op before after)
    (slot : (after.taskDetails taskId).goalObjectiveUpdate = some update) (claimed : update.status ≠ .pending)
    (lost : Lost before context taskId) : Lost after context taskId := by
  intro row mem owner
  obtain ⟨goal, present, step, held⟩ := change.owned_before slot claimed mem owner
  exact Nat.lt_of_lt_of_le (lost goal present held) step.objectiveRevision

theorem Change.owned_or_lost (change : Change op before after)
    (slot : (after.taskDetails taskId).goalObjectiveUpdate = some update) (claimed : update.status ≠ .pending)
    (owned : OwnedBy before.goals.rows context taskId) :
    OwnedBy after.goals.rows context taskId ∨ Lost after context taskId := by
  obtain ⟨goal, present, held, captures⟩ := owned
  by_cases owns : ∃ row ∈ after.goals.rows, row.activeTaskId = some taskId
  · obtain ⟨row, mem, owner⟩ := owns
    obtain ⟨base, basePresent, step, baseHeld⟩ := change.owned_before slot claimed mem owner
    obtain rfl := Store.eq_of_owner basePresent present baseHeld held
    have within := captures.within.step step
    obtain older | same := Nat.lt_or_eq_of_le within.objectiveRevision
    · refine .inr fun other otherMember otherOwner => ?_
      obtain rfl := Store.eq_of_owner otherMember mem otherOwner owner
      exact older
    · exact .inl ⟨row, mem, owner, within.1, within.2, within.3, within.4, same, within.6 same⟩
  · exact .inr fun row mem owner => absurd ⟨row, mem, owner⟩ owns

section History

variable (automaticGoalTaskId : Text → Nat → Nat → Text) (taskId : Text)

def Adopted (update : GoalObjectiveUpdate) : List GoalOp → Prop :=
  Past.Since
    (fun past op => op.Adopts taskId ∧
      ((stateAfter automaticGoalTaskId past).taskDetails taskId).goalObjectiveUpdate ≠ some update)
    (fun past => ((stateAfter automaticGoalTaskId past).taskDetails taskId).goalObjectiveUpdate = some update ∧
      update.status = .pending)

/--
The pending update was claimed. Since then it is held as claimed, and its task owns the goal under the
objective of the update.
-/
def ClaimedSince (update : GoalObjectiveUpdate) : List GoalOp → Prop :=
  Past.Since
    (fun past op => Adopted automaticGoalTaskId taskId update past ∧
      ∃ asked, op = .claimGoalObjectiveUpdate asked ∧ update.context = asked.context)
    (fun past => ((stateAfter automaticGoalTaskId past).taskDetails taskId).goalObjectiveUpdate =
        some { update with status := .claimed } ∧
      OwnedBy (stateAfter automaticGoalTaskId past).goals.rows update.context taskId)

/-- Since the task was accepted or bound under it, or applied it as an update, the context is in effect. -/
def Obtained (context : GoalTurnContext) : List GoalOp → Prop :=
  Past.Since
    (fun past op =>
      effectiveGoalTurnContext ((stateAfter automaticGoalTaskId past).taskDetails taskId) ≠ some context ∧
      (op.Accepts taskId ∨ op.Binds taskId ∨
        ∃ asked update, op = .applyGoalObjectiveUpdate asked ∧ asked.context = context ∧
          update.context = context ∧ ClaimedSince automaticGoalTaskId taskId update past))
    (fun past =>
      effectiveGoalTurnContext ((stateAfter automaticGoalTaskId past).taskDetails taskId) = some context)

variable {automaticGoalTaskId taskId} {past : List GoalOp}

theorem adopted_of_pending
    (slot : ((stateAfter automaticGoalTaskId past).taskDetails taskId).goalObjectiveUpdate =
    some update) (pending : update.status = .pending) : Adopted automaticGoalTaskId taskId update past := by
  induction past with
  | nil => cases slot
  | cons op past ih =>
    by_cases held : ((stateAfter automaticGoalTaskId past).taskDetails taskId).goalObjectiveUpdate = some update
    · exact .later (ih held) ⟨slot, pending⟩
    · have write := (stateAfter_change automaticGoalTaskId op past).slots taskId
      exact .now ⟨write.pending slot pending held, held⟩ ⟨slot, pending⟩

theorem claimedSince_or_lost
    (slot : ((stateAfter automaticGoalTaskId past).taskDetails taskId).goalObjectiveUpdate = some update)
    (claimed : update.status = .claimed) : (∃ held, update = { held with status := .claimed } ∧
      ClaimedSince automaticGoalTaskId taskId held past) ∨
      Lost (stateAfter automaticGoalTaskId past) update.context taskId := by
  induction past with
  | nil => cases slot
  | cons op past ih =>
    have change := stateAfter_change automaticGoalTaskId op past
    have unpending : update.status ≠ .pending := by
      rw [claimed]
      decide
    by_cases before : ((stateAfter automaticGoalTaskId past).taskDetails taskId).goalObjectiveUpdate =
        some update
    · obtain ⟨held, rfl, history⟩ | lost := ih before
      · obtain owned | lost := change.owned_or_lost slot unpending history.kept.2
        · exact .inl ⟨held, rfl, .later history ⟨slot, owned⟩⟩
        · exact .inr lost
      · exact .inr (change.lost slot unpending lost)
    · obtain ⟨held, rfl, claiming⟩ := (change.slots taskId).claimed_update slot claimed before
      have adopted := adopted_of_pending claiming.holds claiming.pending
      exact .inl ⟨held, rfl, .now ⟨adopted, claiming.asked⟩ ⟨slot, claiming.owned⟩⟩

theorem Applying.history {held : GoalObjectiveUpdate}
    (applying : Applying op (stateAfter automaticGoalTaskId (op :: past)).goals.rows taskId
      ((stateAfter automaticGoalTaskId past).taskDetails taskId) held)
    (slot : ((stateAfter automaticGoalTaskId (op :: past)).taskDetails taskId).goalObjectiveUpdate =
      some { held with status := .applied }) :
    ∃ update, held = { update with status := .claimed } ∧
      ClaimedSince automaticGoalTaskId taskId update past := by
  obtain history | lost := claimedSince_or_lost applying.holds applying.claimed
  · exact history
  · have change := stateAfter_change automaticGoalTaskId op past
    have lostAfter := change.lost slot UpdateStatus.noConfusion lost
    exact absurd lostAfter applying.owned.not_lost

theorem obtained_of_effective
    (effective : effectiveGoalTurnContext ((stateAfter automaticGoalTaskId past).taskDetails taskId) =
      some context) : Obtained automaticGoalTaskId taskId context past := by
  induction past with
  | nil => cases effective
  | cons op past ih =>
    by_cases before :
        effectiveGoalTurnContext ((stateAfter automaticGoalTaskId past).taskDetails taskId) = some context
    · exact .later (ih before) effective
    · refine .now ⟨before, ?_⟩ effective
      have write := (stateAfter_change automaticGoalTaskId op past).slots taskId
      obtain accepts | binds | ⟨held, rfl, applying, slot⟩ := write.effective effective before
      · exact .inl accepts
      · exact .inr (.inl binds)
      · obtain ⟨asked, applies, same⟩ := applying.asked
        obtain ⟨update, rfl, history⟩ := applying.history slot
        exact .inr (.inr ⟨asked, update, applies, same.symm, rfl, history⟩)

theorem applied_once_claimed
    (slot : ((stateAfter automaticGoalTaskId (op :: past)).taskDetails taskId).goalObjectiveUpdate = some update)
    (applied : update.status = .applied)
    (fresh : ((stateAfter automaticGoalTaskId past).taskDetails taskId).goalObjectiveUpdate ≠ some update) :
    (∃ asked, op = .applyGoalObjectiveUpdate asked ∧ update.context = asked.context) ∧
      ∃ held, update = { held with status := .applied } ∧
        ClaimedSince automaticGoalTaskId taskId held past := by
  have write := (stateAfter_change automaticGoalTaskId op past).slots taskId
  obtain ⟨held, rfl, applying⟩ := write.applied_update slot applied fresh
  obtain ⟨adopted, rfl, history⟩ := applying.history slot
  exact ⟨applying.asked, adopted, rfl, history⟩

end History

namespace Store

theorem requirePersistedGoalContext_ok {task : AgentTask}
    (ran : store.requirePersistedGoalContext context goal = .ok task) :
    effectiveGoalTurnContext (store.taskDetails context.taskId) = some context := by
  obtain ⟨found, lookup, ran⟩ := of_bind_ok ran
  obtain ⟨_, carried, ran⟩ := of_bind_ok ran
  cases ran
  rw [taskDetails, orRaise_eq_ok.1 lookup]
  exact not_not.1 (not_or.1 (raiseIf_eq_ok.1 carried)).2

/-- The row that a commit changes is that of its context, and the task of the context owns it. -/
theorem commitGoalTerminal_changed {status : GoalStatus} {blockedReason : Option Text} {now : Nat}
    {result : GoalRecord} (ran : store.commitGoalTerminal context status blockedReason now = .ok (result, next))
    (mem : row ∈ store.goals.rows) (changed : row ∉ next.goals.rows) :
    row.activeTaskId = some context.taskId ∧ row.objectiveRevision = context.objectiveRevision ∧
      effectiveGoalTurnContext (store.taskDetails context.taskId) = some context := by
  obtain ⟨_, -, ran⟩ := of_bind_ok ran
  obtain ⟨reason, -, ran⟩ := of_bind_ok ran
  obtain ⟨_, -, ran⟩ := of_bind_ok ran
  obtain ⟨goal, -, ran⟩ := of_bind_ok ran
  obtain ⟨_, -, ran⟩ := of_bind_ok ran
  obtain ⟨task, persisted, ran⟩ := of_bind_ok ran
  split at ran
  next =>
    obtain ⟨_, -, ran⟩ := of_bind_ok ran
    cases ran
    exact absurd mem changed
  next =>
    obtain ⟨_, -, ran⟩ := of_bind_ok ran
    obtain ⟨committed, updated, ran⟩ := of_bind_ok ran
    obtain ⟨_, -, ran⟩ := of_bind_ok ran
    cases ran
    rw [(updateGoals_ok updated).2] at changed
    have picked : (row.goalId = context.goalId && row.objectiveRevision = context.objectiveRevision &&
        row.activeTaskId = some context.taskId) = true := by
      by_contra missed
      exact changed (List.mem_map.2 ⟨row, mem, if_neg missed⟩)
    simp only [Bool.and_eq_true, decide_eq_true_eq] at picked
    exact ⟨picked.2, picked.1.2, requirePersistedGoalContext_ok persisted⟩

end Store

theorem goal_finished_for_its_objective (automaticGoalTaskId : Text → Nat → Nat → Text) (past : List GoalOp) :
    (∀ context status blockedReason now, ∀ row ∈ (stateAfter automaticGoalTaskId past).goals.rows,
      row ∉ (stateAfter automaticGoalTaskId
        (.commitGoalTerminal context status blockedReason now :: past)).goals.rows →
      row.activeTaskId = some context.taskId ∧ row.objective = context.objectiveSnapshot ∧
        effectiveGoalTurnContext ((stateAfter automaticGoalTaskId past).taskDetails context.taskId) =
          some context ∧
        Obtained automaticGoalTaskId context.taskId context past) ∧
    (∀ op taskId update,
      ((stateAfter automaticGoalTaskId (op :: past)).taskDetails taskId).goalObjectiveUpdate = some update →
      update.status = .applied →
      ((stateAfter automaticGoalTaskId past).taskDetails taskId).goalObjectiveUpdate ≠ some update →
      (∃ asked, op = .applyGoalObjectiveUpdate asked ∧ update.context = asked.context) ∧
        ∃ held, update = { held with status := .applied } ∧
          ClaimedSince automaticGoalTaskId taskId held past) := by
  constructor
  · intro context status blockedReason now row mem changed
    have committed : row.activeTaskId = some context.taskId ∧
        row.objectiveRevision = context.objectiveRevision ∧
          effectiveGoalTurnContext ((stateAfter automaticGoalTaskId past).taskDetails context.taskId) =
            some context := by
      rw [stateAfter, Past.state_cons, Store.step] at changed
      split at changed
      next next ran =>
        obtain ⟨⟨_, _⟩, called, rfl⟩ := of_map_ok ran
        exact Store.commitGoalTerminal_changed called mem changed
      next => exact absurd mem changed
    obtain ⟨owner, revision, effective⟩ := committed
    -- the context of an owner says of the goal what the goal says of itself at the same revision
    obtain ⟨task, _, found, -, same, within, -⟩ :=
      ((stateAfter_sound automaticGoalTaskId past).owners row mem context.taskId owner).stands
    have held : effectiveGoalTurnContext task.details = some context := by
      rw [Store.taskDetails, found] at effective
      exact effective
    obtain rfl := Option.some.inj (same.symm.trans held)
    exact ⟨owner, (within.objectiveSnapshot revision.symm).symm, effective, obtained_of_effective effective⟩
  · intro op taskId update slot applied fresh
    exact applied_once_claimed slot applied fresh

def exampleEdit (stateRevision : Nat) (objective clientRequestId : String) (adoptionTaskId : Option Text) :
    GoalOp :=
  .editGoal {
    sessionKey := exampleKey
    expected := {
      sessionId := "s".toList
      epoch := 0
      goalId := "g".toList
      stateRevision := stateRevision }
    objective := objective.toList
    command := {
      sourceScope := "cli".toList
      requestSessionKey := exampleKey
      clientRequestId := clientRequestId.toList
      action := .edit
      requestFingerprint := List.replicate 64 'a' }
    adoptionTaskId := adoptionTaskId
    now := 7 }

def exampleUpdate : GoalObjectiveUpdate where
  context := { exampleContext with objectiveRevision := 2, objectiveSnapshot := "land".toList }
  stateRevision := 2
  acceptedAtMs := 7

def exampleClaimed : List GoalOp :=
  .claimGoalObjectiveUpdate exampleUpdate ::
    exampleEdit 1 "land" "00000000-0000-4000-8000-000000000001" (some "t".toList) :: exampleCreated

def exampleEdited : List GoalOp :=
  exampleEdit 2 "land" "00000000-0000-4000-8000-000000000002" none :: exampleClaimed

def exampleCommit : GoalOp := .commitGoalTerminal exampleUpdate.context .complete none 9

/-- The goal is finished under an update, with an edit after its claim and before its application. -/
theorem edited_between_claim_and_apply : (∃ row ∈ (stateAfter (fun _ _ _ => []) exampleClaimed).goals.rows,
      ∃ edited ∈ (stateAfter (fun _ _ _ => []) exampleEdited).goals.rows,
        edited.goalId = row.goalId ∧ edited.stateRevision = row.stateRevision + 1) ∧
    ((stateAfter (fun _ _ _ => []) exampleClaimed).taskDetails "t".toList).goalObjectiveUpdate =
      some { exampleUpdate with status := .claimed } ∧
    effectiveGoalTurnContext ((stateAfter (fun _ _ _ => []) exampleEdited).taskDetails "t".toList) =
      some exampleContext ∧
    ∃ finished ∈ (stateAfter (fun _ _ _ => [])
        (exampleCommit :: .applyGoalObjectiveUpdate exampleUpdate :: exampleEdited)).goals.rows,
      finished.status = .complete ∧ finished.terminalTaskId = some "t".toList := by
  decide

end OpenSquilla.Goals
