import OpenSquilla.Goals.TurnEffects

set_option autoImplicit false

namespace OpenSquilla.Goals

open TextLines TextScan
open RaisingRuns (raiseIf raiseAny orRaise of_bind_ok of_map_ok raiseIf_eq_ok orRaise_eq_ok)
open PendingInputs (canonicalizeSessionKey)

variable {op : GoalOp} {before middle after store next : Store} {goal row : GoalRecord} {taskId : Text}
  {turn : AcceptTurn}

structure TaskDetails.Free (details : TaskDetails) : Prop where
  goalContext : details.goalContext = none
  effective : details.goalEffectiveContext = none
  update : details.goalObjectiveUpdate = none

namespace AcceptTurn

theorem bindTaskSessionOwner_ok {details bound : TaskDetails} {sessionId : Text} {sessionEpoch : Nat}
    (ran : bindTaskSessionOwner details sessionId sessionEpoch = .ok bound) :
    bound.goalContext = details.goalContext ∧
      bound.goalEffectiveContext = details.goalEffectiveContext ∧
        bound.goalObjectiveUpdate = details.goalObjectiveUpdate ∧
          bound.goalCandidate = details.goalCandidate := by
  obtain ⟨_, -, ran⟩ := of_bind_ok ran
  obtain ⟨_, -, ran⟩ := of_bind_ok ran
  obtain ⟨_, -, ran⟩ := of_bind_ok ran
  cases ran
  exact ⟨rfl, rfl, rfl, rfl⟩

theorem incomingTask_ok {details : TaskDetails} (ran : turn.incomingTask = .ok (some (taskId, details))) :
    turn.task.map NewTask.taskId = some taskId ∧ details.Free := by
  unfold incomingTask at ran
  split at ran
  next => cases ran
  next task present =>
    obtain ⟨bound, binds, ran⟩ := of_bind_ok ran
    cases ran
    obtain ⟨goalContext, effective, update, -⟩ := bindTaskSessionOwner_ok binds
    exact ⟨by rw [present]; rfl, goalContext, effective, update⟩

theorem prepareMutation_start {command : GoalCommandRequest}
    (ran : turn.prepareMutation = .ok (some (.start goal command))) :
    turn.mergeIntoTask = false ∧ goal.sessionKey = canonicalizeSessionKey turn.sessionKey ∧
      GoalOp.Opens goal.goalId (.acceptTurn turn) := by
  obtain ⟨_, -, ran⟩ := of_bind_ok ran
  split at ran
  next => cases ran
  next start =>
    obtain ⟨_, single, ran⟩ := of_bind_ok ran
    obtain ⟨objective, -, ran⟩ := of_bind_ok ran
    obtain ⟨prepared, -, ran⟩ := of_bind_ok ran
    obtain ⟨_, matching, ran⟩ := of_bind_ok ran
    cases ran
    have one := (not_or.1 (raiseIf_eq_ok.1 single)).2
    exact ⟨by simpa using one, not_not.1 (not_or.1 (raiseIf_eq_ok.1 matching)).1,
      _, _, start, rfl⟩
  next isStart _ =>
    obtain ⟨_, -, ran⟩ := of_bind_ok ran
    cases ran
    exact absurd rfl (isStart _ _)

end AcceptTurn

namespace Store

theorem sidechatMutation_ok {sessionKey : Text} {given kept : Option GoalMutation}
    (ran : store.sidechatMutation turn sessionKey given = .ok kept) : kept = given ∨ kept = none := by
  unfold sidechatMutation at ran
  split at ran
  next =>
    obtain ⟨_, none, ran⟩ := of_bind_ok ran
    cases ran
    have absent := (not_or.1 (raiseIf_eq_ok.1 none)).1
    exact .inr (Option.not_isSome_iff_eq_none.1 absent)
  next =>
    cases ran
    exact .inl rfl

theorem writeSession_covered (turn : AcceptTurn) (sessionKey : Text) (store : Store) :
    Covered store (store.writeSession turn sessionKey) ∧
      (store.writeSession turn sessionKey).tasks = store.tasks := by
  unfold writeSession
  split
  · exact ⟨covered_of_subset fun _ mem => mem, rfl⟩
  · dsimp only
    split
    · exact ⟨covered_of_subset fun _ mem => (Table.mem_delete.1 mem).1, rfl⟩
    · exact ⟨covered_of_subset fun _ mem => mem, rfl⟩

/-- What the mutation of a turn leaves: no goal is touched, or one is owned by the task to insert. -/
inductive Mutated (store : Store) (turn : AcceptTurn) (taskId : Text) (details : TaskDetails) :
    Store → Prop
  | untouched (free : details.Free) : Mutated store turn taskId details store
  | owned {next : Store} (goal : GoalRecord) (context : GoalTurnContext) (mem : goal ∈ next.goals.rows)
      (single : turn.mergeIntoTask = false) (owner : goal.activeTaskId = some taskId)
      (session : goal.sessionKey = canonicalizeSessionKey turn.sessionKey)
      (captures : Captures context goal taskId) (goalContext : details.goalContext = some context)
      (effective : details.goalEffectiveContext = none) (update : details.goalObjectiveUpdate = none)
      (candidate : details.goalCandidate = none) (tasks : next.tasks = store.tasks)
      (rows : ∀ tasks, Gained tasks goal taskId → ∀ row ∈ next.goals.rows,
        Origin (.acceptTurn turn) store.goals.rows tasks row) : Mutated store turn taskId details next

theorem startGoal_mutated {messageId : Text} {incoming details : TaskDetails} (free : incoming.Free)
    (single : turn.mergeIntoTask = false) (session : goal.sessionKey = canonicalizeSessionKey turn.sessionKey)
    (opens : GoalOp.Opens goal.goalId (.acceptTurn turn))
    (ran : store.startGoal (canonicalizeSessionKey turn.sessionKey) messageId taskId goal incoming =
      .ok (details, next)) : Mutated store turn taskId details next := by
  obtain ⟨_, fresh, ran⟩ := of_bind_ok ran
  obtain ⟨_, -, ran⟩ := of_bind_ok ran
  obtain ⟨_, -, ran⟩ := of_bind_ok ran
  obtain ⟨_, -, ran⟩ := of_bind_ok ran
  obtain ⟨_, -, ran⟩ := of_bind_ok ran
  obtain ⟨inserted, inserts, ran⟩ := of_bind_ok ran
  cases ran
  obtain ⟨tasks, rows⟩ := insertGoal_ok inserts
  obtain ⟨-, stateRevision, -, -, -, owner, -, -, started, settled, -⟩ :=
    not_not.1 (raiseIf_eq_ok.1 fresh)
  have tenure : goal.tenure = ⟨some taskId, 1, 0⟩ := by
    rw [GoalRecord.tenure, owner, started, settled]
  refine .owned goal _ ?_ single owner session (captures_goalTurnContext goal taskId false) rfl
    free.effective free.update rfl tasks ?_
  · rw [rows]
    exact List.mem_append_right _ (List.mem_singleton_self _)
  · intro after gained row mem
    rw [rows, List.mem_append, List.mem_singleton] at mem
    obtain old | rfl := mem
    · exact origin_same (Table.mem_delete.1 old).1
    · exact .opened taskId opens tenure stateRevision gained

theorem claimGoal_mutated {candidate : Option GoalClaimCandidate} {incoming details : TaskDetails}
    (free : incoming.Free)
    (ran : store.claimGoal turn (canonicalizeSessionKey turn.sessionKey) taskId candidate incoming =
      .ok (details, next)) : Mutated store turn taskId details next := by
  unfold claimGoal at ran
  split at ran
  next =>
    cases ran
    exact .untouched ⟨free.goalContext, free.effective, free.update⟩
  next current candidate selected =>
    dsimp only at ran
    split at ran
    next now =>
      obtain ⟨taken, updated, ran⟩ := of_bind_ok ran
      cases ran
      have row : current ∈ store.goals.rows ∧
          current.sessionKey = canonicalizeSessionKey turn.sessionKey ∧ current.status = .active := by
        unfold matchingGoal at selected
        split at selected
        next => cases selected
        next found =>
          dsimp only at selected
          split at selected
          next same =>
            cases selected
            have row := selectGoal_eq_some found
            exact ⟨row.1, row.2, same.2.2.2⟩
          next => cases selected
      refine .owned (current.took taskId turn.updatedAt) _ ?_ now.2.2.2 rfl row.2.1
        ⟨rfl, rfl, rfl, rfl, rfl, rfl⟩ rfl free.effective free.update rfl (updateGoals_ok updated).1 ?_
      · exact updated_mem updated row.1 (by simp [row.2.1, row.2.2, now.2.1])
      · intro after gained
        refine origin_taken _ updated now.2.1 row.1 ?_ (advance_took _ _ now.2.1) rfl gained
        intro other mem picked
        simp only [Bool.and_eq_true, decide_eq_true_eq] at picked
        exact eq_of_goalId mem row.1 picked.1.1.2
    next =>
      cases ran
      exact .untouched ⟨free.goalContext, free.effective, free.update⟩

theorem mutateGoal_mutated {mutation : Option GoalMutation} {incoming details : TaskDetails}
    (free : incoming.Free)
    (starts : ∀ goal command, mutation = some (.start goal command) → turn.mergeIntoTask = false ∧
      goal.sessionKey = canonicalizeSessionKey turn.sessionKey ∧
        GoalOp.Opens goal.goalId (.acceptTurn turn))
    (ran : store.mutateGoal turn (canonicalizeSessionKey turn.sessionKey) taskId incoming mutation =
      .ok (details, next)) : Mutated store turn taskId details next := by
  unfold mutateGoal at ran
  split at ran
  next =>
    cases ran
    exact .untouched free
  next goal command =>
    obtain ⟨single, session, opens⟩ := starts goal command rfl
    exact startGoal_mutated free single session opens ran
  next => exact claimGoal_mutated free ran
  next => exact claimGoal_mutated free ran

theorem acceptTask_change {details : TaskDetails} {claims : Bool}
    (accepts : turn.task.map NewTask.taskId = some taskId) (mutated : Mutated store turn taskId details middle)
    (ran : middle.acceptTask turn (canonicalizeSessionKey turn.sessionKey) taskId claims details =
      .ok next) : Change (.acceptTurn turn) store next := by
  unfold acceptTask at ran
  split at ran
  next merges =>
    cases mutated with
    | owned _ _ _ single =>
      rw [single] at merges
      cases merges
    | untouched free =>
      obtain ⟨existing, found, ran⟩ := of_bind_ok ran
      obtain ⟨bound, binds, ran⟩ := of_bind_ok ran
      cases ran
      obtain ⟨goalContext, effective, update, candidate⟩ := AcceptTurn.bindTaskSessionOwner_ok binds
      have present := (Option.filter_eq_some_iff.1 (orRaise_eq_ok.1 found)).1
      refine {
        rows := fun row mem => origin_same mem
        tasks := tasks_writeDetails present (.kept ?_ ?_ ?_) ?_ }
      · rw [mergeDetails, free.goalContext, Option.none_or, goalContext]
      · rw [mergeDetails, free.effective, Option.none_or, effective]
      · rw [mergeDetails, free.update, Option.none_or, update]
      · intro _ isCandidate
        refine .inl ?_
        by_contra kept
        refine isCandidate ?_
        simp only [mergeDetails] at kept ⊢
        exact if_pos (.inr (Option.isSome_iff_ne_none.2 kept))
  next =>
    obtain ⟨absent, rfl⟩ := insertAgentTask_ok ran
    cases mutated with
    | untouched free =>
      exact {
        rows := fun row mem => origin_same mem
        tasks := tasks_insert absent (.kept free.goalContext free.effective free.update)
          (fun _ => free.goalContext) }
    | owned goal context mem single owner session captures goalContext effective update candidate
        tasks rows =>
      constructor
      · refine rows _ ⟨_, context, (get?_writeTask _ _).trans (if_pos rfl), rfl, session.symm, ?_, captures, ?_⟩
        · rw [effectiveGoalTurnContext, effective, Option.none_or, goalContext]
        · intro held slot
          rw [update] at slot
          cases slot
      · rw [← tasks]
        exact tasks_insert absent
          (.taken context accepts ⟨goal, mem, owner, captures⟩ rfl goalContext effective update)
          (fun isCandidate => absurd candidate isCandidate)

theorem acceptTurn_change (ran : store.acceptTurn turn = .ok next) : Change (.acceptTurn turn) store next := by
  obtain ⟨_, -, ran⟩ := of_bind_ok ran
  obtain ⟨task, incoming, ran⟩ := of_bind_ok ran
  obtain ⟨prepared, prepares, ran⟩ := of_bind_ok ran
  obtain ⟨mutation, admits, ran⟩ := of_bind_ok ran
  have starts : ∀ goal command, mutation = some (.start goal command) →
      turn.mergeIntoTask = false ∧ goal.sessionKey = canonicalizeSessionKey turn.sessionKey ∧
        GoalOp.Opens goal.goalId (.acceptTurn turn) := by
    rintro goal command rfl
    obtain rfl | absent := sidechatMutation_ok admits
    · exact AcceptTurn.prepareMutation_start prepares
    · cases absent
  split at ran
  next =>
    obtain ⟨_, -, ran⟩ := of_bind_ok ran
    cases ran
    exact change_same rfl rfl
  next =>
    obtain ⟨_, -, ran⟩ := of_bind_ok ran
    obtain ⟨_, -, ran⟩ := of_bind_ok ran
    obtain ⟨covered, sameTasks⟩ :=
      writeSession_covered turn (canonicalizeSessionKey turn.sessionKey) store
    refine Change.of_covered covered sameTasks ?_
    dsimp only at ran
    split at ran
    next =>
      obtain ⟨_, -, ran⟩ := of_bind_ok ran
      cases ran
      exact change_same rfl rfl
    next taskId details =>
      obtain ⟨accepts, free⟩ := AcceptTurn.incomingTask_ok incoming
      obtain ⟨⟨details, mutated⟩, mutates, ran⟩ := of_bind_ok ran
      obtain ⟨_, -, ran⟩ := of_bind_ok ran
      obtain ⟨accepted, inserts, ran⟩ := of_bind_ok ran
      have change := acceptTask_change accepts (mutateGoal_mutated free starts mutates) inserts
      split at ran
      next =>
        cases ran
        exact change.to_same rfl rfl
      next =>
        cases ran
        exact change

theorem advanceTask_change {progress : TaskProgress} (ran : store.advanceTask taskId progress = .ok next) :
    Change op store next := by
  obtain ⟨task, found, ran⟩ := of_bind_ok ran
  obtain ⟨_, forward, ran⟩ := of_bind_ok ran
  cases ran
  replace found := orRaise_eq_ok.1 found
  replace forward := not_not.1 (raiseIf_eq_ok.1 forward)
  refine { rows := fun row mem => origin_same mem, tasks := fun other => ?_ }
  rw [get?_writeTask]
  by_cases here : taskId = other
  · subst here
    rw [if_pos rfl, found]
    refine .written task _ rfl forward (.kept rfl rfl rfl) ?_
    intro queued isCandidate
    obtain same | queuedBefore | ⟨-, different⟩ := forward
    · exact .inr ⟨same.symm.trans queued, isCandidate, rfl⟩
    · exact .inr ⟨queuedBefore, isCandidate, rfl⟩
    · exact absurd queued different
  · rw [if_neg here]
    exact .same _

theorem run_change {automaticGoalTaskId : Text → Nat → Nat → Text} (sound : store.TasksSound)
    (ran : store.run automaticGoalTaskId op = .ok next) : Change op store next := by
  cases op with
  | acceptTurn turn => exact acceptTurn_change ran
  | createGoalForRunningTask fields taskId =>
    obtain ⟨goal, made, ran⟩ := of_bind_ok ran
    obtain ⟨⟨_, created⟩, creates, ran⟩ := of_bind_ok ran
    cases ran
    obtain ⟨owner, started, settled, stateRevision, goalId⟩ := newGoal_ok made
    have tenure : goal.tenure = ⟨some taskId, 1, 0⟩ := by
      rw [GoalRecord.tenure, owner, started, settled]
      rfl
    exact createGoalForRunningTask_change sound goalId.symm tenure stateRevision creates
  | editGoal edit =>
    obtain ⟨⟨_, _⟩, called, rfl⟩ := of_map_ok ran
    exact editGoal_change called
  | claimGoalObjectiveUpdate update =>
    cases ran
    exact claimGoalObjectiveUpdate_change update
  | applyGoalObjectiveUpdate update =>
    cases ran
    exact applyGoalObjectiveUpdate_change update
  | pauseGoal call reason =>
    obtain ⟨⟨_, _⟩, called, rfl⟩ := of_map_ok ran
    exact pauseGoal_change called
  | resumeGoal call =>
    obtain ⟨⟨_, _⟩, called, rfl⟩ := of_map_ok ran
    exact resumeGoal_change called
  | clearGoal call =>
    obtain ⟨⟨_, _⟩, called, rfl⟩ := of_map_ok ran
    exact clearGoal_change called
  | pauseGoalForSystem pause =>
    obtain ⟨⟨_, _⟩, called, rfl⟩ := of_map_ok ran
    exact pauseGoalForSystem_change called
  | acceptGoalContinuation call =>
    obtain ⟨⟨_, _⟩, called, rfl⟩ := of_map_ok ran
    exact acceptGoalContinuation_change called
  | claimGoalForQueuedTask claim =>
    obtain ⟨⟨_, _⟩, called, rfl⟩ := of_map_ok ran
    exact claimGoalForQueuedTask_change sound called
  | commitGoalTerminal context status blockedReason now =>
    obtain ⟨⟨_, _⟩, called, rfl⟩ := of_map_ok ran
    exact commitGoalTerminal_change called
  | settleGoalTask settle =>
    obtain ⟨⟨_, _⟩, called, rfl⟩ := of_map_ok ran
    exact settleGoalTask_change called
  | deferGoalContinuation context now turnUsage =>
    obtain ⟨⟨_, _⟩, called, rfl⟩ := of_map_ok ran
    exact compensateGoalTask_change called
  | compensateGoalActivationFailure context reason now turnUsage =>
    obtain ⟨⟨_, _⟩, called, rfl⟩ := of_map_ok ran
    obtain ⟨_, -, called⟩ := of_bind_ok called
    exact compensateGoalTask_change called
  | compensateTerminalPersistenceFailure context now turnUsage =>
    obtain ⟨⟨_, _⟩, called, rfl⟩ := of_map_ok ran
    exact compensateGoalTask_change called
  | saveSession sessionKey row =>
    cases ran
    exact change_same rfl rfl
  | resetSession sessionKey row =>
    cases ran
    exact (change_covered (covered_deleteGoals _ store) rfl).to_same rfl rfl
  | queueTask sessionKey task =>
    obtain ⟨absent, rfl⟩ := insertAgentTask_ok ran
    exact {
      rows := fun row mem => origin_same mem
      tasks := tasks_insert absent (.kept rfl rfl rfl) (fun _ => rfl) }
  | advanceTask taskId progress => exact advanceTask_change ran

theorem step_change (automaticGoalTaskId : Text → Nat → Nat → Text) (op : GoalOp)
    (sound : store.TasksSound) : Change op store (store.step automaticGoalTaskId op) := by
  unfold step
  split
  next ran => exact run_change sound ran
  next => exact change_same rfl rfl

end Store

end OpenSquilla.Goals
