import OpenSquilla.Goals.Effects

set_option autoImplicit false

namespace OpenSquilla.Goals

open TextLines TextScan
open RaisingRuns (raiseIf raiseAny orRaise of_bind_ok raiseIf_eq_ok orRaise_eq_ok)
open PendingInputs (canonicalizeSessionKey)

variable {op : GoalOp} {before after store next : Store} {goal row : GoalRecord} {taskId : Text}
  {result : GoalCommandResult}

theorem advance_pausedFor (reason : Text) (terminalReason : Option Text) (now : Nat)
    (goal : GoalRecord) : Advance goal (goal.pausedFor reason terminalReason now) :=
  ⟨rfl, rfl, rfl, rfl, Nat.lt_succ_self _, Nat.le_refl _, fun _ => rfl, .keep _⟩

theorem advance_resumed (now : Nat) (goal : GoalRecord) : Advance goal (goal.resumed now) :=
  ⟨rfl, rfl, rfl, rfl, Nat.lt_succ_self _, Nat.le_refl _, fun _ => rfl, .keep _⟩

theorem advance_edited (objective : Text) (now : Nat) (goal : GoalRecord) :
    Advance goal (goal.edited objective now) where
  sessionKey := rfl
  sessionId := rfl
  sessionEpoch := rfl
  goalId := rfl
  stateRevision := Nat.lt_succ_self _
  objectiveRevision := Nat.le_add_right _ _
  objective same := by
    by_cases changed : goal.objective ≠ objective
    · simp [GoalRecord.edited, changed] at same
    · exact (not_not.1 changed).symm
  tenure := .keep _

structure SameStanding (row next : GoalRecord) : Prop where
  sessionKey : next.sessionKey = row.sessionKey
  sessionId : next.sessionId = row.sessionId
  sessionEpoch : next.sessionEpoch = row.sessionEpoch
  goalId : next.goalId = row.goalId
  stateRevision : next.stateRevision = row.stateRevision
  objectiveRevision : next.objectiveRevision = row.objectiveRevision
  objective : next.objective = row.objective
  activeTaskId : next.activeTaskId = row.activeTaskId
  turnsStarted : next.turnsStarted = row.turnsStarted
  turnsSettled : next.turnsSettled = row.turnsSettled

theorem SameStanding.refl (row : GoalRecord) : SameStanding row row :=
  ⟨rfl, rfl, rfl, rfl, rfl, rfl, rfl, rfl, rfl, rfl⟩

theorem SameStanding.trans {one two three : GoalRecord} (first : SameStanding one two)
    (second : SameStanding two three) : SameStanding one three :=
  ⟨second.1.trans first.1, second.2.trans first.2, second.3.trans first.3, second.4.trans first.4,
    second.5.trans first.5, second.6.trans first.6, second.7.trans first.7, second.8.trans first.8,
    second.9.trans first.9, second.10.trans first.10⟩

theorem sameStanding_resumedByEdit (row : GoalRecord) : SameStanding row row.resumedByEdit :=
  ⟨rfl, rfl, rfl, rfl, rfl, rfl, rfl, rfl, rfl, rfl⟩

theorem sameStanding_pausedByEdit (row : GoalRecord) : SameStanding row row.pausedByEdit :=
  ⟨rfl, rfl, rfl, rfl, rfl, rfl, rfl, rfl, rfl, rfl⟩

namespace Store

theorem orReplay_ok {command : GoalCommandRequest} {current : Except Raised (GoalCommandResult × Store)}
    (ran : store.orReplay command current = .ok (result, next)) :
    next = store ∨ current = .ok (result, next) := by
  obtain ⟨replay, -, ran⟩ := of_bind_ok ran
  cases replay with
  | some replay =>
    cases ran
    exact .inl rfl
  | none => exact .inr ran

theorem requireExpectedGoal_ok {sessionKey : Text} {expected : ExpectedGoal}
    (ran : store.requireExpectedGoal sessionKey expected = .ok goal) :
    goal ∈ store.goals.rows ∧ goal.sessionKey = sessionKey ∧ goal.goalId = expected.goalId ∧
      goal.stateRevision = expected.stateRevision := by
  obtain ⟨found, selected, ran⟩ := of_bind_ok ran
  obtain ⟨_, -, ran⟩ := of_bind_ok ran
  obtain ⟨_, fresh, ran⟩ := of_bind_ok ran
  cases ran
  have current := selectGoal_eq_some (orRaise_eq_ok.1 selected)
  have same := not_or.1 (raiseIf_eq_ok.1 fresh)
  exact ⟨current.1, current.2, not_not.1 same.1, not_not.1 same.2⟩

theorem change_updateGoals {chosen : GoalRecord → Bool} {f : GoalRecord → GoalRecord}
    (advances : ∀ goal, Advance goal (f goal)) (keeps : ∀ goal, (f goal).activeTaskId = goal.activeTaskId)
    (ran : store.updateGoals chosen f = .ok next) : Change op store next := by
  refine change_of_rows ?_ (updateGoals_ok ran).1
  intro row mem
  obtain ⟨goal, present, rfl⟩ := mem_updateGoals ran mem
  split
  · exact origin_kept present (advances goal) (keeps goal)
  · exact origin_same present

theorem pauseGoal_change {call : GoalCommand} {reason : Option Text}
    (ran : store.pauseGoal call reason = .ok (result, next)) : Change op store next := by
  obtain ⟨command, -, ran⟩ := of_bind_ok ran
  obtain ⟨normalized, -, ran⟩ := of_bind_ok ran
  obtain rfl | ran := orReplay_ok ran
  · exact change_same rfl rfl
  obtain ⟨goal, -, ran⟩ := of_bind_ok ran
  obtain ⟨_, -, ran⟩ := of_bind_ok ran
  obtain ⟨paused, updated, ran⟩ := of_bind_ok ran
  obtain ⟨_, -, ran⟩ := of_bind_ok ran
  cases ran
  have change : Change op store paused :=
    change_updateGoals (advance_pausedFor _ _ _) (fun _ => rfl) updated
  exact change.to_same rfl rfl

theorem resumeGoal_change {call : GoalCommand} (ran : store.resumeGoal call = .ok (result, next)) :
    Change op store next := by
  obtain ⟨command, -, ran⟩ := of_bind_ok ran
  obtain rfl | ran := orReplay_ok ran
  · exact change_same rfl rfl
  obtain ⟨goal, -, ran⟩ := of_bind_ok ran
  obtain ⟨_, -, ran⟩ := of_bind_ok ran
  obtain ⟨⟨_, middle⟩, refreshed, ran⟩ := of_bind_ok ran
  obtain ⟨resumed, updated, ran⟩ := of_bind_ok ran
  obtain ⟨_, -, ran⟩ := of_bind_ok ran
  cases ran
  have fresh := refreshGoalUsageCoverage_ok refreshed
  have change : Change op middle resumed :=
    change_updateGoals (advance_resumed _) (fun _ => rfl) updated
  exact (change.of_covered fresh.1 fresh.2.1).to_same rfl rfl

theorem pauseGoalForSystem_change {pause : SystemPause} {found : Option GoalRecord}
    (ran : store.pauseGoalForSystem pause = .ok (found, next)) : Change op store next := by
  obtain ⟨reason, -, ran⟩ := of_bind_ok ran
  dsimp only at ran
  split at ran
  next =>
    cases ran
    exact change_same rfl rfl
  next current selected =>
    split at ran
    next =>
      cases ran
      exact change_same rfl rfl
    next =>
      obtain ⟨paused, updated, ran⟩ := of_bind_ok ran
      cases ran
      exact change_updateGoals (advance_pausedFor _ _ _) (fun _ => rfl) updated

theorem get?_writeTask (task : AgentTask) (other : Text) : (store.writeTask taskId task).tasks.get? other =
      if taskId = other then some task else store.tasks.get? other :=
  (Dict.get?_set _ _ _ _).trans (if_congr eq_comm rfl rfl)

theorem candidateOf_same {task next : AgentTask} (status : next.status = task.status)
    (candidate : next.details.goalCandidate = task.details.goalCandidate)
    (context : next.details.goalContext = task.details.goalContext) : CandidateOf task next :=
  fun queued isCandidate => .inr ⟨status ▸ queued, candidate ▸ isCandidate, context⟩

theorem candidateOf_running {task next : AgentTask} (running : next.status = .running) :
    CandidateOf task next :=
  fun queued => by rw [running] at queued; cases queued

theorem tasks_writeDetails {task : AgentTask} {details : TaskDetails}
    {rows : List GoalRecord} (found : store.tasks.get? taskId = some task)
    (slots : SlotWrite op rows taskId task.details details)
    (candidate : CandidateOf task { task with details := details }) (other : Text) :
    TaskChange op rows other (store.tasks.get? other)
      ((store.writeDetails taskId task details).tasks.get? other) := by
  rw [writeDetails, get?_writeTask]
  by_cases here : taskId = other
  · subst here
    rw [if_pos rfl, found]
    exact .written task _ rfl (.inl rfl) slots candidate
  · rw [if_neg here]
    exact .same _

theorem goals_revokeUpdate : (store.revokeUpdate goal).goals = store.goals := by
  unfold revokeUpdate
  repeat' split
  all_goals rfl

theorem tasks_revokeUpdate (rows : List GoalRecord) (other : Text) :
    TaskChange op rows other (store.tasks.get? other) ((store.revokeUpdate goal).tasks.get? other) := by
  unfold revokeUpdate
  split
  · exact .same _
  next owner held =>
    split
    · exact .same _
    next task found =>
      split
      · exact .same _
      next update slot =>
        split
        · exact tasks_writeDetails found (.revoked update slot) (candidateOf_same rfl rfl rfl) other
        · exact .same _

theorem clearGoal_change {call : GoalCommand} (ran : store.clearGoal call = .ok (result, next)) :
    Change op store next := by
  obtain ⟨command, -, ran⟩ := of_bind_ok ran
  obtain rfl | ran := orReplay_ok ran
  · exact change_same rfl rfl
  obtain ⟨goal, -, ran⟩ := of_bind_ok ran
  obtain ⟨_, -, ran⟩ := of_bind_ok ran
  cases ran
  exact {
    rows := fun row mem =>
      origin_same (by simpa only [goals_revokeUpdate] using (Table.mem_delete.1 mem).1)
    tasks := tasks_revokeUpdate _ }

/-- The goal stands as the update says, and the running owner still holds the update. -/
structure Holds (store : Store) (update held : GoalObjectiveUpdate) (task : AgentTask) (goal : GoalRecord) :
    Prop where
  mem : goal ∈ store.goals.rows
  captures : Captures update.context goal update.context.taskId
  owner : goal.activeTaskId = some update.context.taskId
  found : store.tasks.get? update.context.taskId = some task
  running : task.status = .running
  slot : task.details.goalObjectiveUpdate = some held
  context : held.context = update.context
  stateRevision : held.stateRevision = update.stateRevision

theorem heldUpdate_eq_some {update held : GoalObjectiveUpdate} {statuses : List UpdateStatus}
    {task : AgentTask} (selected : store.heldUpdate update statuses = some (task, held)) :
    (∃ goal, Holds store update held task goal) ∧ held.status ∈ statuses := by
  obtain ⟨goal, stands, selected⟩ := Option.bind_eq_some_iff.1 selected
  obtain ⟨found, taskFound, selected⟩ := Option.bind_eq_some_iff.1 selected
  obtain ⟨slot, slotFound, selected⟩ := Option.bind_eq_some_iff.1 selected
  split at selected
  next same =>
    cases selected
    obtain ⟨current, matched⟩ := Option.filter_eq_some_iff.1 stands
    have present := selectGoalById_eq_some current
    simp only [Bool.and_eq_true, decide_eq_true_eq] at matched
    obtain ⟨⟨⟨⟨⟨sessionId, epoch⟩, revision⟩, objective⟩, owner⟩, -⟩ := matched
    obtain ⟨running, -, context, stateRevision, status⟩ := same
    have captures : Captures update.context goal update.context.taskId :=
      ⟨sessionId.symm, epoch.symm, present.2.symm, rfl, revision.symm, objective.symm⟩
    exact ⟨⟨goal, present.1, captures, owner, taskFound, running, slotFound, context, stateRevision⟩,
      status⟩
  next => cases selected

theorem claimGoalObjectiveUpdate_change (update : GoalObjectiveUpdate) :
    Change (.claimGoalObjectiveUpdate update) store (store.claimGoalObjectiveUpdate update).2 := by
  unfold claimGoalObjectiveUpdate
  split
  · exact change_same rfl rfl
  next task held selected =>
    obtain ⟨⟨goal, holds⟩, unapplied⟩ := heldUpdate_eq_some selected
    exact {
      rows := fun row mem => origin_same mem
      tasks := tasks_writeDetails holds.found
        (.claimed update held rfl holds.slot holds.context (by simpa using unapplied)
          ⟨goal, holds.mem, holds.owner, holds.captures⟩)
        (candidateOf_same rfl rfl rfl) }

theorem applyGoalObjectiveUpdate_change (update : GoalObjectiveUpdate) :
    Change (.applyGoalObjectiveUpdate update) store (store.applyGoalObjectiveUpdate update).2 := by
  unfold applyGoalObjectiveUpdate
  split
  · exact change_same rfl rfl
  next task held selected =>
    obtain ⟨⟨goal, holds⟩, claimed⟩ := heldUpdate_eq_some selected
    exact {
      rows := fun row mem => origin_same mem
      tasks := tasks_writeDetails holds.found
        (.applied update held rfl holds.slot holds.context (List.mem_singleton.1 claimed)
          ⟨goal, holds.mem, holds.owner, holds.captures⟩)
        (candidateOf_same rfl rfl rfl) }

theorem mem_updateGoalsIf {condition : Prop} [Decidable condition] {chosen : GoalRecord → Bool}
    {f : GoalRecord → GoalRecord} (ran : store.updateGoalsIf condition chosen f = .ok next) :
    next.tasks = store.tasks ∧ ∀ row ∈ next.goals.rows,
      row ∈ store.goals.rows ∨ ∃ goal ∈ store.goals.rows, chosen goal = true ∧ row = f goal := by
  unfold updateGoalsIf at ran
  split at ran
  next =>
    refine ⟨(updateGoals_ok ran).1, fun row mem => ?_⟩
    obtain ⟨goal, present, rfl⟩ := mem_updateGoals ran mem
    split
    next picked => exact .inr ⟨goal, present, picked, rfl⟩
    next => exact .inl present
  next =>
    cases ran
    exact ⟨rfl, fun row mem => .inl mem⟩

-- A row of another goal, or the edited row before an owner is bound to it.
def Edited (store : Store) (goal edited row : GoalRecord) : Prop :=
  (row ∈ store.goals.rows ∧ row.goalId ≠ goal.goalId) ∨ SameStanding edited row

theorem edited_updateGoalsIf {condition : Prop} [Decidable condition] {middle : Store}
    {f : GoalRecord → GoalRecord} {edited : GoalRecord} (standing : ∀ row, SameStanding row (f row))
    (each : ∀ row ∈ middle.goals.rows, Edited store goal edited row)
    (ran : middle.updateGoalsIf condition (fun row => decide (row.goalId = goal.goalId)) f = .ok next) :
    next.tasks = middle.tasks ∧ ∀ row ∈ next.goals.rows, Edited store goal edited row := by
  obtain ⟨tasks, rows⟩ := mem_updateGoalsIf ran
  refine ⟨tasks, fun row mem => ?_⟩
  obtain present | ⟨base, present, picked, rfl⟩ := rows row mem
  · exact each row present
  · obtain ⟨-, elsewhere⟩ | same := each base present
    · exact absurd (of_decide_eq_true picked) elsewhere
    · exact .inr (same.trans (standing base))

theorem editRow_ok {edit : EditGoal} {sessionKey objective : Text} {binding : Option (Text × AgentTask)}
    (present : goal ∈ store.goals.rows) (expected : edit.expected.goalId = goal.goalId)
    (ran : store.editRow edit sessionKey objective goal binding = .ok next) :
    next.tasks = store.tasks ∧ ∀ row ∈ next.goals.rows,
      (row ∈ store.goals.rows ∧ row.goalId ≠ goal.goalId) ∨
        ∃ edited, SameStanding (goal.edited objective edit.now) edited ∧
          row = binding.elim edited (fun owner => edited.bound owner.1 goal.activeTaskId.isNone) := by
  obtain ⟨first, updated, ran⟩ := of_bind_ok ran
  obtain ⟨second, resumes, ran⟩ := of_bind_ok ran
  obtain ⟨third, pauses, ran⟩ := of_bind_ok ran
  obtain ⟨met, updated⟩ := updateOneGoal_ok updated
  have chosenId : ∀ row, edit.expected.meets sessionKey row = true → row.goalId = goal.goalId := by
    intro row meets
    simp only [ExpectedGoal.meets, Bool.and_eq_true, decide_eq_true_eq] at meets
    rw [meets.1.2, expected]
  have meets : edit.expected.meets sessionKey goal = true := by
    obtain ⟨row, mem, picked⟩ := List.countP_pos_iff.1 (met ▸ Nat.one_pos)
    rwa [← eq_of_goalId mem present (chosenId row picked)]
  have firstRows : ∀ row ∈ first.goals.rows,
      Edited store goal (goal.edited objective edit.now) row := by
    intro row mem
    obtain ⟨base, baseMember, rfl⟩ := mem_updateGoals updated mem
    by_cases same : base.goalId = goal.goalId
    · obtain rfl := eq_of_goalId baseMember present same
      rw [if_pos meets]
      exact .inr (.refl _)
    · rw [if_neg (fun picked => same (chosenId base picked))]
      exact .inl ⟨baseMember, same⟩
  obtain ⟨secondTasks, secondRows⟩ :=
    edited_updateGoalsIf sameStanding_resumedByEdit firstRows resumes
  obtain ⟨thirdTasks, thirdRows⟩ :=
    edited_updateGoalsIf sameStanding_pausedByEdit secondRows pauses
  have tasks : third.tasks = store.tasks :=
    thirdTasks.trans (secondTasks.trans (updateGoals_ok updated).1)
  cases binding with
  | none =>
    cases ran
    refine ⟨tasks, fun row mem => ?_⟩
    obtain elsewhere | same := thirdRows row mem
    · exact .inl elsewhere
    · exact .inr ⟨row, same, rfl⟩
  | some owner =>
    refine ⟨(updateGoals_ok ran).1.trans tasks, fun row mem => ?_⟩
    obtain ⟨base, baseMember, rfl⟩ := mem_updateGoals ran mem
    obtain ⟨baseMember, elsewhere⟩ | same := thirdRows base baseMember
    · rw [if_neg (by simpa using elsewhere)]
      exact .inl ⟨baseMember, elsewhere⟩
    · have here : base.goalId = goal.goalId := same.goalId
      rw [if_pos (decide_eq_true here)]
      exact .inr ⟨base, same, rfl⟩

theorem bindingTask_ok {sessionKey : Text} {bindingTaskId : Option Text} {binding : Option (Text × AgentTask)}
    (ran : store.bindingTask goal sessionKey bindingTaskId = .ok binding) :
    binding = none ∨ ∃ taskId task, binding = some (taskId, task) ∧ bindingTaskId = some taskId ∧
      store.tasks.get? taskId = some task ∧ task.sessionKey = sessionKey ∧ task.status = .running ∧
        (goal.activeTaskId = none ∨ goal.activeTaskId = some taskId) := by
  cases bindingTaskId with
  | none =>
    cases ran
    exact .inl rfl
  | some taskId =>
    obtain ⟨_, -, ran⟩ := of_bind_ok ran
    obtain ⟨task, found, ran⟩ := of_bind_ok ran
    obtain ⟨_, checked, ran⟩ := of_bind_ok ran
    cases ran
    have checks := raiseIf_eq_ok.1 checked
    rw [not_or, not_or, not_or, not_or, not_not, not_not, not_not] at checks
    exact .inr ⟨taskId, task, rfl, rfl, orRaise_eq_ok.1 found, checks.1, checks.2.1,
      not_not.1 checks.2.2.2.2⟩

theorem adoptObjective_cases (updated : GoalRecord) (sessionKey : Text) (now : Nat) (store : Store) :
    store.adoptObjective updated sessionKey taskId now = store ∨
      ∃ task update, store.tasks.get? taskId = some task ∧ effectiveGoalTurnContext task.details ≠ none ∧
        update.status = .pending ∧ Captures update.context updated taskId ∧
          store.adoptObjective updated sessionKey taskId now =
            store.writeDetails taskId task { task.details with goalObjectiveUpdate := some update } := by
  unfold adoptObjective
  split
  · exact .inl rfl
  next task found =>
    split
    · exact .inl rfl
    next accepted contextual =>
      split
      · refine .inr ⟨task, _, found, ?_, ?_, ?_, rfl⟩
        · rw [contextual]
          exact Option.some_ne_none _
        · rfl
        · exact ⟨rfl, rfl, rfl, rfl, rfl, rfl⟩
      · exact .inl rfl

theorem adopt_cases (edit : EditGoal) (updated : GoalRecord) (sessionKey : Text) (store : Store) :
    store.adopt edit updated sessionKey = store ∨
      ∃ taskId task update, edit.adoptionTaskId = some taskId ∧ updated.activeTaskId = some taskId ∧
        store.tasks.get? taskId = some task ∧ effectiveGoalTurnContext task.details ≠ none ∧
          update.status = .pending ∧ Captures update.context updated taskId ∧
            store.adopt edit updated sessionKey =
              store.writeDetails taskId task
                { task.details with goalObjectiveUpdate := some update } := by
  unfold adopt
  split
  · exact .inl rfl
  next taskId adopts =>
    split
    next owner =>
      obtain same | ⟨task, update, found, contextual, pending, captures, written⟩ :=
        adoptObjective_cases updated sessionKey edit.now store
      · exact .inl same
      · exact .inr ⟨taskId, task, update, adopts, owner, found, contextual, pending, captures, written⟩
    next => exact .inl rfl

theorem goals_adopt (edit : EditGoal) (updated : GoalRecord) (sessionKey : Text) (store : Store) :
    (store.adopt edit updated sessionKey).goals = store.goals := by
  obtain same | ⟨_, _, _, -, -, -, -, -, -, written⟩ := adopt_cases edit updated sessionKey store
  · rw [same]
  · rw [written]
    rfl

theorem advance_bound {edited : GoalRecord} (advance : Advance goal edited)
    (same : edited.tenure = goal.tenure) (taskId : Text)
    (free : goal.activeTaskId = none ∨ goal.activeTaskId = some taskId) :
    Advance goal (edited.bound taskId goal.activeTaskId.isNone) := by
  obtain ⟨holder, started, settled⟩ :
      edited.activeTaskId = goal.activeTaskId ∧ edited.turnsStarted = goal.turnsStarted ∧
        edited.turnsSettled = goal.turnsSettled := by
    simpa [GoalRecord.tenure] using same
  refine { advance with tenure := ?_ }
  obtain free | owner := free
  · exact .take_of free rfl (by simp [GoalRecord.tenure, GoalRecord.bound, free, started]) settled
  · refine .keep_of owner.symm ?_ settled
    simp [GoalRecord.tenure, GoalRecord.bound, owner, started]

theorem advance_sameStanding {objective : Text} {now : Nat} {edited : GoalRecord}
    (same : SameStanding (goal.edited objective now) edited) :
    Advance goal edited ∧ edited.tenure = goal.tenure := by
  have advance := advance_edited objective now goal
  have tenure : edited.tenure = goal.tenure := by
    simp only [GoalRecord.tenure, same.activeTaskId, same.turnsStarted, same.turnsSettled]
    rfl
  refine ⟨?_, tenure⟩
  exact {
    sessionKey := same.sessionKey
    sessionId := same.sessionId
    sessionEpoch := same.sessionEpoch
    goalId := same.goalId
    stateRevision := same.stateRevision ▸ advance.stateRevision
    objectiveRevision := same.objectiveRevision ▸ advance.objectiveRevision
    objective := fun revision =>
      same.objective.trans (advance.objective (same.objectiveRevision.symm.trans revision))
    tenure := tenure ▸ .keep _ }

theorem edit_unbound_change {edit : EditGoal} {updated : GoalRecord} {sessionKey objective : Text}
    {edited : Store} (present : goal ∈ store.goals.rows) (tasks : edited.tasks = store.tasks)
    (rows : ∀ row ∈ edited.goals.rows, (row ∈ store.goals.rows ∧ row.goalId ≠ goal.goalId) ∨
      SameStanding (goal.edited objective edit.now) row)
    (mem : updated ∈ edited.goals.rows) :
    Change (.editGoal edit) store (edited.adopt edit updated sessionKey) where
  rows row rowMember := by
    rw [goals_adopt] at rowMember
    obtain ⟨elsewhere, -⟩ | same := rows row rowMember
    · exact origin_same elsewhere
    · obtain ⟨advance, -⟩ := advance_sameStanding same
      exact origin_kept present advance same.activeTaskId
  tasks other := by
    rw [goals_adopt]
    obtain same | ⟨taskId, task, update, adopts, owner, found, contextual, pending, captures, written⟩ :=
      adopt_cases edit updated sessionKey edited
    · rw [same, tasks]
      exact .same _
    · have slots : SlotWrite (.editGoal edit) edited.goals.rows taskId task.details
          { task.details with goalObjectiveUpdate := some update } :=
        .adopted update adopts ⟨updated, mem, owner, captures⟩ pending contextual
      rw [written, ← tasks]
      exact tasks_writeDetails found slots (candidateOf_same rfl rfl rfl) other

theorem boundDetails (edit : EditGoal) (sessionKey : Text) {edited : Store} {updated : GoalRecord}
    {task : AgentTask} (owner : updated.activeTaskId = some taskId) : ∃ last : TaskDetails,
      ((edited.bindContext updated (some (taskId, task))).adopt edit updated sessionKey).tasks.get? taskId =
        some { task with details := last } ∧
      (∀ other, other ≠ taskId →
        ((edited.bindContext updated (some (taskId, task))).adopt edit updated sessionKey).tasks.get? other =
          edited.tasks.get? other) ∧
      last.goalContext =
        some (task.details.goalContext.getD (goalTurnContext updated taskId false)) ∧
      last.goalEffectiveContext = some (goalTurnContext updated taskId false) ∧
      ∀ update, last.goalObjectiveUpdate = some update → update.status = .pending ∧
        edit.adoptionTaskId = some taskId ∧ Captures update.context updated taskId := by
  let details : TaskDetails := { task.details with
    goalEffectiveContext := some (goalTurnContext updated taskId false)
    goalContext := some (task.details.goalContext.getD (goalTurnContext updated taskId false))
    goalObjectiveUpdate := none }
  have bound : ∀ other, (edited.bindContext updated (some (taskId, task))).tasks.get? other =
      if taskId = other then some { task with details := details } else edited.tasks.get? other :=
    get?_writeTask _
  obtain same | ⟨adopted, held, update, adopts, adoptedOwner, found, -, pending, captures, written⟩ :=
    adopt_cases edit updated sessionKey (edited.bindContext updated (some (taskId, task)))
  · rw [same]
    refine ⟨details, (bound taskId).trans (if_pos rfl), ?_, rfl, rfl, fun _ slot => nomatch slot⟩
    intro other elsewhere
    exact (bound other).trans (if_neg (Ne.symm elsewhere))
  · obtain rfl := Option.some.inj (owner.symm.trans adoptedOwner)
    obtain rfl := Option.some.inj (found.symm.trans ((bound taskId).trans (if_pos rfl)))
    rw [written]
    refine ⟨{ details with goalObjectiveUpdate := some update },
      (get?_writeTask _ _).trans (if_pos rfl), ?_, rfl, rfl, ?_⟩
    · intro other elsewhere
      rw [writeDetails, get?_writeTask, if_neg (Ne.symm elsewhere), bound, if_neg (Ne.symm elsewhere)]
    · rintro _ ⟨⟩
      exact ⟨pending, adopts, captures⟩

theorem edit_bound_change {edit : EditGoal} {updated : GoalRecord} {sessionKey objective : Text}
    {edited : Store} {task : AgentTask} (present : goal ∈ store.goals.rows)
    (tasks : edited.tasks = store.tasks) (binds : edit.bindingTaskId = some taskId)
    (found : store.tasks.get? taskId = some task) (running : task.status = .running)
    (taskSession : task.sessionKey = goal.sessionKey)
    (free : goal.activeTaskId = none ∨ goal.activeTaskId = some taskId)
    (rows : ∀ row ∈ edited.goals.rows, (row ∈ store.goals.rows ∧ row.goalId ≠ goal.goalId) ∨
      ∃ base, SameStanding (goal.edited objective edit.now) base ∧
        row = base.bound taskId goal.activeTaskId.isNone)
    (mem : updated ∈ edited.goals.rows) (owner : updated.activeTaskId = some taskId)
    (current : updated.goalId = goal.goalId) :
    Change (.editGoal edit) store
      ((edited.bindContext updated (some (taskId, task))).adopt edit updated sessionKey) := by
  have session : updated.sessionKey = goal.sessionKey := by
    obtain ⟨-, elsewhere⟩ | ⟨base, same, rfl⟩ := rows updated mem
    · exact absurd current elsewhere
    · exact same.sessionKey
  obtain ⟨last, lastFound, others, goalContext, effective, update⟩ :=
    boundDetails edit sessionKey owner
  have owned : OwnedBy edited.goals.rows (goalTurnContext updated taskId false) taskId :=
    ⟨updated, mem, owner, captures_goalTurnContext updated taskId false⟩
  have gained : ∀ row ∈ edited.goals.rows, row.goalId = goal.goalId →
      Gained ((edited.bindContext updated (some (taskId, task))).adopt edit updated sessionKey).tasks
        row taskId := by
    intro row rowMember same
    obtain rfl := eq_of_goalId rowMember mem (same.trans current.symm)
    refine ⟨_, _, lastFound, by simp [TaskStatus.unfinished, running], taskSession.trans session.symm,
      by rw [effectiveGoalTurnContext, effective]; rfl, captures_goalTurnContext row taskId false, ?_⟩
    intro held slot
    exact ⟨(update held slot).1, (update held slot).2.2⟩
  have goals : ((edited.bindContext updated (some (taskId, task))).adopt edit updated sessionKey).goals =
      edited.goals := goals_adopt ..
  constructor
  · intro row rowMember
    rw [goals] at rowMember
    obtain ⟨elsewhere, -⟩ | ⟨base, same, rfl⟩ := rows row rowMember
    · exact origin_same elsewhere
    · obtain ⟨advance, tenure⟩ := advance_sameStanding same
      refine .row goal present (.advanced (advance_bound advance tenure taskId free)) ?_ ?_
      · rintro other ⟨⟩
        exact .inr (gained _ rowMember same.goalId)
      · intro other _ released
        cases released
  · intro other
    rw [goals]
    by_cases here : other = taskId
    · subst here
      rw [found, lastFound]
      exact .written task _ rfl (.inl rfl)
        (.bound _ binds owned goalContext effective
          (fun held slot => ⟨(update held slot).1, (update held slot).2.1,
            ⟨updated, mem, owner, (update held slot).2.2⟩⟩)) (candidateOf_running running)
    · rw [others other here, tasks]
      exact .same _

theorem editGoal_change {edit : EditGoal} (ran : store.editGoal edit = .ok (result, next)) :
    Change (.editGoal edit) store next := by
  obtain ⟨_, -, ran⟩ := of_bind_ok ran
  obtain ⟨command, -, ran⟩ := of_bind_ok ran
  obtain ⟨objective, -, ran⟩ := of_bind_ok ran
  obtain rfl | ran := orReplay_ok ran
  · exact change_same rfl rfl
  obtain ⟨found, expected, ran⟩ := of_bind_ok ran
  obtain ⟨⟨refreshed, middle⟩, refreshes, ran⟩ := of_bind_ok ran
  obtain ⟨binding, binds, ran⟩ := of_bind_ok ran
  obtain ⟨_, -, ran⟩ := of_bind_ok ran
  obtain ⟨edited, edits, ran⟩ := of_bind_ok ran
  obtain ⟨updated, selected, ran⟩ := of_bind_ok ran
  cases ran
  obtain ⟨foundMember, session, expectedId, -⟩ := requireExpectedGoal_ok expected
  obtain ⟨covered, sameTasks, -⟩ := refreshGoalUsageCoverage_ok refreshes
  obtain ⟨present, coverage, same⟩ := refresh_getD refreshes foundMember
  have updatedRow := selectGoal_eq_some (orRaise_eq_ok.1 selected)
  have goalId : (refreshed.getD found).goalId = found.goalId := by rw [same]
  have goalSession : (refreshed.getD found).sessionKey = found.sessionKey := by rw [same]
  obtain ⟨tasks, rows⟩ := editRow_ok present (expectedId.symm.trans goalId.symm) edits
  suffices change : Change (.editGoal edit) middle
      ((edited.bindContext updated binding).adopt edit updated (canonicalizeSessionKey edit.sessionKey)) from
    (change.of_covered covered sameTasks).to_same rfl rfl
  obtain rfl | ⟨taskId, task, rfl, bindsTo, taskFound, taskSession, running, free⟩ := bindingTask_ok binds
  · have unbound : ∀ row ∈ edited.goals.rows,
        (row ∈ middle.goals.rows ∧ row.goalId ≠ (refreshed.getD found).goalId) ∨
          SameStanding ((refreshed.getD found).edited objective edit.now) row := by
      intro row mem
      obtain elsewhere | ⟨base, standing, rfl⟩ := rows row mem
      · exact .inl elsewhere
      · exact .inr standing
    exact edit_unbound_change present tasks unbound updatedRow.1
  · have current : updated.goalId = (refreshed.getD found).goalId ∧
        updated.activeTaskId = some taskId := by
      obtain ⟨elsewhere, different⟩ | ⟨base, standing, rfl⟩ := rows updated updatedRow.1
      · exact absurd (congrArg GoalRecord.goalId (eq_of_sessionKey elsewhere present
          (updatedRow.2.trans (session.symm.trans goalSession.symm)))) different
      · exact ⟨standing.goalId, rfl⟩
    exact edit_bound_change present tasks bindsTo taskFound running
      (taskSession.trans (session.symm.trans goalSession.symm)) free rows updatedRow.1 current.2 current.1

end Store

end OpenSquilla.Goals
