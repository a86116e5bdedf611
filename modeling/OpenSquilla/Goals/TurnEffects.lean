import OpenSquilla.Goals.CommandEffects

set_option autoImplicit false

namespace OpenSquilla.Goals

open TextLines TextScan
open RaisingRuns (raiseIf raiseAny orRaise of_bind_ok raiseIf_eq_ok orRaise_eq_ok)
open PendingInputs (canonicalizeSessionKey)

variable {op : GoalOp} {before middle after store next : Store} {goal row : GoalRecord} {taskId : Text}
  {chosen : GoalRecord → Bool} {f : GoalRecord → GoalRecord} {tasks : Dict Text AgentTask}

theorem advance_took (taskId : Text) (now : Nat) (free : goal.activeTaskId = none) :
    Advance goal (goal.took taskId now) where
  sessionKey := rfl
  sessionId := rfl
  sessionEpoch := rfl
  goalId := rfl
  stateRevision := Nat.lt_succ_self _
  objectiveRevision := Nat.le_refl _
  objective _ := rfl
  tenure := .take_of free rfl rfl rfl

theorem advance_continuedBy (taskId : Text) (continuationSeq now : Nat) (free : goal.activeTaskId = none) :
    Advance goal (goal.continuedBy taskId continuationSeq now) where
  sessionKey := rfl
  sessionId := rfl
  sessionEpoch := rfl
  goalId := rfl
  stateRevision := Nat.lt_succ_self _
  objectiveRevision := Nat.le_refl _
  objective _ := rfl
  tenure := .take_of free rfl rfl rfl

theorem advance_guardrailPaused (reason : Text) (now : Nat) (goal : GoalRecord) :
    Advance goal (goal.guardrailPaused reason now) :=
  ⟨rfl, rfl, rfl, rfl, Nat.lt_succ_self _, Nat.le_refl _, fun _ => rfl, .keep _⟩

theorem advance_committed (status : GoalStatus) (taskId : Text) (blockedReason : Option Text) (now : Nat)
    (goal : GoalRecord) : Advance goal (goal.committed status taskId blockedReason now) :=
  ⟨rfl, rfl, rfl, rfl, Nat.lt_succ_self _, Nat.le_refl _, fun _ => rfl, .keep _⟩

theorem advance_settled {verdict : Verdict} {terminalTaskId : Option Text} {active window now : Nat}
    {turnUsage : TokenUsage} (held : goal.activeTaskId = some taskId) :
    Advance goal (goal.settled verdict terminalTaskId active window now turnUsage) :=
  ⟨rfl, rfl, rfl, rfl, Nat.lt_succ_self _, Nat.le_refl _, fun _ => rfl, .release_of held rfl rfl rfl⟩

theorem advance_compensated {compensation : Compensation} {preserveStatus consumed : Bool}
    {terminalTaskId : Option Text} {durationMs : Nat} (held : goal.activeTaskId = some taskId) :
    Advance goal (goal.compensated compensation preserveStatus consumed terminalTaskId durationMs) :=
  ⟨rfl, rfl, rfl, rfl, Nat.lt_succ_self _, Nat.le_refl _, fun _ => rfl, .release_of held rfl rfl rfl⟩

namespace Store

theorem updated_mem (ran : store.updateGoals chosen f = .ok next) (present : goal ∈ store.goals.rows)
    (picked : chosen goal = true) : f goal ∈ next.goals.rows := by
  rw [(updateGoals_ok ran).2]
  exact List.mem_map.2 ⟨goal, present, if_pos picked⟩

variable (op) in
theorem origin_taken (ran : store.updateGoals chosen f = .ok next) (free : goal.activeTaskId = none)
    (present : goal ∈ store.goals.rows) (only : ∀ row ∈ store.goals.rows, chosen row = true → row = goal)
    (advance : Advance goal (f goal)) (owner : (f goal).activeTaskId = some taskId)
    (gained : Gained tasks (f goal) taskId) :
    ∀ row ∈ next.goals.rows, Origin op store.goals.rows tasks row := by
  intro row mem
  obtain ⟨base, baseMember, rfl⟩ := mem_updateGoals ran mem
  split
  next picked =>
    obtain rfl := only base baseMember picked
    refine .row base present (.advanced advance) ?_ ?_
    · intro other held
      obtain rfl := Option.some.inj (owner.symm.trans held)
      exact .inr gained
    · intro other held
      rw [free] at held
      cases held
  next => exact origin_same baseMember

variable (op) in
theorem origin_released (ran : store.updateGoals chosen f = .ok next)
    (advance : ∀ row ∈ store.goals.rows, chosen row = true → Advance row (f row))
    (free : ∀ row, (f row).activeTaskId = none)
    (held : ∀ row, chosen row = true → row.activeTaskId = some taskId) (isOver : Over tasks taskId) :
    ∀ row ∈ next.goals.rows, Origin op store.goals.rows tasks row := by
  intro row mem
  obtain ⟨base, present, rfl⟩ := mem_updateGoals ran mem
  split
  next picked =>
    refine .row base present (.advanced (advance base present picked)) ?_ ?_
    · intro other owned
      rw [free] at owned
      cases owned
    · intro other owned _
      obtain rfl := Option.some.inj ((held base picked).symm.trans owned)
      exact isOver
  next => exact origin_same present

theorem insertGoal_ok (ran : store.insertGoal goal = .ok next) :
    next.tasks = store.tasks ∧ next.goals.rows = store.goals.rows ++ [goal] := by
  obtain ⟨rows, inserted, ran⟩ := of_bind_ok ran
  cases ran
  exact ⟨rfl, (Table.insert?_eq_some_iff.1 (orRaise_eq_ok.1 inserted)).2⟩

variable {task : AgentTask}

theorem insertAgentTask_ok (ran : store.insertAgentTask taskId task = .ok next) :
    store.tasks.get? taskId = none ∧ next = store.writeTask taskId task := by
  obtain ⟨_, absent, ran⟩ := of_bind_ok ran
  cases ran
  exact ⟨(Dict.get?_eq_none_iff _ _).2 (raiseIf_eq_ok.1 absent), rfl⟩

theorem tasks_insert {rows : List GoalRecord} (absent : store.tasks.get? taskId = none)
    (slots : SlotWrite op rows taskId {} task.details)
    (candidate : task.details.goalCandidate ≠ none → task.details.goalContext = none) (other : Text) :
    TaskChange op rows other (store.tasks.get? other) ((store.writeTask taskId task).tasks.get? other) := by
  rw [get?_writeTask]
  by_cases here : taskId = other
  · subst here
    rw [if_pos rfl, absent]
    exact .inserted task slots candidate
  · rw [if_neg here]
    exact .same _

theorem newGoal_ok {fields : NewGoal} (ran : newGoal fields = .ok goal) :
    goal.activeTaskId = fields.taskId ∧ goal.turnsStarted = fields.taskId.elim 0 (fun _ => 1) ∧
      goal.turnsSettled = 0 ∧ goal.stateRevision = 1 ∧ goal.goalId = fields.goalId := by
  obtain ⟨objective, -, ran⟩ := of_bind_ok ran
  obtain ⟨_, -, ran⟩ := of_bind_ok ran
  obtain ⟨_, -, ran⟩ := of_bind_ok ran
  cases ran
  exact ⟨rfl, rfl, rfl, rfl, rfl⟩

theorem insertCreatedGoal_change {fields : NewGoal} {current : Option GoalRecord} {made : GoalRecord}
    (sound : store.TasksSound) (opens : fields.goalId = goal.goalId)
    (tenure : goal.tenure = ⟨some taskId, 1, 0⟩) (stateRevision : goal.stateRevision = 1)
    (ran : store.insertCreatedGoal goal taskId current = .ok (made, next)) :
    Change (.createGoalForRunningTask fields taskId) store next := by
  obtain ⟨task, found, ran⟩ := of_bind_ok ran
  obtain ⟨_, running, ran⟩ := of_bind_ok ran
  obtain ⟨_, -, ran⟩ := of_bind_ok ran
  obtain ⟨_, free, ran⟩ := of_bind_ok ran
  obtain ⟨inserted, inserts, ran⟩ := of_bind_ok ran
  cases ran
  replace found := orRaise_eq_ok.1 found
  obtain ⟨session, running⟩ := not_or.1 (raiseIf_eq_ok.1 running)
  replace session := not_not.1 session
  replace running := not_not.1 running
  have contextFree : task.details.goalContext = none :=
    (Option.or_eq_none_iff.1 (not_not.1 (raiseIf_eq_ok.1 free))).2
  obtain ⟨insertedTasks, insertedRows⟩ := insertGoal_ok inserts
  have subset : ∀ row ∈ (current.elim store
      (fun current => store.deleteGoals (·.goalId = current.goalId))).goals.rows,
      row ∈ store.goals.rows := by
    cases current with
    | none => exact fun _ mem => mem
    | some current => exact fun _ mem => (Table.mem_delete.1 mem).1
  have sameTasks : (current.elim store
      (fun current => store.deleteGoals (·.goalId = current.goalId))).tasks = store.tasks := by
    cases current <;> rfl
  have owner : goal.activeTaskId = some taskId := congrArg Tenure.holder tenure
  have present : goal.sourcedFrom task ∈ inserted.goals.rows := by
    rw [insertedRows]
    exact List.mem_append_right _ (List.mem_singleton_self _)
  have owned : OwnedBy inserted.goals.rows (goalTurnContext (goal.sourcedFrom task) taskId false) taskId :=
    ⟨_, present, owner, captures_goalTurnContext _ taskId false⟩
  have effectiveFree := (sound taskId task found).effective contextFree
  have updateFree := (sound taskId task found).update contextFree
  constructor
  · intro row mem
    rw [show (writeDetails taskId task _ inserted).goals = inserted.goals from rfl, insertedRows,
      List.mem_append, List.mem_singleton] at mem
    obtain old | rfl := mem
    · exact origin_same (subset row old)
    · refine .opened taskId opens tenure stateRevision ⟨_, _, (get?_writeTask _ _).trans (if_pos rfl), ?_,
        session, ?_, captures_goalTurnContext _ taskId false, ?_⟩
      · simp [TaskStatus.unfinished, running]
      · rw [effectiveGoalTurnContext, effectiveFree]
        rfl
      · intro update slot
        rw [updateFree] at slot
        cases slot
  · have same : inserted.tasks = store.tasks := insertedTasks.trans sameTasks
    rw [← same] at found ⊢
    exact tasks_writeDetails found (.taken _ rfl owned contextFree rfl rfl rfl)
      (candidateOf_running running)

theorem createGoalForRunningTask_change {fields : NewGoal} {made : GoalRecord} (sound : store.TasksSound)
    (opens : fields.goalId = goal.goalId) (tenure : goal.tenure = ⟨some taskId, 1, 0⟩)
    (stateRevision : goal.stateRevision = 1)
    (ran : store.createGoalForRunningTask goal taskId = .ok (made, next)) :
    Change (.createGoalForRunningTask fields taskId) store next := by
  obtain ⟨_, -, ran⟩ := of_bind_ok ran
  split at ran
  next => exact insertCreatedGoal_change sound opens tenure stateRevision ran
  next current selected =>
    split at ran
    next =>
      obtain ⟨_, -, ran⟩ := of_bind_ok ran
      cases ran
      exact change_same rfl rfl
    next =>
      obtain ⟨_, -, ran⟩ := of_bind_ok ran
      exact insertCreatedGoal_change sound opens tenure stateRevision ran

theorem acceptGoalContinuation_change {automaticGoalTaskId : Text → Nat → Nat → Text}
    {call : Continuation} {accepted : GoalTaskAcceptance ⊕ GoalGuardrailPause}
    (ran : store.acceptGoalContinuation automaticGoalTaskId call = .ok (accepted, next)) :
    Change (.acceptGoalContinuation call) store next := by
  obtain ⟨_, -, ran⟩ := of_bind_ok ran
  obtain ⟨found, expected, ran⟩ := of_bind_ok ran
  obtain ⟨_, active, ran⟩ := of_bind_ok ran
  obtain ⟨_, idle, ran⟩ := of_bind_ok ran
  obtain ⟨_, -, ran⟩ := of_bind_ok ran
  obtain ⟨_, -, ran⟩ := of_bind_ok ran
  obtain ⟨_, -, ran⟩ := of_bind_ok ran
  obtain ⟨_, -, ran⟩ := of_bind_ok ran
  obtain ⟨⟨refreshed, middle⟩, refreshes, ran⟩ := of_bind_ok ran
  obtain ⟨foundMember, session, -, -⟩ := requireExpectedGoal_ok expected
  obtain ⟨covered, sameTasks, -⟩ := refreshGoalUsageCoverage_ok refreshes
  obtain ⟨present, coverage, same⟩ := refresh_getD refreshes foundMember
  refine Change.of_covered covered sameTasks ?_
  dsimp only at ran
  generalize refreshed.getD found = goal at ran present same
  split at ran
  next reason _ =>
    obtain ⟨paused, updated, ran⟩ := of_bind_ok ran
    obtain ⟨_, -, ran⟩ := of_bind_ok ran
    cases ran
    exact change_updateGoals (advance_guardrailPaused _ _) (fun _ => rfl) (updateOneGoal_ok updated).2
  next =>
    obtain ⟨_, -, ran⟩ := of_bind_ok ran
    obtain ⟨inserted, inserts, ran⟩ := of_bind_ok ran
    obtain ⟨taken, updated, ran⟩ := of_bind_ok ran
    obtain ⟨_, -, ran⟩ := of_bind_ok ran
    cases ran
    obtain ⟨absent, rfl⟩ := insertAgentTask_ok inserts
    replace updated := (updateOneGoal_ok updated).2
    have free : goal.activeTaskId = none := by
      rw [same]
      exact not_not.1 (raiseIf_eq_ok.1 idle)
    have goalSession : goal.sessionKey = canonicalizeSessionKey call.sessionKey := by
      rw [same]
      exact session
    have captures : Captures
        { goalTurnContext goal call.taskId true with continuationSeq := goal.continuationSeq + 1 }
        (goal.continuedBy call.taskId (goal.continuationSeq + 1) call.now) call.taskId :=
      ⟨rfl, rfl, rfl, rfl, rfl, rfl⟩
    have status : goal.status = .active := by
      rw [same]
      exact not_not.1 (raiseIf_eq_ok.1 active)
    have owns := updated_mem updated present (by simp [free, status])
    have tasks := (updateGoals_ok updated).1
    have gained : Gained next.tasks
        (goal.continuedBy call.taskId (goal.continuationSeq + 1) call.now) call.taskId := by
      rw [tasks]
      exact ⟨_, _, (get?_writeTask _ _).trans (if_pos rfl), rfl, goalSession.symm, rfl, captures,
        fun _ slot => nomatch slot⟩
    have only : ∀ row ∈ middle.goals.rows, row.goalId = goal.goalId → row = goal :=
      fun row mem => eq_of_goalId mem present
    have rows := origin_taken (.acceptGoalContinuation call) updated free present (fun row mem picked => by
      simp only [Bool.and_eq_true, decide_eq_true_eq] at picked
      exact only row mem picked.1.1.1.2) (advance_continuedBy _ _ _ free) rfl gained
    constructor
    · exact rows
    · rw [tasks]
      exact tasks_insert absent (.taken _ rfl ⟨_, owns, rfl, captures⟩ rfl rfl rfl rfl)
        (fun isCandidate => absurd rfl isCandidate)

theorem claimableGoal_eq_some {claim : QueuedClaim} (selected : store.claimableGoal claim = some (task, goal)) :
    store.tasks.get? claim.taskId = some task ∧ task.status = .queued ∧
      task.details.goalCandidate = some claim.candidate ∧ goal ∈ store.goals.rows ∧
        goal.sessionKey = task.sessionKey ∧ goal.activeTaskId = none := by
  obtain ⟨found, taskFound, selected⟩ := Option.bind_eq_some_iff.1 selected
  obtain ⟨candidate, slot, selected⟩ := Option.bind_eq_some_iff.1 selected
  obtain ⟨current, currentFound, selected⟩ := Option.bind_eq_some_iff.1 selected
  split at selected
  next same =>
    cases selected
    obtain ⟨taskFound, queued⟩ := Option.filter_eq_some_iff.1 taskFound
    have row := selectGoal_eq_some currentFound
    exact ⟨taskFound, of_decide_eq_true queued, same.1 ▸ slot, row.1, row.2, same.2.2.2.2.2⟩
  next => cases selected

theorem claimGoalForQueuedTask_change {claim : QueuedClaim} {accepted : Option GoalTaskAcceptance}
    (sound : store.TasksSound) (ran : store.claimGoalForQueuedTask claim = .ok (accepted, next)) :
    Change (.claimGoalForQueuedTask claim) store next := by
  unfold claimGoalForQueuedTask at ran
  split at ran
  next =>
    cases ran
    exact change_same rfl rfl
  next =>
    split at ran
    next =>
      cases ran
      exact change_same rfl rfl
    next task found selected =>
      obtain ⟨taskFound, queued, slot, foundMember, session, foundFree⟩ := claimableGoal_eq_some selected
      obtain ⟨⟨refreshed, middle⟩, refreshes, ran⟩ := of_bind_ok ran
      obtain ⟨covered, sameTasks, -⟩ := refreshGoalUsageCoverage_ok refreshes
      obtain ⟨present, coverage, same⟩ := refresh_getD refreshes foundMember
      refine Change.of_covered covered sameTasks ?_
      dsimp only at ran
      generalize refreshed.getD found = goal at ran present same
      split at ran
      next =>
        cases ran
        exact change_same rfl rfl
      next =>
        cases ran
        exact change_same rfl rfl
      next => cases ran
      next =>
        split at ran
        next =>
          cases ran
          exact change_same rfl rfl
        next =>
          obtain ⟨taken, updated, ran⟩ := of_bind_ok ran
          obtain ⟨_, -, ran⟩ := of_bind_ok ran
          cases ran
          replace updated := (updateOneGoal_ok updated).2
          have tasks := (updateGoals_ok updated).1
          have free : goal.activeTaskId = none := by
            rw [same]
            exact foundFree
          have goalSession : goal.sessionKey = task.sessionKey := by
            rw [same]
            exact session
          -- a queued candidate holds nothing of a goal
          have contextFree := (sound _ _ taskFound).candidate queued (by rw [slot]; exact Option.some_ne_none _)
          have effectiveFree := (sound _ _ taskFound).effective contextFree
          have updateFree := (sound _ _ taskFound).update contextFree
          have captures : Captures (goalTurnContext goal claim.taskId false)
              (goal.took claim.taskId claim.now) claim.taskId := ⟨rfl, rfl, rfl, rfl, rfl, rfl⟩
          have owns := updated_mem updated present (by simp [free, goalSession])
          have gained : Gained next.tasks (goal.took claim.taskId claim.now) claim.taskId := by
            rw [tasks]
            refine ⟨_, _, (get?_writeTask _ _).trans (if_pos rfl), ?_, goalSession.symm, ?_, captures, ?_⟩
            · simp [TaskStatus.unfinished, queued]
            · rw [effectiveGoalTurnContext, effectiveFree]
              rfl
            · intro update held
              rw [updateFree] at held
              cases held
          have only : ∀ row ∈ middle.goals.rows, row.goalId = goal.goalId → row = goal :=
            fun row mem => eq_of_goalId mem present
          have rows := origin_taken (.claimGoalForQueuedTask claim) updated free present
            (fun row mem picked => by
              simp only [Bool.and_eq_true, decide_eq_true_eq] at picked
              exact only row mem picked.1.2) (advance_took _ _ free) rfl gained
          constructor
          · exact rows
          · rw [tasks]
            rw [← sameTasks] at taskFound
            exact tasks_writeDetails taskFound (.taken _ rfl ⟨_, owns, rfl, captures⟩ contextFree rfl rfl rfl)
              (fun _ isCandidate => absurd rfl isCandidate)

theorem commitGoalTerminal_change {context : GoalTurnContext} {status : GoalStatus}
    {blockedReason : Option Text} {now : Nat} {result : GoalRecord}
    (ran : store.commitGoalTerminal context status blockedReason now = .ok (result, next)) :
    Change op store next := by
  obtain ⟨_, -, ran⟩ := of_bind_ok ran
  obtain ⟨reason, -, ran⟩ := of_bind_ok ran
  obtain ⟨_, -, ran⟩ := of_bind_ok ran
  obtain ⟨goal, -, ran⟩ := of_bind_ok ran
  obtain ⟨_, -, ran⟩ := of_bind_ok ran
  obtain ⟨_, -, ran⟩ := of_bind_ok ran
  split at ran
  next =>
    obtain ⟨_, -, ran⟩ := of_bind_ok ran
    cases ran
    exact change_same rfl rfl
  next =>
    obtain ⟨_, -, ran⟩ := of_bind_ok ran
    obtain ⟨committed, updated, ran⟩ := of_bind_ok ran
    obtain ⟨_, -, ran⟩ := of_bind_ok ran
    cases ran
    exact change_updateGoals (advance_committed _ _ _ _) (fun _ => rfl) updated

theorem settleGoalTask_change {settle : SettleGoalTask} {result : Option GoalRecord}
    (ran : store.settleGoalTask settle = .ok (result, next)) : Change op store next := by
  obtain ⟨_, -, ran⟩ := of_bind_ok ran
  obtain ⟨task, found, ran⟩ := of_bind_ok ran
  obtain ⟨_, isOver, ran⟩ := of_bind_ok ran
  obtain ⟨_, -, ran⟩ := of_bind_ok ran
  obtain ⟨⟨_, middle⟩, refreshes, ran⟩ := of_bind_ok ran
  obtain ⟨covered, sameTasks, -⟩ := refreshGoalUsageCoverage_ok refreshes
  refine Change.of_covered covered sameTasks ?_
  dsimp only at ran
  split at ran
  next =>
    cases ran
    exact change_same rfl rfl
  next goal owned =>
    obtain ⟨verdict, -, ran⟩ := of_bind_ok ran
    obtain ⟨settled, updated, ran⟩ := of_bind_ok ran
    cases ran
    have tasks := (updateGoals_ok updated).1
    have isOver : Over next.tasks settle.context.taskId := by
      rw [tasks, sameTasks]
      exact ⟨task, orRaise_eq_ok.1 found, by simpa using raiseIf_eq_ok.1 isOver⟩
    have held : ∀ row : GoalRecord, (row.goalId = settle.context.goalId &&
        row.activeTaskId = some settle.context.taskId) = true →
          row.activeTaskId = some settle.context.taskId := by
      intro row picked
      rw [Bool.and_eq_true] at picked
      exact of_decide_eq_true picked.2
    refine change_of_rows ?_ tasks
    exact origin_released _ updated (fun row _ picked => advance_settled (held row picked)) (fun _ => rfl) held
      isOver

theorem abandonTask_over {reason : Text} {now : Nat} (found : store.tasks.get? taskId = some task) :
    Over (store.abandonTask taskId reason now task).tasks taskId := by
  unfold abandonTask
  split
  next => exact ⟨_, (get?_writeTask _ _).trans (if_pos rfl), rfl⟩
  next isOver => exact ⟨task, found, by simpa using isOver⟩

theorem abandonTask_tasks {rows : List GoalRecord} {reason : Text} {now : Nat}
    (found : store.tasks.get? taskId = some task) (other : Text) :
    TaskChange op rows other (store.tasks.get? other)
      ((store.abandonTask taskId reason now task).tasks.get? other) := by
  unfold abandonTask
  split
  next unfinished =>
    rw [get?_writeTask]
    by_cases here : taskId = other
    · subst here
      rw [if_pos rfl, found]
      refine .written task _ rfl ?_ (.kept rfl rfl rfl) (by rintro ⟨⟩)
      have status : task.status = .queued ∨ task.status = .running := by
        simpa [TaskStatus.unfinished] using unfinished
      obtain queued | running := status
      · exact .inr (.inl queued)
      · exact .inr (.inr ⟨running, fun queued => by cases queued⟩)
    · rw [if_neg here]
      exact .same _
  next => exact .same _

theorem compensateGoalTask_change {compensation : Compensation} {result : Option GoalRecord}
    (ran : store.compensateGoalTask compensation = .ok (result, next)) : Change op store next := by
  unfold compensateGoalTask at ran
  dsimp only at ran
  split at ran
  next =>
    cases ran
    exact change_same rfl rfl
  next task found =>
    obtain ⟨_, -, ran⟩ := of_bind_ok ran
    obtain ⟨_, -, ran⟩ := of_bind_ok ran
    split at ran
    next =>
      cases ran
      exact change_same rfl rfl
    next =>
      have goals : (store.abandonTask compensation.context.taskId compensation.reason compensation.now
          task).goals = store.goals := by
        unfold abandonTask
        split <;> rfl
      split at ran
      next =>
        cases ran
        constructor
        · intro row mem
          rw [goals] at mem
          exact origin_same mem
        · exact abandonTask_tasks found
      next goal owned =>
        obtain ⟨settled, updated, ran⟩ := of_bind_ok ran
        cases ran
        have tasks := (updateGoals_ok updated).1
        have held : ∀ row : GoalRecord, (row.goalId = compensation.context.goalId &&
            row.activeTaskId = some compensation.context.taskId) = true →
              row.activeTaskId = some compensation.context.taskId := by
          intro row picked
          rw [Bool.and_eq_true] at picked
          exact of_decide_eq_true picked.2
        constructor
        · rw [← goals]
          exact origin_released _ updated (fun row _ picked => advance_compensated (held row picked))
            (fun _ => rfl) held (tasks ▸ abandonTask_over found)
        · rw [tasks]
          exact abandonTask_tasks found

end Store

end OpenSquilla.Goals
