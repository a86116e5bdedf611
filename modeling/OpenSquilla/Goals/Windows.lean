import OpenSquilla.Goals.Accounting

set_option autoImplicit false

-- What one call does to the window of a goal. But for the calls that start a new one, the turns
-- and the time of the window only grow, and a goal that is not active does not become so.

namespace OpenSquilla.Goals

open TextLines TextScan
open RaisingRuns (raiseIf raiseAny orRaise of_bind_ok of_map_ok raiseIf_eq_ok orRaise_eq_ok)
open PendingInputs (canonicalizeSessionKey)

structure Onward (goal next : GoalRecord) : Prop where
  goalId : next.goalId = goal.goalId
  turns : goal.windowTurnsStarted ≤ next.windowTurnsStarted
  activeTime : goal.activeTimeMs ≤ next.activeTimeMs
  -- the window's time is that of the turns settled in it
  settledTime : goal.windowActiveTimeMs + next.activeTimeMs = next.windowActiveTimeMs + goal.activeTimeMs
  status : next.status = .active → goal.status = .active

theorem Onward.refl (goal : GoalRecord) : Onward goal goal := ⟨rfl, le_refl _, le_refl _, rfl, id⟩

theorem Onward.trans {one two three : GoalRecord} (first : Onward one two) (second : Onward two three) :
    Onward one three where
  goalId := second.goalId.trans first.goalId
  turns := first.turns.trans second.turns
  activeTime := first.activeTime.trans second.activeTime
  settledTime := by
    have := first.settledTime
    have := second.settledTime
    omega
  status active := first.status (second.status active)

theorem onward_of_same {goal next : GoalRecord} (goalId : next.goalId = goal.goalId)
    (turns : next.windowTurnsStarted = goal.windowTurnsStarted) (active : next.activeTimeMs = goal.activeTimeMs)
    (window : next.windowActiveTimeMs = goal.windowActiveTimeMs)
    (status : next.status = .active → goal.status = .active) : Onward goal next :=
  ⟨goalId, turns.ge, active.ge, by rw [active, window], status⟩

-- The calls that begin a new window for a goal that is there.
def GoalOp.Resets (goal : GoalRecord) : GoalOp → Prop
  | .resumeGoal call => call.expected.goalId = goal.goalId
  | .editGoal edit =>
    edit.expected.goalId = goal.goalId ∧ (edit.resumeRequested = true ∨ goal.status = .complete)
  | _ => False

variable {op : GoalOp} {before middle after store next : Store} {goal row : GoalRecord} {taskId : Text}
  {chosen : GoalRecord → Bool} {f : GoalRecord → GoalRecord}

theorem onward_pausedFor (reason : Text) (terminalReason : Option Text) (now : Nat) (goal : GoalRecord) :
    Onward goal (goal.pausedFor reason terminalReason now) :=
  onward_of_same rfl rfl rfl rfl (fun active => nomatch active)

theorem onward_guardrailPaused (reason : Text) (now : Nat) (goal : GoalRecord) :
    Onward goal (goal.guardrailPaused reason now) :=
  onward_of_same rfl rfl rfl rfl (fun active => nomatch active)

theorem onward_pausedByEdit (goal : GoalRecord) : Onward goal goal.pausedByEdit :=
  onward_of_same rfl rfl rfl rfl (fun active => nomatch active)

theorem onward_took (taskId : Text) (now : Nat) (goal : GoalRecord) : Onward goal (goal.took taskId now) :=
  ⟨rfl, Nat.le_succ _, le_refl _, rfl, id⟩

theorem onward_continuedBy (taskId : Text) (continuationSeq now : Nat) (goal : GoalRecord) :
    Onward goal (goal.continuedBy taskId continuationSeq now) :=
  ⟨rfl, Nat.le_succ _, le_refl _, rfl, id⟩

theorem onward_bound (taskId : Text) (fresh : Bool) (goal : GoalRecord) :
    Onward goal (goal.bound taskId fresh) :=
  ⟨rfl, Nat.le_add_right _ _, le_refl _, rfl, id⟩

theorem onward_edited (objective : Text) (now : Nat) {goal : GoalRecord} (unfinished : goal.status ≠ .complete) :
    Onward goal (goal.edited objective now) := by
  refine onward_of_same rfl ?_ rfl ?_ ?_
  · exact if_neg unfinished
  · exact if_neg unfinished
  · intro active
    rwa [show (goal.edited objective now).status = goal.status from if_neg unfinished] at active

theorem onward_committed {status : GoalStatus} (ended : status ≠ .active) (taskId : Text)
    (blockedReason : Option Text) (now : Nat) (goal : GoalRecord) :
    Onward goal (goal.committed status taskId blockedReason now) :=
  onward_of_same rfl rfl rfl rfl (fun active => absurd active ended)

theorem onward_compensated (compensation : Compensation) (preserveStatus consumed : Bool)
    (terminalTaskId : Option Text) (durationMs : Nat) (goal : GoalRecord) :
    Onward goal (goal.compensated compensation preserveStatus consumed terminalTaskId durationMs) := by
  refine ⟨rfl, le_refl _, Nat.le_add_right _ _, ?_, ?_⟩
  · simp only [GoalRecord.compensated]
    omega
  · intro active
    cases preserveStatus with
    | true => exact active
    | false => cases active

theorem settleVerdict_status {settle : SettleGoalTask} {task : AgentTask} {windowActiveAfter : Nat}
    {verdict : Verdict} (ran : settleVerdict settle goal task windowActiveAfter = .ok verdict) :
    verdict.status = .active → goal.status = .active := by
  intro active
  unfold settleVerdict at ran
  dsimp only at ran
  split at ran
  next already => exact already
  next =>
    obtain rfl := Except.ok.inj ran
    exact active

theorem onward_settled {verdict : Verdict} (status : verdict.status = .active → goal.status = .active)
    (terminalTaskId : Option Text) (durationMs now : Nat) (turnUsage : TokenUsage) :
    Onward goal (goal.settled verdict terminalTaskId (goal.activeTimeMs + durationMs)
      (goal.windowActiveTimeMs + durationMs) now turnUsage) := by
  refine ⟨rfl, le_refl _, Nat.le_add_right _ _, ?_, status⟩
  simp only [GoalRecord.settled]
  omega

-- Every goal that is there was there, in the same window.
def Follows (before after : Store) : Prop :=
  ∀ next ∈ after.goals.rows, ∃ goal ∈ before.goals.rows, Onward goal next

theorem follows_of_subset (subset : ∀ row ∈ after.goals.rows, row ∈ before.goals.rows) : Follows before after :=
  fun row mem => ⟨row, subset row mem, .refl row⟩

theorem follows_same (goals : after.goals = before.goals) : Follows before after :=
  follows_of_subset fun _ mem => goals ▸ mem

theorem Follows.trans (first : Follows before middle) (second : Follows middle after) :
    Follows before after := by
  intro next mem
  obtain ⟨mid, midMember, later⟩ := second next mem
  obtain ⟨goal, present, earlier⟩ := first mid midMember
  exact ⟨goal, present, earlier.trans later⟩

theorem Covered.follows (covered : Covered before after) : Follows before after := by
  intro next mem
  obtain ⟨goal, present, coverage, rfl⟩ := covered next mem
  exact ⟨goal, present, onward_of_same rfl rfl rfl rfl id⟩

theorem Follows.to_same {same : Store} (follows : Follows before after) (goals : same.goals = after.goals) :
    Follows before same :=
  follows.trans (follows_same goals)

inductive WindowStep (op : GoalOp) (goal next : GoalRecord) : Prop
  | onward (onward : Onward goal next)
  | reset (goalId : next.goalId = goal.goalId) (resets : op.Resets goal)

def Windows (op : GoalOp) (before after : Store) : Prop :=
  ∀ next ∈ after.goals.rows, (∃ goal ∈ before.goals.rows, WindowStep op goal next) ∨ op.Opens next.goalId

theorem windows_of_follows (follows : Follows before after) : Windows op before after := by
  intro next mem
  obtain ⟨goal, present, onward⟩ := follows next mem
  exact .inl ⟨goal, present, .onward onward⟩

theorem Covered.windows (covered : Covered before middle) (windows : Windows op middle after) :
    Windows op before after := by
  intro next mem
  obtain ⟨mid, midMember, step⟩ | opens := windows next mem
  · obtain ⟨goal, present, coverage, rfl⟩ := covered mid midMember
    refine .inl ⟨goal, present, ?_⟩
    cases step with
    | onward onward =>
      exact .onward
          ((onward_of_same rfl rfl rfl rfl id : Onward goal
            { goal with usageCoverage := coverage }).trans onward)
    | reset goalId resets =>
      refine .reset goalId ?_
      cases op <;> exact resets
  · exact .inr opens

namespace Store

theorem updateGoals_follows (ran : store.updateGoals chosen f = .ok next)
    (onward : ∀ goal ∈ store.goals.rows, chosen goal = true → Onward goal (f goal)) : Follows store next := by
  intro row mem
  obtain ⟨goal, present, rfl⟩ := mem_updateGoals ran mem
  refine ⟨goal, present, ?_⟩
  split
  next picked => exact onward goal present picked
  next => exact .refl goal

theorem updateGoalsIf_follows {condition : Prop} [Decidable condition]
    (ran : store.updateGoalsIf condition chosen f = .ok next)
    (onward : condition → ∀ goal ∈ store.goals.rows, chosen goal = true → Onward goal (f goal)) :
    Follows store next := by
  unfold updateGoalsIf at ran
  split at ran
  next holds => exact updateGoals_follows ran (onward holds)
  next =>
    cases ran
    exact follows_same rfl

variable {result : GoalCommandResult}

theorem pauseGoal_follows {call : GoalCommand} {reason : Option Text}
    (ran : store.pauseGoal call reason = .ok (result, next)) : Follows store next := by
  obtain ⟨command, -, ran⟩ := of_bind_ok ran
  obtain ⟨normalized, -, ran⟩ := of_bind_ok ran
  obtain rfl | ran := orReplay_ok ran
  · exact follows_same rfl
  obtain ⟨goal, -, ran⟩ := of_bind_ok ran
  obtain ⟨_, -, ran⟩ := of_bind_ok ran
  obtain ⟨paused, updated, ran⟩ := of_bind_ok ran
  obtain ⟨_, -, ran⟩ := of_bind_ok ran
  cases ran
  have follows := updateGoals_follows updated fun goal _ _ => onward_pausedFor _ _ _ goal
  exact follows.to_same rfl

theorem pauseGoalForSystem_follows {pause : SystemPause} {found : Option GoalRecord}
    (ran : store.pauseGoalForSystem pause = .ok (found, next)) : Follows store next := by
  obtain ⟨reason, -, ran⟩ := of_bind_ok ran
  dsimp only at ran
  split at ran
  next =>
    cases ran
    exact follows_same rfl
  next current selected =>
    split at ran
    next =>
      cases ran
      exact follows_same rfl
    next =>
      obtain ⟨paused, updated, ran⟩ := of_bind_ok ran
      cases ran
      exact updateGoals_follows updated fun goal _ _ => onward_pausedFor _ _ _ goal

theorem clearGoal_follows {call : GoalCommand} (ran : store.clearGoal call = .ok (result, next)) :
    Follows store next := by
  obtain ⟨command, -, ran⟩ := of_bind_ok ran
  obtain rfl | ran := orReplay_ok ran
  · exact follows_same rfl
  obtain ⟨goal, -, ran⟩ := of_bind_ok ran
  obtain ⟨_, -, ran⟩ := of_bind_ok ran
  cases ran
  apply follows_of_subset
  intro row mem
  simpa only [goals_revokeUpdate] using (Table.mem_delete.1 mem).1

theorem claimGoalObjectiveUpdate_follows (update : GoalObjectiveUpdate) :
    Follows store (store.claimGoalObjectiveUpdate update).2 := by
  unfold claimGoalObjectiveUpdate
  split <;> exact follows_same rfl

theorem applyGoalObjectiveUpdate_follows (update : GoalObjectiveUpdate) :
    Follows store (store.applyGoalObjectiveUpdate update).2 := by
  unfold applyGoalObjectiveUpdate
  split <;> exact follows_same rfl

theorem insertAgentTask_follows {task : AgentTask} (ran : store.insertAgentTask taskId task = .ok next) :
    Follows store next := by
  obtain ⟨-, rfl⟩ := insertAgentTask_ok ran
  exact follows_same rfl

theorem claimGoalForQueuedTask_follows {claim : QueuedClaim} {accepted : Option GoalTaskAcceptance}
    (ran : store.claimGoalForQueuedTask claim = .ok (accepted, next)) : Follows store next := by
  unfold claimGoalForQueuedTask at ran
  split at ran
  next =>
    cases ran
    exact follows_same rfl
  next =>
    split at ran
    next =>
      cases ran
      exact follows_same rfl
    next task found selected =>
      obtain ⟨⟨refreshed, middle⟩, refreshes, ran⟩ := of_bind_ok ran
      refine (refreshGoalUsageCoverage_ok refreshes).1.follows.trans ?_
      dsimp only at ran
      split at ran
      next =>
        cases ran
        exact follows_same rfl
      next =>
        cases ran
        exact follows_same rfl
      next => cases ran
      next =>
        split at ran
        next =>
          cases ran
          exact follows_same rfl
        next =>
          obtain ⟨taken, updated, ran⟩ := of_bind_ok ran
          obtain ⟨_, -, ran⟩ := of_bind_ok ran
          cases ran
          have follows := updateGoals_follows (updateOneGoal_ok updated).2 fun goal _ _ => onward_took _ _ goal
          exact (follows_same rfl).trans follows

theorem commitGoalTerminal_follows {context : GoalTurnContext} {status : GoalStatus}
    {blockedReason : Option Text} {now : Nat} {made : GoalRecord}
    (ran : store.commitGoalTerminal context status blockedReason now = .ok (made, next)) :
    Follows store next := by
  obtain ⟨_, known, ran⟩ := of_bind_ok ran
  obtain ⟨reason, -, ran⟩ := of_bind_ok ran
  obtain ⟨_, -, ran⟩ := of_bind_ok ran
  obtain ⟨goal, -, ran⟩ := of_bind_ok ran
  obtain ⟨_, -, ran⟩ := of_bind_ok ran
  obtain ⟨_, -, ran⟩ := of_bind_ok ran
  have ended : status ≠ .active := by
    rintro rfl
    simp at known
  split at ran
  next =>
    obtain ⟨_, -, ran⟩ := of_bind_ok ran
    cases ran
    exact follows_same rfl
  next =>
    obtain ⟨_, -, ran⟩ := of_bind_ok ran
    obtain ⟨committed, updated, ran⟩ := of_bind_ok ran
    obtain ⟨_, -, ran⟩ := of_bind_ok ran
    cases ran
    exact updateGoals_follows updated fun goal _ _ => onward_committed ended _ _ _ goal

theorem eq_ownedGoal {context : GoalTurnContext} (owned : store.ownedGoal context = some goal)
    (mem : row ∈ store.goals.rows)
    (picked : (row.goalId = context.goalId && row.activeTaskId = some context.taskId) = true) : row = goal := by
  obtain ⟨found, -⟩ := Option.filter_eq_some_iff.1 owned
  obtain ⟨present, same⟩ := selectGoalById_eq_some found
  simp only [Bool.and_eq_true, decide_eq_true_eq] at picked
  exact eq_of_goalId mem present (picked.1.trans same.symm)

theorem settleGoalTask_follows {settle : SettleGoalTask} {found : Option GoalRecord}
    (ran : store.settleGoalTask settle = .ok (found, next)) : Follows store next := by
  obtain ⟨_, -, ran⟩ := of_bind_ok ran
  obtain ⟨task, -, ran⟩ := of_bind_ok ran
  obtain ⟨_, -, ran⟩ := of_bind_ok ran
  obtain ⟨_, -, ran⟩ := of_bind_ok ran
  obtain ⟨⟨_, middle⟩, refreshes, ran⟩ := of_bind_ok ran
  refine (refreshGoalUsageCoverage_ok refreshes).1.follows.trans ?_
  dsimp only at ran
  split at ran
  next =>
    cases ran
    exact follows_same rfl
  next goal selected =>
    have owned := (Option.filter_eq_some_iff.1 selected).1
    obtain ⟨verdict, decides, ran⟩ := of_bind_ok ran
    obtain ⟨settled, updated, ran⟩ := of_bind_ok ran
    cases ran
    refine updateGoals_follows updated fun row mem picked => ?_
    obtain rfl := eq_ownedGoal owned mem picked
    exact onward_settled (settleVerdict_status decides) _ _ _ _

theorem abandonTask_goals (taskId reason : Text) (now : Nat) (task : AgentTask) (store : Store) :
    (store.abandonTask taskId reason now task).goals = store.goals := by
  unfold abandonTask
  split <;> rfl

theorem compensateGoalTask_follows {compensation : Compensation} {found : Option GoalRecord}
    (ran : store.compensateGoalTask compensation = .ok (found, next)) : Follows store next := by
  unfold compensateGoalTask at ran
  dsimp only at ran
  split at ran
  next =>
    cases ran
    exact follows_same rfl
  next task _ =>
    obtain ⟨_, -, ran⟩ := of_bind_ok ran
    obtain ⟨_, -, ran⟩ := of_bind_ok ran
    have kept := abandonTask_goals compensation.context.taskId compensation.reason compensation.now task store
    split at ran
    next =>
      cases ran
      exact follows_same rfl
    next =>
      split at ran
      next =>
        cases ran
        exact follows_same kept
      next =>
        obtain ⟨compensated, updated, ran⟩ := of_bind_ok ran
        cases ran
        exact (follows_same kept).trans
          (updateGoals_follows updated fun goal _ _ => onward_compensated _ _ _ _ _ goal)

structure Continued (call : Continuation) (store next : Store) (goal : GoalRecord) : Prop where
  mem : goal ∈ store.goals.rows
  goalId : goal.goalId = call.expected.goalId
  sessionKey : goal.sessionKey = canonicalizeSessionKey call.sessionKey
  active : goal.status = .active
  free : goal.activeTaskId = none
  idle : store.busy goal.sessionKey = false
  turns : goal.windowTurnsStarted < call.maxTurns
  time : goal.windowActiveTimeMs < call.runtimeBudgetSeconds * 1000
  started : ∃ row ∈ next.goals.rows, row.goalId = goal.goalId ∧
    row.windowTurnsStarted = goal.windowTurnsStarted + 1

theorem acceptGoalContinuation_ok {automaticGoalTaskId : Text → Nat → Nat → Text}
    {call : Continuation} {accepted : GoalTaskAcceptance ⊕ GoalGuardrailPause}
    (ran : store.acceptGoalContinuation automaticGoalTaskId call = .ok (accepted, next)) :
    Follows store next ∧ (accepted.isLeft = true → ∃ goal, Continued call store next goal) := by
  obtain ⟨_, -, ran⟩ := of_bind_ok ran
  obtain ⟨found, expected, ran⟩ := of_bind_ok ran
  obtain ⟨_, active, ran⟩ := of_bind_ok ran
  obtain ⟨_, free, ran⟩ := of_bind_ok ran
  obtain ⟨_, -, ran⟩ := of_bind_ok ran
  obtain ⟨_, -, ran⟩ := of_bind_ok ran
  obtain ⟨_, -, ran⟩ := of_bind_ok ran
  obtain ⟨_, idle, ran⟩ := of_bind_ok ran
  obtain ⟨⟨refreshed, middle⟩, refreshes, ran⟩ := of_bind_ok ran
  obtain ⟨foundMember, session, goalId, -⟩ := requireExpectedGoal_ok expected
  obtain ⟨covered, -, -⟩ := refreshGoalUsageCoverage_ok refreshes
  obtain ⟨present, coverage, same⟩ := refresh_getD refreshes foundMember
  dsimp only at ran
  generalize refreshed.getD found = goal at ran present same
  split at ran
  next reason _ =>
    obtain ⟨paused, updated, ran⟩ := of_bind_ok ran
    obtain ⟨_, -, ran⟩ := of_bind_ok ran
    cases ran
    have follows := updateGoals_follows (updateOneGoal_ok updated).2 fun goal _ _ =>
      onward_guardrailPaused _ _ goal
    exact ⟨covered.follows.trans follows, fun left => nomatch left⟩
  next within =>
    obtain ⟨_, -, ran⟩ := of_bind_ok ran
    obtain ⟨inserted, inserts, ran⟩ := of_bind_ok ran
    obtain ⟨taken, updated, ran⟩ := of_bind_ok ran
    obtain ⟨_, -, ran⟩ := of_bind_ok ran
    cases ran
    obtain ⟨-, rfl⟩ := insertAgentTask_ok inserts
    replace updated := (updateOneGoal_ok updated).2
    have follows := updateGoals_follows updated fun goal _ _ => onward_continuedBy _ _ _ goal
    refine ⟨covered.follows.trans ((follows_same rfl).trans follows), fun _ => ⟨found, ?_⟩⟩
    have isActive : found.status = .active := not_not.1 (raiseIf_eq_ok.1 active)
    have isFree : found.activeTaskId = none := not_not.1 (raiseIf_eq_ok.1 free)
    have isIdle : store.busy found.sessionKey = false := by
      rw [session]
      simpa using raiseIf_eq_ok.1 idle
    have isListed : goal ∈ middle.goals.rows := present
    have started := updated_mem updated isListed (by simp [same, isActive, isFree])
    have limits : ¬call.maxTurns ≤ found.windowTurnsStarted ∧
        ¬call.runtimeBudgetSeconds * 1000 ≤ found.windowActiveTimeMs := by
      subst same
      constructor
      · intro reached
        rw [if_pos reached] at within
        cases within
      · intro reached
        split at within
        · cases within
        · cases within
    exact {
      mem := foundMember
      goalId := goalId
      sessionKey := session
      active := isActive
      free := isFree
      idle := isIdle
      turns := Nat.lt_of_not_le limits.1
      time := Nat.lt_of_not_le limits.2
      started := by
        subst same
        exact ⟨_, started, rfl, rfl⟩ }

theorem resumeGoal_windows {call : GoalCommand} (ran : store.resumeGoal call = .ok (result, next)) :
    Windows (.resumeGoal call) store next := by
  obtain ⟨command, -, ran⟩ := of_bind_ok ran
  obtain rfl | ran := orReplay_ok ran
  · exact windows_of_follows (follows_same rfl)
  obtain ⟨goal, -, ran⟩ := of_bind_ok ran
  obtain ⟨_, -, ran⟩ := of_bind_ok ran
  obtain ⟨⟨_, middle⟩, refreshes, ran⟩ := of_bind_ok ran
  obtain ⟨resumed, updated, ran⟩ := of_bind_ok ran
  obtain ⟨_, -, ran⟩ := of_bind_ok ran
  cases ran
  intro row mem
  obtain ⟨base, baseMember, rfl⟩ := mem_updateGoals updated mem
  obtain ⟨origin, present, onward⟩ := (refreshGoalUsageCoverage_ok refreshes).1.follows base baseMember
  refine .inl ⟨origin, present, ?_⟩
  split
  next picked =>
    refine .reset onward.goalId ?_
    simp only [ExpectedGoal.meets, Bool.and_eq_true, decide_eq_true_eq] at picked
    exact picked.1.2.symm.trans onward.goalId
  next => exact .onward onward

theorem insertCreatedGoal_windows {fields : NewGoal} {current : Option GoalRecord} {made : GoalRecord}
    (opens : fields.goalId = goal.goalId)
    (ran : store.insertCreatedGoal goal taskId current = .ok (made, next)) :
    Windows (.createGoalForRunningTask fields taskId) store next := by
  obtain ⟨task, -, ran⟩ := of_bind_ok ran
  obtain ⟨_, -, ran⟩ := of_bind_ok ran
  obtain ⟨_, -, ran⟩ := of_bind_ok ran
  obtain ⟨_, -, ran⟩ := of_bind_ok ran
  obtain ⟨inserted, inserts, ran⟩ := of_bind_ok ran
  cases ran
  intro row mem
  rw [show (writeDetails taskId task _ inserted).goals = inserted.goals from rfl,
    (insertGoal_ok inserts).2, List.mem_append, List.mem_singleton] at mem
  obtain old | rfl := mem
  · refine .inl ⟨row, ?_, .onward (.refl row)⟩
    cases current with
    | none => exact old
    | some current => exact (Table.mem_delete.1 old).1
  · exact .inr opens

theorem createGoalForRunningTask_windows {fields : NewGoal} {made : GoalRecord}
    (opens : fields.goalId = goal.goalId)
    (ran : store.createGoalForRunningTask goal taskId = .ok (made, next)) :
    Windows (.createGoalForRunningTask fields taskId) store next := by
  obtain ⟨_, -, ran⟩ := of_bind_ok ran
  split at ran
  next => exact insertCreatedGoal_windows opens ran
  next current selected =>
    split at ran
    next =>
      obtain ⟨_, -, ran⟩ := of_bind_ok ran
      cases ran
      exact windows_of_follows (follows_same rfl)
    next =>
      obtain ⟨_, -, ran⟩ := of_bind_ok ran
      exact insertCreatedGoal_windows opens ran

theorem editRow_windows {edit : EditGoal} {sessionKey objective : Text}
    {binding : Option (Text × AgentTask)} (present : goal ∈ store.goals.rows)
    (expected : edit.expected.goalId = goal.goalId)
    (ran : store.editRow edit sessionKey objective goal binding = .ok next) :
    Windows (.editGoal edit) store next := by
  by_cases resets : GoalOp.Resets goal (.editGoal edit)
  · intro row mem
    obtain ⟨elsewhere, -⟩ | ⟨edited, same, rfl⟩ := (editRow_ok present expected ran).2 row mem
    · exact .inl ⟨row, elsewhere, .onward (.refl row)⟩
    · refine .inl ⟨goal, present, .reset ?_ resets⟩
      cases binding with
      | none => exact same.goalId
      | some owner => exact same.goalId
  · apply windows_of_follows
    obtain ⟨first, updated, ran⟩ := of_bind_ok ran
    obtain ⟨second, resumes, ran⟩ := of_bind_ok ran
    obtain ⟨third, pauses, ran⟩ := of_bind_ok ran
    have unasked : ¬edit.resumeRequested = true := fun asked => resets ⟨expected, .inl asked⟩
    have unfinished : goal.status ≠ .complete := fun complete => resets ⟨expected, .inr complete⟩
    have edited : Follows store first := by
      refine updateGoals_follows (updateOneGoal_ok updated).2 fun row mem picked => ?_
      simp only [ExpectedGoal.meets, Bool.and_eq_true, decide_eq_true_eq] at picked
      obtain rfl := eq_of_goalId mem present (picked.1.2.trans expected)
      exact onward_edited _ _ unfinished
    have resumed : Follows first second :=
      updateGoalsIf_follows resumes fun holds => absurd holds.1 unasked
    have paused : Follows second third :=
      updateGoalsIf_follows pauses fun _ row _ _ => onward_pausedByEdit row
    refine (edited.trans resumed).trans (paused.trans ?_)
    cases binding with
    | none =>
      cases ran
      exact follows_same rfl
    | some owner => exact updateGoals_follows ran fun row _ _ => onward_bound _ _ row

theorem editGoal_windows {edit : EditGoal} (ran : store.editGoal edit = .ok (result, next)) :
    Windows (.editGoal edit) store next := by
  obtain ⟨_, -, ran⟩ := of_bind_ok ran
  obtain ⟨command, -, ran⟩ := of_bind_ok ran
  obtain ⟨objective, -, ran⟩ := of_bind_ok ran
  obtain rfl | ran := orReplay_ok ran
  · exact windows_of_follows (follows_same rfl)
  obtain ⟨found, expected, ran⟩ := of_bind_ok ran
  obtain ⟨⟨refreshed, middle⟩, refreshes, ran⟩ := of_bind_ok ran
  obtain ⟨binding, -, ran⟩ := of_bind_ok ran
  obtain ⟨_, -, ran⟩ := of_bind_ok ran
  obtain ⟨edited, edits, ran⟩ := of_bind_ok ran
  obtain ⟨updated, -, ran⟩ := of_bind_ok ran
  cases ran
  obtain ⟨foundMember, -, expectedId, -⟩ := requireExpectedGoal_ok expected
  obtain ⟨covered, -, -⟩ := refreshGoalUsageCoverage_ok refreshes
  obtain ⟨present, coverage, same⟩ := refresh_getD refreshes foundMember
  have goalId : (refreshed.getD found).goalId = found.goalId := by rw [same]
  have windows := editRow_windows present (expectedId.symm.trans goalId.symm) edits
  have goals : ((edited.bindContext updated binding).adopt edit updated
      (canonicalizeSessionKey edit.sessionKey)).goals = edited.goals := by
    rw [goals_adopt]
    cases binding <;> rfl
  exact covered.windows fun row mem => windows row (goals ▸ mem)

variable {turn : AcceptTurn}

theorem startGoal_windows {sessionKey messageId : Text} {incoming details : TaskDetails}
    (opens : GoalOp.Opens goal.goalId (.acceptTurn turn))
    (ran : store.startGoal sessionKey messageId taskId goal incoming = .ok (details, next)) :
    Windows (.acceptTurn turn) store next := by
  obtain ⟨_, -, ran⟩ := of_bind_ok ran
  obtain ⟨_, -, ran⟩ := of_bind_ok ran
  obtain ⟨_, -, ran⟩ := of_bind_ok ran
  obtain ⟨_, -, ran⟩ := of_bind_ok ran
  obtain ⟨_, -, ran⟩ := of_bind_ok ran
  obtain ⟨inserted, inserts, ran⟩ := of_bind_ok ran
  cases ran
  intro row mem
  rw [(insertGoal_ok inserts).2, List.mem_append, List.mem_singleton] at mem
  obtain old | rfl := mem
  · exact .inl ⟨row, (Table.mem_delete.1 old).1, .onward (.refl row)⟩
  · exact .inr opens

theorem claimGoal_follows {sessionKey : Text} {candidate : Option GoalClaimCandidate}
    {incoming details : TaskDetails}
    (ran : store.claimGoal turn sessionKey taskId candidate incoming = .ok (details, next)) :
    Follows store next := by
  unfold claimGoal at ran
  split at ran
  next =>
    cases ran
    exact follows_same rfl
  next current candidate _ =>
    dsimp only at ran
    split at ran
    next =>
      obtain ⟨taken, updated, ran⟩ := of_bind_ok ran
      cases ran
      exact updateGoals_follows updated fun row _ _ => onward_took _ _ row
    next =>
      cases ran
      exact follows_same rfl

theorem mutateGoal_windows {sessionKey : Text} {mutation : Option GoalMutation} {incoming details : TaskDetails}
    (starts : ∀ goal command, mutation = some (.start goal command) →
      GoalOp.Opens goal.goalId (.acceptTurn turn))
    (ran : store.mutateGoal turn sessionKey taskId incoming mutation = .ok (details, next)) :
    Windows (.acceptTurn turn) store next := by
  unfold mutateGoal at ran
  split at ran
  next =>
    cases ran
    exact windows_of_follows (follows_same rfl)
  next goal command => exact startGoal_windows (starts goal command rfl) ran
  next => exact windows_of_follows (claimGoal_follows ran)
  next => exact windows_of_follows (claimGoal_follows ran)

theorem acceptTask_goals {sessionKey : Text} {claims : Bool} {details : TaskDetails}
    (ran : store.acceptTask turn sessionKey taskId claims details = .ok next) : next.goals = store.goals := by
  unfold acceptTask at ran
  split at ran
  next =>
    obtain ⟨existing, -, ran⟩ := of_bind_ok ran
    obtain ⟨bound, -, ran⟩ := of_bind_ok ran
    cases ran
    rfl
  next =>
    obtain ⟨-, rfl⟩ := insertAgentTask_ok ran
    rfl

theorem acceptTurn_windows (ran : store.acceptTurn turn = .ok next) :
    Windows (.acceptTurn turn) store next := by
  obtain ⟨_, -, ran⟩ := of_bind_ok ran
  obtain ⟨task, -, ran⟩ := of_bind_ok ran
  obtain ⟨prepared, prepares, ran⟩ := of_bind_ok ran
  obtain ⟨mutation, admits, ran⟩ := of_bind_ok ran
  have starts : ∀ goal command, mutation = some (.start goal command) →
      GoalOp.Opens goal.goalId (.acceptTurn turn) := by
    rintro goal command rfl
    obtain rfl | absent := sidechatMutation_ok admits
    · exact (AcceptTurn.prepareMutation_start prepares).2.2
    · cases absent
  split at ran
  next =>
    obtain ⟨_, -, ran⟩ := of_bind_ok ran
    cases ran
    exact windows_of_follows (follows_same rfl)
  next =>
    obtain ⟨_, -, ran⟩ := of_bind_ok ran
    obtain ⟨_, -, ran⟩ := of_bind_ok ran
    refine (writeSession_covered turn (canonicalizeSessionKey turn.sessionKey) store).1.windows ?_
    dsimp only at ran
    split at ran
    next =>
      obtain ⟨_, -, ran⟩ := of_bind_ok ran
      cases ran
      exact windows_of_follows (follows_same rfl)
    next taskId incoming =>
      obtain ⟨⟨details, mutated⟩, mutates, ran⟩ := of_bind_ok ran
      obtain ⟨_, -, ran⟩ := of_bind_ok ran
      obtain ⟨accepted, inserts, ran⟩ := of_bind_ok ran
      have windows := mutateGoal_windows starts mutates
      have same : next.goals = mutated.goals := by
        rw [← acceptTask_goals inserts]
        split at ran <;> cases ran <;> rfl
      intro row mem
      exact windows row (same ▸ mem)

theorem run_windows {automaticGoalTaskId : Text → Nat → Nat → Text}
    (ran : store.run automaticGoalTaskId op = .ok next) : Windows op store next := by
  cases op with
  | acceptTurn turn => exact acceptTurn_windows ran
  | createGoalForRunningTask fields taskId =>
    obtain ⟨goal, made, ran⟩ := of_bind_ok ran
    obtain ⟨⟨_, created⟩, creates, ran⟩ := of_bind_ok ran
    cases ran
    exact createGoalForRunningTask_windows (newGoal_ok made).2.2.2.2.symm creates
  | editGoal edit =>
    obtain ⟨⟨_, _⟩, called, rfl⟩ := of_map_ok ran
    exact editGoal_windows called
  | claimGoalObjectiveUpdate update =>
    cases ran
    exact windows_of_follows (claimGoalObjectiveUpdate_follows update)
  | applyGoalObjectiveUpdate update =>
    cases ran
    exact windows_of_follows (applyGoalObjectiveUpdate_follows update)
  | pauseGoal call reason =>
    obtain ⟨⟨_, _⟩, called, rfl⟩ := of_map_ok ran
    exact windows_of_follows (pauseGoal_follows called)
  | resumeGoal call =>
    obtain ⟨⟨_, _⟩, called, rfl⟩ := of_map_ok ran
    exact resumeGoal_windows called
  | clearGoal call =>
    obtain ⟨⟨_, _⟩, called, rfl⟩ := of_map_ok ran
    exact windows_of_follows (clearGoal_follows called)
  | pauseGoalForSystem pause =>
    obtain ⟨⟨_, _⟩, called, rfl⟩ := of_map_ok ran
    exact windows_of_follows (pauseGoalForSystem_follows called)
  | acceptGoalContinuation call =>
    obtain ⟨⟨_, _⟩, called, rfl⟩ := of_map_ok ran
    exact windows_of_follows (acceptGoalContinuation_ok called).1
  | claimGoalForQueuedTask claim =>
    obtain ⟨⟨_, _⟩, called, rfl⟩ := of_map_ok ran
    exact windows_of_follows (claimGoalForQueuedTask_follows called)
  | commitGoalTerminal context status blockedReason now =>
    obtain ⟨⟨_, _⟩, called, rfl⟩ := of_map_ok ran
    exact windows_of_follows (commitGoalTerminal_follows called)
  | settleGoalTask settle =>
    obtain ⟨⟨_, _⟩, called, rfl⟩ := of_map_ok ran
    exact windows_of_follows (settleGoalTask_follows called)
  | deferGoalContinuation context now turnUsage =>
    obtain ⟨⟨_, _⟩, called, rfl⟩ := of_map_ok ran
    exact windows_of_follows (compensateGoalTask_follows called)
  | compensateGoalActivationFailure context reason now turnUsage =>
    obtain ⟨⟨_, _⟩, called, rfl⟩ := of_map_ok ran
    obtain ⟨_, -, called⟩ := of_bind_ok called
    exact windows_of_follows (compensateGoalTask_follows called)
  | compensateTerminalPersistenceFailure context now turnUsage =>
    obtain ⟨⟨_, _⟩, called, rfl⟩ := of_map_ok ran
    exact windows_of_follows (compensateGoalTask_follows called)
  | saveSession sessionKey row =>
    cases ran
    exact windows_of_follows (follows_same rfl)
  | resetSession sessionKey row =>
    cases ran
    exact windows_of_follows (follows_of_subset fun _ mem => (Table.mem_delete.1 mem).1)
  | queueTask sessionKey task => exact windows_of_follows (insertAgentTask_follows ran)
  | advanceTask taskId progress =>
    obtain ⟨task, -, ran⟩ := of_bind_ok ran
    obtain ⟨_, -, ran⟩ := of_bind_ok ran
    cases ran
    exact windows_of_follows (follows_same rfl)

theorem step_windows (automaticGoalTaskId : Text → Nat → Nat → Text) (op : GoalOp) (store : Store) :
    Windows op store (store.step automaticGoalTaskId op) := by
  unfold step
  split
  next ran => exact run_windows ran
  next => exact windows_of_follows (follows_same rfl)

end Store

end OpenSquilla.Goals
