import OpenSquilla.Goals.Change

set_option autoImplicit false

namespace OpenSquilla.Goals

open TextLines TextScan
open RaisingRuns (raiseIf raiseAny orRaise of_bind_ok raiseIf_eq_ok orRaise_eq_ok)

variable {op : GoalOp} {before middle after store next : Store} {tasks : Dict Text AgentTask}
    {goal row : GoalRecord} {taskId : Text}
  {chosen : GoalRecord → Bool} {f : GoalRecord → GoalRecord}

theorem origin_same (mem : row ∈ before.goals.rows) : Origin op before.goals.rows tasks row :=
  .row row mem (.covered row.usageCoverage) (fun _ held => .inl held)
    (fun _ held free => by rw [held] at free; cases free)

theorem origin_kept (mem : goal ∈ before.goals.rows) (advance : Advance goal row)
    (same : row.activeTaskId = goal.activeTaskId) : Origin op before.goals.rows tasks row :=
  .row goal mem (.advanced advance) (fun _ held => .inl (same ▸ held))
    (fun _ held free => by rw [same, held] at free; cases free)

theorem Advance.of_covered {coverage : UsageCoverage}
    (advance : Advance { goal with usageCoverage := coverage } row) : Advance goal row :=
  ⟨advance.sessionKey, advance.sessionId, advance.sessionEpoch, advance.goalId, advance.stateRevision,
    advance.objectiveRevision, advance.objective, advance.tenure⟩

-- Rows that differ from those before in their coverage at most.
def Covered (before middle : Store) : Prop :=
  ∀ row ∈ middle.goals.rows, ∃ goal ∈ before.goals.rows, ∃ coverage,
    row = { goal with usageCoverage := coverage }

theorem Covered.origin (covered : Covered before middle) (origin : Origin op middle.goals.rows tasks row) :
    Origin op before.goals.rows tasks row := by
  cases origin with
  | opened taskId opens tenure stateRevision gained =>
    exact .opened taskId opens tenure stateRevision gained
  | row mid mem step kept released =>
    obtain ⟨goal, goalMember, coverage, rfl⟩ := covered mid mem
    refine .row goal goalMember ?_ kept released
    cases step with
    | covered other => exact .covered other
    | advanced advance => exact .advanced advance.of_covered

theorem covered_of_subset (subset : ∀ row ∈ middle.goals.rows, row ∈ before.goals.rows) :
    Covered before middle :=
  fun row mem => ⟨row, subset row mem, row.usageCoverage, rfl⟩

theorem covered_deleteGoals (gone : GoalRecord → Bool) (store : Store) :
    Covered store (store.deleteGoals gone) :=
  covered_of_subset fun _ mem => (Table.mem_delete.1 mem).1

theorem Change.of_covered (covered : Covered before middle) (tasks : middle.tasks = before.tasks)
    (change : Change op middle after) : Change op before after where
  rows row mem := covered.origin (change.rows row mem)
  tasks := tasks ▸ change.tasks

theorem Change.to_same {same : Store} (change : Change op before after) (goals : same.goals = after.goals)
    (tasks : same.tasks = after.tasks) : Change op before same where
  rows := by
    rw [goals, tasks]
    exact change.rows
  tasks := by
    rw [goals, tasks]
    exact change.tasks

theorem change_of_rows (rows : ∀ row ∈ after.goals.rows, Origin op before.goals.rows after.tasks row)
    (tasks : after.tasks = before.tasks) : Change op before after where
  rows := rows
  tasks taskId := by
    rw [tasks]
    exact .same _

theorem change_same (goals : after.goals = before.goals) (tasks : after.tasks = before.tasks) :
    Change op before after :=
  change_of_rows (fun _ mem => origin_same (goals ▸ mem)) tasks

theorem change_covered (covered : Covered before after) (tasks : after.tasks = before.tasks) :
    Change op before after :=
  (change_same rfl rfl).of_covered covered tasks

namespace Store

theorem updateGoals_ok (ran : store.updateGoals chosen f = .ok next) : next.tasks = store.tasks ∧
      next.goals.rows = store.goals.rows.map (fun row => if chosen row then f row else row) := by
  obtain ⟨rows, updated, ran⟩ := of_bind_ok ran
  cases ran
  exact ⟨rfl, Table.rows_of_updateWhere? (orRaise_eq_ok.1 updated)⟩

theorem mem_updateGoals (ran : store.updateGoals chosen f = .ok next) (mem : row ∈ next.goals.rows) :
    ∃ goal ∈ store.goals.rows, row = if chosen goal then f goal else goal := by
  rw [(updateGoals_ok ran).2] at mem
  obtain ⟨goal, present, same⟩ := List.mem_map.1 mem
  exact ⟨goal, present, same.symm⟩

theorem updateOneGoal_ok {missed : Raised} (ran : store.updateOneGoal chosen f missed = .ok next) :
    store.goals.rows.countP chosen = 1 ∧ store.updateGoals chosen f = .ok next := by
  obtain ⟨_, met, ran⟩ := of_bind_ok ran
  exact ⟨of_not_not (raiseIf_eq_ok.1 met), ran⟩

theorem eq_of_goalId {one other : GoalRecord} (first : one ∈ store.goals.rows)
    (second : other ∈ store.goals.rows) (same : one.goalId = other.goalId) : one = other :=
  Table.eq_of_clash first second (.inr (.inl same))

theorem eq_of_sessionKey {one other : GoalRecord} (first : one ∈ store.goals.rows)
    (second : other ∈ store.goals.rows) (same : one.sessionKey = other.sessionKey) : one = other :=
  Table.eq_of_clash first second (.inl same)

theorem eq_of_owner {one other : GoalRecord} (first : one ∈ store.goals.rows)
    (second : other ∈ store.goals.rows) (held : one.activeTaskId = some taskId)
    (same : other.activeTaskId = some taskId) : one = other :=
  Table.eq_of_clash first second (.inr (.inr ⟨by rw [held]; rfl, held.trans same.symm⟩))

theorem selectGoal_eq_some {sessionKey : Text} (found : store.selectGoal sessionKey = some goal) :
    goal ∈ store.goals.rows ∧ goal.sessionKey = sessionKey := by
  have matched := List.find?_some found
  exact ⟨List.mem_of_find?_eq_some found, of_decide_eq_true matched⟩

theorem selectGoalById_eq_some {goalId : Text} (found : store.selectGoalById goalId = some goal) :
    goal ∈ store.goals.rows ∧ goal.goalId = goalId := by
  have matched := List.find?_some found
  exact ⟨List.mem_of_find?_eq_some found, of_decide_eq_true matched⟩

theorem selectGoalById_of_mem (mem : goal ∈ store.goals.rows) :
    store.selectGoalById goal.goalId = some goal := by
  cases found : store.selectGoalById goal.goalId with
  | none => exact absurd (List.find?_eq_none.1 found goal mem) (by simp)
  | some other =>
    have selected := selectGoalById_eq_some found
    rw [eq_of_goalId selected.1 mem selected.2]

theorem refreshGoalUsageCoverage_ok {usageMissing : Bool} {goalId : Text} {found : Option GoalRecord}
    (ran : store.refreshGoalUsageCoverage usageMissing goalId = .ok (found, next)) :
    Covered store next ∧ next.tasks = store.tasks ∧ found = next.selectGoalById goalId := by
  obtain ⟨mid, updated, ran⟩ := of_bind_ok ran
  cases ran
  refine ⟨?_, (updateGoals_ok updated).1, rfl⟩
  intro row mem
  obtain ⟨goal, present, rfl⟩ := mem_updateGoals updated mem
  refine ⟨goal, present, ?_⟩
  split
  · exact ⟨_, rfl⟩
  · exact ⟨goal.usageCoverage, rfl⟩

theorem refresh_getD {usageMissing : Bool} {found : Option GoalRecord}
    (ran : store.refreshGoalUsageCoverage usageMissing goal.goalId = .ok (found, next))
    (mem : goal ∈ store.goals.rows) : found.getD goal ∈ next.goals.rows ∧ ∃ coverage,
      found.getD goal = { goal with usageCoverage := coverage } := by
  have selects := (refreshGoalUsageCoverage_ok ran).2.2
  obtain ⟨mid, updated, ran⟩ := of_bind_ok ran
  cases ran
  have present : ({ goal with usageCoverage :=
      if usageMissing then .partialUsage
      else if goal.usageAccountingVersion = 0 then .partialHistory
      else .complete } : GoalRecord) ∈ next.goals.rows := by
    rw [(updateGoals_ok updated).2]
    exact List.mem_map.2 ⟨goal, mem, by simp⟩
  have selected := selectGoalById_of_mem present
  rw [show next.selectGoalById goal.goalId = _ from selected, Option.getD_some]
  exact ⟨present, _, rfl⟩

end Store

end OpenSquilla.Goals
