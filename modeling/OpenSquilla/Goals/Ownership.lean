import OpenSquilla.Goals.AcceptEffects

set_option autoImplicit false

namespace OpenSquilla.Goals

open TextLines TextScan

variable {op : GoalOp} {before after : Store} {rows : List GoalRecord} {tasks : Dict Text AgentTask}
  {goal next row : GoalRecord} {task : AgentTask} {details written : TaskDetails} {taskId : Text}
  {context : GoalTurnContext}

/-- The context is one that the goal had, and the goal's own as long as the revision is the same. -/
structure Within (context : GoalTurnContext) (goal : GoalRecord) (taskId : Text) : Prop where
  sessionId : context.sessionId = goal.sessionId
  epoch : context.epoch = goal.sessionEpoch
  goalId : context.goalId = goal.goalId
  taskId : context.taskId = taskId
  objectiveRevision : context.objectiveRevision ≤ goal.objectiveRevision
  objectiveSnapshot : context.objectiveRevision = goal.objectiveRevision →
    context.objectiveSnapshot = goal.objective

theorem Captures.within (captures : Captures context goal taskId) : Within context goal taskId where
  sessionId := captures.sessionId
  epoch := captures.epoch
  goalId := captures.goalId
  taskId := captures.taskId
  objectiveRevision := captures.objectiveRevision.le
  objectiveSnapshot _ := captures.objectiveSnapshot

theorem Within.step (within : Within context goal taskId) (step : RowStep goal next) :
    Within context next taskId := by
  cases step with
  | covered coverage => exact ⟨within.1, within.2, within.3, within.4, within.5, within.6⟩
  | advanced advance =>
    have older := within.objectiveRevision
    have newer := advance.objectiveRevision
    refine ⟨within.1.trans advance.sessionId.symm, within.2.trans advance.sessionEpoch.symm,
      within.3.trans advance.goalId.symm, within.4, by omega, ?_⟩
    intro same
    have unchanged : next.objectiveRevision = goal.objectiveRevision := by omega
    rw [within.objectiveSnapshot (same.trans unchanged), advance.objective unchanged]

structure Standing (tasks : Dict Text AgentTask) (goal : GoalRecord) (taskId : Text) : Prop where
  stands : ∃ task context, tasks.get? taskId = some task ∧ task.sessionKey = goal.sessionKey ∧
    effectiveGoalTurnContext task.details = some context ∧ Within context goal taskId ∧
      ∀ update, task.details.goalObjectiveUpdate = some update → Within update.context goal taskId

structure Store.Sound (store : Store) : Prop where
  tasks : store.TasksSound
  balanced : ∀ row ∈ store.goals.rows, row.tenure.Balanced
  owners : ∀ row ∈ store.goals.rows, ∀ taskId, row.activeTaskId = some taskId →
    Standing store.tasks row taskId

theorem sound_empty (store : Store) (goals : store.goals.rows = []) (tasks : store.tasks = Dict.empty) :
    store.Sound where
  tasks taskId task found := by
    rw [tasks] at found
    cases found
  balanced row mem := by
    rw [goals] at mem
    cases mem
  owners row mem := by
    rw [goals] at mem
    cases mem

def TaskDetails.SlotsSound (details : TaskDetails) : Prop :=
  details.goalContext = none → details.goalEffectiveContext = none ∧ details.goalObjectiveUpdate = none

theorem SlotWrite.slotsSound (write : SlotWrite op rows taskId details written)
    (sound : details.SlotsSound) : written.SlotsSound := by
  intro free
  cases write with
  | kept goalContext effective update =>
    rw [effective, update]
    exact sound (goalContext.symm.trans free)
  | taken context _ _ _ goalContext =>
    rw [goalContext] at free
    cases free
  | bound context _ _ goalContext =>
    rw [goalContext] at free
    cases free
  | adopted update _ _ _ contextual =>
    refine absurd ?_ contextual
    rw [effectiveGoalTurnContext, (sound free).1, Option.none_or]
    exact free
  | claimed _ _ _ holds | applied _ _ _ holds | revoked _ holds =>
    rw [(sound free).2] at holds
    cases holds

theorem Change.tasksSound (change : Change op before after) (sound : before.TasksSound) : after.TasksSound := by
  intro taskId task found
  have changed := change.tasks taskId
  rw [found] at changed
  generalize old : before.tasks.get? taskId = existing at changed
  cases changed with
  | same => exact sound taskId task old
  | inserted _ slots candidate =>
    have fresh := slots.slotsSound (fun _ => ⟨rfl, rfl⟩)
    exact ⟨fun free => (fresh free).1, fun free => (fresh free).2, fun _ => candidate⟩
  | written existing _ _ _ slots candidate =>
    have earlier := sound taskId existing old
    have kept := slots.slotsSound (fun free => ⟨earlier.effective free, earlier.update free⟩)
    refine ⟨fun free => (kept free).1, fun free => (kept free).2, ?_⟩
    intro queued isCandidate
    obtain free | ⟨wasQueued, wasCandidate, same⟩ := candidate queued isCandidate
    · exact free
    · rw [same]
      exact earlier.candidate wasQueued wasCandidate

theorem Change.isOver (change : Change op before after) (isOver : Over before.tasks taskId) :
    Over after.tasks taskId := by
  obtain ⟨task, found, finished⟩ := isOver
  have changed := change.tasks taskId
  rw [found] at changed
  generalize new : after.tasks.get? taskId = result at changed
  cases changed with
  | same => exact ⟨task, new, finished⟩
  | written _ next _ forward =>
    refine ⟨next, new, ?_⟩
    obtain same | queued | ⟨running, -⟩ := forward
    · rw [same]
      exact finished
    · rw [queued] at finished
      cases finished
    · rw [running] at finished
      cases finished

theorem Gained.not_over (gained : Gained tasks goal taskId) : ¬Over tasks taskId := by
  rintro ⟨task, found, finished⟩
  obtain ⟨other, _, holds, unfinished, -⟩ := gained.holds
  obtain rfl := Option.some.inj (found.symm.trans holds)
  rw [finished] at unfinished
  cases unfinished

theorem Gained.standing (gained : Gained tasks goal taskId) : Standing tasks goal taskId := by
  obtain ⟨task, context, found, -, session, effective, captures, updates⟩ := gained.holds
  exact ⟨task, context, found, session, effective, captures.within, fun update slot =>
    (updates update slot).2.within⟩

theorem RowStep.sessionKey (step : RowStep goal next) : next.sessionKey = goal.sessionKey := by
  cases step with
  | covered => rfl
  | advanced advance => exact advance.sessionKey

theorem RowStep.goalId (step : RowStep goal next) : next.goalId = goal.goalId := by
  cases step with
  | covered => rfl
  | advanced advance => exact advance.goalId

theorem RowStep.tenure (step : RowStep goal next) : Tenure.Move goal.tenure next.tenure := by
  cases step with
  | covered => exact .keep _
  | advanced advance => exact advance.tenure

theorem Origin.balanced (origin : Origin op rows tasks next)
    (balanced : ∀ row ∈ rows, row.tenure.Balanced) : next.tenure.Balanced := by
  cases origin with
  | row goal mem step => exact step.tenure.balanced (balanced goal mem)
  | opened taskId opens tenure =>
    rw [tenure]
    rfl

theorem Origin.owner (origin : Origin op rows tasks next) (owned : next.activeTaskId = some taskId) :
    (∃ goal ∈ rows, RowStep goal next ∧ goal.activeTaskId = some taskId) ∨ Gained tasks next taskId := by
  cases origin with
  | row goal mem step kept =>
    obtain held | gained := kept taskId owned
    · exact .inl ⟨goal, mem, step, held⟩
    · exact .inr gained
  | opened other opens tenure stateRevision gained =>
    have holder : next.activeTaskId = some other := congrArg Tenure.holder tenure
    obtain rfl := Option.some.inj (holder.symm.trans owned)
    exact .inr gained

theorem OwnedBy.within {store : Store} (owned : OwnedBy store.goals.rows context taskId)
    (mem : next ∈ store.goals.rows) (owner : next.activeTaskId = some taskId) : Within context next taskId := by
  obtain ⟨goal, present, held, captures⟩ := owned
  obtain rfl := Store.eq_of_owner present mem held owner
  exact captures.within

theorem SlotWrite.within {store : Store} (write : SlotWrite op store.goals.rows taskId details written)
    (sound : details.SlotsSound) (mem : next ∈ store.goals.rows)
    (owner : next.activeTaskId = some taskId) (effective : effectiveGoalTurnContext details = some context)
    (within : Within context next taskId)
    (updates : ∀ update, details.goalObjectiveUpdate = some update → Within update.context next taskId) :
    ∃ context, effectiveGoalTurnContext written = some context ∧ Within context next taskId ∧
      ∀ update, written.goalObjectiveUpdate = some update → Within update.context next taskId := by
  cases write with
  | kept goalContext same update =>
    refine ⟨context, ?_, within, ?_⟩
    · rw [effectiveGoalTurnContext, same, goalContext]
      exact effective
    · rw [update]
      exact updates
  | taken context _ _ free =>
    rw [effectiveGoalTurnContext, (sound free).1, free] at effective
    cases effective
  | bound context _ owned _ same update =>
    refine ⟨context, ?_, owned.within mem owner, fun held slot => ?_⟩
    · rw [effectiveGoalTurnContext, same]
      rfl
    · exact (update held slot).2.2.within mem owner
  | adopted update _ owned =>
    refine ⟨context, effective, within, fun held slot => ?_⟩
    cases slot
    exact owned.within mem owner
  | claimed update held _ holds =>
    refine ⟨context, effective, within, fun other slot => ?_⟩
    cases slot
    exact updates held holds
  | applied update held _ holds same =>
    refine ⟨update.context, rfl, ?_, fun other slot => ?_⟩
    · rw [← same]
      exact updates held holds
    · cases slot
      exact updates held holds
  | revoked held holds =>
    refine ⟨context, effective, within, fun other slot => ?_⟩
    cases slot
    exact updates held holds

theorem Change.sound (change : Change op before after) (sound : before.Sound) : after.Sound where
  tasks := change.tasksSound sound.tasks
  balanced row mem := (change.rows row mem).balanced sound.balanced
  owners next mem taskId owner := by
    obtain ⟨goal, present, step, held⟩ | gained := (change.rows next mem).owner owner
    · obtain ⟨task, context, found, session, effective, within, updates⟩ :=
        (sound.owners goal present taskId held).stands
      have slots : task.details.SlotsSound := fun free =>
        ⟨(sound.tasks taskId task found).effective free, (sound.tasks taskId task found).update free⟩
      have changed := change.tasks taskId
      rw [found] at changed
      generalize new : after.tasks.get? taskId = result at changed
      cases changed with
      | same =>
        exact ⟨task, context, new, session.trans step.sessionKey.symm, effective, within.step step,
          fun update slot => (updates update slot).step step⟩
      | written _ written sameSession _ write =>
        obtain ⟨context, effective, within, updates⟩ := write.within slots mem owner effective
          (within.step step) (fun update slot => (updates update slot).step step)
        exact ⟨written, context, new, (sameSession.trans session).trans step.sessionKey.symm, effective,
          within, updates⟩
    · exact gained.standing

structure Done (store : Store) (taskId : Text) : Prop where
  isOver : Over store.tasks taskId
  free : ∀ row ∈ store.goals.rows, row.activeTaskId ≠ some taskId

theorem Change.done (change : Change op before after) (done : Done before taskId) : Done after taskId where
  isOver := change.isOver done.isOver
  free row mem owner := by
    obtain ⟨goal, present, -, held⟩ | gained := (change.rows row mem).owner owner
    · exact done.free goal present held
    · exact gained.not_over (change.isOver done.isOver)

def Settles (before after : Store) (goalId taskId : Text) : Prop :=
  ∃ goal ∈ before.goals.rows, goal.goalId = goalId ∧ goal.activeTaskId = some taskId ∧
    ∃ next ∈ after.goals.rows, next.goalId = goalId ∧ goal.turnsSettled < next.turnsSettled

instance (before after : Store) (goalId taskId : Text) : Decidable (Settles before after goalId taskId) :=
  inferInstanceAs (Decidable (∃ goal ∈ before.goals.rows, _ ∧ _ ∧ ∃ next ∈ after.goals.rows, _))

theorem Change.done_of_settles {goalId : Text} (change : Change op before after)
    (settles : Settles before after goalId taskId) : Done after taskId := by
  obtain ⟨goal, present, rfl, held, next, mem, same, settled⟩ := settles
  have released : next.activeTaskId = none ∧ Over after.tasks taskId := by
    cases change.rows next mem with
    | opened _ _ tenure =>
      rw [show next.turnsSettled = 0 from congrArg Tenure.settled tenure] at settled
      cases settled
    | row other otherPresent step _ released =>
      obtain rfl := Store.eq_of_goalId otherPresent present (step.goalId.symm.trans same)
      have free := (step.tenure.settled_iff.1 settled).2
      exact ⟨free, released taskId held free⟩
  refine ⟨released.2, fun row rowMember owner => ?_⟩
  obtain ⟨base, basePresent, step, baseHeld⟩ | gained := (change.rows row rowMember).owner owner
  · obtain rfl := Store.eq_of_owner basePresent present baseHeld held
    obtain rfl := Store.eq_of_goalId rowMember mem (step.goalId.trans same.symm)
    rw [released.1] at owner
    cases owner
  · exact gained.not_over released.2

end OpenSquilla.Goals
