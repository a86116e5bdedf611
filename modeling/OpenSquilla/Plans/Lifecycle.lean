import OpenSquilla.Plans.Effects

set_option autoImplicit false

namespace OpenSquilla.Plans

open TextLines TextScan
open RaisingRuns (raiseIf raiseAny orRaise of_bind_ok raiseIf_eq_ok orRaise_eq_ok)

variable {op : PlanOp} {before after store : Store} {run next : Run}

-- A running run is owned by a task, and a paused or terminal one by none.
structure PlanRun.Owned {State : Type} (run : PlanRun State) : Prop where
  running : run.status = .running → run.activeTaskId ≠ none
  released : run.status = .paused ∨ run.status.terminal = true → run.activeTaskId = none

-- A call that overwrites the status of a run that is completed or cancelled.
def PlanOp.Overwrites (op : PlanOp) (store : Store) : Prop :=
  ∃ run ∈ store.runs.rows, (run.status = .completed ∨ run.status = .cancelled) ∧ op.Stale store run

theorem Transition.runId (transition : Transition op before run next) : next.runId = run.runId := by
  cases transition <;> rfl

theorem Transition.owned (transition : Transition op before run next) (owned : run.Owned) : next.Owned := by
  cases transition with
  | same => exact owned
  | superseded | completed | paused | cancelled | overwritten =>
    exact ⟨PlanRunStatus.noConfusion, fun _ => rfl⟩
  | queuedAgain =>
    refine ⟨PlanRunStatus.noConfusion, fun released => ?_⟩
    obtain paused | terminal := released
    · cases paused
    · cases terminal
  | started _ taskId =>
    refine ⟨fun _ => Option.some_ne_none taskId, fun released => ?_⟩
    obtain paused | terminal := released
    · cases paused
    · cases terminal

theorem Transition.completed_by_owner (transition : Transition op before run next)
    (completed : next.status = .completed) :
    run.status = .completed ∨ run.status = .running ∧ ∃ taskId now, run.activeTaskId = some taskId ∧
      op = .completePlanRun run.runId run.stateRevision taskId now := by
  cases transition with
  | same => exact .inl completed
  | completed taskId now completes running owner => exact .inr ⟨running, taskId, now, owner, completes⟩
  | superseded | queuedAgain | started | paused | cancelled | overwritten => cases completed

theorem Transition.terminal (transition : Transition op before run next) (terminal : run.status.terminal = true)
    (kept : run.status = .completed ∨ run.status = .cancelled → ¬op.Stale before run) :
    next.status = run.status := by
  have inactive : run.status.active = false := by
    rw [PlanRunStatus.terminal_eq_not_active] at terminal
    simpa using terminal
  cases transition with
  | same => rfl
  | superseded active | cancelled active =>
    rw [inactive] at active
    cases active
  | queuedAgain idle =>
    obtain status | status := idle <;> rw [status] at terminal <;> cases terminal
  | started ready | paused ready =>
    obtain status | status | status := ready <;> rw [status] at terminal <;> cases terminal
  | completed _ _ _ running =>
    rw [running] at terminal
    cases terminal
  | overwritten stale =>
    -- a superseded run is superseded again
    have isOver : run.status = .completed ∨ run.status = .cancelled ∨ run.status = .superseded := by
      revert terminal
      cases run.status <;> simp [PlanRunStatus.terminal]
    obtain status | status | status := isOver
    · exact absurd stale (kept (.inl status))
    · exact absurd stale (kept (.inr status))
    · exact status.symm

theorem RunsChange.mem (change : RunsChange op before after) (mem : next ∈ after.runs.rows) :
    (∃ run ∈ before.runs.rows, Transition op before run next) ∨ next.status = .queued := by
  obtain ⟨move, added, rows, moves, queued⟩ := change
  rw [rows, List.mem_append] at mem
  obtain old | new := mem
  · obtain ⟨run, present, rfl⟩ := List.mem_map.1 old
    exact .inl ⟨run, present, moves run present⟩
  · exact .inr (queued next new)

theorem RunsChange.of_mem (change : RunsChange op before after) (mem : run ∈ before.runs.rows) :
    ∃ next ∈ after.runs.rows, Transition op before run next := by
  obtain ⟨move, added, rows, moves, -⟩ := change
  refine ⟨move run, ?_, moves run mem⟩
  rw [rows]
  exact List.mem_append_left _ (List.mem_map.2 ⟨run, mem, rfl⟩)

theorem RunsChange.owned (change : RunsChange op before after)
    (owned : ∀ run ∈ before.runs.rows, run.Owned) : ∀ run ∈ after.runs.rows, run.Owned := by
  intro next mem
  obtain ⟨run, present, transition⟩ | queued := change.mem mem
  · exact transition.owned (owned run present)
  · refine ⟨fun running => ?_, fun released => ?_⟩
    · rw [queued] at running
      cases running
    · rw [queued] at released
      obtain paused | terminal := released
      · cases paused
      · cases terminal

def KeepsTerminal (before after : Store) : Prop :=
  ∀ run ∈ before.runs.rows, run.status.terminal = true →
    ∃ next ∈ after.runs.rows, next.runId = run.runId ∧ next.status = run.status

theorem RunsChange.keepsTerminal (change : RunsChange op before after) (kept : ¬op.Overwrites before) :
    KeepsTerminal before after := by
  intro run mem terminal
  obtain ⟨next, present, transition⟩ := change.of_mem mem
  refine ⟨next, present, transition.runId, transition.terminal terminal ?_⟩
  intro isOver stale
  exact kept ⟨run, mem, isOver, stale⟩

namespace Store

variable (planContentHash : Text → Text → List PlanStep → Text)

theorem run_of_stale (mem : run ∈ store.runs.rows) (stale : op.Stale store run) :
    ∃ after now, store.run planContentHash op = .ok after ∧
      run.supersededBy "stale_plan_revision".toList now ∈ after.runs.rows := by
  obtain ⟨taskId, now, rfl, named, row, present, sessionId, epoch, moved⟩ := stale
  have loads : store.loadPlanRunForCas run.runId run.stateRevision = .ok (run, row) := by
    simp [loadPlanRunForCas, selectRun_of_mem mem, present, sessionId, epoch, orRaise, raiseIf, bind,
      Except.bind, pure, Except.pure]
  have weakens : ∀ one other : Run, PlanRun.Clashes
      (if casRow run.runId run.stateRevision one then
        one.supersededBy "stale_plan_revision".toList now else one)
      (if casRow run.runId run.stateRevision other then
        other.supersededBy "stale_plan_revision".toList now else other) → PlanRun.Clashes one other := by
    intro one other clashes
    obtain same | ⟨session, active, otherActive⟩ := clashes
    · refine .inl ?_
      split at same <;> split at same <;> exact same
    · refine .inr ?_
      split at active
      · cases active
      · split at otherActive
        · cases otherActive
        · simp_all
  have updatable : ∃ runs, store.runs.updateWhere? (casRow run.runId run.stateRevision)
      (fun row => row.supersededBy "stale_plan_revision".toList now) = some runs :=
    Table.exists_updateWhere? weakens
  obtain ⟨runs, updated⟩ := updatable
  have superseded : run.supersededBy "stale_plan_revision".toList now ∈ runs.rows := by
    rw [Table.rows_of_updateWhere? updated]
    exact List.mem_map.2 ⟨run, mem, if_pos (by simp [casRow])⟩
  have selects : selectRun (run.supersededBy "stale_plan_revision".toList now).runId
      { store with runs := runs } = some (run.supersededBy "stale_plan_revision".toList now) :=
    selectRun_of_mem superseded
  refine ⟨{ store with runs := runs }, now, ?_, superseded⟩
  have updates : store.updateRuns (casRow run.runId run.stateRevision)
      (·.supersededBy "stale_plan_revision".toList now) = .ok { store with runs := runs } := by
    rw [updateRuns, updated]
    rfl
  have answers : updatedRun run.runId { store with runs := runs } =
      .ok (run.supersededBy "stale_plan_revision".toList now, { store with runs := runs }) := by
    rw [updatedRun, show selectRun run.runId { store with runs := runs } = some _ from selects]
    rfl
  simp only [Store.run, markPlanRunRunning, raiseIf, if_neg named, loads, bind, Except.bind, if_pos moved,
    updates, answers]
  rfl

theorem not_keepsTerminal (overwrites : op.Overwrites store) :
    ¬KeepsTerminal store (store.step planContentHash op) := by
  intro keeps
  obtain ⟨run, mem, isOver, stale⟩ := overwrites
  obtain ⟨after, now, ran, superseded⟩ := run_of_stale planContentHash mem stale
  have stepped : store.step planContentHash op = after := by
    unfold step
    rw [ran]
  have terminal : run.status.terminal = true := by
    obtain status | status := isOver <;> rw [status] <;> rfl
  obtain ⟨next, present, same, status⟩ := keeps run mem terminal
  rw [stepped] at present
  obtain rfl := eq_of_runId present superseded same
  obtain completed | cancelled := isOver
  · rw [completed] at status
    cases status
  · rw [cancelled] at status
    cases status

end Store

section Runs

variable (planContentHash : Text → Text → List PlanStep → Text) (sessions : Dict Text SessionRow)

-- The store after the calls, when no plan was there before them.
def storeAfter (ops : List PlanOp) : Store :=
  Runs.run (Store.step planContentHash) { sessions := sessions } ops

theorem storeAfter_owned (ops : List PlanOp) :
    ∀ run ∈ (storeAfter planContentHash sessions ops).runs.rows, run.Owned := by
  refine Runs.run_invariant (fun store : Store => ∀ run ∈ store.runs.rows, run.Owned) ?_ ?_ ops
  · intro store op owned
    exact (store.step_change planContentHash op).1.owned owned
  · intro run mem
    exact absurd mem List.not_mem_nil

theorem keepsTerminal_along (store : Store) (ops : List PlanOp)
    (along : Runs.Along (Store.step planContentHash) (fun store op => ¬op.Overwrites store) store ops) :
    KeepsTerminal store (Runs.run (Store.step planContentHash) store ops) := by
  induction ops generalizing store with
  | nil => exact fun run mem _ => ⟨run, mem, rfl, rfl⟩
  | cons op rest ih =>
    intro run mem terminal
    obtain ⟨next, present, same, status⟩ :=
      (store.step_change planContentHash op).1.keepsTerminal along.1 run mem terminal
    obtain ⟨last, found, lastSame, lastStatus⟩ := ih _ along.2 next present (status ▸ terminal)
    exact ⟨last, found, lastSame.trans same, lastStatus.trans status⟩

theorem plan_run_lifecycle (ops : List PlanOp) :
    (∀ sessionKey, ((storeAfter planContentHash sessions ops).runs.rows.filter
      (fun run => run.sessionKey = sessionKey && run.status.active)).length ≤ 1) ∧
    (∀ run ∈ (storeAfter planContentHash sessions ops).runs.rows, run.Owned) ∧
    (∀ op, ∀ next ∈ ((storeAfter planContentHash sessions ops).step planContentHash op).runs.rows,
      next.status = .completed →
        ∃ run ∈ (storeAfter planContentHash sessions ops).runs.rows, run.runId = next.runId ∧
          (run.status = .completed ∨ run.status = .running ∧ ∃ taskId now, run.activeTaskId = some taskId ∧
            op = .completePlanRun run.runId run.stateRevision taskId now)) ∧
    (∀ op, Store.Replaced (storeAfter planContentHash sessions ops)
      ((storeAfter planContentHash sessions ops).step planContentHash op)) ∧
    (∀ op, KeepsTerminal (storeAfter planContentHash sessions ops)
        ((storeAfter planContentHash sessions ops).step planContentHash op) ↔
      ¬op.Overwrites (storeAfter planContentHash sessions ops)) ∧
    ∀ later, Runs.Along (Store.step planContentHash) (fun store op => ¬op.Overwrites store)
        (storeAfter planContentHash sessions ops) later →
      KeepsTerminal (storeAfter planContentHash sessions ops)
        (storeAfter planContentHash sessions (ops ++ later)) := by
  refine ⟨?_, storeAfter_owned planContentHash sessions ops, ?_, ?_, ?_, ?_⟩
  · intro sessionKey
    refine Table.length_filter_le_one _ fun one other first second => ?_
    rw [Bool.and_eq_true, decide_eq_true_eq] at first second
    exact .inr ⟨first.1.trans second.1.symm, first.2, second.2⟩
  · intro op next mem completed
    obtain ⟨run, present, transition⟩ | queued := (Store.step_change planContentHash op _).1.mem mem
    · exact ⟨run, present, transition.runId.symm, transition.completed_by_owner completed⟩
    · rw [queued] at completed
      cases completed
  · intro op
    exact (Store.step_change planContentHash op _).2
  · intro op
    constructor
    · intro keeps overwrites
      exact Store.not_keepsTerminal planContentHash overwrites keeps
    · exact (Store.step_change planContentHash op _).1.keepsTerminal
  · intro later along
    rw [storeAfter, storeAfter, Runs.run_append]
    exact keepsTerminal_along planContentHash _ later along

end Runs

def exampleRevision (revisionId : String) (parentRevisionId : Option Text) (generation : Nat) :
    PlanRevision RawStep where
  revisionId := revisionId.toList
  planId := "p".toList
  parentRevisionId := parentRevisionId
  generation := generation
  sourceSessionKey := "agent:main:main".toList
  sourceSessionId := "s".toList
  title := "Ship".toList
  markdown := "Ship it".toList
  steps := [{ title := some "Ship".toList }]
  contentHash := []
  createdAt := 0

def exampleRun : PlanRun RawStepState where
  runId := "run".toList
  sessionKey := "agent:main:main".toList
  sessionId := "s".toList
  planRevisionId := "r1".toList
  createdAt := 0
  updatedAt := 0

def exampleSessions : Dict Text SessionRow :=
  Dict.empty.set "agent:main:main".toList { sessionId := "s".toList }

-- A task completes the run of a plan, and then a new revision replaces the plan.
def exampleReplanned : List PlanOp := [
  .createPlanRevision (exampleRevision "r1" none 1) none,
  .startPlanRun exampleRun 1,
  .markPlanRunRunning "run".toList 0 "t".toList 2,
  .completePlanRun "run".toList 1 "t".toList 3,
  .createPlanRevision (exampleRevision "r2" (some "r1".toList) 2) (some "r1".toList)]

theorem completed_run_superseded :
    (∃ run ∈ (storeAfter (fun _ _ _ => []) exampleSessions exampleReplanned).runs.rows,
      run.runId = "run".toList ∧ run.status = .completed) ∧
    ∃ run ∈ (storeAfter (fun _ _ _ => []) exampleSessions
        (exampleReplanned ++ [.markPlanRunRunning "run".toList 2 "t".toList 4])).runs.rows,
      run.runId = "run".toList ∧ run.status = .superseded := by
  decide

end OpenSquilla.Plans
