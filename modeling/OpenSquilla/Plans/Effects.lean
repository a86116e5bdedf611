import OpenSquilla.Plans.Store
import OpenSquilla.Shared.Runs

set_option autoImplicit false

namespace OpenSquilla.Plans

open TextLines TextScan
open RaisingRuns (raiseIf raiseAny orRaise of_bind_ok of_map_ok raiseIf_eq_ok orRaise_eq_ok)
open PendingInputs (canonicalizeSessionKey)

variable {op : PlanOp} {before store middle next : Store} {run row : Run} {runId sessionKey taskId : Text}
  {expectedStateRevision now : Nat} {chosen : Run → Bool} {f : Run → Run}

/-- The call marks a run as running whose revision is no longer the active one of its session. -/
def PlanOp.Stale (op : PlanOp) (store : Store) (run : Run) : Prop :=
  ∃ taskId now, op = .markPlanRunRunning run.runId run.stateRevision taskId now ∧ taskId ≠ [] ∧
    ∃ row, store.sessions.get? run.sessionKey = some row ∧ row.sessionId = run.sessionId ∧
      row.epoch = run.sessionEpoch ∧ row.activePlanRevisionId ≠ some run.planRevisionId

inductive Transition (op : PlanOp) (before : Store) (run : Run) : Run → Prop
  | same : Transition op before run run
  | superseded (active : run.status.active = true) (reason : Text) (timestamp : Nat) :
      Transition op before run (run.supersededBy reason timestamp)
  | queuedAgain (idle : run.status = .paused ∨ run.status = .blocked) (taskId : Text) (timestamp : Nat) :
      Transition op before run (run.queuedAgain taskId timestamp)
  | started (ready : run.status = .queued ∨ run.status = .paused ∨ run.status = .blocked) (taskId : Text)
      (timestamp : Nat) : Transition op before run (run.started taskId timestamp)
  | completed (taskId : Text) (timestamp : Nat)
      (completes : op = .completePlanRun run.runId run.stateRevision taskId timestamp)
      (running : run.status = .running) (owner : run.activeTaskId = some taskId) :
      Transition op before run (run.completed timestamp)
  | paused (busy : run.status = .queued ∨ run.status = .running ∨ run.status = .blocked) (reason : Text)
      (timestamp : Nat) : Transition op before run (run.pausedFor reason timestamp)
  | cancelled (active : run.status.active = true) (reason : Text) (timestamp : Nat) :
      Transition op before run (run.cancelledFor reason timestamp)
  | overwritten (stale : op.Stale before run) (timestamp : Nat) :
      Transition op before run (run.supersededBy "stale_plan_revision".toList timestamp)

def RunsChange (op : PlanOp) (before after : Store) : Prop :=
  ∃ (move : Run → Run) (added : List Run), after.runs.rows = before.runs.rows.map move ++ added ∧
    (∀ run ∈ before.runs.rows, Transition op before run (move run)) ∧ ∀ run ∈ added, run.status = .queued

theorem runsChange_same (runs : next.runs = before.runs) : RunsChange op before next :=
  ⟨id, [], by rw [runs, List.map_id, List.append_nil], fun _ _ => .same, fun _ mem => absurd mem List.not_mem_nil⟩

namespace Store

theorem updateRuns_ok (ran : store.updateRuns chosen f = .ok next) : next.sessions = store.sessions ∧
      next.runs.rows = store.runs.rows.map (fun run => if chosen run then f run else run) := by
  obtain ⟨rows, updated, ran⟩ := of_bind_ok ran
  cases ran
  exact ⟨rfl, Table.rows_of_updateWhere? (orRaise_eq_ok.1 updated)⟩

theorem updateOneRun_ok {missed : Raised} (ran : store.updateOneRun chosen f missed = .ok next) :
    store.updateRuns chosen f = .ok next := by
  obtain ⟨_, -, ran⟩ := of_bind_ok ran
  exact ran

theorem updatedRun_ok (ran : store.updatedRun runId = .ok (run, next)) : next = store := by
  obtain ⟨_, -, ran⟩ := of_bind_ok ran
  cases ran
  rfl

theorem insertRun_ok (ran : store.insertRun run = .ok next) :
    next.sessions = store.sessions ∧ next.runs.rows = store.runs.rows ++ [run] := by
  obtain ⟨rows, inserted, ran⟩ := of_bind_ok ran
  cases ran
  exact ⟨rfl, (Table.insert?_eq_some_iff.1 (orRaise_eq_ok.1 inserted)).2⟩

theorem insertRevision_ok {revision : Revision} (ran : store.insertRevision revision = .ok next) :
    next.sessions = store.sessions ∧ next.runs = store.runs := by
  obtain ⟨rows, inserted, ran⟩ := of_bind_ok ran
  cases ran
  exact ⟨rfl, rfl⟩

theorem eq_of_runId {one other : Run} (first : one ∈ store.runs.rows) (second : other ∈ store.runs.rows)
    (same : one.runId = other.runId) : one = other :=
  Table.eq_of_clash first second (.inl same)

theorem eq_of_active {one other : Run} (first : one ∈ store.runs.rows) (second : other ∈ store.runs.rows)
    (same : one.sessionKey = other.sessionKey) (active : one.status.active = true)
    (otherActive : other.status.active = true) : one = other :=
  Table.eq_of_clash first second (.inr ⟨same, active, otherActive⟩)

theorem selectRun_eq_some (found : store.selectRun runId = some run) :
    run ∈ store.runs.rows ∧ run.runId = runId := by
  have matched := List.find?_some found
  exact ⟨List.mem_of_find?_eq_some found, of_decide_eq_true matched⟩

theorem selectRun_of_mem (mem : run ∈ store.runs.rows) : store.selectRun run.runId = some run := by
  cases found : store.selectRun run.runId with
  | none => exact absurd (List.find?_eq_none.1 found run mem) (by simp)
  | some other =>
    have selected := selectRun_eq_some found
    rw [eq_of_runId selected.1 mem selected.2]

theorem activeRun_eq_some (found : store.activeRun sessionKey = some run) :
    run ∈ store.runs.rows ∧ run.sessionKey = sessionKey ∧ run.status.active = true := by
  have matched := List.find?_some found
  rw [Bool.and_eq_true] at matched
  exact ⟨List.mem_of_find?_eq_some found, of_decide_eq_true matched.1, matched.2⟩

theorem activeRun_eq_none (none : store.activeRun sessionKey = none) (mem : run ∈ store.runs.rows)
    (session : run.sessionKey = sessionKey) : run.status.active = false := by
  have missed := List.find?_eq_none.1 none run mem
  simpa [session] using missed

theorem runsChange_update (ran : store.updateRuns chosen f = .ok next) (runs : store.runs = before.runs)
    (each : ∀ run ∈ before.runs.rows, chosen run = true → Transition op before run (f run)) :
    RunsChange op before next := by
  refine ⟨fun run => if chosen run then f run else
      run, [], ?_, ?_, fun _ mem => absurd mem List.not_mem_nil⟩
  · rw [(updateRuns_ok ran).2, runs, List.append_nil]
  · intro run mem
    dsimp only
    split
    next picked => exact each run mem picked
    next => exact .same

theorem loadPlanRunForCas_ok {session : SessionRow}
    (ran : store.loadPlanRunForCas runId expectedStateRevision = .ok (run, session)) :
    run ∈ store.runs.rows ∧ run.runId = runId ∧ run.stateRevision = expectedStateRevision ∧
      store.sessions.get? run.sessionKey = some session ∧ session.sessionId = run.sessionId ∧
        session.epoch = run.sessionEpoch := by
  obtain ⟨found, selected, ran⟩ := of_bind_ok ran
  obtain ⟨_, revision, ran⟩ := of_bind_ok ran
  obtain ⟨row, present, ran⟩ := of_bind_ok ran
  obtain ⟨_, current, ran⟩ := of_bind_ok ran
  cases ran
  have mem := selectRun_eq_some (orRaise_eq_ok.1 selected)
  have owner := not_or.1 (raiseIf_eq_ok.1 current)
  exact ⟨mem.1, mem.2, not_not.1 (raiseIf_eq_ok.1 revision), orRaise_eq_ok.1 present,
    not_not.1 owner.1, not_not.1 owner.2⟩

theorem eq_of_casRow (mem : run ∈ store.runs.rows) (named : run.runId = runId)
    (present : row ∈ store.runs.rows) (picked : casRow runId expectedStateRevision row = true) : row = run := by
  unfold casRow at picked
  rw [Bool.and_eq_true] at picked
  exact eq_of_runId present mem ((of_decide_eq_true picked.1).trans named.symm)

theorem runsChange_cas (ran : store.updateRuns (casRow runId expectedStateRevision) f = .ok next)
    (mem : run ∈ store.runs.rows) (named : run.runId = runId) (moves : Transition op store run (f run)) :
    RunsChange op store next := by
  refine runsChange_update ran rfl fun row present picked => ?_
  rw [eq_of_casRow mem named present picked]
  exact moves

theorem markPlanRunRunning_change
    (ran : store.markPlanRunRunning runId expectedStateRevision taskId now = .ok (run, next)) :
    RunsChange (.markPlanRunRunning runId expectedStateRevision taskId now) store next ∧
      next.sessions = store.sessions := by
  obtain ⟨_, named, ran⟩ := of_bind_ok ran
  obtain ⟨⟨loaded, session⟩, loads, ran⟩ := of_bind_ok ran
  obtain ⟨mem, rfl, rfl, present, sessionId, epoch⟩ := loadPlanRunForCas_ok loads
  dsimp only at ran
  split at ran
  next moved =>
    obtain ⟨updated, updates, ran⟩ := of_bind_ok ran
    obtain rfl := updatedRun_ok ran
    refine ⟨runsChange_cas updates mem rfl (.overwritten ?_ now), (updateRuns_ok updates).1⟩
    exact ⟨taskId, now, rfl, raiseIf_eq_ok.1 named, session, present, sessionId, epoch, moved⟩
  next =>
    obtain ⟨_, ready, ran⟩ := of_bind_ok ran
    obtain ⟨_, -, ran⟩ := of_bind_ok ran
    obtain ⟨updated, updates, ran⟩ := of_bind_ok ran
    obtain rfl := updatedRun_ok ran
    replace updates := updateOneRun_ok updates
    exact ⟨runsChange_cas updates mem rfl (.started (not_not.1 (raiseIf_eq_ok.1 ready)) taskId now),
      (updateRuns_ok updates).1⟩

theorem completePlanRun_change
    (ran : store.completePlanRun runId expectedStateRevision taskId now = .ok (run, next)) :
    RunsChange (.completePlanRun runId expectedStateRevision taskId now) store next ∧
      next.sessions = store.sessions := by
  obtain ⟨_, -, ran⟩ := of_bind_ok ran
  obtain ⟨⟨loaded, session⟩, loads, ran⟩ := of_bind_ok ran
  obtain ⟨_, running, ran⟩ := of_bind_ok ran
  obtain ⟨_, owner, ran⟩ := of_bind_ok ran
  obtain ⟨updated, updates, ran⟩ := of_bind_ok ran
  obtain rfl := updatedRun_ok ran
  obtain ⟨mem, rfl, rfl, -⟩ := loadPlanRunForCas_ok loads
  replace updates := updateOneRun_ok updates
  refine ⟨runsChange_update updates rfl fun row present picked => ?_, (updateRuns_ok updates).1⟩
  rw [Bool.and_eq_true, Bool.and_eq_true] at picked
  obtain rfl := eq_of_casRow mem rfl present picked.1.1
  exact .completed taskId now rfl (of_decide_eq_true picked.1.2) (of_decide_eq_true picked.2)

theorem pausePlanRun_change {pause : PausePlanRun} (ran : store.pausePlanRun pause = .ok (run, next)) :
    RunsChange op store next ∧ next.sessions = store.sessions := by
  obtain ⟨_, -, ran⟩ := of_bind_ok ran
  obtain ⟨⟨loaded, session⟩, loads, ran⟩ := of_bind_ok ran
  obtain ⟨_, busy, ran⟩ := of_bind_ok ran
  obtain ⟨_, -, ran⟩ := of_bind_ok ran
  obtain ⟨_, -, ran⟩ := of_bind_ok ran
  obtain ⟨_, -, ran⟩ := of_bind_ok ran
  obtain ⟨updated, updates, ran⟩ := of_bind_ok ran
  obtain rfl := updatedRun_ok ran
  obtain ⟨mem, named, -⟩ := loadPlanRunForCas_ok loads
  replace updates := updateOneRun_ok updates
  exact ⟨runsChange_cas updates mem named (.paused (not_not.1 (raiseIf_eq_ok.1 busy)) _ _),
    (updateRuns_ok updates).1⟩

theorem cancelPlanRun_change {cancel : CancelPlanRun} (ran : store.cancelPlanRun cancel = .ok (run, next)) :
    RunsChange op store next ∧ next.sessions = store.sessions := by
  obtain ⟨_, -, ran⟩ := of_bind_ok ran
  obtain ⟨⟨loaded, session⟩, loads, ran⟩ := of_bind_ok ran
  obtain ⟨_, active, ran⟩ := of_bind_ok ran
  obtain ⟨_, -, ran⟩ := of_bind_ok ran
  obtain ⟨updated, updates, ran⟩ := of_bind_ok ran
  obtain rfl := updatedRun_ok ran
  obtain ⟨mem, named, -⟩ := loadPlanRunForCas_ok loads
  replace updates := updateOneRun_ok updates
  exact ⟨runsChange_cas updates mem named (.cancelled (by simpa using raiseIf_eq_ok.1 active) _ _),
    (updateRuns_ok updates).1⟩

theorem supersedeRun_ok {reason : Text} {timestamp : Nat}
    (ran : store.supersedeRun reason timestamp (before.activeRun sessionKey) = .ok next)
    (runs : store.runs = before.runs) : next.sessions = store.sessions ∧ RunsChange op before next ∧
      (∃ move : Run → Run, next.runs.rows = before.runs.rows.map move ∧
        ∀ run ∈ before.runs.rows, Transition op before run (move run)) ∧
      ∀ run ∈ next.runs.rows, run.sessionKey = sessionKey → run.status.active = false := by
  unfold supersedeRun at ran
  split at ran
  next none =>
    cases ran
    refine ⟨rfl, runsChange_same runs, ⟨id, by rw [runs, List.map_id], fun _ _ => .same⟩, ?_⟩
    intro run mem session
    rw [runs] at mem
    exact activeRun_eq_none none mem session
  next active found =>
    obtain ⟨mem, session, isActive⟩ := activeRun_eq_some found
    have each : ∀ run ∈ before.runs.rows, decide (run.runId = active.runId) = true →
        Transition op before run (run.supersededBy reason timestamp) := by
      intro run present picked
      rw [eq_of_runId present mem (of_decide_eq_true picked)]
      exact .superseded isActive reason timestamp
    refine ⟨(updateRuns_ok ran).1, runsChange_update ran runs each,
      ⟨fun run => if run.runId = active.runId then run.supersededBy reason timestamp else run, ?_, ?_⟩, ?_⟩
    · rw [(updateRuns_ok ran).2, runs]
      simp only [decide_eq_true_eq]
    · intro run present
      dsimp only
      split
      next picked => exact each run present (decide_eq_true picked)
      next => exact .same
    · intro run present sameSession
      rw [(updateRuns_ok ran).2, runs] at present
      obtain ⟨base, baseMember, rfl⟩ := List.mem_map.1 present
      by_contra stays
      have baseActive : base.status.active = true ∧ ¬base.runId = active.runId ∧
          base.sessionKey = sessionKey := by
        revert stays sameSession
        split
        next => exact fun _ stays => absurd rfl stays
        next different =>
          intro sameSession stays
          exact ⟨by simpa using stays, by simpa using different, sameSession⟩
      refine baseActive.2.1 ?_
      rw [eq_of_active baseMember mem (baseActive.2.2.trans session.symm) baseActive.1 isActive]

theorem startPlanRun_change {request : PlanRun RawStepState}
    (ran : store.startPlanRun request now = .ok (run, next)) :
    RunsChange op store next ∧ next.sessions = store.sessions := by
  unfold startPlanRun at ran
  dsimp only at ran
  split at ran
  next existing selected =>
    obtain ⟨mem, named⟩ := selectRun_eq_some selected
    obtain ⟨_, -, ran⟩ := of_bind_ok ran
    obtain ⟨_, -, ran⟩ := of_bind_ok ran
    dsimp only at ran
    split at ran
    next =>
      cases ran
      exact ⟨runsChange_same rfl, rfl⟩
    next =>
      split at ran
      next idle =>
        obtain ⟨_, -, ran⟩ := of_bind_ok ran
        obtain ⟨updated, updates, ran⟩ := of_bind_ok ran
        obtain rfl := updatedRun_ok ran
        replace updates := updateOneRun_ok updates
        exact ⟨runsChange_cas updates mem named (.queuedAgain idle _ now), (updateRuns_ok updates).1⟩
      next =>
        split at ran
        next =>
          cases ran
          exact ⟨runsChange_same rfl, rfl⟩
        next => cases ran
  next =>
    obtain ⟨session, -, ran⟩ := of_bind_ok ran
    obtain ⟨_, -, ran⟩ := of_bind_ok ran
    obtain ⟨revision, -, ran⟩ := of_bind_ok ran
    obtain ⟨prepared, prepares, ran⟩ := of_bind_ok ran
    obtain ⟨_, -, ran⟩ := of_bind_ok ran
    obtain ⟨_, -, ran⟩ := of_bind_ok ran
    obtain ⟨superseded, supersedes, ran⟩ := of_bind_ok ran
    obtain ⟨inserted, inserts, ran⟩ := of_bind_ok ran
    cases ran
    obtain ⟨sessions, -, ⟨move, rows, each⟩, -⟩ := supersedeRun_ok supersedes rfl
    obtain ⟨insertedSessions, insertedRows⟩ := insertRun_ok inserts
    refine ⟨⟨move, _, insertedRows.trans (by rw [rows]), each, ?_⟩, insertedSessions.trans sessions⟩
    intro run mem
    rw [List.mem_singleton] at mem
    subst mem
    obtain ⟨_, queued, prepares⟩ := of_bind_ok prepares
    obtain ⟨_, -, prepares⟩ := of_bind_ok prepares
    obtain ⟨_, -, prepares⟩ := of_bind_ok prepares
    obtain ⟨_, -, prepares⟩ := of_bind_ok prepares
    obtain ⟨_, -, prepares⟩ := of_bind_ok prepares
    obtain ⟨_, -, prepares⟩ := of_bind_ok prepares
    obtain ⟨_, -, prepares⟩ := of_bind_ok prepares
    obtain ⟨_, -, prepares⟩ := of_bind_ok prepares
    cases prepares
    exact not_not.1 (raiseIf_eq_ok.1 queued)

/-- The active revision of the session changes, and no run of the session is active then. -/
def Replaced (before after : Store) : Prop :=
  ∀ sessionKey, after.sessions.get? sessionKey ≠ before.sessions.get? sessionKey →
    ∀ run ∈ after.runs.rows, run.sessionKey = sessionKey → run.status.active = false

theorem replaced_same (sessions : next.sessions = store.sessions) : Replaced store next :=
  fun sessionKey changed => absurd (by rw [sessions]) changed

theorem createPlanRevisionOnConn_change {revision made : Revision} {expectedParentRevisionId : Option Text}
    {part : Option TranscriptPart}
    (ran : store.createPlanRevisionOnConn revision expectedParentRevisionId part = .ok (made, next)) :
    RunsChange op store next ∧ Replaced store next := by
  obtain ⟨existing, -, ran⟩ := of_bind_ok ran
  split at ran
  next =>
    cases ran
    exact ⟨runsChange_same rfl, replaced_same rfl⟩
  next =>
    obtain ⟨row, -, ran⟩ := of_bind_ok ran
    obtain ⟨_, -, ran⟩ := of_bind_ok ran
    obtain ⟨_, -, ran⟩ := of_bind_ok ran
    obtain ⟨_, -, ran⟩ := of_bind_ok ran
    obtain ⟨_, -, ran⟩ := of_bind_ok ran
    obtain ⟨_, -, ran⟩ := of_bind_ok ran
    obtain ⟨inserted, inserts, ran⟩ := of_bind_ok ran
    obtain ⟨superseded, supersedes, ran⟩ := of_bind_ok ran
    cases ran
    obtain ⟨insertedSessions, insertedRuns⟩ := insertRevision_ok inserts
    obtain ⟨sessions, change, -, idle⟩ := supersedeRun_ok supersedes insertedRuns
    refine ⟨change, fun sessionKey changed => ?_⟩
    by_cases here : revision.sourceSessionKey = sessionKey
    · rw [← here]
      exact idle
    · refine absurd ?_ changed
      rw [sessions, Dict.get?_set, if_neg (Ne.symm here), insertedSessions]

theorem resetSession_change {reset : ResetSession} (ran : store.resetSession reset = .ok next) :
    RunsChange op store next ∧ Replaced store next := by
  obtain ⟨_, -, ran⟩ := of_bind_ok ran
  obtain ⟨_, -, ran⟩ := of_bind_ok ran
  obtain ⟨_, -, ran⟩ := of_bind_ok ran
  obtain ⟨_, -, ran⟩ := of_bind_ok ran
  obtain ⟨_, -, ran⟩ := of_bind_ok ran
  refine ⟨runsChange_update ran rfl fun run _ picked => ?_, fun sessionKey changed => ?_⟩
  · rw [Bool.and_eq_true] at picked
    exact .superseded picked.2 _ _
  · obtain ⟨sessions, rows⟩ := updateRuns_ok ran
    by_cases here : canonicalizeSessionKey reset.sessionKey = sessionKey
    · intro run mem session
      rw [rows] at mem
      obtain ⟨base, -, rfl⟩ := List.mem_map.1 mem
      revert session
      split
      next => exact fun _ => rfl
      next missed =>
        intro session
        simpa [here, session] using missed
    · refine absurd ?_ changed
      rw [sessions, Dict.get?_set, if_neg (Ne.symm here)]

variable {planContentHash : Text → Text → List PlanStep → Text}

theorem run_change (ran : store.run planContentHash op = .ok next) :
    RunsChange op store next ∧ Replaced store next := by
  cases op with
  | createPlanRevision revision expectedParentRevisionId =>
    obtain ⟨⟨_, _⟩, called, rfl⟩ := of_map_ok ran
    obtain ⟨prepared, -, called⟩ := of_bind_ok called
    exact createPlanRevisionOnConn_change called
  | appendPlanRevision append =>
    obtain ⟨⟨_, _⟩, called, rfl⟩ := of_map_ok ran
    obtain ⟨prepared, -, called⟩ := of_bind_ok called
    exact createPlanRevisionOnConn_change called
  | startPlanRun run now =>
    obtain ⟨⟨_, _⟩, called, rfl⟩ := of_map_ok ran
    exact (startPlanRun_change called).imp_right replaced_same
  | markPlanRunRunning runId expectedStateRevision activeTaskId now =>
    obtain ⟨⟨_, _⟩, called, rfl⟩ := of_map_ok ran
    exact (markPlanRunRunning_change called).imp_right replaced_same
  | completePlanRun runId expectedStateRevision expectedActiveTaskId now =>
    obtain ⟨⟨_, _⟩, called, rfl⟩ := of_map_ok ran
    exact (completePlanRun_change called).imp_right replaced_same
  | pausePlanRun pause =>
    obtain ⟨⟨_, _⟩, called, rfl⟩ := of_map_ok ran
    exact (pausePlanRun_change called).imp_right replaced_same
  | cancelPlanRun cancel =>
    obtain ⟨⟨_, _⟩, called, rfl⟩ := of_map_ok ran
    exact (cancelPlanRun_change called).imp_right replaced_same
  | supersedeActivePlanRuns sessionKey reason timestamp =>
    refine ⟨runsChange_update ran rfl fun run _ picked => ?_, replaced_same (updateRuns_ok ran).1⟩
    rw [Bool.and_eq_true] at picked
    exact .superseded picked.2 _ _
  | resetSession reset => exact resetSession_change ran

theorem step_change (planContentHash : Text → Text → List PlanStep → Text) (op : PlanOp) (store : Store) :
    RunsChange op store (store.step planContentHash op) ∧
      Replaced store (store.step planContentHash op) := by
  unfold step
  split
  next ran => exact run_change ran
  next => exact ⟨runsChange_same rfl, replaced_same rfl⟩

end Store

end OpenSquilla.Plans
