import OpenSquilla.Scheduler.PostExecution
import OpenSquilla.Scheduler.Reservation

set_option autoImplicit false

namespace OpenSquilla.Scheduler

open Runs JobStore

namespace SchedulerState

variable {nextRun : NextRun} {s : SchedulerState} {op : SchedulerOp} {jobId token : String}
    {occurrence : Instant}

/-- Whoever is to finish a run holds the row as it stands, or the row was written since. -/
def Current (s : SchedulerState) : Prop :=
  ∀ actor jobId token outcome current, s.tasks.get? actor = some (.finishing jobId token outcome current) →
    (current.updatedAt : WithTop Instant) ≤ stampUnder jobId token s.store ∧
      (stampUnder jobId token s.store = current.updatedAt → s.store.get? jobId = some current)

inductive RowChange (nextRun : NextRun) (s : SchedulerState) (op : SchedulerOp) (jobId : String)
    (row : CronJob) :
    CronJob → Prop
  | same : RowChange nextRun s op jobId row row
  | reserved (token : String) (now : Instant) (requireDue : Bool) (source owner : String)
      (free : reservable requireDue now row = true)
      (fresh : .reserved jobId token ∉ s.history) :
    RowChange nextRun s op jobId row (JobStore.reserved token now source owner row)
  | released (now : Instant) : RowChange nextRun s op jobId row (JobStore.released now row)
  | finalized (outcome : Outcome) (now : Instant) :
    RowChange nextRun s op jobId row (JobStore.finalized (outcome.result nextRun row now).1 row)
  | edited (job previous : CronJob) (emitted : .edited jobId ∈ s.emits nextRun op) :
    RowChange nextRun s op jobId row (configured job previous row)

theorem init_current : Current {} := by
  intro actor jobId token outcome current found
  cases found

theorem current_of_fence {actor : Nat} {outcome : Outcome} {current row : CronJob} (current_ : s.Current)
    (task : s.tasks.get? actor = some (.finishing jobId token outcome current))
    (found : s.store.get? jobId = some row) (fenced : resultFence token current.updatedAt row = true) :
    row = current := by
  simp only [resultFence, Bool.and_eq_true, decide_eq_true_eq] at fenced
  have stamp := stampUnder_of_found token found
  rw [if_pos fenced.1, fenced.2] at stamp
  have same := (current_ actor jobId token outcome current task).2 stamp
  rw [found] at same
  exact Option.some.inj same

theorem step_current (owned : s.Owned) (current : s.Current) (permitted : s.Permitted op) :
    (s.step nextRun op).Current := by
  intro actor jobId token outcome row found
  obtain before | taken := tasks_cases found
  · obtain ⟨lower, same⟩ := current actor jobId token outcome row before
    have issued := owned.holding actor jobId token outcome row before
    obtain ⟨kept, -⟩ | raised | ⟨-, late⟩ :=
      effect_stamp owned (effect_cases nextRun owned.holding permitted) issued
    · rw [stampUnder, kept]
      exact ⟨lower, same⟩
    · exact ⟨(lower.trans_lt raised).le, fun stamp => absurd (stamp ▸ raised) (not_lt.mpr lower)⟩
    · rw [late]
      exact ⟨le_top, fun stamp => absurd stamp.symm (WithTop.coe_ne_top)⟩
  · cases op with
    | readResult reader readId readToken readOutcome =>
      obtain ⟨read, present, under, same⟩ : ∃ read, s.store.get? readId = some read ∧
          read.reservationToken = readToken ∧ some (.finishing readId readToken readOutcome read) =
            some (Task.finishing jobId token outcome row) := by
        simp only [snapshot] at taken
        split at taken
        next read present =>
          split at taken
          next under => exact ⟨read, present, under, taken⟩
          next => cases taken
        next => cases taken
      cases same
      have stamp : stampUnder jobId token s.store = row.updatedAt := by
        rw [stampUnder_of_found token present, if_pos under]
      exact ⟨stamp.ge, fun _ => present⟩
    | readRecovery reader readId =>
      obtain ⟨row, _, different⟩ := Option.map_eq_some_iff.mp taken
      cases different
    | readEdit reader readId =>
      obtain ⟨row, _, different⟩ := Option.map_eq_some_iff.mp taken
      cases different
    | _ => cases taken

theorem get?_set_cases {store : JobStore} {other : String} {row after : CronJob}
    (found : (store.set other row).get? jobId = some after) :
    jobId = other ∧ after = row ∨ store.get? jobId = some after := by
  rw [Dict.get?_set] at found
  split at found
  next same => exact .inl ⟨same, (Option.some.inj found).symm⟩
  next => exact .inr found

theorem get?_erase_cases {store : JobStore} {other : String} {after : CronJob}
    (found : (store.erase other).get? jobId = some after) : store.get? jobId = some after := by
  rw [Dict.get?_erase] at found
  split at found
  · cases found
  · exact found

theorem reserveJobForRun_store (store : JobStore) (jobId token : String) (now : Instant) (requireDue : Bool)
    (source owner : String) : (store.reserveJobForRun jobId token now requireDue source owner).2 =
      (store.updateWhere jobId (reservable requireDue now) (JobStore.reserved token now source owner)).2 := by
  unfold reserveJobForRun
  dsimp only
  split
  · split <;> rfl
  · rfl

theorem row_cases (owned : s.Owned) (current : s.Current) (permitted : s.Permitted op) {after : CronJob}
    (found : (s.step nextRun op).store.get? jobId = some after) :
    (s.store.get? jobId = none ∧ after.reservationToken = "" ∧ .added jobId ∉ s.history) ∨
      ∃ row, s.store.get? jobId = some row ∧ RowChange nextRun s op jobId row after := by
  have same : s.store.get? jobId = some after →
      ∃ row, s.store.get? jobId = some row ∧ RowChange nextRun s op jobId row after :=
    fun kept => ⟨after, kept, .same⟩
  have assigned : ∀ (other : String) (condition : CronJob → Bool) (assign : CronJob → CronJob),
      (s.store.updateWhere other condition assign).2.get? jobId = some after →
      (∀ row, s.store.get? other = some row → condition row = true → jobId = other → after = assign row →
        RowChange nextRun s op jobId row after) →
      ∃ row, s.store.get? jobId = some row ∧ RowChange nextRun s op jobId row after := by
    intro other condition assign written change
    obtain unchanged | ⟨row, present, met, updated⟩ := updateWhere_cases s.store other condition assign
    · rw [unchanged] at written
      exact same written
    · rw [updated] at written
      obtain ⟨rfl, rfl⟩ | kept := get?_set_cases written
      · exact ⟨row, present, change row present met rfl rfl⟩
      · exact same kept
  cases op with
  | add other job =>
    obtain ⟨rfl, rfl⟩ | kept := get?_set_cases found
    · refine .inl ⟨?_, rfl, permitted⟩
      cases present : s.store.get? jobId with
      | none => rfl
      | some row => exact absurd (owned.known jobId row present) permitted
    · exact .inr (same kept)
  | reserve other token now requireDue source owner =>
    refine .inr (assigned other (reservable requireDue now) (JobStore.reserved token now source owner) ?_ ?_)
    · rw [← reserveJobForRun_store]
      exact found
    · rintro row - met rfl rfl
      exact .reserved token now requireDue source owner met fun granted =>
        permitted.2 (List.mem_map_of_mem granted)
  | release other token now =>
    refine .inr (assigned other _ (released now) found ?_)
    rintro row - - - rfl
    exact .released now
  | delete other => exact .inr (same (get?_erase_cases found))
  | writeResult actor now =>
    right
    simp only [step, effect] at found
    split at found
    next other token outcome read task =>
      simp only [finish, finalizeReservedJob] at found
      generalize resulted : outcome.result nextRun read now = result at found
      obtain ⟨job, delete⟩ := result
      cases delete with
      | true =>
        obtain unchanged | ⟨row, present, met, erased⟩ :=
          deleteWhere_cases s.store other (resultFence token read.updatedAt)
        · rw [if_pos rfl, unchanged] at found
          exact same found
        · rw [if_pos rfl, erased] at found
          exact same (get?_erase_cases found)
      | false =>
        rw [if_neg Bool.false_ne_true] at found
        refine assigned other _ (JobStore.finalized job) found ?_
        rintro row present met rfl rfl
        obtain rfl := current_of_fence current task present met
        have written : RowChange nextRun s (.writeResult actor now) jobId row
            (JobStore.finalized (outcome.result nextRun row now).1 row) := .finalized outcome now
        rwa [resulted] at written
    next => exact same found
  | writeRecovery actor now =>
    right
    simp only [step, effect] at found
    split at found
    next other previous task =>
      simp only [recover] at found
      split at found
      · refine assigned other _ (released now) found ?_
        rintro row - - - rfl
        exact .released now
      · exact same found
    next => exact same found
  | writeEdit actor edit =>
    right
    simp only [step, effect] at found
    split at found
    next other previous task =>
      simp only [change] at found
      split at found
      next job applied =>
        obtain unchanged | ⟨row, present, met, updated⟩ :=
          updateWhere_cases s.store other (readFence previous) (configured job previous)
        · rw [updateConfiguration, unchanged] at found
          exact same found
        · rw [updateConfiguration, updated] at found
          obtain ⟨rfl, rfl⟩ | kept := get?_set_cases found
          · refine ⟨row, present, .edited job previous ?_⟩
            simp only [emits, effect, task, change, applied, updateConfiguration, updated, if_true,
              List.mem_singleton]
          · exact same kept
      next => exact same found
    next => exact same found
  | readResult actor other token outcome => exact .inr (same found)
  | readRecovery actor other => exact .inr (same found)
  | readEdit actor other => exact .inr (same found)

end SchedulerState

namespace CronJob

-- The statuses that an execution in flight does not change.
def Suspended (job : CronJob) : Prop := job.status = .paused ∨ job.status = .disabled

def Awaits (job : CronJob) (occurrence : Instant) : Prop :=
  job.scheduleKind = .at ∧ job.nextRunAt = some occurrence

/-- The job is given a new one-shot time, or it was paused or disabled and no longer is. -/
def Reactivates (row after : CronJob) : Prop :=
  (after.scheduleKind = .at ∧ (row.scheduleKind = .at → after.nextRunAt ≠ row.nextRunAt)) ∨
    (row.Suspended ∧ ¬after.Suspended)

instance (job : CronJob) : Decidable job.Suspended :=
  inferInstanceAs (Decidable (job.status = .paused ∨ job.status = .disabled))

instance (row after : CronJob) : Decidable (Reactivates row after) :=
  inferInstanceAs (Decidable (_ ∨ (row.Suspended ∧ ¬after.Suspended)))

variable {nextRun : NextRun} {row : CronJob} {occurrence : Instant} {now : Instant}

theorem result_of_suspended (suspended : row.Suspended) (outcome : Outcome) :
    outcome.result nextRun row now = (row, false) := if_pos suspended

theorem result_nextRunAt (oneShot : row.scheduleKind = .at) (outcome : Outcome) :
    (outcome.result nextRun row now).1.nextRunAt = row.nextRunAt ∨
      (outcome.result nextRun row now).1.nextRunAt = none := by
  unfold Outcome.result
  split
  next => exact .inl rfl
  next =>
    cases outcome with
    | missingHandler error =>
      dsimp only [applyMissingHandler]
      split
      · exact .inl rfl
      · exact .inr rfl
    | executed execution =>
      dsimp only [applyResultState]
      split
      next => exact .inl rfl
      next =>
        split
        next =>
          dsimp only [applySuccess]
          rw [if_pos oneShot]
          split <;> exact .inl rfl
        next =>
          dsimp only [applyFailure]
          split
          next => exact .inr rfl
          next => split <;> exact .inl rfl

/-- A success consumes the occurrence it ran, unless the job was suspended or given another time meanwhile. -/
theorem result_of_success {execution : JobExecution} (success : execution.success = true)
    (reserved : row.scheduledRunAt = some occurrence) (active : ¬row.Suspended) :
    ((Outcome.executed execution).result nextRun row now).1.nextRunAt ≠ some occurrence ∨
      row.scheduleKind ≠ .at ∨ ((Outcome.executed execution).result nextRun row now).2 = true ∨
      ((Outcome.executed execution).result nextRun row now).1.status = .disabled := by
  have ran : (Outcome.executed execution).result nextRun row now = row.applyResultState nextRun execution now :=
    if_neg active
  rw [ran]
  dsimp only [applyResultState]
  split
  next rescheduled =>
    left
    simp only [isRescheduledOneShot, Bool.and_eq_true, decide_eq_true_eq] at rescheduled
    dsimp only [clearReservation]
    rw [← reserved]
    exact rescheduled.2
  next =>
    by_cases oneShot : row.scheduleKind = .at
    · dsimp only [applySuccess]
      rw [if_pos oneShot]
      split
      · exact .inr (.inr (.inl rfl))
      · exact .inr (.inr (.inr rfl))
    · exact .inr (.inl oneShot)

end CronJob

namespace SchedulerState

variable {nextRun : NextRun} {s : SchedulerState} {op : SchedulerOp} {jobId token : String}
    {occurrence : Instant}
  {row after : CronJob}

open CronJob

/-- The occurrence is not run again: whenever the job waits for it, it is suspended. -/
def Consumed (jobId : String) (occurrence : Instant) (s : SchedulerState) : Prop :=
  ∀ row, s.store.get? jobId = some row → row.Awaits occurrence → row.Suspended

-- The row runs the occurrence as long as it carries the token.
def Running (jobId token : String) (occurrence : Instant) (s : SchedulerState) : Prop :=
  ∀ row, s.store.get? jobId = some row → row.reservationToken = token → row.scheduledRunAt = some occurrence

def Reactivated (nextRun : NextRun) (jobId : String) (s : SchedulerState) (op : SchedulerOp) : Prop :=
  .edited jobId ∈ s.emits nextRun op ∧
    ∃ row ∈ s.store.get? jobId, ∃ after ∈ (s.step nextRun op).store.get? jobId, Reactivates row after

instance : Decidable (Reactivated nextRun jobId s op) := inferInstanceAs (Decidable (_ ∧ _))

theorem RowChange.suspended (change : RowChange nextRun s op jobId row after)
    (quiet : .edited jobId ∈ s.emits nextRun op → ¬Reactivates row after)
    (consumed : row.Awaits occurrence → row.Suspended) (awaits : after.Awaits occurrence) : after.Suspended := by
  cases change with
  | same => exact consumed awaits
  | reserved token now requireDue source owner free fresh =>
    simp only [reservable, Bool.and_eq_true, decide_eq_true_eq] at free
    have pending : row.status = .pending := free.1.1.1.2
    have suspended := consumed awaits
    rw [Suspended, pending] at suspended
    simp at suspended
  | released now =>
    have suspended := consumed awaits
    have idle : row.status ≠ .running := by
      obtain paused | disabled := suspended
      · rw [paused]
        decide
      · rw [disabled]
        decide
    have kept : (JobStore.released now row).status = row.status := if_neg idle
    rw [Suspended, kept]
    exact suspended
  | finalized outcome now =>
    by_cases suspended : row.Suspended
    · rw [result_of_suspended suspended]
      exact suspended
    · have oneShot : row.scheduleKind = .at := awaits.1
      have kept : (outcome.result nextRun row now).1.nextRunAt = some occurrence := awaits.2
      have cleared : (outcome.result nextRun row now).1.nextRunAt = row.nextRunAt ∨
          (outcome.result nextRun row now).1.nextRunAt = none := result_nextRunAt oneShot outcome
      obtain same | gone := cleared
      · exact absurd (consumed ⟨oneShot, same.symm.trans kept⟩) suspended
      · rw [gone] at kept
        cases kept
  | edited job previous emitted =>
    obtain ⟨oneShot, same⟩ : row.scheduleKind = .at ∧
        (configured job previous row).nextRunAt = row.nextRunAt := by
      by_contra moved
      exact quiet emitted (.inl ⟨awaits.1, fun oneShot same => moved ⟨oneShot, same⟩⟩)
    have suspended := consumed ⟨oneShot, same.symm.trans awaits.2⟩
    by_contra active
    exact quiet emitted (.inr ⟨suspended, active⟩)

theorem step_consumed (owned : s.Owned) (current : s.Current) (permitted : s.Permitted op)
    (known : .added jobId ∈ s.history) (quiet : ¬Reactivated nextRun jobId s op)
    (consumed : s.Consumed jobId occurrence) : (s.step nextRun op).Consumed jobId occurrence := by
  intro after found awaits
  obtain ⟨-, -, unknown⟩ | ⟨row, present, change⟩ := row_cases owned current permitted found
  · exact absurd known unknown
  · exact change.suspended (fun emitted again => quiet ⟨emitted, row, present, after, found, again⟩)
      (consumed row present) awaits

theorem step_running (owned : s.Owned) (current : s.Current) (permitted : s.Permitted op)
    (issued : .reserved jobId token ∈ s.history) (running : s.Running jobId token occurrence) :
    (s.step nextRun op).Running jobId token occurrence := by
  have named := owned.named jobId token issued
  intro after found under
  obtain ⟨-, unreserved, -⟩ | ⟨row, present, change⟩ := row_cases owned current permitted found
  · exact absurd (under.symm.trans unreserved) named
  · cases change with
    | same => exact running _ present under
    | reserved other now requireDue source owner free fresh =>
      obtain rfl : other = token := under
      exact absurd issued fresh
    | released now => exact absurd under.symm named
    | finalized outcome now => exact absurd under.symm named
    | edited job previous emitted => exact running row present under

theorem commit_consumed (current : s.Current) {actor : Nat} {execution : JobExecution}
    {row : CronJob} {now : Instant}
    (task : s.tasks.get? actor = some (.finishing jobId token (.executed execution) row))
    (success : execution.success = true)
    (committed : .committed jobId token ∈ s.emits nextRun (.writeResult actor now))
    (running : s.Running jobId token occurrence) :
    (s.step nextRun (.writeResult actor now)).Consumed jobId occurrence := by
  obtain ⟨outcome, other, stored, sameTask, found, fenced⟩ := committed_by_task committed
  obtain ⟨-, -, -, again⟩ := Task.finishing.inj (Option.some.inj (task.symm.trans sameTask))
  rw [← again] at fenced
  have same : stored = row := current_of_fence current task found fenced
  rw [same] at found fenced
  have under : row.reservationToken = token := by
    simp only [resultFence, Bool.and_eq_true, decide_eq_true_eq] at fenced
    exact fenced.1
  intro after present awaits
  simp only [step, effect, task, finish, finalizeReservedJob] at present
  cases deletes : ((Outcome.executed execution).result nextRun row now).2 with
  | true =>
    rw [deletes, if_pos rfl, deleteWhere, found] at present
    dsimp only at present
    rw [if_pos fenced, Dict.get?_erase, if_pos rfl] at present
    cases present
  | false =>
    rw [deletes, if_neg Bool.false_ne_true, updateWhere, found] at present
    dsimp only at present
    rw [if_pos fenced, Dict.get?_set, if_pos rfl] at present
    obtain rfl := Option.some.inj present
    by_cases suspended : row.Suspended
    · rw [result_of_suspended suspended]
      exact suspended
    · have settled : ((Outcome.executed execution).result nextRun row now).1.nextRunAt ≠ some occurrence ∨
          row.scheduleKind ≠ .at ∨ ((Outcome.executed execution).result nextRun row now).2 = true ∨
          ((Outcome.executed execution).result nextRun row now).1.status = .disabled :=
        result_of_success success (running row found under) suspended
      obtain moved | recurring | deleted | disabled := settled
      · exact absurd awaits.2 moved
      · exact absurd awaits.1 recurring
      · rw [deletes] at deleted
        cases deleted
      · exact .inr disabled

theorem run_consumed (owned : s.Owned) (current : s.Current) (known : .added jobId ∈ s.history)
    (consumed : s.Consumed jobId occurrence) {ops : List SchedulerOp}
    (permitted : Along (step nextRun) Permitted s ops)
    (quiet : Along (step nextRun) (fun s op => ¬Reactivated nextRun jobId s op) s ops) :
    (run (step nextRun) s ops).Consumed jobId occurrence := by
  have preserved : ∀ (s : SchedulerState) (op : SchedulerOp),
      (s.Owned ∧ s.Current ∧ .added jobId ∈ s.history ∧ s.Consumed jobId occurrence) →
      s.Permitted op ∧ ¬Reactivated nextRun jobId s op →
      (s.step nextRun op).Owned ∧ (s.step nextRun op).Current ∧ .added jobId ∈ (s.step nextRun op).history ∧
        (s.step nextRun op).Consumed jobId occurrence := by
    intro s op ⟨owned, current, known, consumed⟩ ⟨permitted, quiet⟩
    exact ⟨step_owned owned permitted, step_current owned current permitted, List.mem_append_left _ known,
      step_consumed owned current permitted known quiet consumed⟩
  have kept := run_invariant_along _ preserved ⟨owned, current, known, consumed⟩ ops (permitted.and quiet)
  exact kept.2.2.2

/-- From its reservation on, the row that carries the token runs the occurrence of the reservation. -/
theorem running_of_granted (sound : s.Owned ∧ s.Current) {started : Instant} {requireDue : Bool}
    {source owner : String} (permitted : s.Permitted (.reserve jobId token started requireDue source owner))
    {reservation : JobReservation}
    (granted : (s.store.reserveJobForRun jobId token started requireDue source owner).1 = .ok reservation)
    (scheduled : reservation.scheduledRunAt = some occurrence) {during : List SchedulerOp}
    (meanwhile : Along (step nextRun) Permitted
      (s.step nextRun (.reserve jobId token started requireDue source owner)) during) :
    (run (step nextRun) (s.step nextRun (.reserve jobId token started requireDue source owner)) during).Running
      jobId token occurrence := by
  obtain ⟨rejection, rejected⟩ | ⟨row, found, free, ran⟩ :=
    reserveJobForRun_cases s.store jobId token started requireDue source owner
  · rw [rejected] at granted
    cases granted
  · rw [ran] at granted
    cases granted
    have issued : .reserved jobId token ∈
        (s.step nextRun (.reserve jobId token started requireDue source owner)).history := by
      simp only [step, emits, effect, ran]
      exact List.mem_append_right _ List.mem_cons_self
    have carried : (s.step nextRun (.reserve jobId token started requireDue source owner)).Running
        jobId token occurrence := by
      intro after present under
      simp only [step, effect, ran, Dict.get?_set, if_true] at present
      obtain rfl := Option.some.inj present
      exact scheduled
    have preserved : ∀ (s : SchedulerState) (op : SchedulerOp),
        (s.Owned ∧ s.Current ∧ .reserved jobId token ∈ s.history ∧ s.Running jobId token occurrence) →
        s.Permitted op →
        (s.step nextRun op).Owned ∧ (s.step nextRun op).Current ∧
          .reserved jobId token ∈ (s.step nextRun op).history ∧
          (s.step nextRun op).Running jobId token occurrence := by
      rintro s op ⟨owned, current, issued, running⟩ permitted
      exact ⟨step_owned owned permitted, step_current owned current permitted, List.mem_append_left _ issued,
        step_running owned current permitted issued running⟩
    have kept := run_invariant_along _ preserved
      ⟨step_owned sound.1 permitted, step_current sound.1 sound.2 permitted, issued, carried⟩ during meanwhile
    exact kept.2.2.2

theorem not_granted_of_consumed (consumed : s.Consumed jobId occurrence) {again source owner : String}
    {now : Instant}
    {second : JobReservation} (granted : (s.store.reserveDueJob jobId again now source owner).1 = .ok second)
    (oneShot : second.job.scheduleKind = .at) : second.scheduledRunAt ≠ some occurrence := by
  obtain ⟨rejection, rejected⟩ | ⟨row, found, free, ran⟩ :=
    reserveJobForRun_cases s.store jobId again now true source owner
  · rw [reserveDueJob, rejected] at granted
    cases granted
  · rw [reserveDueJob, ran] at granted
    cases granted
    intro scheduled
    have suspended := consumed row found ⟨oneShot, scheduled⟩
    simp only [reservable, Bool.and_eq_true, decide_eq_true_eq] at free
    rw [Suspended, free.1.1.1.2] at suspended
    simp at suspended

/-- An occurrence that ended in a success is not granted again to the one-shot job, unless an edit gives the job a
new one-shot time or takes it out of its suspension. -/
theorem one_shot_runs_once (nextRun : NextRun) (jobId token : String) (occurrence started finished : Instant)
    (requireDue : Bool) (source owner : String) (actor : Nat) (before during later : List SchedulerOp)
    (reservation : JobReservation) (execution : JobExecution) (read : CronJob) :
    let reserving := SchedulerOp.reserve jobId token started requireDue source owner
    let writing := SchedulerOp.writeResult actor finished
    let asked := run (step nextRun) {} before
    let ended := run (step nextRun) (asked.step nextRun reserving) during
    let left := run (step nextRun) (ended.step nextRun writing) later
    Along (step nextRun) Permitted {} (before ++ reserving :: (during ++ writing :: later)) →
    (asked.store.reserveJobForRun jobId token started requireDue source owner).1 = .ok reservation →
    reservation.scheduledRunAt = some occurrence →
    ended.tasks.get? actor = some (.finishing jobId token (.executed execution) read) →
    execution.success = true → .committed jobId token ∈ ended.emits nextRun writing →
    Along (step nextRun) (fun s op => ¬Reactivated nextRun jobId s op) (ended.step nextRun writing) later →
    ∀ (again : String) (now : Instant) (source owner : String) (second : JobReservation),
      (left.store.reserveDueJob jobId again now source owner).1 = .ok second →
      second.job.scheduleKind = .at → second.scheduledRunAt ≠ some occurrence := by
  intro reserving writing asked ended left permitted granted scheduled task success committed quiet again now source
    owner second grantedAgain oneShot
  obtain ⟨beforehand, first, permitted⟩ : Along (step nextRun) Permitted {} before ∧ asked.Permitted reserving ∧
      Along (step nextRun) Permitted (asked.step nextRun reserving) (during ++ writing :: later) :=
    (along_append _ _ _).mp permitted
  obtain ⟨meanwhile, last, afterwards⟩ : Along (step nextRun) Permitted (asked.step nextRun reserving) during ∧
      ended.Permitted writing ∧ Along (step nextRun) Permitted (ended.step nextRun writing) later :=
    (along_append _ _ _).mp permitted
  have sound : ∀ (s : SchedulerState) (ops : List SchedulerOp),
      Along (step nextRun) Permitted s ops → s.Owned ∧ s.Current →
      (run (step nextRun) s ops).Owned ∧ (run (step nextRun) s ops).Current := fun _ _ along holds =>
    run_invariant_along (fun s => s.Owned ∧ s.Current)
      (fun s op holds permitted =>
        ⟨step_owned holds.1 permitted, step_current holds.1 holds.2 permitted⟩) holds _ along
  have askedSound : asked.Owned ∧ asked.Current := sound _ _ beforehand ⟨init_owned, init_current⟩
  have reservedSound := sound _ [reserving] ⟨first, trivial⟩ askedSound
  have endedSound : ended.Owned ∧ ended.Current := sound _ _ meanwhile reservedSound
  have leftSound := sound _ (writing :: later) ⟨last, afterwards⟩ endedSound
  have running : ended.Running jobId token occurrence :=
    running_of_granted askedSound first granted scheduled meanwhile
  have known : .added jobId ∈ ended.history := by
    obtain ⟨row, present, -⟩ := committed_carried (effect_cases nextRun endedSound.1.holding last) committed
    exact endedSound.1.known jobId row present
  have consumed : left.Consumed jobId occurrence :=
    run_consumed (step_owned endedSound.1 last) (step_current endedSound.1 endedSound.2 last)
      (List.mem_append_left _ known)
        (commit_consumed endedSound.2 task success committed running) afterwards quiet
  exact not_granted_of_consumed consumed grantedAgain oneShot

deriving instance DecidableEq for Task

def oneShotJob : CronJob where
  updatedAt := 0
  scheduleKind := .at
  nextRunAt := some 5

def toFifty : Edit :=
  .update (fun job =>
    .ok { job with nextRunAt := some 50, consecutiveErrors := 0, backoffUntil := none, updatedAt := 12 })

def rescheduledRow : CronJob :=
  { JobStore.reserved "first" 10 "timer" "owner" oneShotJob with nextRunAt := some 50, updatedAt := 12 }

def secondReservation : JobReservation where
  job := JobStore.reserved "second" 60 "timer" "owner"
    (JobStore.finalized (rescheduledRow.applyResultState everyMinute { success := true } 20).1 rescheduledRow)
  token := "second"
  reservedAt := 60
  reservedBy := "owner"
  reservationSource := "timer"
  scheduledRunAt := some 50

/-- A job that is given another time while it runs is granted for that time. -/
theorem one_shot_runs_once_rescheduled : secondReservation.scheduledRunAt ≠ some 5 :=
  one_shot_runs_once everyMinute "job" "first" 5 10 20 true "timer" "owner" 0 [.add "job" oneShotJob]
    [.readEdit 1 "job", .writeEdit 1 toFifty, .readResult 0 "job" "first" (.executed { success := true })] []
    ⟨JobStore.reserved "first" 10 "timer" "owner" oneShotJob, "first", 10, "owner", "timer", some 5⟩
    { success := true } rescheduledRow (by decide) (by decide) rfl (by decide) rfl
    (by decide) trivial "second" 60 "timer" "owner" secondReservation (by decide) rfl

/-- Told to resume, a job that ran to success is due for the same occurrence. -/
theorem resumed_one_shot_runs_again :
    let ended :=
      run (step everyMinute) {} [.add "job" oneShotJob, .reserve "job" "first" 10 true "timer" "owner",
      .readResult 0 "job" "first" (.executed { success := true })]
    let resumed := run (step everyMinute) (ended.step everyMinute (.writeResult 0 20))
      [.readEdit 1 "job", .writeEdit 1 (.resume 30)]
    .committed "job" "first" ∈ ended.emits everyMinute (.writeResult 0 20) ∧
      (resumed.store.reserveDueJob "job" "second" 40 "timer" "owner").1.toOption.map (·.scheduledRunAt) =
        some (some 5) := by
  decide

end SchedulerState

end OpenSquilla.Scheduler
