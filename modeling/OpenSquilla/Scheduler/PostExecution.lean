import OpenSquilla.Scheduler.Job

set_option autoImplicit false

namespace OpenSquilla.Scheduler

namespace CronJob

structure Unreserved (job : CronJob) : Prop where
  token : job.reservationToken = ""
  at_ : job.reservedAt = none
  owner : job.reservedBy = ""
  source : job.reservationSource = ""
  occurrence : job.scheduledRunAt = none

-- The job with the result counted, for which the next run is computed.
def counted (job : CronJob) (execution : JobExecution) (now : Instant) : CronJob :=
  if execution.success then
    { job with
      consecutiveErrors := 0
      backoffUntil := none
      lastError := none
      runCount := job.runCount + 1
      updatedAt := now }
  else
    { job with
      consecutiveErrors := job.consecutiveErrors + 1
      errorCount := job.errorCount + 1
      lastError := execution.error
      runCount := job.runCount + 1
      updatedAt := now }

def Uncomputable (nextRun : NextRun) (job : CronJob) (execution : JobExecution) (now : Instant) : Prop :=
  job.scheduleKind ≠ .at ∧ ∃ exc, nextRun (job.counted execution now) now = .error exc

/-- A job is due again, it has failed or it is disabled, each with the other columns to match. -/
inductive Settled (job after : CronJob) (execution : JobExecution) (now : Instant) : Prop
  | pending (status : after.status = .pending) (enabled : after.enabled = job.enabled)
    (due : after.nextRunAt ≠ none)
    (backoff : execution.success = false → job.isRescheduledOneShot = false →
      after.backoffUntil = some (now + computeBackoff after.consecutiveErrors))
  | failed (status : after.status = .failed) (due : after.nextRunAt = none) (backoff : after.backoffUntil = none)
  | disabled (status : after.status = .disabled) (enabled : after.enabled = false)

-- What the state machine leaves of a job that it does not delete.
structure PostExecution (nextRun : NextRun) (job after : CronJob) (execution : JobExecution) (now : Instant) :
    Prop where
  unreserved : after.Unreserved
  settled : Settled job after execution now
  runCount : after.runCount = job.runCount + 1
  errorCount : job.errorCount + 1 ≤ after.errorCount ↔
    execution.success = false ∨ (job.isRescheduledOneShot = false ∧ job.Uncomputable nextRun execution now)
  recurring : after.scheduleKind ≠ .at → after.status = .pending → after.consecutiveErrors < maxConsecutiveErrors
  oneShot : after.scheduleKind = .at → after.status = .pending → after.consecutiveErrors < oneShotMaxRetries

variable {nextRun : NextRun} {job : CronJob} {execution : JobExecution} {now : Instant}

@[simp] theorem counted_enabled : (job.counted execution now).enabled = job.enabled := by
  unfold counted
  split <;> rfl

@[simp] theorem counted_scheduleKind : (job.counted execution now).scheduleKind = job.scheduleKind := by
  unfold counted
  split <;> rfl

@[simp] theorem counted_nextRunAt : (job.counted execution now).nextRunAt = job.nextRunAt := by
  unfold counted
  split <;> rfl

@[simp] theorem counted_runCount : (job.counted execution now).runCount = job.runCount + 1 := by
  unfold counted
  split <;> rfl

theorem counted_errorCount :
    (job.counted execution now).errorCount = if execution.success then job.errorCount else
      job.errorCount + 1 := by
  unfold counted
  split <;> rfl

theorem counted_consecutiveErrors (success : execution.success = true) :
    (job.counted execution now).consecutiveErrors = 0 := by
  rw [counted, if_pos success]

-- The exits of `_apply_result_state` for an occurrence that was not rescheduled.
inductive Exit (nextRun : NextRun) (execution : JobExecution) (now : Instant)
    (counted : CronJob) : CronJob → Prop
  | consumed (success : execution.success = true) (oneShot : counted.scheduleKind = .at) :
    Exit nextRun execution now counted
      { counted.clearReservation with status := .disabled, enabled := false }
  | scheduled (success : execution.success = true) (recurring : counted.scheduleKind ≠ .at) (next : Instant)
      (computed : nextRun counted now = .ok next) :
    Exit nextRun execution now counted
      { counted with nextRunAt := some next, status := .pending }.clearReservation
  | computeFailed (recurring : counted.scheduleKind ≠ .at) (exc : String)
      (failed : nextRun counted now = .error exc) :
    Exit nextRun execution now counted (counted.markScheduleComputeFailed exc now execution.success)
  | permanent (failure : execution.success = false) :
    Exit nextRun execution now counted
      { counted with
        status := .disabled, enabled := false, nextRunAt := none, backoffUntil := none }.clearReservation
  | exhausted (failure : execution.success = false) :
    Exit nextRun execution now counted { counted with status := .disabled, enabled := false }.clearReservation
  | broken (failure : execution.success = false) :
    Exit nextRun execution now counted
      { counted with status := .failed, nextRunAt := none, backoffUntil := none }.clearReservation
  | retried (failure : execution.success = false) (oneShot : counted.scheduleKind = .at)
      (left : counted.consecutiveErrors < oneShotMaxRetries) :
    Exit nextRun execution now counted
      { counted with
        backoffUntil := some (now + computeBackoff counted.consecutiveErrors)
        status := .pending }.clearReservation
  | rescheduled (failure : execution.success = false) (recurring : counted.scheduleKind ≠ .at)
      (left : counted.consecutiveErrors < maxConsecutiveErrors) (next : Instant)
      (computed : nextRun counted now = .ok next) :
    Exit nextRun execution now counted
      { counted with
        nextRunAt := some next
        backoffUntil := some (now + computeBackoff counted.consecutiveErrors)
        status := .pending }.clearReservation

def successFrom (nextRun : NextRun) (counted : CronJob) (now : Instant) : CronJob × Bool :=
  if counted.scheduleKind = .at then
    if counted.deleteAfterRun then (counted.clearReservation, true)
    else ({ counted.clearReservation with status := .disabled, enabled := false }, false)
  else
    match nextRun counted now with
    | .ok next => ({ counted with nextRunAt := some next, status := .pending }.clearReservation, false)
    | .error exc => (counted.markScheduleComputeFailed exc now true, false)

def failureFrom (nextRun : NextRun) (counted : CronJob) (error : Option String) (now : Instant) : CronJob :=
  let retried := fun (job : CronJob) =>
    { job with
      backoffUntil := some (now + computeBackoff job.consecutiveErrors)
      status := .pending }.clearReservation
  if classifyError error = .permanent then
    { counted with
      status := .disabled, enabled := false, nextRunAt := none, backoffUntil := none }.clearReservation
  else if counted.scheduleKind = .at then
    if oneShotMaxRetries ≤ counted.consecutiveErrors then
      { counted with status := .disabled, enabled := false }.clearReservation
    else retried counted
  else if maxConsecutiveErrors ≤ counted.consecutiveErrors then
    { counted with status := .failed, nextRunAt := none, backoffUntil := none }.clearReservation
  else
    match nextRun counted now with
    | .ok next => retried { counted with nextRunAt := some next }
    | .error exc => counted.markScheduleComputeFailed exc now false

theorem applySuccess_eq (success : execution.success = true) :
    job.applySuccess nextRun now = successFrom nextRun (job.counted execution now) now := by
  rw [counted, if_pos success]
  rfl

theorem applyFailure_eq (failure : execution.success = false) : job.applyFailure nextRun execution.error now =
      failureFrom nextRun (job.counted execution now) execution.error now := by
  rw [counted, failure, if_neg Bool.false_ne_true]
  rfl

variable {counted : CronJob}

theorem successFrom_exit (success : execution.success = true)
    (kept : (counted.successFrom nextRun now).2 = false) :
    Exit nextRun execution now counted (counted.successFrom nextRun now).1 := by
  unfold successFrom at kept ⊢
  by_cases oneShot : counted.scheduleKind = .at
  · rw [if_pos oneShot] at kept ⊢
    split
    next delete =>
      rw [if_pos delete] at kept
      cases kept
    next => exact .consumed success oneShot
  · rw [if_neg oneShot]
    cases computing : nextRun counted now with
    | ok next => exact .scheduled success oneShot next computing
    | error exc =>
      have failed : Exit nextRun execution now counted _ := .computeFailed oneShot exc computing
      rw [success] at failed
      exact failed

theorem failureFrom_exit (failure : execution.success = false) (error : Option String) :
    Exit nextRun execution now counted (counted.failureFrom nextRun error now) := by
  unfold failureFrom
  dsimp only
  split
  next => exact .permanent failure
  next =>
    split
    next oneShot =>
      split
      next => exact .exhausted failure
      next left => exact .retried failure oneShot (Nat.lt_of_not_le left)
    next recurring =>
      split
      next => exact .broken failure
      next left =>
        cases computing : nextRun counted now with
        | ok next => exact .rescheduled failure recurring (Nat.lt_of_not_le left) next computing
        | error exc =>
          have failed : Exit nextRun execution now counted _ := .computeFailed recurring exc computing
          rw [failure] at failed
          exact failed

theorem applyResultState_exit (ordinary : job.isRescheduledOneShot = false)
    (kept : (job.applyResultState nextRun execution now).2 = false) :
    Exit nextRun execution now (job.counted execution now) (job.applyResultState nextRun execution now).1 := by
  unfold applyResultState at kept ⊢
  rw [ordinary, if_neg Bool.false_ne_true] at kept ⊢
  cases success : execution.success with
  | true =>
    rw [success, if_pos rfl, applySuccess_eq success] at kept
    rw [if_pos rfl, applySuccess_eq success]
    exact successFrom_exit success kept
  | false =>
    rw [if_neg Bool.false_ne_true, applyFailure_eq success]
    exact failureFrom_exit success execution.error

theorem Exit.unreserved {after : CronJob} (exit : Exit nextRun execution now counted after) :
    after.Unreserved := by
  cases exit <;> exact ⟨rfl, rfl, rfl, rfl, rfl⟩

theorem Exit.runCount {after : CronJob} (exit : Exit nextRun execution now counted after) :
    after.runCount = counted.runCount := by
  cases exit <;> rfl

theorem Exit.settled {after : CronJob} (exit : Exit nextRun execution now (job.counted execution now) after)
    (due : job.nextRunAt ≠ none) : Settled job after execution now := by
  cases exit with
  | consumed success oneShot => exact .disabled rfl rfl
  | scheduled success recurring next computed =>
    refine .pending rfl counted_enabled (Option.some_ne_none next) ?_
    rw [success]
    rintro ⟨⟩
  | computeFailed recurring exc failed => exact .failed rfl rfl rfl
  | permanent failure => exact .disabled rfl rfl
  | exhausted failure => exact .disabled rfl rfl
  | broken failure => exact .failed rfl rfl rfl
  | retried failure oneShot left =>
    refine .pending rfl counted_enabled ?_ (fun _ _ => rfl)
    dsimp only [clearReservation]
    rwa [counted_nextRunAt]
  | rescheduled failure recurring left next computed =>
    exact .pending rfl counted_enabled (Option.some_ne_none next) (fun _ _ => rfl)

theorem Exit.errorCount {after : CronJob} (exit : Exit nextRun execution now (job.counted execution now) after) :
    job.errorCount + 1 ≤ after.errorCount ↔
      execution.success = false ∨ job.Uncomputable nextRun execution now := by
  have counts : (job.counted execution now).errorCount = _ := counted_errorCount
  cases exit with
  | consumed success oneShot =>
    rw [success, if_pos rfl] at counts
    rw [counted_scheduleKind] at oneShot
    simp [clearReservation, counts, success, Uncomputable, oneShot]
  | scheduled success recurring next computed =>
    rw [success, if_pos rfl] at counts
    simp [clearReservation, counts, success, Uncomputable, computed]
  | computeFailed recurring exc failed =>
    rw [counted_scheduleKind] at recurring
    have uncomputable : job.Uncomputable nextRun execution now := ⟨recurring, exc, failed⟩
    refine iff_of_true ?_ (.inr uncomputable)
    dsimp only [markScheduleComputeFailed, clearReservation]
    rw [counts]
    split <;> omega
  | permanent failure => exact iff_of_true (by simp [clearReservation, counts, failure]) (.inl failure)
  | exhausted failure => exact iff_of_true (by simp [clearReservation, counts, failure]) (.inl failure)
  | broken failure => exact iff_of_true (by simp [clearReservation, counts, failure]) (.inl failure)
  | retried failure oneShot left =>
    exact iff_of_true (by simp [clearReservation, counts, failure]) (.inl failure)
  | rescheduled failure recurring left next computed =>
    exact iff_of_true (by simp [clearReservation, counts, failure]) (.inl failure)

theorem Exit.retries {after : CronJob} (exit : Exit nextRun execution now (job.counted execution now) after)
    (status : after.status = .pending) :
    (after.scheduleKind ≠ .at ∧ after.consecutiveErrors < maxConsecutiveErrors) ∨
    (after.scheduleKind = .at ∧ after.consecutiveErrors < oneShotMaxRetries) := by
  cases exit with
  | consumed success oneShot => cases status
  | scheduled success recurring next computed =>
    refine .inl ⟨recurring, ?_⟩
    dsimp only [clearReservation]
    rw [counted_consecutiveErrors success]
    exact Nat.zero_lt_succ _
  | computeFailed recurring exc failed => cases status
  | permanent failure => cases status
  | exhausted failure => cases status
  | broken failure => cases status
  | retried failure oneShot left => exact .inr ⟨oneShot, left⟩
  | rescheduled failure recurring left next computed => exact .inl ⟨recurring, left⟩

theorem rescheduled_postExecution (rescheduled : job.isRescheduledOneShot = true) :
    PostExecution nextRun job (job.applyResultState nextRun execution now).1 execution now := by
  have due : job.nextRunAt ≠ none := by
    simp only [isRescheduledOneShot, Bool.and_eq_true, decide_eq_true_eq] at rescheduled
    exact rescheduled.1.2
  unfold applyResultState
  rw [if_pos rescheduled]
  constructor
  · exact ⟨rfl, rfl, rfl, rfl, rfl⟩
  · refine .pending rfl rfl due fun _ ordinary => ?_
    rw [rescheduled] at ordinary
    cases ordinary
  · rfl
  · cases success : execution.success with
    | true => simp [clearReservation, rescheduled]
    | false => simp [clearReservation]
  · intro _ _
    exact Nat.zero_lt_succ _
  · intro _ _
    exact Nat.zero_lt_succ _

/-- The post-execution state machine leaves a job settled, whatever the result. -/
theorem post_execution_settles (nextRun : NextRun) (job : CronJob) (execution : JobExecution) (now : Instant)
    (due : job.nextRunAt ≠ none) (kept : (job.applyResultState nextRun execution now).2 = false) :
    PostExecution nextRun job (job.applyResultState nextRun execution now).1 execution now := by
  cases ordinary : job.isRescheduledOneShot with
  | true => exact rescheduled_postExecution ordinary
  | false =>
    have exit := applyResultState_exit ordinary kept
    refine ⟨exit.unreserved, exit.settled due, exit.runCount.trans counted_runCount, ?_, ?_, ?_⟩
    · rw [ordinary, exit.errorCount]
      simp
    · intro recurring status
      obtain ⟨-, left⟩ | ⟨oneShot, -⟩ := exit.retries status
      · exact left
      · exact absurd oneShot recurring
    · intro oneShot status
      obtain ⟨recurring, -⟩ | ⟨-, left⟩ := exit.retries status
      · exact absurd oneShot recurring
      · exact left

def everyMinute : NextRun := fun _ after => .ok (after + seconds 60)

def reservedJob : CronJob where
  updatedAt := 0
  scheduleKind := .every
  cronExpr := "60"
  nextRunAt := some 0
  status := .running
  reservationToken := "token"
  scheduledRunAt := some 0

theorem post_execution_settles_success : PostExecution everyMinute reservedJob
      (reservedJob.applyResultState everyMinute { success := true } 1).1 { success := true } 1 :=
  post_execution_settles everyMinute reservedJob { success := true } 1 (by decide) (by decide)

/-- A job that an edit disabled while it ran, and that the callers leave alone, would be due again and not
enabled. -/
theorem disabled_job_is_pending :
    let job : CronJob := { reservedJob with status := .paused, enabled := false }
    let result := job.applyResultState everyMinute { success := true } 1
    result.2 = false ∧ ¬((result.1.status = .pending ∧ result.1.enabled = true ∧ result.1.nextRunAt ≠ none) ∨
      (result.1.status = .failed ∧ result.1.nextRunAt = none ∧ result.1.backoffUntil = none) ∨
      (result.1.status = .disabled ∧ result.1.enabled = false)) := by
  decide

end CronJob

end OpenSquilla.Scheduler
