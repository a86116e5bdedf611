import OpenSquilla.Shared.Dict
import OpenSquilla.Scheduler.Job

set_option autoImplicit false

namespace OpenSquilla.Scheduler

/-- The rows of `scheduler_jobs` by job identifier. Each operation is one transaction. -/
abbrev JobStore := Dict String CronJob

inductive ReservationRejectionReason
  | notFound
  | busy
  | notDue
  | disabled
  | statusConflict
  | backingOff
  deriving DecidableEq

structure JobReservation where
  job : CronJob
  token : String
  reservedAt : Instant
  reservedBy : String
  reservationSource : String
  scheduledRunAt : Option Instant
  deriving DecidableEq

structure JobReservationRejected where
  jobId : String
  reason : ReservationRejectionReason
  job : Option CronJob := none
  message : String := ""
  deriving DecidableEq

namespace JobStore

-- A conditional `UPDATE` of one row, and whether it changed the row.
def updateWhere (store : JobStore) (jobId : String) (condition : CronJob → Bool)
    (assign : CronJob → CronJob) : Bool × JobStore :=
  match store.get? jobId with
  | some row => if condition row then (true, store.set jobId (assign row)) else (false, store)
  | none => (false, store)

def deleteWhere (store : JobStore) (jobId : String) (condition : CronJob → Bool) : Bool × JobStore :=
  match store.get? jobId with
  | some row => if condition row then (true, store.erase jobId) else (false, store)
  | none => (false, store)

-- Only a column that differs between the editor's two snapshots is written.
def changed {α : Type} [DecidableEq α] (column : CronJob → α) (job previous row : CronJob) : α :=
  if column job = column previous then column row else column job

def configured (job previous row : CronJob) : CronJob :=
  { row with
    name := changed (·.name) job previous row
    cronExpr := changed (·.cronExpr) job previous row
    handlerKey := changed (·.handlerKey) job previous row
    payload := changed (·.payload) job previous row
    status := changed (·.status) job previous row
    updatedAt := changed (·.updatedAt) job previous row
    nextRunAt := changed (·.nextRunAt) job previous row
    scheduleKind := changed (·.scheduleKind) job previous row
    scheduleRaw := changed (·.scheduleRaw) job previous row
    sessionTarget := changed (·.sessionTarget) job previous row
    sessionKey := changed (·.sessionKey) job previous row
    timeoutSeconds := changed (·.timeoutSeconds) job previous row
    wakeMode := changed (·.wakeMode) job previous row
    enabled := changed (·.enabled) job previous row
    backoffUntil := changed (·.backoffUntil) job previous row
    consecutiveErrors := changed (·.consecutiveErrors) job previous row
    delivery := changed (·.delivery) job previous row
    originSessionKey := changed (·.originSessionKey) job previous row
    toolPolicy := changed (·.toolPolicy) job previous row
    tz := changed (·.tz) job previous row
    anchorAt := changed (·.anchorAt) job previous row }

def readFence (previous row : CronJob) : Bool :=
  row.updatedAt = previous.updatedAt && row.reservationToken = previous.reservationToken &&
    row.status = previous.status && row.enabled = previous.enabled &&
    row.runCount = previous.runCount && row.errorCount = previous.errorCount

def updateConfiguration (store : JobStore) (jobId : String) (job previous : CronJob) : Bool × JobStore :=
  store.updateWhere jobId (readFence previous) (configured job previous)

def dueBy (now : Instant) (instant : Option Instant) : Bool := instant.any (· ≤ now)

def reservable (requireDue : Bool) (now : Instant) (row : CronJob) : Bool :=
  row.enabled && row.status = .pending && row.reservationToken = "" &&
    (row.backoffUntil = none || dueBy now row.backoffUntil) && (!requireDue || dueBy now row.nextRunAt)

def reserved (token : String) (now : Instant) (source owner : String) (row : CronJob) : CronJob :=
  { row with
    status := .running
    reservationToken := token
    reservedAt := some now
    reservedBy := owner
    reservationSource := source
    scheduledRunAt := row.nextRunAt
    lastRunAt := some now
    updatedAt := now
    lastError := none }

def classifyReservationRejection (store : JobStore) (jobId : String) (now : Instant)
    (requireDue : Bool) : JobReservationRejected :=
  match store.get? jobId with
  | none => { jobId, reason := .notFound }
  | some job =>
    if job.reservationToken ≠ "" ∨ job.status = .running then { jobId, reason := .busy, job }
    else if !job.enabled ∨ job.status = .disabled then { jobId, reason := .disabled, job }
    else if job.backoffUntil.any (now < ·) then { jobId, reason := .backingOff, job }
    else if job.status ≠ .pending then { jobId, reason := .statusConflict, job }
    else if requireDue && !dueBy now job.nextRunAt then { jobId, reason := .notDue, job }
    else { jobId, reason := .statusConflict, job, message := "Job could not be reserved" }

def reserveJobForRun (store : JobStore) (jobId token : String) (now : Instant) (requireDue : Bool)
    (source owner : String) : Except JobReservationRejected JobReservation × JobStore :=
  let (changed, store) := store.updateWhere jobId (reservable requireDue now)
    (reserved token now source owner)
  if changed then
    match store.get? jobId with
    | none =>
      (.error ⟨jobId, .notFound, none, "Job not found after reservation"⟩, store)
    | some job =>
      (.ok ⟨job, token, job.reservedAt.getD now, owner, source, job.scheduledRunAt⟩, store)
  else (.error (store.classifyReservationRejection jobId now requireDue), store)

def reserveDueJob (store : JobStore) (jobId token : String) (now : Instant) (source owner : String) :
    Except JobReservationRejected JobReservation × JobStore :=
  store.reserveJobForRun jobId token now true source owner

def finalized (job row : CronJob) : CronJob :=
  { row with
    status := job.status
    enabled := job.enabled
    nextRunAt := job.nextRunAt
    runCount := job.runCount
    errorCount := job.errorCount
    lastError := job.lastError
    consecutiveErrors := job.consecutiveErrors
    backoffUntil := job.backoffUntil
    updatedAt := max row.updatedAt job.updatedAt }.clearReservation

def resultFence (token : String) (expectedUpdatedAt : Instant) (row : CronJob) : Bool :=
  row.reservationToken = token && row.updatedAt = expectedUpdatedAt

def finalizeReservedJob (store : JobStore) (jobId : String) (job : CronJob) (token : String)
    (expectedUpdatedAt : Instant) (delete : Bool) : Bool × JobStore :=
  if delete then store.deleteWhere jobId (resultFence token expectedUpdatedAt)
  else store.updateWhere jobId (resultFence token expectedUpdatedAt) (finalized job)

def released (now : Instant) (row : CronJob) : CronJob :=
  { row with
    status := if row.status = JobStatus.running then .pending else row.status
    updatedAt := max row.updatedAt now }.clearReservation

def releaseReservation (store : JobStore) (jobId token : String) (now : Instant) : Bool × JobStore :=
  store.updateWhere jobId (fun row => row.reservationToken = token) (released now)

def ownerFence (previous row : CronJob) : Bool :=
  row.updatedAt = previous.updatedAt && row.reservationToken = previous.reservationToken &&
    row.reservedBy = previous.reservedBy && row.status = previous.status

def recoverReservation (store : JobStore) (jobId : String) (previous : CronJob) (now : Instant) :
    Bool × JobStore :=
  store.updateWhere jobId (ownerFence previous) (released now)

@[simp] theorem configured_reservationToken (job previous row : CronJob) :
    (configured job previous row).reservationToken = row.reservationToken := rfl

@[simp] theorem reserved_reservationToken (token : String) (now : Instant) (source owner : String)
    (row : CronJob) : (reserved token now source owner row).reservationToken = token := rfl

theorem configured_raises {job previous row : CronJob} (fenced : readFence previous row = true)
    (raised : previous.updatedAt < job.updatedAt) :
    row.updatedAt < (configured job previous row).updatedAt := by
  simp only [readFence, Bool.and_eq_true, decide_eq_true_eq] at fenced
  have written : (configured job previous row).updatedAt = job.updatedAt := if_neg raised.ne'
  rw [written, fenced.1.1.1.1.1]
  exact raised

section Rows

variable (store : JobStore) (jobId : String) (condition : CronJob → Bool)
  (assign : CronJob → CronJob)

theorem updateWhere_cases : store.updateWhere jobId condition assign = (false, store) ∨
    ∃ row, store.get? jobId = some row ∧ condition row = true ∧
      store.updateWhere jobId condition assign = (true, store.set jobId (assign row)) := by
  unfold updateWhere
  split
  next row found =>
    split
    next met => exact .inr ⟨row, found, met, rfl⟩
    next => exact .inl rfl
  next => exact .inl rfl

theorem deleteWhere_cases : store.deleteWhere jobId condition = (false, store) ∨
    ∃ row, store.get? jobId = some row ∧ condition row = true ∧
      store.deleteWhere jobId condition = (true, store.erase jobId) := by
  unfold deleteWhere
  split
  next row found =>
    split
    next met => exact .inr ⟨row, found, met, rfl⟩
    next => exact .inl rfl
  next => exact .inl rfl

theorem reserveJobForRun_cases (token : String) (now : Instant) (requireDue : Bool) (source owner : String) :
    (∃ rejection, store.reserveJobForRun jobId token now requireDue source owner =
      (.error rejection, store)) ∨
    ∃ row, store.get? jobId = some row ∧ reservable requireDue now row = true ∧
      store.reserveJobForRun jobId token now requireDue source owner =
        (.ok ⟨reserved token now source owner row, token, now, owner, source, row.nextRunAt⟩,
          store.set jobId (reserved token now source owner row)) := by
  unfold reserveJobForRun
  rcases updateWhere_cases store jobId (reservable requireDue now) (reserved token now source owner)
    with unchanged | ⟨row, found, met, assigned⟩
  · rw [unchanged]
    exact .inl ⟨_, rfl⟩
  · rw [assigned]
    refine .inr ⟨row, found, met, ?_⟩
    simp [reserved]

end Rows

end JobStore

end OpenSquilla.Scheduler
