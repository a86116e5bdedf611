import Mathlib.Data.Rat.Defs
import Mathlib.Order.MinMax
import Mathlib.Data.List.Infix

set_option autoImplicit false

namespace OpenSquilla.Scheduler

/-- An instant in microseconds. The store keeps instants as UTC text whose order is theirs. -/
abbrev Instant := Int

def seconds (count : Int) : Int := count * 1000000

inductive ScheduleKind
  | cron
  | at
  | every
  deriving DecidableEq

inductive SessionTarget
  | main
  | isolated
  | current
  | session
  deriving DecidableEq

inductive CronWakeMode
  | nextHeartbeat
  | now
  deriving DecidableEq

inductive JobStatus
  | pending
  | running
  | paused
  | failed
  | disabled
  | deleted
  deriving DecidableEq

/-- A job, or its row, under the identifier that is its key in the store. The columns that
no operation below reads or writes are left out. -/
structure CronJob where
  name : String := ""
  cronExpr : String := ""
  handlerKey : String := ""
  payload : String := "{}"
  status : JobStatus := .pending
  updatedAt : Instant
  lastRunAt : Option Instant := none
  nextRunAt : Option Instant := none
  runCount : Nat := 0
  errorCount : Nat := 0
  lastError : Option String := none
  jitterSeconds : Rat := 0
  scheduleKind : ScheduleKind := .cron
  scheduleRaw : String := ""
  tz : String := ""
  anchorAt : Option Instant := none
  sessionTarget : SessionTarget := .isolated
  sessionKey : String := ""
  originSessionKey : String := ""
  timeoutSeconds : Rat := 600
  wakeMode : CronWakeMode := .now
  deleteAfterRun : Bool := false
  enabled : Bool := true
  backoffUntil : Option Instant := none
  consecutiveErrors : Nat := 0
  delivery : String := "{}"
  reservationToken : String := ""
  reservedAt : Option Instant := none
  reservedBy : String := ""
  reservationSource : String := ""
  scheduledRunAt : Option Instant := none
  toolPolicy : String := "{}"
  deriving DecidableEq

structure JobExecution where
  success : Bool := false
  error : Option String := none
  deriving DecidableEq

-- `_next_run`: the next instant after the given one, or the error it raises.
abbrev NextRun := CronJob → Instant → Except String Instant

inductive ErrorClass
  | permanent
  | transient
  deriving DecidableEq

def transientErrorPatterns : List String :=
  ["rate limit", "too many requests", "resource exhausted", "429", "529", "overload", "timeout",
    "timed out", "econnreset", "fetch failed", "socket", "network", "service unavailable",
    "bad gateway", "gateway timeout", "502", "503", "504", "cloudflare"]

def permanentErrorPatterns : List String :=
  ["unauthorized", "invalid api key", "invalid_api_key", "forbidden", "401", "403", "validation",
    "invalid request", "no handler registered"]

/-- `str.lower`, as far as the patterns can tell: two letters outside ASCII become ASCII ones. -/
def lower (text : String) : List Char :=
  text.toList.flatMap (fun letter =>
    if letter = '\u212a' then ['k']
    else if letter = '\u0130' then ['i', '\u0307']
    else [letter.toLower])

def classifyError (errorText : Option String) : ErrorClass :=
  match errorText with
  | none => .transient
  | some text =>
    if permanentErrorPatterns.any (fun pattern => pattern.toList <:+: lower text) then .permanent
    else if transientErrorPatterns.any (fun pattern => pattern.toList <:+: lower text) then .transient
    else .transient

def backoffSchedule : List Int := [30, 60, 300, 900, 3600]
def maxConsecutiveErrors : Nat := 5
def oneShotMaxRetries : Nat := 3

def computeBackoff (consecutiveErrors : Nat) : Int :=
  if consecutiveErrors = 0 then 0
  else seconds (backoffSchedule.getD (min (consecutiveErrors - 1) (backoffSchedule.length - 1)) 0)

namespace CronJob

-- The occurrence an active reservation runs was replaced by a new one-shot time.
def isRescheduledOneShot (job : CronJob) : Bool :=
  job.scheduleKind = .at && job.reservationToken ≠ "" && job.scheduledRunAt ≠ none &&
    job.nextRunAt ≠ none && job.nextRunAt ≠ job.scheduledRunAt

def clearReservation (job : CronJob) : CronJob :=
  { job with
    reservationToken := ""
    reservedAt := none
    reservedBy := ""
    reservationSource := ""
    scheduledRunAt := none }

def markScheduleComputeFailed (job : CronJob) (exc : String) (now : Instant) (incrementError : Bool) :
    CronJob :=
  { job with
    errorCount := if incrementError then job.errorCount + 1 else job.errorCount
    consecutiveErrors := if incrementError then job.consecutiveErrors + 1 else job.consecutiveErrors
    status := .failed
    lastError := some ("schedule compute failed: " ++ exc)
    updatedAt := now
    backoffUntil := none
    nextRunAt := none }.clearReservation

def applySuccess (nextRun : NextRun) (job : CronJob) (now : Instant) : CronJob × Bool :=
  let job := { job with
    consecutiveErrors := 0
    backoffUntil := none
    lastError := none
    runCount := job.runCount + 1
    updatedAt := now }
  if job.scheduleKind = .at then
    let job := job.clearReservation
    if job.deleteAfterRun then (job, true)
    else ({ job with status := .disabled, enabled := false }, false)
  else
    match nextRun job now with
    | .ok next => ({ job with nextRunAt := some next, status := .pending }.clearReservation, false)
    | .error exc => (job.markScheduleComputeFailed exc now true, false)

def applyFailure (nextRun : NextRun) (job : CronJob) (error : Option String) (now : Instant) : CronJob :=
  let job := { job with
    consecutiveErrors := job.consecutiveErrors + 1
    errorCount := job.errorCount + 1
    lastError := error
    runCount := job.runCount + 1
    updatedAt := now }
  let retried := fun (job : CronJob) =>
    { job with
      backoffUntil := some (now + computeBackoff job.consecutiveErrors)
      status := .pending }.clearReservation
  -- authorization and configuration errors are not retried
  if classifyError error = .permanent then
    { job with
      status := .disabled
      enabled := false
      nextRunAt := none
      backoffUntil := none }.clearReservation
  else if job.scheduleKind = .at then
    if oneShotMaxRetries ≤ job.consecutiveErrors then
      { job with status := .disabled, enabled := false }.clearReservation
    else retried job
  else if maxConsecutiveErrors ≤ job.consecutiveErrors then
    { job with status := .failed, nextRunAt := none, backoffUntil := none }.clearReservation
  else
    match nextRun job now with
    | .ok next => retried { job with nextRunAt := some next }
    | .error exc => job.markScheduleComputeFailed exc now false

/-- `_apply_result_state`: the job after an execution, and whether it is to be deleted. -/
def applyResultState (nextRun : NextRun) (job : CronJob) (execution : JobExecution) (now : Instant) :
    CronJob × Bool :=
  if job.isRescheduledOneShot then
    -- the old occurrence is accounted for and the replacement is left to run
    ({ job with
      runCount := job.runCount + 1
      errorCount := if execution.success then job.errorCount else job.errorCount + 1
      lastError := if execution.success then none else execution.error
      updatedAt := now
      status := .pending
      consecutiveErrors := 0
      backoffUntil := none }.clearReservation, false)
  else if execution.success then job.applySuccess nextRun now
  else (job.applyFailure nextRun execution.error now, false)

/-- What `finalize_reserved_missing_handler` makes of a job that is neither paused nor disabled. -/
def applyMissingHandler (job : CronJob) (error : String) (now : Instant) : CronJob :=
  { job with
    status := if job.isRescheduledOneShot then .pending else .failed
    consecutiveErrors := if job.isRescheduledOneShot then 0 else job.consecutiveErrors + 1
    nextRunAt := if job.isRescheduledOneShot then job.nextRunAt else none
    errorCount := job.errorCount + 1
    lastError := some error
    backoffUntil := none
    updatedAt := now }

end CronJob

inductive Outcome
  | executed (execution : JobExecution)
  | missingHandler (error : String)
  deriving DecidableEq

/-- The result computed from the row as it was read, and whether the job is to be deleted. A
pause or a disabling during the run is kept. -/
def Outcome.result (nextRun : NextRun) (outcome : Outcome) (current : CronJob) (now : Instant) :
    CronJob × Bool :=
  if current.status = .paused ∨ current.status = .disabled then (current, false)
  else
    match outcome with
    | .executed execution => current.applyResultState nextRun execution now
    | .missingHandler error => (current.applyMissingHandler error now, false)

def digits? (text : String) : Option Nat :=
  if text ≠ "" ∧ text.toList.all Char.isDigit then
    some (text.toList.foldl (fun value digit => value * 10 + (digit.toNat - 48)) 0)
  else none

def maxInstant : Instant := 253402300799999999

def CronJob.applyPause (job : CronJob) (now : Instant) : CronJob :=
  { job with status := .paused, updatedAt := now }

def CronJob.applyResume (nextRun : NextRun) (job : CronJob) (now : Instant) : Except String CronJob :=
  let job := { job with
    status := .pending
    enabled := true
    backoffUntil := none
    consecutiveErrors := 0
    updatedAt := now }
  match job.scheduleKind, digits? job.cronExpr with
  | .at, _ => .ok job
  | .every, some interval =>
    if job.anchorAt.isSome then
      (nextRun job now).map (fun next => { job with nextRunAt := some next })
    else if maxInstant < now + seconds interval then .error "date value out of range"
    else .ok { job with nextRunAt := some (now + seconds interval) }
  | _, _ => (nextRun job now).map (fun next => { job with nextRunAt := some next })

-- The edits. `update` stands for `_apply_update` under any patch and may raise.
inductive Edit
  | update (apply : CronJob → Except String CronJob)
  | pause (now : Instant)
  | resume (now : Instant)

def Edit.apply (nextRun : NextRun) (edit : Edit) (job : CronJob) : Except String CronJob :=
  match edit with
  | .update apply => apply job
  | .pause now => .ok (job.applyPause now)
  | .resume now => job.applyResume nextRun now

/-- The job that `_edit` writes. A frozen or backwards clock must not make two edits share
their `updatedAt`. -/
def Edit.edited (nextRun : NextRun) (edit : Edit) (previous : CronJob) : Except String CronJob :=
  (edit.apply nextRun previous).map (fun job =>
    { job with updatedAt := max job.updatedAt (previous.updatedAt + 1) })

end OpenSquilla.Scheduler
