import OpenSquilla.Shared.Runs
import OpenSquilla.Scheduler.Store

set_option autoImplicit false

namespace OpenSquilla.Scheduler

open Runs JobStore

inductive Event
  | added (jobId : String)
  | reserved (jobId token : String)
  | cleared (jobId token : String)
  | committed (jobId token : String)
  | edited (jobId : String)
  | deleted (jobId : String)
  deriving DecidableEq

def Event.grantedToken? : Event → Option String
  | .reserved _ token => some token
  | _ => none

-- An actor between its read of a row and the write that depends on it.
inductive Task
  | finishing (jobId token : String) (outcome : Outcome) (current : CronJob)
  | recovering (jobId : String) (previous : CronJob)
  | editing (jobId : String) (previous : CronJob)

structure SchedulerState where
  store : JobStore := .empty
  tasks : Dict Nat Task := .empty
  -- what happened so far; no operation reads it
  history : List Event := []

/-- A store call, with the actor whose snapshot it takes or spends. Clock readings, fresh
identifiers and the outcomes of runs are inputs. -/
inductive SchedulerOp
  | add (jobId : String) (job : CronJob)
  | reserve (jobId token : String) (now : Instant) (requireDue : Bool) (source owner : String)
  | readResult (actor : Nat) (jobId token : String) (outcome : Outcome)
  | writeResult (actor : Nat) (now : Instant)
  | release (jobId token : String) (now : Instant)
  | readRecovery (actor : Nat) (jobId : String)
  | writeRecovery (actor : Nat) (now : Instant)
  | readEdit (actor : Nat) (jobId : String)
  | writeEdit (actor : Nat) (edit : Edit)
  | delete (jobId : String)

def SchedulerOp.actor? : SchedulerOp → Option Nat
  | .readResult actor .. | .writeResult actor _ | .readRecovery actor _ | .writeRecovery actor _
  | .readEdit actor _ | .writeEdit actor _ => some actor
  | .add .. | .reserve .. | .release .. | .delete _ => none

namespace SchedulerState

/-- The write of a round of `apply_reserved_result` or `finalize_reserved_missing_handler`. -/
def finish (nextRun : NextRun) (store : JobStore) (jobId token : String) (outcome : Outcome)
    (current : CronJob) (now : Instant) : JobStore × List Event :=
  let (job, delete) := outcome.result nextRun current now
  let (committed, store) := store.finalizeReservedJob jobId job token current.updatedAt delete
  (store,
    if committed then .committed jobId token :: if delete then [.deleted jobId] else [] else [])

/-- The write of a round of the startup recovery, which leaves unreserved idle jobs alone. -/
def recover (store : JobStore) (jobId : String) (previous : CronJob) (now : Instant) : JobStore × List Event :=
  if previous.status = .running ∨ previous.reservationToken ≠ "" then
    let (cleared, store) := store.recoverReservation jobId previous now
    (store, if cleared then [.cleared jobId previous.reservationToken] else [])
  else (store, [])

def change (nextRun : NextRun) (store : JobStore) (jobId : String) (edit : Edit) (previous : CronJob) :
    JobStore × List Event :=
  match edit.edited nextRun previous with
  | .ok job =>
    let (edited, store) := store.updateConfiguration jobId job previous
    (store, if edited then [.edited jobId] else [])
  | .error _ => (store, [])

def effect (nextRun : NextRun) (s : SchedulerState) : SchedulerOp → JobStore × List Event
  | .add jobId job => (s.store.set jobId job.clearReservation, [.added jobId])
  | .reserve jobId token now requireDue source owner =>
    let (result, store) := s.store.reserveJobForRun jobId token now requireDue source owner
    (store, match result with
      | .ok reservation => [.reserved jobId reservation.token]
      | .error _ => [])
  | .release jobId token now =>
    let (released, store) := s.store.releaseReservation jobId token now
    (store, if released then [.cleared jobId token] else [])
  | .delete jobId =>
    (s.store.erase jobId, match s.store.get? jobId with
      | some row => [.cleared jobId row.reservationToken, .deleted jobId]
      | none => [])
  | .writeResult actor now =>
    match s.tasks.get? actor with
    | some (.finishing jobId token outcome current) =>
      finish nextRun s.store jobId token outcome current now
    | _ => (s.store, [])
  | .writeRecovery actor now =>
    match s.tasks.get? actor with
    | some (.recovering jobId previous) => recover s.store jobId previous now
    | _ => (s.store, [])
  | .writeEdit actor edit =>
    match s.tasks.get? actor with
    | some (.editing jobId previous) => change nextRun s.store jobId edit previous
    | _ => (s.store, [])
  | .readResult .. | .readRecovery .. | .readEdit .. => (s.store, [])

def emits (nextRun : NextRun) (s : SchedulerState) (op : SchedulerOp) : List Event :=
  (s.effect nextRun op).2

/-- The snapshot a read takes. A round that fails drops its snapshot and reads again. -/
def snapshot (s : SchedulerState) (op : SchedulerOp) : Option Task :=
  match op with
  | .readResult _ jobId token outcome =>
    match s.store.get? jobId with
    | some current =>
      if current.reservationToken = token then some (.finishing jobId token outcome current) else none
    | none => none
  | .readRecovery _ jobId => (s.store.get? jobId).map (.recovering jobId)
  | .readEdit _ jobId => (s.store.get? jobId).map (.editing jobId)
  | _ => none

def tasksAfter (s : SchedulerState) (op : SchedulerOp) : Dict Nat Task :=
  match op.actor? with
  | none => s.tasks
  | some actor =>
    match s.snapshot op with
    | some task => s.tasks.set actor task
    | none => s.tasks.erase actor

def step (nextRun : NextRun) (s : SchedulerState) (op : SchedulerOp) : SchedulerState where
  store := (s.effect nextRun op).1
  tasks := s.tasksAfter op
  history := s.history ++ s.emits nextRun op

/-- How the calls are made: job identifiers and tokens are fresh, and whoever finishes or
releases a run does so under a token it was given. -/
def Permitted (s : SchedulerState) : SchedulerOp → Prop
  | .add jobId _ => .added jobId ∉ s.history
  | .reserve _ token .. => token ≠ "" ∧ some token ∉ s.history.map Event.grantedToken?
  | .readResult _ jobId token _ | .release jobId token _ => .reserved jobId token ∈ s.history
  | _ => True

instance (s : SchedulerState) : ∀ op, Decidable (s.Permitted op)
  | .add jobId _ => inferInstanceAs (Decidable (.added jobId ∉ s.history))
  | .reserve _ token .. =>
    inferInstanceAs (Decidable (token ≠ "" ∧ some token ∉ s.history.map Event.grantedToken?))
  | .readResult _ jobId token _ | .release jobId token _ =>
    inferInstanceAs (Decidable (.reserved jobId token ∈ s.history))
  | .writeResult .. | .readRecovery .. | .writeRecovery .. | .readEdit .. | .writeEdit .. | .delete _ =>
    isTrue trivial

inductive Effect (s : SchedulerState) (op : SchedulerOp) : JobStore → List Event → Prop
  | idle : Effect s op s.store []
  | added (jobId : String) (job : CronJob) (fresh : .added jobId ∉ s.history)
      (free : job.reservationToken = "") : Effect s op (s.store.set jobId job) [.added jobId]
  | reserved (jobId token : String) (row : CronJob) (now : Instant) (requireDue : Bool)
      (source owner : String) (found : s.store.get? jobId = some row)
      (free : reservable requireDue now row = true) (named : token ≠ "")
      (fresh : ∀ other, .reserved other token ∉ s.history)
      (asked : op = .reserve jobId token now requireDue source owner) :
      Effect s op (s.store.set jobId (JobStore.reserved token now source owner row))
        [.reserved jobId token]
  | cleared (jobId : String) (row : CronJob) (now : Instant)
      (found : s.store.get? jobId = some row) :
      Effect s op (s.store.set jobId (JobStore.released now row)) [.cleared jobId row.reservationToken]
  | committed (jobId : String) (row job : CronJob) (found : s.store.get? jobId = some row)
      (issued : .reserved jobId row.reservationToken ∈ s.history) :
      Effect s op (s.store.set jobId (JobStore.finalized job row)) [.committed jobId row.reservationToken]
  | removed (jobId : String) (row : CronJob) (found : s.store.get? jobId = some row)
      (issued : .reserved jobId row.reservationToken ∈ s.history) :
      Effect s op (s.store.erase jobId) [.committed jobId row.reservationToken, .deleted jobId]
  | edited (jobId : String) (row job previous : CronJob) (found : s.store.get? jobId = some row)
      (fenced : readFence previous row = true) (raised : previous.updatedAt < job.updatedAt) :
      Effect s op (s.store.set jobId (configured job previous row)) [.edited jobId]
  | deleted (jobId : String) (row : CronJob) (found : s.store.get? jobId = some row) :
      Effect s op (s.store.erase jobId) [.cleared jobId row.reservationToken, .deleted jobId]

-- Whoever is to finish a run was given the token of the row it read.
def Holding (s : SchedulerState) : Prop :=
  ∀ actor jobId token outcome current,
    s.tasks.get? actor = some (.finishing jobId token outcome current) →
      .reserved jobId token ∈ s.history

variable {nextRun : NextRun} {s : SchedulerState} {op : SchedulerOp} {jobId token : String}

theorem finish_effect (issued : .reserved jobId token ∈ s.history)
    (outcome : Outcome) (current : CronJob) (now : Instant) :
    Effect s op (finish nextRun s.store jobId token outcome current now).1
      (finish nextRun s.store jobId token outcome current now).2 := by
  unfold finish finalizeReservedJob
  generalize outcome.result nextRun current now = result
  obtain ⟨job, delete⟩ := result
  cases delete with
  | true =>
    rcases deleteWhere_cases s.store jobId (resultFence token current.updatedAt) with
      unchanged | ⟨row, found, met, erased⟩
    · simp only [if_true, unchanged]
      exact .idle
    · simp only [resultFence, Bool.and_eq_true, decide_eq_true_eq] at met
      obtain ⟨rfl, _⟩ := met
      simp only [if_true, erased]
      exact .removed jobId row found issued
  | false =>
    rcases updateWhere_cases s.store jobId (resultFence token current.updatedAt) (finalized job) with
      unchanged | ⟨row, found, met, assigned⟩
    · simp only [Bool.false_eq_true, if_false, unchanged]
      exact .idle
    · simp only [resultFence, Bool.and_eq_true, decide_eq_true_eq] at met
      obtain ⟨rfl, _⟩ := met
      simp only [Bool.false_eq_true, if_false, if_true, assigned]
      exact .committed jobId row job found issued

theorem recover_effect (jobId : String) (previous : CronJob) (now : Instant) :
    Effect s op (recover s.store jobId previous now).1 (recover s.store jobId previous now).2 := by
  unfold recover recoverReservation
  split
  · rcases updateWhere_cases s.store jobId (ownerFence previous) (released now) with
      unchanged | ⟨row, found, met, assigned⟩
    · simp only [unchanged]
      exact .idle
    · simp only [ownerFence, Bool.and_eq_true, decide_eq_true_eq] at met
      simp only [assigned, if_true, ← met.1.1.2]
      exact .cleared jobId row now found
  · exact .idle

theorem edited_raises {edit : Edit} {previous job : CronJob}
    (edited : edit.edited nextRun previous = .ok job) : previous.updatedAt < job.updatedAt := by
  unfold Edit.edited at edited
  cases applied : edit.apply nextRun previous with
  | error exc =>
    rw [applied] at edited
    cases edited
  | ok job' =>
    rw [applied] at edited
    obtain rfl := Except.ok.inj edited
    exact lt_max_of_lt_right (Int.lt_succ previous.updatedAt)

theorem change_effect (jobId : String) (edit : Edit) (previous : CronJob) :
    Effect s op (change nextRun s.store jobId edit previous).1
      (change nextRun s.store jobId edit previous).2 := by
  unfold change updateConfiguration
  split
  next job applied =>
    rcases updateWhere_cases s.store jobId (readFence previous) (configured job previous) with
      unchanged | ⟨row, found, met, assigned⟩
    · simp only [unchanged]
      exact .idle
    · simp only [assigned, if_true]
      exact .edited jobId row job previous found met (edited_raises applied)
  next => exact .idle

theorem effect_cases (nextRun : NextRun) (holding : s.Holding) (permitted : s.Permitted op) :
    Effect s op (s.step nextRun op).store (s.emits nextRun op) := by
  cases op with
  | add jobId job => exact .added jobId job.clearReservation permitted rfl
  | reserve jobId token now requireDue source owner =>
    simp only [step, emits, effect]
    rcases reserveJobForRun_cases s.store jobId token now requireDue source owner with
      ⟨rejection, rejected⟩ | ⟨row, found, free, reserved⟩
    · rw [rejected]
      exact .idle
    · rw [reserved]
      refine .reserved jobId token row now requireDue source owner found free permitted.1 ?_ rfl
      exact fun other granted => permitted.2 (List.mem_map_of_mem granted)
  | release jobId token now =>
    simp only [step, emits, effect]
    rcases updateWhere_cases s.store jobId (fun row => row.reservationToken = token) (released now)
      with unchanged | ⟨row, found, met, assigned⟩
    · simp only [releaseReservation, unchanged]
      exact .idle
    · obtain rfl := of_decide_eq_true met
      simp only [releaseReservation, assigned]
      exact .cleared jobId row now found
  | delete jobId =>
    simp only [step, emits, effect]
    cases found : s.store.get? jobId with
    | none =>
      rw [Dict.erase_of_absent found]
      exact .idle
    | some row => exact .deleted jobId row found
  | writeResult actor now =>
    simp only [step, emits, effect]
    split
    next jobId token outcome current task =>
      exact finish_effect (holding actor jobId token outcome current task) outcome current now
    next => exact .idle
  | writeRecovery actor now =>
    simp only [step, emits, effect]
    split
    next jobId previous task => exact recover_effect jobId previous now
    next => exact .idle
  | writeEdit actor edit =>
    simp only [step, emits, effect]
    split
    next jobId previous task => exact change_effect jobId edit previous
    next => exact .idle
  | readResult actor jobId token outcome => exact .idle
  | readRecovery actor jobId => exact .idle
  | readEdit actor jobId => exact .idle

variable {actor : Nat}

theorem tasks_cases {task : Task} (found : (s.step nextRun op).tasks.get? actor = some task) :
    s.tasks.get? actor = some task ∨ s.snapshot op = some task := by
  simp only [step, tasksAfter] at found
  split at found
  · exact .inl found
  · split at found
    next taken =>
      rw [Dict.get?_set] at found
      split at found
      · exact .inr (taken.trans found)
      · exact .inl found
    next =>
      rw [Dict.get?_erase] at found
      split at found
      · cases found
      · exact .inl found

theorem tasks_other (other : op.actor? ≠ some actor) :
    (s.step nextRun op).tasks.get? actor = s.tasks.get? actor := by
  simp only [step, tasksAfter]
  split
  · rfl
  next acting same =>
    have different : actor ≠ acting := by
      rintro rfl
      exact other same
    split
    · rw [Dict.get?_set, if_neg different]
    · rw [Dict.get?_erase, if_neg different]

theorem run_tasks_other {ops : List SchedulerOp} (others : ∀ op ∈ ops, op.actor? ≠ some actor) :
    (run (step nextRun) s ops).tasks.get? actor = s.tasks.get? actor := by
  apply run_constant_along (fun s : SchedulerState => s.tasks.get? actor)
  exact (along_of_forall s ops others).imp fun _ _ other => tasks_other other

theorem tasks_readResult {outcome : Outcome} {task : Task}
    (found : (s.step nextRun (.readResult actor jobId token outcome)).tasks.get? actor = some task) :
    ∃ current, s.store.get? jobId = some current ∧ current.reservationToken = token ∧
      task = .finishing jobId token outcome current := by
  simp only [step, tasksAfter, SchedulerOp.actor?, snapshot] at found
  cases row : s.store.get? jobId with
  | none => simp [row, Dict.get?_erase] at found
  | some current =>
    by_cases under : current.reservationToken = token
    · simp only [row, under, if_true, Dict.get?_set, Option.some.injEq] at found
      exact ⟨current, rfl, under, found.symm⟩
    · simp [row, under, Dict.get?_erase] at found

theorem tasks_readEdit {jobId : String} {task : Task}
    (found : (s.step nextRun (.readEdit actor jobId)).tasks.get? actor = some task) :
    ∃ previous, s.store.get? jobId = some previous ∧ task = .editing jobId previous := by
  simp only [step, tasksAfter, SchedulerOp.actor?, snapshot] at found
  cases row : s.store.get? jobId with
  | none => simp [row, Dict.get?_erase] at found
  | some previous =>
    simp only [row, Option.map_some, Dict.get?_set, if_true, Option.some.injEq] at found
    exact ⟨previous, rfl, found.symm⟩

theorem edited_by_task {edit : Edit} {jobId : String}
    (edited : .edited jobId ∈ s.emits nextRun (.writeEdit actor edit)) :
    ∃ previous row, s.tasks.get? actor = some (.editing jobId previous) ∧
      s.store.get? jobId = some row ∧ readFence previous row = true := by
  simp only [emits, effect] at edited
  split at edited
  next taskId previous task =>
    simp only [change, updateConfiguration] at edited
    split at edited
    next job applied =>
      rcases updateWhere_cases s.store taskId (readFence previous) (configured job previous) with
        unchanged | ⟨row, found, met, assigned⟩
      · simp [unchanged] at edited
      · simp only [assigned, if_true, List.mem_singleton, Event.edited.injEq] at edited
        subst edited
        exact ⟨previous, row, task, found, met⟩
    next => cases edited
  next => cases edited

theorem committed_by_task {now : Instant}
    (committed : .committed jobId token ∈ s.emits nextRun (.writeResult actor now)) :
    ∃ outcome current row, s.tasks.get? actor = some (.finishing jobId token outcome current) ∧
      s.store.get? jobId = some row ∧ resultFence token current.updatedAt row = true := by
  simp only [emits, effect] at committed
  split at committed
  next taskId taskToken outcome current task =>
    simp only [finish, finalizeReservedJob] at committed
    generalize outcome.result nextRun current now = result at committed
    obtain ⟨job, delete⟩ := result
    cases delete with
    | true =>
      simp only [if_true] at committed
      rcases deleteWhere_cases s.store taskId (resultFence taskToken current.updatedAt) with
        unchanged | ⟨row, found, met, erased⟩
      · simp [unchanged] at committed
      · simp only [erased, if_true, List.mem_cons, Event.committed.injEq, reduceCtorEq,
          List.not_mem_nil, or_false] at committed
        obtain ⟨rfl, rfl⟩ := committed
        exact ⟨outcome, current, row, task, found, met⟩
    | false =>
      simp only [Bool.false_eq_true, if_false] at committed
      rcases updateWhere_cases s.store taskId (resultFence taskToken current.updatedAt)
        (finalized job) with unchanged | ⟨row, found, met, assigned⟩
      · simp [unchanged] at committed
      · simp only [assigned, if_true, List.mem_singleton, Event.committed.injEq] at committed
        obtain ⟨rfl, rfl⟩ := committed
        exact ⟨outcome, current, row, task, found, met⟩
  next => cases committed

theorem committed_carried {store : JobStore} {events : List Event}
    (effect : Effect s op store events) (committed : .committed jobId token ∈ events) :
    ∃ row, s.store.get? jobId = some row ∧ row.reservationToken = token := by
  cases effect with
  | committed other row job found =>
    obtain ⟨rfl, rfl⟩ := Event.committed.inj (List.mem_singleton.mp committed)
    exact ⟨row, found, rfl⟩
  | removed other row found =>
    simp only [List.mem_cons, Event.committed.injEq, reduceCtorEq, List.not_mem_nil, or_false]
      at committed
    obtain ⟨rfl, rfl⟩ := committed
    exact ⟨row, found, rfl⟩
  | _ => simp at committed

theorem step_holding (holding : s.Holding) (permitted : s.Permitted op) : (s.step nextRun op).Holding := by
  intro actor jobId token outcome current found
  apply List.mem_append_left
  rcases tasks_cases found with before | taken
  · exact holding actor jobId token outcome current before
  · cases op with
    | readResult reader readId readToken readOutcome =>
      simp only [snapshot] at taken
      split at taken
      · split at taken
        · obtain ⟨rfl, rfl, _⟩ := Task.finishing.inj (Option.some.inj taken)
          exact permitted
        · cases taken
      · cases taken
    | readRecovery reader readId =>
      obtain ⟨row, _, different⟩ := Option.map_eq_some_iff.mp taken
      cases different
    | readEdit reader readId =>
      obtain ⟨row, _, different⟩ := Option.map_eq_some_iff.mp taken
      cases different
    | _ => cases taken

end SchedulerState

end OpenSquilla.Scheduler
