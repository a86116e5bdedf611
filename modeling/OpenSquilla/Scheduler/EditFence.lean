import OpenSquilla.Scheduler.Reservation

set_option autoImplicit false

namespace OpenSquilla.Scheduler

open Runs JobStore

namespace SchedulerState

-- The instant of the last change of the row. A job that is gone stays gone.
def stampOf (jobId : String) (store : JobStore) : WithTop Instant :=
  match store.get? jobId with
  | some row => row.updatedAt
  | none => ⊤

theorem stampOf_of_found {store : JobStore} {jobId : String} {row : CronJob}
    (found : store.get? jobId = some row) : stampOf jobId store = row.updatedAt := by
  rw [stampOf, found]

/-- A reservation that is granted reads a clock that is not behind the row it reserves. -/
def ClockAhead (jobId : String) (s : SchedulerState) : SchedulerOp → Prop
  | .reserve other _ now requireDue _ _ => other = jobId → ∀ row ∈ s.store.get? jobId,
      reservable requireDue now row = true → row.updatedAt ≤ now
  | _ => True

instance (jobId : String) (s : SchedulerState) : ∀ op, Decidable (ClockAhead jobId s op)
  | .reserve other _ now requireDue _ _ =>
    inferInstanceAs (Decidable (other = jobId → ∀ row ∈ s.store.get? jobId,
      reservable requireDue now row = true → row.updatedAt ≤ now))
  | .add .. | .readResult .. | .writeResult .. | .release .. | .readRecovery .. | .writeRecovery ..
  | .readEdit .. | .writeEdit .. | .delete _ => isTrue trivial

section Fence

variable {nextRun : NextRun} {s : SchedulerState} {op : SchedulerOp} {store : JobStore}
  {events : List Event} {jobId : String}

theorem stampOf_set_other {other : String} (row : CronJob) (different : jobId ≠ other) :
    stampOf jobId (s.store.set other row) = stampOf jobId s.store := by
  rw [stampOf, stampOf, Dict.get?_set, if_neg different]

theorem stampOf_erase_le (other : String) : stampOf jobId s.store ≤ stampOf jobId (s.store.erase other) := by
  by_cases here : jobId = other
  · simp [stampOf, Dict.get?_erase, here]
  · rw [stampOf, stampOf, Dict.get?_erase, if_neg here]

theorem effect_stampOf_le (known : .added jobId ∈ s.history) (ahead : s.ClockAhead jobId op)
    (effect : Effect s op store events) : stampOf jobId s.store ≤ stampOf jobId store := by
  -- a write to the row itself has to raise the stamp, one to another row leaves it
  have assigned : ∀ other (old new : CronJob), s.store.get? other = some old →
      (jobId = other → old.updatedAt ≤ new.updatedAt) →
      stampOf jobId s.store ≤ stampOf jobId (s.store.set other new) := by
    intro other old new found raised
    by_cases here : jobId = other
    · have after := raised here
      subst here
      rw [stampOf_of_found found, stampOf_of_found (by rw [Dict.get?_set, if_pos rfl])]
      exact WithTop.coe_le_coe.mpr after
    · exact (stampOf_set_other new here).ge
  cases effect with
  | idle => exact le_refl _
  | added other job fresh free =>
    refine (stampOf_set_other job ?_).ge
    rintro rfl
    exact fresh known
  | reserved other token row now requireDue source owner found free named fresh asked =>
    subst asked
    refine assigned other row _ found fun here => ?_
    subst here
    exact ahead rfl row found free
  | cleared other row now found => exact assigned other row _ found fun _ => le_max_left _ _
  | committed other row job found => exact assigned other row _ found fun _ => le_max_left _ _
  | removed other row found => exact stampOf_erase_le other
  | edited other row job previous found fenced raised =>
    exact assigned other row _ found fun _ => (configured_raises fenced raised).le
  | deleted other row found => exact stampOf_erase_le other

theorem effect_stampOf_lt (effect : Effect s op store events) (edited : .edited jobId ∈ events) :
    stampOf jobId s.store < stampOf jobId store := by
  cases effect with
  | edited other row job previous found fenced raised =>
    obtain rfl := Event.edited.inj (List.mem_singleton.mp edited)
    rw [stampOf_of_found found, stampOf_of_found (by rw [Dict.get?_set, if_pos rfl])]
    exact WithTop.coe_lt_coe.mpr (configured_raises fenced raised)
  | _ => simp at edited

end Fence

theorem edit_fenced_while_clocks_ahead (nextRun : NextRun) (ops : List SchedulerOp)
    (permitted : Along (step nextRun) Permitted {} ops) (actor : Nat) (jobId : String)
    (between : List SchedulerOp) (edit : Edit) :
    let s := run (step nextRun) {} ops
    let read := s.step nextRun (.readEdit actor jobId)
    let later := run (step nextRun) read between
    Along (step nextRun) (fun s op => s.Permitted op ∧ s.ClockAhead jobId op) read between →
    (∀ op ∈ between, op.actor? ≠ some actor) →
    .edited jobId ∈ later.emits nextRun (.writeEdit actor edit) →
    Along (step nextRun) (fun s op => .edited jobId ∉ s.emits nextRun op) read between := by
  intro s read later ahead others edited
  have owned : read.Owned := step_owned (run_owned init_owned permitted) trivial
  obtain ⟨previous, row, task, found, fenced⟩ := edited_by_task edited
  rw [run_tasks_other others] at task
  obtain ⟨_, present, same⟩ := tasks_readEdit task
  obtain ⟨_, rfl⟩ := Task.editing.inj same
  have readStamp : stampOf jobId read.store = previous.updatedAt := stampOf_of_found present
  have laterStamp : stampOf jobId later.store = previous.updatedAt := by
    simp only [readFence, Bool.and_eq_true, decide_eq_true_eq] at fenced
    rw [stampOf_of_found found, fenced.1.1.1.1.1]
  have along := ahead.with_invariant
    (fun s => s.Owned ∧ .added jobId ∈ s.history)
    (fun s op holds allowed =>
      ⟨step_owned holds.1 allowed.1, List.mem_append_left _ holds.2⟩)
    ⟨owned, owned.known jobId previous present⟩
  refine VersionFence.unmarked_along (fun s : SchedulerState => stampOf jobId s.store) ?_ ?_ along
    readStamp.ge laterStamp.le
  · intro s op allowed
    exact effect_stampOf_le allowed.1.2 allowed.2.2 (effect_cases nextRun allowed.1.1.holding allowed.2.1)
  · intro s op allowed _ marked
    exact effect_stampOf_lt (effect_cases nextRun allowed.1.1.holding allowed.2.1) marked

def rename (name : String) : Edit := .update (fun job => .ok { job with name := name })

theorem edit_fenced_after_release :
    let nextRun : NextRun := fun _ after => .ok after
    let read := (run (step nextRun) {} [.add "job" { updatedAt := 0 }]).step nextRun
      (.readEdit 1 "job")
    let between : List SchedulerOp :=
      [.reserve "job" "token" 0 false "manual" "owner", .release "job" "token" 0]
    .edited "job" ∈ (run (step nextRun) read between).emits nextRun (.writeEdit 1 (rename "first")) ∧
      Along (step nextRun) (fun s op => .edited "job" ∉ s.emits nextRun op) read between := by
  intro nextRun read between
  have edited : .edited "job" ∈ (run (step nextRun) read between).emits nextRun
      (.writeEdit 1 (rename "first")) := by
    decide
  exact ⟨edited, edit_fenced_while_clocks_ahead nextRun [.add "job" { updatedAt := 0 }]
    (by decide) 1 "job" between (rename "first") (by decide) (by decide) edited⟩

/-- Under a frozen clock a reservation takes the stamp back to the one the first editor read,
and the release leaves it there: the second edit is lost. -/
theorem edit_lost_under_frozen_clock :
    let nextRun : NextRun := fun _ after => .ok after
    let read := (run (step nextRun) {} [.add "job" { updatedAt := 0 }]).step nextRun
      (.readEdit 1 "job")
    let between : List SchedulerOp :=
      [.readEdit 2 "job", .writeEdit 2 (rename "second"),
        .reserve "job" "token" 0 false "manual" "owner", .release "job" "token" 0]
    Along (step nextRun) Permitted read between ∧ (∀ op ∈ between, op.actor? ≠ some 1) ∧
      .edited "job" ∈ (run (step nextRun) read between).emits nextRun
        (.writeEdit 1 (rename "first")) ∧
      ¬Along (step nextRun) (fun s op => .edited "job" ∉ s.emits nextRun op) read between := by
  decide

end SchedulerState

end OpenSquilla.Scheduler
