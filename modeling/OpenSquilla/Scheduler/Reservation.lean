import Mathlib
import OpenSquilla.Shared.Lease
import OpenSquilla.Shared.VersionFence
import OpenSquilla.Scheduler.Protocol

set_option autoImplicit false

namespace OpenSquilla.Scheduler

open Runs JobStore

def heldToken (row : CronJob) : Option String :=
  if row.reservationToken = "" then none else some row.reservationToken

def leaseEvent : Event → Option (LeaseEvent String String)
  | .reserved jobId token => some (.granted jobId token)
  | .cleared jobId token => if token = "" then none else some (.ended jobId token)
  | .committed jobId token => some (.ended jobId token)
  | .added _ | .edited _ | .deleted _ => none

theorem granted_mem {history : List Event} {jobId token : String} :
    .granted jobId token ∈ history.filterMap leaseEvent ↔ .reserved jobId token ∈ history := by
  rw [List.mem_filterMap]
  constructor
  · rintro ⟨event, mem, granted⟩
    cases event with
    | reserved other otherToken =>
      obtain ⟨rfl, rfl⟩ := LeaseEvent.granted.inj (Option.some.inj granted)
      exact mem
    | cleared other otherToken =>
      simp only [leaseEvent] at granted
      split at granted <;> cases granted
    | _ => cases granted
  · exact fun mem => ⟨_, mem, rfl⟩

theorem ended_mem {history : List Event} {jobId token : String} :
    .ended jobId token ∈ history.filterMap leaseEvent ↔
      .committed jobId token ∈ history ∨ (token ≠ "" ∧ .cleared jobId token ∈ history) := by
  rw [List.mem_filterMap]
  constructor
  · rintro ⟨event, mem, ended⟩
    cases event with
    | committed other otherToken =>
      obtain ⟨rfl, rfl⟩ := LeaseEvent.ended.inj (Option.some.inj ended)
      exact .inl mem
    | cleared other otherToken =>
      simp only [leaseEvent] at ended
      split at ended
      · cases ended
      next named =>
        obtain ⟨rfl, rfl⟩ := LeaseEvent.ended.inj (Option.some.inj ended)
        exact .inr ⟨named, mem⟩
    | _ => cases ended
  · rintro (committed | ⟨named, cleared⟩)
    · exact ⟨_, committed, rfl⟩
    · exact ⟨_, cleared, if_neg named⟩

def commitsToken (token : String) : Event → Bool
  | .committed _ other => other = token
  | _ => false

theorem countP_commitsToken_le (history : List Event) (token : String) : history.countP (commitsToken token) ≤
      (history.filterMap leaseEvent).countP (LeaseTable.ends token) := by
  rw [List.countP_filterMap]
  apply List.countP_mono_left
  intro event _ commits
  cases event with
  | committed other otherToken => exact commits
  | _ => cases commits

namespace SchedulerState

def holderIn (store : JobStore) (jobId : String) : Option String := (store.get? jobId).bind heldToken

def leases (s : SchedulerState) : LeaseTable String String :=
  ⟨holderIn s.store, s.history.filterMap leaseEvent⟩

theorem holderIn_of_found {store : JobStore} {jobId : String} {row : CronJob}
    (found : store.get? jobId = some row) : holderIn store jobId = heldToken row := by
  rw [holderIn, found]
  rfl

theorem holderIn_set (store : JobStore) (jobId : String) (row : CronJob) :
    holderIn (store.set jobId row) = Function.update (holderIn store) jobId (heldToken row) := by
  funext other
  by_cases here : other = jobId
  · subst here
    simp [holderIn]
  · simp [holderIn, here]

theorem holderIn_erase (store : JobStore) (jobId : String) :
    holderIn (store.erase jobId) = Function.update (holderIn store) jobId none := by
  funext other
  by_cases here : other = jobId
  · subst here
    simp [holderIn, Dict.get?_erase]
  · simp [holderIn, Dict.get?_erase, here]

structure Owned (s : SchedulerState) : Prop where
  holding : s.Holding
  named : ∀ jobId token, .reserved jobId token ∈ s.history → token ≠ ""
  known : ∀ jobId row, s.store.get? jobId = some row → .added jobId ∈ s.history
  gone : ∀ jobId, .deleted jobId ∈ s.history → s.store.get? jobId = none ∧ .added jobId ∈ s.history
  sound : s.leases.Sound

theorem init_owned : Owned {} := by
  refine ⟨?_, ?_, ?_, ?_, LeaseTable.empty_sound⟩ <;> simp [Holding]

section Steps

variable {nextRun : NextRun} {s : SchedulerState} {op : SchedulerOp} {store : JobStore}
  {events : List Event}

theorem effect_named (owned : s.Owned) (effect : Effect s op store events) {jobId token : String}
    (granted : .reserved jobId token ∈ s.history ++ events) : token ≠ "" := by
  rcases List.mem_append.mp granted with before | new
  · exact owned.named jobId token before
  · cases effect with
    | reserved other otherToken row now requireDue source owner found free named fresh asked =>
      obtain ⟨rfl, rfl⟩ := Event.reserved.inj (List.mem_singleton.mp new)
      exact named
    | _ => simp at new

theorem effect_known (owned : s.Owned) (effect : Effect s op store events) {jobId : String}
    {row : CronJob} (found : store.get? jobId = some row) : .added jobId ∈ s.history ++ events := by
  have assigned : ∀ other (old new : CronJob), s.store.get? other = some old →
      (s.store.set other new).get? jobId = some row → .added jobId ∈ s.history ++ events := by
    intro other old new present inSet
    apply List.mem_append_left
    rw [Dict.get?_set] at inSet
    split at inSet
    next same => exact owned.known jobId old (same ▸ present)
    next => exact owned.known jobId row inSet
  have erased : ∀ other, (s.store.erase other).get? jobId = some row →
      .added jobId ∈ s.history ++ events := by
    intro other left
    rw [Dict.get?_erase] at left
    split at left
    · cases left
    · exact List.mem_append_left _ (owned.known jobId row left)
  cases effect with
  | idle => exact List.mem_append_left _ (owned.known jobId row found)
  | added other job fresh free =>
    rw [Dict.get?_set] at found
    split at found
    next same =>
      subst same
      exact List.mem_append_right _ List.mem_cons_self
    next => exact List.mem_append_left _ (owned.known jobId row found)
  | reserved other token old now requireDue source owner present =>
    exact assigned other old _ present found
  | cleared other old now present => exact assigned other old _ present found
  | committed other old job present => exact assigned other old _ present found
  | removed other old present => exact erased other found
  | edited other old job previous present => exact assigned other old _ present found
  | deleted other old present => exact erased other found

theorem effect_gone (owned : s.Owned) (effect : Effect s op store events) {jobId : String}
    (deleted : .deleted jobId ∈ s.history ++ events) :
    store.get? jobId = none ∧ .added jobId ∈ s.history ++ events := by
  have assigned : ∀ other (old new : CronJob), s.store.get? other = some old →
      .deleted jobId ∈ s.history →
      (s.store.set other new).get? jobId = none ∧ .added jobId ∈ s.history ++ events := by
    intro other old new present before
    obtain ⟨absent, known⟩ := owned.gone jobId before
    refine ⟨?_, List.mem_append_left _ known⟩
    rw [Dict.get?_set, if_neg, absent]
    rintro rfl
    rw [absent] at present
    cases present
  have erased : ∀ other (old : CronJob), s.store.get? other = some old →
      (.deleted jobId ∈ s.history ∨ jobId = other) →
      (s.store.erase other).get? jobId = none ∧ .added jobId ∈ s.history ++ events := by
    intro other old present cause
    rw [Dict.get?_erase]
    rcases cause with before | rfl
    · obtain ⟨absent, known⟩ := owned.gone jobId before
      exact ⟨by rw [absent, ite_self], List.mem_append_left _ known⟩
    · exact ⟨if_pos rfl, List.mem_append_left _ (owned.known jobId old present)⟩
  cases effect with
  | idle =>
    rw [List.append_nil] at deleted ⊢
    exact owned.gone jobId deleted
  | added other job fresh free =>
    obtain ⟨absent, known⟩ := owned.gone jobId (by simpa using deleted)
    refine ⟨?_, List.mem_append_left _ known⟩
    rw [Dict.get?_set, if_neg, absent]
    rintro rfl
    exact fresh known
  | reserved other token old now requireDue source owner present =>
    exact assigned other old _ present (by simpa using deleted)
  | cleared other old now present => exact assigned other old _ present (by simpa using deleted)
  | committed other old job present => exact assigned other old _ present (by simpa using deleted)
  | removed other old present => exact erased other old present (by simpa using deleted)
  | edited other old job previous present =>
    exact assigned other old _ present (by simpa using deleted)
  | deleted other old present => exact erased other old present (by simpa using deleted)

theorem cleared_leases {jobId : String} {row : CronJob} (found : s.store.get? jobId = some row) :
    LeaseTable.Step s.leases ⟨Function.update (holderIn s.store) jobId none,
      s.history.filterMap leaseEvent ++
        [Event.cleared jobId row.reservationToken].filterMap leaseEvent⟩ := by
  have holder := holderIn_of_found found
  by_cases unreserved : row.reservationToken = ""
  · simp only [heldToken, unreserved, if_true] at holder
    rw [← holder, Function.update_eq_self]
    simp only [List.filterMap_cons, leaseEvent, unreserved, if_true, List.filterMap_nil,
      List.append_nil]
    exact .idle
  · simp only [heldToken, unreserved, if_false] at holder
    simp only [List.filterMap_cons, leaseEvent, unreserved, if_false, List.filterMap_nil]
    exact .finish jobId row.reservationToken holder

theorem effect_leases (owned : s.Owned) (effect : Effect s op store events) :
    LeaseTable.Step s.leases ⟨holderIn store, (s.history ++ events).filterMap leaseEvent⟩ := by
  rw [List.filterMap_append]
  cases effect with
  | idle =>
    rw [List.filterMap_nil, List.append_nil]
    exact .idle
  | added jobId job fresh free =>
    have absent : holderIn s.store jobId = none := by
      cases found : s.store.get? jobId with
      | none => rw [holderIn, found, Option.bind_none]
      | some row => exact absurd (owned.known jobId row found) fresh
    have vacant : heldToken job = holderIn s.store jobId := by rw [absent, heldToken, if_pos free]
    rw [holderIn_set, vacant, Function.update_eq_self, List.filterMap_cons_none rfl,
      List.filterMap_nil, List.append_nil]
    exact .idle
  | reserved jobId token row now requireDue source owner found free named fresh asked =>
    have unreserved : row.reservationToken = "" := by
      simp only [reservable, Bool.and_eq_true, decide_eq_true_eq] at free
      exact free.1.1.2
    have holder : heldToken (JobStore.reserved token now source owner row) = some token :=
      if_neg named
    rw [holderIn_set, holder]
    refine .grant jobId token ?_ (fun other granted => fresh other (granted_mem.mp granted))
    exact (holderIn_of_found found).trans (if_pos unreserved)
  | cleared jobId row now found =>
    rw [holderIn_set]
    exact cleared_leases found
  | committed jobId row job found issued =>
    rw [holderIn_set]
    refine .finish jobId row.reservationToken ?_
    exact (holderIn_of_found found).trans (if_neg (owned.named _ _ issued))
  | removed jobId row found issued =>
    rw [holderIn_erase]
    refine .finish jobId row.reservationToken ?_
    exact (holderIn_of_found found).trans (if_neg (owned.named _ _ issued))
  | edited jobId row job previous found =>
    have kept : heldToken (configured job previous row) = holderIn s.store jobId :=
      (holderIn_of_found found).symm
    rw [holderIn_set, kept, Function.update_eq_self, List.filterMap_cons_none rfl,
      List.filterMap_nil, List.append_nil]
    exact .idle
  | deleted jobId row found =>
    rw [holderIn_erase, List.filterMap_cons, List.filterMap_cons_none rfl, List.filterMap_nil]
    have step := cleared_leases found
    rw [List.filterMap_cons, List.filterMap_nil] at step
    exact step

theorem step_owned (owned : s.Owned) {op : SchedulerOp} (permitted : s.Permitted op) :
    (s.step nextRun op).Owned where
  holding := step_holding owned.holding permitted
  named := fun _ _ => effect_named owned (effect_cases nextRun owned.holding permitted)
  known := fun _ _ => effect_known owned (effect_cases nextRun owned.holding permitted)
  gone := fun _ => effect_gone owned (effect_cases nextRun owned.holding permitted)
  sound := (effect_leases owned (effect_cases nextRun owned.holding permitted)).sound owned.sound

theorem run_owned (owned : s.Owned) {ops : List SchedulerOp}
    (permitted : Along (step nextRun) Permitted s ops) : (run (step nextRun) s ops).Owned :=
  run_invariant_along Owned (fun _ _ owned permitted => step_owned owned permitted) owned ops permitted

end Steps

-- The instant of the last change of the row while it carries the token.
def stampUnder (jobId token : String) (store : JobStore) : WithTop Instant :=
  match store.get? jobId with
  | some row => if row.reservationToken = token then row.updatedAt else ⊤
  | none => ⊤

theorem stampUnder_of_found {store : JobStore} {jobId : String} {row : CronJob} (token : String)
    (found : store.get? jobId = some row) :
    stampUnder jobId token store = if row.reservationToken = token then ↑row.updatedAt else ⊤ := by
  rw [stampUnder, found]

theorem stampUnder_set (store : JobStore) (jobId token : String) (row : CronJob) :
    stampUnder jobId token (store.set jobId row) =
      if row.reservationToken = token then ↑row.updatedAt else ⊤ :=
  stampUnder_of_found token (by rw [Dict.get?_set, if_pos rfl])

section Fence

variable {nextRun : NextRun} {s : SchedulerState} {op : SchedulerOp} {store : JobStore}
  {events : List Event} {jobId token : String}

theorem effect_stamp (owned : s.Owned) (effect : Effect s op store events)
    (issued : .reserved jobId token ∈ s.history) :
    (store.get? jobId = s.store.get? jobId ∧ .edited jobId ∉ events) ∨
    stampUnder jobId token s.store < stampUnder jobId token store ∨
    (stampUnder jobId token s.store = ⊤ ∧ stampUnder jobId token store = ⊤) := by
  have ended : stampUnder jobId token store = ⊤ →
      stampUnder jobId token s.store < stampUnder jobId token store ∨
      (stampUnder jobId token s.store = ⊤ ∧ stampUnder jobId token store = ⊤) := by
    intro late
    rw [late]
    by_cases before : stampUnder jobId token s.store = ⊤
    · exact .inr ⟨before, rfl⟩
    · exact .inl (lt_top_iff_ne_top.mpr before)
  have named := owned.named jobId token issued
  have cleared : ∀ row : CronJob, row.reservationToken = "" →
      stampUnder jobId token (s.store.set jobId row) = ⊤ := by
    intro row unreserved
    rw [stampUnder_set, unreserved, if_neg (Ne.symm named)]
  have erased : stampUnder jobId token (s.store.erase jobId) = ⊤ := by
    simp [stampUnder, Dict.get?_erase]
  have elsewhere : ∀ other (row : CronJob), jobId ≠ other →
      (s.store.set other row).get? jobId = s.store.get? jobId := by
    intro other row different
    rw [Dict.get?_set, if_neg different]
  have erasedElsewhere : ∀ other, jobId ≠ other →
      (s.store.erase other).get? jobId = s.store.get? jobId := by
    intro other different
    rw [Dict.get?_erase, if_neg different]
  cases effect with
  | idle => exact .inl ⟨rfl, by simp⟩
  | added other job fresh free =>
    by_cases here : jobId = other
    · subst here
      exact .inr (ended (cleared job free))
    · exact .inl ⟨elsewhere other job here, by simp⟩
  | reserved other otherToken row now requireDue source owner found free otherNamed fresh asked =>
    by_cases here : jobId = other
    · subst here
      refine .inr (ended ?_)
      rw [stampUnder_set, reserved_reservationToken, if_neg]
      rintro rfl
      exact fresh jobId issued
    · exact .inl ⟨elsewhere other _ here, by simp⟩
  | cleared other row now found =>
    by_cases here : jobId = other
    · subst here
      exact .inr (ended (cleared _ rfl))
    · exact .inl ⟨elsewhere other _ here, by simp⟩
  | committed other row job found =>
    by_cases here : jobId = other
    · subst here
      exact .inr (ended (cleared _ rfl))
    · exact .inl ⟨elsewhere other _ here, by simp⟩
  | removed other row found =>
    by_cases here : jobId = other
    · subst here
      exact .inr (ended erased)
    · exact .inl ⟨erasedElsewhere other here, by simp⟩
  | edited other row job previous found fenced raised =>
    by_cases here : jobId = other
    · subst here
      refine .inr ?_
      rw [stampUnder_of_found token found, stampUnder_set, configured_reservationToken]
      by_cases under : row.reservationToken = token
      · rw [if_pos under, if_pos under, WithTop.coe_lt_coe]
        exact .inl (configured_raises fenced raised)
      · rw [if_neg under, if_neg under]
        exact .inr ⟨rfl, rfl⟩
    · refine .inl ⟨elsewhere other _ here, ?_⟩
      simpa using here
  | deleted other row found =>
    by_cases here : jobId = other
    · subst here
      exact .inr (ended erased)
    · exact .inl ⟨erasedElsewhere other here, by simp⟩

theorem step_stamp (owned : s.Owned) (issued : .reserved jobId token ∈ s.history) {op : SchedulerOp}
    (permitted : s.Permitted op) :
    stampUnder jobId token s.store ≤ stampUnder jobId token (s.step nextRun op).store := by
  rcases effect_stamp owned (effect_cases nextRun owned.holding permitted) issued with
    ⟨same, _⟩ | raised | ⟨_, late⟩
  · rw [stampUnder, stampUnder, same]
  · exact raised.le
  · exact late ▸ le_top

theorem run_unchanged (owned : s.Owned) (issued : .reserved jobId token ∈ s.history)
    {row : CronJob} (found : s.store.get? jobId = some row) (under : row.reservationToken = token)
    {ops : List SchedulerOp} (permitted : Along (step nextRun) Permitted s ops)
    (unchanged : stampUnder jobId token (run (step nextRun) s ops).store ≤ row.updatedAt) :
    Along (step nextRun) (fun s op => .edited jobId ∉ s.emits nextRun op) s ops ∧
      (run (step nextRun) s ops).store.get? jobId = s.store.get? jobId := by
  have stamp : stampUnder jobId token s.store = row.updatedAt := by
    rw [stampUnder_of_found token found, if_pos under]
  have along := permitted.with_invariant
    (fun s => s.Owned ∧ .reserved jobId token ∈ s.history)
    (fun s op holds permitted =>
      ⟨step_owned holds.1 permitted, List.mem_append_left _ holds.2⟩) ⟨owned, issued⟩
  have quiet := (VersionFence.unraised_along
    (fun s op allowed => step_stamp allowed.1.1 allowed.1.2 allowed.2) along stamp.ge unchanged).and
      along
  have untouched := quiet.imp fun s op held => by
    have kept : (s.step nextRun op).store.get? jobId = s.store.get? jobId ∧
        .edited jobId ∉ s.emits nextRun op := by
      rcases effect_stamp held.2.1.1 (effect_cases nextRun held.2.1.1.holding held.2.2)
        held.2.1.2 with same | raised | ⟨early, _⟩
      · exact same
      · exact absurd raised held.1.2
      · have within := held.1.1
        rw [early] at within
        exact absurd within (WithTop.coe_lt_top row.updatedAt).not_ge
    exact kept
  exact ⟨untouched.imp fun _ _ kept => kept.2,
    run_constant_along (fun s : SchedulerState => s.store.get? jobId)
      (untouched.imp fun _ _ kept => kept.1)⟩

end Fence

-- A reservation whose holder could still commit: it was granted and did not end.
structure Live (s : SchedulerState) (jobId token : String) : Prop where
  granted : .reserved jobId token ∈ s.history
  notCleared : .cleared jobId token ∉ s.history
  notCommitted : .committed jobId token ∉ s.history

section Protocol

variable {nextRun : NextRun} {s : SchedulerState}

theorem Live.lease {jobId token : String} (live : s.Live jobId token) :
    .granted jobId token ∈ s.leases.history ∧ .ended jobId token ∉ s.leases.history := by
  refine ⟨granted_mem.mpr live.granted, fun ended => ?_⟩
  rcases ended_mem.mp ended with committed | ⟨_, cleared⟩
  · exact live.notCommitted committed
  · exact live.notCleared cleared

theorem finalizer_fenced (owned : s.Owned) {actor : Nat} {jobId token : String} {outcome : Outcome}
    (issued : .reserved jobId token ∈ s.history) {between : List SchedulerOp} (now : Instant)
    (permitted : Along (step nextRun) Permitted
      (s.step nextRun (.readResult actor jobId token outcome)) between)
    (others : ∀ op ∈ between, op.actor? ≠ some actor)
    (committed : .committed jobId token ∈ (run (step nextRun)
      (s.step nextRun (.readResult actor jobId token outcome)) between).emits nextRun
        (.writeResult actor now)) :
    Along (step nextRun) (fun s op => .edited jobId ∉ s.emits nextRun op)
      (s.step nextRun (.readResult actor jobId token outcome)) between ∧
    (run (step nextRun) (s.step nextRun (.readResult actor jobId token outcome)) between).store.get?
      jobId = s.store.get? jobId := by
  have ownedNext : (s.step nextRun (.readResult actor jobId token outcome)).Owned :=
    step_owned owned issued
  obtain ⟨_, current, row, task, found, fenced⟩ := committed_by_task committed
  rw [run_tasks_other others] at task
  obtain ⟨read, present, under, same⟩ := tasks_readResult task
  obtain ⟨_, _, _, rfl⟩ := Task.finishing.inj same
  simp only [resultFence, Bool.and_eq_true, decide_eq_true_eq] at fenced
  have stamp := stampUnder_of_found token found
  rw [if_pos fenced.1, fenced.2] at stamp
  exact run_unchanged ownedNext (List.mem_append_left _ issued) present under permitted stamp.le

end Protocol

/-- A job has one holder of a live lease at most and a token commits once at most, by the row's own token. A
deleted job stays away, and a result is only written to the row that was read for it. -/
structure Protocol (nextRun : NextRun) (s : SchedulerState) : Prop where
  exclusive : ∀ jobId first second, s.Live jobId first → s.Live jobId second → first = second
  once : ∀ token, s.history.countP (commitsToken token) ≤ 1
  holds : ∀ op, s.Permitted op → ∀ jobId token, .committed jobId token ∈ s.emits nextRun op →
    ∃ row, s.store.get? jobId = some row ∧ row.reservationToken = token
  gone : ∀ jobId, .deleted jobId ∈ s.history → s.store.get? jobId = none
  fenced : ∀ actor jobId token outcome between now,
    let read := s.step nextRun (.readResult actor jobId token outcome)
    let later := run (step nextRun) read between
    .reserved jobId token ∈ s.history → Along (step nextRun) Permitted read between →
    (∀ op ∈ between, op.actor? ≠ some actor) →
    .committed jobId token ∈ later.emits nextRun (.writeResult actor now) →
    Along (step nextRun) (fun s op => .edited jobId ∉ s.emits nextRun op) read between ∧
      later.store.get? jobId = s.store.get? jobId

theorem reservation_protocol (nextRun : NextRun) (ops : List SchedulerOp)
    (permitted : Along (step nextRun) Permitted {} ops) : Protocol nextRun (run (step nextRun) {} ops) := by
  generalize same : run (step nextRun) {} ops = s
  have owned : s.Owned := same ▸ run_owned init_owned permitted
  refine ⟨?_, ?_, ?_, ?_, ?_⟩
  · intro jobId first second one two
    exact LeaseTable.holder_unique owned.sound one.lease two.lease
  · intro token
    exact (countP_commitsToken_le s.history token).trans (owned.sound.once token)
  · intro op next jobId token committed
    exact committed_carried (effect_cases nextRun owned.holding next) committed
  · intro jobId deleted
    exact (owned.gone jobId deleted).1
  · intro actor jobId token outcome between now read later issued alongside others committed
    exact finalizer_fenced owned issued now alongside others committed

-- While a result is read and written, another actor reads the job, and a second reservation is refused.
theorem reservation_protocol_of_one_run :
    let nextRun : NextRun := fun _ after => .ok (after + 60000000)
    let ops : List SchedulerOp := [.add "job" { updatedAt := 0, nextRunAt := some 5 },
      .reserve "job" "token" 10 true "timer" "owner"]
    let read := (run (step nextRun) {} ops).step nextRun
      (.readResult 0 "job" "token" (.executed { success := true }))
    let later := run (step nextRun) read [.readEdit 1 "job", .reserve "job" "second" 15 false "manual" "other",
      .add "next" { updatedAt := 16 }]
    .committed "job" "token" ∈ later.emits nextRun (.writeResult 0 20) ∧
      later.store.get? "job" = (run (step nextRun) {} ops).store.get? "job" := by
  intro nextRun ops read later
  have committed : .committed "job" "token" ∈ later.emits nextRun (.writeResult 0 20) := by
    decide +kernel
  exact ⟨committed, ((reservation_protocol nextRun ops (by decide +kernel)).fenced 0 "job" "token"
    (.executed { success := true }) _ 20 (by decide +kernel) (by decide +kernel) (by decide) committed).2⟩

end SchedulerState

end OpenSquilla.Scheduler
