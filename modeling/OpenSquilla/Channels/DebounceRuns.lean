import OpenSquilla.Channels.DebounceStages

set_option autoImplicit false

namespace OpenSquilla.Channels.Debounce

open TextLines Runs

variable {A V P F K : Type} {lib : MetadataLibrary V} {coord : Coordinator A V P F K}

-- The task of the batch has ended, and no call of `cancel` is busy with it.
def Finished (coord : Coordinator A V P F K) (batch : Nat) (state : DebounceState A V P F K) : Prop :=
  state.timer = .done ∧ ∀ call, (coord.canceller call).holds batch = none

/-- What happened to a batch: it was fired with all that it received and then settled, or cancelled
and then settled. -/
def Course (lib : MetadataLibrary V) (state : DebounceState A V P F K) (first : IncomingMessage A V P)
    (course : List (Event A V P F K)) : Prop :=
  (∃ raised,
    course = .fired state.onFire
      (combine lib first state.buffer) :: .returned raised :: state.onSettled.map .settled) ∨
    course = .cancelled :: state.onSettled.map .settled

structure Coalesced (lib : MetadataLibrary V) (coord : Coordinator A V P F K) (batch : Nat)
    (state : DebounceState A V P F K) (first : IncomingMessage A V P × Option K)
    (rest : List (IncomingMessage A V P × Option K)) (tail : List (Event A V P F K)) : Prop where
  buffer : state.buffer = (first :: rest).map Prod.fst
  onSettled : state.onSettled = (first :: rest).filterMap Prod.snd
  happened : history batch coord.log =
    ((first :: rest).map fun received => .scheduled state.sessionKey received.1 received.2) ++ tail
  course : ∃ course, Course lib state first.1 course ∧ tail <+: course
  finished : Finished coord batch state → Course lib state first.1 tail

theorem Stage.course {state : DebounceState A V P F K} {first : IncomingMessage A V P} {timer : Timer}
    {cancelling settled locked here : Bool} {holding : Option (Option Settle)} {tail : List (Event A V P F K)}
    (stage : Stage
      (.fired state.onFire (combine lib first state.buffer)) state.onSettled timer cancelling settled locked
      here holding tail) :
    (∃ course, Course lib state first course ∧ tail <+: course) ∧
      (timer = .done → holding = none → Course lib state first tail) := by
  have fired : ∀ raised, Course lib state first
      (.fired state.onFire
        (combine lib first state.buffer) :: .returned raised :: state.onSettled.map .settled) :=
    fun raised => .inl ⟨raised, rfl⟩
  have cancelled : Course lib state first (.cancelled :: state.onSettled.map .settled) := .inr rfl
  have part : ∀ next, (state.onSettled.take next).map (Event.settled (A := A) (V := V) (P := P) (F := F)) <+:
      state.onSettled.map .settled := fun next => (List.take_prefix next _).map _
  cases stage with
  | pending early => exact ⟨⟨_, cancelled, List.nil_prefix⟩, fun ended => by rw [ended] at early; cases early⟩
  | firing => exact ⟨⟨_, fired false, by simp⟩, fun ended => by cases ended⟩
  | returned closing raised =>
      exact ⟨⟨_, fired raised, by simp⟩, fun ended => by rw [ended] at closing; cases closing⟩
  | settling within raised =>
    refine ⟨⟨_, fired raised, ?_⟩, fun ended => by cases ended⟩
    simpa using part _
  | done raised => exact ⟨⟨_, fired raised, List.prefix_refl _⟩, fun _ _ => fired raised⟩
  | cancelling early => exact ⟨⟨_, cancelled, by simp⟩, fun _ absent => by cases absent⟩
  | interrupted closing => exact ⟨⟨_, cancelled, by simp⟩, fun _ absent => by cases absent⟩
  | settlingItself within =>
    refine ⟨⟨_, cancelled, ?_⟩, fun _ absent => by cases absent⟩
    simpa using part _
  | neverStarted waits => exact ⟨⟨_, cancelled, by simp⟩, fun _ absent => by cases absent⟩
  | settledItself waits => exact ⟨⟨_, cancelled, List.prefix_refl _⟩, fun _ absent => by cases absent⟩
  | settlingForIt within =>
    refine ⟨⟨_, cancelled, ?_⟩, fun _ absent => by cases absent⟩
    simpa using part _
  | ended => exact ⟨⟨_, cancelled, List.prefix_refl _⟩, fun _ _ => cancelled⟩

theorem Good.coalesced (good : Good lib coord) {batch : Nat} {state : DebounceState A V P F K}
    (found : coord.batch batch = some state) :
    ∃ first rest tail, Coalesced lib coord batch state first rest tail := by
  obtain ⟨first, rest, holding, tail, story⟩ := good.story batch state found
  obtain ⟨course, complete⟩ := story.stage.course
  refine ⟨first, rest, tail, story.buffer, story.onSettled, story.happened, course,
      fun finished => complete finished.1 ?_⟩
  have holder := story.holder
  cases holding with
  | none => rfl
  | some holding =>
    obtain ⟨call, holds, -⟩ := holder
    rw [finished.2 call] at holds
    cases holds

theorem Good.pending (good : Good lib coord) {batch : Nat} {state : DebounceState A V P F K}
    (found : coord.batch batch = some state) (going : ∀ event ∈ history batch coord.log, event.ends = false) :
    coord.pending.get? state.sessionKey = some batch := by
  obtain ⟨first, rest, holding, tail, story⟩ := good.story batch state found
  have stage := story.stage
  rw [story.happened] at going
  have tail_ : ∀ event ∈ tail, event.ends = false :=
    fun event mem => going event (List.mem_append_right _ mem)
  by_contra elsewhere
  simp only [elsewhere, decide_false] at stage
  generalize state.timer = timer at stage
  generalize state.cancelling = cancelling at stage
  generalize state.settled = settled at stage
  generalize state.settleLocked = locked at stage
  cases stage <;> simp [Event.ends] at tail_

-- The messages that were scheduled, in the order in which they took the lock.
def Input.scheduled? : Input A V P F K → Option (Text × IncomingMessage A V P × Option K)
  | .schedule sessionKey message _ onSettled => some (sessionKey, message, onSettled)
  | _ => none

def Event.scheduled? : Event A V P F K → Option (Text × IncomingMessage A V P × Option K)
  | .scheduled sessionKey message onSettled => some (sessionKey, message, onSettled)
  | _ => none

def received (log : List (Nat × Event A V P F K)) : List (Text × IncomingMessage A V P × Option K) :=
  log.filterMap fun entry => entry.2.scheduled?

theorem received_setBatch (batch : Nat) (state : DebounceState A V P F K) (events : List (Event A V P F K)) :
    received (coord.setBatch batch state events).log = received coord.log ++
      events.filterMap Event.scheduled? := by
  simp [Coordinator.setBatch, received, List.filterMap_map]

@[simp] theorem log_setCanceller (call : Nat) (canceller : Canceller) :
    (coord.setCanceller call canceller).log = coord.log := rfl

@[simp] theorem log_release (sessionKey : Text) (batch : Nat) : (coord.release sessionKey batch).log =
  coord.log := by
  unfold Coordinator.release
  split <;> rfl

theorem received_settle (state : DebounceState A V P F K) (progress : Settle) :
    (Coordinator.settle state progress).2.2.filterMap Event.scheduled? = [] := by
  unfold Coordinator.settle
  cases progress with
  | waiting =>
    dsimp only
    split
    · rfl
    · split <;> rfl
  | invoking next =>
    dsimp only
    split <;> rfl

theorem received_stepTimer (batch : Nat) (raised : Bool) :
    received (coord.stepTimer lib batch raised).log = received coord.log := by
  unfold Coordinator.stepTimer
  split
  · rfl
  · split
    · simp [received_setBatch]
    · split
      · simp [received_setBatch]
      · simp [received_setBatch]
      · split
        · split <;> simp [received_setBatch, Event.scheduled?]
        · simp [received_setBatch]
      · simp [received_setBatch, Event.scheduled?]
      · simp [received_setBatch]
      · simp [received_setBatch, received_settle]
      · rfl

theorem received_stepCanceller (call : Nat) : received (coord.stepCanceller call).log = received coord.log := by
  unfold Coordinator.stepCanceller
  split
  · split
    · rfl
    · dsimp only
      split <;> simp [received_setBatch, Event.scheduled?]
  · split <;> rfl
  · split
    · rfl
    · simp [received_setBatch, received_settle]
  · rfl

theorem received_step (input : Input A V P F K) :
    received (coord.step lib input).log = received coord.log ++ input.scheduled?.toList := by
  cases input with
  | schedule sessionKey message onFire onSettled =>
    show received (coord.schedule sessionKey message onFire onSettled).log = _
    unfold Coordinator.schedule
    split
    · rw [received_setBatch]
      rfl
    · exact received_setBatch coord.opened ⟨sessionKey, [message], onFire, onSettled.toList, .created,
          false, false, false⟩
        [.scheduled sessionKey message onSettled]
  | cancel sessionKey => simp [Coordinator.step, Coordinator.startCancel, Input.scheduled?]
  | cancelAll =>
    have same : ∀ sessionKeys : List Text,
        (sessionKeys.foldl Coordinator.startCancel coord).log = coord.log := by
      intro sessionKeys
      induction sessionKeys generalizing coord with
      | nil => rfl
      | cons sessionKey rest ih => exact ih
    simp [Coordinator.step, same, Input.scheduled?]
  | stepTimer batch raised => simpa [Coordinator.step, Input.scheduled?] using received_stepTimer batch raised
  | stepCanceller call => simpa [Coordinator.step, Input.scheduled?] using received_stepCanceller call

theorem received_run (inputs : List (Input A V P F K)) :
    received (run (Coordinator.step lib) coord inputs).log = received coord.log ++
      inputs.filterMap Input.scheduled? := by
  induction inputs generalizing coord with
  | nil => simp
  | cons input rest ih =>
    rw [run_cons, ih, received_step, List.append_assoc]
    cases scheduled : input.scheduled? <;> simp [scheduled]

theorem good_run (inputs : List (Input A V P F K)) : Good lib (run (Coordinator.step lib) .start inputs) :=
  run_invariant (Good lib) (fun _ input good => good.step input) (good_start lib) inputs

def Input.isStep : Input A V P F K → Bool
  | .stepTimer _ _ | .stepCanceller _ => true
  | _ => false

-- What is reached when only tasks that are there already take their steps.
def Continues (lib : MetadataLibrary V) (coord next : Coordinator A V P F K) : Prop :=
  ∃ inputs : List (Input A V P F K), (∀ input ∈ inputs, input.isStep = true) ∧
    next = run (Coordinator.step lib) coord inputs

theorem Continues.refl : Continues lib coord coord := ⟨[], by simp, rfl⟩

theorem Continues.after {middle next : Coordinator A V P F K} {input : Input A V P F K}
    (step : input.isStep = true) (first : coord.step lib input = middle) (second : Continues lib middle next) :
    Continues lib coord next := by
  obtain ⟨inputs, steps, rfl⟩ := second
  refine ⟨input :: inputs, ?_, by rw [run_cons, first]⟩
  rw [List.forall_mem_cons]
  exact ⟨step, steps⟩

theorem Continues.trans {middle next : Coordinator A V P F K} (first : Continues lib coord middle)
    (second : Continues lib middle next) : Continues lib coord next := by
  obtain ⟨inputs, steps, rfl⟩ := first
  obtain ⟨more, steps', rfl⟩ := second
  refine ⟨inputs ++ more, ?_, (run_append ..).symm⟩
  rw [List.forall_mem_append]
  exact ⟨steps, steps'⟩

theorem Continues.good {next : Coordinator A V P F K} (continues : Continues lib coord next)
    (good : Good lib coord) : Good lib next := by
  obtain ⟨inputs, -, rfl⟩ := continues
  exact run_invariant (Good lib) (fun _ input good => good.step input) good inputs

theorem counts_step {input : Input A V P F K} (step : input.isStep = true) :
    (coord.step lib input).opened = coord.opened ∧
      (coord.step lib input).calls = coord.calls := by
  have released : ∀ sessionKey batch, (coord.release sessionKey batch).opened = coord.opened ∧
      (coord.release sessionKey batch).calls = coord.calls := by
    intro sessionKey batch
    unfold Coordinator.release
    split <;> exact ⟨rfl, rfl⟩
  cases input with
  | stepTimer batch raised =>
    show (coord.stepTimer lib batch raised).opened = _ ∧
        (coord.stepTimer lib batch raised).calls = _
    unfold Coordinator.stepTimer
    repeat' split
    all_goals first | exact ⟨rfl, rfl⟩ | exact released _ _
  | stepCanceller call =>
    show (coord.stepCanceller call).opened = _ ∧ (coord.stepCanceller call).calls = _
    unfold Coordinator.stepCanceller
    dsimp only
    repeat' split
    all_goals first | exact ⟨rfl, rfl⟩ | exact released _ _
  | _ => cases step

theorem Continues.counts {next : Coordinator A V P F K} (continues : Continues lib coord next) :
    next.opened = coord.opened ∧ next.calls = coord.calls := by
  obtain ⟨inputs, steps, rfl⟩ := continues
  induction inputs generalizing coord with
  | nil => exact ⟨rfl, rfl⟩
  | cons input rest ih =>
    rw [List.forall_mem_cons] at steps
    obtain ⟨opened, calls⟩ := @counts_step A V P F K lib coord input steps.1
    obtain ⟨opened', calls'⟩ := @ih (coord.step lib input) steps.2
    exact ⟨opened'.trans opened, calls'.trans calls⟩

theorem Good.finish_timer (good : Good lib coord) {batch : Nat} {state : DebounceState A V P F K}
    (found : coord.batch batch = some state) :
    ∃ next state', Continues lib coord next ∧ next.batch batch = some state' ∧ state'.timer = .done ∧
      ∀ other ≠ batch, next.batch other = coord.batch other := by
  induction left : state.left using Nat.strong_induction_on generalizing coord state with
  | _ count ih =>
    obtain ⟨first, rest, holding, tail, story⟩ := good.story batch state found
    obtain ⟨done, -⟩ | ⟨released, after, events, moves⟩ := moves_stepTimer found story false
    · exact ⟨coord, state, .refl, found, done, fun _ _ => rfl⟩
    · have good' := good.stepTimer batch false
      have found' : (coord.stepTimer lib batch false).batch batch = some after := by
        rw [moves.advances]
        exact Function.update_self ..
      obtain ⟨next, state', continues, reached, done, others⟩ :=
        ih after.left (left ▸ moves.closer) good' found' rfl
      refine ⟨next, state',
          .after rfl (show coord.step lib (.stepTimer batch false) = _ from rfl) continues,
            reached, done, ?_⟩
      intro other apart
      rw [others other apart, moves.advances]
      exact Function.update_of_ne apart ..

theorem Good.finish_timers (good : Good lib coord) (count : Nat) : ∃ next, Continues lib coord next ∧
      ∀ batch state, batch < count → next.batch batch = some state → state.timer = .done := by
  induction count with
  | zero => exact ⟨coord, .refl, by simp⟩
  | succ count ih =>
    obtain ⟨middle, continues, done⟩ := ih
    cases found : middle.batch count with
    | none =>
      refine ⟨middle, continues, fun batch state below found' => ?_⟩
      obtain before | rfl := Nat.lt_succ_iff_lt_or_eq.1 below
      · exact done batch state before found'
      · rw [found] at found'
        cases found'
    | some state =>
      obtain ⟨next, state', more, reached, done', others⟩ := (continues.good good).finish_timer found
      refine ⟨next, continues.trans more, fun batch other below found' => ?_⟩
      obtain before | rfl := Nat.lt_succ_iff_lt_or_eq.1 below
      · rw [others batch (Nat.ne_of_lt before)] at found'
        exact done batch other before found'
      · rw [reached, Option.some.injEq] at found'
        rw [← found', done']

def Idle (coord : Coordinator A V P F K) : Prop :=
  ∀ batch state, coord.batch batch = some state → state.timer = .done

theorem settle_keeps (state : DebounceState A V P F K) (progress : Settle) :
    (Coordinator.settle state progress).1.timer = state.timer ∧
      (Coordinator.settle state progress).1.onSettled = state.onSettled := by
  unfold Coordinator.settle
  cases progress with
  | waiting =>
    dsimp only
    split
    · exact ⟨rfl, rfl⟩
    · split <;> exact ⟨rfl, rfl⟩
  | invoking next =>
    dsimp only
    split <;> exact ⟨rfl, rfl⟩

/-- A bound on the steps that a call has before it when no task of a batch is running. -/
def leftOf (coord : Coordinator A V P F K) : Canceller → Nat
  | .locking _ => 1
  | .joining batch => ((coord.batch batch).elim 0 fun state => state.onSettled.length) + 4
  | .settling batch .waiting => ((coord.batch batch).elim 0 fun state => state.onSettled.length) + 3
  | .settling batch (.invoking next) =>
      ((coord.batch batch).elim 0 fun state => state.onSettled.length) - next + 1
  | .done => 0

theorem Good.closer (good : Good lib coord) (idle : Idle coord) {call : Nat}
    (active : coord.canceller call ≠ .done) : Idle (coord.stepCanceller call) ∧
      (∀ other ≠ call, (coord.stepCanceller call).canceller other = coord.canceller other) ∧
      leftOf (coord.stepCanceller call) ((coord.stepCanceller call).canceller call) <
        leftOf coord (coord.canceller call) := by
  have others : ∀ canceller, ∀ other ≠ call,
      Function.update coord.canceller call canceller other = coord.canceller other :=
    fun canceller other apart => Function.update_of_ne apart ..
  unfold Coordinator.stepCanceller
  cases phase : coord.canceller call with
  | done => exact absurd phase active
  | locking sessionKey =>
    cases pending : coord.pending.get? sessionKey with
    | none =>
      simp only [pending, Option.bind_none]
      refine ⟨idle, others _, ?_⟩
      simp [Coordinator.setCanceller, leftOf]
    | some batch =>
      obtain ⟨state, found, rfl, -⟩ := good.latest sessionKey batch pending
      obtain ⟨first, rest, holding, tail, story⟩ := good.story batch state found
      have early := (story.going pending).2.2.1
      rw [idle batch state found] at early
      cases early
  | joining batch =>
    have holds : (coord.canceller call).holds batch = some none := by simp [phase, Canceller.holds]
    obtain ⟨state, found⟩ := (good.known batch).1 (good.held call batch (by simp [holds]))
    simp only [found, Option.all_some, idle batch state found, decide_true, if_true]
    refine ⟨idle, others _, ?_⟩
    simp [Coordinator.setCanceller, leftOf]
  | settling batch progress =>
    have holds : (coord.canceller call).holds batch = some (some progress) := by
      simp [phase, Canceller.holds]
    obtain ⟨state, found⟩ := (good.known batch).1 (good.held call batch (by simp [holds]))
    obtain ⟨first, rest, holding, tail, story⟩ := good.story batch state found
    obtain rfl := story.holder.eq holds
    simp only [found]
    obtain ⟨timer, onSettled⟩ := settle_keeps state progress
    refine ⟨fun other state' found' => ?_, others _, ?_⟩
    · by_cases own : other = batch
      · subst own
        obtain rfl : (Coordinator.settle state progress).1 = state' := by
          simpa [Coordinator.setBatch, Coordinator.setCanceller] using found'
        rw [timer]
        exact idle other state found
      · exact idle other state' (by simpa [Coordinator.setBatch, Coordinator.setCanceller, own] using found')
    · cases progress with
      | waiting =>
        have unlocked : state.settleLocked = false := by
          have stage := story.stage
          rw [idle batch state found] at stage
          generalize state.settleLocked = locked at stage ⊢
          generalize state.cancelling = cancelling at stage
          generalize state.settled = settled at stage
          generalize decide (coord.pending.get? state.sessionKey = some batch) = here at stage
          cases stage with
          | neverStarted waits => rfl
          | settledItself waits => rfl
        rw [settle_waiting unlocked]
        cases state.settled <;> simp [Coordinator.setBatch, Coordinator.setCanceller, leftOf, found]
      | invoking next =>
        by_cases more : next < state.onSettled.length
        · simp only [Coordinator.settle, Coordinator.setBatch, Coordinator.setCanceller, leftOf, found,
              List.getElem?_eq_getElem more,
            Function.update_self, Option.elim_some]
          omega
        · simp [Coordinator.settle, Coordinator.setBatch, Coordinator.setCanceller, leftOf, more]

theorem Good.finish_call (good : Good lib coord) (idle : Idle coord) (call : Nat) :
    ∃ next, Continues lib coord next ∧ Idle next ∧ next.canceller call = .done ∧
      ∀ other ≠ call, next.canceller other = coord.canceller other := by
  induction left : leftOf coord
      (coord.canceller call) using Nat.strong_induction_on generalizing coord with
  | _ count ih =>
    by_cases active : coord.canceller call = .done
    · exact ⟨coord, .refl, idle, active, fun _ _ => rfl⟩
    · obtain ⟨idle', others, closer⟩ := good.closer idle active
      obtain ⟨next, continues, quiet, done, others'⟩ := ih _ (left ▸ closer) (good.stepCanceller call) idle' rfl
      refine ⟨next, .after rfl (show coord.step lib (.stepCanceller call) = _ from rfl) continues,
          quiet, done, ?_⟩
      intro other apart
      rw [others' other apart, others other apart]

theorem Good.finish_calls (good : Good lib coord) (idle : Idle coord) (count : Nat) :
    ∃ next, Continues lib coord next ∧ Idle next ∧ (∀ call < count, next.canceller call = .done) ∧
      ∀ call, count ≤ call → next.canceller call = coord.canceller call := by
  induction count with
  | zero => exact ⟨coord, .refl, idle, by simp, fun _ _ => rfl⟩
  | succ count ih =>
    obtain ⟨middle, continues, quiet, done, others⟩ := ih
    obtain ⟨next, more, quiet', done', others'⟩ := (continues.good good).finish_call quiet count
    refine ⟨next, continues.trans more, quiet', fun call below => ?_, fun call above => ?_⟩
    · obtain before | rfl := Nat.lt_succ_iff_lt_or_eq.1 below
      · rw [others' call (Nat.ne_of_lt before), done call before]
      · exact done'
    · rw [others' call (by omega), others call (by omega)]

theorem Good.finishes (good : Good lib coord) :
    ∃ next, Continues lib coord next ∧ ∀ batch state, next.batch batch = some state →
      Finished next batch state := by
  obtain ⟨middle, continues, done⟩ := good.finish_timers coord.opened
  have good' := continues.good good
  have idle : Idle middle := by
    intro batch state found
    refine done batch state ?_ found
    rw [← continues.counts.1]
    exact (good'.known batch).2 ⟨state, found⟩
  obtain ⟨next, more, quiet, calls, later⟩ := good'.finish_calls idle middle.calls
  refine ⟨next, continues.trans more, fun batch state found => ⟨quiet batch state found, fun call => ?_⟩⟩
  have done : next.canceller call = .done := by
    by_cases known : call < middle.calls
    · exact calls call known
    · rw [later call (by omega), good'.fresh call (by omega)]
  rw [done]
  rfl

theorem debounced_messages_are_coalesced (lib : MetadataLibrary V) (inputs : List (Input A V P F K)) :
    let coord := run (Coordinator.step lib) .start inputs
    received coord.log = inputs.filterMap Input.scheduled? ∧
    (∀ entry ∈ coord.log, ∃ state, coord.batch entry.1 = some state) ∧
    (∀ batch state, coord.batch batch = some state →
      ∃ first rest tail, Coalesced lib coord batch state first rest tail) ∧
    (∀ batch state, coord.batch batch = some state →
      (∀ event ∈ history batch coord.log, event.ends = false) →
      coord.pending.get? state.sessionKey = some batch) ∧
    (coord.log.Pairwise fun earlier entry => earlier.2.ends = true → ∀ sessionKey message onSettled,
      entry.2 = .scheduled sessionKey message onSettled → ∀ state, coord.batch earlier.1 = some state →
        state.sessionKey = sessionKey → earlier.1 < entry.1) ∧
    ∃ next, Continues lib coord next ∧ ∀ batch state, next.batch batch = some state →
      Finished next batch state := by
  intro coord
  have good : Good lib coord := good_run inputs
  refine ⟨?_, ?_, ?_, ?_, good.later, good.finishes⟩
  · have whole := @received_run A V P F K lib .start inputs
    rwa [show received (Coordinator.start (A := A) (V := V) (P := P) (F := F) (K := K)).log = [] from rfl,
        List.nil_append] at whole
  · exact fun entry mem => (good.known entry.1).1 (good.logged entry mem)
  · exact fun batch state found => good.coalesced found
  · exact fun batch state found going => good.pending found going

end OpenSquilla.Channels.Debounce
