import OpenSquilla.Channels.Debounce

set_option autoImplicit false

namespace OpenSquilla.Channels.Debounce

open TextLines

variable {A V P F K : Type}

def history (batch : Nat) (log : List (Nat × Event A V P F K)) : List (Event A V P F K) :=
  (log.filter fun entry => entry.1 = batch).map Prod.snd

@[simp] theorem history_nil (batch : Nat) : history batch ([] : List (Nat × Event A V P F K)) = [] := rfl

@[simp] theorem history_append (batch : Nat) (log more : List (Nat × Event A V P F K)) :
    history batch (log ++ more) = history batch log ++ history batch more := by
  simp [history]

@[simp] theorem history_own (batch : Nat) (events : List (Event A V P F K)) :
    history batch (events.map fun event => (batch, event)) = events := by
  simp [history, List.filter_map, Function.comp_def]

theorem history_other {batch other : Nat} (apart : other ≠ batch) (events : List (Event A V P F K)) :
    history batch (events.map fun event => (other, event)) = [] := by
  simp [history, List.filter_map, Function.comp_def, apart]

def Canceller.holds (batch : Nat) : Canceller → Option (Option Settle)
  | .joining held => if held = batch then some none else none
  | .settling held progress => if held = batch then some (some progress) else none
  | .locking _ | .done => none

-- The one call that took the batch and is not done with it, or none.
def Holder (cancellers : Nat → Canceller) (batch : Nat) : Option (Option Settle) → Prop
  | none => ∀ call, (cancellers call).holds batch = none
  | some holding => ∃ call, (cancellers call).holds batch = some holding ∧
      ∀ other, (cancellers other).holds batch ≠ none → other = call

theorem holder_update {cancellers : Nat → Canceller} {call batch : Nat} (canceller : Canceller)
    (alone : ∀ other ≠ call, (cancellers other).holds batch = none) :
    Holder (Function.update cancellers call canceller) batch (canceller.holds batch) := by
  have others : ∀ other ≠ call, (Function.update cancellers call canceller other).holds batch = none := by
    intro other apart
    rw [Function.update_of_ne apart]
    exact alone other apart
  cases holds : canceller.holds batch with
  | none =>
    intro other
    by_cases own : other = call
    · rw [own, Function.update_self, holds]
    · exact others other own
  | some holding =>
    refine ⟨call, by rw [Function.update_self, holds], fun other held => ?_⟩
    by_contra apart
    exact held (others other apart)

variable {holding : Option (Option Settle)} {batch : Nat}

theorem Holder.alone {cancellers : Nat → Canceller} (holder : Holder cancellers batch holding) {call : Nat}
    (mine : holding = none ∨ (cancellers call).holds batch ≠ none) :
    ∀ other ≠ call, (cancellers other).holds batch = none := by
  intro other apart
  cases holding with
  | none => exact holder other
  | some holding =>
    obtain ⟨taker, -, unique⟩ := holder
    obtain absent | held := mine
    · cases absent
    · by_contra also
      exact apart ((unique other also).trans (unique call held).symm)

theorem Holder.eq {cancellers : Nat → Canceller} {batch call : Nat} {held : Option Settle}
    (holder : Holder cancellers batch holding) (holds : (cancellers call).holds batch = some held) :
    holding = some held := by
  cases holding with
  | none =>
    rw [holder call] at holds
    cases holds
  | some holding =>
    obtain ⟨taker, taken, unique⟩ := holder
    have same : call = taker := unique call (by simp [holds])
    rw [← taken, ← same, holds]

def Timer.isEarly : Timer → Bool
  | .created | .sleeping | .locking => true
  | _ => false

-- The task has come to its `finally`, and nothing was settled yet.
def Timer.isClosing : Timer → Bool
  | .closing | .settling .waiting => true
  | _ => false

/-- Where a batch stands: its task, whether the task is to be cancelled, whether it was settled and whether its lock
is held, whether it is pending, what its canceller does and what happened since its last message. -/
inductive Stage (fired : Event A V P F K) (onSettled : List K) :
    Timer → Bool → Bool → Bool → Bool → Option (Option Settle) → List (Event A V P F K) → Prop
  | pending {timer : Timer}
      (early : timer.isEarly = true) : Stage fired onSettled timer false false false true none []
  | firing : Stage fired onSettled .firing false false false false none [fired]
  | returned {timer : Timer} (closing : timer.isClosing = true) (raised : Bool) :
      Stage fired onSettled timer false false false false none [fired, .returned raised]
  | settling {next : Nat} (within : next ≤ onSettled.length) (raised : Bool) :
      Stage fired onSettled (.settling (.invoking next)) false true true false none
        ([fired, .returned raised] ++ (onSettled.take next).map .settled)
  | done (raised : Bool) :
      Stage fired onSettled .done false true false false none
        ([fired, .returned raised] ++ onSettled.map .settled)
  | cancelling {timer : Timer} (early : timer.isEarly = true) :
      Stage fired onSettled timer true false false false (some none) [.cancelled]
  | interrupted {timer : Timer} (closing : timer.isClosing = true) :
      Stage fired onSettled timer false false false false (some none) [.cancelled]
  | settlingItself {next : Nat} (within : next ≤ onSettled.length) :
      Stage fired onSettled (.settling (.invoking next)) false true true false (some none)
        ([.cancelled] ++ (onSettled.take next).map .settled)
  | neverStarted {holding : Option Settle} (waits : ∀ next, holding ≠ some (.invoking next)) :
      Stage fired onSettled .done false false false false (some holding) [.cancelled]
  | settledItself {holding : Option Settle} (waits : ∀ next, holding ≠ some (.invoking next)) :
      Stage fired onSettled .done false true false false (some holding) ([.cancelled] ++ onSettled.map .settled)
  | settlingForIt {next : Nat} (within : next ≤ onSettled.length) :
      Stage fired onSettled .done false true true false (some (some (.invoking next)))
        ([.cancelled] ++ (onSettled.take next).map .settled)
  | ended : Stage fired onSettled .done false true false false none ([.cancelled] ++ onSettled.map .settled)

section Invariants

variable (lib : MetadataLibrary V)

structure Story (coord : Coordinator A V P F K) (batch : Nat) (state : DebounceState A V P F K)
    (first : IncomingMessage A V P × Option K) (rest : List (IncomingMessage A V P × Option K))
    (holding : Option (Option Settle)) (tail : List (Event A V P F K)) : Prop where
  buffer : state.buffer = (first :: rest).map Prod.fst
  onSettled : state.onSettled = (first :: rest).filterMap Prod.snd
  happened : history batch coord.log =
    ((first :: rest).map fun received => .scheduled state.sessionKey received.1 received.2) ++ tail
  holder : Holder coord.canceller batch holding
  stage : Stage
    (.fired state.onFire (combine lib first.1 state.buffer)) state.onSettled state.timer state.cancelling
    state.settled state.settleLocked
      (decide (coord.pending.get? state.sessionKey = some batch)) holding tail

def Event.isScheduled : Event A V P F K → Bool
  | .scheduled _ _ _ => true
  | _ => false

-- A batch that was fired or cancelled takes no further message.
def Event.ends : Event A V P F K → Bool
  | .fired _ _ | .cancelled => true
  | _ => false

structure Good (coord : Coordinator A V P F K) : Prop where
  known : ∀ batch, batch < coord.opened ↔ ∃ state, coord.batch batch = some state
  logged : ∀ entry ∈ coord.log, entry.1 < coord.opened
  held : ∀ call batch, (coord.canceller call).holds batch ≠ none → batch < coord.opened
  fresh : ∀ call, coord.calls ≤ call → coord.canceller call = .done
  latest : ∀ sessionKey batch, coord.pending.get? sessionKey = some batch →
    ∃ state, coord.batch batch = some state ∧ state.sessionKey = sessionKey ∧
      ∀ other earlier, coord.batch other = some earlier → earlier.sessionKey = sessionKey → other ≤ batch
  story : ∀ batch state, coord.batch batch = some state →
    ∃ first rest holding tail, Story lib coord batch state first rest holding tail
  later : coord.log.Pairwise fun earlier entry => earlier.2.ends = true → ∀ sessionKey message onSettled,
    entry.2 = .scheduled sessionKey message onSettled → ∀ state, coord.batch earlier.1 = some state →
      state.sessionKey = sessionKey → earlier.1 < entry.1

theorem good_start : Good lib (.start : Coordinator A V P F K) where
  known := by simp [Coordinator.start]
  logged := by simp [Coordinator.start]
  held := by simp [Coordinator.start, Canceller.holds]
  fresh := fun _ _ => rfl
  latest := by simp [Coordinator.start]
  story := by simp [Coordinator.start]
  later := List.Pairwise.nil

variable {lib} {coord : Coordinator A V P F K} {rest : List (IncomingMessage A V P × Option K)}
variable {first : IncomingMessage A V P × Option K}

theorem Story.frame {next : Coordinator A V P F K} {state : DebounceState A V P F K}
    {tail : List (Event A V P F K)}
    (story : Story lib coord batch state first rest holding tail)
    (pending : next.pending.get? state.sessionKey = some batch ↔
      coord.pending.get? state.sessionKey = some batch)
    (log : history batch next.log = history batch coord.log)
    (cancellers : ∀ call, (next.canceller call).holds batch = (coord.canceller call).holds batch) :
    Story lib next batch state first rest holding tail where
  buffer := story.buffer
  onSettled := story.onSettled
  happened := by rw [log, story.happened]
  holder := by
    have holder := story.holder
    cases holding with
    | none => simpa [Holder, cancellers] using holder
    | some holding => simpa [Holder, cancellers] using holder
  stage := by
    simp only [pending]
    exact story.stage

-- The batch is in the next state, and maybe it is no longer pending.
def advanced (coord : Coordinator A V P F K) (batch : Nat) (released : Bool) (state : DebounceState A V P F K)
    (events : List (Event A V P F K)) (cancellers : Nat → Canceller) : Coordinator A V P F K :=
  { coord with
    pending := if released then coord.pending.erase state.sessionKey else coord.pending
    batch := Function.update coord.batch batch (some state)
    canceller := cancellers
    log := coord.log ++ events.map fun event => (batch, event) }

theorem get?_advanced {batch other : Nat} {released : Bool} {state : DebounceState A V P F K}
    {events : List (Event A V P F K)} {cancellers : Nat → Canceller} (sessionKey : Text)
    (here : released = true → coord.pending.get? state.sessionKey = some batch) :
    (advanced coord batch released state events cancellers).pending.get? sessionKey = some other ↔
      coord.pending.get? sessionKey = some other ∧
        (released = true → other ≠ batch ∨ sessionKey ≠ state.sessionKey) := by
  unfold advanced
  cases released with
  | false => simp
  | true =>
    have here := here rfl
    simp only [if_true, Dict.get?_erase, true_implies]
    by_cases own : sessionKey = state.sessionKey
    · subst own
      simp only [if_true, here, Option.some.injEq]
      constructor
      · intro none_
        cases none_
      · rintro ⟨rfl, apart | apart⟩
        · exact absurd rfl apart
        · exact absurd rfl apart
    · simp [own]

theorem Story.going {state : DebounceState A V P F K} {tail : List (Event A V P F K)}
    (story : Story lib coord batch state first rest holding tail)
    (here : coord.pending.get? state.sessionKey = some batch) :
    tail = [] ∧ holding = none ∧ state.timer.isEarly = true ∧ state.cancelling = false ∧ state.settled = false ∧
      state.settleLocked = false := by
  have stage := story.stage
  simp only [here, decide_true] at stage
  generalize state.timer = timer at stage ⊢
  generalize state.cancelling = cancelling at stage ⊢
  generalize state.settled = settled at stage ⊢
  generalize state.settleLocked = locked at stage ⊢
  cases stage with
  | pending early => exact ⟨rfl, rfl, early, rfl, rfl, rfl⟩

theorem mem_history {entry : Nat × Event A V P F K} {log : List (Nat × Event A V P F K)} (mem : entry ∈ log) :
    entry.2 ∈ history entry.1 log :=
  List.mem_map.2 ⟨entry, List.mem_filter.2 ⟨mem, by simp⟩, rfl⟩

theorem Good.ended_before (good : Good lib coord) {sessionKey : Text}
    (here : coord.pending.get? sessionKey = some batch) {entry : Nat × Event A V P F K}
    (mem : entry ∈ coord.log) (ends : entry.2.ends = true) {state : DebounceState A V P F K}
    (found : coord.batch entry.1 = some state) (key : state.sessionKey = sessionKey) : entry.1 < batch := by
  obtain ⟨current, found', key', latest⟩ := good.latest sessionKey batch here
  refine Nat.lt_of_le_of_ne (latest entry.1 state found key) fun own => ?_
  obtain ⟨first, rest, holding, tail, story⟩ := good.story entry.1 state found
  obtain ⟨rfl, -⟩ := story.going (by rw [key, own, here])
  have happened := mem_history mem
  rw [story.happened, List.append_nil] at happened
  obtain ⟨received, -, is⟩ := List.mem_map.1 happened
  rw [← is] at ends
  cases ends

theorem Good.advanceWith (good : Good lib coord) {state after : DebounceState A V P F K}
    (found : coord.batch batch = some state) {released : Bool} {cancellers : Nat → Canceller}
    {events : List (Event A V P F K)} (key : after.sessionKey = state.sessionKey)
    (received : ∀ event ∈ events, ∀ sessionKey message onSettled,
      event = .scheduled sessionKey message onSettled →
      events = [event] ∧ sessionKey = state.sessionKey ∧ coord.pending.get? state.sessionKey = some batch)
    (here : released = true → coord.pending.get? state.sessionKey = some batch)
    (others : ∀ other ≠ batch, ∀ call, (cancellers call).holds other = (coord.canceller call).holds other)
    (fresh : ∀ call, coord.calls ≤ call → cancellers call = .done)
    (story : ∃ first rest holding tail,
      Story lib
        (advanced coord batch released after events cancellers) batch after first rest holding tail) :
    Good lib (advanced coord batch released after events cancellers) := by
  have pendings :=
    fun other sessionKey => @get?_advanced A V P F K coord batch other released after events cancellers
    sessionKey (by rwa [key])
  refine ⟨fun other => ?_, ?_, fun call other holds => ?_, fresh, fun sessionKey other pending => ?_,
      fun other state' found' => ?_, ?_⟩
  · show other < coord.opened ↔ ∃ state,
        Function.update coord.batch batch (some after) other = some state
    by_cases own : other = batch
    · subst own
      simpa using (good.known other).2 ⟨state, found⟩
    · simpa [own] using good.known other
  · show ∀ entry ∈ coord.log ++ events.map fun event => (batch, event), entry.1 < coord.opened
    rw [List.forall_mem_append]
    refine ⟨good.logged, fun entry mem => ?_⟩
    obtain ⟨event, -, rfl⟩ := List.mem_map.1 mem
    exact (good.known batch).2 ⟨state, found⟩
  · by_cases own : other = batch
    · subst own
      exact (good.known other).2 ⟨state, found⟩
    · exact good.held call other (by rwa [← others other own call])
  · obtain ⟨state', found', key', latest⟩ :=
      good.latest sessionKey other ((pendings other sessionKey).1 pending).1
    have earlier : ∀ before : Nat, ∀ old,
        Function.update coord.batch batch (some after) before = some old →
        old.sessionKey = sessionKey → before ≤ other := by
      intro before old found'' key''
      by_cases own : before = batch
      · subst own
        rw [Function.update_self, Option.some.injEq] at found''
        rw [← found'', key] at key''
        exact latest before state found key''
      · rw [Function.update_of_ne own] at found''
        exact latest before old found'' key''
    by_cases own : other = batch
    · subst own
      rw [found, Option.some.injEq] at found'
      refine ⟨after, Function.update_self .., ?_, earlier⟩
      rw [key, found', key']
    · exact ⟨state', (Function.update_of_ne own ..).trans found', key', earlier⟩
  · by_cases own : other = batch
    · subst own
      obtain rfl : after = state' := by simpa [advanced] using found'
      exact story
    · have found' : coord.batch other = some state' := by simpa [advanced, own] using found'
      obtain ⟨first', rest', holding', tail', story'⟩ := good.story other state' found'
      refine ⟨first', rest', holding', tail', story'.frame ?_ ?_ (others other own)⟩
      · rw [pendings]
        exact and_iff_left fun _ => .inl own
      · show history other (coord.log ++ events.map fun event => (batch, event)) = _
        rw [history_append, history_other (Ne.symm own), List.append_nil]
  · -- the batch of an entry keeps its key, so only what is received now is to be compared
    have keys : ∀ other state', Function.update coord.batch batch (some after) other = some state' →
        ∃ before, coord.batch other = some before ∧ before.sessionKey = state'.sessionKey := by
      intro other state' found'
      by_cases own : other = batch
      · subst own
        obtain rfl : after = state' := by simpa using found'
        exact ⟨state, found, key.symm⟩
      · exact ⟨state', by simpa [own] using found', rfl⟩
    show (coord.log ++ events.map fun event => (batch, event)).Pairwise _
    rw [List.pairwise_append]
    refine ⟨?_, ?_, ?_⟩
    · refine good.later.imp fun {earlier entry} later ends sessionKey message callback is state' found' key' => ?_
      obtain ⟨before, known, key''⟩ := keys earlier.1 state' found'
      exact later ends sessionKey message callback is before known (key''.trans key')
    · rw [List.pairwise_map]
      by_cases single : ∃ event ∈ events, event.isScheduled = true
      · obtain ⟨event, mem, scheduled⟩ := single
        cases event with
        | scheduled sessionKey message callback =>
          rw [(received _ mem sessionKey message callback rfl).1]
          exact List.pairwise_singleton _ _
        | _ => cases scheduled
      · refine List.pairwise_of_forall_mem_list fun earlier _ entry mem ends sessionKey message callback is => ?_
        refine absurd ⟨entry, mem, ?_⟩ single
        rw [show entry = _ from is]
        rfl
    · intro earlier mem entry member' ends sessionKey message callback is state' found' key'
      obtain ⟨event, there, rfl⟩ := List.mem_map.1 member'
      obtain ⟨-, rfl, pending⟩ := received event there sessionKey message callback is
      obtain ⟨before, known, key''⟩ := keys earlier.1 state' found'
      exact good.ended_before pending mem ends known (key''.trans key')

theorem Good.advance (good : Good lib coord) {state after : DebounceState A V P F K}
    (found : coord.batch batch = some state)
    {holding holding' : Option (Option Settle)} {tail events : List (Event A V P F K)}
    (story : Story lib coord batch state first rest holding tail) {released : Bool}
    {cancellers : Nat → Canceller}
    (same : after.sessionKey = state.sessionKey ∧ after.buffer = state.buffer ∧ after.onFire = state.onFire ∧
      after.onSettled = state.onSettled)
    (quiet : ∀ event ∈ events, event.isScheduled = false)
    (here : released = true → coord.pending.get? state.sessionKey = some batch)
    (others : ∀ other ≠ batch, ∀ call, (cancellers call).holds other = (coord.canceller call).holds other)
    (holder : Holder cancellers batch holding') (fresh : ∀ call, coord.calls ≤ call →
      cancellers call = .done)
    (stage : Stage
      (.fired after.onFire (combine lib first.1 after.buffer)) after.onSettled after.timer after.cancelling
      after.settled after.settleLocked
        (decide (coord.pending.get? state.sessionKey = some batch) && !released)
      holding' (tail ++ events)) :
    Good lib (advanced coord batch released after events cancellers) := by
  obtain ⟨key, buffer, onFire, onSettled⟩ := same
  refine good.advanceWith found key ?_ here others fresh ⟨first, rest, holding', tail ++ events, ?_⟩
  · rintro event mem sessionKey message callback rfl
    exact absurd (quiet _ mem) (by simp [Event.isScheduled])
  · refine ⟨buffer.trans story.buffer, onSettled.trans story.onSettled, ?_, holder, ?_⟩
    · show history batch (coord.log ++ events.map fun event => (batch, event)) = _
      rw [history_append, history_own, story.happened, key, List.append_assoc]
    · convert stage using 1
      have pending := @get?_advanced A V P F K coord batch batch released after events cancellers
        state.sessionKey (by rwa [key])
      rw [Bool.eq_iff_iff]
      cases released <;> simp [pending, key]

end Invariants

section Steps

variable {lib : MetadataLibrary V} {coord : Coordinator A V P F K}

theorem settle_waiting {state : DebounceState A V P F K} (unlocked : state.settleLocked = false) :
    Coordinator.settle state .waiting =
      if state.settled then (state, none, []) else
          ({ state with settled := true, settleLocked := true }, some (.invoking 0), []) := by
  simp [Coordinator.settle, unlocked]

theorem settle_invoking {state : DebounceState A V P F K} {next : Nat} (within : next ≤ state.onSettled.length) :
    (∃ callback,
      Coordinator.settle state (.invoking next) = (state, some (.invoking (next + 1)), [.settled callback]) ∧
      next + 1 ≤ state.onSettled.length ∧
      (state.onSettled.take (next + 1)).map (Event.settled (A := A) (V := V) (P := P) (F := F)) =
        (state.onSettled.take next).map .settled ++ [.settled callback]) ∨
    (Coordinator.settle state (.invoking next) = ({ state with settleLocked := false }, none, []) ∧
      state.onSettled.take next = state.onSettled) := by
  unfold Coordinator.settle
  by_cases more : next < state.onSettled.length
  · refine .inl ⟨state.onSettled[next], by simp [more], more, ?_⟩
    rw [List.take_succ_eq_append_getElem more, List.map_append]
    rfl
  · have all : state.onSettled.length = next := by omega
    exact .inr ⟨by simp [all], by rw [← all, List.take_length]⟩

-- A bound on the steps that the task of a batch has before it.
def DebounceState.left (state : DebounceState A V P F K) : Nat :=
  match state.timer with
  | .created => state.onSettled.length + 7
  | .sleeping => state.onSettled.length + 6
  | .locking => state.onSettled.length + 5
  | .firing => state.onSettled.length + 4
  | .closing => state.onSettled.length + 3
  | .settling .waiting => state.onSettled.length + 2
  | .settling (.invoking next) => state.onSettled.length - next + 1
  | .done => 0

structure Moves (lib : MetadataLibrary V) (coord : Coordinator A V P F K) (batch : Nat)
    (state : DebounceState A V P F K)
    (first : IncomingMessage A V P) (holding : Option (Option Settle)) (tail : List (Event A V P F K))
    (next : Coordinator A V P F K) (released : Bool) (after : DebounceState A V P F K)
    (events : List (Event A V P F K)) : Prop where
  advances : next = advanced coord batch released after events coord.canceller
  same : after.sessionKey = state.sessionKey ∧ after.buffer = state.buffer ∧ after.onFire = state.onFire ∧
    after.onSettled = state.onSettled
  quiet : ∀ event ∈ events, event.isScheduled = false
  closer : after.left < state.left
  here : released = true → coord.pending.get? state.sessionKey = some batch
  stage : Stage
    (.fired after.onFire (combine lib first after.buffer)) after.onSettled after.timer after.cancelling
    after.settled after.settleLocked
      (decide (coord.pending.get? state.sessionKey = some batch) && !released)
    holding (tail ++ events)

theorem release_of_elsewhere {sessionKey : Text} (elsewhere : coord.pending.get? sessionKey ≠ some batch) :
    coord.release sessionKey batch = coord := by
  simp [Coordinator.release, elsewhere]

theorem Moves.keep {state after : DebounceState A V P F K} {first : IncomingMessage A V P}
    {tail events : List (Event A V P F K)} {pending : Bool}
    (here : decide (coord.pending.get? state.sessionKey = some batch) = pending)
    (same : after.sessionKey = state.sessionKey ∧ after.buffer = state.buffer ∧ after.onFire = state.onFire ∧
      after.onSettled = state.onSettled)
    (quiet : ∀ event ∈ events, event.isScheduled = false) (closer : after.left < state.left)
    (stage : Stage
      (.fired after.onFire (combine lib first after.buffer)) after.onSettled after.timer after.cancelling
      after.settled after.settleLocked pending holding (tail ++ events)) :
    Moves lib coord batch state first holding tail
      (coord.setBatch batch after events) false after events where
  advances := rfl
  same := same
  quiet := quiet
  closer := closer
  here := by simp
  stage := by simpa [here] using stage

theorem moves_stepTimer {state : DebounceState A V P F K} {first : IncomingMessage A V P × Option K}
    {rest : List (IncomingMessage A V P × Option K)} {tail : List (Event A V P F K)}
    (found : coord.batch batch = some state) (story : Story lib coord batch state first rest holding tail)
    (raised : Bool) : (state.timer = .done ∧ coord.stepTimer lib batch raised = coord) ∨
      ∃ released after events, Moves lib coord batch state first.1 holding tail
        (coord.stepTimer lib batch raised) released after events := by
  obtain ⟨buffer_, -, -, -, stage⟩ := story
  obtain ⟨sessionKey, buffer, onFire, onSettled, timer, cancelling, settled, locked⟩ := state
  dsimp only at stage buffer_
  generalize here : decide (coord.pending.get? sessionKey = some batch) = pendingHere at stage
  unfold Coordinator.stepTimer
  rw [found]
  cases stage with
  | pending early =>
    have mine := of_decide_eq_true here
    cases timer with
    | created =>
        exact .inr ⟨false, _, [],
            .keep here ⟨rfl, rfl, rfl, rfl⟩ (by simp) (by simp [DebounceState.left]) (.pending rfl)⟩
    | sleeping =>
        exact .inr ⟨false, _, [],
            .keep here ⟨rfl, rfl, rfl, rfl⟩ (by simp) (by simp [DebounceState.left]) (.pending rfl)⟩
    | locking =>
      subst buffer_
      refine .inr ⟨true,
          ⟨sessionKey, (first :: rest).map Prod.fst, onFire, onSettled, .firing, false, false, false⟩,
        [.fired onFire (combine lib first.1 ((first :: rest).map Prod.fst))], ?_, ⟨rfl, rfl, rfl, rfl⟩,
          ?_, ?_, fun _ => mine, ?_⟩
      · simp [mine, Coordinator.release, Coordinator.setBatch, advanced]
      · simp [Event.isScheduled]
      · simp [DebounceState.left]
      · simpa [mine] using Stage.firing
    | _ => cases early
  | firing =>
    exact .inr ⟨false, _, [.returned raised],
        .keep here ⟨rfl, rfl, rfl, rfl⟩ (by simp [Event.isScheduled]) (by simp [DebounceState.left])
          (.returned rfl raised)⟩
  | returned closing before =>
    have elsewhere := of_decide_eq_false here
    cases timer with
    | closing =>
      simp only [Bool.false_eq_true, if_false, release_of_elsewhere elsewhere]
      exact .inr ⟨false, _, [],
          .keep here ⟨rfl, rfl, rfl, rfl⟩ (by simp) (by simp [DebounceState.left])
            (by simpa using .returned rfl before)⟩
    | settling progress =>
      cases progress with
      | waiting =>
        exact .inr ⟨false, _, [],
            .keep here ⟨rfl, rfl, rfl, rfl⟩ (by simp) (by simp [DebounceState.left])
              (by simpa using .settling (Nat.zero_le _) before)⟩
      | invoking next => cases closing
    | _ => cases closing
  | @settling next within before =>
    obtain ⟨callback, steps, within', longer⟩ | ⟨steps, all⟩ :=
      @settle_invoking A V P F K ⟨sessionKey, buffer, onFire, onSettled, .settling (.invoking next), false,
        true, true⟩ next within
    · simp only [Bool.false_eq_true, if_false, steps]
      exact .inr ⟨false, _, _, .keep here ⟨rfl, rfl, rfl, rfl⟩ (by simp [Event.isScheduled])
        (by simp only [DebounceState.left, Option.elim_some] at within' ⊢; omega)
        (by rw [List.append_assoc, ← longer]; exact .settling within' before)⟩
    · simp only [Bool.false_eq_true, if_false, steps]
      exact .inr ⟨false, _, _, .keep here ⟨rfl, rfl, rfl, rfl⟩ (by simp) (by simp [DebounceState.left])
        (by rw [List.append_nil, all]; exact .done before)⟩
  | done before => exact .inl ⟨rfl, rfl⟩
  | cancelling early =>
    cases timer with
    | created =>
      exact .inr ⟨false, _, [],
          .keep here ⟨rfl, rfl, rfl, rfl⟩ (by simp) (by simp [DebounceState.left, Coordinator.interrupted])
            (by simpa using .neverStarted (by simp))⟩
    | sleeping =>
        exact .inr ⟨false, _, [],
            .keep here ⟨rfl, rfl, rfl, rfl⟩ (by simp)
              (by simp [DebounceState.left, Coordinator.interrupted]) (.interrupted rfl)⟩
    | locking =>
        exact .inr ⟨false, _, [],
            .keep here ⟨rfl, rfl, rfl, rfl⟩ (by simp)
              (by simp [DebounceState.left, Coordinator.interrupted]) (.interrupted rfl)⟩
    | _ => cases early
  | interrupted closing =>
    have elsewhere := of_decide_eq_false here
    cases timer with
    | closing =>
      simp only [Bool.false_eq_true, if_false, release_of_elsewhere elsewhere]
      exact .inr ⟨false, _, [],
          .keep here ⟨rfl, rfl, rfl, rfl⟩ (by simp) (by simp [DebounceState.left]) (.interrupted rfl)⟩
    | settling progress =>
      cases progress with
      | waiting =>
        exact .inr ⟨false, _, [],
            .keep here ⟨rfl, rfl, rfl, rfl⟩ (by simp) (by simp [DebounceState.left])
              (.settlingItself (Nat.zero_le _))⟩
      | invoking next => cases closing
    | _ => cases closing
  | @settlingItself next within =>
    obtain ⟨callback, steps, within', longer⟩ | ⟨steps, all⟩ :=
      @settle_invoking A V P F K ⟨sessionKey, buffer, onFire, onSettled, .settling (.invoking next), false,
        true, true⟩ next within
    · simp only [Bool.false_eq_true, if_false, steps]
      exact .inr ⟨false, _, _, .keep here ⟨rfl, rfl, rfl, rfl⟩ (by simp [Event.isScheduled])
        (by simp only [DebounceState.left, Option.elim_some] at within' ⊢; omega)
        (by rw [List.append_assoc, ← longer]; exact .settlingItself within')⟩
    · simp only [Bool.false_eq_true, if_false, steps]
      exact .inr ⟨false, _, _, .keep here ⟨rfl, rfl, rfl, rfl⟩ (by simp) (by simp [DebounceState.left])
        (by rw [List.append_nil, all]; exact .settledItself (by simp))⟩
  | neverStarted waits => exact .inl ⟨rfl, rfl⟩
  | settledItself waits => exact .inl ⟨rfl, rfl⟩
  | settlingForIt within => exact .inl ⟨rfl, rfl⟩
  | ended => exact .inl ⟨rfl, rfl⟩

theorem Good.stepTimer (good : Good lib coord) (batch : Nat) (raised : Bool) :
    Good lib (coord.stepTimer lib batch raised) := by
  cases found : coord.batch batch with
  | none =>
    unfold Coordinator.stepTimer
    rwa [found]
  | some state =>
    obtain ⟨first, rest, holding, tail, story⟩ := good.story batch state found
    obtain ⟨-, unchanged⟩ | ⟨released, after, events, moves⟩ := moves_stepTimer found story raised
    · rwa [unchanged]
    · rw [moves.advances]
      exact good.advance found story moves.same moves.quiet moves.here
          (fun _ _ _ => rfl) story.holder good.fresh moves.stage

theorem Good.reassign (good : Good lib coord) {cancellers : Nat → Canceller} {calls : Nat}
    (same : ∀ batch call, (cancellers call).holds batch = (coord.canceller call).holds batch)
    (fresh : ∀ call, calls ≤ call → cancellers call = .done) :
    Good lib { coord with canceller := cancellers, calls := calls } where
  known := good.known
  logged := good.logged
  held := by
    intro call batch holds
    exact good.held call batch (by rwa [← same batch call])
  fresh := fresh
  latest := good.latest
  story := by
    intro batch state found
    obtain ⟨first, rest, holding, tail, story⟩ := good.story batch state found
    exact ⟨first, rest, holding, tail, story.frame Iff.rfl rfl (same batch)⟩
  later := good.later

theorem Good.startCancel (good : Good lib coord) (sessionKey : Text) :
    Good lib (coord.startCancel sessionKey) := by
  show Good lib { coord with
    canceller := Function.update coord.canceller coord.calls (.locking sessionKey), calls :=
      coord.calls + 1 }
  refine good.reassign (fun batch call => ?_) (fun call later => ?_)
  · by_cases own : call = coord.calls
    · rw [own, Function.update_self, good.fresh _ (Nat.le_refl _)]
      rfl
    · rw [Function.update_of_ne own]
  · rw [Function.update_of_ne (by omega)]
    exact good.fresh call (by omega)

theorem fresh_update (good : Good lib coord) {call : Nat} (active : coord.canceller call ≠ .done)
    (canceller : Canceller) : ∀ other, coord.calls ≤ other →
      Function.update coord.canceller call canceller other = .done := by
  intro other later
  have apart : other ≠ call := by
    rintro rfl
    exact active (good.fresh other later)
  rw [Function.update_of_ne apart]
  exact good.fresh other later

theorem holds_update {cancellers : Nat → Canceller} {call batch : Nat} {canceller : Canceller}
    (before : ∀ other ≠ batch, (cancellers call).holds other = none)
    (after : ∀ other ≠ batch, canceller.holds other = none) : ∀ other ≠ batch, ∀ anyCall,
      (Function.update cancellers call canceller anyCall).holds other = (cancellers anyCall).holds other := by
  intro other apart anyCall
  by_cases own : anyCall = call
  · rw [own, Function.update_self, before other apart, after other apart]
  · rw [Function.update_of_ne own]

theorem Good.stepCanceller (good : Good lib coord) (call : Nat) : Good lib (coord.stepCanceller call) := by
  unfold Coordinator.stepCanceller
  cases phase : coord.canceller call with
  | done => exact good
  | locking sessionKey =>
    have active : coord.canceller call ≠ .done := by simp [phase]
    cases pending : coord.pending.get? sessionKey with
    | none =>
      simp only [pending, Option.bind_none]
      show Good lib
        { coord with
          canceller := Function.update coord.canceller call .done
          calls := coord.calls }
      refine good.reassign (fun batch other => ?_) (fresh_update good active _)
      by_cases own : other = call
      · rw [own, Function.update_self, phase]
        rfl
      · rw [Function.update_of_ne own]
    | some batch =>
      obtain ⟨state, found, rfl, -⟩ := good.latest sessionKey batch pending
      obtain ⟨first, rest, holding, tail, story⟩ := good.story batch state found
      have stage := story.stage
      have holder := story.holder
      simp only [pending, decide_true] at stage
      simp only [pending, Option.bind_some, found, Option.map_some]
      generalize timer_ : state.timer = timer at stage ⊢
      generalize cancelling_ : state.cancelling = cancelling at stage
      generalize settled_ : state.settled = settled at stage
      generalize locked_ : state.settleLocked = locked at stage
      cases stage with
      | pending early =>
        have running : ¬timer = .done := by
          rintro rfl
          cases early
        have next : Good lib (advanced coord batch true { state with cancelling := true } [.cancelled]
            (Function.update coord.canceller call (.joining batch))) :=
          good.advance found story ⟨rfl, rfl, rfl, rfl⟩ (by simp [Event.isScheduled]) (fun _ => pending)
            (holds_update (by simp [phase, Canceller.holds]) (by simp [Canceller.holds, eq_comm]))
            (holder_update _ (holder.alone (.inl rfl))) (fresh_update good active _)
            (by simpa [pending, timer_, settled_, locked_, Canceller.holds] using .cancelling early)
        simpa [running, timer_, settled_, locked_, advanced, Coordinator.release, pending,
            Coordinator.setBatch, Coordinator.setCanceller] using next
  | joining batch =>
    have active : coord.canceller call ≠ .done := by simp [phase]
    have holds : (coord.canceller call).holds batch = some none := by simp [phase, Canceller.holds]
    obtain ⟨state, found⟩ := (good.known batch).1 (good.held call batch (by simp [holds]))
    obtain ⟨first, rest, holding, tail, story⟩ := good.story batch state found
    obtain rfl := story.holder.eq holds
    simp only [found, Option.all_some, decide_eq_true_eq]
    split
    · rename_i finished
      have stage := story.stage
      have next : Good lib (advanced coord batch false state []
          (Function.update coord.canceller call (.settling batch .waiting))) := by
        refine good.advance found story ⟨rfl, rfl, rfl, rfl⟩ (by simp) (by simp)
          (holds_update (by simp [phase, Canceller.holds, eq_comm]) (by simp [Canceller.holds, eq_comm]))
          (holder_update _ (story.holder.alone (.inr (by simp [holds])))) (fresh_update good active _) ?_
        simp only [Canceller.holds, if_true, List.append_nil, Bool.not_false, Bool.and_true]
        rw [finished] at stage ⊢
        generalize state.cancelling = cancelling at stage ⊢
        generalize state.settled = settled at stage ⊢
        generalize state.settleLocked = locked at stage ⊢
        generalize decide (coord.pending.get? state.sessionKey = some batch) = here at stage ⊢
        cases stage with
        | interrupted closing => cases closing
        | cancelling early => cases early
        | neverStarted waits => exact .neverStarted (by simp)
        | settledItself waits => exact .settledItself (by simp)
      have unchanged : Function.update coord.batch batch (some state) = coord.batch := by
        rw [← found]
        exact Function.update_eq_self ..
      simpa [advanced, Coordinator.setCanceller, unchanged] using next
    · exact good
  | settling batch progress =>
    have active : coord.canceller call ≠ .done := by simp [phase]
    have holds : (coord.canceller call).holds batch = some (some progress) := by
      simp [phase, Canceller.holds]
    obtain ⟨state, found⟩ := (good.known batch).1 (good.held call batch (by simp [holds]))
    obtain ⟨first, rest, holding, tail, story⟩ := good.story batch state found
    obtain rfl := story.holder.eq holds
    have moved : ∀ after canceller events, after.sessionKey = state.sessionKey ∧ after.buffer = state.buffer ∧
        after.onFire = state.onFire ∧ after.onSettled = state.onSettled →
        (∀ event ∈ events, event.isScheduled = false) → (∀ other ≠ batch, canceller.holds other = none) →
        Stage (.fired after.onFire
          (combine lib first.1 after.buffer)) after.onSettled after.timer after.cancelling
          after.settled after.settleLocked (decide (coord.pending.get? state.sessionKey = some batch))
          (canceller.holds batch) (tail ++ events) →
        Good lib ((coord.setBatch batch after events).setCanceller call canceller) := by
      intro after canceller events same quiet others stage
      have next : Good lib (advanced coord batch false after events
          (Function.update coord.canceller call canceller)) :=
        good.advance found story same quiet (by simp)
          (holds_update (by simp [phase, Canceller.holds, eq_comm]) others)
          (holder_update _ (story.holder.alone (.inr (by simp [holds])))) (fresh_update good active _)
            (by simpa using stage)
      exact next
    have stage := story.stage
    simp only [found]
    generalize timer_ : state.timer = timer at stage moved
    generalize cancelling_ : state.cancelling = cancelling at stage
    generalize settled_ : state.settled = settled at stage
    generalize locked_ : state.settleLocked = locked at stage
    generalize decide (coord.pending.get? state.sessionKey = some batch) = here at stage moved
    cases stage with
    | neverStarted waits =>
      cases progress with
      | invoking next => exact absurd rfl (waits next)
      | waiting =>
        rw [settle_waiting locked_, settled_]
        refine moved _ _ _ ⟨rfl, rfl, rfl, rfl⟩ (by simp) (by simp [Canceller.holds, eq_comm]) ?_
        simpa [Canceller.holds, timer_, cancelling_] using .settlingForIt (Nat.zero_le _)
    | settledItself waits =>
      cases progress with
      | invoking next => exact absurd rfl (waits next)
      | waiting =>
        rw [settle_waiting locked_, settled_]
        refine moved _ _ _ ⟨rfl, rfl, rfl, rfl⟩ (by simp) (by simp [Canceller.holds]) ?_
        simpa [Canceller.holds, timer_, cancelling_, settled_, locked_] using .ended
    | @settlingForIt next within =>
      obtain ⟨callback, steps, within', longer⟩ | ⟨steps, all⟩ := @settle_invoking A V P F K state next within
      · rw [steps]
        refine moved _ _ _ ⟨rfl, rfl, rfl, rfl⟩ (by simp [Event.isScheduled])
            (by simp [Canceller.holds, eq_comm]) ?_
        rw [List.append_assoc, ← longer]
        simp only [Canceller.holds, Option.elim_some, if_true, timer_, cancelling_, settled_, locked_]
        exact .settlingForIt within'
      · rw [steps]
        refine moved _ _ _ ⟨rfl, rfl, rfl, rfl⟩ (by simp) (by simp [Canceller.holds]) ?_
        rw [List.append_nil, all]
        simpa [Canceller.holds, timer_, cancelling_, settled_] using .ended

theorem Good.opens (good : Good lib coord) {sessionKey : Text} (absent : coord.pending.get? sessionKey = none)
    (message : IncomingMessage A V P) (onFire : F) (onSettled : Option K) :
    Good lib { coord.setBatch coord.opened
        ⟨sessionKey, [message], onFire, onSettled.toList, .created, false, false, false⟩
          [.scheduled sessionKey message onSettled] with
      pending := coord.pending.set sessionKey coord.opened
      opened := coord.opened + 1 } := by
  have unknown : coord.batch coord.opened = none := by
    by_contra known
    obtain ⟨state, found⟩ := Option.ne_none_iff_exists'.1 known
    exact absurd ((good.known _).2 ⟨state, found⟩) (Nat.lt_irrefl _)
  have older : ∀ batch state, coord.batch batch = some state → batch < coord.opened :=
    fun batch state found => (good.known batch).2 ⟨state, found⟩
  refine ⟨fun batch => ?_, ?_, fun call batch holds => ?_, good.fresh, fun key batch pending => ?_,
      fun batch state found => ?_, ?_⟩
  · show batch < coord.opened + 1 ↔ ∃ state,
        Function.update coord.batch coord.opened _ batch = some state
    by_cases new : batch = coord.opened
    · simp [new]
    · rw [Function.update_of_ne new, ← good.known batch]
      omega
  · show ∀ entry ∈ coord.log ++ [_], entry.1 < coord.opened + 1
    rw [List.forall_mem_append]
    refine ⟨fun entry mem => Nat.lt_succ_of_lt (good.logged entry mem), ?_⟩
    simp
  · exact Nat.lt_succ_of_lt (good.held call batch holds)
  · show ∃ state, Function.update coord.batch coord.opened _ batch = some state ∧ _
    have pending : (coord.pending.set sessionKey coord.opened).get? key = some batch := pending
    rw [Dict.get?_set] at pending
    by_cases own : key = sessionKey
    · rw [if_pos own, Option.some.injEq] at pending
      rw [← pending]
      refine ⟨_, Function.update_self .., own.symm, fun other earlier found' _ => ?_⟩
      have found' : Function.update coord.batch coord.opened _ other = some earlier := found'
      by_cases new : other = coord.opened
      · exact Nat.le_of_eq new
      · rw [Function.update_of_ne new] at found'
        exact Nat.le_of_lt (older other earlier found')
    · rw [if_neg own] at pending
      obtain ⟨state, found, key', latest⟩ := good.latest key batch pending
      have apart : batch ≠ coord.opened := Nat.ne_of_lt (older batch state found)
      refine ⟨state, (Function.update_of_ne apart ..).trans found, key', fun other earlier found' same => ?_⟩
      have found' : Function.update coord.batch coord.opened _ other = some earlier := found'
      by_cases new : other = coord.opened
      · subst new
        rw [Function.update_self, Option.some.injEq] at found'
        subst found'
        exact absurd same.symm own
      · rw [Function.update_of_ne new] at found'
        exact latest other earlier found' same
  · have found : Function.update coord.batch coord.opened _ batch = some state := found
    by_cases new : batch = coord.opened
    · subst new
      rw [Function.update_self, Option.some.injEq] at found
      subst found
      have nothing : history coord.opened coord.log = [] := by
        rw [history, List.map_eq_nil_iff, List.filter_eq_nil_iff]
        intro entry mem
        simpa using Nat.ne_of_lt (good.logged entry mem)
      refine ⟨(message, onSettled), [], none, [], rfl, ?_, ?_, ?_, ?_⟩
      · cases onSettled <;> rfl
      · show history _ (coord.log ++ [Event.scheduled sessionKey message onSettled].map fun event =>
            (coord.opened, event)) = _
        rw [history_append, history_own, nothing]
        rfl
      · intro call
        by_contra holds
        exact absurd (good.held call _ holds) (Nat.lt_irrefl _)
      · simpa using .pending rfl
    · rw [Function.update_of_ne new] at found
      obtain ⟨first, rest, holding, tail, story⟩ := good.story batch state found
      refine ⟨first, rest, holding, tail, story.frame ?_ ?_ fun _ => rfl⟩
      · show (coord.pending.set sessionKey coord.opened).get? state.sessionKey = some batch ↔ _
        rw [Dict.get?_set]
        by_cases own : state.sessionKey = sessionKey
        · rw [if_pos own, own, absent]
          simpa using Ne.symm new
        · rw [if_neg own]
      · show history batch
            (coord.log ++ [Event.scheduled sessionKey message onSettled].map fun event =>
              (coord.opened, event)) = _
        rw [history_append, history_other (Ne.symm new), List.append_nil]
  · show (coord.log ++ [_]).Pairwise _
    rw [List.pairwise_append]
    refine ⟨?_, List.pairwise_singleton _ _, ?_⟩
    · refine good.later.imp_of_mem fun {earlier entry} mem _ later ends key message' callback is state found key' => ?_
      have found : Function.update coord.batch coord.opened _ earlier.1 = some state := found
      rw [Function.update_of_ne (Nat.ne_of_lt (good.logged earlier mem))] at found
      exact later ends key message' callback is state found key'
    · intro earlier mem entry member' _ _ _ _ _ _ _ _
      rw [List.mem_singleton.1 member']
      exact good.logged earlier mem

theorem Good.schedule (good : Good lib coord) (sessionKey : Text) (message : IncomingMessage A V P) (onFire : F)
    (onSettled : Option K) : Good lib (coord.schedule sessionKey message onFire onSettled) := by
  unfold Coordinator.schedule
  cases pending : coord.pending.get? sessionKey with
  | some batch =>
    obtain ⟨state, found, rfl, -⟩ := good.latest sessionKey batch pending
    obtain ⟨first, rest, holding, tail, story⟩ := good.story batch state found
    obtain ⟨rfl, rfl, early, cancelling, settled, locked⟩ := story.going pending
    simp only [Option.bind_some, found, Option.map_some]
    have next : Good lib (advanced coord batch false
        { state with buffer := state.buffer ++ [message], onSettled := state.onSettled ++ onSettled.toList }
        [.scheduled state.sessionKey message onSettled] coord.canceller) := by
      refine good.advanceWith found rfl ?_ (by simp) (fun _ _ _ => rfl) good.fresh
        ⟨first, rest ++ [(message, onSettled)], none, [], ?_, ?_, ?_, story.holder, ?_⟩
      · rintro event mem key message' callback rfl
        simp only [List.mem_singleton, Event.scheduled.injEq] at mem
        obtain ⟨rfl, rfl, rfl⟩ := mem
        exact ⟨rfl, rfl, pending⟩
      · rw [show first :: (rest ++ [(message, onSettled)]) = (first :: rest) ++
            [(message, onSettled)] from rfl, List.map_append, ← story.buffer]
        rfl
      · rw [show first :: (rest ++ [(message, onSettled)]) = (first :: rest) ++
            [(message, onSettled)] from rfl, List.filterMap_append,
          ← story.onSettled]
        cases onSettled <;> rfl
      · show history batch
            (coord.log ++ [Event.scheduled state.sessionKey message onSettled].map fun event =>
              (batch, event)) = _
        rw [history_append, history_own, story.happened]
        simp
      · simpa [advanced, pending, cancelling, settled, locked] using .pending early
    exact next
  | none =>
    simp only [Option.bind_none]
    exact good.opens pending message onFire onSettled

theorem Good.step (good : Good lib coord) (input : Input A V P F K) : Good lib (coord.step lib input) := by
  cases input with
  | schedule sessionKey message onFire onSettled => exact good.schedule sessionKey message onFire onSettled
  | cancel sessionKey => exact good.startCancel sessionKey
  | cancelAll =>
    show Good lib (coord.pending.keys.foldl Coordinator.startCancel coord)
    generalize coord.pending.keys = sessionKeys
    induction sessionKeys generalizing coord with
    | nil => exact good
    | cons sessionKey rest ih => exact ih (good.startCancel sessionKey)
  | stepTimer batch raised => exact good.stepTimer batch raised
  | stepCanceller call => exact good.stepCanceller call

end Steps

end OpenSquilla.Channels.Debounce
