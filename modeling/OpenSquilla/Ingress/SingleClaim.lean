import OpenSquilla.Ingress.Operations
import OpenSquilla.Shared.Runs

set_option autoImplicit false

-- Whatever statements fail, an event goes round its claim cycle, as long as no claim finds the
-- journal failing for an event that the journal already has as claimed or completed.

namespace OpenSquilla.Ingress

open ClaimCycle
open Runs (run Along)

inductive Op
  | accept (faults : Faults) (now : Time) (channelName : String) (message : IncomingMessage)
  | claim (faults : Faults) (now : Time) (token channelName : String) (message : IncomingMessage)
  | complete (faults : Faults) (now : Time) (claim : Option IngressClaim)
      (disposition reason : String) (scrubPayload : Bool)
  | fail (faults : Faults) (now : Time) (claim : Option IngressClaim) (errorType errorText : String)
  | recover (faults : Faults) (now : Time) (channelName : String)

abbrev History := List (String × ClaimEvent IngressClaim)

variable (codec : MessageCodec)

def step (store : Store) : Op → Store
  | .accept faults now channelName message =>
    (store.acceptInbound codec faults now channelName message).1
  | .claim faults now token channelName message =>
    (store.claimInbound codec faults now token channelName message).1
  | .complete faults now claim disposition reason scrubPayload =>
    (store.completeInbound faults now claim disposition reason scrubPayload).1
  | .fail faults now claim errorType errorText =>
    (store.failInboundSnapshot faults now claim errorType errorText).1
  | .recover faults now channelName => (store.recoverInbound codec faults now channelName).1

def claimedEvents (eventKey : Option String) : Except SqliteError (Option IngressClaim) → History
  | .ok (some claim) => eventKey.toList.map fun eventKey => (eventKey, .claimed claim)
  | .ok none | .error _ => []

def endedEvents (store : Store) (ending : IngressClaim → ClaimEvent IngressClaim) :
    Option IngressClaim → Except SqliteError Unit → History
  | some claim, .ok () =>
    if claim.eventKey ≠ "" ∧ store.holds claim then [(claim.eventKey, ending claim)] else []
  | _, _ => []

def interruptedClaim (channelName : String) (entry : String × IngressRow) :
    Option (String × ClaimEvent IngressClaim) :=
  if entry.2.channelName = channelName then
    entry.2.state.claimToken.map fun token => (entry.1, .released ⟨entry.1, token⟩)
  else none

def recoveredEvents (store : Store) (channelName : String) : Except SqliteError (List IncomingMessage) → History
  | .ok _ => store.channelIngress.entries.filterMap (interruptedClaim channelName)
  | .error _ => []

def events (store : Store) : Op → History
  | .accept .. => []
  | .claim faults now token channelName message =>
    claimedEvents (inboundEventKey channelName message)
      (store.claimInbound codec faults now token channelName message).2
  | .complete faults now claim disposition reason scrubPayload =>
    endedEvents store .completed claim
      (store.completeInbound faults now claim disposition reason scrubPayload).2
  | .fail faults now claim errorType errorText =>
    endedEvents store .released claim
      (store.failInboundSnapshot faults now claim errorType errorText).2
  | .recover faults now channelName =>
    recoveredEvents store channelName (store.recoverInbound codec faults now channelName).2

def history : Store → List Op → History
  | _, [] => []
  | store, op :: rest => events codec store op ++ history (step codec store op) rest

def degradedEvents : Store → List Op → Finset String
  | _, [] => ∅
  | store, op :: rest =>
    ((step codec store op).unjournaledEvents \ store.unjournaledEvents) ∪
      degradedEvents (step codec store op) rest

/-- No claim finds the journal failing for an event whose row is claimed or completed. -/
def Sighted (store : Store) : Op → Prop
  | .claim faults _ _ channelName message =>
    ∀ eventKey ∈ inboundEventKey channelName message, ¬store.ClaimsBlindly faults eventKey
  | _ => True

instance (store : Store) : (op : Op) → Decidable (Sighted store op)
  | .accept .. | .complete .. | .fail .. | .recover .. => isTrue trivial
  | .claim faults _ _ channelName message =>
    match keyed : inboundEventKey channelName message with
    | none => isTrue fun _ mem => by simp [keyed] at mem
    | some eventKey =>
      decidable_of_iff (¬store.ClaimsBlindly faults eventKey) (by simp [Sighted, keyed])

-- A call kept the bounds, and led every event through its claim cycle.
structure Advances (degraded : Finset String) (store next : Store) (happened : History) : Prop where
  bounded : next.Bounded degraded
  replayed : ∀ eventKey,
    replay (store.phase eventKey) (eventsAt eventKey happened) = some (next.phase eventKey)

variable {codec} {store next : Store} {degraded : Finset String}

theorem Advances.of_quiet (quiet : store.Quiet next) (bounded : store.Bounded degraded)
    (marked : next.unjournaledEvents ⊆ degraded) : Advances degraded store next [] where
  bounded := quiet.bounded bounded marked
  replayed eventKey := by simp [quiet.phase]

theorem Advances.of_moved {eventKey : String} {reached : ClaimPhase IngressClaim}
    {event : ClaimEvent IngressClaim} (moved : store.Moved eventKey reached next)
    (unmarked : eventKey ∉ store.claimedUnjournaledEvents)
    (taken : advance (rowPhase eventKey (store.stateOf eventKey)) event = some reached)
    (bounded : store.Bounded degraded) (marked : next.unjournaledEvents ⊆ degraded) :
    Advances degraded store next [(eventKey, event)] where
  bounded := moved.bounded unmarked bounded marked
  replayed := moved.replay unmarked taken

theorem rowPhase_free_of_unstarted {eventKey : String} {state : Option IngressState}
    (unstarted : state.any (· ≠ .accepted) ≠ true) : rowPhase eventKey state = .free := by
  cases state with
  | none => rfl
  | some state => cases state <;> simp [rowPhase] at unstarted ⊢

theorem advances_passed {eventKey : String} (unmarked : eventKey ∉ store.claimedUnjournaledEvents)
    (mem : eventKey ∈ store.unjournaledEvents)
    (free : rowPhase eventKey (store.stateOf eventKey) = .free) (bounded : store.Bounded degraded) :
    Advances degraded store ((store.forgetUnjournaled eventKey).rememberClaimed eventKey)
      [(eventKey, .claimed .passThrough)] := by
  have remembered : ∀ other ∈ store.claimedUnjournaledEvents ++ [eventKey], other ∈ degraded := by
    simpa [or_imp, forall_and] using ⟨bounded.claimed, bounded.marked mem⟩
  have nodup : (store.claimedUnjournaledEvents ++ [eventKey]).Nodup :=
    List.nodup_append.mpr ⟨bounded.nodup, by simp,
      fun other old one here => by simp at here; exact fun same => unmarked (here ▸ same ▸ old)⟩
  have short : ¬store.maxClaimedUnjournaledEvents <
      (store.claimedUnjournaledEvents ++ [eventKey]).length := by
    have fits : (store.claimedUnjournaledEvents ++ [eventKey]).toFinset.card ≤ degraded.card :=
      Finset.card_le_card fun other listed => remembered other (List.mem_toFinset.mp listed)
    rw [List.toFinset_card_of_nodup nodup] at fits
    have room := bounded.room
    omega
  have kept : ((store.forgetUnjournaled eventKey).rememberClaimed eventKey).claimedUnjournaledEvents =
      store.claimedUnjournaledEvents ++ [eventKey] := by
    simp only [Store.rememberClaimed, Store.forgetUnjournaled, unmarked, short, if_false]
  have rows (other : String) :
      ((store.forgetUnjournaled eventKey).rememberClaimed eventKey).stateOf other =
        store.stateOf other := rfl
  refine ⟨⟨?_, ?_, ?_, ?_, bounded.room⟩, fun other => ?_⟩
  · exact (Finset.erase_subset _ _).trans bounded.marked
  · simpa only [kept] using remembered
  · simpa only [kept] using nodup
  · intro other listed
    rw [rows]
    rw [kept, List.mem_append, List.mem_singleton] at listed
    rcases listed with old | rfl
    · exact bounded.unstarted other old
    · exact free
  · simp only [Store.phase, kept, rows, List.mem_append, List.mem_singleton]
    by_cases same : other = eventKey
    next =>
      subst same
      simp [unmarked, free, advance]
    next => simp [same, Ne.symm same]

theorem advances_claim (faults : Faults) (now : Time) (token channelName : String) (message : IncomingMessage)
    (sighted : Sighted store (.claim faults now token channelName message)) (bounded : store.Bounded degraded) :
    Advances degraded store (step codec store (.claim faults now token channelName message))
      (events codec store (.claim faults now token channelName message)) := by
  have claims := Store.claimInbound_claims codec faults now token channelName message store
  simp only [step, events, Sighted] at sighted ⊢
  generalize inboundEventKey channelName message = keyed at claims sighted ⊢
  generalize store.claimInbound codec faults now token channelName message = outcome at claims ⊢
  cases claims with
  | unkeyed claim => exact .of_quiet (.refl store) bounded bounded.marked
  | refused eventKey next result nobody quiet marked =>
    have nothing : claimedEvents (some eventKey) result = [] := by
      cases result with
      | error fault => rfl
      | ok claim =>
        cases claim with
        | none => rfl
        | some claim => exact absurd rfl (nobody claim)
    rw [nothing]
    exact .of_quiet quiet bounded (marked.trans bounded.marked)
  | durable eventKey next unmarked free moved marked =>
    refine .of_moved moved unmarked ?_ bounded (marked.trans bounded.marked)
    rw [free]
    rfl
  | passed eventKey unmarked mem unwritten =>
    refine advances_passed unmarked mem (rowPhase_free_of_unstarted fun started => ?_) bounded
    exact sighted eventKey rfl ⟨mem, unmarked, unwritten started, started⟩

theorem advances_ended {faults : Faults} {change : IngressRow → IngressRow}
    {reached : ClaimPhase IngressClaim} {ending : IngressClaim → ClaimEvent IngressClaim}
    (changed : ∀ eventKey row, rowPhase eventKey (some (change row).state) = reached)
    (taken : ∀ claim, advance (.held claim) (ending claim) = some reached)
    (claim : Option IngressClaim) (bounded : store.Bounded degraded) :
    Advances degraded store (store.updateClaimed faults claim change).1
      (endedEvents store ending claim (store.updateClaimed faults claim change).2) := by
  cases claim with
  | none => exact .of_quiet (.refl store) bounded bounded.marked
  | some claim =>
    by_cases live : claim.eventKey ≠ "" ∧ store.holds claim
    next =>
      have phase := Store.phase_of_holds live.2
      cases ran : (store.updateClaimed faults (some claim) change).2 with
      | error fault =>
        rw [Store.updateClaimed_of_raised ran]
        exact .of_quiet (.refl store) bounded bounded.marked
      | ok done =>
        have moved := Store.updateClaimed_moved live.1 live.2 ran (changed claim.eventKey)
        have unmarked : claim.eventKey ∉ store.claimedUnjournaledEvents := fun mem => by
          rw [bounded.unstarted claim.eventKey mem] at phase
          cases phase
        simp only [endedEvents]
        rw [if_pos live]
        refine .of_moved moved unmarked (phase ▸ taken claim) bounded ?_
        rw [Store.updateClaimed_unjournaled]
        exact bounded.marked
    next =>
      have nothing : endedEvents store ending (some claim)
          (store.updateClaimed faults (some claim) change).2 = [] := by
        cases (store.updateClaimed faults (some claim) change).2 with
        | error fault => rfl
        | ok done => exact if_neg live
      have unchanged : (store.updateClaimed faults (some claim) change).1 = store := by
        by_cases keyless : claim.eventKey = ""
        next => exact Store.updateClaimed_keyless keyless
        next =>
          exact Store.updateClaimed_of_stale
            (Bool.eq_false_iff.mpr fun holds => live ⟨keyless, holds⟩)
      rw [nothing, unchanged]
      exact .of_quiet (.refl store) bounded bounded.marked

theorem interruptedClaim_key {channelName : String} {entry : String × IngressRow}
    {out : String × ClaimEvent IngressClaim}
    (interrupted : interruptedClaim channelName entry = some out) : out.1 = entry.1 := by
  unfold interruptedClaim at interrupted
  split at interrupted
  next =>
    obtain ⟨token, -, rfl⟩ := Option.map_eq_some_iff.mp interrupted
    rfl
  next => cases interrupted

theorem eventsAt_interrupted (store : Store) (channelName eventKey : String) :
    eventsAt eventKey (store.channelIngress.entries.filterMap (interruptedClaim channelName)) =
      ((store.channelIngress.get? eventKey).bind fun row =>
        (interruptedClaim channelName (eventKey, row)).map Prod.snd).toList := by
  rw [eventsAt, Dict.filterMap_filter_key _ _ fun _ _ made => interruptedClaim_key made]
  cases store.channelIngress.get? eventKey with
  | none => rfl
  | some row => simp [Option.toList_map]

theorem eventsAt_recovered {channelName : String} (recovered : store.Recovered channelName next)
    (eventKey : String) :
    eventsAt eventKey (store.channelIngress.entries.filterMap (interruptedClaim channelName)) = [] ∧
        rowPhase eventKey (next.stateOf eventKey) = rowPhase eventKey (store.stateOf eventKey) ∨
      ∃ claim,
        eventsAt eventKey (store.channelIngress.entries.filterMap (interruptedClaim channelName)) =
            [.released claim] ∧
          rowPhase eventKey (store.stateOf eventKey) = .held claim ∧
          rowPhase eventKey (next.stateOf eventKey) = .free := by
  rw [eventsAt_interrupted, recovered.rows, Store.stateOf]
  cases store.channelIngress.get? eventKey with
  | none => exact .inl ⟨rfl, rfl⟩
  | some row =>
    by_cases same : row.channelName = channelName
    next =>
      cases state : row.state with
      | accepted | completed =>
        left
        simp [interruptedClaim, IngressRow.interrupted, IngressState.claimToken, same, state]
      | processing token startedAt =>
        right
        simp [interruptedClaim, IngressRow.interrupted, IngressState.claimToken, same, state,
          rowPhase]
    next =>
      left
      simp [interruptedClaim, IngressRow.interrupted, same]

theorem advances_recovered {channelName : String} (messages : List IncomingMessage)
    (recovered : store.Recovered channelName next) (bounded : store.Bounded degraded) :
    Advances degraded store next (recoveredEvents store channelName (.ok messages)) := by
  have unstarted : ∀ eventKey ∈ store.claimedUnjournaledEvents,
      eventsAt eventKey (recoveredEvents store channelName (.ok messages)) = [] ∧
        rowPhase eventKey (next.stateOf eventKey) = .free := by
    intro eventKey mem
    have free := bounded.unstarted eventKey mem
    rcases eventsAt_recovered recovered eventKey with ⟨nothing, same⟩ | ⟨claim, -, held, -⟩
    · exact ⟨nothing, same.trans free⟩
    · rw [free] at held
      cases held
  refine ⟨⟨?_, ?_, ?_, ?_, ?_⟩, fun eventKey => ?_⟩
  · exact recovered.marked ▸ bounded.marked
  · exact recovered.claimed ▸ bounded.claimed
  · exact recovered.claimed ▸ bounded.nodup
  · intro eventKey mem
    exact (unstarted eventKey (recovered.claimed ▸ mem)).2
  · exact recovered.bound ▸ bounded.room
  · simp only [Store.phase, recovered.claimed]
    split
    next mem => rw [(unstarted eventKey mem).1, replay_nil]
    next =>
      rcases eventsAt_recovered recovered eventKey with ⟨nothing, same⟩ | ⟨claim, gone, held, free⟩
      · rw [recoveredEvents, nothing, same, replay_nil]
      · rw [recoveredEvents, gone, held, free]
        simp [advance]

theorem advances_step (op : Op) (sighted : Sighted store op) (bounded : store.Bounded degraded)
    (marked : (step codec store op).unjournaledEvents \ store.unjournaledEvents ⊆ degraded) :
    Advances degraded store (step codec store op) (events codec store op) := by
  cases op with
  | accept faults now channelName message =>
    refine .of_quiet (Store.acceptInbound_quiet ..) bounded fun eventKey mem => ?_
    by_cases old : eventKey ∈ store.unjournaledEvents
    · exact bounded.marked old
    · exact marked (Finset.mem_sdiff.mpr ⟨mem, old⟩)
  | claim faults now token channelName message => exact advances_claim _ _ _ _ _ sighted bounded
  | complete faults now claim disposition reason scrubPayload =>
    exact advances_ended (fun _ _ => rfl) advance_complete claim bounded
  | fail faults now claim errorType errorText =>
    exact advances_ended (fun _ _ => rfl) advance_released claim bounded
  | recover faults now channelName =>
    simp only [step, events]
    cases ran : (store.recoverInbound codec faults now channelName).2 with
    | error fault =>
      refine .of_quiet (Store.recoverInbound_of_raised ran) bounded ?_
      rw [Store.recoverInbound_unjournaled]
      exact bounded.marked
    | ok messages =>
      exact advances_recovered messages (Store.recoverInbound_recovered ran) bounded

theorem Advances.trans {middle : Store} {first second : History}
    (one : Advances degraded store middle first) (two : Advances degraded middle next second) :
    Advances degraded store next (first ++ second) where
  bounded := two.bounded
  replayed eventKey := by
    rw [eventsAt_append, replay_append, one.replayed eventKey]
    exact two.replayed eventKey

theorem advances_run (ops : List Op) (sighted : Along (step codec) Sighted store ops)
    (bounded : store.Bounded degraded) (few : degradedEvents codec store ops ⊆ degraded) :
    Advances degraded store (run (step codec) store ops) (history codec store ops) := by
  induction ops generalizing store with
  | nil => exact .of_quiet (.refl store) bounded bounded.marked
  | cons op rest ih =>
    obtain ⟨here, later⟩ := Finset.union_subset_iff.mp few
    have first := advances_step op sighted.1 bounded here
    exact first.trans (ih sighted.2 first.bounded later)

theorem opened_bounded {journal : Journal} {bound : Nat} (room : degraded.card < bound) :
    (Store.opened journal bound).Bounded degraded where
  marked := Finset.empty_subset _
  claimed _ mem := nomatch mem
  nodup := List.nodup_nil
  unstarted _ mem := nomatch mem
  room := room

theorem degradedEvents_append (store : Store) (first second : List Op) :
    degradedEvents codec store (first ++ second) =
      degradedEvents codec store first ∪
        degradedEvents codec (run (step codec) store first) second := by
  induction first generalizing store with
  | nil => exact (Finset.empty_union _).symm
  | cons op rest ih =>
    simp only [List.cons_append, degradedEvents, Runs.run_cons, ih, Finset.union_assoc]

theorem phase_of_completed {eventKey : String} (bounded : store.Bounded degraded)
    (completed : store.stateOf eventKey = some .completed) : store.phase eventKey = .closed := by
  have unmarked : eventKey ∉ store.claimedUnjournaledEvents := fun mem => by
    have free := bounded.unstarted eventKey mem
    rw [completed] at free
    cases free
  rw [Store.phase, if_neg unmarked, completed, rowPhase]

/-- As long as no claim finds the journal failing for an event it has as claimed or completed:
an event is claimed anew only after its last claim was given back, and never after it was
completed; and a claim that lost its row changes nothing. -/
theorem claims_exclusive (codec : MessageCodec) (journal : Journal) (bound : Nat) (ops : List Op)
    (sighted : Along (step codec) Sighted (Store.opened journal bound) ops)
    (few : (degradedEvents codec (Store.opened journal bound) ops).card < bound) :
    (∀ eventKey early first between second late,
      history codec (Store.opened journal bound) ops =
          early ++ (eventKey, .claimed first) :: (between ++ (eventKey, .claimed second) :: late) →
        (eventKey, .released first) ∈ between) ∧
      (∀ eventKey early claim late second,
        history codec (Store.opened journal bound) ops = early ++ (eventKey, .completed claim) :: late →
          (eventKey, .claimed second) ∉ late) ∧
      (∀ before after eventKey, ops = before ++ after →
        (run (step codec) (Store.opened journal bound) before).stateOf eventKey = some .completed →
          ∀ claim, (eventKey, .claimed claim) ∉
            history codec (run (step codec) (Store.opened journal bound) before) after) ∧
      ∀ before after claim, ops = before ++ after →
        (run (step codec) (Store.opened journal bound) before).holds claim = false →
          (∀ faults now disposition reason scrubPayload,
            step codec (run (step codec) (Store.opened journal bound) before)
              (.complete faults now (some claim) disposition reason scrubPayload) =
                run (step codec) (Store.opened journal bound) before) ∧
          ∀ faults now errorType errorText,
            step codec (run (step codec) (Store.opened journal bound) before)
              (.fail faults now (some claim) errorType errorText) =
                run (step codec) (Store.opened journal bound) before := by
  have replayed := (advances_run ops sighted (opened_bounded few) (Finset.Subset.refl _)).replayed
  refine ⟨?_, ?_, ?_, ?_⟩
  · intro eventKey early first between second late split
    have cycle := replayed eventKey
    rw [split] at cycle
    simp only [eventsAt_append, eventsAt_cons, if_true] at cycle
    exact mem_eventsAt.mp (released_between cycle)
  · intro eventKey early claim late second split mem
    have cycle := replayed eventKey
    rw [split] at cycle
    simp only [eventsAt_append, eventsAt_cons, if_true] at cycle
    have present := mem_eventsAt.mpr mem
    rw [nothing_after_completed cycle] at present
    cases present
  · intro before after eventKey split completed claim mem
    subst split
    obtain ⟨sightedBefore, sightedAfter⟩ := (Runs.along_append _ _ _).mp sighted
    rw [degradedEvents_append] at few
    have there := advances_run before sightedBefore (opened_bounded few) Finset.subset_union_left
    have onward := advances_run after sightedAfter there.bounded Finset.subset_union_right
    have cycle := onward.replayed eventKey
    rw [phase_of_completed there.bounded completed] at cycle
    have present := mem_eventsAt.mpr mem
    rw [replay_closed cycle] at present
    cases present
  · intro before after claim split stale
    exact ⟨fun _ _ _ _ _ => Store.updateClaimed_of_stale stale,
      fun _ _ _ _ => Store.updateClaimed_of_stale stale⟩

def plainCodec : MessageCodec := ⟨IncomingMessage.content, fun _ => none⟩

def chatEvent : IncomingMessage :=
  { senderId := "u1", channelId := "c1", content := "hi", provenance := { eventId := some "7" } }

def locked : Faults := fun statement => if statement = .begin then some .other else none

-- The event is completed, then delivered again while the database is locked.
def redelivery : List Op :=
  [.accept noFaults 0 "chat" chatEvent, .claim noFaults 1 "t1" "chat" chatEvent,
    .complete noFaults 2 (some ⟨"chat:chat:7", "t1"⟩) "replied" "" false,
    .accept locked 3 "chat" chatEvent, .claim locked 4 "t2" "chat" chatEvent]

theorem redelivery_history : history plainCodec (Store.opened Dict.empty 10000) redelivery =
    [("chat:chat:7", .claimed ⟨"chat:chat:7", "t1"⟩),
      ("chat:chat:7", .completed ⟨"chat:chat:7", "t1"⟩), ("chat:chat:7", .claimed .passThrough)] := by
  decide

theorem completed_claimed_again : ¬∀ ops : List Op,
    (degradedEvents plainCodec (Store.opened Dict.empty 10000) ops).card < 10000 →
      ∀ eventKey early claim late second,
        history plainCodec (Store.opened Dict.empty 10000) ops =
            early ++ (eventKey, .completed claim) :: late →
          (eventKey, .claimed second) ∉ late := by
  intro never
  have few : (degradedEvents plainCodec (Store.opened Dict.empty 10000) redelivery).card < 10000 := by
    decide
  refine never redelivery few "chat:chat:7" [("chat:chat:7", .claimed ⟨"chat:chat:7", "t1"⟩)]
    ⟨"chat:chat:7", "t1"⟩ [("chat:chat:7", .claimed .passThrough)] .passThrough redelivery_history ?_
  exact List.mem_singleton_self _

-- The journal fails while the event is fresh, and works again for the redelivery.
def recovery : List Op :=
  [.accept locked 0 "chat" chatEvent, .accept noFaults 1 "chat" chatEvent,
    .claim noFaults 2 "t1" "chat" chatEvent,
    .fail noFaults 3 (some ⟨"chat:chat:7", "t1"⟩) "TimeoutError" "late",
    .claim noFaults 4 "t2" "chat" chatEvent, .recover noFaults 5 "chat",
    .claim noFaults 6 "t3" "chat" chatEvent,
    .complete noFaults 7 (some ⟨"chat:chat:7", "t3"⟩) "replied" "" true]

theorem recovery_history : history plainCodec (Store.opened Dict.empty 10000) recovery =
    [("chat:chat:7", .claimed ⟨"chat:chat:7", "t1"⟩), ("chat:chat:7", .released ⟨"chat:chat:7", "t1"⟩),
      ("chat:chat:7", .claimed ⟨"chat:chat:7", "t2"⟩), ("chat:chat:7", .released ⟨"chat:chat:7", "t2"⟩),
      ("chat:chat:7", .claimed ⟨"chat:chat:7", "t3"⟩),
      ("chat:chat:7", .completed ⟨"chat:chat:7", "t3"⟩)] := by
  decide

theorem claims_exclusive_recovery :
    ("chat:chat:7", ClaimEvent.released (⟨"chat:chat:7", "t1"⟩ : IngressClaim)) ∈
        [("chat:chat:7", .released ⟨"chat:chat:7", "t1"⟩),
          ("chat:chat:7", .claimed ⟨"chat:chat:7", "t2"⟩),
          ("chat:chat:7", .released ⟨"chat:chat:7", "t2"⟩)] ∧
      step plainCodec (run (step plainCodec) (Store.opened Dict.empty 10000) recovery)
          (.complete noFaults 8 (some ⟨"chat:chat:7", "t1"⟩) "late" "" false) =
        run (step plainCodec) (Store.opened Dict.empty 10000) recovery := by
  have exclusive := claims_exclusive plainCodec Dict.empty 10000 recovery (by decide)
    (by decide)
  constructor
  · exact exclusive.1 "chat:chat:7" [] ⟨"chat:chat:7", "t1"⟩ _ ⟨"chat:chat:7", "t3"⟩ _
      recovery_history
  · exact (exclusive.2.2.2 recovery [] ⟨"chat:chat:7", "t1"⟩ (List.append_nil _).symm
      (by decide)).1 noFaults 8 "late" "" false

end OpenSquilla.Ingress
