import Mathlib.Data.Finset.Card
import OpenSquilla.Ingress.Journal
import OpenSquilla.Shared.ClaimCycle
import OpenSquilla.Shared.RaisingRuns

set_option autoImplicit false

namespace OpenSquilla.Ingress

open ClaimCycle
open RaisingRuns (of_bind_ok)

def rowPhase (eventKey : String) : Option IngressState → ClaimPhase IngressClaim
  | none | some .accepted => .free
  | some (.processing token _) => .held ⟨eventKey, token⟩
  | some .completed => .closed

namespace Store

def stateOf (store : Store) (eventKey : String) : Option IngressState :=
  (store.channelIngress.get? eventKey).map IngressRow.state

-- The phase of an event: a claim that was passed through is never given back.
def phase (store : Store) (eventKey : String) : ClaimPhase IngressClaim :=
  if eventKey ∈ store.claimedUnjournaledEvents then .held .passThrough
  else rowPhase eventKey (store.stateOf eventKey)

/-- The claim finds the journal failing for an event whose row is claimed or completed. -/
def ClaimsBlindly (faults : Faults) (eventKey : String) (store : Store) : Prop :=
  eventKey ∈ store.unjournaledEvents ∧ eventKey ∉ store.claimedUnjournaledEvents ∧
    (faults .begin).or (faults .insert) = some .other ∧
    (store.stateOf eventKey).any (· ≠ .accepted) = true

instance (faults : Faults) (eventKey : String) (store : Store) :
    Decidable (store.ClaimsBlindly faults eventKey) :=
  inferInstanceAs (Decidable (_ ∧ _ ∧ _ ∧ _))

-- The markers of a store all of whose degraded events are in `degraded`.
structure Bounded (degraded : Finset String) (store : Store) : Prop where
  marked : store.unjournaledEvents ⊆ degraded
  claimed : ∀ eventKey ∈ store.claimedUnjournaledEvents, eventKey ∈ degraded
  nodup : store.claimedUnjournaledEvents.Nodup
  unstarted : ∀ eventKey ∈ store.claimedUnjournaledEvents,
    rowPhase eventKey (store.stateOf eventKey) = .free
  room : degraded.card < store.maxClaimedUnjournaledEvents

/-- Whatever an operation did to the markers, the event it was about is the only one moved. -/
structure Moved (eventKey : String) (phase : ClaimPhase IngressClaim) (store next : Store) :
    Prop where
  claimed : next.claimedUnjournaledEvents.Perm store.claimedUnjournaledEvents
  bound : next.maxClaimedUnjournaledEvents = store.maxClaimedUnjournaledEvents
  here : rowPhase eventKey (next.stateOf eventKey) = phase
  others : ∀ other, other ≠ eventKey → next.stateOf other = store.stateOf other

structure Quiet (store next : Store) : Prop where
  claimed : next.claimedUnjournaledEvents.Perm store.claimedUnjournaledEvents
  bound : next.maxClaimedUnjournaledEvents = store.maxClaimedUnjournaledEvents
  rows : ∀ eventKey,
    rowPhase eventKey (next.stateOf eventKey) = rowPhase eventKey (store.stateOf eventKey)

variable {store next : Store} {degraded : Finset String}

theorem Quiet.refl (store : Store) : Quiet store store := ⟨.refl _, rfl, fun _ => rfl⟩

theorem Quiet.phase (quiet : Quiet store next) (eventKey : String) :
    next.phase eventKey = store.phase eventKey := by
  simp only [Store.phase, quiet.claimed.mem_iff, quiet.rows]

theorem Quiet.bounded (quiet : Quiet store next) (bounded : store.Bounded degraded)
    (marked : next.unjournaledEvents ⊆ degraded) : next.Bounded degraded where
  marked := marked
  claimed eventKey mem := bounded.claimed eventKey (quiet.claimed.mem_iff.mp mem)
  nodup := quiet.claimed.nodup_iff.mpr bounded.nodup
  unstarted eventKey mem := by
    rw [quiet.rows]
    exact bounded.unstarted eventKey (quiet.claimed.mem_iff.mp mem)
  room := quiet.bound ▸ bounded.room

variable {eventKey : String} {reached : ClaimPhase IngressClaim}

theorem Moved.phase (moved : Moved eventKey reached store next)
    (unmarked : eventKey ∉ store.claimedUnjournaledEvents) (other : String) :
    next.phase other = if other = eventKey then reached else store.phase other := by
  by_cases same : other = eventKey
  next =>
    subst same
    simp [Store.phase, moved.claimed.mem_iff, unmarked, moved.here]
  next => simp [Store.phase, moved.claimed.mem_iff, moved.others other same, same]

theorem Moved.bounded (moved : Moved eventKey reached store next)
    (unmarked : eventKey ∉ store.claimedUnjournaledEvents) (bounded : store.Bounded degraded)
    (marked : next.unjournaledEvents ⊆ degraded) : next.Bounded degraded where
  marked := marked
  claimed other mem := bounded.claimed other (moved.claimed.mem_iff.mp mem)
  nodup := moved.claimed.nodup_iff.mpr bounded.nodup
  unstarted other mem := by
    have before := moved.claimed.mem_iff.mp mem
    rw [moved.others other (fun same => unmarked (same ▸ before))]
    exact bounded.unstarted other before
  room := moved.bound ▸ bounded.room

theorem Moved.replay (moved : Moved eventKey reached store next)
    (unmarked : eventKey ∉ store.claimedUnjournaledEvents) {event : ClaimEvent IngressClaim}
    (taken : advance (rowPhase eventKey (store.stateOf eventKey)) event = some reached) (other : String) :
    replay (store.phase other) (eventsAt other [(eventKey, event)]) = some (next.phase other) := by
  rw [moved.phase unmarked]
  by_cases same : other = eventKey
  next =>
    subst same
    simp [Store.phase, unmarked, taken]
  next => simp [same, Ne.symm same]

theorem touchClaimed_quiet (mem : eventKey ∈ store.claimedUnjournaledEvents) :
    Quiet store (store.touchClaimed eventKey) where
  claimed := (List.perm_append_singleton eventKey _).trans (List.perm_cons_erase mem).symm
  bound := rfl
  rows _ := rfl

variable {faults : Faults}

theorem insertRow_ok {row : IngressRow}
    {journal written : Journal} (inserted : journal.insertRow faults eventKey row = .ok written) :
    journal.get? eventKey = none ∧ written = journal.set eventKey row := by
  obtain ⟨_, -, inserted⟩ := of_bind_ok inserted
  cases found : journal.get? eventKey with
  | some row => simp [found] at inserted
  | none =>
    simp only [found, Option.isSome_none, Bool.false_eq_true, if_false] at inserted
    exact ⟨rfl, (Except.ok.inj inserted).symm⟩

theorem stateOf_insertRow {row : IngressRow} {written : Journal}
    (inserted : store.channelIngress.insertRow faults eventKey row = .ok written)
    (rows : next.channelIngress = written) (other : String) :
    next.stateOf other = if other = eventKey then some row.state else store.stateOf other := by
  obtain ⟨-, rfl⟩ := insertRow_ok inserted
  rw [stateOf, rows, Dict.get?_set]
  split <;> rfl

theorem acceptDuplicate_quiet {visible : Bool}
    (ran : store.acceptDuplicate faults eventKey = .ok (next, visible)) : Quiet store next := by
  obtain ⟨_, -, ran⟩ := of_bind_ok ran
  obtain ⟨_, -, ran⟩ := of_bind_ok ran
  dsimp only at ran
  split at ran
  all_goals
    cases ran
    exact ⟨.refl _, rfl, fun _ => rfl⟩

theorem acceptJournaled_quiet {row : IngressRow} {visible : Bool} (accepted : row.state = .accepted)
    (ran : store.acceptJournaled faults eventKey row = .ok (next, visible)) : Quiet store next := by
  obtain ⟨_, -, ran⟩ := of_bind_ok ran
  split at ran
  next => exact acceptDuplicate_quiet ran
  next => cases ran
  next journal inserted =>
    obtain ⟨_, -, ran⟩ := of_bind_ok ran
    cases ran
    refine ⟨.refl _, rfl, fun other => ?_⟩
    rw [stateOf_insertRow inserted rfl]
    split
    next same =>
      subst same
      simp [stateOf, (insertRow_ok inserted).1, accepted, rowPhase]
    next => rfl

theorem acceptInbound_quiet (codec : MessageCodec) (faults : Faults) (now : Time)
    (channelName : String) (message : IncomingMessage) (store : Store) :
    Quiet store (store.acceptInbound codec faults now channelName message).1 := by
  unfold acceptInbound
  split
  next => exact .refl store
  next eventKey _ =>
    split
    next mem => exact touchClaimed_quiet mem
    split
    next => exact .refl store
    split
    next answer ran => exact acceptJournaled_quiet rfl ran
    next => exact ⟨.refl _, rfl, fun _ => rfl⟩

-- What a claim can do to the store, and to whom it gives the event.
inductive Claims (faults : Faults) (token : String) (store : Store) :
    Option String → Store × Except SqliteError (Option IngressClaim) → Prop
  | unkeyed (claim : IngressClaim) : Claims faults token store none (store, .ok (some claim))
  | refused (eventKey : String) (next : Store) (result : Except SqliteError (Option IngressClaim))
      (nobody : ∀ claim, result ≠ .ok (some claim)) (quiet : Quiet store next)
      (marked : next.unjournaledEvents ⊆ store.unjournaledEvents) :
      Claims faults token store (some eventKey) (next, result)
  | durable (eventKey : String) (next : Store)
      (unmarked : eventKey ∉ store.claimedUnjournaledEvents)
      (free : rowPhase eventKey (store.stateOf eventKey) = .free)
      (moved : Moved eventKey (.held ⟨eventKey, token⟩) store next)
      (marked : next.unjournaledEvents ⊆ store.unjournaledEvents) :
      Claims faults token store (some eventKey) (next, .ok (some ⟨eventKey, token⟩))
  | passed (eventKey : String) (unmarked : eventKey ∉ store.claimedUnjournaledEvents)
      (mem : eventKey ∈ store.unjournaledEvents)
      (unwritten : (store.stateOf eventKey).any (· ≠ .accepted) = true →
        (faults .begin).or (faults .insert) = some .other) :
      Claims faults token store (some eventKey)
        ((store.forgetUnjournaled eventKey).rememberClaimed eventKey, .ok (some .passThrough))

theorem promote_other {row : IngressRow} (failed : store.promote faults eventKey row = .error .other)
    (present : (store.channelIngress.get? eventKey).isSome) :
    (faults .begin).or (faults .insert) = some .other := by
  cases begins : faults .begin with
  | some fault => simpa [promote, execute, begins, bind, Except.bind] using failed
  | none =>
    cases inserts : faults .insert with
    | some fault =>
      simpa [promote, Journal.insertRow, execute, begins, inserts, bind, Except.bind] using failed
    | none =>
      simp [promote, Journal.insertRow, execute, begins, inserts, present, bind, Except.bind] at failed

theorem takeAccepted_some {now : Time} {token channelName eventKey : String} {journal : Journal}
    (taken : store.takeAccepted faults now token channelName eventKey = .ok (some journal)) :
    (∃ row, store.channelIngress.get? eventKey = some row ∧ row.state = .accepted) ∧
      journal = store.channelIngress.modify eventKey (IngressRow.process now token) := by
  obtain ⟨_, -, taken⟩ := of_bind_ok taken
  obtain ⟨_, -, taken⟩ := of_bind_ok taken
  split at taken
  next claimable =>
    obtain ⟨_, -, taken⟩ := of_bind_ok taken
    obtain ⟨row, found, matching⟩ := (Option.any_eq_true _ _).mp claimable
    have waiting : row.state = .accepted := (of_decide_eq_true matching).2
    exact ⟨⟨row, found, waiting⟩, (Option.some.inj (Except.ok.inj taken)).symm⟩
  next =>
    obtain ⟨_, -, taken⟩ := of_bind_ok taken
    cases taken

theorem claimAccepted_claims (faults : Faults) (now : Time) (token channelName eventKey : String)
    (unmarked : eventKey ∉ store.claimedUnjournaledEvents) : Claims faults token store (some eventKey)
      (store.claimAccepted faults now token channelName eventKey) := by
  unfold claimAccepted
  split
  next => exact .refused eventKey store _ nofun (.refl store) (Finset.Subset.refl _)
  next => exact .refused eventKey store _ nofun (.refl store) (Finset.Subset.refl _)
  next journal taken =>
    obtain ⟨⟨row, found, waiting⟩, rfl⟩ := takeAccepted_some taken
    refine .durable eventKey _ unmarked ?_ ⟨.refl _, rfl, ?_, fun other different => ?_⟩
      (Finset.Subset.refl _)
    · simp [stateOf, found, waiting, rowPhase]
    · simp [stateOf, Dict.get?_modify, found, IngressRow.process, rowPhase]
    · simp [stateOf, Dict.get?_modify, different]

theorem claimUnjournaled_claims (codec : MessageCodec) (faults : Faults) (now : Time)
    (token channelName : String) (message : IncomingMessage)
    (unmarked : eventKey ∉ store.claimedUnjournaledEvents)
    (mem : eventKey ∈ store.unjournaledEvents) {claim : Option IngressClaim}
    (ran : store.claimUnjournaled codec faults now token channelName message eventKey =
      (next, claim)) :
    Claims faults token store (some eventKey) (next, .ok claim) := by
  unfold claimUnjournaled at ran
  split at ran
  next =>
    obtain ⟨rfl, rfl⟩ := Prod.mk.inj ran
    exact .refused eventKey _ _ nofun ⟨.refl _, rfl, fun _ => rfl⟩ (Finset.erase_subset _ _)
  next failed =>
    obtain ⟨rfl, rfl⟩ := Prod.mk.inj ran
    refine .passed eventKey unmarked mem fun started => promote_other failed ?_
    simpa [stateOf] using Option.isSome_of_any started
  next journal promoted =>
    obtain ⟨rfl, rfl⟩ := Prod.mk.inj ran
    obtain ⟨_, -, promoted⟩ := of_bind_ok promoted
    obtain ⟨written, inserted, promoted⟩ := of_bind_ok promoted
    obtain ⟨_, -, promoted⟩ := of_bind_ok promoted
    obtain rfl := Except.ok.inj promoted
    have states (other : String) :
        ({ store.forgetUnjournaled eventKey with channelIngress := written } : Store).stateOf other =
          if other = eventKey then some (.processing token now) else store.stateOf other :=
      stateOf_insertRow inserted rfl other
    refine .durable eventKey _ unmarked ?_ ⟨.refl _, rfl, ?_, fun other different => ?_⟩
      (Finset.erase_subset _ _)
    · simp [stateOf, (insertRow_ok inserted).1, rowPhase]
    · rw [states, if_pos rfl]
      rfl
    · rw [states, if_neg different]

theorem claimInbound_claims (codec : MessageCodec) (faults : Faults) (now : Time)
    (token channelName : String) (message : IncomingMessage) (store : Store) :
    Claims faults token store (inboundEventKey channelName message)
      (store.claimInbound codec faults now token channelName message) := by
  unfold claimInbound
  cases inboundEventKey channelName message with
  | none => exact .unkeyed _
  | some eventKey =>
    by_cases mem : eventKey ∈ store.claimedUnjournaledEvents
    next =>
      simp only [mem, if_true]
      exact .refused eventKey _ _ nofun (touchClaimed_quiet mem) (Finset.Subset.refl _)
    by_cases marked : eventKey ∈ store.unjournaledEvents
    next =>
      simp only [mem, marked, if_false, if_true]
      exact claimUnjournaled_claims codec faults now token channelName message mem marked rfl
    next =>
      simp only [mem, marked, if_false]
      exact claimAccepted_claims faults now token channelName eventKey mem

theorem state_of_holds {claim : IngressClaim} (holds : store.holds claim = true) :
    ∃ row startedAt, store.channelIngress.get? claim.eventKey = some row ∧
      row.state = .processing claim.claimToken startedAt := by
  obtain ⟨row, found, same⟩ := (Option.any_eq_true _ _).mp holds
  have token : row.state.claimToken = some claim.claimToken := of_decide_eq_true same
  cases state : row.state with
  | accepted => simp [state, IngressState.claimToken] at token
  | completed => simp [state, IngressState.claimToken] at token
  | processing held startedAt =>
    simp only [state, IngressState.claimToken, Option.some.injEq] at token
    exact ⟨row, startedAt, found, token ▸ state⟩

theorem phase_of_holds {claim : IngressClaim} (holds : store.holds claim = true) :
    rowPhase claim.eventKey (store.stateOf claim.eventKey) = .held claim := by
  obtain ⟨row, startedAt, found, state⟩ := state_of_holds holds
  simp [stateOf, found, state, rowPhase]

section UpdateClaimed

variable {faults : Faults} {claim : IngressClaim} {change : IngressRow → IngressRow}

theorem updateRow_ok {journal : Journal} (ran : store.updateRow faults claim change = .ok journal) :
    journal = store.channelIngress.modify claim.eventKey fun row =>
      if row.state.claimToken = some claim.claimToken then change row else row := by
  obtain ⟨_, -, ran⟩ := of_bind_ok ran
  obtain ⟨_, -, ran⟩ := of_bind_ok ran
  exact (Except.ok.inj ran).symm

theorem updateClaimed_of_stale (stale : store.holds claim = false) :
    (store.updateClaimed faults (some claim) change).1 = store := by
  simp only [updateClaimed]
  split
  next => rfl
  cases ran : store.updateRow faults claim change with
  | error fault => rfl
  | ok journal =>
    obtain rfl := updateRow_ok ran
    simp only [settle]
    rw [Dict.modify_of_fixed]
    intro row found
    have other : row.state.claimToken ≠ some claim.claimToken := by
      simpa [holds, found] using stale
    exact if_neg other

theorem updateClaimed_of_raised {fault : SqliteError}
    (raised : (store.updateClaimed faults (some claim) change).2 = .error fault) :
    (store.updateClaimed faults (some claim) change).1 = store := by
  by_cases keyless : claim.eventKey = ""
  next => simp [updateClaimed, keyless]
  cases ran : store.updateRow faults claim change with
  | error fault => simp [updateClaimed, keyless, ran, settle]
  | ok journal => simp [updateClaimed, keyless, ran, settle] at raised

theorem updateClaimed_keyless (keyless : claim.eventKey = "") :
    (store.updateClaimed faults (some claim) change).1 = store := by
  simp [updateClaimed, keyless]

theorem updateClaimed_moved (keyed : claim.eventKey ≠ "") (holds : store.holds claim = true)
    (ran : (store.updateClaimed faults (some claim) change).2 = .ok ())
    (changed : ∀ row, rowPhase claim.eventKey (some (change row).state) = reached) :
    Moved claim.eventKey reached store (store.updateClaimed faults (some claim) change).1 := by
  obtain ⟨row, startedAt, found, state⟩ := state_of_holds holds
  cases written : store.updateRow faults claim change with
  | error fault => simp [updateClaimed, keyed, written, settle] at ran
  | ok journal =>
    obtain rfl := updateRow_ok written
    simp only [updateClaimed, keyed, if_false, written, settle]
    refine ⟨.refl _, rfl, ?_, fun other different => ?_⟩
    · have there : row.state.claimToken = some claim.claimToken := by
        rw [state]
        rfl
      simp [stateOf, Dict.get?_modify, found, there, changed]
    · simp [stateOf, Dict.get?_modify, different]

theorem updateClaimed_unjournaled (claim : Option IngressClaim) :
    (store.updateClaimed faults claim change).1.unjournaledEvents = store.unjournaledEvents := by
  unfold updateClaimed settle
  split
  next => rfl
  split
  next => rfl
  split <;> rfl

end UpdateClaimed

structure Recovered (channelName : String) (store next : Store) : Prop where
  claimed : next.claimedUnjournaledEvents = store.claimedUnjournaledEvents
  bound : next.maxClaimedUnjournaledEvents = store.maxClaimedUnjournaledEvents
  marked : next.unjournaledEvents = store.unjournaledEvents
  rows : ∀ eventKey, next.stateOf eventKey = (store.channelIngress.get? eventKey).map fun row =>
    if row.interrupted channelName then .accepted else row.state

theorem recoverInbound_of_raised {codec : MessageCodec} {now : Time}
    {channelName : String} {fault : SqliteError}
    (raised : (store.recoverInbound codec faults now channelName).2 = .error fault) :
    Quiet store (store.recoverInbound codec faults now channelName).1 := by
  unfold recoverInbound at raised ⊢
  dsimp only at raised ⊢
  split at raised
  next => exact ⟨.refl _, rfl, fun _ => rfl⟩
  split at raised
  next => exact ⟨.refl _, rfl, fun _ => rfl⟩
  next => cases raised

theorem recoverInbound_unjournaled (codec : MessageCodec) (faults : Faults) (now : Time)
    (channelName : String) : (store.recoverInbound codec faults now channelName).1.unjournaledEvents =
      store.unjournaledEvents := by
  unfold recoverInbound
  dsimp only
  split
  next => rfl
  split <;> rfl

theorem recoverInbound_recovered {codec : MessageCodec} {now : Time}
    {channelName : String} {messages : List IncomingMessage}
    (ran : (store.recoverInbound codec faults now channelName).2 = .ok messages) :
    Recovered channelName store (store.recoverInbound codec faults now channelName).1 := by
  unfold recoverInbound at ran ⊢
  dsimp only at ran ⊢
  split at ran
  next => cases ran
  split at ran
  next => cases ran
  refine ⟨rfl, rfl, rfl, fun eventKey => ?_⟩
  simp only [stateOf, Dict.get?_mapValues, Option.map_map]
  congr 1
  funext row
  simp only [Function.comp_apply, IngressRow.release]
  split <;> rfl

end Store

end OpenSquilla.Ingress
