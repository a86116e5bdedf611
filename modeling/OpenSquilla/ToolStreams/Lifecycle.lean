import OpenSquilla.Shared.RaisingRuns
import OpenSquilla.ToolStreams.Accumulator

set_option autoImplicit false

namespace OpenSquilla.ToolStreams

open TextLines ToolStreamAccumulator RaisingRuns

variable {Key Value Arguments : Type} [DecidableEq Key] {limits : ToolStreamLimits}

def waitingEvents (call : PendingToolCall Value) : Int := if call.startEmitted then 0 else heldEvents call

def waitingChars (call : PendingToolCall Value) : Int := if call.startEmitted then 0 else heldChars call

-- Start, the fragments so far, and an End once the call is closed.
def Streamed (call : PendingToolCall Value) (isClosed : Prop) (events : List (StreamEvent Arguments)) : Prop :=
  ∃ ending, events = .toolUseStart call.toolUseId call.toolName ::
      call.jsonParts.map (.toolUseDelta call.toolUseId) ++ ending ∧
    (¬isClosed ∧ ending = [] ∨
      isClosed ∧ ∃ arguments, ending = [.toolUseEnd call.toolUseId call.toolName arguments])

-- What was emitted and fed for a key, as its call knows it.
structure CallOk (call : PendingToolCall Value) (isClosed : Prop) (events : List (StreamEvent Arguments))
    (fed : Text) : Prop where
  parts : call.jsonParts.flatten = fed
  held : call.startEmitted = false → ¬isClosed ∧ events = []
  identified : call.startEmitted = true →
    hasIdentityValue call.toolUseId = true ∧ hasIdentityValue call.toolName = true
  streamed : call.startEmitted = true → Streamed call isClosed events

structure Inv (limits : ToolStreamLimits) (acc : ToolStreamAccumulator Key Value)
    (events : Key → List (StreamEvent Arguments))
    (fed : Key → Text) : Prop where
  unknown : ∀ key, acc.calls.get? key = none → key ∉ acc.closed ∧ events key = [] ∧ fed key = []
  call : ∀ key call, acc.calls.get? key = some call → CallOk call (key ∈ acc.closed) (events key) (fed key)
  identity : ∀ key call, acc.calls.get? key = some call → hasIdentityValue call.toolUseId = true →
    acc.identityKeys.get? call.toolUseId = some key
  pendingEvents : acc.pendingUnemittedEvents = acc.calls.sumValues waitingEvents
  pendingChars : acc.pendingUnemittedChars = acc.calls.sumValues waitingChars
  arguments : acc.totalArgumentChars = acc.calls.sumValues PendingToolCall.argumentChars
  argumentLimit : acc.totalArgumentChars ≤ acc.limits.maxTotalArgumentChars
  limited : acc.limits = limits
  counted : acc.eventCount = acc.calls.sumValues heldEvents + acc.closed.card
  eventLimit : acc.eventCount ≤ acc.limits.maxEvents

-- A call set anew, with the counters moved by what it adds to the one before it.
structure Stored (acc : ToolStreamAccumulator Key Value) (key : Key) (acc' : ToolStreamAccumulator Key Value)
    (call : PendingToolCall Value) : Prop where
  calls : acc'.calls = acc.calls.set key call
  limits : acc'.limits = acc.limits
  closed : ∀ other, other ≠ key → (other ∈ acc'.closed ↔ other ∈ acc.closed)
  known : ∀ id owner, acc.identityKeys.get? id = some owner → acc'.identityKeys.get? id = some owner
  named : hasIdentityValue call.toolUseId = true → acc'.identityKeys.get? call.toolUseId = some key
  pendingEvents : acc'.pendingUnemittedEvents + (acc.calls.get? key).elim 0 waitingEvents =
    acc.pendingUnemittedEvents + waitingEvents call
  pendingChars : acc'.pendingUnemittedChars + (acc.calls.get? key).elim 0 waitingChars =
    acc.pendingUnemittedChars + waitingChars call
  arguments : acc'.totalArgumentChars + (acc.calls.get? key).elim 0 PendingToolCall.argumentChars =
    acc.totalArgumentChars + call.argumentChars
  argumentLimit : acc'.totalArgumentChars ≤ acc'.limits.maxTotalArgumentChars
  counted : acc'.eventCount + (acc.calls.get? key).elim 0 heldEvents + acc.closed.card =
    acc.eventCount + heldEvents call + acc'.closed.card
  eventLimit : acc'.eventCount ≤ acc'.limits.maxEvents

section Store

variable {acc acc' : ToolStreamAccumulator Key Value} {key : Key} {call : PendingToolCall Value}
variable {events events' : Key → List (StreamEvent Arguments)} {fed fed' : Key → Text}

theorem Inv.store (inv : Inv limits acc events fed) (call : PendingToolCall Value)
    (stored : Stored acc key acc' call)
    (others : ∀ other, other ≠ key → events' other = events other ∧ fed' other = fed other)
    (own : CallOk call (key ∈ acc'.closed) (events' key) (fed' key)) : Inv limits acc' events' fed' where
  unknown other missing := by
    rw [stored.calls, Dict.get?_set] at missing
    split at missing
    · cases missing
    next apart =>
      rw [stored.closed other apart, (others other apart).1, (others other apart).2]
      exact inv.unknown other missing
  call other there found := by
    rw [stored.calls, Dict.get?_set] at found
    split at found
    next same =>
      cases found
      rwa [same]
    next apart =>
      rw [(others other apart).1, (others other apart).2, stored.closed other apart]
      exact inv.call other there found
  identity other there found has := by
    rw [stored.calls, Dict.get?_set] at found
    split at found
    next same =>
      cases found
      rw [same]
      exact stored.named has
    next apart => exact stored.known _ _ (inv.identity other there found has)
  pendingEvents := by
    have sum := Dict.sumValues_set acc.calls key call waitingEvents
    have moved := stored.pendingEvents
    rw [stored.calls]
    rw [inv.pendingEvents] at moved
    omega
  pendingChars := by
    have sum := Dict.sumValues_set acc.calls key call waitingChars
    have moved := stored.pendingChars
    rw [stored.calls]
    rw [inv.pendingChars] at moved
    omega
  arguments := by
    have sum := Dict.sumValues_set acc.calls key call PendingToolCall.argumentChars
    have moved := stored.arguments
    rw [stored.calls]
    rw [inv.arguments] at moved
    omega
  argumentLimit := stored.argumentLimit
  limited := stored.limits.trans inv.limited
  counted := by
    have sum := Dict.sumValues_set acc.calls key call heldEvents
    have moved := stored.counted
    rw [stored.calls]
    rw [inv.counted] at moved
    omega
  eventLimit := stored.eventLimit

-- An open call in hand, between the parts of one operation.
structure At (limits : ToolStreamLimits) (acc : ToolStreamAccumulator Key Value) (key : Key)
    (call : PendingToolCall Value)
    (events : Key → List (StreamEvent Arguments)) (fed : Key → Text) : Prop where
  inv : Inv limits acc events fed
  found : acc.calls.get? key = some call
  isOpen : key ∉ acc.closed

theorem At.own (inHand : At limits acc key call events fed) :
    CallOk call (key ∈ acc.closed) (events key) (fed key) := inHand.inv.call key call inHand.found

theorem At.store {new : PendingToolCall Value} (inHand : At limits acc key call events fed)
    (stored : Stored acc key acc' new) (closed : acc'.closed = acc.closed)
    (others : ∀ other, other ≠ key → events' other = events other ∧ fed' other = fed other)
    (own : CallOk new (key ∈ acc.closed) (events' key) (fed' key)) : At limits acc' key new events' fed' where
  inv := inHand.inv.store new stored others (by rwa [closed])
  found := by rw [stored.calls, Dict.get?_set, if_pos rfl]
  isOpen := by
    rw [closed]
    exact inHand.isOpen

end Store

section Parts

variable {acc acc' : ToolStreamAccumulator Key Value} {key : Key} {call call' : PendingToolCall Value}
variable {events : Key → List (StreamEvent Arguments)} {fed : Key → Text}

omit [DecidableEq Key] in
theorem reserveEvent_ok {operation : Operation} {toolUseId : Text}
    (ran : acc.reserveEvent operation key toolUseId = .ok acc') :
    acc' = { acc with eventCount := acc.eventCount + 1 } ∧ acc.eventCount + 1 ≤ acc.limits.maxEvents := by
  unfold reserveEvent at ran
  split at ran
  · cases ran
  next within =>
    cases ran
    exact ⟨rfl, by omega⟩

theorem reserveIdentity_ok {operation : Operation} {toolUseId : Text}
    (ran : acc.reserveIdentity operation key toolUseId = .ok acc') :
    acc' = { acc with identityKeys := acc'.identityKeys } ∧
      (∀ id owner, acc.identityKeys.get? id = some owner → acc'.identityKeys.get? id = some owner) ∧
      (hasIdentityValue toolUseId = true → acc'.identityKeys.get? toolUseId = some key) := by
  have owned : ∀ {identityKeys : Dict Text Key}, identityKeys = acc.identityKeys.set toolUseId key →
      (∀ owner, acc.identityKeys.get? toolUseId = some owner → owner = key) →
      (∀ id owner, acc.identityKeys.get? id = some owner → identityKeys.get? id = some owner) ∧
        identityKeys.get? toolUseId = some key := by
    rintro identityKeys rfl same
    refine ⟨fun id owner known => ?_, by rw [Dict.get?_set, if_pos rfl]⟩
    rw [Dict.get?_set]
    split
    next own => rw [same owner (own ▸ known)]
    next => exact known
  unfold reserveIdentity at ran
  split at ran
  · cases ran
  · split at ran
    next blank =>
      cases ran
      exact ⟨rfl, fun _ _ known => known, fun has => by simp [has] at blank⟩
    · split at ran
      next existing registered =>
        split at ran
        · cases ran
        next same =>
          cases ran
          obtain ⟨known, own⟩ := owned rfl fun owner known => by
            rw [registered] at known
            rw [← Option.some.inj known]
            exact not_not.mp same
          exact ⟨rfl, known, fun _ => own⟩
      next absent =>
        cases ran
        obtain ⟨known, own⟩ := owned rfl fun owner known => by
          rw [absent] at known
          cases known
        exact ⟨rfl, known, fun _ => own⟩

theorem At.rewritten (inHand : At limits acc key call events fed) {new : PendingToolCall Value}
    {identityKeys : Dict Text Key} {pendingChars : Int} (parts : new.jsonParts = call.jsonParts)
    (emitted : new.startEmitted = call.startEmitted) (chars : new.argumentChars = call.argumentChars)
    (frozen : call.startEmitted = true → new.toolUseId = call.toolUseId ∧ new.toolName = call.toolName)
    (known : ∀ id owner, acc.identityKeys.get? id = some owner → identityKeys.get? id = some owner)
    (named : hasIdentityValue new.toolUseId = true → identityKeys.get? new.toolUseId = some key)
    (pending : pendingChars + waitingChars call = acc.pendingUnemittedChars + waitingChars new) : At limits
      ({ acc with identityKeys := identityKeys, pendingUnemittedChars := pendingChars }.put key new)
      key new events fed := by
  have own := inHand.own
  refine inHand.store ?_ rfl (fun _ _ => ⟨rfl, rfl⟩) ?_
  · exact
      { calls := rfl
        limits := rfl
        closed := fun _ _ => Iff.rfl
        known := known
        named := named
        pendingEvents := by simp [put, inHand.found, waitingEvents, heldEvents, parts, emitted]
        pendingChars := by simpa [put, inHand.found] using pending
        arguments := by simp [put, inHand.found, chars]
        argumentLimit := inHand.inv.argumentLimit
        counted := by simp [put, inHand.found, heldEvents, parts]
        eventLimit := inHand.inv.eventLimit }
  · refine ⟨by rw [parts, own.parts], by rw [emitted]; exact own.held, ?_, ?_⟩
    · rw [emitted]
      intro started
      rw [(frozen started).1, (frozen started).2]
      exact own.identified started
    · rw [emitted]
      intro started
      rw [Streamed, parts, (frozen started).1, (frozen started).2]
      exact own.streamed started

theorem mergeToolName_at {operation : Operation} {toolName : Text} (inHand : At limits acc key call events fed)
    (ran : acc.mergeToolName operation key call toolName = .ok (acc', call')) :
    At limits acc' key call' events fed := by
  unfold mergeToolName at ran
  split at ran
  · cases ran
    exact inHand
  · split at ran
    next =>
      split at ran
      · cases ran
      · cases ran
        exact inHand
    next blank =>
      cases ran
      -- without a name the Start was not emitted
      have waits : call.startEmitted = false := by
        by_contra emitted
        exact blank (inHand.own.identified (by simpa using emitted)).2
      refine inHand.rewritten rfl rfl rfl (by simp [waits]) (fun _ _ known => known)
        (inHand.inv.identity key call inHand.found) ?_
      simp [waitingChars, heldChars, waits]
      omega

theorem fillToolUseId_at {toolUseId : Text} (inHand : At limits acc key call events fed)
    (ran : acc.fillToolUseId key call toolUseId = .ok (acc', call')) : At limits acc' key call' events fed := by
  unfold fillToolUseId at ran
  split at ran
  · cases ran
    exact inHand
  · split at ran
    next =>
      split at ran
      · cases ran
      · cases ran
        exact inHand
    next blank =>
      obtain ⟨reserved, reservation, ran⟩ := of_bind_ok ran
      cases ran
      obtain ⟨same, known, named⟩ := reserveIdentity_ok reservation
      have waits : call.startEmitted = false := by
        by_contra emitted
        exact blank (inHand.own.identified (by simpa using emitted)).1
      rw [same]
      refine inHand.rewritten rfl rfl rfl (by simp [waits]) known named ?_
      simp [waitingChars, heldChars, waits]
      omega

theorem adoptWireId_at {toolCallId : Text} (inHand : At limits acc key call events fed)
    (ran : acc.adoptWireId key call toolCallId = .ok (acc', call')) : At limits acc' key call' events fed := by
  unfold adoptWireId at ran
  split at ran
  · cases ran
    exact inHand
  · split at ran
    · cases ran
    · obtain ⟨reserved, reservation, ran⟩ := of_bind_ok ran
      cases ran
      obtain ⟨same, known, -⟩ := reserveIdentity_ok reservation
      rw [same]
      exact inHand.rewritten rfl rfl rfl (fun _ => ⟨rfl, rfl⟩) known
        (fun has => known _ _ (inHand.inv.identity key call inHand.found has)) rfl

theorem openCall_at {operation : Operation} {shownId toolUseId toolName : Text} {wireId : Option Text}
    (inv : Inv limits acc events fed) (missing : acc.calls.get? key = none)
    (ran : acc.openCall operation key shownId toolUseId toolName wireId = .ok (acc', call')) :
    At limits acc' key call' events fed := by
  obtain ⟨isOpen, noEvents, noneFed⟩ := inv.unknown key missing
  unfold openCall at ran
  split at ran
  · cases ran
  · obtain ⟨reserved, reservation, ran⟩ := of_bind_ok ran
    obtain ⟨counted, event, ran⟩ := of_bind_ok ran
    cases ran
    obtain ⟨same, known, named⟩ := reserveIdentity_ok reservation
    obtain ⟨rfl, within⟩ := reserveEvent_ok event
    rw [same] at within ⊢
    have limit := inv.argumentLimit
    have stored : Stored acc key
        ((({ acc with
             identityKeys := reserved.identityKeys
             eventCount := acc.eventCount + 1 } : ToolStreamAccumulator Key Value).put key
          (.opened toolUseId toolName wireId)).registerPendingCall (.opened toolUseId toolName wireId))
        (.opened toolUseId toolName wireId) :=
      { calls := rfl
        limits := rfl
        closed := fun _ _ => Iff.rfl
        known := known
        named := named
        pendingEvents := by simp [registerPendingCall, put, missing, waitingEvents, PendingToolCall.opened]
        pendingChars := by simp [registerPendingCall, put, missing, waitingChars, PendingToolCall.opened]
        arguments := by simp [registerPendingCall, put, missing, PendingToolCall.opened]
        argumentLimit := inv.argumentLimit
        counted := by simp [registerPendingCall, put, missing, heldEvents, PendingToolCall.opened]
        eventLimit := within }
    refine ⟨inv.store _ stored (fun _ _ => ⟨rfl, rfl⟩) ?_, ?_, isOpen⟩
    · exact
        { parts := noneFed.symm
          held := fun _ => ⟨isOpen, noEvents⟩
          identified := fun identified => by cases identified
          streamed := fun streamed => by cases streamed }
    · rw [stored.calls, Dict.get?_set, if_pos rfl]

def addAt {α : Type} (key : Key) (more : List α) (history : Key → List α) : Key → List α :=
  fun other => if other = key then history other ++ more else history other

omit [DecidableEq Key] in
theorem streamed_open {key : Key} {closed : Finset Key} {emitted : List (StreamEvent Arguments)}
    (isOpen : key ∉ closed) (streamed : Streamed call (key ∈ closed) emitted) :
    emitted = .toolUseStart call.toolUseId call.toolName ::
      call.jsonParts.map (.toolUseDelta call.toolUseId) := by
  obtain ⟨ending, same, ⟨-, rfl⟩ | ⟨inside, -⟩⟩ := streamed
  · rw [same, List.append_nil]
  · exact absurd inside isOpen

theorem emitStartIfReady_at {emitted : List (StreamEvent Arguments)} (inHand : At limits acc key call events fed)
    (ran : acc.emitStartIfReady key call = (acc', call', emitted)) :
    At limits acc' key call' (addAt key emitted events) fed := by
  have own := inHand.own
  unfold emitStartIfReady at ran
  split at ran
  · cases ran
    have unchanged : addAt key ([] : List (StreamEvent Arguments)) events = events := by
      funext other
      simp [addAt]
    rwa [unchanged]
  next ready =>
    cases ran
    simp only [Bool.or_eq_true, Bool.not_eq_true', not_or, Bool.not_eq_false, Bool.not_eq_true] at ready
    obtain ⟨⟨waits, hasId⟩, hasName⟩ := ready
    refine inHand.store ?_ rfl (fun other apart => ⟨by simp [addAt, apart], rfl⟩) ?_
    · exact
        { calls := rfl
          limits := rfl
          closed := fun _ _ => Iff.rfl
          known := fun _ _ known => known
          named := inHand.inv.identity key call inHand.found
          pendingEvents := by simp [put, inHand.found, waitingEvents, waits]
          pendingChars := by simp [put, inHand.found, waitingChars, waits]
          arguments := by simp [put, inHand.found]
          argumentLimit := inHand.inv.argumentLimit
          counted := by simp [put, inHand.found, heldEvents]
          eventLimit := inHand.inv.eventLimit }
    · refine ⟨own.parts, (fun identified => by cases identified), fun _ => ⟨hasId, hasName⟩,
        fun _ => ⟨[], ?_, .inl ⟨inHand.isOpen, rfl⟩⟩⟩
      rw [addAt, if_pos rfl, (own.held waits).2, List.nil_append, List.append_nil]

theorem appendFragment_ok {operation : Operation} {fragment : Text}
    (ran : acc.appendFragment operation key call fragment = .ok (acc', call')) : acc' = { acc with
        eventCount := acc.eventCount + 1
        totalArgumentChars := acc.totalArgumentChars + fragment.length }.put key (call.appended fragment) ∧
      call' = call.appended fragment ∧
      acc.totalArgumentChars + fragment.length ≤ acc.limits.maxTotalArgumentChars ∧
      acc.eventCount + 1 ≤ acc.limits.maxEvents := by
  unfold appendFragment at ran
  dsimp only at ran
  split at ran
  · cases ran
  · split at ran
    · cases ran
    next withinTotal =>
      obtain ⟨counted, event, ran⟩ := of_bind_ok ran
      cases ran
      obtain ⟨rfl, within⟩ := reserveEvent_ok event
      exact ⟨rfl, rfl, Nat.le_of_not_lt withinTotal, within⟩

theorem feedFragment_inv {operation : Operation} {fragment : Text} {emitted : List (StreamEvent Arguments)}
    (inHand : At limits acc key call events fed)
    (ran : acc.feedFragment operation key call fragment = .ok (acc', emitted)) :
    Inv limits acc' (addAt key emitted events) (addAt key fragment fed) := by
  have own := inHand.own
  obtain ⟨⟨appended, longer⟩, appending, ran⟩ := of_bind_ok ran
  obtain ⟨rfl, rfl, withinTotal, within⟩ := appendFragment_ok appending
  have others : ∀ other, other ≠ key →
      addAt key emitted events other = events other ∧ addAt key fragment fed other = fed other :=
    fun other apart => ⟨if_neg apart, if_neg apart⟩
  have parts : (call.appended fragment).jsonParts.flatten = addAt key fragment fed key := by
    rw [addAt, if_pos rfl, ← own.parts, PendingToolCall.appended, List.flatten_append,
      List.flatten_singleton]
  have used : heldEvents (call.appended fragment) = heldEvents call + 1 := by
    rw [heldEvents, heldEvents, PendingToolCall.appended, List.length_append, List.length_singleton,
      Nat.add_assoc]
  have chars : (call.appended fragment).argumentChars = call.argumentChars + fragment.length := rfl
  dsimp only at ran
  split at ran
  next started =>
    cases ran
    refine inHand.inv.store _ ?_ others ⟨parts, ?_, fun _ => own.identified started, fun _ => ?_⟩
    · have noEventsWait : waitingEvents (call.appended fragment) = waitingEvents call := by
        rw [waitingEvents, waitingEvents, if_pos started, if_pos (show call.startEmitted = true from started)]
      have noCharsWait : waitingChars (call.appended fragment) = waitingChars call := by
        rw [waitingChars, waitingChars, if_pos started, if_pos (show call.startEmitted = true from started)]
      exact
        { calls := rfl
          limits := rfl
          closed := fun _ _ => Iff.rfl
          known := fun _ _ known => known
          named := inHand.inv.identity key call inHand.found
          pendingEvents := by rw [inHand.found, Option.elim_some, noEventsWait]; rfl
          pendingChars := by rw [inHand.found, Option.elim_some, noCharsWait]; rfl
          arguments := by
            rw [inHand.found, Option.elim_some, chars]
            dsimp only [put]
            omega
          argumentLimit := withinTotal
          counted := by
            rw [inHand.found, Option.elim_some, used]
            dsimp only [put]
            omega
          eventLimit := within }
    · intro waits
      rw [started] at waits
      cases waits
    · have before := streamed_open inHand.isOpen (own.streamed started)
      refine ⟨[], ?_, .inl ⟨inHand.isOpen, rfl⟩⟩
      rw [addAt, if_pos rfl, before, PendingToolCall.appended, List.map_append, List.append_nil]
      rfl
  next waits =>
    cases ran
    rw [Bool.not_eq_true] at waits
    obtain ⟨isOpen, noEvents⟩ := own.held waits
    refine inHand.inv.store _ ?_ others ⟨parts, fun _ => ⟨isOpen, ?_⟩, ?_, ?_⟩
    · have eventsWait : waitingEvents (call.appended fragment) = waitingEvents call + 1 := by
        have here : call.startEmitted = false := waits
        simp only [waitingEvents, here, heldEvents, PendingToolCall.appended, List.length_append,
          List.length_singleton]
        rfl
      have charsWait : waitingChars (call.appended fragment) = waitingChars call + fragment.length := by
        have here : call.startEmitted = false := waits
        simp [waitingChars, here, heldChars, partsChars, PendingToolCall.appended]
        omega
      exact
        { calls := rfl
          limits := rfl
          closed := fun _ _ => Iff.rfl
          known := fun _ _ known => known
          named := inHand.inv.identity key call inHand.found
          pendingEvents := by
            rw [inHand.found, Option.elim_some, eventsWait]
            dsimp only [put]
            omega
          pendingChars := by
            rw [inHand.found, Option.elim_some, charsWait]
            dsimp only [put]
            omega
          arguments := by
            rw [inHand.found, Option.elim_some, chars]
            dsimp only [put]
            omega
          argumentLimit := withinTotal
          counted := by
            rw [inHand.found, Option.elim_some, used]
            dsimp only [put]
            omega
          eventLimit := within }
    · rw [addAt, if_pos rfl, noEvents, List.nil_append]
    · intro started
      rw [waits] at started
      cases started
    · intro started
      rw [waits] at started
      cases started

end Parts

end OpenSquilla.ToolStreams
