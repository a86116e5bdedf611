import OpenSquilla.Channels.ArtifactOutbox

set_option autoImplicit false

namespace OpenSquilla.Channels.Artifacts

open Runs
open TextLines (orText)

variable {ι : Type} {lib : ArtifactLibrary ι} {deliveries : Nat → Delivery ι}

-- The row is still for the same channel, target and intent.
def SameIntent (row later : OutboxRow) : Prop :=
  later.channelName = row.channelName ∧ later.targetId = row.targetId ∧
    later.messageJson = row.messageJson

theorem SameIntent.matches {row later : OutboxRow} (same : SameIntent row later)
    {delivery : Delivery ι} (matched : row.Matches lib delivery) : later.Matches lib delivery := by
  obtain ⟨channel, target, json⟩ := same
  unfold OutboxRow.Matches
  rw [channel, target, json]
  exact matched

theorem beginSendOnce_cases (outbox : Outbox) (sendId channelName targetId messageJson capability : String) :
    (∃ row, outbox.get? sendId = some row ∧
      beginSendOnce outbox sendId channelName targetId messageJson capability = (outbox, false)) ∨
    (outbox.get? sendId = none ∧
      beginSendOnce outbox sendId channelName targetId messageJson capability =
        (outbox.set sendId ⟨channelName, targetId, messageJson, .pending, capability, "", "", false,
          "", ""⟩, true)) := by
  unfold beginSendOnce
  cases found : outbox.get? sendId with
  | some row => exact Or.inl ⟨row, rfl, rfl⟩
  | none => exact Or.inr ⟨rfl, rfl⟩

theorem claimFailedArtifactRetry_cases (outbox : Outbox) (sendId channelName messageJson : String) :
    claimFailedArtifactRetry outbox sendId channelName messageJson = (outbox, false) ∨
    ∃ row, outbox.get? sendId = some row ∧ row.channelName = channelName ∧
      row.messageJson = messageJson ∧ row.Retryable ∧
      claimFailedArtifactRetry outbox sendId channelName messageJson =
        (outbox.set sendId { row with state := .pending, retryable := false }, true) := by
  unfold claimFailedArtifactRetry
  cases found : outbox.get? sendId with
  | none => exact Or.inl rfl
  | some row =>
    dsimp only
    split
    next fits => exact Or.inr ⟨row, rfl, fits.1, fits.2.1, fits.2.2, rfl⟩
    next => exact Or.inl rfl

variable {row : OutboxRow}

theorem failSend_pending {outbox : Outbox} {sendId : String}
    (found : outbox.get? sendId = some row) (pending : row.state = .pending)
    (errorClass safeErrorMessage : String) : failSend outbox sendId errorClass safeErrorMessage =
      outbox.set sendId { row with
        state := .unknown, errorClass := errorClass, errorMessage := safeErrorMessage } := by
  unfold failSend
  rw [found]
  dsimp only
  rw [pending, if_neg (by decide)]

variable (lib deliveries)

def isAt (id : String) (event : LogEvent) (entry : Nat × LogEvent) : Bool :=
  (deliveries entry.1).sendId lib = id && entry.2 = event

def times (event : LogEvent) (id : String) (log : List (Nat × LogEvent)) : Nat :=
  log.countP (isAt lib deliveries id event)

def invocations (id : String) (world : DeliveryWorld) : Nat :=
  times lib deliveries .invoked id world.log

-- How often the record of the id was completed as failed and retryable.
def retries (id : String) (world : DeliveryWorld) : Nat :=
  times lib deliveries (.recorded (.settled .failed) true) id world.log

theorem times_append (event : LogEvent) (id : String) (log : List (Nat × LogEvent)) (entry : Nat × LogEvent) :
    times lib deliveries event id (log ++ [entry]) =
      times lib deliveries event id log +
        if isAt lib deliveries id event entry then 1 else 0 := by
  unfold times
  rw [List.countP_append, List.countP_singleton]

structure Sound (world : DeliveryWorld) : Prop where
  held : ∀ call, (world.phases call).holds = true →
    ∃ row, world.outbox.get? ((deliveries call).sendId lib) = some row ∧
      row.state = .pending ∧ row.Matches lib (deliveries call)
  sole : ∀ call other, (world.phases call).holds = true → (world.phases other).holds = true →
    (deliveries call).sendId lib = (deliveries other).sendId lib → call = other
  recorded : ∀ id row, world.outbox.get? id = some row → ∃ message : OutgoingMessage,
    row.targetId = message.replyTo.getD "" ∧ row.messageJson = lib.messageJson message
  logged : ∀ call, (call, LogEvent.invoked) ∈ world.log →
    ∃ row, world.outbox.get? ((deliveries call).sendId lib) = some row ∧
      row.Matches lib (deliveries call)
  absent : ∀ id, world.outbox.get? id = none → invocations lib deliveries id world = 0
  spent : ∀ id,
    invocations lib deliveries id world ≤ 1 + retries lib deliveries id world
  -- who holds a row and has not invoked yet may still do so
  ready : ∀ call, world.phases call = .ready →
    invocations lib deliveries ((deliveries call).sendId lib) world ≤
      retries lib deliveries ((deliveries call).sendId lib) world
  permit : ∀ id row, world.outbox.get? id = some row → row.Retryable →
    invocations lib deliveries id world ≤ retries lib deliveries id world

theorem sound_start : Sound lib deliveries .start where
  held := by
    intro call holds
    cases holds
  sole := by
    intro call other holds
    cases holds
  recorded := by
    intro id row found
    cases found
  logged := by
    intro call mem
    cases mem
  absent := fun _ _ => rfl
  spent := fun _ => Nat.zero_le _
  ready := by
    intro call ready
    cases ready
  permit := fun _ _ _ _ => Nat.le_refl _

variable {lib deliveries}

theorem goTo_phases (world : DeliveryWorld) (call : Nat) (phase : Phase) (other : Nat) :
    (world.goTo call phase).phases other = if other = call then phase else world.phases other :=
  Function.update_apply world.phases call phase other

variable {world : DeliveryWorld} {call : Nat}

theorem Sound.goTo (sound : Sound lib deliveries world)
    {phase : Phase} (holds : phase.holds = true → (world.phases call).holds = true)
    (ready : phase = .ready → world.phases call = .ready) : Sound lib deliveries (world.goTo call phase) := by
  have before : ∀ other, ((world.goTo call phase).phases other).holds = true →
      (world.phases other).holds = true := by
    intro other
    rw [goTo_phases]
    split
    next same =>
      rw [same]
      exact holds
    next => exact id
  refine { sound with held := ?_, sole := ?_, ready := ?_ }
  · intro other held
    exact sound.held other (before other held)
  · intro first second one two
    exact sound.sole first second (before first one) (before second two)
  · intro other readyNow
    rw [goTo_phases] at readyNow
    split at readyNow
    next same => exact sound.ready other (same ▸ ready readyNow)
    next => exact sound.ready other readyNow

theorem Sound.take (sound : Sound lib deliveries world) (pending : row.state = .pending)
    (matched : row.Matches lib (deliveries call))
    (free : ∀ found, world.outbox.get? ((deliveries call).sendId lib) = some found →
      found.state ≠ .pending ∧ SameIntent found row)
    (allowed : invocations lib deliveries ((deliveries call).sendId lib) world ≤
      retries lib deliveries ((deliveries call).sendId lib) world)
    (outbox : Outbox) (taken : outbox = world.outbox.set ((deliveries call).sendId lib) row) :
    Sound lib deliveries ((world.store outbox).goTo call .ready) := by
  have rows : ∀ id, outbox.get? id =
      if (deliveries call).sendId lib = id then some row else world.outbox.get? id := by
    intro id
    rw [taken, Dict.get?_set]
    simp only [eq_comm]
  have alone : ∀ other, (world.phases other).holds = true →
      (deliveries call).sendId lib ≠ (deliveries other).sendId lib := by
    intro other holds same
    obtain ⟨found, here, itsPending, -⟩ := sound.held other holds
    exact (free found (same ▸ here)).1 itsPending
  refine ⟨?_, ?_, ?_, ?_, ?_, sound.spent, ?_, ?_⟩
  · intro other holds
    change ∃ found, outbox.get? _ = some found ∧ _
    rw [goTo_phases] at holds
    rw [rows]
    split at holds
    next same =>
      rw [same, if_pos rfl]
      exact ⟨row, rfl, pending, matched⟩
    next =>
      rw [if_neg (alone other holds)]
      exact sound.held other holds
  · intro first second one two same
    rw [goTo_phases] at one two
    split at one
    next firstIs =>
      split at two
      next secondIs => rw [firstIs, secondIs]
      next => exact absurd (firstIs ▸ same) (alone second two)
    next =>
      split at two
      next secondIs => exact absurd (secondIs ▸ same.symm) (alone first one)
      next => exact sound.sole first second one two same
  · intro id found here
    change outbox.get? id = some found at here
    rw [rows] at here
    split at here
    next =>
      cases here
      exact ⟨(deliveries call).intent lib, matched.2.1, matched.2.2⟩
    next => exact sound.recorded id found here
  · intro other mem
    change ∃ found, outbox.get? _ = some found ∧ _
    obtain ⟨found, here, fits⟩ := sound.logged other mem
    rw [rows]
    split
    next same =>
      exact ⟨row, rfl, (free found (same ▸ here)).2.matches fits⟩
    next => exact ⟨found, here, fits⟩
  · intro id none
    change outbox.get? id = .none at none
    rw [rows] at none
    split at none
    next => cases none
    next => exact sound.absent id none
  · intro other ready
    rw [goTo_phases] at ready
    split at ready
    next same =>
      rw [same]
      exact allowed
    next => exact sound.ready other ready
  · intro id found here retryable
    change outbox.get? id = some found at here
    rw [rows] at here
    split at here
    next =>
      cases here
      rw [OutboxRow.Retryable, pending] at retryable
      cases retryable.1
    next => exact sound.permit id found here retryable

theorem Sound.invoke (sound : Sound lib deliveries world) (ready : world.phases call = .ready) :
    Sound lib deliveries ((world.enter call .invoked).goTo call .invoked) := by
  have holdsNow : (world.phases call).holds = true := by
    rw [ready]
    rfl
  obtain ⟨row, found, pending, fits⟩ := sound.held call holdsNow
  have more : ∀ id, invocations lib deliveries id (world.enter call .invoked) =
      invocations lib deliveries id world +
        if (deliveries call).sendId lib = id then 1 else 0 := by
    intro id
    refine (times_append lib deliveries .invoked id world.log (call, .invoked)).trans ?_
    simp [isAt, invocations]
  have same : ∀ id, retries lib deliveries id (world.enter call .invoked) =
      retries lib deliveries id world := by
    intro id
    refine (times_append lib deliveries _ id world.log (call, .invoked)).trans ?_
    simp [isAt, retries]
  have before : ∀ other, (((world.enter call .invoked).goTo call .invoked).phases other).holds = true →
      (world.phases other).holds = true := by
    intro other holds
    rw [goTo_phases] at holds
    split at holds
    next here => exact here ▸ holdsNow
    next => exact holds
  refine ⟨?_, ?_, sound.recorded, ?_, ?_, ?_, ?_, ?_⟩
  · intro other holds
    exact sound.held other (before other holds)
  · intro first second one two
    exact sound.sole first second (before first one) (before second two)
  · intro other mem
    obtain old | new := List.mem_append.mp mem
    · exact sound.logged other old
    · cases List.mem_singleton.mp new
      exact ⟨row, found, fits⟩
  · intro id none
    change invocations lib deliveries id (world.enter call .invoked) = 0
    have other : (deliveries call).sendId lib ≠ id := by
      rintro rfl
      cases found.symm.trans none
    rw [more, if_neg other]
    exact sound.absent id none
  · intro id
    change invocations lib deliveries id (world.enter call .invoked) ≤
      1 + retries lib deliveries id (world.enter call .invoked)
    rw [more, same]
    split
    next here =>
      have low := sound.ready call ready
      rw [here] at low
      omega
    next => exact sound.spent id
  · intro other otherReady
    rw [goTo_phases] at otherReady
    split at otherReady
    next => cases otherReady
    next differs =>
      change invocations lib deliveries _ (world.enter call .invoked) ≤
        retries lib deliveries _ (world.enter call .invoked)
      have apart : (deliveries call).sendId lib ≠ (deliveries other).sendId lib := by
        intro sameId
        change world.phases other = .ready at otherReady
        have otherHolds : (world.phases other).holds = true := by
          rw [otherReady]
          rfl
        exact differs (sound.sole call other holdsNow otherHolds sameId).symm
      rw [more, same, if_neg apart]
      exact sound.ready other otherReady
  · intro id found' here retryable
    change invocations lib deliveries id (world.enter call .invoked) ≤
      retries lib deliveries id (world.enter call .invoked)
    have apart : (deliveries call).sendId lib ≠ id := by
      rintro rfl
      cases found.symm.trans here
      rw [OutboxRow.Retryable, pending] at retryable
      cases retryable.1
    rw [more, same, if_neg apart]
    exact sound.permit id found' here retryable

theorem Sound.give (sound : Sound lib deliveries world)
    (holdsNow : (world.phases call).holds = true) {row later : OutboxRow}
    (found : world.outbox.get? ((deliveries call).sendId lib) = some row)
    (kept : SameIntent row later) {outbox : Outbox}
    (given : outbox = world.outbox.set ((deliveries call).sendId lib) later) {log : List (Nat × LogEvent)}
    (logs : (log = world.log ∧ ¬later.Retryable) ∨ ∃ state retryable,
      log = world.log ++ [(call, .recorded state retryable)] ∧
      later.state = state ∧ later.retryable = retryable)
    {phase : Phase} (holdsNot : phase.holds = false) :
    Sound lib deliveries (({ world with outbox := outbox, log := log } : DeliveryWorld).goTo
      call phase) := by
  have rows : ∀ id, outbox.get? id =
      if (deliveries call).sendId lib = id then some later else world.outbox.get? id := by
    intro id
    rw [given, Dict.get?_set]
    simp only [eq_comm]
  have same : ∀ id, times lib deliveries .invoked id log =
      invocations lib deliveries id world := by
    intro id
    obtain ⟨rfl, -⟩ | ⟨state, retryable, rfl, -⟩ := logs
    · rfl
    · rw [times_append]
      simp [isAt, invocations]
  have more : ∀ id, times lib deliveries (.recorded (.settled .failed) true) id log =
      retries lib deliveries id world +
        if (deliveries call).sendId lib = id ∧ later.Retryable then 1 else 0 := by
    intro id
    obtain ⟨rfl, never⟩ | ⟨state, retryable, rfl, rfl, rfl⟩ := logs
    · rw [if_neg (fun both => never both.2)]
      rfl
    · rw [times_append]
      unfold isAt retries OutboxRow.Retryable
      congr 1
      simp
  have before : ∀ other,
      ((({ world with outbox := outbox, log := log } : DeliveryWorld).goTo call phase).phases
        other).holds = true → other ≠ call ∧ (world.phases other).holds = true := by
    intro other holds
    rw [goTo_phases] at holds
    split at holds
    next => cases holdsNot.symm.trans holds
    next differs => exact ⟨differs, holds⟩
  refine ⟨?_, ?_, ?_, ?_, ?_, ?_, ?_, ?_⟩
  · intro other holds
    change ∃ found, outbox.get? _ = some found ∧ _
    obtain ⟨differs, otherHolds⟩ := before other holds
    rw [rows, if_neg (fun sameId => differs (sound.sole call other holdsNow otherHolds sameId).symm)]
    exact sound.held other otherHolds
  · intro first second one two
    exact sound.sole first second (before first one).2 (before second two).2
  · intro id found' here
    change outbox.get? id = some found' at here
    rw [rows] at here
    split at here
    next =>
      cases here
      obtain ⟨message, target, json⟩ := sound.recorded _ row found
      exact ⟨message, kept.2.1.trans target, kept.2.2.trans json⟩
    next => exact sound.recorded id found' here
  · intro other mem
    change ∃ found, outbox.get? _ = some found ∧ _
    have old : (other, LogEvent.invoked) ∈ world.log := by
      obtain ⟨rfl, -⟩ | ⟨state, retryable, rfl, -⟩ := logs
      · exact mem
      · obtain old | new := List.mem_append.mp mem
        · exact old
        · cases List.mem_singleton.mp new
    obtain ⟨found', here, fits⟩ := sound.logged other old
    rw [rows]
    split
    next sameId =>
      rw [sameId] at found
      cases found.symm.trans here
      exact ⟨later, rfl, kept.matches fits⟩
    next => exact ⟨found', here, fits⟩
  · intro id none
    change outbox.get? id = .none at none
    change times lib deliveries .invoked id log = 0
    rw [rows] at none
    rw [same]
    split at none
    next => cases none
    next => exact sound.absent id none
  · intro id
    change times lib deliveries .invoked id log ≤
      1 + times lib deliveries (.recorded (.settled .failed) true) id log
    rw [same, more]
    have low := sound.spent id
    omega
  · intro other otherReady
    change times lib deliveries .invoked _ log ≤
      times lib deliveries (.recorded (.settled .failed) true) _ log
    rw [goTo_phases] at otherReady
    split at otherReady
    next =>
      rw [otherReady] at holdsNot
      cases holdsNot
    next =>
      have low := sound.ready other otherReady
      rw [same, more]
      omega
  · intro id found' here retryable
    change outbox.get? id = some found' at here
    change times lib deliveries .invoked id log ≤
      times lib deliveries (.recorded (.settled .failed) true) id log
    rw [rows] at here
    rw [same, more]
    split at here
    next sameId =>
      cases here
      have low := sound.spent id
      rw [if_pos ⟨sameId, retryable⟩]
      omega
    next =>
      have low := sound.permit id found' here retryable
      omega

theorem Sound.step (sound : Sound lib deliveries world)
    (input : Nat × Action) : Sound lib deliveries (step lib deliveries world input) := by
  obtain ⟨call, action⟩ := input
  cases action with
  | outcome outcome =>
    unfold Artifacts.step
    dsimp only
    split
    next invoked =>
      apply sound.goTo
      · intro _
        rw [invoked]
        rfl
      · intro ready
        cases ready
    next => exact sound
  | stop =>
    unfold Artifacts.step
    dsimp only
    split
    next => exact sound
    next => exact sound
    next => exact sound.goTo id (fun ready => nomatch ready)
  | advance =>
    change Sound lib deliveries (advance lib deliveries world call)
    unfold advance
    dsimp only
    split
    next phase =>
      obtain ⟨row, found, same⟩ | ⟨none, same⟩ := beginSendOnce_cases world.outbox
        ((deliveries call).sendId lib) (deliveries call).channelName
        ((deliveries call).target lib) ((deliveries call).intentJson lib) deliverArtifact
      · rw [same]
        exact sound.goTo (fun holds => nomatch holds) (fun ready => nomatch ready)
      · rw [same]
        have low := sound.absent _ none
        refine sound.take rfl ⟨rfl, rfl, rfl⟩ ?_ (by omega) _ rfl
        intro found here
        cases none.symm.trans here
    next phase =>
      obtain same | ⟨row, found, channel, json, retryable, same⟩ := claimFailedArtifactRetry_cases
        world.outbox ((deliveries call).sendId lib) (deliveries call).channelName
        ((deliveries call).intentJson lib)
      · rw [same]
        exact sound.goTo (fun holds => nomatch holds) (fun ready => nomatch ready)
      · rw [same]
        obtain ⟨message, target, itsJson⟩ := sound.recorded _ row found
        have targetSame : row.targetId = (deliveries call).target lib := by
          have replyTo := lib.messageJson_replyTo message ((deliveries call).intent lib)
            (itsJson.symm.trans json)
          rw [target, replyTo]
          rfl
        have kept : SameIntent row { row with state := .pending, retryable := false } :=
          ⟨rfl, rfl, rfl⟩
        refine sound.take rfl (kept.matches ⟨channel, targetSame, json⟩) ?_
          (sound.permit _ row found retryable) _ rfl
        intro found' here
        cases found.symm.trans here
        refine ⟨?_, kept⟩
        rw [retryable.1]
        exact fun pending => nomatch pending
    next => exact sound.goTo (fun holds => nomatch holds) (fun ready => nomatch ready)
    next ready => exact sound.invoke ready
    next result phase =>
      have holds : (world.phases call).holds = true := by
        rw [phase]
        rfl
      obtain ⟨row, found, pending, fits⟩ := sound.held call holds
      have written : ∃ later : OutboxRow, SameIntent row later ∧
          later.state = receiptState result (normalizeChannelSendResult result deliverArtifact
            ((deliveries call).target lib)) ∧
          later.retryable = (normalizeChannelSendResult result deliverArtifact
            ((deliveries call).target lib)).retryable ∧
          completeSend world.outbox ((deliveries call).sendId lib) result deliverArtifact
            ((deliveries call).target lib) (some "") =
              world.outbox.set ((deliveries call).sendId lib) later := by
        unfold completeSend completeSendReceipt
        rw [found]
        dsimp only
        refine ⟨_, ?_, ?_, ?_, rfl⟩
        · exact ⟨rfl, rfl, rfl⟩
        · rfl
        · rfl
      obtain ⟨later, kept, state, retryable, written⟩ := written
      exact sound.give holds found kept written (Or.inr ⟨_, _, rfl, state, retryable⟩) rfl
    next errorType errorClass phase =>
      have holds : (world.phases call).holds = true := by
        rw [phase]
        rfl
      obtain ⟨row, found, pending, fits⟩ := sound.held call holds
      have kept : SameIntent row { row with
          state := .unknown, errorClass := errorClass,
          errorMessage := errorType ++ ": contextual artifact delivery failed" } := ⟨rfl, rfl, rfl⟩
      refine sound.give holds found kept (failSend_pending found pending _ _)
        (Or.inl ⟨rfl, ?_⟩) rfl
      intro retryable
      cases retryable.1
    next => exact sound
    next => exact sound
    next => exact sound
    next => exact sound

/-- What a step does to the outbox: nothing, a new row, or another state of the row by a call that
holds it or finds it open for another attempt. -/
theorem step_outbox (lib : ArtifactLibrary ι) (deliveries : Nat → Delivery ι)
    (world : DeliveryWorld) (call : Nat) (action : Action) :
    (step lib deliveries world (call, action)).outbox = world.outbox ∨
    (∃ row, world.outbox.get? ((deliveries call).sendId lib) = none ∧
      (step lib deliveries world (call, action)).outbox =
        world.outbox.set ((deliveries call).sendId lib) row) ∨
    ∃ row later, world.outbox.get? ((deliveries call).sendId lib) = some row ∧
      SameIntent row later ∧ (row.Retryable ∨ (world.phases call).holds = true) ∧
      (step lib deliveries world (call, action)).outbox =
        world.outbox.set ((deliveries call).sendId lib) later := by
  cases action with
  | outcome outcome =>
    unfold Artifacts.step
    dsimp only
    split <;> exact Or.inl rfl
  | stop =>
    unfold Artifacts.step
    dsimp only
    split <;> exact Or.inl rfl
  | advance =>
    change (advance lib deliveries world call).outbox = _ ∨ (∃ row, _ ∧
      (advance lib deliveries world call).outbox = _) ∨ ∃ row later, _ ∧ _ ∧ _ ∧
      (advance lib deliveries world call).outbox = _
    unfold advance
    dsimp only
    split
    next =>
      obtain ⟨row, found, same⟩ | ⟨none, same⟩ := beginSendOnce_cases world.outbox
        ((deliveries call).sendId lib) (deliveries call).channelName
        ((deliveries call).target lib) ((deliveries call).intentJson lib) deliverArtifact
      · rw [same]
        exact Or.inl rfl
      · rw [same]
        exact Or.inr (Or.inl ⟨_, none, rfl⟩)
    next =>
      obtain same | ⟨row, found, channel, json, retryable, same⟩ := claimFailedArtifactRetry_cases
        world.outbox ((deliveries call).sendId lib) (deliveries call).channelName
        ((deliveries call).intentJson lib)
      · rw [same]
        exact Or.inl rfl
      · rw [same]
        refine Or.inr (Or.inr ⟨row, _, found, ?_, Or.inl retryable, rfl⟩)
        exact ⟨rfl, rfl, rfl⟩
    next => exact Or.inl rfl
    next => exact Or.inl rfl
    next result phase =>
      have holds : (world.phases call).holds = true := by
        rw [phase]
        rfl
      cases found : world.outbox.get? ((deliveries call).sendId lib) with
      | none =>
        refine Or.inl ?_
        dsimp only [DeliveryWorld.goTo, DeliveryWorld.enter, DeliveryWorld.store, completeSend,
          completeSendReceipt]
        rw [found]
      | some row =>
        dsimp only [DeliveryWorld.goTo, DeliveryWorld.enter, DeliveryWorld.store, completeSend,
          completeSendReceipt]
        rw [found]
        refine Or.inr (Or.inr ⟨row, _, rfl, ?_, Or.inr holds, rfl⟩)
        exact ⟨rfl, rfl, rfl⟩
    next errorType errorClass phase =>
      have holds : (world.phases call).holds = true := by
        rw [phase]
        rfl
      dsimp only [DeliveryWorld.goTo, DeliveryWorld.store, failSend]
      cases found : world.outbox.get? ((deliveries call).sendId lib) with
      | none => exact Or.inl rfl
      | some row =>
        dsimp only
        split
        next => exact Or.inl rfl
        next =>
          refine Or.inr (Or.inr ⟨row, _, rfl, ?_, Or.inr holds, rfl⟩)
          exact ⟨rfl, rfl, rfl⟩
    next => exact Or.inl rfl
    next => exact Or.inl rfl
    next => exact Or.inl rfl
    next => exact Or.inl rfl

theorem step_sameIntent {id : String} (found : world.outbox.get? id = some row) (input : Nat × Action) :
    ∃ later, (step lib deliveries world input).outbox.get? id = some later ∧
      SameIntent row later := by
  obtain ⟨call, action⟩ := input
  obtain same | ⟨new, none, same⟩ | ⟨old, new, here, kept, -, same⟩ :=
    step_outbox lib deliveries world call action
  · rw [same]
    exact ⟨row, found, rfl, rfl, rfl⟩
  · rw [same, Dict.get?_set, if_neg]
    · exact ⟨row, found, rfl, rfl, rfl⟩
    · rintro rfl
      cases none.symm.trans found
  · rw [same, Dict.get?_set]
    split
    next sameId =>
      cases here.symm.trans (sameId ▸ found)
      exact ⟨new, rfl, kept⟩
    next => exact ⟨row, found, rfl, rfl, rfl⟩

theorem run_sameIntent (lib : ArtifactLibrary ι) (deliveries : Nat → Delivery ι) {id : String}
    (found : world.outbox.get? id = some row) (inputs : List (Nat × Action)) :
    ∃ later, (run (step lib deliveries) world inputs).outbox.get? id = some later ∧
      SameIntent row later := by
  refine run_invariant (fun world : DeliveryWorld => ∃ later, world.outbox.get? id = some later ∧
    SameIntent row later) ?_ ⟨row, found, rfl, rfl, rfl⟩ inputs
  rintro world input ⟨later, here, channel, target, json⟩
  obtain ⟨next, there, kept⟩ := step_sameIntent here input
  exact ⟨next, there, kept.1.trans channel, kept.2.1.trans target, kept.2.2.trans json⟩

theorem step_sent (sound : Sound lib deliveries world) {id : String} (found : world.outbox.get? id = some row)
    (sent : row.state = .settled .sent) (input : Nat × Action) :
    (step lib deliveries world input).outbox.get? id = some row := by
  obtain ⟨call, action⟩ := input
  obtain same | ⟨new, none, same⟩ | ⟨old, new, here, -, open', same⟩ :=
    step_outbox lib deliveries world call action
  · rw [same]
    exact found
  · rw [same, Dict.get?_set, if_neg]
    · exact found
    · rintro rfl
      cases none.symm.trans found
  · rw [same, Dict.get?_set, if_neg]
    · exact found
    · rintro rfl
      cases here.symm.trans found
      obtain retryable | holds := open'
      · cases sent.symm.trans retryable.1
      · obtain ⟨held, there, pending, -⟩ := sound.held call holds
        cases there.symm.trans found
        cases sent.symm.trans pending

-- What a call that begins after the delivery can come to.
def Late (lib : ArtifactLibrary ι) (row : OutboxRow) (delivery : Delivery ι) (phase : Phase) : Prop :=
  phase = .starting ∨ phase = .refused ∨ phase = .replaying ∨
    phase = .finished (.replayed (replayArtifactDelivery lib (some row) delivery)) ∨
    phase = .stopped .apart

theorem step_phases_other (world : DeliveryWorld) {call other : Nat} (differs : other ≠ call)
    (action : Action) : (step lib deliveries world (call, action)).phases other = world.phases other := by
  have unchanged : ∀ (changed : DeliveryWorld) phase, changed.phases = world.phases →
      (changed.goTo call phase).phases other = world.phases other := by
    intro changed phase same
    rw [goTo_phases, if_neg differs, same]
  cases action with
  | outcome outcome =>
    unfold Artifacts.step
    dsimp only
    split
    next => exact unchanged world _ rfl
    next => rfl
  | stop =>
    unfold Artifacts.step
    dsimp only
    split
    next => rfl
    next => rfl
    next => exact unchanged world _ rfl
  | advance =>
    change (advance lib deliveries world call).phases other = _
    unfold advance
    dsimp only
    split
    next => exact unchanged _ _ rfl
    next => exact unchanged _ _ rfl
    next => exact unchanged _ _ rfl
    next => exact unchanged _ _ rfl
    next => exact unchanged _ _ rfl
    next => exact unchanged _ _ rfl
    next => rfl
    next => rfl
    next => rfl
    next => rfl

def afterDelivery (lib : ArtifactLibrary ι) (row : OutboxRow) (delivery : Delivery ι) : Phase → Phase
  | .starting => .refused
  | .refused => .replaying
  | .replaying => .finished (.replayed (replayArtifactDelivery lib (some row) delivery))
  | phase => phase

theorem advance_late (found : world.outbox.get? ((deliveries call).sendId lib) = some row)
    (sent : row.state = .settled .sent) (late : Late lib row (deliveries call) (world.phases call)) :
    (step lib deliveries world (call, .advance)).phases call =
      afterDelivery lib row (deliveries call) (world.phases call) := by
  change (advance lib deliveries world call).phases call = _
  unfold advance
  dsimp only
  obtain late | late | late | late | late := late
  · obtain ⟨row, -, same⟩ | ⟨none, -⟩ := beginSendOnce_cases world.outbox
      ((deliveries call).sendId lib) (deliveries call).channelName
      ((deliveries call).target lib) ((deliveries call).intentJson lib) deliverArtifact
    · rw [late]
      dsimp only
      rw [same, goTo_phases, if_pos rfl]
      rfl
    · cases none.symm.trans found
  · obtain same | ⟨old, here, -, -, retryable, -⟩ := claimFailedArtifactRetry_cases world.outbox
      ((deliveries call).sendId lib) (deliveries call).channelName
      ((deliveries call).intentJson lib)
    · rw [late]
      dsimp only
      rw [same, goTo_phases, if_pos rfl]
      rfl
    · cases here.symm.trans found
      cases sent.symm.trans retryable.1
  · rw [late]
    dsimp only
    rw [goTo_phases, if_pos rfl, found]
    rfl
  · rw [late]
    dsimp only
    rw [late]
    rfl
  · rw [late]
    dsimp only
    rw [late]
    rfl

theorem Late.next {delivery : Delivery ι} {phase : Phase} (late : Late lib row delivery phase) :
    Late lib row delivery (afterDelivery lib row delivery phase) := by
  obtain rfl | rfl | rfl | rfl | rfl := late
  · exact Or.inr (Or.inl rfl)
  · exact Or.inr (Or.inr (Or.inl rfl))
  · exact Or.inr (Or.inr (Or.inr (Or.inl rfl)))
  · exact Or.inr (Or.inr (Or.inr (Or.inl rfl)))
  · exact Or.inr (Or.inr (Or.inr (Or.inr rfl)))

theorem step_late (found : world.outbox.get? ((deliveries call).sendId lib) = some row)
    (sent : row.state = .settled .sent)
    (late : Late lib row (deliveries call) (world.phases call)) (input : Nat × Action) :
    Late lib row (deliveries call) ((step lib deliveries world input).phases call) := by
  obtain ⟨other, action⟩ := input
  obtain differs | rfl := ne_or_eq call other
  · rw [step_phases_other world differs]
    exact late
  cases action with
  | outcome outcome =>
    unfold Artifacts.step
    dsimp only
    split
    next invoked =>
      rw [invoked] at late
      obtain late | late | late | late | late := late <;> cases late
    next => exact late
  | stop =>
    unfold Artifacts.step
    dsimp only
    split
    next => exact late
    next => exact late
    next =>
      rw [goTo_phases, if_pos rfl]
      obtain late | late | late | late | late := late <;> rw [late] <;>
        exact Or.inr (Or.inr (Or.inr (Or.inr rfl)))
  | advance =>
    rw [advance_late found sent late]
    exact late.next

-- A delivered row with a call that began after the delivery.
structure Delivered (lib : ArtifactLibrary ι) (deliveries : Nat → Delivery ι) (row : OutboxRow)
    (call : Nat) (world : DeliveryWorld) : Prop where
  sound : Sound lib deliveries world
  found : world.outbox.get? ((deliveries call).sendId lib) = some row
  sent : row.state = .settled .sent
  late : Late lib row (deliveries call) (world.phases call)

theorem Delivered.step (delivered : Delivered lib deliveries row call world) (input : Nat × Action) :
    Delivered lib deliveries row call (step lib deliveries world input) where
  sound := delivered.sound.step input
  found := step_sent delivered.sound delivered.found delivered.sent input
  sent := delivered.sent
  late := step_late delivered.found delivered.sent delivered.late input

theorem Delivered.finishes (delivered : Delivered lib deliveries row call world)
    (going : world.phases call ≠ .stopped .apart) :
    (run (Artifacts.step lib deliveries) world (List.replicate 3 (call, .advance))).phases call =
      .finished (.replayed (replayArtifactDelivery lib (some row) (deliveries call))) := by
  have second := delivered.step (call, .advance)
  have third := second.step (call, .advance)
  rw [show List.replicate 3 (call, Action.advance) =
    [(call, .advance), (call, .advance), (call, .advance)] from rfl, run_cons, run_cons, run_cons,
    run_nil]
  rw [advance_late third.found third.sent third.late,
    advance_late second.found second.sent second.late,
    advance_late delivered.found delivered.sent delivered.late]
  obtain late | late | late | late | late := delivered.late
  · rw [late]
    rfl
  · rw [late]
    rfl
  · rw [late]
    rfl
  · rw [late]
    rfl
  · exact absurd late going

theorem target_eq (delivery : Delivery ι) : delivery.target lib = lib.channelId delivery.request.inbound := by
  unfold Delivery.target Delivery.intent operationMessage
  dsimp only
  split
  next empty => exact empty.symm
  next => rfl

theorem replay_of_matches {delivery : Delivery ι}
    (sent : row.state = .settled .sent) (fits : row.Matches lib delivery) :
    replayArtifactDelivery lib (some row) delivery =
      sentResult (orText row.capability artifactDelivery) (orText row.targetId row.targetId)
        row.providerMessageId row.providerFileId := by
  obtain ⟨channel, target, json⟩ := fits
  rw [target_eq] at target
  unfold replayArtifactDelivery
  dsimp only
  rw [if_neg, if_pos sent, target]
  rw [not_or, not_or, not_not, not_not, not_not]
  exact ⟨channel, target, json⟩

structure AtMostOnce (lib : ArtifactLibrary ι) (deliveries : Nat → Delivery ι)
    (world : DeliveryWorld) : Prop where
  once : ∀ id, invocations lib deliveries id world ≤ 1 + retries lib deliveries id world
  -- an invocation that may begin is the only one without an outcome
  alone : ∀ call other, world.phases call = .ready → (world.phases other).standing = .invoking →
    (deliveries other).sendId lib ≠ (deliveries call).sendId lib
  foreign : ∀ id row, world.outbox.get? id = some row →
    ∀ call, (deliveries call).sendId lib = id → ¬row.Matches lib (deliveries call) →
      ∀ later, (call, .invoked) ∉ (run (step lib deliveries) world later).log
  stays : ∀ id row, world.outbox.get? id = some row → row.state = .settled .sent →
    ∀ later, (run (step lib deliveries) world later).outbox.get? id = some row
  -- a call that begins after the delivery answers with its ids, three steps of its own later at most
  replays : ∀ id row, world.outbox.get? id = some row → row.state = .settled .sent →
    ∀ call, (deliveries call).sendId lib = id → row.Matches lib (deliveries call) →
      world.phases call = .starting → ∀ later,
        (∀ answer, (run (step lib deliveries) world later).phases call = .finished answer →
          ∃ result, answer = .replayed result ∧ result.status = .sent ∧
            result.providerMessageId = row.providerMessageId ∧
            result.providerFileId = row.providerFileId) ∧
        ((run (step lib deliveries) world later).phases call ≠ .stopped .apart →
          ∃ answer, (run (step lib deliveries) (run (step lib deliveries) world later)
            (List.replicate 3 (call, .advance))).phases call = .finished answer)

/-- An artifact is delivered at most once for each id, and once more after each record that it
failed and may be retried. -/
theorem artifact_delivered_at_most_once (lib : ArtifactLibrary ι)
    (deliveries : Nat → Delivery ι) (inputs : List (Nat × Action)) :
    AtMostOnce lib deliveries (run (step lib deliveries) .start inputs) := by
  have always : ∀ more, Sound lib deliveries
      (run (step lib deliveries) (run (step lib deliveries) .start inputs) more) := by
    intro more
    rw [← run_append]
    exact run_invariant (Sound lib deliveries) (fun _ input sound => sound.step input)
      (sound_start lib deliveries) _
  generalize run (step lib deliveries) .start inputs = world at *
  have sound := always []
  refine ⟨sound.spent, ?_, ?_, ?_, ?_⟩
  · intro call other ready invoking same
    have holds : (world.phases other).holds = true := by
      unfold Phase.holds
      rw [invoking]
    have readyHolds : (world.phases call).holds = true := by
      rw [ready]
      rfl
    rw [sound.sole other call holds readyHolds same, ready] at invoking
    cases invoking
  · rintro id row found call rfl differs later mem
    obtain ⟨held, here, fits⟩ := (always later).logged call mem
    obtain ⟨kept, there, channel, target, json⟩ := run_sameIntent lib deliveries found later
    cases here.symm.trans there
    exact differs (SameIntent.matches ⟨channel.symm, target.symm, json.symm⟩ fits)
  · intro id row found sent later
    refine (run_invariant (fun world : DeliveryWorld => Sound lib deliveries world ∧
      world.outbox.get? id = some row) ?_ ⟨sound, found⟩ later).2
    rintro world input ⟨sound, found⟩
    exact ⟨sound.step input, step_sent sound found sent input⟩
  · rintro id row found sent call rfl fits starting later
    have delivered : Delivered lib deliveries row call
        (run (step lib deliveries) world later) :=
      run_invariant (Delivered lib deliveries row call)
        (fun _ input delivered => delivered.step input) ⟨sound, found, sent, Or.inl starting⟩ later
    constructor
    · intro answer finished
      have late := delivered.late
      rw [finished] at late
      obtain late | late | late | late | late := late
      · cases late
      · cases late
      · cases late
      · cases late
        rw [replay_of_matches sent fits]
        exact ⟨_, rfl, rfl, rfl, rfl⟩
      · cases late
    · intro going
      exact ⟨_, delivered.finishes going⟩

-- A library that writes down what it is given.
def writtenLibrary : ArtifactLibrary String where
  channelId := fun inbound => inbound
  basename := fun name => name
  binding :=
    fun channelName request => "in " ++ channelName ++ " " ++ request.artifactId ++ " of " ++ request.sessionId
  messageJson := fun message => message.replyTo.elim "" ("to " ++ ·)
  binding_ne := by simp
  messageJson_replyTo := by
    intro message other same
    cases one : message.replyTo <;> cases two : other.replyTo <;> simp_all

def report : Delivery String where
  channelName := "mail"
  attached := by decide
  request := ⟨"team", "a1", "report.pdf", "application/pdf", 9, none, "s1"⟩

-- A report is delivered, and asked for again.
def deliveredThenAsked : List (Nat × Action) :=
  [(0, .advance), (0, .advance), (0, .outcome (.returned (.result (sentResult "upload" "team" "m1" "f1")))),
    (0, .advance), (1, .advance), (1, .advance), (1, .advance)]

theorem report_is_delivered_once :
    let world := run (step writtenLibrary fun _ => report) .start deliveredThenAsked
    AtMostOnce writtenLibrary (fun _ => report) world ∧
      invocations writtenLibrary (fun _ => report) (report.sendId writtenLibrary) world = 1 ∧
      world.phases 1 = .finished (.replayed (sentResult "upload" "team" "m1" "f1")) :=
  ⟨artifact_delivered_at_most_once writtenLibrary (fun _ => report) deliveredThenAsked, by decide +kernel, by
    decide +kernel⟩

end OpenSquilla.Channels.Artifacts
