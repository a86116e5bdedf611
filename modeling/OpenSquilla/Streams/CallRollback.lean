import OpenSquilla.Streams.LiveSnapshot

set_option autoImplicit false

namespace OpenSquilla.Streams

open Runs SessionStream

/-- An event enters the entries at their end, or in the place of one of the same name. -/
inductive Entered (event : BufferedSessionEvent) (entries : List BufferedSessionEvent) :
    List BufferedSessionEvent → Prop
  | appended : Entered event entries (entries ++ [event])
  | exchanged (before : List BufferedSessionEvent) (existing replacement : BufferedSessionEvent)
      (after : List BufferedSessionEvent) (split : entries = before ++ existing :: after)
      (named : replacement.eventName = existing.eventName)
      (effect : isCompletedTurnEvent existing.eventName = false)
      (anchored : replacement.streamSeq = existing.streamSeq ∨ replacement.streamSeq = event.streamSeq) :
      Entered event entries (before ++ replacement :: after)

variable {event : BufferedSessionEvent}

theorem entered_of_replaceLast {entries updated : List BufferedSessionEvent}
    {stop found : BufferedSessionEvent → Bool} {replace : BufferedSessionEvent → BufferedSessionEvent}
    (replaced : replaceLast stop found replace entries = some updated)
    (named : ∀ existing, found existing = true → (replace existing).eventName = existing.eventName)
    (effect : ∀ existing, found existing = true → isCompletedTurnEvent existing.eventName = false)
    (anchored : ∀ existing, (replace existing).streamSeq = existing.streamSeq ∨
      (replace existing).streamSeq = event.streamSeq) : Entered event entries updated := by
  obtain ⟨before, existing, after, split, here, -, rfl⟩ := replaceLast_some replaced
  exact .exchanged before existing _ after split (named existing here) (effect existing here) (anchored existing)

theorem compactInto_entered (event : BufferedSessionEvent) (entries : List BufferedSessionEvent) :
    Entered event entries ((compactInto entries event).getD (entries ++ [event])) := by
  cases folded : compactInto entries event with
  | none => exact .appended
  | some updated =>
    rw [Option.getD_some]
    unfold compactInto at folded
    dsimp only at folded
    -- every merge is into an entry of the name of the event, which names no completed effect
    have merged : ∀ {existing : BufferedSessionEvent} {name : String}, event.eventName = name →
        isCompletedTurnEvent name = false → existing.eventName = event.eventName →
        isCompletedTurnEvent existing.eventName = false := by
      intro existing name ofEvent effect same
      rw [same, ofEvent, effect]
    split at folded
    next named =>
      refine entered_of_replaceLast folded (fun _ _ => rfl) ?_ (fun _ => .inl rfl)
      intro existing found
      simp only [mergesThinking, Bool.and_eq_true, decide_eq_true_eq] at found
      exact merged named (by decide) found.1.1.1
    split at folded
    next named =>
      refine entered_of_replaceLast folded (fun _ _ => rfl) ?_ (fun _ => .inl rfl)
      intro existing found
      simp only [mergesToolDelta, Bool.and_eq_true, decide_eq_true_eq] at found
      exact merged named (by decide) found.1.1
    split at folded
    next named =>
      split at folded
      next last isLast =>
        split at folded
        next found =>
          obtain rfl := Option.some.inj folded
          simp only [mergesText, Bool.and_eq_true, decide_eq_true_eq] at found
          have split : entries = entries.dropLast ++ [last] :=
            (List.dropLast_append_getLast? last isLast).symm
          exact .exchanged _ last _ [] split rfl (merged named (by decide) found.1.1.1) (.inl rfl)
        next => cases folded
      next => cases folded
    split at folded
    next named =>
      refine entered_of_replaceLast folded ?_ ?_ (fun _ => .inr rfl)
      · intro existing found
        simp only [Bool.and_eq_true, decide_eq_true_eq] at found
        exact found.1.symm
      · intro existing found
        simp only [Bool.and_eq_true, decide_eq_true_eq] at found
        exact merged named (by decide) found.1
    split at folded
    next named =>
      refine entered_of_replaceLast folded ?_ ?_ (fun _ => .inr rfl)
      · intro existing found
        exact (of_decide_eq_true found).symm
      · intro existing found
        exact merged named (by decide) (of_decide_eq_true found)
    split at folded
    next named =>
      simp only [Bool.and_eq_true, decide_eq_true_eq] at named
      refine entered_of_replaceLast folded (fun _ _ => rfl) ?_ (fun _ => .inl rfl)
      intro existing found
      simp only [refreshesActivity, Bool.and_eq_true, decide_eq_true_eq] at found
      exact merged named.1 (by decide) found.1.1
    next => cases folded

section Entering

variable {event : BufferedSessionEvent} {entries updated : List BufferedSessionEvent} {bound : Nat}

theorem Entered.mem (entered : Entered event entries updated) {item : BufferedSessionEvent}
    (mem : item ∈ updated) : item.streamSeq = event.streamSeq ∨
      ∃ old ∈ entries, item.streamSeq = old.streamSeq ∧
        (isCompletedTurnEvent item.eventName = true → item = old) := by
  cases entered with
  | appended =>
    rcases List.mem_append.mp mem with earlier | new
    · exact .inr ⟨item, earlier, rfl, fun _ => rfl⟩
    · exact .inl (congrArg BufferedSessionEvent.streamSeq (List.mem_singleton.mp new))
  | exchanged before existing replacement after split named effect anchored =>
    subst split
    rcases List.mem_append.mp mem with earlier | rest
    · exact .inr ⟨item, List.mem_append_left _ earlier, rfl, fun _ => rfl⟩
    rcases List.mem_cons.mp rest with rfl | later
    · obtain kept | new := anchored
      · refine .inr ⟨existing, List.mem_append_right _ List.mem_cons_self, kept, ?_⟩
        intro completed
        rw [named, effect] at completed
        cases completed
      · exact .inl new
    · exact .inr ⟨item, List.mem_append_right _ (List.mem_cons_of_mem _ later), rfl, fun _ => rfl⟩

theorem Entered.distinct (entered : Entered event entries updated)
    (distinct : (entries.map BufferedSessionEvent.streamSeq).Nodup)
    (taken : ∀ entry ∈ entries, entry.streamSeq < event.streamSeq) :
    (updated.map BufferedSessionEvent.streamSeq).Nodup := by
  have fresh : ∀ entry ∈ entries, entry.streamSeq ≠ event.streamSeq :=
    fun entry mem => (taken entry mem).ne
  cases entered with
  | appended =>
    rw [List.map_append, List.map_singleton, ← List.concat_eq_append]
    refine List.Nodup.concat ?_ distinct
    intro inside
    obtain ⟨entry, mem, same⟩ := List.mem_map.mp inside
    exact fresh entry mem same
  | exchanged before existing replacement after split named effect anchored =>
    obtain kept | new := anchored
    · have same : (before ++ replacement :: after).map BufferedSessionEvent.streamSeq =
          entries.map BufferedSessionEvent.streamSeq := by
        simp [split, kept]
      rwa [same]
    · rw [split, List.map_append, List.map_cons, List.nodup_middle, List.nodup_cons] at distinct
      rw [List.map_append, List.map_cons, List.nodup_middle, List.nodup_cons, new]
      refine ⟨?_, distinct.2⟩
      rw [← List.map_append]
      intro inside
      obtain ⟨entry, mem, same⟩ := List.mem_map.mp inside
      refine fresh entry ?_ same
      rw [split]
      rcases List.mem_append.mp mem with earlier | later
      · exact List.mem_append_left _ earlier
      · exact List.mem_append_right _ (List.mem_cons_of_mem _ later)

end Entering

namespace SessionStream

structure TurnView where
  events : Option (List BufferedSessionEvent)
  task : Option (Option String)
  epoch : Option Int
  attempt : Option (String × List BufferedSessionEvent)

def turnView (s : SessionStream) : TurnView :=
  ⟨s.liveEvents, s.liveTask, s.liveGenerationEpoch, s.liveAttemptPrefix⟩

theorem turnView_advanceSessionEpoch (s : SessionStream) (epoch : Int) :
    (s.advanceSessionEpoch epoch).turnView = s.turnView := by
  unfold advanceSessionEpoch
  split <;> rfl

theorem turnView_admitRecord (s : SessionStream) (enriched : Payload) :
    (s.admitRecord enriched).turnView = s.turnView := by
  unfold admitRecord
  cases (enriched.get "epoch").natural? with
  | none => rfl
  | some epoch => exact turnView_advanceSessionEpoch _ epoch

theorem turnView_noteUnpersisted (s : SessionStream) (event : BufferedSessionEvent) :
    (s.noteUnpersisted event).turnView = s.turnView := by
  unfold noteUnpersisted
  dsimp only
  repeat' split
  all_goals rfl

theorem turnView_refreshReplayBudget (s : SessionStream) (evicts : Bool) :
    (s.refreshReplayBudget evicts).turnView = s.turnView := by
  unfold refreshReplayBudget
  repeat' split
  all_goals rfl

theorem turnView_recordManualCompaction (s : SessionStream) (event : BufferedSessionEvent) :
    (s.recordManualCompaction event).turnView = s.turnView := by
  unfold recordManualCompaction
  dsimp only
  repeat' split
  all_goals rfl

-- The ways a recorded event reaches the view of the live turn.
inductive Arrives (event : BufferedSessionEvent) (s : SessionStream) : TurnView → Prop
  | aside : Arrives event s s.turnView
  | closes : Arrives event s s.clearLiveState.turnView
  | resets (isReset : isGenerationReset event.eventName = true) :
      Arrives event s ((s.enterTask event.payload.taskId).recordGenerationReset event).turnView
  | enters (notReset : isGenerationReset event.eventName = false) :
      Arrives event s ((s.enterTask event.payload.taskId).appendLive event).turnView

theorem recordLiveEvent_arrives (s : SessionStream) (event : BufferedSessionEvent) :
    Arrives event s (s.recordLiveEvent event).turnView := by
  unfold recordLiveEvent
  dsimp only
  split
  next =>
    rw [turnView_recordManualCompaction]
    exact .aside
  split
  next =>
    split
    · exact .closes
    · exact .aside
  split
  next =>
    have cleared : (s.enterTask event.payload.taskId).clearLiveState.turnView = s.clearLiveState.turnView := rfl
    rw [cleared]
    exact .closes
  split
  next isReset => exact .resets isReset
  next notReset => exact .enters (Bool.eq_false_iff.mpr notReset)

theorem seq_enterTask (s : SessionStream) (task : Option String) : (s.enterTask task).seq = s.seq := by
  unfold enterTask clearLiveState
  dsimp only
  repeat' split
  all_goals rfl

theorem seq_recordGenerationReset (s : SessionStream) (event : BufferedSessionEvent) :
    (s.recordGenerationReset event).seq = s.seq := by
  unfold recordGenerationReset recordCallReset
  dsimp only
  repeat' split
  all_goals rfl

theorem seq_recordLiveEvent (s : SessionStream) (event : BufferedSessionEvent) :
    (s.recordLiveEvent event).seq = s.seq := by
  unfold recordLiveEvent
  dsimp only
  split
  next => exact (recordManualCompaction_same s event).2.2.2
  split
  next => split <;> rfl
  split
  next => exact seq_enterTask s _
  split
  next => exact (seq_recordGenerationReset _ event).trans (seq_enterTask s _)
  next => exact (appendLive_view _ event).1.trans (seq_enterTask s _)

theorem publish_arrives (s : SessionStream) (event : BufferedSessionEvent) (evicts : Bool) :
    (s.publish event evicts).seq = s.seq ∧ ∃ entered : SessionStream, entered.turnView = s.turnView ∧
      (s.publish event evicts).turnView = (entered.recordLiveEvent event).turnView := by
  unfold publish
  refine ⟨?_, s.bufferEvent event, rfl, ?_⟩
  · rw [(refreshReplayBudget_same _ evicts).2, (noteUnpersisted_same _ event).2, seq_recordLiveEvent]
    rfl
  · rw [turnView_refreshReplayBudget, turnView_noteUnpersisted]

theorem step_arrives (s : SessionStream) (op : StreamOp) :
    ((s.step op).turnView = s.turnView ∧ s.seq ≤ (s.step op).seq) ∨
      (s.step op).turnView = s.clearLiveState.turnView ∨
      ∃ eventName payload emittedAt evicts event, op = .record eventName payload emittedAt evicts ∧
        event = s.recordEvent eventName payload emittedAt ∧ (s.step op).seq = s.seq + 1 ∧
        ∃ entered : SessionStream, entered.turnView = s.turnView ∧
          Arrives event entered (s.step op).turnView := by
  cases op with
  | record eventName payload emittedAt evicts =>
    simp only [step, record]
    generalize made : s.recordEvent eventName payload emittedAt = event
    have admitted := turnView_admitRecord s event.payload
    have next := admitRecord_seq s event.payload
    generalize s.admitRecord event.payload = taken at admitted next ⊢
    split
    · exact .inl ⟨admitted, next ▸ Nat.le_succ _⟩
    split
    · exact .inl ⟨admitted, next ▸ Nat.le_succ _⟩
    · obtain ⟨sameSeq, entered, sameView, reached⟩ := publish_arrives taken event evicts
      refine .inr (.inr ⟨eventName, payload, emittedAt, evicts, event, rfl, made.symm, sameSeq.trans next,
          entered,
        sameView.trans admitted, ?_⟩)
      rw [reached]
      exact recordLiveEvent_arrives entered event
  | markTerminalPersisted taskId reconstructible evicts =>
    refine .inl ?_
    simp only [step, markTerminalPersisted]
    split
    · exact ⟨rfl, le_rfl⟩
    · refine ⟨turnView_refreshReplayBudget _ evicts, ?_⟩
      rw [(refreshReplayBudget_same _ evicts).2]
  | budgetDropped =>
    refine .inl ?_
    simp only [step, budgetDropped]
    split <;> exact ⟨rfl, le_rfl⟩
  | advanceSessionEpoch epoch =>
    refine .inl ⟨turnView_advanceSessionEpoch s epoch, ?_⟩
    simp only [step, advanceSessionEpoch]
    split <;> exact le_rfl
  | promoteLegacyCursor sinceStreamSeq =>
    refine .inl ?_
    simp only [step, promoteLegacyCursor]
    split
    next => exact ⟨rfl, le_rfl⟩
    next since =>
      split
      next => exact ⟨rfl, le_rfl⟩
      next ahead =>
        refine ⟨rfl, ?_⟩
        dsimp only
        omega
  | takeTerminalActivitySnapshot taskId durable =>
    simp only [step, takeTerminalActivitySnapshot]
    split
    · exact .inr (.inl rfl)
    · exact .inl ⟨rfl, le_rfl⟩
  | evict => exact .inr (.inl rfl)

/-- What a roll-back can rely on: no two entries of the live view share a sequence number, and a completed effect that
the checkpoint has is still the one in the view. -/
structure Anchored (seq : Nat) (view : TurnView) : Prop where
  distinct : ((view.events.getD []).map BufferedSessionEvent.streamSeq).Nodup
  taken : ∀ entry ∈ view.events.getD [], entry.streamSeq ≤ seq
  prior : ∀ call before, view.attempt = some (call, before) →
    (before.map BufferedSessionEvent.streamSeq).Nodup ∧ (∀ entry ∈ before, entry.streamSeq ≤ seq) ∧
      ∀ item ∈ view.events.getD [], isCompletedTurnEvent item.eventName = true →
        item.streamSeq ∈ before.map BufferedSessionEvent.streamSeq → item ∈ before

theorem anchored_closed (seq : Nat) {view : TurnView} (noEvents : view.events = none)
    (noAttempt : view.attempt = none) : Anchored seq view := by
  constructor
  · simp [noEvents]
  · simp [noEvents]
  · intro call before checkpoint
    rw [noAttempt] at checkpoint
    cases checkpoint

theorem Anchored.later {seq next : Nat} {view : TurnView} (anchored : Anchored seq view) (order : seq ≤ next) :
    Anchored next view where
  distinct := anchored.distinct
  taken entry mem := (anchored.taken entry mem).trans order
  prior call before checkpoint := by
    obtain ⟨distinct, taken, settled⟩ := anchored.prior call before checkpoint
    exact ⟨distinct, fun entry mem => (taken entry mem).trans order, settled⟩

variable {s : SessionStream}

theorem Anchored.enterTask {seq : Nat} (anchored : Anchored seq s.turnView) (task : Option String) :
    Anchored seq (s.enterTask task).turnView := by
  cases task with
  | none => exact ⟨anchored.distinct, anchored.taken, anchored.prior⟩
  | some task =>
    unfold SessionStream.enterTask
    dsimp only
    split
    · exact ⟨anchored.distinct, anchored.taken, anchored.prior⟩
    · exact anchored_closed seq rfl rfl

theorem anchored_reset {seq : Nat} {kept : List BufferedSessionEvent}
    {view : TurnView} (distinct : (kept.map BufferedSessionEvent.streamSeq).Nodup)
    (taken : ∀ entry ∈ kept, entry.streamSeq ≤ seq) (next : seq < event.streamSeq)
    (events : view.events = some (bySeq kept ++ [event])) (noAttempt : view.attempt = none) :
    Anchored event.streamSeq view := by
  have sorted : (bySeq kept).Perm kept := List.mergeSort_perm _ _
  constructor
  · rw [events, Option.getD_some, List.map_append, List.map_singleton, ← List.concat_eq_append]
    refine List.Nodup.concat ?_ ((sorted.map _).nodup_iff.mpr distinct)
    intro inside
    obtain ⟨entry, mem, same⟩ := List.mem_map.mp inside
    have below := taken entry (sorted.subset mem)
    omega
  · rw [events, Option.getD_some]
    intro entry mem
    rcases List.mem_append.mp mem with earlier | new
    · exact (taken entry (sorted.subset earlier)).trans next.le
    · rw [List.mem_singleton.mp new]
  · intro call before checkpoint
    rw [noAttempt] at checkpoint
    cases checkpoint

theorem mem_bySeq {item : BufferedSessionEvent} {events : List BufferedSessionEvent} :
    item ∈ bySeq events ↔ item ∈ events :=
  (List.mergeSort_perm _ _).mem_iff

-- The view that a failed call goes back to, if it has one.
def checkpointOf? (s : SessionStream) (failed : String) : Option (String × List BufferedSessionEvent) :=
  s.liveAttemptPrefix.filter (fun checkpoint => checkpoint.1 = failed)

theorem checkpointOf?_eq_some {failed : String}
    {checkpoint : String × List BufferedSessionEvent} (found : s.checkpointOf? failed = some checkpoint) :
    s.liveAttemptPrefix = some (failed, checkpoint.2) := by
  obtain ⟨present, same⟩ := Option.filter_eq_some_iff.mp found
  obtain ⟨call, before⟩ := checkpoint
  obtain rfl : call = failed := of_decide_eq_true same
  exact present

theorem checkpointOf?_of_attempt {failed : String} {before : List BufferedSessionEvent}
    (attempt : s.liveAttemptPrefix = some (failed, before)) :
    s.checkpointOf? failed = some (failed, before) := by
  rw [checkpointOf?, attempt]
  exact Option.filter_eq_some_iff.mpr ⟨rfl, decide_eq_true rfl⟩

def attemptView (s : SessionStream) (failed : String) : List BufferedSessionEvent :=
  (s.checkpointOf? failed).elim s.liveList Prod.snd

def settledSince (s : SessionStream) (before : List BufferedSessionEvent) : List BufferedSessionEvent :=
  s.liveList.filter (fun item =>
    item.streamSeq ∉ before.map BufferedSessionEvent.streamSeq && isCompletedTurnEvent item.eventName)

def rolledBack (s : SessionStream) (failed : String) : List BufferedSessionEvent :=
  (match s.checkpointOf? failed with
    | some checkpoint => checkpoint.2 ++ s.settledSince checkpoint.2
    | none => s.liveList.filter (fun item => item.payload.modelCallId ≠ failed)).filter
      (fun item => item.eventName ≠ toolInputPreview)

section Rollback

variable {s : SessionStream} {seq : Nat} {failed : String} {item event : BufferedSessionEvent}

theorem rolledBack_anchored (anchored : Anchored seq s.turnView) (failed : String) :
    ((s.rolledBack failed).map BufferedSessionEvent.streamSeq).Nodup ∧
      ∀ entry ∈ s.rolledBack failed, entry.streamSeq ≤ seq := by
  unfold rolledBack
  cases found : s.checkpointOf? failed with
  | none =>
    refine ⟨(anchored.distinct.sublist ?_), ?_⟩
    · exact (List.filter_sublist.trans List.filter_sublist).map _
    · intro entry mem
      exact anchored.taken entry (List.mem_of_mem_filter (List.mem_of_mem_filter mem))
  | some checkpoint =>
    obtain ⟨distinct, taken, settled⟩ := anchored.prior _ _ (checkpointOf?_eq_some found)
    dsimp only
    constructor
    · refine List.Nodup.sublist (List.filter_sublist.map _) ?_
      rw [List.map_append, List.nodup_append]
      refine ⟨distinct, anchored.distinct.sublist (List.filter_sublist.map _), ?_⟩
      intro first before second since same
      obtain ⟨entry, mem, rfl⟩ := List.mem_map.mp since
      have apart := (List.mem_filter.mp mem).2
      rw [Bool.and_eq_true, decide_eq_true_eq] at apart
      exact apart.1 (same ▸ before)
    · intro entry mem
      rcases List.mem_append.mp (List.mem_of_mem_filter mem) with before | since
      · exact taken entry before
      · exact anchored.taken entry (List.mem_of_mem_filter since)

theorem recordCallReset_turnView (s : SessionStream) (event : BufferedSessionEvent) :
    (s.recordCallReset event).turnView = s.turnView ∨
      ∃ epoch, (∀ current ∈ s.liveGenerationEpoch, current < epoch) ∧ (s.recordCallReset event).turnView =
        ⟨some (bySeq (s.rolledBack (failedCallId event)) ++ [event]), s.liveTask, some epoch, none⟩ := by
  unfold recordCallReset
  dsimp only
  split
  next => exact .inl rfl
  next epoch named =>
    split
    next => exact .inl rfl
    next admitted =>
      split
      next => exact .inl rfl
      next =>
        refine .inr ⟨epoch, ?_, rfl⟩
        intro current known
        rw [Option.mem_def.mp known, Option.any_some, Bool.or_eq_true, decide_eq_true_eq, not_or] at admitted
        exact not_le.mp admitted.1

theorem answerResetPreserved_eq (existing : List BufferedSessionEvent) (event : BufferedSessionEvent) :
    ∃ kept, kept.Sublist existing ∧ answerResetPreserved existing event = bySeq kept :=
  ⟨_, List.filter_sublist.trans List.filter_sublist, rfl⟩

theorem Anchored.recordGenerationReset (anchored : Anchored seq s.turnView) (next : seq < event.streamSeq) :
    Anchored event.streamSeq (s.recordGenerationReset event).turnView := by
  unfold SessionStream.recordGenerationReset
  split
  next =>
    obtain same | ⟨epoch, -, same⟩ := recordCallReset_turnView s event
    · rw [same]
      exact anchored.later next.le
    · obtain ⟨distinct, taken⟩ := rolledBack_anchored anchored (failedCallId event)
      rw [same]
      exact anchored_reset distinct taken next rfl rfl
  next =>
    obtain ⟨kept, part, same⟩ := answerResetPreserved_eq s.liveList event
    refine anchored_reset (anchored.distinct.sublist (part.map _)) ?_ next
        (congrArg (some <| · ++ [event]) same) rfl
    intro entry mem
    exact anchored.taken entry (part.subset mem)

theorem turnView_appendLive (s : SessionStream) (event : BufferedSessionEvent) :
    let epoch := advancedEpoch s.liveGenerationEpoch event.payload.generationEpoch
    (s.appendLive event).turnView =
      if eventIsStaleGeneration event epoch then { s.turnView with epoch := epoch }
      else ⟨some ((compactInto s.liveList event).getD (s.liveList ++ [event])), s.liveTask, epoch,
        (s.checkpointAttempt event).liveAttemptPrefix⟩ := by
  unfold appendLive
  dsimp only
  split
  · rfl
  · unfold checkpointAttempt
    dsimp only [liveList, Option.getD_some]
    split <;> rfl

/-- The call begins: an event of its text or reasoning arrives while the checkpoint is not of this call. -/
def Begins (s : SessionStream) (call : String) (event : BufferedSessionEvent) : Prop :=
  call ≠ "" ∧ event.payload.modelCallId = call ∧
    event.eventName ∈ [textDelta, thinking, thinkingStart, thinkingEnd] ∧ s.checkpointOf? call = none

theorem attempt_checkpointAttempt (s : SessionStream) (event : BufferedSessionEvent) :
    (s.checkpointAttempt event).liveAttemptPrefix = s.liveAttemptPrefix ∨
      s.Begins event.payload.modelCallId event ∧
        (s.checkpointAttempt event).liveAttemptPrefix = some (event.payload.modelCallId, s.liveList) := by
  unfold checkpointAttempt
  dsimp only
  split
  next begins =>
    simp only [Bool.and_eq_true, Bool.not_eq_true', decide_eq_true_eq] at begins
    obtain ⟨⟨named, kind⟩, other⟩ := begins
    refine .inr ⟨⟨named, rfl, kind, ?_⟩, rfl⟩
    unfold checkpointOf?
    cases attempt : s.liveAttemptPrefix with
    | none => rfl
    | some checkpoint =>
      rw [attempt] at other
      exact if_neg (Bool.eq_false_iff.mp other)
  next => exact .inl rfl

theorem Anchored.appendLive (anchored : Anchored seq s.turnView) (next : seq < event.streamSeq) :
    Anchored event.streamSeq (s.appendLive event).turnView := by
  have before : Anchored event.streamSeq s.turnView := anchored.later next.le
  rw [turnView_appendLive]
  dsimp only
  split
  · exact ⟨before.distinct, before.taken, before.prior⟩
  · have entered := compactInto_entered event s.liveList
    have below : ∀ entry ∈ s.liveList, entry.streamSeq < event.streamSeq :=
      fun entry mem => (anchored.taken entry mem).trans_lt next
    constructor
    · exact entered.distinct anchored.distinct below
    · intro entry mem
      obtain new | ⟨old, present, same, -⟩ := entered.mem mem
      · exact new.le
      · exact same ▸ (below old present).le
    · intro call prior checkpoint
      obtain kept | ⟨begins, taken⟩ := attempt_checkpointAttempt s event
      · rw [kept] at checkpoint
        obtain ⟨distinct, bounded, settled⟩ := anchored.prior call prior checkpoint
        refine ⟨distinct, fun entry mem => (bounded entry mem).trans next.le, ?_⟩
        intro item mem completed inside
        obtain new | ⟨old, present, same, whole⟩ := entered.mem mem
        · obtain ⟨entry, earlier, sameSeq⟩ := List.mem_map.mp inside
          have bound := bounded entry earlier
          omega
        · obtain rfl := whole completed
          exact settled item present completed inside
      · rw [taken] at checkpoint
        obtain ⟨rfl, rfl⟩ := Prod.mk.inj (Option.some.inj checkpoint)
        refine ⟨anchored.distinct, fun entry mem => (below entry mem).le, ?_⟩
        intro item mem completed inside
        obtain new | ⟨old, present, same, whole⟩ := entered.mem mem
        · obtain ⟨entry, earlier, sameSeq⟩ := List.mem_map.mp inside
          have bound := below entry earlier
          omega
        · obtain rfl := whole completed
          exact present

theorem step_anchored (s : SessionStream) (op : StreamOp) (anchored : Anchored s.seq s.turnView) :
    Anchored (s.step op).seq (s.step op).turnView := by
  obtain ⟨same, next⟩ | cleared | ⟨eventName, payload, emittedAt, evicts, event, -, made, next, entered,
      same, arrives⟩ :=
    step_arrives s op
  · rw [same]
    exact anchored.later next
  · rw [cleared]
    exact anchored_closed _ rfl rfl
  · rw [next]
    rw [← same] at anchored
    have newest : event.streamSeq = s.seq + 1 := congrArg BufferedSessionEvent.streamSeq made
    have sequenced : s.seq < event.streamSeq := newest ▸ Nat.lt_succ_self s.seq
    rw [← newest]
    generalize (s.step op).turnView = view at arrives ⊢
    cases arrives with
    | aside => exact anchored.later sequenced.le
    | closes => exact anchored_closed _ rfl rfl
    | resets => exact (anchored.enterTask _).recordGenerationReset sequenced
    | enters => exact (anchored.enterTask _).appendLive sequenced

end Rollback

/-- The call begins with this call of the registry, and its event finds the view `before`. -/
def BeginsAt (failed : String) (before : List BufferedSessionEvent) (s : SessionStream) (op : StreamOp) : Prop :=
  ∃ eventName payload emittedAt evicts, op = .record eventName payload emittedAt evicts ∧
    let event := s.recordEvent eventName payload emittedAt
    (s.enterTask event.payload.taskId).Begins failed event ∧ before = (s.enterTask event.payload.taskId).liveList

theorem turnView_enterTask {s t : SessionStream} (same : s.turnView = t.turnView) (task : Option String) :
    (s.enterTask task).turnView = (t.enterTask task).turnView := by
  obtain ⟨events, live, epoch, attempt⟩ := TurnView.mk.inj same
  cases task with
  | none => simp only [enterTask, turnView, events, live, epoch, attempt]
  | some task =>
    simp only [enterTask, live]
    split
    · simp only [turnView, events, epoch, attempt]
    · rfl

section Checkpoint

variable {s : SessionStream} {failed : String} {before : List BufferedSessionEvent}

theorem attempt_enterTask {task : Option String}
    (attempt : (s.enterTask task).liveAttemptPrefix = some (failed, before)) :
    s.liveAttemptPrefix = some (failed, before) := by
  cases task with
  | none => exact attempt
  | some task =>
    unfold enterTask at attempt
    dsimp only at attempt
    split at attempt
    · exact attempt
    · cases attempt

theorem attempt_recordGenerationReset
    (attempt : (s.recordGenerationReset event).liveAttemptPrefix = some (failed, before)) :
    s.liveAttemptPrefix = some (failed, before) := by
  unfold recordGenerationReset at attempt
  split at attempt
  · obtain same | ⟨epoch, -, same⟩ := recordCallReset_turnView s event
    · exact (congrArg TurnView.attempt same).symm.trans attempt
    · have cleared : (s.recordCallReset event).liveAttemptPrefix = none := congrArg TurnView.attempt same
      rw [cleared] at attempt
      cases attempt
  · cases attempt

theorem step_attempt {op : StreamOp} (attempt : (s.step op).liveAttemptPrefix = some (failed, before)) :
    s.liveAttemptPrefix = some (failed, before) ∨ BeginsAt failed before s op := by
  have reached : (s.step op).turnView.attempt = some (failed, before) := attempt
  obtain ⟨same, -⟩ | cleared | ⟨eventName, payload, emittedAt, evicts, event, recorded, made, -, entered,
      same, arrives⟩ :=
    step_arrives s op
  · rw [same] at reached
    exact .inl reached
  · rw [cleared] at reached
    cases reached
  · have earlier : entered.liveAttemptPrefix = some (failed, before) →
        s.liveAttemptPrefix = some (failed, before) :=
      fun there => (congrArg TurnView.attempt same).symm.trans there
    generalize (s.step op).turnView = view at arrives reached
    cases arrives with
    | aside => exact .inl (earlier reached)
    | closes => cases reached
    | resets => exact .inl (earlier (attempt_enterTask (attempt_recordGenerationReset reached)))
    | enters =>
      rw [turnView_appendLive] at reached
      dsimp only at reached
      split at reached
      · exact .inl (earlier (attempt_enterTask reached))
      · obtain kept | ⟨begins, taken⟩ := attempt_checkpointAttempt (entered.enterTask event.payload.taskId) event
        · exact .inl (earlier (attempt_enterTask (kept.symm.trans reached)))
        · obtain ⟨events, -, -, attempts⟩ := TurnView.mk.inj (turnView_enterTask same event.payload.taskId)
          obtain ⟨rfl, rfl⟩ := Prod.mk.inj (Option.some.inj (taken.symm.trans reached))
          have first : (s.enterTask event.payload.taskId).Begins event.payload.modelCallId event := by
            refine ⟨begins.1, rfl, begins.2.2.1, ?_⟩
            rw [checkpointOf?, ← attempts]
            exact begins.2.2.2
          have found : (entered.enterTask event.payload.taskId).liveList =
              (s.enterTask event.payload.taskId).liveList := by
            rw [liveList, liveList, events]
          subst made
          exact .inr ⟨eventName, payload, emittedAt, evicts, recorded, first, found⟩

theorem run_attempt {start : SessionStream} (fresh : start.liveAttemptPrefix = none) {ops : List StreamOp}
    (attempt : (run step start ops).liveAttemptPrefix = some (failed, before)) :
    ∃ earlier op later, ops = earlier ++ op :: later ∧ BeginsAt failed before (run step start earlier) op := by
  induction ops using List.reverseRecOn with
  | nil =>
    rw [run_nil, fresh] at attempt
    cases attempt
  | append_singleton ops op ih =>
    rw [run_append, run_cons, run_nil] at attempt
    obtain there | begins := step_attempt attempt
    · obtain ⟨earlier, first, later, split, begins⟩ := ih there
      exact ⟨earlier, first, later ++ [op], by simp [split], begins⟩
    · exact ⟨ops, op, [], rfl, begins⟩

end Checkpoint

section Accepted

variable {s : SessionStream} {event : BufferedSessionEvent} {task : Option String}

theorem of_validCallReset (valid : s.validCallReset event = true)
    (own : event.payload.taskId = none ∨ event.payload.taskId = task) (live : s.liveTask = some task) :
    failedCallId event ≠ "" ∧ ∃ old epoch, event.payload.get "old_generation_epoch" = .int old ∧ old < epoch ∧
      event.payload.resetNewGenerationEpoch = some epoch ∧ s.liveGenerationEpoch.all (· = old) = true := by
  unfold validCallReset at valid
  split at valid
  next old epoch raw isOld isNew named =>
    have isInt : event.payload.get "old_generation_epoch" = .int old := by
      obtain ⟨int, -⟩ := Option.filter_eq_some_iff.mp isOld
      revert int
      cases event.payload.get "old_generation_epoch" <;> simp [Value.int?]
    dsimp only at valid
    split at valid
    next => cases valid
    next proper =>
      rw [Bool.or_eq_true, decide_eq_true_eq, decide_eq_true_eq, not_or] at proper
      have ofTurn : ¬(event.payload.taskId.isSome && event.payload.taskId ≠ s.liveTask.join) = true := by
        rw [live, Option.join_some]
        obtain unnamed | same := own
        · simp [unnamed]
        · simp [same]
      rw [if_neg ofTurn] at valid
      split at valid
      next => cases valid
      next =>
        refine ⟨?_, old, epoch, isInt, not_le.mp proper.1, isNew, valid⟩
        rw [failedCallId, named]
        exact proper.2
  next => cases valid

theorem recordCallReset_of_valid (valid : s.validCallReset event = true)
    (own : event.payload.taskId = none ∨ event.payload.taskId = task) (live : s.liveTask = some task) :
    ∃ epoch, event.payload.resetNewGenerationEpoch = some epoch ∧ (s.recordCallReset event).turnView =
      ⟨some (bySeq (s.rolledBack (failedCallId event)) ++ [event]), some task, some epoch, none⟩ := by
  obtain ⟨named, old, epoch, isOld, later, isNew, current⟩ := of_validCallReset valid own live
  refine ⟨epoch, isNew, ?_⟩
  have admitted : s.liveGenerationEpoch.any (fun current =>
      decide (epoch ≤ current) || !(event.payload.get "old_generation_epoch").equals (.int current)) =
        false := by
    cases known : s.liveGenerationEpoch with
    | none => rfl
    | some current' =>
      rw [known] at current
      obtain rfl : current' = old := of_decide_eq_true current
      rw [Option.any_some, isOld]
      simp [Value.equals, later]
  unfold recordCallReset
  rw [isNew]
  dsimp only
  rw [admitted, if_neg Bool.false_ne_true, if_neg named, ← live]
  rfl

theorem validCallReset_congr {t : SessionStream} (same : t.turnView = s.turnView) :
    t.validCallReset event = s.validCallReset event := by
  obtain ⟨-, live, epoch, attempt⟩ := TurnView.mk.inj same
  simp only [validCallReset, live, epoch, attempt]

theorem rolledBack_congr {t : SessionStream} (same : t.turnView = s.turnView) (failed : String) :
    t.rolledBack failed = s.rolledBack failed := by
  obtain ⟨events, -, -, attempt⟩ := TurnView.mk.inj same
  simp only [rolledBack, checkpointOf?, settledSince, liveList, events, attempt]

theorem enterTask_live (live : s.liveTask = some task) {own : Option String} (ofTurn : own = none ∨ own = task) :
    (s.enterTask own).turnView = s.turnView := by
  cases own with
  | none => simp [enterTask, turnView, live]
  | some named =>
    obtain rfl : some named = task := ofTurn.resolve_left (Option.some_ne_none named)
    simp [enterTask, turnView, live]

theorem publish_callReset (isReset : event.eventName = answerGenerationReset) (ofCall : isCallReset event = true)
    (own : event.payload.taskId = none ∨ event.payload.taskId = task) (live : s.liveTask = some task)
    (valid : s.validCallReset event = true) (evicts : Bool) :
    ∃ epoch, event.payload.resetNewGenerationEpoch = some epoch ∧ (s.publish event evicts).turnView =
      ⟨some (bySeq (s.rolledBack (failedCallId event)) ++ [event]), some task, some epoch, none⟩ := by
  obtain ⟨-, entered, sameView, reached⟩ := publish_arrives s event evicts
  have liveEntered : entered.liveTask = some task := (congrArg TurnView.task sameView).trans live
  have stayed : (entered.enterTask event.payload.taskId).turnView = s.turnView :=
    (enterTask_live liveEntered own).trans sameView
  have turned : entered.recordLiveEvent event =
      (entered.enterTask event.payload.taskId).recordGenerationReset event := by
    have notManual : isManualCompaction event.eventName event.payload = false := by
      rw [isManualCompaction, isReset]
      rfl
    unfold recordLiveEvent
    rw [notManual, isReset]
    simp [answerGenerationReset, turnCommitted, done, error, isGenerationReset]
  have arrived :
      entered.recordLiveEvent event = (entered.enterTask event.payload.taskId).recordCallReset event :=
    turned.trans (if_pos ofCall)
  have validTurn : (entered.enterTask event.payload.taskId).validCallReset event = true := by
    rw [validCallReset_congr stayed, valid]
  obtain ⟨epoch, isNew, rolled⟩ :=
    recordCallReset_of_valid validTurn own ((congrArg TurnView.task stayed).trans live)
  refine ⟨epoch, isNew, ?_⟩
  rw [reached, arrived, rolled, rolledBack_congr stayed]

theorem record_callReset {payload : Option Payload} {emittedAt : Int} {evicts : Bool}
    (made : event = s.recordEvent answerGenerationReset payload emittedAt) (ofCall : isCallReset event = true)
    (own : event.payload.taskId = none ∨ event.payload.taskId = task) (live : s.liveTask = some task)
    (accepted : (s.record answerGenerationReset payload emittedAt evicts).1 ≠ none) :
    ∃ epoch, event.payload.resetNewGenerationEpoch = some epoch ∧
      (s.record answerGenerationReset payload emittedAt evicts).2.turnView =
        ⟨some (bySeq (s.rolledBack (failedCallId event)) ++ [event]), some task, some epoch, none⟩ := by
  have isName : event.eventName = answerGenerationReset := congrArg BufferedSessionEvent.eventName made
  have admitted : (s.admitRecord event.payload).turnView = s.turnView := turnView_admitRecord s event.payload
  have isReset : isGenerationReset answerGenerationReset = true := by decide
  unfold record at accepted ⊢
  dsimp only at accepted ⊢
  rw [← made] at accepted ⊢
  clear made
  generalize s.admitRecord event.payload = taken at admitted accepted ⊢
  have unfenced : taken.epochFenced answerGenerationReset event.payload = false := by
    rw [epochFenced, isManualCompaction]
    rfl
  rw [unfenced, if_neg Bool.false_ne_true, isReset, ofCall, Bool.true_and, Bool.true_and] at accepted ⊢
  split at accepted
  next => exact absurd rfl accepted
  next proceeds =>
    rw [if_neg proceeds]
    have valid : taken.validCallReset event = true := by simpa using proceeds
    have liveTaken : taken.liveTask = some task := (congrArg TurnView.task admitted).trans live
    rw [← rolledBack_congr admitted]
    exact publish_callReset isName ofCall own liveTaken valid evicts

end Accepted

theorem mem_maintenance {item : BufferedSessionEvent} : item ∈ s.manualCompactions.values.flatten ↔
      ∃ operationId progress, s.manualCompactions.get? operationId = some progress ∧ item ∈ progress := by
  constructor
  · intro mem
    obtain ⟨progress, kept, inside⟩ := List.mem_flatten.mp mem
    obtain ⟨entry, present, rfl⟩ := List.mem_map.mp kept
    exact ⟨entry.1, entry.2, (Dict.get?_eq_some_iff _ _ _).mpr present, inside⟩
  · rintro ⟨operationId, progress, found, inside⟩
    have present := (Dict.get?_eq_some_iff _ _ _).mp found
    exact List.mem_flatten.mpr ⟨progress, List.mem_map.mpr ⟨_, present, rfl⟩, inside⟩

theorem mem_liveSnapshot {item : BufferedSessionEvent} :
    item ∈ s.liveSnapshot ↔ item ∈ s.liveList ∨ item ∈ s.manualCompactions.values.flatten := by
  rw [liveSnapshot, mem_bySeq, List.mem_append]

theorem Sound.mem_liveList (sound : s.Sound) {item : BufferedSessionEvent}
    (mem : item ∈ s.liveSnapshot) (notCompaction : item.eventName ≠ compaction) : item ∈ s.liveList := by
  obtain live | kept := mem_liveSnapshot.mp mem
  · exact live
  · obtain ⟨operationId, progress, found, inside⟩ := mem_maintenance.mp kept
    exact absurd (sound.maintenance operationId progress found item inside) notCompaction

section Snapshot

variable {s after : SessionStream} {failed : String} {reset : BufferedSessionEvent}

def RolledBack (s : SessionStream) (failed : String) (reset : BufferedSessionEvent)
    (after : SessionStream) : Prop :=
  after.liveList = bySeq (s.rolledBack failed) ++ [reset]

theorem RolledBack.of_turnView {live : Option (Option String)} {current : Option Int}
    {attempt : Option (String × List BufferedSessionEvent)}
    (view : after.turnView = ⟨some (bySeq (s.rolledBack failed) ++ [reset]), live, current, attempt⟩) :
    RolledBack s failed reset after ∧ after.liveTask = live ∧ after.liveGenerationEpoch = current := by
  obtain ⟨events, task, epoch, -⟩ := TurnView.mk.inj view
  refine ⟨?_, task, epoch⟩
  rw [RolledBack, liveList, events, Option.getD_some]

theorem RolledBack.mem_liveList (rolled : RolledBack s failed reset after) {item : BufferedSessionEvent} :
    item ∈ after.liveList ↔ item ∈ s.rolledBack failed ∨ item = reset := by
  rw [rolled, List.mem_append, mem_bySeq, List.mem_singleton]

theorem lossy_of_rolledBack (clean : ∀ before, s.liveAttemptPrefix = some (failed, before) → ∀ item ∈ before,
      isGenerationLossy item.eventName = true → item.payload.modelCallId = failed →
        item.eventName = toolInputPreview)
    {item : BufferedSessionEvent} (mem : item ∈ s.rolledBack failed)
    (lossy : isGenerationLossy item.eventName = true) : item.payload.modelCallId ≠ failed := by
  obtain ⟨kept, notPreview⟩ := List.mem_filter.mp mem
  rw [decide_eq_true_eq] at notPreview
  intro same
  cases found : s.checkpointOf? failed with
  | none =>
    rw [found] at kept
    exact of_decide_eq_true (List.mem_filter.mp kept).2 same
  | some checkpoint =>
    rw [found] at kept
    rcases List.mem_append.mp kept with before | since
    · exact notPreview (clean _ (checkpointOf?_eq_some found) item before lossy same)
    · have completed := (List.mem_filter.mp since).2
      rw [Bool.and_eq_true] at completed
      simp only [isCompletedTurnEvent, isGenerationLossy, decide_eq_true_eq, List.mem_cons, List.not_mem_nil,
        or_false] at completed lossy
      obtain ⟨-, named | named | named⟩ := completed <;> rw [named] at lossy <;> revert lossy <;> decide

theorem mem_rolledBack_of_view {item : BufferedSessionEvent} (mem : item ∈ s.attemptView failed)
    (other : item.payload.modelCallId ≠ failed) (notPreview : item.eventName ≠ toolInputPreview) :
    item ∈ s.rolledBack failed := by
  refine List.mem_filter.mpr ⟨?_, decide_eq_true notPreview⟩
  unfold attemptView at mem
  cases found : s.checkpointOf? failed with
  | none =>
    rw [found] at mem
    exact List.mem_filter.mpr ⟨mem, decide_eq_true other⟩
  | some checkpoint =>
    rw [found] at mem
    exact List.mem_append_left _ mem

theorem mem_rolledBack_of_completed {seq : Nat} (anchored : Anchored seq s.turnView)
    {item : BufferedSessionEvent}
    (mem : item ∈ s.liveList) (completed : isCompletedTurnEvent item.eventName = true)
    (kept : item.payload.modelCallId ≠ failed ∨ ∃ before, s.liveAttemptPrefix = some (failed, before)) :
    item ∈ s.rolledBack failed := by
  have notPreview : item.eventName ≠ toolInputPreview := by
    intro preview
    rw [preview] at completed
    revert completed
    decide
  refine List.mem_filter.mpr ⟨?_, decide_eq_true notPreview⟩
  cases found : s.checkpointOf? failed with
  | none =>
    obtain other | ⟨before, attempt⟩ := kept
    · exact List.mem_filter.mpr ⟨mem, decide_eq_true other⟩
    · rw [checkpointOf?_of_attempt attempt] at found
      cases found
  | some checkpoint =>
    obtain ⟨-, -, settled⟩ := anchored.prior _ _ (checkpointOf?_eq_some found)
    by_cases inside : item.streamSeq ∈ checkpoint.2.map BufferedSessionEvent.streamSeq
    · exact List.mem_append_left _ (settled item mem completed inside)
    · refine List.mem_append_right _ (List.mem_filter.mpr ⟨mem, ?_⟩)
      rw [Bool.and_eq_true, decide_eq_true_eq]
      exact ⟨inside, completed⟩

theorem RolledBack.lossy (rolled : RolledBack s failed reset after) (afterSound : after.Sound)
    (isReset : reset.eventName = answerGenerationReset)
    (clean : ∀ before, s.liveAttemptPrefix = some (failed, before) → ∀ item ∈ before,
      isGenerationLossy item.eventName = true → item.payload.modelCallId = failed →
        item.eventName = toolInputPreview)
    {item : BufferedSessionEvent} (mem : item ∈ after.liveSnapshot)
    (lossy : isGenerationLossy item.eventName = true) : item.payload.modelCallId ≠ failed := by
  have notCompaction : item.eventName ≠ compaction := by
    intro isCompaction
    rw [isCompaction] at lossy
    exact absurd lossy (by decide)
  obtain kept | same := rolled.mem_liveList.mp (afterSound.mem_liveList mem notCompaction)
  · exact lossy_of_rolledBack clean kept lossy
  · rw [same, isReset] at lossy
    exact absurd lossy (by decide)

theorem RolledBack.view (rolled : RolledBack s failed reset after) {item : BufferedSessionEvent}
    (mem : item ∈ s.attemptView failed) (other : item.payload.modelCallId ≠ failed)
    (notPreview : item.eventName ≠ toolInputPreview) : item ∈ after.liveSnapshot := by
  have kept := mem_rolledBack_of_view mem other notPreview
  exact mem_liveSnapshot.mpr (.inl (rolled.mem_liveList.mpr (.inl kept)))

theorem RolledBack.completed (rolled : RolledBack s failed reset after) (sound : s.Sound) {seq : Nat}
    (anchored : Anchored seq s.turnView) {item : BufferedSessionEvent} (mem : item ∈ s.liveSnapshot)
    (completed : isCompletedTurnEvent item.eventName = true)
    (kept : item.payload.modelCallId ≠ failed ∨ ∃ before, s.liveAttemptPrefix = some (failed, before)) :
    item ∈ after.liveSnapshot := by
  have notCompaction : item.eventName ≠ compaction := by
    intro isCompaction
    rw [isCompaction] at completed
    exact absurd completed (by decide)
  have settled := mem_rolledBack_of_completed anchored (sound.mem_liveList mem notCompaction) completed kept
  exact mem_liveSnapshot.mpr (.inl (rolled.mem_liveList.mpr (.inl settled)))

end Snapshot

def ResetsAnswer : StreamOp → Prop
  | .record eventName payload _ _ =>
    eventName = answerGenerationReset ∧ (payload.getD .empty).get "reset_scope" ≠ .str "provider_call"
  | _ => False

-- The turn goes on: it is not cleared, and its answer is not reset as a whole.
def GoesOn (task : Option String) (s : SessionStream) (op : StreamOp) : Prop :=
  (s.step op).liveTask = some task ∧ ¬ResetsAnswer op

section Later

variable {s : SessionStream} {task : Option String} {epoch : Int}

theorem get_enrich (s : SessionStream) (payload : Option Payload) (emittedAt : Int) {field : String}
    (other : field ∉ ["session_key", "stream_generation", "stream_seq", "emitted_at"]) :
    (s.enrich payload emittedAt).get? field = (payload.getD .empty).get? field := by
  simp only [List.mem_cons, List.not_mem_nil, or_false, not_or] at other
  obtain ⟨notKey, notGeneration, notSeq, notEmitted⟩ := other
  simp [enrich, notKey, notGeneration, notSeq, notEmitted]

theorem task_of_enterTask {t : SessionStream} {own : Option String} (live : t.liveTask = some task)
    (stays : (t.enterTask own).liveTask = some task) : (t.enterTask own).turnView = t.turnView := by
  refine enterTask_live live ?_
  cases own with
  | none => exact .inl rfl
  | some named => exact .inr (Option.some.inj stays)

theorem liveTask_recordGenerationReset (t : SessionStream) (event : BufferedSessionEvent) :
    (t.recordGenerationReset event).liveTask = t.liveTask := (recordGenerationReset_keeps t event).1

theorem step_epoch {op : StreamOp} (live : s.liveTask = some task)
    (reached : ∃ current, s.liveGenerationEpoch = some current ∧ epoch ≤ current) (goesOn : GoesOn task s op) :
    ∃ current, (s.step op).liveGenerationEpoch = some current ∧ epoch ≤ current := by
  obtain ⟨current, known, bound⟩ := reached
  obtain ⟨stays, scopedReset⟩ := goesOn
  have viewTask : (s.step op).turnView.task = some task := stays
  suffices ∃ current, (s.step op).turnView.epoch = some current ∧ epoch ≤ current from this
  obtain ⟨same, -⟩ | cleared | ⟨eventName, payload, emittedAt, evicts, event, recorded, made, -, entered,
      same, arrives⟩ :=
    step_arrives s op
  · rw [same]
    exact ⟨current, known, bound⟩
  · rw [cleared] at viewTask
    cases viewTask
  · obtain ⟨-, sameTask, sameEpoch, -⟩ := TurnView.mk.inj same
    rw [← sameTask] at live
    rw [← sameEpoch] at known
    generalize (s.step op).turnView = view at arrives viewTask ⊢
    cases arrives with
    | aside => exact ⟨current, known, bound⟩
    | closes => cases viewTask
    | resets isReset =>
      have stayed := task_of_enterTask live ((liveTask_recordGenerationReset _ event).symm.trans viewTask)
      have isCall : isCallReset event = true := by
        by_contra notCall
        rw [recorded] at scopedReset
        refine scopedReset ⟨?_, ?_⟩
        · rw [made] at isReset
          exact of_decide_eq_true isReset
        · intro ofCall
          refine notCall (decide_eq_true ?_)
          rw [made, recordEvent, Payload.get, get_enrich s payload emittedAt (by decide)]
          exact ofCall
      unfold recordGenerationReset
      rw [if_pos isCall]
      obtain untouched | ⟨next, later, rolled⟩ :=
        recordCallReset_turnView (entered.enterTask event.payload.taskId) event
      · rw [untouched, stayed]
        exact ⟨current, known, bound⟩
      · rw [rolled]
        exact ⟨next, rfl, bound.trans (later current ((congrArg TurnView.epoch stayed).trans known)).le⟩
    | enters =>
      have stayed := task_of_enterTask live ((appendLive_keeps _ event).1.symm.trans viewTask)
      have sameEpoch : (entered.enterTask event.payload.taskId).liveGenerationEpoch = some current :=
        (congrArg TurnView.epoch stayed).trans known
      obtain ⟨next, advanced, later⟩ := advancedEpoch_le event.payload.generationEpoch sameEpoch
      exact ⟨next, (appendLive_view _ event).2.1.trans advanced, bound.trans later⟩

end Later

section Stale

variable {s : SessionStream} {task : Option String} {epoch : Int} {eventName : String} {payload : Option Payload}
  {emittedAt : Int} {evicts : Bool}

theorem generationEpoch_enrich (s : SessionStream) (payload : Option Payload) (emittedAt : Int) :
    (s.enrich payload emittedAt).generationEpoch = (payload.getD .empty).generationEpoch := by
  rw [Payload.generationEpoch, Payload.generationEpoch, Payload.getAlias, Payload.getAlias, Payload.get,
      Payload.get,
    get_enrich s payload emittedAt (by decide), get_enrich s payload emittedAt (by decide)]

theorem stale_of_earlier {current incoming : Int}
    (lossy : isGenerationLossy event.eventName = true) (named : event.payload.generationEpoch = some incoming)
    (earlier : incoming < current) :
    eventIsStaleGeneration event (advancedEpoch (some current) event.payload.generationEpoch) = true := by
  simp [eventIsStaleGeneration, advancedEpoch, named, lossy, earlier]

theorem step_stale (live : s.liveTask = some task)
    (reached : ∃ current, s.liveGenerationEpoch = some current ∧ epoch ≤ current)
    (goesOn : GoesOn task s (.record eventName payload emittedAt evicts))
    (lossy : isGenerationLossy eventName = true) {incoming : Int}
    (named : (payload.getD .empty).generationEpoch = some incoming) (earlier : incoming < epoch) :
    (s.step (.record eventName payload emittedAt evicts)).liveList = s.liveList := by
  obtain ⟨current, known, bound⟩ := reached
  have viewTask : (s.step (.record eventName payload emittedAt evicts)).turnView.task = some task := goesOn.1
  suffices (s.step (.record eventName payload emittedAt evicts)).turnView.events = s.liveEvents ∨
      (s.step (.record eventName payload emittedAt evicts)).turnView.events = s.turnView.events by
    exact congrArg (Option.getD · []) (this.elim id id)
  obtain ⟨same, -⟩ | cleared | ⟨name, source, moment, admits, event, recorded, made, -, entered, same,
      arrives⟩ :=
    step_arrives s (.record eventName payload emittedAt evicts)
  · rw [same]
    exact .inl rfl
  · rw [cleared] at viewTask
    cases viewTask
  · cases recorded
    have incomingEpoch : event.payload.generationEpoch = some incoming := by
      rw [made, recordEvent, generationEpoch_enrich, named]
    have ofName : event.eventName = eventName := congrArg BufferedSessionEvent.eventName made
    clear made
    rw [← ofName] at lossy
    obtain ⟨sameEvents, sameTask, sameEpoch, -⟩ := TurnView.mk.inj same
    rw [← sameTask] at live
    rw [← sameEpoch] at known
    generalize (s.step (.record eventName payload emittedAt evicts)).turnView = view at arrives viewTask ⊢
    cases arrives with
    | aside => exact .inl sameEvents
    | closes => cases viewTask
    | resets isReset =>
      have isName : event.eventName = answerGenerationReset := of_decide_eq_true isReset
      rw [isName] at lossy
      exact absurd lossy (by decide)
    | enters =>
      have stayed := task_of_enterTask live ((appendLive_keeps _ event).1.symm.trans viewTask)
      have sameEpoch : (entered.enterTask event.payload.taskId).liveGenerationEpoch = some current :=
        (congrArg TurnView.epoch stayed).trans known
      have stale :
          eventIsStaleGeneration event (advancedEpoch (some current) event.payload.generationEpoch) = true :=
        stale_of_earlier lossy incomingEpoch (earlier.trans_le bound)
      rw [turnView_appendLive]
      dsimp only
      rw [sameEpoch, if_pos stale]
      exact .inl ((congrArg TurnView.events stayed).trans sameEvents)

theorem maintenance_recordLiveEvent (notManual : isManualCompaction event.eventName event.payload = false) :
    (s.recordLiveEvent event).manualCompactions = s.manualCompactions := by
  have entered : (s.enterTask event.payload.taskId).manualCompactions = s.manualCompactions := by
    unfold enterTask clearLiveState
    dsimp only
    repeat' split
    all_goals rfl
  unfold recordLiveEvent
  rw [notManual, if_neg Bool.false_ne_true]
  split
  next => split <;> rfl
  dsimp only
  split
  next => exact entered
  split
  next => exact (recordGenerationReset_keeps _ event).2.trans entered
  next => exact (appendLive_keeps _ event).2.trans entered

theorem maintenance_publish
    (notManual : isManualCompaction event.eventName event.payload = false) {operationId : String}
    {progress : List BufferedSessionEvent}
    (found : (s.publish event evicts).manualCompactions.get? operationId = some progress) :
    s.manualCompactions.get? operationId = some progress := by
  have refreshed :=
    (refreshReplayBudget_same (((s.bufferEvent event).recordLiveEvent event).noteUnpersisted event)
    evicts).1.maintenance operationId progress found
  have noted :=
    (noteUnpersisted_same ((s.bufferEvent event).recordLiveEvent event) event).1.maintenance operationId
    progress refreshed
  rwa [maintenance_recordLiveEvent notManual] at noted

theorem maintenance_record (notManual : eventName ≠ compaction) {operationId : String}
    {progress : List BufferedSessionEvent}
    (found : (s.step (.record eventName payload emittedAt evicts)).manualCompactions.get? operationId =
      some progress) :
    s.manualCompactions.get? operationId = some progress := by
  simp only [step, record] at found
  generalize made : s.recordEvent eventName payload emittedAt = event at found
  have other : isManualCompaction event.eventName event.payload = false := by
    rw [isManualCompaction, Bool.and_eq_false_iff, ← made]
    exact .inl (decide_eq_false notManual)
  clear made
  have admitted := (admitRecord_same s event.payload).maintenance operationId progress
  generalize s.admitRecord event.payload = taken at admitted found
  split at found
  next => exact admitted found
  split at found
  next => exact admitted found
  next => exact admitted (maintenance_publish other found)

theorem snapshot_stale (live : s.liveTask = some task)
    (reached : ∃ current, s.liveGenerationEpoch = some current ∧ epoch ≤ current)
    (goesOn : GoesOn task s (.record eventName payload emittedAt evicts))
    (lossy : isGenerationLossy eventName = true) {incoming : Int}
    (named : (payload.getD .empty).generationEpoch = some incoming) (earlier : incoming < epoch) :
    ∀ item ∈ (s.step (.record eventName payload emittedAt evicts)).liveSnapshot, item ∈ s.liveSnapshot := by
  have notManual : eventName ≠ compaction := by
    rintro rfl
    revert lossy
    decide
  intro item mem
  rw [mem_liveSnapshot] at mem ⊢
  obtain entry | kept := mem
  · rw [step_stale live reached goesOn lossy named earlier] at entry
    exact .inl entry
  · obtain ⟨operationId, progress, found, inside⟩ := mem_maintenance.mp kept
    exact .inr (mem_maintenance.mpr ⟨operationId, progress, maintenance_record notManual found, inside⟩)

end Stale

theorem run_goesOn {task : Option String} {epoch : Int} (live : s.liveTask = some task)
    (reached : ∃ current, s.liveGenerationEpoch = some current ∧ epoch ≤ current) {later : List StreamOp}
    (goesOn : Along step (GoesOn task) s later) : (run step s later).liveTask = some task ∧
      ∃ current, (run step s later).liveGenerationEpoch = some current ∧ epoch ≤ current := by
  have preserved : ∀ (s : SessionStream) (op : StreamOp),
      (s.liveTask = some task ∧ ∃ current, s.liveGenerationEpoch = some current ∧ epoch ≤ current) →
      GoesOn task s op → (s.step op).liveTask = some task ∧
        ∃ current, (s.step op).liveGenerationEpoch = some current ∧ epoch ≤ current := by
    intro s op holds goesOn
    exact ⟨goesOn.1, step_epoch holds.1 holds.2 goesOn⟩
  exact run_invariant_along _ preserved ⟨live, reached⟩ later goesOn

/-- An accepted reset of a call takes the view back to where the call began, and keeps every settled effect. -/
theorem call_reset_rolls_back (sessionKey streamGeneration : String) (maxEventsPerSession : Nat)
    (ops : List StreamOp) (payload : Option Payload) (emittedAt : Int) (evicts : Bool) (task : Option String)
    (failed : String) :
    let start := init sessionKey streamGeneration maxEventsPerSession
    let s := run step start ops
    let reset := s.recordEvent answerGenerationReset payload emittedAt
    let after := (s.record answerGenerationReset payload emittedAt evicts).2
    isCallReset reset = true → failedCallId reset = failed →
    (reset.payload.taskId = none ∨ reset.payload.taskId = task) → s.liveTask = some task →
    (s.record answerGenerationReset payload emittedAt evicts).1 ≠ none →
    (∀ before, s.liveAttemptPrefix = some (failed, before) →
      ∃ earlier op later, ops = earlier ++ op :: later ∧ BeginsAt failed before (run step start earlier) op) ∧
    ((∀ before, s.liveAttemptPrefix = some (failed, before) → ∀ item ∈ before,
        isGenerationLossy item.eventName = true → item.payload.modelCallId = failed →
          item.eventName = toolInputPreview) →
      ∀ item ∈ after.liveSnapshot, isGenerationLossy item.eventName = true → item.payload.modelCallId ≠ failed) ∧
    (∀ item ∈ s.attemptView failed, item.payload.modelCallId ≠ failed → item.eventName ≠ toolInputPreview →
      item ∈ after.liveSnapshot) ∧
    (∀ item ∈ s.liveSnapshot, isCompletedTurnEvent item.eventName = true →
      (item.payload.modelCallId ≠ failed ∨ ∃ before, s.liveAttemptPrefix = some (failed, before)) →
      item ∈ after.liveSnapshot) ∧
    ∃ epoch, reset.payload.resetNewGenerationEpoch = some epoch ∧
      ∀ later, Along step (GoesOn task) after later →
        ∀ eventName payload emittedAt evicts incoming,
          GoesOn task (run step after later) (.record eventName payload emittedAt evicts) →
          isGenerationLossy eventName = true → (payload.getD .empty).generationEpoch = some incoming →
          incoming < epoch →
          ∀ item ∈ ((run step after later).step (.record eventName payload emittedAt evicts)).liveSnapshot,
            item ∈ (run step after later).liveSnapshot := by
  intro start s reset after ofCall named own live accepted
  have sound : s.Sound := run_invariant Sound step_sound (init_sound ..) ops
  have anchored : Anchored s.seq s.turnView :=
    run_invariant (fun s : SessionStream => Anchored s.seq s.turnView) step_anchored
      (anchored_closed _ rfl rfl) ops
  have origin : ∀ before, s.liveAttemptPrefix = some (failed, before) →
      ∃ earlier op later, ops = earlier ++ op :: later ∧ BeginsAt failed before (run step start earlier) op :=
    fun before attempt => run_attempt rfl attempt
  have afterSound : after.Sound := step_sound s (.record answerGenerationReset payload emittedAt evicts) sound
  obtain ⟨epoch, isNew, rolledView⟩ := record_callReset rfl ofCall own live accepted
  rw [named] at rolledView
  obtain ⟨rolled, afterLive, afterEpoch⟩ := RolledBack.of_turnView rolledView
  refine ⟨origin, ?_, ?_, ?_, epoch, isNew, ?_⟩
  · intro clean item mem lossy
    exact rolled.lossy afterSound rfl clean mem lossy
  · intro item mem other notPreview
    exact rolled.view mem other notPreview
  · intro item mem completed kept
    exact rolled.completed sound anchored mem completed kept
  · intro later goesOn eventName payload emittedAt evicts incoming goesOnThere lossy namedEpoch earlier
    obtain ⟨stillLive, reached⟩ := run_goesOn afterLive ⟨epoch, afterEpoch, le_rfl⟩ goesOn
    exact snapshot_stale stillLive reached goesOnThere lossy namedEpoch earlier

def deltaOf (task eventName call : String) : StreamOp :=
  .record eventName
    (some (.ofList [("task_id", .str task), ("model_call_id", .str call), ("generation_epoch", .int 0),
    ("text", .str "text")])) 0 false

-- Text and a preview of the first call, then text of the second.
def secondAttempt : List StreamOp :=
  [deltaOf "turn" textDelta "1.0", deltaOf "turn" toolInputPreview "1.0", deltaOf "turn" textDelta "2.0"]

def secondReset : Payload :=
  .ofList [("task_id", .str "turn"), ("reset_scope", .str "provider_call"),
    ("rollback_model_call_id", .str "2.0"),
    ("old_generation_epoch", .int 0), ("new_generation_epoch", .int 1)]

theorem call_reset_rolls_back_second :
    let s := run step (init "session" "generation" 8) secondAttempt
    let after := (s.record answerGenerationReset (some secondReset) 0 false).2
    ∀ item ∈ after.liveSnapshot, isGenerationLossy item.eventName = true → item.payload.modelCallId ≠ "2.0" := by
  intro s after
  have clean : ∀ before, s.liveAttemptPrefix = some ("2.0", before) → ∀ item ∈ before,
      isGenerationLossy item.eventName = true → item.payload.modelCallId = "2.0" →
        item.eventName = toolInputPreview := by
    intro before attempt
    have found : ∀ checkpoint ∈ s.liveAttemptPrefix, ∀ item ∈ checkpoint.2,
        item.payload.modelCallId ≠ "2.0" := by
      decide
    intro item mem lossy same
    exact absurd same (found ("2.0", before) (Option.mem_def.mpr attempt) item mem)
  exact (call_reset_rolls_back "session" "generation" 8 secondAttempt (some secondReset) 0 false
    (some "turn") "2.0" (by decide) (by decide) (.inr (by decide)) (by decide) (by decide)).2.1 clean

/-- An accepted reset drops the input previews of earlier calls too, and its epoch binds no later turn. -/
theorem call_reset_is_of_its_turn :
    let s := run step (init "session" "generation" 8) secondAttempt
    let after := (s.record answerGenerationReset (some secondReset) 0 false).2
    let next := after.step (deltaOf "next" textDelta "1.0")
    (s.record answerGenerationReset (some secondReset) 0 false).1 ≠ none ∧
    (∃ item ∈ s.liveSnapshot, isGenerationLossy item.eventName = true ∧ item.payload.modelCallId = "1.0" ∧
      item ∉ after.liveSnapshot) ∧
    ∃ item ∈ next.liveSnapshot, isGenerationLossy item.eventName = true ∧
      item.payload.generationEpoch = some 0 := by
  intro s after next
  refine ⟨by decide, ?_, ?_⟩
  · have dropped : ∃ item ∈ s.liveList, isGenerationLossy item.eventName = true ∧
        item.payload.modelCallId = "1.0" ∧
        item ∉ after.liveList ∧ item ∉ after.manualCompactions.values.flatten := by
      decide +kernel
    obtain ⟨item, mem, lossy, call, notLive, notKept⟩ := dropped
    refine ⟨item, mem_liveSnapshot.mpr (.inl mem), lossy, call, ?_⟩
    rw [mem_liveSnapshot, not_or]
    exact ⟨notLive, notKept⟩
  · have entered : ∃ item ∈ next.liveList, isGenerationLossy item.eventName = true ∧
        item.payload.generationEpoch = some 0 := by
      decide
    obtain ⟨item, mem, facts⟩ := entered
    exact ⟨item, mem_liveSnapshot.mpr (.inl mem), facts⟩

end SessionStream

end OpenSquilla.Streams
