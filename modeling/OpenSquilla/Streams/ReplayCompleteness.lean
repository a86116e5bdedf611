import OpenSquilla.Streams.Registry

set_option autoImplicit false

namespace OpenSquilla.Streams

open Runs

namespace SessionStream

def SideOnly (before after : SessionStream) : Prop :=
  ∃ liveEvents manualCompactions sessionEpoch liveTask liveGenerationEpoch liveAttemptPrefix
      replayCached unpersistedTasks persistedTask,
    after = { before with
      liveEvents := liveEvents
      manualCompactions := manualCompactions
      sessionEpoch := sessionEpoch
      liveTask := liveTask
      liveGenerationEpoch := liveGenerationEpoch
      liveAttemptPrefix := liveAttemptPrefix
      replayCached := replayCached
      unpersistedTasks := unpersistedTasks
      persistedTask := persistedTask }

namespace SideOnly

theorem refl (s : SessionStream) : SideOnly s s := ⟨_, _, _, _, _, _, _, _, _, rfl⟩

theorem trans {first second third : SessionStream} (one : SideOnly first second)
    (two : SideOnly second third) : SideOnly first third := by
  obtain ⟨_, _, _, _, _, _, _, _, _, rfl⟩ := one
  obtain ⟨_, _, _, _, _, _, _, _, _, rfl⟩ := two
  exact ⟨_, _, _, _, _, _, _, _, _, rfl⟩

end SideOnly

theorem clearLiveState_side (s : SessionStream) : SideOnly s s.clearLiveState :=
  ⟨_, _, _, _, _, _, _, _, _, rfl⟩

theorem enterTask_side (s : SessionStream) (task : Option String) : SideOnly s (s.enterTask task) := by
  cases task with
  | none => exact ⟨_, _, _, _, _, _, _, _, _, rfl⟩
  | some task =>
    unfold enterTask
    dsimp only
    split <;> exact ⟨_, _, _, _, _, _, _, _, _, rfl⟩

theorem recordManualCompaction_side (s : SessionStream) (event : BufferedSessionEvent) :
    SideOnly s (s.recordManualCompaction event) := by
  unfold recordManualCompaction
  split
  · exact .refl s
  · split <;> exact ⟨_, _, _, _, _, _, _, _, _, rfl⟩

theorem recordGenerationReset_side (s : SessionStream) (event : BufferedSessionEvent) :
    SideOnly s (s.recordGenerationReset event) := by
  unfold recordGenerationReset
  split
  · unfold recordCallReset
    dsimp only
    split
    · exact .refl s
    · repeat' split
      all_goals exact ⟨_, _, _, _, _, _, _, _, _, rfl⟩
  · exact ⟨_, _, _, _, _, _, _, _, _, rfl⟩

theorem appendLive_side (s : SessionStream) (event : BufferedSessionEvent) :
    SideOnly s (s.appendLive event) := by
  unfold appendLive checkpointAttempt
  dsimp only
  repeat' split
  all_goals exact ⟨_, _, _, _, _, _, _, _, _, rfl⟩

theorem recordLiveEvent_side (s : SessionStream) (event : BufferedSessionEvent) :
    SideOnly s (s.recordLiveEvent event) := by
  unfold recordLiveEvent
  dsimp only
  split
  · exact recordManualCompaction_side s event
  · split
    · split
      · exact clearLiveState_side s
      · exact .refl s
    · split
      · exact (enterTask_side s _).trans (clearLiveState_side _)
      · split
        · exact (enterTask_side s _).trans (recordGenerationReset_side _ event)
        · exact (enterTask_side s _).trans (appendLive_side _ event)

theorem noteUnpersisted_side (s : SessionStream) (event : BufferedSessionEvent) :
    SideOnly s (s.noteUnpersisted event) := by
  unfold noteUnpersisted
  dsimp only
  repeat' split
  all_goals exact ⟨_, _, _, _, _, _, _, _, _, rfl⟩

theorem advanceSessionEpoch_side (s : SessionStream) (epoch : Int) :
    SideOnly s (s.advanceSessionEpoch epoch) := by
  unfold advanceSessionEpoch
  split <;> exact ⟨_, _, _, _, _, _, _, _, _, rfl⟩

theorem refreshReplayBudget_cases (s : SessionStream) (evicts : Bool) :
    SideOnly s (s.refreshReplayBudget evicts) ∨
      evicts = true ∧ s.refreshReplayBudget evicts = { s.evictReplayCache with replayCached := false } := by
  unfold refreshReplayBudget
  split
  · exact .inl ⟨_, _, _, _, _, _, _, _, _, rfl⟩
  · split
    · exact .inl (.refl s)
    · split
      next evicting => exact .inr ⟨evicting, rfl⟩
      · exact .inl ⟨_, _, _, _, _, _, _, _, _, rfl⟩

-- The replay state of a session that has seen no generation reset.
structure Buffered (s : SessionStream) : Prop where
  noResetSeqs : s.resetStreamSeqs = []
  noResets : s.resetEvents = []
  noBoundary : s.replayResetBoundary = none
  ordered : s.recorded.Pairwise (fun first second => first.streamSeq < second.streamSeq)
  taken : ∀ event ∈ s.recorded, event.streamSeq ≤ s.seq
  kept : s.bufferedEvents.Sublist s.recorded
  floor : s.replayFloor ≤ s.seq
  above : ∀ event ∈ s.bufferedEvents, s.replayFloor < event.streamSeq
  fits : s.bufferedEvents.length ≤ s.maxEventsPerSession

theorem SideOnly.buffered {before after : SessionStream} (side : SideOnly before after)
    (buffered : before.Buffered) : after.Buffered := by
  obtain ⟨_, _, _, _, _, _, _, _, _, rfl⟩ := side
  obtain ⟨noResetSeqs, noResets, noBoundary, ordered, taken, kept, floor, above, fits⟩ := buffered
  exact ⟨noResetSeqs, noResets, noBoundary, ordered, taken, kept, floor, above, fits⟩

-- A missing event is behind a floor or behind everything that is still buffered.
def Accounts (s : SessionStream) (event : BufferedSessionEvent) : Prop :=
  event ∈ s.bufferedEvents ∨ event.streamSeq ≤ s.replayFloor ∨ event.streamSeq ≤ s.scopedReplayFloor ∨
    ∀ kept ∈ s.bufferedEvents, event.streamSeq < kept.streamSeq

def Covered (s : SessionStream) : Prop := ∀ event ∈ s.recorded, lossy event = false → s.Accounts event

theorem SideOnly.covered_iff {before after : SessionStream} (side : SideOnly before after) :
    after.Covered ↔ before.Covered := by
  obtain ⟨_, _, _, _, _, _, _, _, _, rfl⟩ := side
  exact Iff.rfl

theorem SideOnly.covered {before after : SessionStream} (side : SideOnly before after)
    (covered : before.Covered) : after.Covered := side.covered_iff.mpr covered

/-- Every replay that calls itself complete holds every recorded event after the cursor that
may not be dropped, in order, and every other replay names a gap. -/
def ReplayComplete (s : SessionStream) : Prop :=
  ∀ since : Int,
    let result := s.replay (some since) (some s.streamGeneration)
    (result.replayComplete = true →
      result.events.Pairwise (fun first second => first.streamSeq < second.streamSeq) ∧
      (∀ event ∈ result.events, since < event.streamSeq) ∧
      ∀ event ∈ s.recorded, since < event.streamSeq → lossy event = false → event ∈ result.events) ∧
    (result.replayComplete = false → result.gapReason ≠ none)

variable {s : SessionStream}

theorem withoutRolledBack_calm (noResets : s.resetEvents = [])
    (events : List BufferedSessionEvent) : s.withoutRolledBack events = events := by
  simp [withoutRolledBack, noResets]

theorem staleInReplay_calm (noResets : s.resetEvents = [])
    (noBoundary : s.replayResetBoundary = none) (event : BufferedSessionEvent) :
    s.staleInReplay event = false := by
  have none : s.generationResets = [] := by
    simp [generationResets, noResets, noBoundary, bySeq]
  simp [staleInReplay, none, replayGenerationEpoch, eventIsStaleGeneration]

theorem replay_inside (buffered : s.Buffered) (since : Int)
    (started : s.seq ≠ 0) (behind : since < s.seq) (aboveFloor : s.replayFloor ≤ since) :
    s.replay (some since) (some s.streamGeneration) =
      match s.bufferedEvents with
      | [] => s.gap "stream_buffer_empty" []
      | first :: rest => s.windowed since first (after since (first :: rest)) := by
  unfold replay
  simp only [buffered.noResetSeqs]
  rw [if_neg (by simp)]
  rw [if_neg started, if_neg (by omega), if_neg (by omega), if_neg (by omega)]
  cases s.bufferedEvents with
  | nil => simp
  | cons first rest =>
    simp [withoutRolledBack_calm buffered.noResets,
      staleInReplay_calm buffered.noResets buffered.noBoundary]

theorem replay_outside {since : Int} (outside : s.seq = 0 ∨ (s.seq : Int) ≤ since ∨ since < s.replayFloor) :
    let result := s.replay (some since) (some s.streamGeneration)
    result.events = [] ∧ (result.replayComplete = true → (s.seq : Int) ≤ since) ∧
      (result.replayComplete = false → result.gapReason ≠ none) := by
  unfold replay
  rw [if_neg (by simp)]
  dsimp only
  split
  next zero =>
    refine ⟨rfl, fun complete => ?_, fun incomplete => ?_⟩
    · have same : since = 0 := by simpa using complete
      omega
    · have different : since ≠ 0 := by simpa using incomplete
      simp [different]
  · split
    · exact ⟨rfl, by simp [gap], by simp [gap]⟩
    · split
      next here => exact ⟨rfl, fun _ => here.ge, by simp⟩
      · rw [if_pos (by omega)]
        exact ⟨rfl, by simp [gap], by simp [gap]⟩

theorem replayComplete_iff (buffered : s.Buffered) : s.ReplayComplete ↔ s.Covered := by
  have sorted : s.bufferedEvents.Pairwise (fun first second => first.streamSeq < second.streamSeq) :=
    buffered.ordered.sublist buffered.kept
  constructor
  · intro complete event mem notLossy
    by_contra hole
    simp only [Accounts, not_or, not_forall, not_le, not_lt] at hole
    obtain ⟨gone, aboveFloor, aboveScoped, earlier, kept, before⟩ := hole
    have taken := buffered.taken event mem
    -- a client that has seen everything before the missing event is told it missed nothing
    have inside := replay_inside buffered ((event.streamSeq : Int) - 1) (by omega)
      (by omega) (by omega)
    have result := complete ((event.streamSeq : Int) - 1)
    cases events : s.bufferedEvents with
    | nil =>
      rw [events] at kept
      cases kept
    | cons first rest =>
      rw [events] at inside kept sorted gone
      have least : first.streamSeq ≤ earlier.streamSeq := by
        rcases List.mem_cons.mp kept with rfl | later
        · exact le_refl _
        · exact (List.rel_of_pairwise_cons sorted later).le
      simp only [inside, windowed] at result
      have found := (result.1 (by simp; omega)).2.2 event mem (by omega) notLossy
      exact gone (List.mem_of_mem_filter found)
  · intro covered since
    by_cases outside : s.seq = 0 ∨ (s.seq : Int) ≤ since ∨ since < s.replayFloor
    · obtain ⟨events, complete, incomplete⟩ := replay_outside outside
      refine ⟨fun holds => ?_, incomplete⟩
      rw [events]
      refine ⟨List.Pairwise.nil, by simp, fun event mem later _ => ?_⟩
      have taken := buffered.taken event mem
      have behind := complete holds
      omega
    · push Not at outside
      obtain ⟨started, behind, aboveFloor⟩ := outside
      have inside := replay_inside buffered _ started behind aboveFloor
      cases events : s.bufferedEvents with
      | nil =>
        rw [events] at inside
        simp [inside, gap]
      | cons first rest =>
        rw [events] at inside sorted
        simp only [inside, windowed]
        refine ⟨fun complete => ?_, fun incomplete => ?_⟩
        swap
        · rw [incomplete]
          simp
        have within : (first.streamSeq : Int) - 1 ≤ since ∧ (s.scopedReplayFloor : Int) ≤ since := by
          simpa using complete
        refine ⟨sorted.sublist List.filter_sublist, fun event mem => ?_, ?_⟩
        · simpa using (List.mem_filter.mp mem).2
        · intro event mem later notLossy
          have accounted := covered event mem notLossy
          simp only [Accounts, events] at accounted
          rcases accounted with present | floored | behindScoped | before
          · exact List.mem_filter.mpr ⟨present, by simpa using later⟩
          · omega
          · omega
          · have first := before first List.mem_cons_self
            omega

/-- What one round of trimming drops: the first lossy event, or among events that are all
kept otherwise the first that is not spared, or the oldest. -/
def Dropped (before : List BufferedSessionEvent) (event : BufferedSessionEvent)
    (events : List BufferedSessionEvent) : Prop :=
  lossy event = true ∨ (∀ kept ∈ events, lossy kept = false) ∧
    (events.find? (fun kept => !spared kept) = some event ∨
      events.find? (fun kept => !spared kept) = none ∧ before = [])

theorem trimOnce_drops (floor : Nat) (events : List BufferedSessionEvent) (nonempty : events ≠ []) :
    ∃ before event after, events = before ++ event :: after ∧
      trimOnce floor events = (recordScopedReplayEviction floor event, before ++ after) ∧
      Dropped before event events := by
  have positive : 0 < events.length := List.length_pos_iff.mpr nonempty
  have decompose : ∀ index (inside : index < events.length), evictionIndex events = index →
      Dropped (events.take index) events[index] events →
      ∃ before event after, events = before ++ event :: after ∧
        trimOnce floor events = (recordScopedReplayEviction floor event, before ++ after) ∧
        Dropped before event events := by
    intro index inside same dropped
    refine ⟨events.take index, events[index], events.drop (index + 1), ?_, ?_, dropped⟩
    · rw [List.getElem_cons_drop, List.take_append_drop]
    · simp only [trimOnce, same, List.getElem?_eq_getElem inside, List.eraseIdx_eq_take_drop_succ]
  unfold evictionIndex at decompose
  cases firstLossy : events.findIdx? lossy with
  | some index =>
    rw [firstLossy] at decompose
    obtain ⟨inside, isLossy, _⟩ := List.findIdx?_eq_some_iff_getElem.mp firstLossy
    exact decompose index inside rfl (.inl isLossy)
  | none =>
    have noneLossy : ∀ kept ∈ events, lossy kept = false := by
      simpa [List.findIdx?_eq_none_iff] using firstLossy
    rw [firstLossy] at decompose
    cases firstOpen : events.findIdx? (fun event => !spared event) with
    | some index =>
      rw [firstOpen] at decompose
      obtain ⟨inside, isOpen, earlier⟩ := List.findIdx?_eq_some_iff_getElem.mp firstOpen
      refine decompose index inside rfl (.inr ⟨noneLossy, .inl ?_⟩)
      rw [List.find?_eq_some_iff_getElem]
      exact ⟨isOpen, index, inside, rfl, fun j before => by simpa using earlier j before⟩
    | none =>
      rw [firstOpen] at decompose
      refine decompose 0 positive rfl (.inr ⟨noneLossy, .inr ⟨?_, by simp⟩⟩)
      rw [List.find?_eq_none]
      simpa [List.findIdx?_eq_none_iff] using firstOpen

/-- Recording `event` drops nothing from the middle of the buffer that a floor does not
cover: the buffer has room or holds something lossy, or the first event that is not spared is
the oldest one, belongs to a model call, or is behind the scoped floor already. -/
def trimsSafely (s : SessionStream) (event : BufferedSessionEvent) : Bool :=
  let events := s.bufferedEvents ++ [event]
  decide (events.length ≤ s.maxEventsPerSession) || events.any lossy ||
    (events.find? (fun kept => !spared kept)).all (fun dropped =>
      events.head? = some dropped || decide (dropped.payload.modelCallId ≠ "") ||
        decide (dropped.streamSeq ≤ s.scopedReplayFloor))

theorem le_recordScopedReplayEviction (floor : Nat) (event : BufferedSessionEvent) :
    floor ≤ recordScopedReplayEviction floor event := by
  unfold recordScopedReplayEviction
  split
  · exact le_max_left _ _
  · exact le_refl _

/-- Buffering the next event of the stream: it is appended, and if the buffer was full one
event is dropped. -/
theorem bufferEvent_cases (buffered : s.Buffered) (event : BufferedSessionEvent) :
    (s.bufferEvent event).bufferedEvents = s.bufferedEvents ++ [event] ∧
      (s.bufferEvent event).scopedReplayFloor = s.scopedReplayFloor ∧
      s.bufferedEvents.length < s.maxEventsPerSession ∨
    s.bufferedEvents.length = s.maxEventsPerSession ∧
    ∃ before dropped after, s.bufferedEvents ++ [event] = before ++ dropped :: after ∧
      (s.bufferEvent event).bufferedEvents = before ++ after ∧
      (s.bufferEvent event).scopedReplayFloor =
        recordScopedReplayEviction s.scopedReplayFloor dropped ∧
      Dropped before dropped (s.bufferedEvents ++ [event]) := by
  have fits := buffered.fits
  rcases Nat.lt_or_ge s.bufferedEvents.length s.maxEventsPerSession with room | full
  · left
    have rounds : (s.bufferedEvents ++ [event]).length - s.maxEventsPerSession = 0 := by
      rw [List.length_append, List.length_singleton]
      omega
    have trimmed : trimSessionEvents s.maxEventsPerSession s.scopedReplayFloor
        (s.bufferedEvents ++ [event]) = (s.scopedReplayFloor, s.bufferedEvents ++ [event]) := by
      rw [trimSessionEvents, rounds, trimRounds]
    refine ⟨?_, ?_, room⟩
    · simp only [bufferedEvents, bufferEvent, Option.getD_some]
      exact congrArg Prod.snd trimmed
    · exact congrArg Prod.fst trimmed
  · right
    have rounds : (s.bufferedEvents ++ [event]).length - s.maxEventsPerSession = 1 := by
      rw [List.length_append, List.length_singleton]
      omega
    obtain ⟨before, dropped, after, whole, once, how⟩ :=
      trimOnce_drops s.scopedReplayFloor (s.bufferedEvents ++ [event]) (by simp)
    have trimmed : trimSessionEvents s.maxEventsPerSession s.scopedReplayFloor
        (s.bufferedEvents ++ [event]) =
          (recordScopedReplayEviction s.scopedReplayFloor dropped, before ++ after) := by
      rw [trimSessionEvents, rounds, trimRounds, trimRounds, once]
    refine ⟨by omega, before, dropped, after, whole, ?_, congrArg Prod.fst trimmed, how⟩
    simp only [bufferedEvents, bufferEvent, Option.getD_some]
    exact congrArg Prod.snd trimmed

section Buffering

variable {s : SessionStream} (buffered : s.Buffered) {event : BufferedSessionEvent}
  (calm : isGenerationReset event.eventName = false)
  (next : ∀ earlier ∈ s.recorded, earlier.streamSeq < event.streamSeq)
  (current : event.streamSeq = s.seq)

include buffered next in
theorem appended_ordered : (s.recorded ++ [event]).Pairwise
    (fun first second => first.streamSeq < second.streamSeq) := by
  rw [List.pairwise_append]
  refine ⟨buffered.ordered, List.pairwise_singleton _ _, ?_⟩
  intro earlier mem last single
  obtain rfl := List.mem_singleton.mp single
  exact next earlier mem

include buffered calm next current in
theorem bufferEvent_buffered (above : s.replayFloor < event.streamSeq) : (s.bufferEvent event).Buffered := by
  have whole : (s.bufferedEvents ++ [event]).Sublist (s.recorded ++ [event]) :=
    buffered.kept.append (List.Sublist.refl _)
  have aboveAll : ∀ kept ∈ s.bufferedEvents ++ [event], s.replayFloor < kept.streamSeq := by
    intro kept mem
    rcases List.mem_append.mp mem with old | new
    · exact buffered.above kept old
    · obtain rfl := List.mem_singleton.mp new
      exact above
  have fewer : (s.bufferEvent event).bufferedEvents.Sublist (s.bufferedEvents ++ [event]) ∧
      (s.bufferEvent event).bufferedEvents.length ≤ s.maxEventsPerSession := by
    rcases bufferEvent_cases buffered event with
      ⟨events, _, room⟩ | ⟨full, before, dropped, after, split, events, _, _⟩
    · rw [events, List.length_append, List.length_singleton]
      exact ⟨List.Sublist.refl _, room⟩
    · have length := congrArg List.length split
      simp only [List.length_append, List.length_cons, List.length_nil] at length
      rw [events, split, List.length_append]
      exact ⟨List.Sublist.append_left (List.sublist_cons_self _ _) _, by omega⟩
  refine ⟨?_, ?_, buffered.noBoundary, ?_, ?_, fewer.1.trans whole, buffered.floor, ?_, fewer.2⟩
  · simp [bufferEvent, calm, buffered.noResetSeqs]
  · simp [bufferEvent, calm, buffered.noResets]
  · exact appended_ordered buffered next
  · intro kept mem
    rcases List.mem_append.mp mem with old | new
    · exact buffered.taken kept old
    · obtain rfl := List.mem_singleton.mp new
      exact current.le
  · exact fun kept mem => aboveAll kept (fewer.1.subset mem)

include buffered next in
theorem bufferEvent_covered (covered : s.Covered) (safe : s.trimsSafely event = true) :
    (s.bufferEvent event).Covered := by
  have sorted : (s.bufferedEvents ++ [event]).Pairwise
      (fun first second => first.streamSeq < second.streamSeq) :=
    (appended_ordered buffered next).sublist (buffered.kept.append (List.Sublist.refl _))
  -- an event that was accounted for before stays so when only `event` is new
  have stays : ∀ old ∈ s.recorded, s.Accounts old →
      (s.bufferEvent event).bufferedEvents.Sublist (s.bufferedEvents ++ [event]) →
      s.scopedReplayFloor ≤ (s.bufferEvent event).scopedReplayFloor →
      (old ∈ s.bufferedEvents → (s.bufferEvent event).Accounts old) →
      (s.bufferEvent event).Accounts old := by
    intro old mem accounted fewer floors present
    rcases accounted with here | floored | behindScoped | before
    · exact present here
    · exact .inr (.inl floored)
    · exact .inr (.inr (.inl (behindScoped.trans floors)))
    · refine .inr (.inr (.inr fun kept inside => ?_))
      rcases List.mem_append.mp (fewer.subset inside) with earlier | new
      · exact before kept earlier
      · obtain rfl := List.mem_singleton.mp new
        exact next old mem
  rcases bufferEvent_cases buffered event with
    ⟨events, floor, _⟩ | ⟨full, before, dropped, after, split, events, floor, how⟩
  · intro kept mem notLossy
    rcases List.mem_append.mp mem with old | new
    · refine stays kept old (covered kept old notLossy) (by rw [events]) floor.ge ?_
      intro here
      left
      rw [events]
      exact List.mem_append_left _ here
    · left
      rw [events]
      exact List.mem_append_right _ new
  · have fewer : (s.bufferEvent event).bufferedEvents.Sublist (s.bufferedEvents ++ [event]) := by
      rw [events, split]
      exact List.Sublist.append_left (List.sublist_cons_self _ _) _
    have floors : s.scopedReplayFloor ≤ (s.bufferEvent event).scopedReplayFloor := by
      rw [floor]
      exact le_recordScopedReplayEviction _ _
    have forDropped : lossy dropped = false → (s.bufferEvent event).Accounts dropped := by
      intro notLossy
      have oldest : before = [] → (s.bufferEvent event).Accounts dropped := by
        intro empty
        refine .inr (.inr (.inr fun kept inside => ?_))
        rw [events, empty] at inside
        rw [split, empty] at sorted
        exact List.rel_of_pairwise_cons sorted inside
      rcases how with isLossy | ⟨allKept, found | ⟨_, empty⟩⟩
      · rw [notLossy] at isLossy
        cases isLossy
      · have noneLossy : (s.bufferedEvents ++ [event]).any lossy = false :=
          List.any_eq_false.mpr (fun kept mem => by simp [allKept kept mem])
        simp only [trimsSafely, noneLossy, found, Option.all_some, Bool.or_false,
          List.length_append, List.length_singleton, Bool.or_eq_true, decide_eq_true_eq] at safe
        rcases safe with room | (head | call) | behind
        · omega
        · apply oldest
          cases before with
          | nil => rfl
          | cons first rest =>
            rw [split] at head sorted
            have same : first = dropped := by simpa using head
            have later := List.rel_of_pairwise_cons sorted
              (List.mem_append_right rest List.mem_cons_self)
            subst same
            omega
        · refine .inr (.inr (.inl ?_))
          rw [floor, recordScopedReplayEviction, if_pos call]
          exact le_max_right _ _
        · exact .inr (.inr (.inl (behind.trans floors)))
      · exact oldest empty
    have inside : ∀ kept ∈ s.bufferedEvents ++ [event], lossy kept = false →
        (s.bufferEvent event).Accounts kept := by
      intro kept mem notLossy
      rw [split] at mem
      rcases List.mem_append.mp mem with earlier | rest
      · exact .inl (by rw [events]; exact List.mem_append_left _ earlier)
      · rcases List.mem_cons.mp rest with rfl | later
        · exact forDropped notLossy
        · exact .inl (by rw [events]; exact List.mem_append_right _ later)
    intro kept mem notLossy
    rcases List.mem_append.mp mem with old | new
    · exact stays kept old (covered kept old notLossy) fewer floors
        (fun here => inside kept (List.mem_append_left _ here) notLossy)
    · exact inside kept (List.mem_append_right _ new) notLossy

include buffered next in
theorem bufferEvent_uncovered (above : s.replayFloor < event.streamSeq)
    (unsafely : s.trimsSafely event = false) : ¬(s.bufferEvent event).Covered := by
  have sorted : (s.bufferedEvents ++ [event]).Pairwise
      (fun first second => first.streamSeq < second.streamSeq) :=
    (appended_ordered buffered next).sublist (buffered.kept.append (List.Sublist.refl _))
  simp only [trimsSafely, Bool.or_eq_false_iff] at unsafely
  obtain ⟨⟨full, noneLossy⟩, notSafe⟩ := unsafely
  have noneLossy : ∀ kept ∈ s.bufferedEvents ++ [event], lossy kept = false :=
    fun kept mem => by simpa using List.any_eq_false.mp noneLossy kept mem
  cases found : (s.bufferedEvents ++ [event]).find? (fun kept => !spared kept) with
  | none =>
    rw [found] at notSafe
    cases notSafe
  | some target =>
    rw [found] at notSafe
    simp only [Option.all_some, Bool.or_eq_false_iff, decide_eq_false_iff_not, not_not,
      not_le] at notSafe
    obtain ⟨⟨notHead, noCall⟩, beyond⟩ := notSafe
    rcases bufferEvent_cases buffered event with
      ⟨_, _, room⟩ | ⟨_, before, dropped, after, split, events, floor, how⟩
    · simp only [List.length_append, List.length_singleton, decide_eq_false_iff_not] at full
      omega
    · have mem : dropped ∈ s.bufferedEvents ++ [event] := by
        rw [split]
        exact List.mem_append_right _ List.mem_cons_self
      have same : target = dropped := by
        rcases how with isLossy | ⟨_, here | ⟨absent, _⟩⟩
        · rw [noneLossy dropped mem] at isLossy
          cases isLossy
        · exact Option.some.inj (found.symm.trans here)
        · rw [absent] at found
          cases found
      subst same
      intro covered
      have recorded : target ∈ s.recorded ++ [event] :=
        (buffered.kept.append (List.Sublist.refl [event])).subset mem
      have beyondFloor : s.replayFloor < target.streamSeq := by
        rcases List.mem_append.mp mem with old | new
        · exact buffered.above target old
        · obtain rfl := List.mem_singleton.mp new
          exact above
      have keptFloor : (s.bufferEvent event).scopedReplayFloor = s.scopedReplayFloor := by
        rw [floor, recordScopedReplayEviction, if_neg (by simpa using noCall)]
      rw [split] at sorted notHead
      cases before with
      | nil => simp at notHead
      | cons first rest =>
        have earlier : first.streamSeq < target.streamSeq := List.rel_of_pairwise_cons sorted
          (List.mem_append_right rest List.mem_cons_self)
        rcases covered target recorded (noneLossy target mem) with
          here | floored | behindScoped | ahead
        · -- sequence numbers are distinct, so the dropped event is gone
          rw [events] at here
          have unique := sorted.imp (fun {a b} less => Nat.ne_of_lt less)
          rw [List.pairwise_append] at unique
          rcases List.mem_append.mp here with inFront | behind
          · exact unique.2.2 target inFront target List.mem_cons_self rfl
          · exact List.rel_of_pairwise_cons unique.2.1 behind rfl
        · have floored : target.streamSeq ≤ s.replayFloor := floored
          omega
        · rw [keptFloor] at behindScoped
          omega
        · have least := ahead first (by rw [events]; exact List.mem_cons_self)
          omega

end Buffering

theorem evicted_buffered (buffered : s.Buffered) :
    ({ s.evictReplayCache with replayCached := false } : SessionStream).Buffered where
  noResetSeqs := rfl
  noResets := rfl
  noBoundary := by
    have none : s.latestReset = none := by simp [latestReset, buffered.noResets, bySeq]
    simp [evictReplayCache, none, buffered.noBoundary]
  ordered := buffered.ordered
  taken := buffered.taken
  kept := List.nil_sublist _
  floor := le_refl s.seq
  above := fun event mem => nomatch mem
  fits := Nat.zero_le _

theorem evicted_covered (s : SessionStream) :
    ({ s.evictReplayCache with replayCached := false } : SessionStream).Covered :=
  fun _ _ _ => .inr (.inr (.inr fun _ mem => nomatch mem))

theorem refreshReplayBudget_buffered (buffered : s.Buffered) (evicts : Bool) :
    (s.refreshReplayBudget evicts).Buffered := by
  rcases refreshReplayBudget_cases s evicts with side | ⟨_, evicted⟩
  · exact side.buffered buffered
  · rw [evicted]
    exact evicted_buffered buffered

theorem refreshReplayBudget_covered (covered : s.Covered) (evicts : Bool) :
    (s.refreshReplayBudget evicts).Covered := by
  rcases refreshReplayBudget_cases s evicts with side | ⟨_, evicted⟩
  · exact side.covered covered
  · rw [evicted]
    exact evicted_covered s

theorem admitRecord_side (s : SessionStream) (enriched : Payload) :
    SideOnly { s with seq := s.seq + 1 } (s.admitRecord enriched) := by
  unfold admitRecord
  cases (enriched.get "epoch").natural? with
  | none => exact .refl _
  | some epoch => exact advanceSessionEpoch_side _ epoch

theorem sequence_buffered (buffered : s.Buffered) {seq : Nat}
    (ahead : s.seq ≤ seq) : ({ s with seq := seq } : SessionStream).Buffered :=
  ⟨buffered.noResetSeqs, buffered.noResets, buffered.noBoundary, buffered.ordered,
    fun event mem => (buffered.taken event mem).trans ahead, buffered.kept,
    buffered.floor.trans ahead, buffered.above, buffered.fits⟩

theorem publish_cases (s : SessionStream) (event : BufferedSessionEvent) (evicts : Bool) :
    ∃ settled, SideOnly (s.bufferEvent event) settled ∧
      s.publish event evicts = settled.refreshReplayBudget evicts :=
  ⟨_, (recordLiveEvent_side _ event).trans (noteUnpersisted_side _ event), rfl⟩

variable {event : BufferedSessionEvent}

theorem record_cases (s : SessionStream) (eventName : String) (payload : Option Payload)
    (emittedAt : Int) (evicts : Bool) (calm : isGenerationReset eventName = false)
    (made : s.recordEvent eventName payload emittedAt = event)
    {admitted : SessionStream} (taken : s.admitRecord event.payload = admitted) :
    admitted.epochFenced eventName event.payload = true ∧
      (s.record eventName payload emittedAt evicts).2 = admitted ∨
    admitted.epochFenced eventName event.payload = false ∧
      (s.record eventName payload emittedAt evicts).2 = admitted.publish event evicts := by
  simp only [record, made, taken, calm, Bool.false_and, Bool.false_eq_true, if_false]
  split
  next fenced => exact .inl ⟨fenced, rfl⟩
  next open_ => exact .inr ⟨(Bool.not_eq_true _).mp open_, rfl⟩

-- No generation reset is recorded and the session is not forgotten.
def calm : StreamOp → Bool
  | .record eventName _ _ _ => !isGenerationReset eventName
  | .evict => false
  | _ => true

def recordsSafely (s : SessionStream) : StreamOp → Bool
  | .record eventName payload emittedAt _ =>
    let event := s.recordEvent eventName payload emittedAt
    let admitted := s.admitRecord event.payload
    admitted.epochFenced eventName event.payload || admitted.trimsSafely event
  | _ => true

-- What buffering an event needs of the state that has taken its sequence number.
structure Next (s : SessionStream) (event : BufferedSessionEvent) : Prop where
  buffered : s.Buffered
  later : ∀ earlier ∈ s.recorded, earlier.streamSeq < event.streamSeq
  current : event.streamSeq = s.seq
  above : s.replayFloor < event.streamSeq

theorem admitRecord_next (buffered : s.Buffered) (eventName : String)
    (payload : Option Payload) (emittedAt : Int) :
    Next (s.admitRecord (s.recordEvent eventName payload emittedAt).payload)
      (s.recordEvent eventName payload emittedAt) := by
  have side := admitRecord_side s (s.recordEvent eventName payload emittedAt).payload
  refine ⟨side.buffered (sequence_buffered buffered (Nat.le_succ _)), ?_, ?_, ?_⟩
  · obtain ⟨_, _, _, _, _, _, _, _, _, same⟩ := side
    rw [same]
    exact fun earlier mem => Nat.lt_succ_of_le (buffered.taken earlier mem)
  · obtain ⟨_, _, _, _, _, _, _, _, _, same⟩ := side
    rw [same]
    rfl
  · obtain ⟨_, _, _, _, _, _, _, _, _, same⟩ := side
    rw [same]
    exact Nat.lt_succ_of_le buffered.floor

theorem publish_buffered (next : s.Next event)
    (calm : isGenerationReset event.eventName = false) (evicts : Bool) : (s.publish event evicts).Buffered := by
  obtain ⟨settled, side, same⟩ := publish_cases s event evicts
  rw [same]
  exact refreshReplayBudget_buffered (side.buffered (bufferEvent_buffered next.buffered calm
    next.later next.current next.above)) evicts

theorem publish_covered (next : s.Next event)
    (covered : s.Covered) (safe : s.trimsSafely event = true) (evicts : Bool) :
    (s.publish event evicts).Covered := by
  obtain ⟨settled, side, same⟩ := publish_cases s event evicts
  rw [same]
  exact refreshReplayBudget_covered (side.covered (bufferEvent_covered next.buffered next.later
    covered safe)) evicts

theorem publish_uncovered (next : s.Next event)
    (unsafely : s.trimsSafely event = false) : ¬(s.publish event false).Covered := by
  obtain ⟨settled, side, same⟩ := publish_cases s event false
  rw [same]
  rcases refreshReplayBudget_cases settled false with idle | ⟨evicting, _⟩
  · rw [idle.covered_iff, side.covered_iff]
    exact bufferEvent_uncovered next.buffered next.later next.above unsafely
  · cases evicting

theorem step_buffered (s : SessionStream) (op : StreamOp) (buffered : s.Buffered)
    (quiet : calm op = true) : (s.step op).Buffered := by
  cases op with
  | record eventName payload emittedAt evicts =>
    have calm : isGenerationReset eventName = false := by simpa [SessionStream.calm] using quiet
    have next := admitRecord_next buffered eventName payload emittedAt
    rcases record_cases s eventName payload emittedAt evicts calm rfl rfl with
      ⟨_, same⟩ | ⟨_, same⟩
    · simp only [step, same]
      exact next.buffered
    · simp only [step, same]
      exact publish_buffered next calm evicts
  | markTerminalPersisted taskId reconstructible evicts =>
    simp only [step, markTerminalPersisted]
    split
    · exact buffered
    · exact refreshReplayBudget_buffered (SideOnly.buffered
        ⟨_, _, _, _, _, _, _, _, _, rfl⟩ buffered) evicts
  | budgetDropped =>
    simp only [step, budgetDropped]
    split
    · exact evicted_buffered buffered
    · exact buffered
  | advanceSessionEpoch epoch => exact (advanceSessionEpoch_side s epoch).buffered buffered
  | promoteLegacyCursor sinceStreamSeq =>
    simp only [step, promoteLegacyCursor]
    split
    · exact buffered
    · split
      · exact buffered
      · exact sequence_buffered buffered (by omega)
  | takeTerminalActivitySnapshot taskId durable =>
    simp only [step, takeTerminalActivitySnapshot]
    split
    · exact (clearLiveState_side s).buffered buffered
    · exact buffered
  | evict => cases quiet

theorem step_covered (s : SessionStream) (op : StreamOp) (buffered : s.Buffered)
    (covered : s.Covered) (quiet : calm op = true) (safe : s.recordsSafely op = true) :
    (s.step op).Covered := by
  cases op with
  | record eventName payload emittedAt evicts =>
    have calm : isGenerationReset eventName = false := by simpa [SessionStream.calm] using quiet
    have next := admitRecord_next buffered eventName payload emittedAt
    have admitted := (admitRecord_side s (s.recordEvent eventName payload emittedAt).payload).covered
      (covered : ({ s with seq := s.seq + 1 } : SessionStream).Covered)
    rcases record_cases s eventName payload emittedAt evicts calm rfl rfl with
      ⟨_, same⟩ | ⟨notFenced, same⟩
    · simp only [step, same]
      exact admitted
    · simp only [step, same]
      have trims := safe
      simp only [recordsSafely, notFenced, Bool.false_or] at trims
      exact publish_covered next admitted trims evicts
  | markTerminalPersisted taskId reconstructible evicts =>
    simp only [step, markTerminalPersisted]
    split
    · exact covered
    · exact refreshReplayBudget_covered (SideOnly.covered
        ⟨_, _, _, _, _, _, _, _, _, rfl⟩ covered) evicts
  | budgetDropped =>
    simp only [step, budgetDropped]
    split
    · exact evicted_covered s
    · exact covered
  | advanceSessionEpoch epoch => exact (advanceSessionEpoch_side s epoch).covered covered
  | promoteLegacyCursor sinceStreamSeq =>
    simp only [step, promoteLegacyCursor]
    split
    · exact covered
    · split <;> exact covered
  | takeTerminalActivitySnapshot taskId durable =>
    simp only [step, takeTerminalActivitySnapshot]
    split
    · exact (clearLiveState_side s).covered covered
    · exact covered
  | evict => cases quiet

theorem step_uncovered (s : SessionStream) (buffered : s.Buffered) (eventName : String)
    (payload : Option Payload) (emittedAt : Int)
    (quiet : calm (.record eventName payload emittedAt false) = true)
    (unsafely : s.recordsSafely (.record eventName payload emittedAt false) = false) :
    ¬(s.step (.record eventName payload emittedAt false)).Covered := by
  have calm : isGenerationReset eventName = false := by simpa [SessionStream.calm] using quiet
  simp only [recordsSafely, Bool.or_eq_false_iff] at unsafely
  have next := admitRecord_next buffered eventName payload emittedAt
  rcases record_cases s eventName payload emittedAt false calm rfl rfl with
    ⟨fenced, _⟩ | ⟨_, same⟩
  · rw [unsafely.1] at fenced
    cases fenced
  · simp only [step, same]
    exact publish_uncovered next unsafely.2

theorem init_buffered (sessionKey streamGeneration : String) (maxEventsPerSession : Nat) :
    (init sessionKey streamGeneration maxEventsPerSession).Buffered := by
  constructor <;> simp [init, bufferedEvents]

theorem run_covered (sessionKey streamGeneration : String) (maxEventsPerSession : Nat)
    (ops : List StreamOp) (quiet : ∀ op ∈ ops, calm op = true)
    (safe : Along step (fun s op => s.recordsSafely op = true)
      (init sessionKey streamGeneration maxEventsPerSession) ops) :
    let s := run step (init sessionKey streamGeneration maxEventsPerSession) ops
    s.Buffered ∧ s.Covered := by
  have allowed : Along step (fun s op => calm op = true ∧ s.recordsSafely op = true)
      (init sessionKey streamGeneration maxEventsPerSession) ops :=
    (along_of_forall _ ops quiet).and safe
  refine run_invariant_along (fun s => s.Buffered ∧ s.Covered) ?_
    ⟨init_buffered sessionKey streamGeneration maxEventsPerSession, fun _ mem => nomatch mem⟩
    ops allowed
  intro s op holds allowed
  exact ⟨step_buffered s op holds.1 allowed.1,
    step_covered s op holds.1 holds.2 allowed.1 allowed.2⟩

/-- A tool result at the head of a full buffer makes the next trimming delete from its
middle, and a replay from the start is still called complete. -/
theorem trimmed_event_missing :
    let state : Option Payload := some (.ofList [("to_state", .str "thinking")])
    let s := run step (init "session" "generation" 2)
      [.record toolResult none 0 false, .record "session.event.state_change" state 1 false,
        .record "session.event.state_change" state 2 false]
    let result := s.replay (some 0) (some "generation")
    result.replayComplete = true ∧ result.events.map BufferedSessionEvent.streamSeq = [1, 3] ∧
      s.recorded.map (fun event => (event.streamSeq, lossy event)) =
        [(1, false), (2, false), (3, false)] := by
  decide

theorem record_complete_iff (buffered : s.Buffered) (covered : s.Covered)
    (eventName : String) (payload : Option Payload) (emittedAt : Int)
    (notReset : isGenerationReset eventName = false) :
    (s.step (.record eventName payload emittedAt false)).ReplayComplete ↔
      s.recordsSafely (.record eventName payload emittedAt false) = true := by
  have quiet : calm (.record eventName payload emittedAt false) = true := by simp [calm, notReset]
  rw [replayComplete_iff (step_buffered s _ buffered quiet)]
  constructor
  · intro after
    by_contra unsafely
    exact step_uncovered s buffered eventName payload emittedAt quiet
      ((Bool.not_eq_true _).mp unsafely) after
  · exact step_covered s _ buffered covered quiet

/-- In a session without generation resets a complete replay is complete as long as no
record trims a hole into the buffer, and the first record that does leaves a replay that
misses an event and reports no gap. -/
theorem replay_complete_until_holed (sessionKey streamGeneration : String)
    (maxEventsPerSession : Nat) (ops : List StreamOp) (quiet : ∀ op ∈ ops, calm op = true)
    (safe : Along step (fun s op => s.recordsSafely op = true)
      (init sessionKey streamGeneration maxEventsPerSession) ops) :
    let s := run step (init sessionKey streamGeneration maxEventsPerSession) ops
    s.ReplayComplete ∧
    ∀ eventName payload emittedAt, isGenerationReset eventName = false →
      ((s.step (.record eventName payload emittedAt false)).ReplayComplete ↔
        s.recordsSafely (.record eventName payload emittedAt false) = true) := by
  intro s
  obtain ⟨buffered, covered⟩ : s.Buffered ∧ s.Covered :=
    run_covered sessionKey streamGeneration maxEventsPerSession ops quiet safe
  exact ⟨(replayComplete_iff buffered).mpr covered, record_complete_iff buffered covered⟩

theorem replay_complete_of_states : (run step (init "session" "generation" 2)
      [.record "session.event.state_change" none 0 false, .record textDelta none 1 false,
        .record toolResult none 2 false, .record toolResult none 3 false]).ReplayComplete :=
  (replay_complete_until_holed "session" "generation" 2
    [.record "session.event.state_change" none 0 false, .record textDelta none 1 false,
      .record toolResult none 2 false, .record toolResult none 3 false] (by decide)
    ⟨by decide, by decide, by decide, by decide, trivial⟩).1

end SessionStream

end OpenSquilla.Streams
