import OpenSquilla.UserInputs.Broker

set_option autoImplicit false

namespace OpenSquilla.UserInputs

open TextLines Runs Broker

variable {X : Type} {canonicalize lower : Text → Text} {broker : Broker X}

/-- What a call has to match to be let in: a request that was registered for its session, and fields
that its schema accepts. -/
def Accepts (canonicalize lower : Text → Text) (key : Text) (payload : Payload X) (sessionKey : Text)
    (fields : Dict Text Value) (answers : Answers) : Prop :=
  canonicalize sessionKey = key ∧ validateUserInputFields lower payload fields = .ok answers

/-- A call meets a request whose future was cancelled and whose entry is still there. -/
def Strikes (canonicalize lower : Text → Text) (broker : Broker X) (sessionKey : Text) (requestId : Nat)
    (fields : Dict Text Value) : Prop :=
  broker.completed.get? requestId = none ∧ broker.future requestId = .cancelled ∧
    ∃ pending answers, broker.pending.get? requestId = some pending ∧
      Accepts canonicalize lower pending.sessionKey pending.payload sessionKey fields answers

inductive Resolves (canonicalize lower : Text → Text) (broker : Broker X) (sessionKey : Text) (requestId : Nat)
    (fields : Dict Text Value) : Except Raised Bool × Broker X → Prop
  | refused (error : RequestError) : Resolves canonicalize lower broker sessionKey requestId fields
      (.error (.request error), broker)
  | replayed {key : Text} {payload : Payload X} {answers : Answers}
      (registered : (∃ completed, broker.completed.get? requestId = some completed ∧
        completed = ⟨key, payload, answers⟩) ∨
        (∃ pending, broker.pending.get? requestId = some pending ∧ pending.sessionKey = key ∧
          pending.payload = payload) ∧
          broker.future requestId = .answered answers)
      (accepts : Accepts canonicalize lower key payload sessionKey fields answers) :
      Resolves canonicalize lower broker sessionKey requestId fields (.ok true, broker)
  | struck (strikes : Strikes canonicalize lower broker sessionKey requestId fields) :
      Resolves canonicalize lower broker sessionKey requestId fields (.error .cancelledError, broker)
  | answered {pending : PendingUserInput X} {answers : Answers}
      (found : broker.pending.get? requestId = some pending)
      (open_ : broker.future requestId = .pending)
      (accepts : Accepts canonicalize lower pending.sessionKey pending.payload sessionKey fields answers) :
      Resolves canonicalize lower broker sessionKey requestId fields
        (.ok false,
          { broker with
            future := Function.update broker.future requestId (.answered answers)
            completed :=
              complete broker.completed requestId ⟨canonicalize sessionKey, pending.payload, answers⟩ })

theorem resolve_spec (broker : Broker X) (sessionKey : Text) (requestId : Nat) (fields : Dict Text Value) :
    Resolves canonicalize lower broker sessionKey requestId fields
      (broker.resolve canonicalize lower sessionKey requestId fields) := by
  unfold Broker.resolve
  dsimp only
  cases known : broker.completed.get? requestId with
  | some completed =>
    dsimp only
    split
    · exact .refused _
    · rename_i own
      rw [not_not] at own
      cases valid : validateUserInputFields lower completed.payload fields with
      | error error => exact .refused _
      | ok normalized =>
        dsimp only
        split
        · exact .refused _
        · rename_i same
          rw [not_not] at same
          exact .replayed (.inl ⟨completed, known, rfl⟩) ⟨own.symm, valid.trans (by rw [same])⟩
  | none =>
    cases found : broker.pending.get? requestId with
    | none => exact .refused _
    | some pending =>
      dsimp only
      split
      · exact .refused _
      · rename_i own
        rw [not_not] at own
        cases valid : validateUserInputFields lower pending.payload fields with
        | error error => exact .refused _
        | ok answers =>
          cases future : broker.future requestId with
          | cancelled => exact .struck ⟨known, future, pending, answers, found, own.symm, valid⟩
          | answered existing =>
            dsimp only
            split
            · exact .refused _
            · rename_i same
              rw [not_not] at same
              exact .replayed (.inr ⟨⟨pending, found, rfl, rfl⟩, future⟩) ⟨own.symm, valid.trans (by rw [same])⟩
          | pending => exact .answered found future ⟨own.symm, valid⟩

-- A request that was answered or cancelled is not answered for the first time.
def Settles (earlier later : Event X) : Prop :=
  ∀ requestId,
    (earlier = .cancelled requestId ∨ ∃ sessionKey fields,
      earlier = .resolved requestId sessionKey fields (.ok false)) →
    ∀ sessionKey fields, later ≠ .resolved requestId sessionKey fields (.ok false)

structure Sound (canonicalize lower : Text → Text) (broker : Broker X) : Prop where
  pendings : ∀ requestId pending, broker.pending.get? requestId = some pending →
    .opened requestId pending.sessionKey pending.payload ∈ broker.log
  completeds : ∀ requestId completed, broker.completed.get? requestId = some completed →
    .opened requestId completed.sessionKey completed.payload ∈ broker.log ∧
      broker.future requestId = .answered completed.answers
  older : ∀ requestId key payload, .opened requestId key payload ∈ broker.log → requestId < broker.drawn
  unique : ∀ requestId key payload key' payload', .opened requestId key payload ∈ broker.log →
    .opened requestId key' payload' ∈ broker.log → key = key' ∧ payload = payload'
  answered : ∀ requestId answers, broker.future requestId = .answered answers →
    ∃ key payload sessionKey fields, .opened requestId key payload ∈ broker.log ∧
      .resolved requestId sessionKey fields (.ok false) ∈ broker.log ∧
        Accepts canonicalize lower key payload sessionKey fields answers
  succeeded : ∀ requestId sessionKey fields replayed,
    .resolved requestId sessionKey fields (.ok replayed) ∈ broker.log →
    ∃ key payload answers, .opened requestId key payload ∈ broker.log ∧
      Accepts canonicalize lower key payload sessionKey fields answers ∧
        broker.future requestId = .answered answers
  received : ∀ call requestId answers, .received call requestId answers ∈ broker.log →
    broker.future requestId = .answered answers
  cancelled : ∀ requestId, .cancelled requestId ∈ broker.log → broker.future requestId = .cancelled
  settles : broker.log.Pairwise Settles

theorem sound_start : Sound canonicalize lower (.start : Broker X) := by
  refine ⟨?_, ?_, ?_, ?_, ?_, ?_, ?_, ?_, List.Pairwise.nil⟩ <;> simp [Broker.start]

-- An event that opens no request and cancels none, and that is no success.
def Event.isQuiet (broker : Broker X) : Event X → Prop
  | .opened _ _ _ | .cancelled _ | .resolved _ _ _ (.ok _) => False
  | .received _ requestId answers => broker.future requestId = .answered answers
  | .resolved _ _ _ (.error _) => True

theorem Sound.quiet (sound : Sound canonicalize lower broker) {next : Broker X} {events : List (Event X)}
    (log : next.log = broker.log ++ events) (silent : ∀ event ∈ events, event.isQuiet broker)
    (pending : ∀ requestId pending, next.pending.get? requestId = some pending →
      broker.pending.get? requestId = some pending)
    (completed : next.completed = broker.completed) (future : next.future = broker.future)
    (drawn : next.drawn = broker.drawn) :
    Sound canonicalize lower next := by
  have opened : ∀ requestId key payload, Event.opened requestId key payload ∈ next.log →
      Event.opened requestId key payload ∈ broker.log := by
    intro requestId key payload mem
    rw [log, List.mem_append] at mem
    exact mem.resolve_right fun new => (silent _ new).elim
  have success : ∀ requestId sessionKey fields replayed,
      Event.resolved requestId sessionKey fields (.ok replayed) ∈ next.log →
      Event.resolved requestId sessionKey fields (.ok replayed) ∈ broker.log := by
    intro requestId sessionKey fields replayed mem
    rw [log, List.mem_append] at mem
    exact mem.resolve_right fun new => (silent _ new).elim
  have kept : ∀ event, event ∈ broker.log → event ∈ next.log := by
    intro event mem
    rw [log]
    exact List.mem_append_left _ mem
  refine ⟨fun requestId item found => kept _ (sound.pendings requestId item (pending requestId item found)),
    fun requestId item found => ?_, fun requestId key payload mem => ?_,
        fun requestId key payload key' payload' mem member' => ?_,
    fun requestId answers is => ?_, fun requestId sessionKey fields replayed mem => ?_,
        fun call requestId answers mem => ?_,
    fun requestId mem => ?_, ?_⟩
  · rw [completed] at found
    rw [future]
    obtain ⟨opened', is⟩ := sound.completeds requestId item found
    exact ⟨kept _ opened', is⟩
  · rw [drawn]
    exact sound.older requestId key payload (opened _ _ _ mem)
  · exact sound.unique requestId key payload key' payload' (opened _ _ _ mem) (opened _ _ _ member')
  · rw [future] at is
    obtain ⟨key, payload, sessionKey, fields, opened', resolved, accepts⟩ := sound.answered requestId answers is
    exact ⟨key, payload, sessionKey, fields, kept _ opened', kept _ resolved, accepts⟩
  · obtain ⟨key, payload, answers, opened', accepts, is⟩ :=
      sound.succeeded requestId sessionKey fields replayed (success _ _ _ _ mem)
    rw [future]
    exact ⟨key, payload, answers, kept _ opened', accepts, is⟩
  · rw [future]
    rw [log, List.mem_append] at mem
    obtain before | new := mem
    · exact sound.received call requestId answers before
    · exact silent _ new
  · rw [future]
    rw [log, List.mem_append] at mem
    exact sound.cancelled requestId (mem.resolve_right fun new => (silent _ new).elim)
  · rw [log, List.pairwise_append]
    have nothing : ∀ earlier, ∀ later ∈ events, Settles earlier later := by
      rintro earlier later mem requestId - sessionKey fields rfl
      exact (silent _ mem).elim
    exact ⟨sound.settles, List.pairwise_of_forall_mem_list fun earlier _ later mem =>
        nothing earlier later mem,
      fun earlier _ later mem => nothing earlier later mem⟩

theorem Sound.cancelFuture (sound : Sound canonicalize lower broker) (requestId : Nat) :
    Sound canonicalize lower (broker.cancelFuture requestId) := by
  unfold Broker.cancelFuture
  split
  · rename_i open_
    have other : ∀ {id answers}, broker.future id = .answered answers →
        Function.update broker.future requestId Future.cancelled id = .answered answers := by
      intro id answers is
      have apart : id ≠ requestId := by
        rintro rfl
        rw [open_] at is
        cases is
      rwa [Function.update_of_ne apart]
    refine ⟨fun id item found => List.mem_append_left _ (sound.pendings id item found), fun id item found => ?_,
      fun id key payload mem => ?_, fun id key payload key' payload' mem member' => ?_,
          fun id answers is => ?_,
      fun id sessionKey fields replayed mem => ?_, fun call id answers mem => ?_, fun id mem => ?_, ?_⟩
    · obtain ⟨opened, is⟩ := sound.completeds id item found
      exact ⟨List.mem_append_left _ opened, other is⟩
    · exact sound.older id key payload (by simpa using mem)
    · exact sound.unique id key payload key' payload' (by simpa using mem) (by simpa using member')
    · have before : broker.future id = .answered answers := by
        by_cases own : id = requestId
        · subst own
          simp at is
        · exact (Function.update_of_ne own ..).symm.trans is
      obtain ⟨key, payload, sessionKey, fields, opened, resolved, accepts⟩ := sound.answered id answers before
      exact ⟨key, payload, sessionKey, fields, List.mem_append_left _ opened,
          List.mem_append_left _ resolved, accepts⟩
    · obtain ⟨key, payload, answers, opened, accepts, is⟩ :=
        sound.succeeded id sessionKey fields replayed (by simpa using mem)
      exact ⟨key, payload, answers, List.mem_append_left _ opened, accepts, other is⟩
    · exact other (sound.received call id answers (by simpa using mem))
    · by_cases own : id = requestId
      · subst own
        exact Function.update_self ..
      · have before : .cancelled id ∈ broker.log := by simpa [own] using mem
        exact (Function.update_of_ne own ..).trans (sound.cancelled id before)
    · rw [List.pairwise_append]
      refine ⟨sound.settles, List.pairwise_singleton _ _, fun earlier _ later mem => ?_⟩
      rintro id - sessionKey fields rfl
      simp at mem
  · exact sound

theorem Sound.cancelRequest (sound : Sound canonicalize lower broker) (requestId : Nat) :
    Sound canonicalize lower (broker.cancelRequest requestId) := by
  unfold Broker.cancelRequest
  split
  · exact sound
  · have popped : Sound canonicalize lower { broker with pending := broker.pending.erase requestId } := by
      refine sound.quiet (List.append_nil _).symm (by simp) ?_ rfl rfl rfl
      intro other item found
      rw [Dict.get?_erase] at found
      split at found
      · cases found
      · exact found
    exact popped.cancelFuture requestId

theorem Sound.finishWait (sound : Sound canonicalize lower broker) (call requestId : Nat)
    {events : List (Event X)} (silent : ∀ event ∈ events, event.isQuiet broker) :
    Sound canonicalize lower (broker.finishWait call requestId events) := by
  refine sound.quiet rfl silent ?_ rfl rfl rfl
  intro other item found
  have found : (broker.pending.erase requestId).get? other = some item := found
  rw [Dict.get?_erase] at found
  split at found
  · cases found
  · exact found

theorem Sound.wake (sound : Sound canonicalize lower broker) (call : Nat) :
    Sound canonicalize lower (broker.wake call) := by
  unfold Broker.wake
  split
  · split
    · exact sound
    · rename_i future
      exact sound.finishWait _ _ (by simpa [Event.isQuiet] using future)
    · exact sound.finishWait _ _ (by simp)
  · exact sound.finishWait _ _ (by simp)
  all_goals exact sound

theorem Sound.setWait (sound : Sound canonicalize lower broker) (wait : Nat → Wait) :
    Sound canonicalize lower { broker with wait := wait } :=
  sound.quiet (List.append_nil _).symm (by simp) (fun _ _ found => found) rfl rfl rfl

theorem Sound.openRequest (sound : Sound canonicalize lower broker) {sessionKey taskId toolUseId : Text}
    {payload : Payload X}
    {next : Broker X} (opens : broker.openRequest canonicalize sessionKey taskId toolUseId payload = .ok next) :
    Sound canonicalize lower next := by
  unfold Broker.openRequest at opens
  split at opens
  · cases opens
  · split at opens
    · cases opens
    · split at opens
      · cases opens
      · rw [Except.ok.injEq] at opens
        subst opens
        have old : ∀ id key payload', Event.opened id key payload' ∈ broker.log → id ≠ broker.drawn :=
          fun id key payload' mem => Nat.ne_of_lt (sound.older id key payload' mem)
        refine ⟨fun id item found => ?_, fun id item found => ?_, fun id key payload' mem => ?_,
          fun id key payload' key' payload'' mem member' => ?_, fun id answers is => ?_,
          fun id sessionKey' fields replayed mem => ?_, fun call id answers mem => ?_,
              fun id mem => ?_, ?_⟩
        · have found : (broker.pending.set broker.drawn _).get? id = some item := found
          rw [Dict.get?_set] at found
          split at found
          · rename_i own
            rw [Option.some.injEq] at found
            rw [← found, own]
            exact List.mem_append_right _ (List.mem_singleton_self _)
          · exact List.mem_append_left _ (sound.pendings id item found)
        · obtain ⟨opened, is⟩ := sound.completeds id item found
          exact ⟨List.mem_append_left _ opened, is⟩
        · obtain before | new := List.mem_append.1 mem
          · exact Nat.lt_succ_of_lt (sound.older id key payload' before)
          · simp only [List.mem_singleton, Event.opened.injEq] at new
            exact Nat.lt_succ_of_le (Nat.le_of_eq new.1)
        · obtain before | new := List.mem_append.1 mem
          · obtain before' | new' := List.mem_append.1 member'
            · exact sound.unique id key payload' key' payload'' before before'
            · simp only [List.mem_singleton, Event.opened.injEq] at new'
              exact absurd new'.1 (old id key payload' before)
          · simp only [List.mem_singleton, Event.opened.injEq] at new
            obtain before' | new' := List.mem_append.1 member'
            · exact absurd new.1 (old id key' payload'' before')
            · simp only [List.mem_singleton, Event.opened.injEq] at new'
              exact ⟨new.2.1.trans new'.2.1.symm, new.2.2.trans new'.2.2.symm⟩
        · obtain ⟨key, payload', sessionKey', fields, opened, resolved, accepts⟩ := sound.answered id answers is
          exact ⟨key, payload', sessionKey', fields, List.mem_append_left _ opened,
              List.mem_append_left _ resolved, accepts⟩
        · obtain ⟨key, payload', answers, opened, accepts, is⟩ :=
            sound.succeeded id sessionKey' fields replayed (by simpa using mem)
          exact ⟨key, payload', answers, List.mem_append_left _ opened, accepts, is⟩
        · exact sound.received call id answers (by simpa using mem)
        · exact sound.cancelled id (by simpa using mem)
        · rw [List.pairwise_append]
          refine ⟨sound.settles, List.pairwise_singleton _ _, fun earlier _ later mem => ?_⟩
          rintro id - sessionKey' fields rfl
          simp at mem

theorem get?_of_dropOldest {ν : Type} {table : Dict Nat ν} {count id : Nat} {found : ν}
    (is : (table.dropOldest count).get? id = some found) : table.get? id = some found :=
  (Dict.get?_eq_some_iff ..).2 (List.mem_of_mem_drop ((Dict.get?_eq_some_iff ..).1 is))

theorem get?_complete {completed : Dict Nat (CompletedUserInput X)} {requestId id : Nat}
    {entry found : CompletedUserInput X} (is : (complete completed requestId entry).get? id = some found) :
    (id = requestId ∧ found = entry) ∨ completed.get? id = some found := by
  have kept : ((completed.erase requestId).set requestId entry).get? id = some found := get?_of_dropOldest is
  rw [Dict.get?_set] at kept
  split at kept
  · rename_i own
    exact .inl ⟨own, (Option.some.inj kept).symm⟩
  · rename_i apart
    rw [Dict.get?_erase, if_neg apart] at kept
    exact .inr kept

theorem Sound.replay (sound : Sound canonicalize lower broker) {sessionKey : Text} {requestId : Nat}
    {fields : Dict Text Value}
    {key : Text} {payload : Payload X} {answers : Answers} (opened : .opened requestId key payload ∈ broker.log)
    (accepts : Accepts canonicalize lower key payload sessionKey fields answers)
    (is : broker.future requestId = .answered answers) : Sound canonicalize lower
      { broker with log := broker.log ++ [.resolved requestId sessionKey fields (.ok true)] } := by
  refine ⟨fun id item found => List.mem_append_left _ (sound.pendings id item found), fun id item found => ?_,
    fun id key' payload' mem => ?_, fun id key' payload' key'' payload'' mem member' => ?_,
        fun id answers' is' => ?_,
    fun id sessionKey' fields' replayed mem => ?_, fun call id answers' mem => ?_, fun id mem => ?_, ?_⟩
  · obtain ⟨opened', is'⟩ := sound.completeds id item found
    exact ⟨List.mem_append_left _ opened', is'⟩
  · exact sound.older id key' payload' (by simpa using mem)
  · exact sound.unique id key' payload' key'' payload'' (by simpa using mem) (by simpa using member')
  · obtain ⟨key', payload', sessionKey', fields', opened', resolved, accepts'⟩ := sound.answered id answers' is'
    exact ⟨key', payload', sessionKey', fields', List.mem_append_left _ opened',
        List.mem_append_left _ resolved, accepts'⟩
  · obtain before | new := List.mem_append.1 mem
    · obtain ⟨key', payload', answers', opened', accepts', is'⟩ :=
        sound.succeeded id sessionKey' fields' replayed before
      exact ⟨key', payload', answers', List.mem_append_left _ opened', accepts', is'⟩
    · simp only [List.mem_singleton, Event.resolved.injEq] at new
      obtain ⟨rfl, rfl, rfl, -⟩ := new
      exact ⟨key, payload, answers, List.mem_append_left _ opened, accepts, is⟩
  · exact sound.received call id answers' (by simpa using mem)
  · exact sound.cancelled id (by simpa using mem)
  · rw [List.pairwise_append]
    refine ⟨sound.settles, List.pairwise_singleton _ _, fun earlier _ later mem => ?_⟩
    rintro id - sessionKey' fields' rfl
    simp at mem

theorem Sound.answer (sound : Sound canonicalize lower broker) {sessionKey : Text} {requestId : Nat}
    {fields : Dict Text Value}
    {pending : PendingUserInput X} {answers : Answers} (found : broker.pending.get? requestId = some pending)
    (open_ : broker.future requestId = .pending)
    (accepts : Accepts canonicalize lower pending.sessionKey pending.payload sessionKey fields answers) :
    Sound canonicalize lower { broker with
      future := Function.update broker.future requestId (.answered answers)
      completed := complete broker.completed requestId ⟨canonicalize sessionKey, pending.payload, answers⟩
      log := broker.log ++ [.resolved requestId sessionKey fields (.ok false)] } := by
  have opened := sound.pendings requestId pending found
  have other : ∀ {id future}, broker.future id = future → future ≠ .pending →
      Function.update broker.future requestId (.answered answers) id = future := by
    intro id future is done
    have apart : id ≠ requestId := by
      rintro rfl
      exact done (is.symm.trans open_)
    rwa [Function.update_of_ne apart]
  refine ⟨fun id item found => List.mem_append_left _ (sound.pendings id item found), fun id item found => ?_,
    fun id key payload mem => ?_, fun id key payload key' payload' mem member' => ?_,
        fun id answers' is => ?_,
    fun id sessionKey' fields' replayed mem => ?_, fun call id answers' mem => ?_, fun id mem => ?_, ?_⟩
  · obtain ⟨rfl, rfl⟩ | before := get?_complete found
    · rw [show canonicalize sessionKey = pending.sessionKey from accepts.1]
      exact ⟨List.mem_append_left _ opened, Function.update_self ..⟩
    · obtain ⟨opened', is⟩ := sound.completeds id item before
      exact ⟨List.mem_append_left _ opened', other is (by simp)⟩
  · exact sound.older id key payload (by simpa using mem)
  · exact sound.unique id key payload key' payload' (by simpa using mem) (by simpa using member')
  · have is : Function.update broker.future requestId (.answered answers) id = .answered answers' := is
    by_cases own : id = requestId
    · subst own
      rw [Function.update_self, Future.answered.injEq] at is
      subst is
      exact ⟨_, _, _, _, List.mem_append_left _ opened, List.mem_append_right _ (List.mem_singleton_self _),
          accepts⟩
    · rw [Function.update_of_ne own] at is
      obtain ⟨key, payload, sessionKey', fields', opened', resolved, accepts'⟩ := sound.answered id answers' is
      exact ⟨key, payload, sessionKey', fields', List.mem_append_left _ opened',
          List.mem_append_left _ resolved, accepts'⟩
  · obtain before | new := List.mem_append.1 mem
    · obtain ⟨key, payload, answers', opened', accepts', is⟩ :=
        sound.succeeded id sessionKey' fields' replayed before
      exact ⟨key, payload, answers', List.mem_append_left _ opened', accepts', other is (by simp)⟩
    · simp only [List.mem_singleton, Event.resolved.injEq] at new
      obtain ⟨rfl, rfl, rfl, -⟩ := new
      exact ⟨_, _, answers, List.mem_append_left _ opened, accepts, Function.update_self ..⟩
  · exact other (sound.received call id answers' (by simpa using mem)) (by simp)
  · exact other (sound.cancelled id (by simpa using mem)) (by simp)
  · rw [List.pairwise_append]
    refine ⟨sound.settles, List.pairwise_singleton _ _, fun earlier before later mem => ?_⟩
    intro id settled sessionKey' fields' is
    rw [is] at mem
    simp only [List.mem_singleton, Event.resolved.injEq] at mem
    obtain ⟨rfl, -, -, -⟩ := mem
    -- the future was not done, so nothing settled the request before
    obtain rfl | ⟨sessionKey'', fields'', rfl⟩ := settled
    · rw [sound.cancelled id before] at open_
      cases open_
    · obtain ⟨-, -, answers', -, -, done⟩ := sound.succeeded id sessionKey'' fields'' false before
      rw [done] at open_
      cases open_

theorem Sound.resolve (sound : Sound canonicalize lower broker) (sessionKey : Text) (requestId : Nat)
    (fields : Dict Text Value) :
    Sound canonicalize lower (broker.step canonicalize lower (.resolve sessionKey requestId fields)) := by
  have spec := @resolve_spec X canonicalize lower broker sessionKey requestId fields
  show Sound canonicalize lower
    { (broker.resolve canonicalize lower sessionKey requestId fields).2 with
      log := (broker.resolve canonicalize lower sessionKey requestId fields).2.log ++
        [.resolved requestId sessionKey fields
          (broker.resolve canonicalize lower sessionKey requestId fields).1] }
  generalize broker.resolve canonicalize lower sessionKey requestId fields = result at spec
  cases spec with
  | refused error => exact sound.quiet rfl (by simp [Event.isQuiet]) (fun _ _ found => found) rfl rfl rfl
  | struck strikes => exact sound.quiet rfl (by simp [Event.isQuiet]) (fun _ _ found => found) rfl rfl rfl
  | replayed registered accepts =>
    obtain ⟨completed, known, rfl⟩ | ⟨⟨pending, found, rfl, rfl⟩, is⟩ := registered
    · obtain ⟨opened, is⟩ := sound.completeds requestId _ known
      exact sound.replay opened accepts is
    · exact sound.replay (sound.pendings requestId pending found) accepts is
  | answered found open_ accepts => exact sound.answer found open_ accepts

theorem Sound.step (sound : Sound canonicalize lower broker) (input : Input X) :
    Sound canonicalize lower (broker.step canonicalize lower input) := by
  cases input with
  | openRequest sessionKey taskId toolUseId payload =>
    unfold Broker.step
    dsimp only
    split
    · exact sound
    · rename_i next opens
      exact sound.openRequest opens
  | waitForResponse call requestId =>
    show Sound canonicalize lower (broker.waitForResponse call requestId)
    unfold Broker.waitForResponse
    split
    · split
      · exact sound.setWait _
      · exact (sound.setWait _).wake call
    · exact sound
  | wake call => exact sound.wake call
  | cancelWait call =>
    show Sound canonicalize lower (broker.cancelWait call)
    unfold Broker.cancelWait
    split
    · split
      · exact sound.cancelFuture _
      · exact sound.setWait _
    · exact sound.setWait _
    all_goals exact sound
  | resolve sessionKey requestId fields => exact sound.resolve sessionKey requestId fields
  | cancelRequest requestId => exact sound.cancelRequest requestId
  | cancelTask taskId =>
    show Sound canonicalize lower (broker.cancelTask taskId)
    unfold Broker.cancelTask
    dsimp only
    generalize (broker.pending.entries.filter fun entry => entry.2.taskId = taskId).map Prod.fst = requestIds
    induction requestIds generalizing broker with
    | nil => exact sound
    | cons requestId rest ih => exact ih (sound.cancelRequest requestId)

theorem strikes_iff (broker : Broker X) (sessionKey : Text) (requestId : Nat) (fields : Dict Text Value) :
    (broker.resolve canonicalize lower sessionKey requestId fields).1 = .error .cancelledError ↔
      Strikes canonicalize lower broker sessionKey requestId fields := by
  constructor
  · intro raised
    have spec := @resolve_spec X canonicalize lower broker sessionKey requestId fields
    generalize broker.resolve canonicalize lower sessionKey requestId fields = result at spec raised
    cases spec with
    | struck strikes => exact strikes
    | _ => cases raised
  · rintro ⟨known, future, pending, answers, found, own, valid⟩
    simp [Broker.resolve, known, found, own, valid, future]

-- The calls of `resolve` that came to nothing but `CancelledError`.
def strays (log : List (Event X)) : List Nat :=
  log.filterMap fun event =>
    match event with
    | .resolved requestId _ _ (.error .cancelledError) => some requestId
    | _ => none

@[simp] theorem strays_append (log more : List (Event X)) : strays (log ++ more) = strays log ++
  strays more := by
  simp [strays]

@[simp] theorem strays_cancelFuture (requestId : Nat) : strays (broker.cancelFuture requestId).log =
  strays broker.log := by
  unfold Broker.cancelFuture
  split <;> simp [strays]

@[simp] theorem strays_cancelRequest (requestId : Nat) : strays (broker.cancelRequest requestId).log =
  strays broker.log := by
  unfold Broker.cancelRequest
  split <;> simp

@[simp] theorem strays_wake (call : Nat) : strays (broker.wake call).log = strays broker.log := by
  unfold Broker.wake
  repeat' split
  all_goals simp [Broker.finishWait, strays]

theorem log_resolve (sessionKey : Text) (requestId : Nat) (fields : Dict Text Value) :
    (broker.resolve canonicalize lower sessionKey requestId fields).2.log = broker.log := by
  have spec := @resolve_spec X canonicalize lower broker sessionKey requestId fields
  generalize broker.resolve canonicalize lower sessionKey requestId fields = result at spec
  cases spec <;> rfl

theorem strays_step (broker : Broker X) (input : Input X) :
    (strays (broker.step canonicalize lower input).log = strays broker.log ∧
      ∀ sessionKey requestId fields, input = .resolve sessionKey requestId fields →
        ¬Strikes canonicalize lower broker sessionKey requestId fields) ∨
    ∃ sessionKey requestId fields, input = .resolve sessionKey requestId fields ∧
      Strikes canonicalize lower broker sessionKey requestId fields ∧
      strays (broker.step canonicalize lower input).log = strays broker.log ++ [requestId] := by
  cases input with
  | openRequest sessionKey taskId toolUseId payload =>
    refine .inl ⟨?_, by simp⟩
    unfold Broker.step
    dsimp only
    split
    · rfl
    · rename_i next opens
      unfold Broker.openRequest at opens
      repeat' split at opens
      all_goals cases opens
      simp [strays]
  | waitForResponse call requestId =>
    refine .inl ⟨?_, by simp⟩
    show strays (broker.waitForResponse call requestId).log = _
    unfold Broker.waitForResponse
    repeat' split
    all_goals simp
  | wake call => exact .inl ⟨strays_wake call, by simp⟩
  | cancelWait call =>
    refine .inl ⟨?_, by simp⟩
    show strays (broker.cancelWait call).log = _
    unfold Broker.cancelWait
    repeat' split
    all_goals simp
  | cancelRequest requestId => exact .inl ⟨strays_cancelRequest requestId, by simp⟩
  | cancelTask taskId =>
    refine .inl ⟨?_, by simp⟩
    show strays (broker.cancelTask taskId).log = _
    unfold Broker.cancelTask
    dsimp only
    generalize (broker.pending.entries.filter fun entry => entry.2.taskId = taskId).map Prod.fst = requestIds
    induction requestIds generalizing broker with
    | nil => rfl
    | cons requestId rest ih =>
        exact (ih (broker.cancelRequest requestId)).trans (strays_cancelRequest requestId)
  | resolve sessionKey requestId fields =>
    have logged : (broker.step canonicalize lower (.resolve sessionKey requestId fields)).log =
        broker.log ++
          [.resolved requestId sessionKey fields
            (broker.resolve canonicalize lower sessionKey requestId fields).1] :=
      congrArg (· ++ _) (log_resolve sessionKey requestId fields)
    by_cases strikes : Strikes canonicalize lower broker sessionKey requestId fields
    · refine .inr ⟨sessionKey, requestId, fields, rfl, strikes, ?_⟩
      rw [logged, (strikes_iff ..).2 strikes]
      simp [strays]
    · refine .inl ⟨?_, ?_⟩
      · have other := mt (strikes_iff ..).1 strikes
        rw [logged, strays_append]
        generalize (broker.resolve canonicalize lower sessionKey requestId fields).1 = outcome at other
        cases outcome with
        | ok replayed => simp [strays]
        | error raised =>
          cases raised with
          | request error => simp [strays]
          | cancelledError => exact absurd rfl other
      · rintro sessionKey' requestId' fields' ⟨⟩
        exact strikes

theorem strays_run (broker : Broker X) (inputs : List (Input X)) :
    ∃ more, strays (run (Broker.step canonicalize lower) broker inputs).log = strays broker.log ++ more ∧
      (more = [] ↔ Along (Broker.step canonicalize lower) (fun broker input => ∀ sessionKey requestId fields,
        input = .resolve sessionKey requestId fields →
          ¬Strikes canonicalize lower broker sessionKey requestId fields) broker inputs) := by
  induction inputs generalizing broker with
  | nil => exact ⟨[], by simp, by simp [Along]⟩
  | cons input rest ih =>
    obtain ⟨more, later, along⟩ := ih (broker.step canonicalize lower input)
    obtain ⟨same, clear⟩ | ⟨sessionKey, requestId, fields, rfl, strikes, stray⟩ := strays_step broker input
    · refine ⟨more, by rw [run_cons, later, same], ?_⟩
      rw [along, Along]
      exact ⟨fun rest => ⟨clear, rest⟩, And.right⟩
    · refine ⟨requestId :: more, by rw [run_cons, later, stray, List.append_assoc]; rfl, ?_⟩
      simp only [Along, reduceCtorEq, false_iff, not_and]
      exact fun clear => absurd strikes (clear _ _ _ rfl)

theorem sound_run (inputs : List (Input X)) :
    Sound canonicalize lower (run (Broker.step canonicalize lower) (.start : Broker X) inputs) :=
  run_invariant (Sound canonicalize lower) (fun _ input sound => sound.step input) sound_start inputs

theorem mem_strays {log : List (Event X)} {requestId : Nat} : requestId ∈ strays log ↔ ∃ sessionKey fields,
      .resolved requestId sessionKey fields (.error .cancelledError) ∈ log := by
  constructor
  · intro mem
    obtain ⟨event, logged, is⟩ := List.mem_filterMap.1 mem
    split at is
    · rename_i id sessionKey fields
      rw [Option.some.injEq] at is
      rw [← is]
      exact ⟨sessionKey, fields, logged⟩
    · cases is
  · rintro ⟨sessionKey, fields, logged⟩
    exact List.mem_filterMap.2 ⟨_, logged, rfl⟩

/-- A wait returns what an accepted response gave. What is resolved again accepts the same answers, one question
is settled once, and a refused response leaves everything as it is. -/
structure AnsweredOnce (canonicalize lower : Text → Text) (broker : Broker X) : Prop where
  received : ∀ call requestId answers, .received call requestId answers ∈ broker.log →
    ∃ key payload sessionKey fields, .opened requestId key payload ∈ broker.log ∧
      .resolved requestId sessionKey fields (.ok false) ∈ broker.log ∧
        Accepts canonicalize lower key payload sessionKey fields answers
  resolved : ∀ requestId sessionKey fields replayed sessionKey' fields' replayed',
    .resolved requestId sessionKey fields (.ok replayed) ∈ broker.log →
      .resolved requestId sessionKey' fields' (.ok replayed') ∈ broker.log →
    ∃ key payload answers, .opened requestId key payload ∈ broker.log ∧
      Accepts canonicalize lower key payload sessionKey fields answers ∧
      Accepts canonicalize lower key payload sessionKey' fields' answers
  settled : broker.log.Pairwise Settles
  refused : ∀ sessionKey requestId fields raised,
    (broker.resolve canonicalize lower sessionKey requestId fields).1 = .error raised →
    (broker.resolve canonicalize lower sessionKey requestId fields).2 = broker

-- No response ends in the error of a cancelled future.
def Uncancelled (broker : Broker X) : Prop :=
  ∀ requestId sessionKey fields outcome, .resolved requestId sessionKey fields outcome ∈ broker.log →
    outcome ≠ .error .cancelledError

theorem answered_at_most_once (canonicalize lower : Text → Text) (inputs : List (Input X)) :
    let broker := run (Broker.step canonicalize lower) .start inputs
    AnsweredOnce canonicalize lower broker ∧
    (Uncancelled broker ↔
      Along (Broker.step canonicalize lower) (fun broker input => ∀ sessionKey requestId fields,
        input = .resolve sessionKey requestId fields →
          ¬Strikes canonicalize lower broker sessionKey requestId fields) .start inputs) := by
  intro broker
  have sound : Sound canonicalize lower broker := sound_run inputs
  refine ⟨⟨fun call requestId answers mem => sound.answered requestId answers
      (sound.received call requestId answers mem), ?_,
    sound.settles, ?_⟩, ?_⟩
  · intro requestId sessionKey fields replayed sessionKey' fields' replayed' mem member'
    obtain ⟨key, payload, answers, opened, accepts, is⟩ :=
      sound.succeeded requestId sessionKey fields replayed mem
    obtain ⟨key', payload', answers', opened', accepts', is'⟩ :=
      sound.succeeded requestId sessionKey' fields' replayed' member'
    obtain ⟨rfl, rfl⟩ := sound.unique requestId key payload key' payload' opened opened'
    obtain rfl : answers = answers' := by simpa [is] using is'
    exact ⟨key, payload, answers, opened, accepts, accepts'⟩
  · intro sessionKey requestId fields raised is
    have spec := @resolve_spec X canonicalize lower broker sessionKey requestId fields
    generalize broker.resolve canonicalize lower sessionKey requestId fields = result at spec is
    cases spec with
    | answered found open_ accepts => cases is
    | _ => rfl
  · obtain ⟨more, all, along⟩ := @strays_run X canonicalize lower .start inputs
    rw [← along]
    have nothing : more = strays broker.log :=
      (all.trans (show strays (Broker.start : Broker X).log ++ more = more from rfl)).symm
    rw [nothing, List.eq_nil_iff_forall_not_mem]
    constructor
    · intro clean requestId mem
      obtain ⟨sessionKey, fields, logged⟩ := mem_strays.1 mem
      exact clean requestId sessionKey fields _ logged rfl
    · rintro empty requestId sessionKey fields outcome logged rfl
      exact empty requestId (mem_strays.2 ⟨sessionKey, fields, logged⟩)

/-- The task that waits is cancelled, and the answer comes before it takes its next step. -/
def cancelledBefore : List (Input Unit) :=
  [.openRequest "agent".toList "task".toList "tool".toList
      ⟨some ⟨some [some ⟨"scope".toList, "string".toList, true, [], false⟩]⟩, ()⟩,
    .waitForResponse 0 0, .cancelWait 0,
      .resolve "agent".toList 0 (Dict.ofList [("scope".toList, .text "Core".toList)])]

theorem answer_meets_cancelled_future : ¬Uncancelled (run (Broker.step id id) .start cancelledBefore) := by
  intro all
  refine all 0 "agent".toList (Dict.ofList [("scope".toList, .text "Core".toList)])
      (.error .cancelledError) ?_ rfl
  have last : (run (Broker.step id id) .start cancelledBefore).log.getLast? =
      some (.resolved 0 "agent".toList (Dict.ofList [("scope".toList, .text "Core".toList)])
        (.error .cancelledError)) := by
    rfl
  exact List.mem_of_getLast? last

end OpenSquilla.UserInputs
