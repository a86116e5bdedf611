import OpenSquilla.Cooldowns.Endings

set_option autoImplicit false

namespace OpenSquilla.Cooldowns

open Runs

variable {D : Type}

-- A hint that was recorded at a time asks for more than that.
def Outlasts (time : Rat) (hint : Hint) (now : Rat) : Prop :=
  match hint with
  | .finite seconds => now < time + seconds
  | .infinity => True
  | .negativeInfinity | .nan | .unreadable => False

-- A wait does not end while a hint recorded before for its account asks for more.
def HonoursAll (earlier later : Event D) : Prop :=
  ∀ account time hint call now, earlier = .recorded account time hint → later = .ended call account now →
    ¬Outlasts time hint now

def Honours (earlier later : Event D) : Prop :=
  ∀ account time hint call now, earlier = .recorded account time hint → later = .ended call account now →
    hint ≠ .infinity → ¬Outlasts time hint now

theorem not_outlasts {time now : Rat} {hint : Hint} (past : time ≤ now) (finite : hint ≠ .infinity)
    (until_ : ∀ bound, untilOf time hint = some bound → bound ≤ now) : ¬Outlasts time hint now := by
  cases hint with
  | finite seconds =>
    show ¬now < time + seconds
    by_cases positive : 0 < seconds
    · have bound := until_ (time + seconds) (by simp [untilOf, positiveHint, positive, ne_of_gt positive])
      exact not_lt.2 bound
    · linarith
  | infinity => exact absurd rfl finite
  | _ => exact not_false

theorem resolve_some {remaining maximum delay : Rat} (positive : 0 < remaining)
    (resolved : resolveRetryDelaySeconds 0 (.finite remaining) maximum = some delay) :
    delay = remaining ∧ remaining ≤ maximum := by
  simp only [resolveRetryDelaySeconds, positiveHint, positive, if_true] at resolved
  split at resolved
  · cases resolved
  · rename_i within
    rw [not_lt] at within
    rw [Option.some.injEq] at resolved
    refine ⟨?_, within⟩
    rw [← resolved, max_self, max_eq_right (le_of_lt positive), min_eq_left within]

theorem resolve_none {remaining maximum : Rat} (positive : 0 < remaining)
    (refused : resolveRetryDelaySeconds 0 (.finite remaining) maximum = none) : maximum < remaining := by
  simp only [resolveRetryDelaySeconds, positiveHint, positive, if_true] at refused
  split at refused
  · assumption
  · cases refused

def Phase.startedAt : Phase → Option Rat
  | .waking started | .asking started _ | .sleeping started => some started
  | _ => none

def Within (wait : Wait D) (started now delay : Rat) : Prop :=
  0 < delay ∧ now + delay ≤ started + wait.maximum ∧ ∀ deadline, wait.deadline = some deadline →
    now + delay < deadline

def Refused (wait : Wait D) (started now remaining : Rat) : DeferralReason → Prop
  | .deadline => 0 < remaining ∧ ∃ deadline, wait.deadline = some deadline ∧ deadline ≤ now + remaining
  | .waitCeiling => 0 < remaining ∧ started + wait.maximum < now + remaining

section Waits

structure Waited (waits : Dict Nat (Wait D)) (log : List (Event D)) : Prop where
  honours : log.Pairwise Honours
  registered : ∀ call time, .began call time ∈ log → ∃ wait, waits.get? call = some wait ∧ wait.phase ≠ .starting
  once : ∀ call time other, .began call time ∈ log → .began call other ∈ log → time = other
  started : ∀ call wait time, waits.get? call = some wait → wait.phase.startedAt = some time →
    .began call time ∈ log
  yields : ∀ call time now delay, .yielded call time now delay ∈ log →
    .began call time ∈ log ∧ ∃ wait, waits.get? call = some wait ∧ Within wait time now delay
  refuses : ∀ call time now remaining why, .refused call time now remaining why ∈ log →
    .began call time ∈ log ∧ ∃ wait, waits.get? call = some wait ∧ Refused wait time now remaining why
  returned : ∀ call wait, waits.get? call = some wait → wait.phase = .returned →
    ∃ time, .ended call (accountOf wait.scope wait.provider) time ∈ log

theorem waited_start : Waited (World.start : World D).waits (World.start : World D).log := by
  refine ⟨List.Pairwise.nil, ?_, ?_, ?_, ?_, ?_, ?_⟩ <;> simp [World.start]

variable {waits : Dict Nat (Wait D)} {log : List (Event D)}

theorem Waited.recorded (waited : Waited waits log) (account : Account D) (time : Rat) (hint : Hint) :
    Waited waits (log ++ [.recorded account time hint]) := by
  obtain ⟨honours, registered, once, started, yields, refuses, returned⟩ := waited
  have quiet : ∀ earlier ∈ log, ∀ later ∈ [Event.recorded account time hint], Honours earlier later := by
    intro earlier _ later mem account' time' hint' call now _ ends
    rw [List.mem_singleton.1 mem] at ends
    cases ends
  refine ⟨List.pairwise_append.2 ⟨honours, List.pairwise_singleton _ _, quiet⟩, ?_, ?_, ?_, ?_, ?_, ?_⟩
  · simpa using registered
  · simpa using once
  · simpa using started
  · simpa using yields
  · simpa using refuses
  · simpa using returned

theorem Waited.begins (waited : Waited waits log) {call : Nat} (unknown : waits.get? call = none) (wait : Wait D)
    (phase : wait.phase = .starting) : Waited (waits.set call wait) log := by
  have known : ∀ other, (∃ wait, waits.get? other = some wait) → other ≠ call := by
    rintro other ⟨wait, found⟩ rfl
    rw [unknown] at found
    cases found
  have kept : ∀ other found, waits.get? other = some found → (waits.set call wait).get? other = some found := by
    intro other found is
    simp [known other ⟨found, is⟩, is]
  have older : ∀ other found, (waits.set call wait).get? other = some found → found.phase ≠ .starting →
      waits.get? other = some found := by
    intro other found is begun
    rw [Dict.get?_set] at is
    by_cases own : other = call
    · rw [if_pos own, Option.some.injEq] at is
      rw [← is] at begun
      exact absurd phase begun
    · rwa [if_neg own] at is
  obtain ⟨honours, registered, once, started, yields, refuses, returned⟩ := waited
  refine ⟨honours, fun other time mem => ?_, once, fun other found time is begun => ?_,
      fun other time now delay mem => ?_,
    fun other time now remaining why mem => ?_, fun other found is expired => ?_⟩
  · obtain ⟨found, is, begun⟩ := registered other time mem
    exact ⟨found, kept _ _ is, begun⟩
  · refine started other found time (older other found is ?_) begun
    intro starting
    rw [starting] at begun
    cases begun
  · obtain ⟨began, found, is, within⟩ := yields other time now delay mem
    exact ⟨began, found, kept _ _ is, within⟩
  · obtain ⟨began, found, is, refused⟩ := refuses other time now remaining why mem
    exact ⟨began, found, kept _ _ is, refused⟩
  · refine returned other found (older other found is ?_) expired
    simp [expired]

theorem Waited.goTo (waited : Waited waits log) {call : Nat} {wait : Wait D}
    (found : waits.get? call = some wait) {phase : Phase}
    {events : List (Event D)} (begun : phase ≠ .starting) (single : events.Pairwise Honours)
    (honours : ∀ earlier ∈ log, ∀ later ∈ events, Honours earlier later)
    (began : ∀ other time, .began other time ∈ events → other = call ∧ wait.phase = .starting ∧ ∀ other',
      .began call other' ∈ events → time = other')
    (started : ∀ time, phase.startedAt = some time → .began call time ∈ log ++ events)
    (yields : ∀ other time now delay, .yielded other time now delay ∈ events →
      other = call ∧ .began call time ∈ log ∧ Within wait time now delay)
    (refuses : ∀ other time now remaining why, .refused other time now remaining why ∈ events →
      other = call ∧ .began call time ∈ log ∧ Refused wait time now remaining why)
    (returned : phase = .returned → ∃ time, .ended call (accountOf wait.scope wait.provider) time ∈ events) :
    Waited (waits.set call { wait with phase := phase }) (log ++ events) := by
  have moved : ∀ other earlier, waits.get? other = some earlier →
      ∃ later, (waits.set call { wait with phase := phase }).get? other = some later ∧
        later.maximum = earlier.maximum ∧
        later.deadline = earlier.deadline ∧ (earlier.phase ≠ .starting → later.phase ≠ .starting) := by
    intro other earlier is
    rw [Dict.get?_set]
    by_cases own : other = call
    · subst own
      rw [found, Option.some.injEq] at is
      exact ⟨_, if_pos rfl, by rw [← is], by rw [← is], fun _ => begun⟩
    · exact ⟨earlier, by rw [if_neg own, is], rfl, rfl, fun kept => kept⟩
  have unbegun : ∀ time, .began call time ∈ log → wait.phase ≠ .starting := by
    intro time mem
    obtain ⟨known, is, phase⟩ := waited.registered call time mem
    rw [found, Option.some.injEq] at is
    rwa [is]
  refine ⟨List.pairwise_append.2 ⟨waited.honours, single, honours⟩, fun other time mem => ?_,
      fun other time time' mem member' => ?_,
    fun other later time is begun' => ?_, fun other time now delay mem => ?_,
        fun other time now remaining why mem => ?_,
    fun other later is expired => ?_⟩
  · obtain before | now := List.mem_append.1 mem
    · obtain ⟨earlier, is, phase'⟩ := waited.registered other time before
      obtain ⟨later, is', -, -, kept⟩ := moved other earlier is
      exact ⟨later, is', kept phase'⟩
    · obtain ⟨rfl, -⟩ := began other time now
      obtain ⟨later, is', -⟩ := moved other wait found
      refine ⟨later, is', ?_⟩
      rw [Dict.get?_set, if_pos rfl, Option.some.injEq] at is'
      rw [← is']
      exact begun
  · obtain before | now := List.mem_append.1 mem
    · obtain before' | now' := List.mem_append.1 member'
      · exact waited.once other time time' before before'
      · obtain ⟨rfl, phase', -⟩ := began other time' now'
        exact absurd phase' (unbegun time before)
    · obtain ⟨rfl, phase', only⟩ := began other time now
      obtain before' | now' := List.mem_append.1 member'
      · exact absurd phase' (unbegun time' before')
      · exact only time' now'
  · rw [Dict.get?_set] at is
    by_cases own : other = call
    · rw [if_pos own, Option.some.injEq] at is
      rw [← is] at begun'
      rw [own]
      exact started time begun'
    · rw [if_neg own] at is
      exact List.mem_append_left _ (waited.started other later time is begun')
  · obtain before | new := List.mem_append.1 mem
    · obtain ⟨began', earlier, is, within⟩ := waited.yields other time now delay before
      obtain ⟨later, is', maximum, deadline, -⟩ := moved other earlier is
      refine ⟨List.mem_append_left _ began', later, is', ?_⟩
      rwa [Within, maximum, deadline]
    · obtain ⟨rfl, began', within⟩ := yields other time now delay new
      exact ⟨List.mem_append_left _ began', { wait with phase := phase }, by simp, within⟩
  · obtain before | new := List.mem_append.1 mem
    · obtain ⟨began', earlier, is, refused⟩ := waited.refuses other time now remaining why before
      obtain ⟨later, is', maximum, deadline, -⟩ := moved other earlier is
      refine ⟨List.mem_append_left _ began', later, is', ?_⟩
      cases why with
      | deadline => rwa [Refused, deadline]
      | waitCeiling => rwa [Refused, maximum]
    · obtain ⟨rfl, began', refused⟩ := refuses other time now remaining why new
      refine ⟨List.mem_append_left _ began', { wait with phase := phase }, by simp, ?_⟩
      cases why <;> exact refused
  · rw [Dict.get?_set] at is
    by_cases own : other = call
    · rw [if_pos own, Option.some.injEq] at is
      rw [← is] at expired ⊢
      obtain ⟨time, mem⟩ := returned expired
      rw [own]
      exact ⟨time, List.mem_append_right _ mem⟩
    · rw [if_neg own] at is
      obtain ⟨time, mem⟩ := waited.returned other later is expired
      exact ⟨time, List.mem_append_left _ mem⟩

end Waits

section Runs

variable [DecidableEq D] {world : World D}

omit [DecidableEq D] in
theorem Waited.moves (waited : Waited world.waits world.log) {call : Nat} {wait : Wait D}
    (found : world.waits.get? call = some wait)
    {phase : Phase} (begun : phase ≠ .starting) (unended : phase ≠ .returned)
    (started : ∀ time, phase.startedAt = some time → wait.phase.startedAt = some time) :
    Waited (world.goTo call wait phase []).waits (world.goTo call wait phase []).log := by
  refine waited.goTo found begun List.Pairwise.nil (by simp) (by simp) ?_ (by simp) (by simp)
      (fun ended => absurd ended unended)
  intro time is
  rw [List.append_nil]
  exact waited.started call wait time found (started time is)

theorem Waited.look (waited : Waited world.waits world.log) (sound : Sound world) {call : Nat} {wait : Wait D}
    (found : world.waits.get? call = some wait) {started now : Rat}
    (phase : wait.phase = .asking started now) {address : Nat}
    (there : world.objects.get? address = some wait.provider) :
    Waited (world.look call wait address started now).waits (world.look call wait address started now).log := by
  have began : .began call started ∈ world.log := waited.started call wait started found (by rw [phase]; rfl)
  have still : ∀ time, some started = some time → .began call time ∈ world.log := by
    intro time same
    rwa [← Option.some.inj same]
  have silent : ∀ event : Event D, (∀ other account time, event ≠ .ended other account time) →
      ∀ earlier ∈ world.log, ∀ later ∈ [event], Honours earlier later := by
    intro event other earlier _ later mem account time hint call' now' _ ends
    rw [List.mem_singleton.1 mem] at ends
    exact absurd ends (other _ _ _)
  unfold World.look
  dsimp only
  rw [sound.remaining there wait.scope (le_refl _)]
  generalize remaining_ : owed (accountOf wait.scope wait.provider) world.log world.clock = remaining
  split
  · -- nothing that was recorded asks for more
    rename_i expired
    refine waited.goTo found (by simp) (List.pairwise_singleton _ _) ?_ (by simp)
        (fun time is => by cases is) (by simp) (by simp)
      (fun _ => ⟨_, List.mem_singleton_self _⟩)
    rintro earlier mem later ends account time hint call' now' rfl rfl finite
    simp only [List.mem_singleton, Event.ended.injEq] at ends
    obtain ⟨-, rfl, rfl⟩ := ends
    refine not_outlasts (sound.past _ _ _ mem) finite fun bound until_ => ?_
    have owes : bound ∈ untils (accountOf wait.scope wait.provider) world.log :=
      List.mem_filterMap.2 ⟨_, mem, by simpa using until_⟩
    have latest := le_foldl_max_of_mem world.clock owes
    rw [owed] at remaining_
    linarith
  · rename_i positive
    rw [not_le] at positive
    split
    · rename_i past
      simp only [Option.any_eq_true, decide_eq_true_eq] at past
      refine waited.goTo found (by simp) (List.pairwise_singleton _ _) (silent _ (by simp)) (by simp)
          (fun time is => by cases is) (by simp)
        ?_ (by simp)
      intro other time now' remaining' why mem
      simp only [List.mem_singleton, Event.refused.injEq] at mem
      obtain ⟨rfl, rfl, rfl, rfl, rfl⟩ := mem
      exact ⟨rfl, began, positive, past⟩
    · rename_i early
      simp only [Option.any_eq_true, decide_eq_true_eq, not_exists, not_and, not_le] at early
      split
      · rename_i refused
        have beyond := resolve_none positive refused
        refine waited.goTo found (by simp) (List.pairwise_singleton _ _) (silent _ (by simp)) (by simp)
            (fun time is => by cases is) (by simp)
          ?_ (by simp)
        intro other time now' remaining' why mem
        simp only [List.mem_singleton, Event.refused.injEq] at mem
        obtain ⟨rfl, rfl, rfl, rfl, rfl⟩ := mem
        refine ⟨rfl, began, positive, ?_⟩
        have ceiling := (le_max_right 0 (time + wait.maximum - now')).trans_lt beyond
        linarith
      · rename_i delay resolved
        obtain ⟨rfl, within⟩ := resolve_some positive resolved
        refine waited.goTo found (by simp) (List.pairwise_singleton _ _) (silent _ (by simp)) (by simp)
          (fun time is => List.mem_append_left _ (still time is)) ?_ (by simp) (by simp)
        intro other time now' delay' mem
        simp only [List.mem_singleton, Event.yielded.injEq] at mem
        obtain ⟨rfl, rfl, rfl, rfl⟩ := mem
        refine ⟨rfl, began, positive, ?_, early⟩
        obtain ceiling | ceiling := le_max_iff.1 within
        · linarith
        · linarith

theorem Waited.advance (waited : Waited world.waits world.log) (sound : Sound world) {call : Nat} {wait : Wait D}
    (found : world.waits.get? call = some wait) {address : Nat}
    (there : world.objects.get? address = some wait.provider) :
    Waited (world.advance call wait address).waits (world.advance call wait address).log := by
  unfold World.advance
  cases phase : wait.phase with
  | starting =>
    refine waited.goTo found (by simp) (List.pairwise_singleton _ _) ?_ ?_ ?_ (by simp) (by simp) (by simp)
    · intro earlier _ later mem account time hint call' now _ ends
      rw [List.mem_singleton.1 mem] at ends
      cases ends
    · intro other time mem
      simp only [List.mem_singleton, Event.began.injEq] at mem
      exact ⟨mem.1, phase, fun other' again => by
        simp only [List.mem_singleton, Event.began.injEq] at again
        rw [mem.2, again.2]⟩
    · intro time is
      rw [← Option.some.inj is]
      exact List.mem_append_right _ (List.mem_singleton_self _)
  | waking started =>
    dsimp only
    split
    · exact waited.moves found (by simp) (by simp) (fun time is => by cases is)
    · exact waited.moves found (by simp) (by simp) (fun time is => by rw [phase]; exact is)
  | asking started now => exact waited.look sound found phase there
  | deferring remaining why => exact waited.moves found (by simp) (by simp) (fun time is => by cases is)
  | sleeping started => exact waited.moves found (by simp) (by simp) (fun time is => by rw [phase]; exact is)
  | _ => exact waited

theorem Waited.step (waited : Waited world.waits world.log) (sound : Sound world) (input : Input D) :
    Waited (world.step input).waits (world.step input).log := by
  cases input with
  | allocate address =>
    unfold World.step
    dsimp only
    split <;> exact waited
  | collect address =>
    unfold World.step
    dsimp only
    split
    · exact waited
    · split <;> exact waited
  | record address hint scope reason reading =>
    unfold World.step
    dsimp only
    split
    · exact waited
    · exact waited.recorded _ _ hint
  | wait call address scope deadline maximum =>
    unfold World.step
    dsimp only
    split
    · exact waited
    · split
      · exact waited
      · rename_i unknown
        exact waited.begins (by simpa using unknown) _ rfl
  | advance call reading =>
    unfold World.step
    dsimp only
    split
    · exact waited
    · rename_i wait found
      split
      · exact waited
      · rename_i address there
        exact @Waited.advance D _ (world.read reading) waited (sound.read reading) call wait found address
            (addressOf_spec there)
  | timeout call =>
    unfold World.step
    dsimp only
    split
    · exact waited
    · rename_i wait found
      split
      · exact waited.moves found (by simp) (by simp) (fun time is => by cases is)
      · exact waited
  | abandon call =>
    unfold World.step
    dsimp only
    split
    · exact waited
    · rename_i wait found
      split
      · exact waited
      · exact waited.moves found (by simp) (by simp) (fun time is => by cases is)

theorem waited_run (inputs : List (Input D)) :
    Waited (run World.step (.start : World D) inputs).waits (run World.step .start inputs).log := by
  have both := run_invariant (fun world : World D => Sound world ∧ Waited world.waits world.log)
    (fun _ input holds => ⟨holds.1.step input, holds.2.step holds.1 input⟩)
      ⟨sound_start, waited_start⟩ inputs
  exact both.2

theorem owed_append_le (account : Account D) (log more : List (Event D)) (now : Rat) :
    owed account log now ≤ owed account (log ++ more) now := by
  rw [owed, owed, untils_append, List.foldl_append]
  exact sub_le_sub_right (le_foldl_max _ _) now

theorem look_within {call address : Nat} {wait : Wait D} {started now : Rat} (sound : Sound world)
    (there : world.objects.get? address = some wait.provider) :
    let remaining := owed (accountOf wait.scope wait.provider) world.log world.clock
    ∃ phase, (world.look call wait address started now).waits.get? call =
        some { wait with phase := phase } ∧
      (remaining ≤ 0 → phase = .returned) ∧
      (Within wait started now remaining → phase = .sleeping started) ∧
      (0 < remaining → ¬Within wait started now remaining → ∃ why, phase = .deferring remaining why) := by
  unfold World.look
  dsimp only
  rw [sound.remaining there wait.scope (le_refl _)]
  generalize owed (accountOf wait.scope wait.provider) world.log world.clock = remaining
  split
  next expired =>
    refine ⟨.returned, by simp [World.goTo], fun _ => rfl, fun within => ?_, fun positive => ?_⟩
    · exact absurd expired (not_le.2 within.1)
    · exact absurd expired (not_le.2 positive)
  next positive =>
    have positive := not_le.1 positive
    split
    next past =>
      simp only [Option.any_eq_true, decide_eq_true_eq] at past
      obtain ⟨deadline, due, past⟩ := past
      refine ⟨.deferring remaining .deadline, by simp [World.goTo], fun expired => ?_, fun within => ?_,
        fun _ _ => ⟨.deadline, rfl⟩⟩
      · exact absurd expired (not_le.2 positive)
      · exact absurd past (not_le.2 (within.2.2 deadline due))
    next early =>
      simp only [Option.any_eq_true, decide_eq_true_eq, not_exists, not_and, not_le] at early
      split
      next refused =>
        have beyond := (le_max_right 0 (started + wait.maximum - now)).trans_lt (resolve_none positive refused)
        refine ⟨.deferring remaining .waitCeiling, by simp [World.goTo], fun expired => ?_,
          fun within => ?_, fun _ _ => ⟨.waitCeiling, rfl⟩⟩
        · exact absurd expired (not_le.2 positive)
        · have reach := within.2.1
          linarith
      next delay resolved =>
        obtain ⟨rfl, ceiling⟩ := resolve_some positive resolved
        refine ⟨.sleeping started, by simp [World.goTo], fun expired => ?_, fun _ => rfl,
          fun _ outside => ?_⟩
        · exact absurd expired (not_le.2 positive)
        · refine absurd ⟨positive, ?_, early⟩ outside
          obtain none | within := le_max_iff.1 ceiling
          · linarith
          · linarith

/-- Hints other than infinity are honoured by every wait, and accounts do not touch each other. A
wait that looks returns, sleeps as long as it may, or is refused; then it raises the deferral, as it
raises the timeout when it wakes behind its deadline or its sleep is cut there. -/
structure HintsHonoured (inputs : List (Input D)) (world : World D) : Prop where
  honours : world.log.Pairwise Honours
  returned : ∀ call wait, world.waits.get? call = some wait → wait.phase = .returned →
    ∃ time, .ended call (accountOf wait.scope wait.provider) time ∈ world.log
  once : ∀ call started other, .began call started ∈ world.log → .began call other ∈ world.log →
    started = other
  yields : ∀ call started now delay, .yielded call started now delay ∈ world.log →
    .began call started ∈ world.log ∧ ∃ wait, world.waits.get? call = some wait ∧
      Within wait started now delay
  refuses : ∀ call started now remaining why, .refused call started now remaining why ∈ world.log →
    .began call started ∈ world.log ∧ ∃ wait, world.waits.get? call = some wait ∧
      Refused wait started now remaining why ∧
      (wait.phase.Defers remaining why ∨ wait.phase = .abandoned)
  ended : Ended inputs world
  looks : ∀ call wait started now reading, world.waits.get? call = some wait →
    wait.phase = .asking started now →
    let remaining := owed (accountOf wait.scope wait.provider) world.log (max world.clock reading)
    ∃ phase, (world.step (.advance call reading)).waits.get? call = some { wait with phase := phase } ∧
      (remaining ≤ 0 → phase = .returned) ∧
      (Within wait started now remaining → phase = .sleeping started) ∧
      (0 < remaining → ¬Within wait started now remaining → ∃ why, phase = .deferring remaining why)
  raises : ∀ call wait remaining why reading, world.waits.get? call = some wait →
    wait.phase = .deferring remaining why →
    ∃ reason, (world.step (.advance call reading)).waits.get? call =
      some { wait with phase := .deferred remaining why reason }
  late : ∀ call wait started deadline reading, world.waits.get? call = some wait →
    wait.phase = .waking started → wait.deadline = some deadline → deadline ≤ max world.clock reading →
    (world.step (.advance call reading)).waits.get? call = some { wait with phase := .timedOut }
  cut : ∀ call wait started, world.waits.get? call = some wait → wait.phase = .sleeping started →
    wait.deadline.isSome →
    (world.step (.timeout call)).waits.get? call = some { wait with phase := .timedOut }
  remains : ∀ address provider scope now, world.objects.get? address = some provider → world.clock ≤ now →
    remainingSeconds world.entries now provider address scope = owed (accountOf scope provider) world.log now
  records : ∀ address provider hint scope reason reading, world.objects.get? address = some provider →
    let after := world.step (.record address hint scope reason reading)
    ∀ other owner scope' now, world.objects.get? other = some owner → after.clock ≤ now →
      remainingSeconds world.entries now owner other scope' ≤
        remainingSeconds after.entries now owner other scope' ∧
      (accountOf scope' owner ≠ accountOf scope provider →
        remainingSeconds after.entries now owner other scope' =
          remainingSeconds world.entries now owner other scope')

theorem Sound.records (sound : Sound world) {address provider : Nat} (hint : Hint) (scope : Option D)
    (reason : FailureReason) (reading : Rat) (found : world.objects.get? address = some provider) :
    let after := world.step (.record address hint scope reason reading)
    ∀ other owner scope' now, world.objects.get? other = some owner → after.clock ≤ now →
      remainingSeconds world.entries now owner other scope' ≤
        remainingSeconds after.entries now owner other scope' ∧
      (accountOf scope' owner ≠ accountOf scope provider →
        remainingSeconds after.entries now owner other scope' =
          remainingSeconds world.entries now owner other scope') := by
  intro after other owner scope' now found' later
  have recorded : after = (world.read reading).record provider address hint scope reason := by
    simp only [after, World.step, found]
  have before : world.clock ≤ now := by
    rw [recorded] at later
    exact (le_max_left _ _).trans later
  have sound' : Sound after := sound.step _
  have found'' : after.objects.get? other = some owner := by
    rw [recorded]
    exact found'
  rw [sound.remaining found' scope' before, sound'.remaining found'' scope' later, recorded]
  refine ⟨owed_append_le _ _ _ _, fun apart => ?_⟩
  show owed _ (world.log ++ _) now = _
  rw [owed, untils_append]
  have nothing :
      untils (accountOf scope' owner)
        [Event.recorded (accountOf scope provider) (world.read reading).clock hint] = [] := by
    simp [untils, Ne.symm apart]
  rw [nothing, List.append_nil]
  rfl

theorem retry_after_hints_are_honoured (inputs : List (Input D)) :
    HintsHonoured inputs (run World.step .start inputs) := by
  have sound : Sound (run World.step .start inputs) := sound_run inputs
  have ended := ended_run inputs
  have held := held_run inputs
  obtain ⟨honours, -, once, -, yields, refuses, returned⟩ := waited_run inputs
  generalize run World.step .start inputs = world at *
  have going : ∀ {phase other : Phase}, phase = other → other.isOver = false → phase.isOver = false :=
    fun same ended => by rw [same, ended]
  constructor
  case honours => exact honours
  case returned => exact returned
  case once => exact once
  case yields => exact yields
  case refuses =>
    intro call started now remaining why mem
    obtain ⟨began, wait, found, refused⟩ := refuses call started now remaining why mem
    obtain ⟨other, found', how⟩ := ended.refused call started now remaining why mem
    cases found.symm.trans found'
    exact ⟨began, wait, found, refused, how⟩
  case ended => exact ended
  case looks =>
    intro call wait started now reading found asking
    obtain ⟨address, there, moves⟩ := held.advances found (going asking rfl) reading
    rw [moves, World.advance, asking]
    exact @look_within D _ (world.read reading) call address wait started now (sound.read reading) there
  case raises =>
    intro call wait remaining why reading found deferring
    obtain ⟨address, -, moves⟩ := held.advances found (going deferring rfl) reading
    rw [moves, World.advance, deferring]
    simp only [World.goTo, Dict.get?_set, if_true]
    exact ⟨_, rfl⟩
  case late =>
    intro call wait started deadline reading found waking due past
    obtain ⟨address, -, moves⟩ := held.advances found (going waking rfl) reading
    rw [moves, World.advance, waking]
    have late : (wait.deadline.any fun deadline => decide (deadline ≤ (world.read reading).clock)) = true := by
      rw [due]
      exact decide_eq_true past
    dsimp only
    rw [if_pos late]
    simp only [World.goTo, Dict.get?_set, if_true]
  case cut =>
    intro call wait started found asleep due
    obtain ⟨deadline, due⟩ := Option.isSome_iff_exists.mp due
    simp only [World.step, found, asleep, due, World.goTo, Dict.get?_set, if_true]
  case remains =>
    exact fun address provider scope now found later => sound.remaining found scope later
  case records =>
    exact fun address provider hint scope reason reading found =>
      sound.records hint scope reason reading found

-- An object is asked to wait for ever, and does not wait at all.
def infiniteHint : List (Input Unit) :=
  [.allocate 7, .record 7 .infinity none .rateLimited 1, .wait 0 7 none none 900, .advance 0 2,
    .advance 0 3, .advance 0 4]

theorem infinite_hint_is_ignored : ¬(run World.step .start infiniteHint).log.Pairwise HonoursAll := by
  have log : (run World.step .start infiniteHint).log =
      [.recorded (.object 0) 1 .infinity, .began 0 2, .ended 0 (.object 0) 4] := by
    decide
  rw [log]
  intro honours
  have first : HonoursAll (.recorded (.object 0) 1 .infinity : Event Unit) (.ended 0 (.object 0) 4) :=
    List.rel_of_pairwise_cons honours (by simp)
  exact first _ _ _ _ _ rfl rfl trivial

end Runs

end OpenSquilla.Cooldowns
