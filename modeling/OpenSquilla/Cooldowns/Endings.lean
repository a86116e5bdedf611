import Mathlib.Data.List.Induction
import OpenSquilla.Cooldowns.Honoured

set_option autoImplicit false

namespace OpenSquilla.Cooldowns

open Runs

variable {D : Type}

/-- What a wait goes on to in one step, and what is logged of it. -/
inductive Goes (input : Input D) (clock : Rat) (call : Nat) (wait : Wait D) :
    Phase → List (Event D) → Prop
  | begins (phase : wait.phase = .starting) :
      Goes input clock call wait (.waking clock) [.began call clock]
  | late {started deadline : Rat} (phase : wait.phase = .waking started)
      (due : wait.deadline = some deadline) (past : deadline ≤ clock) :
      Goes input clock call wait .timedOut []
  | asks {started : Rat} (phase : wait.phase = .waking started) :
      Goes input clock call wait (.asking started clock) []
  | ends {started now : Rat} (phase : wait.phase = .asking started now) :
      Goes input clock call wait .returned [.ended call (accountOf wait.scope wait.provider) clock]
  | refuses {started now : Rat} (remaining : Rat) (why : DeferralReason)
      (phase : wait.phase = .asking started now) :
      Goes input clock call wait (.deferring remaining why) [.refused call started now remaining why]
  | yields {started now : Rat} (delay : Rat) (phase : wait.phase = .asking started now) :
      Goes input clock call wait (.sleeping started) [.yielded call started now delay]
  | defers {remaining : Rat} {why : DeferralReason} (reason : FailureReason)
      (phase : wait.phase = .deferring remaining why) :
      Goes input clock call wait (.deferred remaining why reason) []
  | wakes {started : Rat} (phase : wait.phase = .sleeping started) :
      Goes input clock call wait (.waking started) []
  | expires {started deadline : Rat} (asked : input = .timeout call)
      (phase : wait.phase = .sleeping started) (due : wait.deadline = some deadline) :
      Goes input clock call wait .timedOut []
  | abandons (asked : input = .abandon call) (going : wait.phase.isOver = false) :
      Goes input clock call wait .abandoned []

variable {events : List (Event D)} {wait : Wait D} {input : Input D} {call : Nat} {clock : Rat}

theorem Goes.going {phase : Phase} (goes : Goes input clock call wait phase events) :
    wait.phase.isOver = false := by
  cases goes with
  | abandons asked going => exact going
  | begins phase | late phase | asks phase | ends phase | refuses _ _ phase | yields _ phase
  | defers _ phase | wakes phase | expires _ phase =>
    rw [phase]
    rfl

/-- What a step does to the waits and the log. -/
inductive Steps (input : Input D) (world after : World D) : Prop
  | quiet (waits : after.waits = world.waits) (events : List (Event D))
      (log : after.log = world.log ++ events) (recorded : ∀ event ∈ events, event.isRecorded = true)
  | opens (call : Nat) (wait : Wait D) (fresh : world.waits.get? call = none)
      (phase : wait.phase = .starting) (waits : after.waits = world.waits.set call wait)
      (log : after.log = world.log) (there : ∃ address, after.objects.get? address = some wait.provider)
  | goes (call : Nat) (wait : Wait D) (phase : Phase) (events : List (Event D))
      (found : world.waits.get? call = some wait)
      (waits : after.waits = world.waits.set call { wait with phase := phase })
      (log : after.log = world.log ++ events) (goes : Goes input after.clock call wait phase events)

section Steps

variable [DecidableEq D] {world : World D}

theorem look_goes (input : Input D) (call : Nat) (wait : Wait D) (address : Nat) {started now : Rat}
    (asking : wait.phase = .asking started now) (found : world.waits.get? call = some wait) :
    Steps input world (world.look call wait address started now) := by
  unfold World.look
  dsimp only
  split
  · exact .goes call wait _ _ found rfl rfl (.ends asking)
  · split
    · exact .goes call wait _ _ found rfl rfl (.refuses _ _ asking)
    · split
      · exact .goes call wait _ _ found rfl rfl (.refuses _ _ asking)
      · exact .goes call wait _ _ found rfl rfl (.yields _ asking)

theorem advance_goes (input : Input D) (call : Nat) (wait : Wait D) (address : Nat)
    (found : world.waits.get? call = some wait) : Steps input world (world.advance call wait address) := by
  have still : Steps input world world :=
    .quiet rfl [] (List.append_nil _).symm (List.forall_mem_nil _)
  have silent : ∀ entries phase, Goes input world.clock call wait phase [] →
      Steps input world ({ world with entries := entries }.goTo call wait phase []) :=
    fun entries phase goes => .goes call wait phase [] found rfl rfl goes
  unfold World.advance
  cases phase : wait.phase with
  | starting => exact .goes call wait _ _ found rfl rfl (.begins phase)
  | waking started =>
    dsimp only
    split
    next past =>
      simp only [Option.any_eq_true, decide_eq_true_eq] at past
      obtain ⟨deadline, due, past⟩ := past
      exact silent _ _ (.late phase due past)
    next => exact silent _ _ (.asks phase)
  | asking started now => exact look_goes input call wait address phase found
  | deferring remaining why => exact silent _ _ (.defers _ phase)
  | sleeping started => exact silent _ _ (.wakes phase)
  | returned | deferred _ _ _ | timedOut | abandoned => exact still

theorem step_goes (world : World D) (input : Input D) : Steps input world (world.step input) := by
  have still : Steps input world world :=
    .quiet rfl [] (List.append_nil _).symm (List.forall_mem_nil _)
  cases input with
  | allocate address =>
    unfold World.step
    dsimp only
    split
    · exact still
    · exact .quiet rfl [] (List.append_nil _).symm (List.forall_mem_nil _)
  | collect address =>
    unfold World.step
    dsimp only
    split
    · exact still
    · split
      · exact still
      · exact .quiet rfl [] (List.append_nil _).symm (List.forall_mem_nil _)
  | record address hint scope reason reading =>
    unfold World.step
    dsimp only
    split
    · exact still
    · exact .quiet rfl _ rfl (List.forall_mem_singleton.mpr rfl)
  | wait call address scope deadline maximum =>
    unfold World.step
    dsimp only
    split
    · exact still
    next provider there =>
      split
      · exact still
      next unknown =>
        exact .opens call _ (Option.not_isSome_iff_eq_none.mp unknown) rfl rfl rfl ⟨address, there⟩
  | advance call reading =>
    unfold World.step
    dsimp only
    split
    · exact still
    next wait found =>
      split
      · exact still
      next address there =>
        have moved := @advance_goes D _ (world.read reading) (.advance call reading) call wait address found
        cases moved with
        | quiet waits events log recorded => exact .quiet waits events log recorded
        | opens call wait fresh phase waits log there =>
          exact .opens call wait fresh phase waits log there
        | goes call wait phase events found waits log goes =>
          exact .goes call wait phase events found waits log goes
  | timeout call =>
    unfold World.step
    dsimp only
    split
    · exact still
    next wait found =>
      split
      next asleep due => exact .goes call wait _ _ found rfl rfl (.expires rfl asleep due)
      · exact still
  | abandon call =>
    unfold World.step
    dsimp only
    split
    · exact still
    next wait found =>
      split
      · exact still
      next going =>
        exact .goes call wait _ _ found rfl rfl (.abandons rfl (Bool.not_eq_true _ ▸ going))

end Steps

-- The wait raises a deferral, or is about to.
def Phase.Defers (phase : Phase) (remaining : Rat) (why : DeferralReason) : Prop :=
  phase = .deferring remaining why ∨ ∃ reason, phase = .deferred remaining why reason

/-- How the waits of a run come to be over: nobody else ends a wait that was not to be cancelled. -/
structure Ended (inputs : List (Input D)) (world : World D) : Prop where
  abandoned : ∀ call wait, world.waits.get? call = some wait → wait.phase = .abandoned →
    .abandon call ∈ inputs
  refused : ∀ call started now remaining why, .refused call started now remaining why ∈ world.log →
    ∃ wait, world.waits.get? call = some wait ∧
      (wait.phase.Defers remaining why ∨ wait.phase = .abandoned)
  deferred : ∀ call wait remaining why, world.waits.get? call = some wait →
    wait.phase.Defers remaining why → ∃ started now, .refused call started now remaining why ∈ world.log
  timedOut : ∀ call wait, world.waits.get? call = some wait → wait.phase = .timedOut →
    ∃ deadline, wait.deadline = some deadline ∧ (deadline ≤ world.clock ∨ .timeout call ∈ inputs)

theorem Goes.abandoned (goes : Goes input clock call wait .abandoned events) : input = .abandon call := by
  cases goes with
  | abandons asked => exact asked

theorem Goes.timedOut (goes : Goes input clock call wait .timedOut events) :
    ∃ deadline, wait.deadline = some deadline ∧ (deadline ≤ clock ∨ input = .timeout call) := by
  cases goes with
  | late phase due past => exact ⟨_, due, Or.inl past⟩
  | expires asked phase due => exact ⟨_, due, Or.inr asked⟩

theorem Goes.refused {call other : Nat} {phase : Phase} (goes : Goes input clock call wait phase events)
    {started now remaining : Rat} {why : DeferralReason}
    (mem : .refused other started now remaining why ∈ events) :
    other = call ∧ phase = .deferring remaining why := by
  cases goes with
  | refuses =>
    cases List.mem_singleton.mp mem
    exact ⟨rfl, rfl⟩
  | begins | ends | yields => cases List.mem_singleton.mp mem
  | _ => cases mem

/-- A refused wait raises the deferral unless it is cancelled. -/
theorem Goes.of_deferring {phase : Phase} (goes : Goes input clock call wait phase events) {remaining : Rat}
    {why : DeferralReason} (deferring : wait.phase.Defers remaining why) :
    phase.Defers remaining why ∨ phase = .abandoned := by
  have going := goes.going
  obtain deferring | ⟨reason, ended⟩ := deferring
  · cases goes with
    | @defers _ _ reason phase =>
      cases deferring.symm.trans phase
      exact Or.inl (Or.inr ⟨reason, rfl⟩)
    | abandons => exact Or.inr rfl
    | begins phase | late phase | asks phase | ends phase | refuses _ _ phase | yields _ phase
    | wakes phase | expires _ phase => cases deferring.symm.trans phase
  · rw [ended] at going
    cases going

theorem Goes.defers_of {phase : Phase} (goes : Goes input clock call wait phase events) {remaining : Rat}
    {why : DeferralReason} (defers : phase.Defers remaining why) :
    (∃ started now, .refused call started now remaining why ∈ events) ∨
      wait.phase.Defers remaining why := by
  obtain rfl | ⟨reason, rfl⟩ := defers
  · cases goes with
    | refuses => exact Or.inl ⟨_, _, List.mem_singleton_self _⟩
  · cases goes with
    | defers _ phase => exact Or.inr (Or.inl phase)

section Runs

variable [DecidableEq D] {world : World D}

theorem clock_le_step (world : World D) (input : Input D) : world.clock ≤ (world.step input).clock := by
  have look : ∀ (world : World D) call wait address started now,
      (world.look call wait address started now).clock = world.clock := by
    intro world call wait address started now
    unfold World.look
    dsimp only
    split
    · rfl
    · split
      · rfl
      · split <;> rfl
  have advance : ∀ (world : World D) call wait address,
      (world.advance call wait address).clock = world.clock := by
    intro world call wait address
    unfold World.advance
    split
    · rfl
    · split <;> rfl
    · exact look ..
    all_goals rfl
  unfold World.step
  split
  · split <;> exact le_refl _
  · split
    · exact le_refl _
    · split <;> exact le_refl _
  · split
    · exact le_refl _
    · exact le_max_left _ _
  · split
    · exact le_refl _
    · split <;> exact le_refl _
  · split
    · exact le_refl _
    · split
      · exact le_refl _
      · rw [advance]
        exact le_max_left _ _
  · split
    · exact le_refl _
    · split <;> exact le_refl _
  · split
    · exact le_refl _
    · split <;> exact le_refl _

omit [DecidableEq D] in
theorem ended_start : Ended [] (World.start : World D) := by
  refine ⟨?_, ?_, ?_, ?_⟩ <;> simp [World.start]

omit [DecidableEq D] in
theorem Ended.steps {inputs : List (Input D)} {after : World D}
    (ended : Ended inputs world) (steps : Steps input world after) (later : world.clock ≤ after.clock) :
    Ended (inputs ++ [input]) after := by
  have earlier : ∀ {asked : Input D}, asked ∈ inputs → asked ∈ inputs ++ [input] :=
    fun mem => List.mem_append_left _ mem
  have due : ∀ {deadline : Rat} {call : Nat},
      (deadline ≤ world.clock ∨ .timeout call ∈ inputs) →
        deadline ≤ after.clock ∨ .timeout call ∈ inputs ++ [input] :=
    fun past => past.imp (fun past => past.trans later) earlier
  cases steps with
  | quiet waits events log recorded =>
    constructor
    · rw [waits]
      exact fun call wait found phase => earlier (ended.abandoned call wait found phase)
    · rw [waits, log]
      intro call started now remaining why mem
      refine ended.refused call started now remaining why ?_
      exact (List.mem_append.mp mem).resolve_right fun new => by cases recorded _ new
    · rw [waits, log]
      intro call wait remaining why found defers
      obtain ⟨started, now, mem⟩ := ended.deferred call wait remaining why found defers
      exact ⟨started, now, List.mem_append_left _ mem⟩
    · rw [waits]
      intro call wait found phase
      obtain ⟨deadline, held, past⟩ := ended.timedOut call wait found phase
      exact ⟨deadline, held, due past⟩
  | opens call wait fresh phase waits log there =>
    have older : ∀ other found, after.waits.get? other = some found → found.phase ≠ .starting →
        world.waits.get? other = some found := by
      intro other found is begun
      rw [waits, Dict.get?_set] at is
      split at is
      next =>
        rw [← Option.some.inj is] at begun
        exact absurd phase begun
      next => exact is
    constructor
    · intro other found is abandoned
      exact earlier (ended.abandoned other found (older other found is (by simp [abandoned])) abandoned)
    · rw [log]
      intro other started now remaining why mem
      obtain ⟨found, is, how⟩ := ended.refused other started now remaining why mem
      refine ⟨found, ?_, how⟩
      rw [waits, Dict.get?_set, if_neg, is]
      rintro rfl
      cases fresh.symm.trans is
    · rw [log]
      intro other found remaining why is defers
      refine ended.deferred other found remaining why (older other found is ?_) defers
      obtain same | ⟨reason, same⟩ := defers <;> simp [same]
    · intro other found is timedOut
      obtain ⟨deadline, held, past⟩ :=
        ended.timedOut other found (older other found is (by simp [timedOut])) timedOut
      exact ⟨deadline, held, due past⟩
  | goes call wait phase events found waits log goes =>
    have cases_ : ∀ other state, after.waits.get? other = some state →
        (other = call ∧ state = { wait with phase := phase }) ∨
          (other ≠ call ∧ world.waits.get? other = some state) := by
      intro other state is
      rw [waits, Dict.get?_set] at is
      split at is
      next own => exact Or.inl ⟨own, (Option.some.inj is).symm⟩
      next apart => exact Or.inr ⟨apart, is⟩
    constructor
    · intro other state is abandoned
      obtain ⟨rfl, rfl⟩ | ⟨-, before⟩ := cases_ other state is
      · obtain rfl : phase = .abandoned := abandoned
        exact List.mem_append_right _ (List.mem_singleton.mpr goes.abandoned.symm)
      · exact earlier (ended.abandoned other state before abandoned)
    · rw [log]
      intro other started now remaining why mem
      obtain before | new := List.mem_append.mp mem
      · obtain ⟨state, is, how⟩ := ended.refused other started now remaining why before
        by_cases own : other = call
        · subst own
          cases found.symm.trans is
          refine ⟨{ wait with phase := phase }, by rw [waits]; simp, ?_⟩
          obtain defers | abandoned := how
          · exact goes.of_deferring defers
          · have going := goes.going
            rw [abandoned] at going
            cases going
        · exact ⟨state, by rw [waits, Dict.get?_set, if_neg own, is], how⟩
      · obtain ⟨rfl, rfl⟩ := goes.refused new
        exact ⟨{ wait with phase := _ }, by rw [waits]; simp, Or.inl (Or.inl rfl)⟩
    · rw [log]
      intro other state remaining why is defers
      have old : ∀ {state : Wait D}, world.waits.get? other = some state →
          state.phase.Defers remaining why →
          ∃ started now, .refused other started now remaining why ∈ world.log ++ events := by
        intro state is defers
        obtain ⟨started, now, mem⟩ := ended.deferred other state remaining why is defers
        exact ⟨started, now, List.mem_append_left _ mem⟩
      obtain ⟨rfl, rfl⟩ | ⟨-, before⟩ := cases_ other state is
      · obtain ⟨started, now, mem⟩ | deferring := goes.defers_of defers
        · exact ⟨started, now, List.mem_append_right _ mem⟩
        · exact old found deferring
      · exact old before defers
    · intro other state is timedOut
      obtain ⟨rfl, rfl⟩ | ⟨-, before⟩ := cases_ other state is
      · obtain rfl : phase = .timedOut := timedOut
        obtain ⟨deadline, held, past⟩ := goes.timedOut
        exact ⟨deadline, held, past.imp_right fun asked =>
          List.mem_append_right _ (List.mem_singleton.mpr asked.symm)⟩
      · obtain ⟨deadline, held, past⟩ := ended.timedOut other state before timedOut
        exact ⟨deadline, held, due past⟩

theorem ended_run (inputs : List (Input D)) : Ended inputs (run World.step .start inputs) := by
  induction inputs using List.reverseRecOn with
  | nil => exact ended_start
  | append_singleton inputs input ih =>
    rw [run_append]
    exact ih.steps (step_goes _ input) (clock_le_step _ input)

/-- Who waits holds the object that it waits for. -/
def Held (world : World D) : Prop :=
  ∀ call wait, world.waits.get? call = some wait → wait.phase.isOver = false →
    ∃ address, world.objects.get? address = some wait.provider

theorem objects_step (input : Input D) {address provider : Nat}
    (found : world.objects.get? address = some provider) :
    (world.step input).objects.get? address = some provider ∨ world.isHeld provider = false := by
  have look : ∀ (world : World D) call wait address started now,
      (world.look call wait address started now).objects = world.objects := by
    intro world call wait address started now
    unfold World.look
    dsimp only
    split
    · rfl
    · split
      · rfl
      · split <;> rfl
  have advance : ∀ (world : World D) call wait address,
      (world.advance call wait address).objects = world.objects := by
    intro world call wait address
    unfold World.advance
    split
    · rfl
    · split <;> rfl
    · exact look ..
    all_goals rfl
  cases input with
  | allocate other =>
    unfold World.step
    dsimp only
    split
    · exact Or.inl found
    next free =>
      have apart : address ≠ other := by
        rintro rfl
        exact free (by rw [found]; rfl)
      exact Or.inl (by simp [apart, found])
  | collect other =>
    unfold World.step
    dsimp only
    split
    · exact Or.inl found
    next collected there =>
      split
      · exact Or.inl found
      next unheld =>
        by_cases own : address = other
        · subst own
          cases found.symm.trans there
          exact Or.inr (Bool.not_eq_true _ ▸ unheld)
        · exact Or.inl (by simp [Dict.get?_erase, own, found])
  | advance call reading =>
    unfold World.step
    dsimp only
    split
    · exact Or.inl found
    · split
      · exact Or.inl found
      · rw [advance]
        exact Or.inl found
  | record | wait | timeout | abandon =>
    unfold World.step
    dsimp only
    repeat' split
    all_goals exact Or.inl found

omit [DecidableEq D] in
theorem isHeld_of_wait (found : world.waits.get? call = some wait)
    (going : wait.phase.isOver = false) : world.isHeld wait.provider = true := by
  have mem : wait ∈ world.waits.values := List.mem_map.2 ⟨_, (Dict.get?_eq_some_iff ..).1 found, rfl⟩
  unfold World.isHeld
  rw [Bool.or_eq_true]
  exact Or.inr (List.any_eq_true.2 ⟨wait, mem, by simp [going]⟩)

theorem Held.step (held : Held world) (input : Input D) : Held (world.step input) := by
  have kept : ∀ call wait, world.waits.get? call = some wait → wait.phase.isOver = false →
      ∃ address, (world.step input).objects.get? address = some wait.provider := by
    intro call wait found going
    obtain ⟨address, there⟩ := held call wait found going
    refine ⟨address, (objects_step input there).resolve_right fun unheld => ?_⟩
    rw [isHeld_of_wait found going] at unheld
    cases unheld
  intro other later is going
  cases step_goes world input with
  | quiet waits => exact kept other later (waits ▸ is) going
  | opens call wait fresh phase waits log there =>
    rw [waits, Dict.get?_set] at is
    split at is
    next =>
      cases is
      exact there
    next => exact kept other later is going
  | goes call wait phase events found waits log goes =>
    rw [waits, Dict.get?_set] at is
    split at is
    next =>
      cases is
      exact kept call wait found goes.going
    next => exact kept other later is going

theorem held_run (inputs : List (Input D)) : Held (run World.step .start inputs) :=
  run_invariant Held (fun _ input held => held.step input) (by simp [Held, World.start]) inputs

omit [DecidableEq D] in
theorem addressOf_spec {provider address : Nat} (found : world.addressOf provider = some address) :
    world.objects.get? address = some provider := by
  obtain ⟨entry, first, rfl⟩ := Option.map_eq_some_iff.1 found
  have same := List.find?_some first
  rw [decide_eq_true_eq] at same
  rw [Dict.get?_eq_some_iff, ← same]
  exact List.mem_of_find?_eq_some first

/-- A wait that is not over can always take its next step. -/
theorem Held.advances (held : Held world)
    (found : world.waits.get? call = some wait) (going : wait.phase.isOver = false) (reading : Rat) :
    ∃ address, world.objects.get? address = some wait.provider ∧
      world.step (.advance call reading) = (world.read reading).advance call wait address := by
  obtain ⟨there, held⟩ := held call wait found going
  have some_ : (world.addressOf wait.provider).isSome := by
    unfold World.addressOf
    rw [Option.isSome_map, List.find?_isSome]
    exact ⟨_, (Dict.get?_eq_some_iff ..).1 held, by simp⟩
  obtain ⟨address, named⟩ := Option.isSome_iff_exists.mp some_
  refine ⟨address, addressOf_spec named, ?_⟩
  simp only [World.step, found, named]

end Runs

end OpenSquilla.Cooldowns
