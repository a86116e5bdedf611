import OpenSquilla.Cooldowns.RetryAfter
import Mathlib.Tactic.Linarith

set_option autoImplicit false

namespace OpenSquilla.Cooldowns

open Runs

def untilOf (time : Rat) (hint : Hint) : Option Rat :=
  match positiveHint hint with
  | none => none
  | some seconds => if seconds = 0 then none else some (time + seconds)

theorem le_foldl_max (times : List Rat) (now : Rat) : now ≤ times.foldl max now := by
  induction times generalizing now with
  | nil => exact le_refl now
  | cons time rest ih => exact (le_max_left now time).trans (ih _)

theorem le_foldl_max_of_mem {times : List Rat} {time : Rat} (now : Rat) (mem : time ∈ times) :
    time ≤ times.foldl max now := by
  induction times generalizing now with
  | nil => cases mem
  | cons first rest ih =>
    obtain rfl | later := List.mem_cons.1 mem
    · exact (le_max_right now time).trans (le_foldl_max rest _)
    · exact ih _ later

theorem foldl_max_le {times : List Rat} {now bound : Rat} (first : now ≤ bound)
    (all : ∀ time ∈ times, time ≤ bound) : times.foldl max now ≤ bound := by
  induction times generalizing now with
  | nil => exact first
  | cons time rest ih =>
    rw [List.forall_mem_cons] at all
    exact ih (max_le first all.1) all.2

section Ledgers

variable {D : Type} [DecidableEq D] {entries : Dict (Key D) CoolingEntry} {clock now : Rat} {key : Key D}
    {times : List Rat}

/-- An entry is the latest of the times that were asked for, and what has no entry is over. -/
structure Exact (entries : Dict (Key D) CoolingEntry) (clock : Rat) (key : Key D) (times : List Rat) : Prop where
  latest : ∀ entry, entries.get? key = some entry → entry.notBefore ∈ times ∧ ∀ time ∈ times,
    time ≤ entry.notBefore
  gone : entries.get? key = none → ∀ time ∈ times, time ≤ clock

theorem get?_expire (entries : Dict (Key D) CoolingEntry) (now : Rat) (key : Key D) :
    (expire entries now).get? key = (entries.get? key).filter fun entry => now < entry.notBefore := by
  ext entry
  rw [Dict.get?_eq_some_iff, Option.filter_eq_some_iff, Dict.get?_eq_some_iff]
  simp [expire]

theorem Exact.expire (exact_ : Exact entries clock key times) (later : clock ≤ now) :
    Exact (expire entries now) now key times where
  latest := by
    intro entry found
    rw [get?_expire, Option.filter_eq_some_iff] at found
    exact exact_.latest entry found.1
  gone := by
    intro absent time mem
    rw [get?_expire] at absent
    cases found : entries.get? key with
    | none => exact (exact_.gone found time mem).trans later
    | some entry =>
      rw [found, Option.filter_eq_none_iff] at absent
      have expired := absent entry rfl
      rw [decide_eq_true_eq, not_lt] at expired
      exact ((exact_.latest entry found).2 time mem).trans expired

theorem Exact.remaining (exact_ : Exact entries clock key times) (later : clock ≤ now)
    {provider address : Nat} {scope : Option D}
    (names : key = keyOf scope address) (owned : ∀ entry, entries.get? key = some entry → scope = none →
      entry.owner = some provider) :
    remainingSeconds entries now provider address scope = times.foldl max now - now := by
  subst names
  have expired := exact_.expire later
  unfold remainingSeconds
  cases found : (Cooldowns.expire entries now).get? (keyOf scope address) with
  | none =>
    have done : times.foldl max now = now :=
      le_antisymm (foldl_max_le (le_refl now) (expired.gone found)) (le_foldl_max times now)
    simp [done]
  | some entry =>
    obtain ⟨mem, latest⟩ := expired.latest entry found
    rw [get?_expire, Option.filter_eq_some_iff, decide_eq_true_eq] at found
    have mine : ¬(scope.isNone && decide (entry.owner ≠ some provider)) = true := by
      cases scope with
      | none => simp [owned entry found.1 rfl]
      | some digest => simp
    have longest : times.foldl max now = entry.notBefore :=
      le_antisymm (foldl_max_le (le_of_lt found.2) latest) (le_foldl_max_of_mem now mem)
    simp only [mine, longest]
    exact max_eq_right (sub_nonneg.2 (le_of_lt found.2))

theorem get?_recordHint_of_ne {provider address : Nat} {hint : Hint} {scope : Option D} {reason : FailureReason}
    (apart : key ≠ keyOf scope address) :
    (recordHint entries now provider address hint scope reason).get? key = (expire entries now).get? key := by
  unfold recordHint
  dsimp only
  split
  · rfl
  · split
    · rfl
    · simp [Dict.get?_set, apart]

theorem Exact.of_ne (exact_ : Exact entries clock key times) (later : clock ≤ now) {provider address : Nat}
    {hint : Hint} {scope : Option D} {reason : FailureReason} (apart : key ≠ keyOf scope address) :
    Exact (recordHint entries now provider address hint scope reason) now key times := by
  obtain ⟨latest, gone⟩ := exact_.expire later
  rw [← get?_recordHint_of_ne apart] at latest gone
  exact ⟨latest, gone⟩

theorem positive_of_some {hint : Hint} {seconds : Rat} (positive : positiveHint hint = some seconds) :
    0 ≤ seconds := by
  unfold positiveHint at positive
  split at positive
  · rw [Option.some.injEq] at positive
    rw [← positive]
    split
    · exact le_of_lt ‹_›
    · exact le_refl 0
  · cases positive
  all_goals
    rw [Option.some.injEq] at positive
    rw [← positive]

theorem Exact.recorded (exact_ : Exact entries clock key times) (later : clock ≤ now)
    {provider address : Nat} {hint : Hint}
    {scope : Option D} {reason : FailureReason} (names : key = keyOf scope address) :
    Exact (recordHint entries now provider address hint scope reason) now key
      (times ++ (untilOf now hint).toList) := by
  have expired := exact_.expire later
  unfold recordHint untilOf
  dsimp only
  cases positive : positiveHint hint with
  | none => simpa using expired
  | some seconds =>
    dsimp only
    split
    · simpa using expired
    · rename_i some_
      have more : now < now + seconds := by
        have := lt_of_le_of_ne (positive_of_some positive) (Ne.symm some_)
        linarith
      subst names
      refine ⟨fun entry found => ?_, fun absent => by simp at absent⟩
      simp only [Dict.get?_set, if_true, Option.some.injEq] at found
      subst found
      simp only [Option.toList_some, List.mem_append, List.mem_singleton]
      cases known : (Cooldowns.expire entries now).get? (keyOf scope address) with
      | none =>
        have gone := expired.gone known
        simp only [Option.elim_none, max_eq_left (le_of_lt more), or_true, true_and]
        rintro time (mem | rfl)
        · exact (gone time mem).trans (le_of_lt more)
        · exact le_refl _
      | some entry =>
        obtain ⟨mem, latest⟩ := expired.latest entry known
        simp only [Option.elim_some]
        constructor
        · obtain first | second := max_choice (now + seconds) entry.notBefore
          · exact .inr first
          · rw [second]
            exact .inl mem
        · rintro time (earlier | rfl)
          · exact (latest time earlier).trans (le_max_right _ _)
          · exact le_max_left _ _

end Ledgers

section Worlds

variable {D : Type} [DecidableEq D] {world : World D}

-- The times until which the hints for an account ask to wait.
def untils (account : Account D) (log : List (Event D)) : List Rat :=
  log.filterMap fun event =>
    match event with
    | .recorded recorded time hint => if recorded = account then untilOf time hint else none
    | _ => none

def owed (account : Account D) (log : List (Event D)) (now : Rat) :
    Rat := (untils account log).foldl max now - now

@[simp] theorem untils_append (account : Account D) (log more : List (Event D)) :
    untils account (log ++ more) = untils account log ++ untils account more := by
  simp [untils]

theorem untils_recorded (account : Account D) (time : Rat) (hint : Hint) :
    untils account [.recorded account time hint] = (untilOf time hint).toList := by
  cases until_ : untilOf time hint <;> simp [untils, until_]

def Event.isRecorded : Event D → Bool
  | .recorded _ _ _ => true
  | _ => false

theorem untils_of_quiet {account : Account D} {events : List (Event D)}
    (quiet : ∀ event ∈ events, event.isRecorded = false) : untils account events = [] := by
  rw [untils, List.filterMap_eq_nil_iff]
  intro event mem
  cases event with
  | recorded recorded time hint => exact absurd (quiet _ mem) (by simp [Event.isRecorded])
  | _ => rfl

/-- The key under which an account is kept: an object's is its address, as long as it is there. -/
inductive Names (objects : Dict Nat Nat) : Account D → Key D → Prop
  | scope (digest : D) : Names objects (.scope digest) (.scope digest)
  | object {address provider : Nat} (found : objects.get? address = some provider) : Names objects
      (.object provider) (.object address)

omit [DecidableEq D] in
theorem names_keyOf {objects : Dict Nat Nat} {address provider : Nat}
    (found : objects.get? address = some provider)
    (scope : Option D) : Names objects (accountOf scope provider) (keyOf scope address) := by
  cases scope with
  | none => exact .object found
  | some digest => exact .scope digest

structure Sound (world : World D) : Prop where
  created : ∀ address provider, world.objects.get? address = some provider → provider < world.created
  apart : ∀ address other provider, world.objects.get? address = some provider →
    world.objects.get? other = some provider →
    address = other
  owned : ∀ address entry, world.entries.get? (.object address) = some entry →
    ∃ provider, world.objects.get? address = some provider ∧ entry.owner = some provider
  known : ∀ provider time hint, .recorded (.object provider) time hint ∈ world.log → provider < world.created
  past : ∀ account time hint, .recorded account time hint ∈ world.log → time ≤ world.clock
  kept : ∀ account key, Names world.objects account key →
    Exact world.entries world.clock key (untils account world.log)

theorem sound_start : Sound (.start : World D) := by
  refine ⟨?_, ?_, ?_, ?_, ?_, fun account key names => ⟨?_, ?_⟩⟩ <;> simp [World.start, untils]

omit [DecidableEq D] in
theorem names_inj {account other : Account D} {key : Key D} (names : Names world.objects account key)
    (names' : Names world.objects other key) : account = other := by
  cases names with
  | scope digest =>
    cases names' with
    | scope digest => rfl
  | object found =>
    cases names' with
    | object found' =>
      rw [found, Option.some.injEq] at found'
      rw [found']

theorem Sound.key_inj (sound : Sound world) {account : Account D} {key other : Key D}
    (names : Names world.objects account key) (names' : Names world.objects account other) : key = other := by
  cases names with
  | scope digest =>
    cases names' with
    | scope digest => rfl
  | object found =>
    cases names' with
    | object found' => rw [sound.apart _ _ _ found found']

theorem Sound.remaining (sound : Sound world) {address provider : Nat}
    (found : world.objects.get? address = some provider)
    (scope : Option D) {now : Rat} (later : world.clock ≤ now) :
    remainingSeconds world.entries now provider address scope =
      owed (accountOf scope provider) world.log now := by
  refine (sound.kept _ _ (names_keyOf found scope)).remaining later rfl ?_
  rintro entry kept rfl
  obtain ⟨owner, found', owns⟩ := sound.owned address entry kept
  rw [found, Option.some.injEq] at found'
  rw [owns, found']

theorem Sound.read (sound : Sound world) (reading : Rat) : Sound (world.read reading) where
  created := sound.created
  apart := sound.apart
  owned := sound.owned
  known := sound.known
  past := fun account time hint mem => (sound.past account time hint mem).trans (le_max_left _ _)
  kept := fun account key names =>
    ⟨(sound.kept account key names).latest, fun absent time mem =>
      ((sound.kept account key names).gone absent time mem).trans (le_max_left _ _)⟩

theorem Sound.expire (sound : Sound world) {events : List (Event D)}
    (quiet : ∀ event ∈ events, event.isRecorded = false)
    (waits : Dict Nat (Wait D)) (entries : Dict (Key D) CoolingEntry)
    (expired : entries = world.entries ∨ entries = Cooldowns.expire world.entries world.clock) :
    Sound { world with entries := entries, waits := waits, log := world.log ++ events } := by
  have recorded : ∀ account time hint, Event.recorded account time hint ∈ world.log ++ events →
      Event.recorded account time hint ∈ world.log := by
    intro account time hint mem
    obtain before | now := List.mem_append.1 mem
    · exact before
    · exact absurd (quiet _ now) (by simp [Event.isRecorded])
  refine ⟨sound.created, sound.apart, ?_, ?_, ?_, ?_⟩
  · intro address entry found
    obtain rfl | rfl := expired
    · exact sound.owned address entry found
    · have found : (Cooldowns.expire world.entries world.clock).get? (.object address) = some entry := found
      rw [get?_expire, Option.filter_eq_some_iff] at found
      exact sound.owned address entry found.1
  · exact fun provider time hint mem => sound.known provider time hint (recorded _ _ _ mem)
  · exact fun account time hint mem => sound.past account time hint (recorded _ _ _ mem)
  · intro account key names
    show Exact entries world.clock key (untils account (world.log ++ events))
    rw [untils_append, untils_of_quiet quiet, List.append_nil]
    obtain rfl | rfl := expired
    · exact sound.kept account key names
    · exact (sound.kept account key names).expire (le_refl _)

theorem Sound.goTo (sound : Sound world) (call : Nat) (wait : Wait D) (phase : Phase) {events : List (Event D)}
    (quiet : ∀ event ∈ events, event.isRecorded = false) : Sound (world.goTo call wait phase events) :=
  sound.expire quiet _ world.entries (.inl rfl)

theorem Sound.record (sound : Sound world) {address provider : Nat}
    (found : world.objects.get? address = some provider) (hint : Hint)
    (scope : Option D) (reason : FailureReason) : Sound (world.record provider address hint scope reason) := by
  have names := names_keyOf found scope
  refine ⟨sound.created, sound.apart, ?_, ?_, ?_, ?_⟩
  · intro other entry found'
    have found' :
        (recordHint world.entries world.clock provider address hint scope reason).get? (.object other) =
          some entry := found'
    by_cases own : Key.object other = keyOf scope address
    · cases scope with
      | some digest => cases own
      | none =>
        obtain rfl : other = address := by simpa [keyOf] using own
        refine ⟨provider, found, ?_⟩
        unfold recordHint at found'
        dsimp only at found'
        split at found'
        · rw [get?_expire, Option.filter_eq_some_iff] at found'
          obtain ⟨owner, found'', owns⟩ := sound.owned other entry found'.1
          rw [found, Option.some.injEq] at found''
          rw [owns, found'']
        · split at found'
          · rw [get?_expire, Option.filter_eq_some_iff] at found'
            obtain ⟨owner, found'', owns⟩ := sound.owned other entry found'.1
            rw [found, Option.some.injEq] at found''
            rw [owns, found'']
          · simp only [Dict.get?_set, keyOf, if_true, Option.some.injEq] at found'
            rw [← found']
            rfl
    · rw [get?_recordHint_of_ne own, get?_expire, Option.filter_eq_some_iff] at found'
      exact sound.owned other entry found'.1
  · intro other time hint' mem
    obtain before | now := List.mem_append.1 mem
    · exact sound.known other time hint' before
    · simp only [List.mem_singleton, Event.recorded.injEq] at now
      cases scope with
      | some digest => cases now.1
      | none =>
        obtain rfl : other = provider := by simpa [accountOf] using now.1
        exact sound.created address other found
  · intro account time hint' mem
    obtain before | now := List.mem_append.1 mem
    · exact sound.past account time hint' before
    · simp only [List.mem_singleton, Event.recorded.injEq] at now
      rw [now.2.1]
      exact le_refl _
  · intro account key names'
    show Exact (recordHint world.entries world.clock provider address hint scope reason) world.clock key
      (untils account (world.log ++ [.recorded (accountOf scope provider) world.clock hint]))
    have before := sound.kept account key names'
    by_cases own : key = keyOf scope address
    · subst own
      obtain rfl := names_inj names names'
      rw [untils_append, untils_recorded]
      exact before.recorded (le_refl _) rfl
    · have other : accountOf scope provider ≠ account := by
        rintro rfl
        exact own (sound.key_inj names' names)
      rw [untils_append,
          show untils account [Event.recorded (accountOf scope provider) world.clock hint] = [] by
            simp [untils, other],
        List.append_nil]
      exact before.of_ne (le_refl _) own

end Worlds

section Steps

variable {D : Type} [DecidableEq D] {world : World D}

theorem Sound.look (sound : Sound world) (call : Nat) (wait : Wait D) (address : Nat) (started now : Rat) :
    Sound (world.look call wait address started now) := by
  have expired : ∀ phase events, (∀ event ∈ events, Event.isRecorded event = false) →
      Sound ({ world with entries := Cooldowns.expire world.entries world.clock }.goTo call wait phase events) :=
    fun phase events quiet => sound.expire quiet _ _ (.inr rfl)
  unfold World.look
  dsimp only
  split
  · exact expired _ _ (by simp [Event.isRecorded])
  · split
    · exact expired _ _ (by simp [Event.isRecorded])
    · split
      · exact expired _ _ (by simp [Event.isRecorded])
      · exact expired _ _ (by simp [Event.isRecorded])

theorem Sound.advance (sound : Sound world) (call : Nat) (wait : Wait D) (address : Nat) :
    Sound (world.advance call wait address) := by
  unfold World.advance
  split
  · exact sound.goTo call wait _ (by simp [Event.isRecorded])
  · split
    · exact sound.goTo call wait _ (by simp)
    · exact sound.goTo call wait _ (by simp)
  · exact sound.look call wait address _ _
  · exact sound.expire (by simp) _ _ (.inr rfl)
  · exact sound.goTo call wait _ (by simp)
  all_goals exact sound

theorem Sound.allocate (sound : Sound world) {address : Nat} (free : world.objects.get? address = none) :
    Sound { world with objects := world.objects.set address world.created, created := world.created + 1 } := by
  have older : ∀ other provider, (world.objects.set address world.created).get? other = some provider →
      (other = address ∧ provider = world.created) ∨
        (other ≠ address ∧ world.objects.get? other = some provider) := by
    intro other provider found
    rw [Dict.get?_set] at found
    by_cases own : other = address
    · rw [if_pos own, Option.some.injEq] at found
      exact .inl ⟨own, found.symm⟩
    · rw [if_neg own] at found
      exact .inr ⟨own, found⟩
  refine ⟨fun other provider found => ?_, fun one other provider found found' => ?_, fun other entry found => ?_,
    fun provider time hint mem => Nat.lt_succ_of_lt (sound.known provider time hint mem), sound.past,
        fun account key names => ?_⟩
  · obtain ⟨-, rfl⟩ | ⟨-, before⟩ := older other provider found
    · exact Nat.lt_succ_self _
    · exact Nat.lt_succ_of_lt (sound.created other provider before)
  · obtain ⟨rfl, new⟩ | ⟨-, before⟩ := older one provider found
    · obtain ⟨rfl, -⟩ | ⟨-, before'⟩ := older other provider found'
      · rfl
      · exact absurd new (Nat.ne_of_lt (sound.created other provider before'))
    · obtain ⟨-, new⟩ | ⟨-, before'⟩ := older other provider found'
      · exact absurd new (Nat.ne_of_lt (sound.created one provider before))
      · exact sound.apart one other provider before before'
  · obtain ⟨provider, found', owns⟩ := sound.owned other entry found
    have apart : other ≠ address := by
      rintro rfl
      rw [free] at found'
      cases found'
    exact ⟨provider, by simp [apart, found'], owns⟩
  · cases names with
    | scope digest => exact sound.kept _ _ (.scope digest)
    | @object other provider found =>
      obtain ⟨rfl, rfl⟩ | ⟨-, before⟩ := older other provider found
      · -- nothing was recorded for the new object, and nothing is kept at its address
        refine ⟨fun entry found' => ?_, fun _ time mem => ?_⟩
        · obtain ⟨owner, there, -⟩ := sound.owned other entry found'
          rw [free] at there
          cases there
        · obtain ⟨event, there, until_⟩ := List.mem_filterMap.1 mem
          cases event with
          | recorded account recordedAt hint =>
            dsimp only at until_
            split at until_
            · rename_i own
              subst own
              exact absurd (sound.known _ _ _ there) (Nat.lt_irrefl _)
            · cases until_
          | _ => cases until_
      · exact sound.kept _ _ (.object before)

theorem Sound.collect (sound : Sound world) {address provider : Nat}
    (found : world.objects.get? address = some provider)
    (unheld : world.isHeld provider = false) : Sound { world with objects := world.objects.erase address } := by
  have older : ∀ other provider, (world.objects.erase address).get? other = some provider →
      world.objects.get? other = some provider := by
    intro other provider found
    rw [Dict.get?_erase] at found
    by_cases own : other = address
    · simp [own] at found
    · simpa [own] using found
  refine ⟨fun other provider found => sound.created other provider (older other provider found),
    fun one other provider found found' => sound.apart one other provider (older _ _ found) (older _ _ found'),
    fun other entry found' => ?_, sound.known, sound.past, fun account key names => ?_⟩
  · obtain ⟨owner, there, owns⟩ := sound.owned other entry found'
    have apart : other ≠ address := by
      rintro rfl
      rw [found, Option.some.injEq] at there
      subst there
      rw [World.isHeld, Bool.or_eq_false_iff, List.any_eq_false] at unheld
      have mem : entry ∈ world.entries.values := List.mem_map.2 ⟨_, (Dict.get?_eq_some_iff ..).1 found', rfl⟩
      exact unheld.1 entry mem (by simp [owns])
    exact ⟨owner, by simp [Dict.get?_erase, apart, there], owns⟩
  · cases names with
    | scope digest => exact sound.kept _ _ (.scope digest)
    | object found' => exact sound.kept _ _ (.object (older _ _ found'))

theorem Sound.step (sound : Sound world) (input : Input D) : Sound (world.step input) := by
  cases input with
  | allocate address =>
    unfold World.step
    dsimp only
    split
    · exact sound
    · rename_i free
      exact sound.allocate (by simpa using free)
  | collect address =>
    unfold World.step
    dsimp only
    split
    · exact sound
    · split
      · exact sound
      · rename_i provider found unheld
        exact sound.collect found (by simpa using unheld)
  | record address hint scope reason reading =>
    unfold World.step
    dsimp only
    split
    · exact sound
    · rename_i provider found
      exact (sound.read reading).record found hint scope reason
  | wait call address scope deadline maximum =>
    unfold World.step
    dsimp only
    split
    · exact sound
    · split
      · exact sound
      · rename_i provider found known
        have begun : Sound { world with
            entries := world.entries, waits :=
              world.waits.set call ⟨provider, scope, deadline, maximum, .starting⟩, log := world.log ++ [] } :=
          sound.expire (by simp) _ world.entries (.inl rfl)
        simpa using begun
  | advance call reading =>
    unfold World.step
    dsimp only
    split
    · exact sound
    · split
      · exact sound
      · exact (sound.read reading).advance call _ _
  | timeout call =>
    unfold World.step
    dsimp only
    split
    · exact sound
    · split
      · exact sound.goTo call _ _ (by simp)
      · exact sound
  | abandon call =>
    unfold World.step
    dsimp only
    split
    · exact sound
    · split
      · exact sound
      · exact sound.goTo call _ _ (by simp)

theorem sound_run (inputs : List (Input D)) : Sound (run World.step .start inputs) :=
  run_invariant Sound (fun _ input sound => sound.step input) sound_start inputs

end Steps

end OpenSquilla.Cooldowns
