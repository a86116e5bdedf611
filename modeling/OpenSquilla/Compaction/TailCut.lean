import Mathlib.Algebra.BigOperators.Group.List.Basic
import OpenSquilla.Compaction.Boundaries
import OpenSquilla.Compaction.LiveRounds

set_option autoImplicit false

namespace OpenSquilla.Compaction

structure ReplaySizes where
  entryTokens : JsonValue → Nat
  replayChars : List JsonValue → Nat

structure KeepLimits where
  keepBudget : Nat
  keepCharBudget : Option Nat
  retainTokens : Option Nat

structure CompactionConfig where
  protectedRecentMessages : Int
  -- of the budget, when there is one
  retainedTailMessages : Option Int
  protectSemanticTail : Bool

variable (lib : EntryLibrary) (sizes : ReplaySizes) (limits : KeepLimits)

def roundTokens (round : List JsonValue) : Nat := (round.map sizes.entryTokens).sum

def packRounds (keptTokens keptChars keepStart : Nat) : List (List JsonValue) → Nat
  | [] => keepStart
  | round :: rest =>
    let tokens := keptTokens + roundTokens sizes round
    let chars := keptChars + sizes.replayChars round
    if limits.keepBudget < tokens ∨ limits.keepCharBudget.any (· < chars) then keepStart
    else if limits.retainTokens.any (· ≤ tokens) then keepStart - round.length
    else packRounds tokens chars (keepStart - round.length) rest

def findTurnBoundaryCut (entries : List JsonValue) : Nat :=
  let groups := apiRoundGroups lib entries
  if groups.isEmpty then 0
  else
    let keepStart := packRounds sizes limits 0 0 entries.length groups.reverse
    if keepStart = 0 then 0
    -- the newest round alone is over a budget
    else if keepStart = entries.length then entries.length
    else retreatToApiRoundBoundary lib entries keepStart

def effectiveProtectedRecentMessages (config : CompactionConfig) : Int :=
  let configured := max 0 config.protectedRecentMessages
  config.retainedTailMessages.elim configured (max configured)

def applyProtectedTail (config : CompactionConfig) (entries : List JsonValue) (cut : Nat) : Nat :=
  let protectedRecent := effectiveProtectedRecentMessages config
  let protectedStart :=
    if 0 < protectedRecent then (entries.length - protectedRecent).toNat else entries.length
  let semanticStart :=
    if config.protectSemanticTail then semanticProtectedTailStart lib entries
    else entries.length
  min cut (min protectedStart semanticStart)

def automaticCut (config : CompactionConfig) (force pressure : Bool) (entries : List JsonValue) : Nat :=
  let found := findTurnBoundaryCut lib sizes limits entries
  let cut :=
    if force then entries.length
    -- soft pressure replaces one complete old round
    else if found = 0 ∧ pressure then ((apiRoundGroups lib entries).head?.map List.length).getD 0
    else found
  retreatToApiRoundBoundary lib entries (applyProtectedTail lib config entries cut)

section Protection

variable {lib}

theorem retreatToApiRoundBoundary_floor (lib : EntryLibrary) (entries : List JsonValue) (cut : Nat) :
    retreatToApiRoundBoundary lib entries cut ≤
      Grouping.floor (apiRoundBoundaries lib entries) cut := by
  obtain ⟨mem, -⟩ := Grouping.floor_mem_le (zero_mem_boundaries lib entries) cut
  obtain ⟨before, after, groups, here⟩ := Grouping.mem_boundaries.mp mem
  unfold retreatToApiRoundBoundary
  change Grouping.floor (apiRoundBoundaries lib entries) cut = _ at here
  rw [here, retreatToTurnBoundary_boundary groups]
  split
  next => exact withoutToolRun_length_le lib _
  next => exact Nat.le_refl _

theorem retreatToApiRoundBoundary_le (lib : EntryLibrary) (entries : List JsonValue) (cut : Nat) :
    retreatToApiRoundBoundary lib entries cut ≤ cut :=
  Nat.le_trans (retreatToApiRoundBoundary_floor lib entries cut)
    (Grouping.floor_mem_le (zero_mem_boundaries lib entries) cut).2

structure Protected (lib : EntryLibrary) (config : CompactionConfig) (entries : List JsonValue)
    (cut : Nat) : Prop where
  inside : cut ≤ entries.length
  recent : min (effectiveProtectedRecentMessages config) entries.length ≤
    (entries.drop cut).length
  semantic : config.protectSemanticTail = true → ∀ round ∈ (apiRoundGroups lib entries).getLast?,
    LiveRound lib round → round <:+ entries.drop cut

variable {entries round : List JsonValue} {earlier : List (List JsonValue)}

theorem length_of_last (groups : apiRoundGroups lib entries = earlier ++ [round]) :
    entries.length = earlier.flatten.length + round.length := by
  have whole := apiRoundGroups_flatten lib entries
  rw [groups, List.flatten_append, List.flatten_singleton] at whole
  rw [← whole, List.length_append]

theorem round_ne_nil (mem : round ∈ apiRoundGroups lib entries) :
    round ≠ [] := (groupRounds_shape lib [] entries .nil round mem).1

theorem last_isSuffix_iff {cut : Nat} (groups : apiRoundGroups lib entries = earlier ++ [round]) :
    round <:+ entries.drop cut ↔ cut ≤ earlier.flatten.length := by
  have whole := apiRoundGroups_flatten lib entries
  rw [groups, List.flatten_append, List.flatten_singleton] at whole
  have some : round.length ≠ 0 := fun empty =>
    round_ne_nil (groups ▸ List.mem_append_right _ (List.mem_singleton_self round))
      (List.length_eq_zero_iff.mp empty)
  constructor
  · intro kept
    have longer := kept.length_le
    rw [List.length_drop, length_of_last groups] at longer
    omega
  · intro lower
    rw [← whole, List.drop_append_of_le_length lower]
    exact List.suffix_append _ _

theorem semanticProtectedTailStart_of_last (groups : apiRoundGroups lib entries = earlier ++ [round]) :
    semanticProtectedTailStart lib entries =
      if apiRoundRequiresRaw lib round then earlier.flatten.length else entries.length := by
  unfold semanticProtectedTailStart
  rw [groups, List.getLast?_concat, length_of_last groups]
  dsimp only
  rw [Nat.add_sub_cancel]

theorem automaticCut_le (lib : EntryLibrary) (config : CompactionConfig) (force pressure : Bool)
    (entries : List JsonValue) : ∃ found, automaticCut lib sizes limits config force pressure entries ≤
      applyProtectedTail lib config entries found := by
  unfold automaticCut
  exact ⟨_, retreatToApiRoundBoundary_le lib entries _⟩

theorem automaticCut_recent (lib : EntryLibrary) (sizes : ReplaySizes) (limits : KeepLimits)
    (config : CompactionConfig) (force pressure : Bool) (entries : List JsonValue) :
    automaticCut lib sizes limits config force pressure entries ≤ entries.length ∧
      min (effectiveProtectedRecentMessages config) entries.length ≤
        (entries.drop (automaticCut lib sizes limits config force pressure entries)).length := by
  obtain ⟨found, lower⟩ := automaticCut_le sizes limits lib config force pressure entries
  unfold applyProtectedTail at lower
  dsimp only at lower
  have recent := Nat.le_trans lower (Nat.le_trans (Nat.min_le_right _ _) (Nat.min_le_left _ _))
  rw [List.length_drop]
  split at recent <;> omega

theorem automaticCut_recorded {config : CompactionConfig} {force pressure : Bool}
    (groups : apiRoundGroups lib entries = earlier ++ [round])
    (protect : config.protectSemanticTail = true) (recorded : Recorded lib round) :
    automaticCut lib sizes limits config force pressure entries ≤ earlier.flatten.length := by
  obtain ⟨found, lower⟩ := automaticCut_le sizes limits lib config force pressure entries
  unfold applyProtectedTail at lower
  dsimp only at lower
  rw [if_pos protect, semanticProtectedTailStart_of_last groups, if_pos (apiRoundRequiresRaw_iff.mpr recorded)]
    at lower
  exact Nat.le_trans lower (Nat.le_trans (Nat.min_le_right _ _) (Nat.min_le_right _ _))

theorem retreat_below_last {cut : Nat}
    (groups : apiRoundGroups lib entries = earlier ++ [round]) (below : cut < entries.length) :
    retreatToApiRoundBoundary lib entries cut ≤ earlier.flatten.length := by
  obtain ⟨mem, reached⟩ := Grouping.floor_mem_le (zero_mem_boundaries lib entries) cut
  obtain ⟨before, after, groups', here⟩ := Grouping.mem_boundaries.mp mem
  refine Nat.le_trans (retreatToApiRoundBoundary_floor lib entries cut) ?_
  change Grouping.floor (apiRoundBoundaries lib entries) cut = _ at here
  rw [here] at reached ⊢
  obtain rfl | ⟨init, final, rfl⟩ := List.eq_nil_or_concat after
  · have whole := apiRoundGroups_flatten lib entries
    rw [groups', List.append_nil] at whole
    rw [whole] at reached
    omega
  · rw [groups, List.concat_eq_append, ← List.append_assoc] at groups'
    obtain ⟨rfl, -⟩ := List.append_inj' groups' rfl
    rw [List.flatten_append, List.length_append]
    exact Nat.le_add_right _ _

theorem retreat_length (lib : EntryLibrary) (entries : List JsonValue) :
    retreatToApiRoundBoundary lib entries entries.length = entries.length := by
  have groups : apiRoundGroups lib entries = apiRoundGroups lib entries ++ [] :=
    (List.append_nil _).symm
  have whole : (apiRoundGroups lib entries).flatten.length = entries.length :=
    congrArg List.length (apiRoundGroups_flatten lib entries)
  have boundary : entries.length ∈ apiRoundBoundaries lib entries :=
    Grouping.mem_boundaries.mpr ⟨_, _, groups, whole.symm⟩
  have turn := retreatToTurnBoundary_boundary groups
  rw [whole] at turn
  unfold retreatToApiRoundBoundary
  rw [Grouping.floor_of_mem (zero_mem_boundaries lib entries) boundary]
  exact turn

end Protection

section Packing

variable {lib sizes limits}

def tokensOf (sizes : ReplaySizes) (rounds : List (List JsonValue)) : Nat :=
  (rounds.map (roundTokens sizes)).sum

def charsOf (sizes : ReplaySizes) (rounds : List (List JsonValue)) : Nat :=
  (rounds.map sizes.replayChars).sum

def Fits (sizes : ReplaySizes) (limits : KeepLimits) (rounds : List (List JsonValue)) : Prop :=
  tokensOf sizes rounds ≤ limits.keepBudget ∧
    ∀ budget ∈ limits.keepCharBudget, charsOf sizes rounds ≤ budget

def ReachesTarget (sizes : ReplaySizes) (limits : KeepLimits) (rounds : List (List JsonValue)) : Prop :=
  ∃ target ∈ limits.retainTokens, target ≤ tokensOf sizes rounds

/-- Trailing rounds within both budgets that the round before them cannot join, unless the
target is reached without it. -/
def Packed (sizes : ReplaySizes) (limits : KeepLimits) (before after : List (List JsonValue)) : Prop :=
  Fits sizes limits after ∧
    ∀ round ∈ before.getLast?, ¬Fits sizes limits (round :: after) ∨
      ReachesTarget sizes limits after

/-- Where the packing stops: one more round would not fit, or the last one reached the target. -/
def Stops (sizes : ReplaySizes) (limits : KeepLimits) (before after : List (List JsonValue)) : Prop :=
  Fits sizes limits after ∧
    (∀ round ∈ before.getLast?, ¬Fits sizes limits (round :: after) ∨
      (after ≠ [] ∧ ReachesTarget sizes limits after)) ∧
    ∀ round rest, after = round :: rest → rest ≠ [] → ¬ReachesTarget sizes limits rest

theorem Stops.packed {before after : List (List JsonValue)}
    (stops : Stops sizes limits before after) : Packed sizes limits before after :=
  ⟨stops.1, fun round last => (stops.2.1 round last).imp_right And.right⟩

theorem tokensOf_append (rounds more : List (List JsonValue)) :
    tokensOf sizes (rounds ++ more) = tokensOf sizes rounds + tokensOf sizes more := by
  unfold tokensOf
  rw [List.map_append, List.sum_append]

theorem charsOf_append (rounds more : List (List JsonValue)) :
    charsOf sizes (rounds ++ more) = charsOf sizes rounds + charsOf sizes more := by
  unfold charsOf
  rw [List.map_append, List.sum_append]

theorem Fits.of_append {rounds more : List (List JsonValue)}
    (fits : Fits sizes limits (rounds ++ more)) : Fits sizes limits more := by
  obtain ⟨tokens, chars⟩ := fits
  rw [tokensOf_append] at tokens
  refine ⟨Nat.le_trans (Nat.le_add_left _ _) tokens, ?_⟩
  intro budget given
  have chars := chars budget given
  rw [charsOf_append] at chars
  exact Nat.le_trans (Nat.le_add_left _ _) chars

theorem ReachesTarget.append {more : List (List JsonValue)}
    (reached : ReachesTarget sizes limits more) (rounds : List (List JsonValue)) :
    ReachesTarget sizes limits (rounds ++ more) := by
  obtain ⟨target, given, below⟩ := reached
  refine ⟨target, given, ?_⟩
  rw [tokensOf_append]
  exact Nat.le_trans below (Nat.le_add_left _ _)

theorem fits_iff (round : List JsonValue) (after : List (List JsonValue)) : Fits sizes limits (round :: after) ↔
      ¬(limits.keepBudget < tokensOf sizes after + roundTokens sizes round ∨
        limits.keepCharBudget.any
          (· < charsOf sizes after + sizes.replayChars round) = true) := by
  have tokens : tokensOf sizes (round :: after) = tokensOf sizes after + roundTokens sizes round :=
    Nat.add_comm _ _
  have chars : charsOf sizes (round :: after) = charsOf sizes after + sizes.replayChars round :=
    Nat.add_comm _ _
  unfold Fits
  rw [tokens, chars, not_or, Nat.not_lt]
  cases limits.keepCharBudget with
  | none => simp
  | some budget => simp

theorem packRounds_stops (before after : List (List JsonValue)) (fits : Fits sizes limits after)
    (goes : after ≠ [] → ¬ReachesTarget sizes limits after) : ∃ first later, before ++ after = first ++ later ∧
      packRounds sizes limits (tokensOf sizes after) (charsOf sizes after) before.flatten.length
        before.reverse = first.flatten.length ∧
      Stops sizes limits first later := by
  induction before using List.reverseRecOn generalizing after with
  | nil =>
    refine ⟨[], after, rfl, rfl, fits, ?_, ?_⟩
    · intro round last
      cases last
    · rintro round rest rfl some reached
      exact goes (List.cons_ne_nil _ _) (reached.append [round])
  | append_singleton init round ih =>
    rw [List.reverse_append, List.reverse_singleton, List.singleton_append]
    have length : (init ++ [round]).flatten.length - round.length = init.flatten.length := by
      rw [List.flatten_append, List.flatten_singleton, List.length_append, Nat.add_sub_cancel]
    have target : ∀ rest, after = rest → after ≠ [] → ¬ReachesTarget sizes limits rest := by
      rintro rest rfl
      exact goes
    unfold packRounds
    dsimp only
    split
    next isOver =>
      refine ⟨init ++ [round], after, rfl, rfl, fits, ?_, ?_⟩
      · intro last here
        rw [List.getLast?_concat] at here
        cases here
        exact Or.inl fun joined => (fits_iff round after).mp joined isOver
      · rintro first rest rfl some reached
        exact goes (List.cons_ne_nil _ _) (reached.append [first])
    next under =>
      have joined : Fits sizes limits (round :: after) := (fits_iff round after).mpr under
      have tokens : tokensOf sizes (round :: after) =
          tokensOf sizes after + roundTokens sizes round := Nat.add_comm _ _
      have chars : charsOf sizes (round :: after) =
          charsOf sizes after + sizes.replayChars round := Nat.add_comm _ _
      rw [length, ← tokens, ← chars]
      split
      next reached =>
        refine ⟨init, round :: after, by rw [List.append_assoc]; rfl, rfl, joined, ?_, ?_⟩
        · intro last here
          refine Or.inr ⟨List.cons_ne_nil _ _, ?_⟩
          obtain ⟨target, given, below⟩ := (Option.any_eq_true _ _).mp reached
          exact ⟨target, given, of_decide_eq_true below⟩
        · intro first rest same some
          obtain ⟨rfl, rfl⟩ := List.cons.inj same
          exact goes some
      next unreached =>
        obtain ⟨first, later, parts, found, stops⟩ := ih (round :: after) joined (by
          rintro - ⟨target, given, below⟩
          exact unreached ((Option.any_eq_true _ _).mpr ⟨target, given, decide_eq_true below⟩))
        exact ⟨first, later, by rw [List.append_assoc]; exact parts, found, stops⟩

theorem findTurnBoundaryCut_stops (lib : EntryLibrary) (sizes : ReplaySizes)
    (limits : KeepLimits) (entries : List JsonValue) :
    ∃ before after, apiRoundGroups lib entries = before ++ after ∧
      Stops sizes limits before after ∧
      findTurnBoundaryCut lib sizes limits entries =
        if after.flatten.head?.any (isToolResultEntry lib) then
          (withoutToolRun lib before.flatten).length
        else before.flatten.length := by
  have whole := apiRoundGroups_flatten lib entries
  have empty : Fits sizes limits [] := ⟨Nat.zero_le _, fun _ _ => Nat.zero_le _⟩
  obtain ⟨before, after, groups, found, stops⟩ := packRounds_stops (apiRoundGroups lib entries)
    [] empty (fun some => absurd rfl some)
  rw [List.append_nil] at groups
  rw [whole] at found
  change packRounds sizes limits 0 0 entries.length _ = _ at found
  refine ⟨before, after, groups, stops, ?_⟩
  unfold findTurnBoundaryCut
  dsimp only
  rw [found]
  rw [groups, List.flatten_append] at whole
  have none : before.flatten = [] → 0 = if after.flatten.head?.any (isToolResultEntry lib) then
      (withoutToolRun lib before.flatten).length else before.flatten.length := by
    intro nothing
    rw [nothing]
    split <;> rfl
  split
  next noGroups =>
    have nothing := (List.append_eq_nil_iff.mp (groups.symm.trans (List.isEmpty_iff.mp noGroups))).1
    exact none (by rw [nothing]; rfl)
  next =>
    split
    next zero => exact none (List.length_eq_zero_iff.mp zero)
    next =>
      split
      next all =>
        have nothing : after.flatten = [] := by
          rw [← whole, List.length_append] at all
          exact List.length_eq_zero_iff.mp (by omega)
        rw [nothing, all]
        rfl
      next =>
        have boundary : before.flatten.length ∈ apiRoundBoundaries lib entries :=
          Grouping.mem_boundaries.mpr ⟨before, after, groups, rfl⟩
        unfold retreatToApiRoundBoundary
        rw [Grouping.floor_of_mem (zero_mem_boundaries lib entries) boundary,
          retreatToTurnBoundary_boundary groups]

theorem Stops.unique {first first' later later' : List (List JsonValue)}
    (same : first ++ later = first' ++ later') (stops : Stops sizes limits first later)
    (stops' : Stops sizes limits first' later') : first = first' ∧ later = later' := by
  have shorter : ∀ {earlier before middle after : List (List JsonValue)},
      before = earlier ++ middle → Stops sizes limits before after →
      Stops sizes limits earlier (middle ++ after) → middle = [] := by
    rintro earlier before middle after rfl stops longer
    obtain rfl | ⟨init, round, rfl⟩ := List.eq_nil_or_concat middle
    · rfl
    rw [List.concat_eq_append] at *
    have last : (earlier ++ (init ++ [round])).getLast? = some round := by
      rw [← List.append_assoc, List.getLast?_concat]
    rw [List.append_assoc, List.singleton_append] at longer
    obtain isOver | ⟨some, reached⟩ := stops.2.1 round last
    · exact absurd longer.1.of_append isOver
    · cases init with
      | nil => exact absurd reached (longer.2.2 round after rfl some)
      | cons head rest =>
        refine absurd ?_ (longer.2.2 head (rest ++ round :: after) rfl (by simp))
        rw [← List.singleton_append, ← List.append_assoc]
        exact reached.append _
  obtain ⟨middle, firstIs, laterIs⟩ | ⟨middle, firstIs, laterIs⟩ := List.append_eq_append_iff.mp same
  · rw [laterIs] at stops
    obtain rfl := shorter firstIs stops' stops
    exact ⟨(firstIs.trans (List.append_nil _)).symm, laterIs⟩
  · rw [laterIs] at stops'
    obtain rfl := shorter firstIs stops stops'
    exact ⟨firstIs.trans (List.append_nil _), laterIs.symm⟩

end Packing

-- The kept suffix of a cut is made of whole rounds, as many as the limits take.
def KeepsPackedRounds (entries : List JsonValue) (cut : Nat) : Prop :=
  ∃ before after, apiRoundGroups lib entries = before ++ after ∧
    cut = before.flatten.length ∧ entries.drop cut = after.flatten ∧ Packed sizes limits before after

/-- Where the packing stops no two results meet, or their run begins with a round that still
fits. -/
def PackingRests (entries : List JsonValue) : Prop :=
  ∀ before after, apiRoundGroups lib entries = before ++ after → Stops sizes limits before after →
    ∀ x ∈ before.flatten.getLast?, ∀ y ∈ after.flatten.head?, ResultsMeet lib x y →
      ∃ earlier later, before = earlier ++ later ∧
        withoutToolRun lib before.flatten = earlier.flatten ∧ Fits sizes limits (later ++ after)

theorem drop_of_parts {entries : List JsonValue} {before after : List (List JsonValue)}
    (groups : apiRoundGroups lib entries = before ++ after) :
    entries.drop before.flatten.length = after.flatten := by
  have whole := apiRoundGroups_flatten lib entries
  rw [groups] at whole
  rw [← whole]
  exact Grouping.drop_boundary

theorem Packed.longer {sizes : ReplaySizes} {limits : KeepLimits}
    {earlier later after : List (List JsonValue)} (stops : Stops sizes limits (earlier ++ later) after)
    (fits : Fits sizes limits (later ++ after)) (some : later ≠ []) :
    Packed sizes limits earlier (later ++ after) := by
  refine ⟨fits, fun _ _ => Or.inr ?_⟩
  obtain rfl | ⟨init, round, rfl⟩ := List.eq_nil_or_concat later
  · exact absurd rfl some
  rw [List.concat_eq_append, List.append_assoc] at fits
  rw [List.concat_eq_append, ← List.append_assoc] at stops
  obtain isOver | ⟨-, reached⟩ := stops.2.1 round List.getLast?_concat
  · exact absurd fits.of_append isOver
  · exact reached.append _

theorem keepsPackedRounds_iff (lib : EntryLibrary) (sizes : ReplaySizes) (limits : KeepLimits)
    (entries : List JsonValue) : KeepsPackedRounds lib sizes limits entries
        (findTurnBoundaryCut lib sizes limits entries) ↔
      PackingRests lib sizes limits entries := by
  obtain ⟨before, after, groups, stops, found⟩ :=
    findTurnBoundaryCut_stops lib sizes limits entries
  rw [found]
  constructor
  · rintro ⟨before', after', groups', cut, -, fits, -⟩ first later parts stops' x last y head meet
    obtain ⟨rfl, rfl⟩ := Stops.unique (groups.symm.trans parts) stops stops'
    rw [head, Option.any_some, meet.2.1, if_pos rfl] at cut
    -- the run that ends at the stop is not empty
    have shorter : (withoutToolRun lib before.flatten).length < before.flatten.length := by
      obtain ⟨init, ends⟩ := List.getLast?_eq_some_iff.mp last
      have rest := withoutToolRun_length_le lib init
      unfold withoutToolRun at rest ⊢
      rw [ends, List.rdropWhile_concat_pos _ _ _ meet.1, List.length_append]
      exact Nat.lt_succ_of_le rest
    obtain ⟨middle, beforeIs, afterIs⟩ | ⟨middle, beforeIs, -⟩ :=
      List.append_eq_append_iff.mp (groups'.symm.trans groups)
    · refine ⟨before', middle, beforeIs, ?_, afterIs ▸ fits⟩
      have inside : before'.flatten <+: before.flatten := by
        rw [beforeIs, List.flatten_append]
        exact List.prefix_append _ _
      exact (List.prefix_of_prefix_length_le (withoutToolRun_isPrefix lib _) inside
        (Nat.le_of_eq cut)).eq_of_length cut
    · rw [beforeIs, List.flatten_append, List.length_append] at cut
      omega
  · intro rests
    cases result : after.flatten.head?.any (isToolResultEntry lib) with
    | false => exact ⟨before, after, groups, rfl, drop_of_parts lib groups, stops.packed⟩
    | true =>
      rw [if_pos rfl]
      by_cases apart : ∀ x ∈ before.flatten.getLast?, ∀ y ∈ after.flatten.head?,
          ¬ResultsMeet lib x y
      · rw [withoutToolRun_of_apart groups apart result]
        exact ⟨before, after, groups, rfl, drop_of_parts lib groups, stops.packed⟩
      · simp only [not_forall, not_not] at apart
        obtain ⟨x, last, y, head, meet⟩ := apart
        obtain ⟨earlier, later, rfl, start, fits⟩ := rests before after groups stops x last y head meet
        have regrouped := groups.trans (List.append_assoc earlier later after)
        rw [start]
        refine ⟨earlier, later ++ after, regrouped, rfl, drop_of_parts lib regrouped, ?_⟩
        obtain rfl | some := eq_or_ne later []
        · rw [List.append_nil] at stops
          exact stops.packed
        · exact Packed.longer stops fits some

-- Forced, or the newest round fits no budget, or pressure replaces the only round.
def ReachesEnd (force pressure : Bool) (entries round : List JsonValue) : Prop :=
  force = true ∨ ¬Fits sizes limits [round] ∨ pressure = true ∧ apiRoundGroups lib entries = [round]

/-- The cut reaches the end of the entries and no recent messages hold it back. -/
def TakesEverything (config : CompactionConfig) (force pressure : Bool) (entries round : List JsonValue) :
    Prop :=
  effectiveProtectedRecentMessages config ≤ 0 ∧ ReachesEnd lib sizes limits force pressure entries round

/-- No live round that the reading overlooks is the last one when the cut takes everything. -/
def NothingOverlooked (config : CompactionConfig) (force pressure : Bool) (entries : List JsonValue) : Prop :=
  config.protectSemanticTail = true → ∀ round ∈ (apiRoundGroups lib entries).getLast?,
    Overlooked lib round → ¬TakesEverything lib sizes limits config force pressure entries round

section Last

variable {lib sizes limits}

theorem findTurnBoundaryCut_of_last {entries round : List JsonValue} {earlier : List (List JsonValue)}
    (groups : apiRoundGroups lib entries = earlier ++ [round]) :
    (¬Fits sizes limits [round] ∧ findTurnBoundaryCut lib sizes limits entries = entries.length) ∨
      Fits sizes limits [round] ∧
        findTurnBoundaryCut lib sizes limits entries ≤ earlier.flatten.length := by
  obtain ⟨before, after, groups', stops, found⟩ := findTurnBoundaryCut_stops lib sizes limits entries
  rw [found]
  obtain rfl | ⟨init, final, rfl⟩ := List.eq_nil_or_concat after
  · rw [List.append_nil] at groups'
    have whole := apiRoundGroups_flatten lib entries
    rw [groups'] at whole
    refine .inl ⟨fun fits => ?_, congrArg List.length whole⟩
    rw [← groups', groups] at stops
    obtain isOver | ⟨some, -⟩ := stops.2.1 round List.getLast?_concat
    · exact isOver fits
    · exact some rfl
  · rw [List.concat_eq_append] at *
    rw [groups, ← List.append_assoc] at groups'
    obtain ⟨rfl, same⟩ := List.append_inj' groups' rfl
    obtain rfl := List.singleton_inj.mp same
    refine .inr ⟨stops.1.of_append, Nat.le_trans ?_ (Nat.le_add_right before.flatten.length init.flatten.length)
      |>.trans_eq (by rw [List.flatten_append, List.length_append])⟩
    split
    next => exact withoutToolRun_length_le lib _
    next => exact Nat.le_refl _

theorem chosenCut_of_last {force pressure : Bool} {entries round : List JsonValue}
    {earlier : List (List JsonValue)} (groups : apiRoundGroups lib entries = earlier ++ [round])
    {cut : Nat} (chosen : cut = if force then entries.length
      else if findTurnBoundaryCut lib sizes limits entries = 0 ∧ pressure then
        ((apiRoundGroups lib entries).head?.map List.length).getD 0
      else findTurnBoundaryCut lib sizes limits entries) :
    (ReachesEnd lib sizes limits force pressure entries round ∧ cut = entries.length) ∨
      ¬ReachesEnd lib sizes limits force pressure entries round ∧ cut ≤ earlier.flatten.length := by
  have length := length_of_last groups
  have last : round ∈ apiRoundGroups lib entries :=
    groups ▸ List.mem_append_right _ (List.mem_singleton_self round)
  have some : round.length ≠ 0 := fun empty => round_ne_nil last (List.length_eq_zero_iff.mp empty)
  cases force with
  | true => exact .inl ⟨.inl rfl, chosen⟩
  | false =>
    rw [if_neg Bool.false_ne_true] at chosen
    obtain ⟨exceeds, found⟩ | ⟨fits, found⟩ := @findTurnBoundaryCut_of_last lib sizes limits _ _ _ groups
    · rw [found, if_neg fun zero => by omega] at chosen
      exact .inl ⟨.inr (.inl exceeds), chosen⟩
    have fixed : ReachesEnd lib sizes limits false pressure entries round ↔
        pressure = true ∧ apiRoundGroups lib entries = [round] := by
      simp [ReachesEnd, fits]
    rw [fixed]
    cases earlier with
    | nil =>
      rw [List.nil_append] at groups
      have zero := Nat.le_zero.mp found
      rw [groups, zero] at chosen
      cases pressure with
      | true => exact .inl ⟨⟨rfl, groups⟩, chosen.trans ((Nat.zero_add _).symm.trans length.symm)⟩
      | false =>
          exact .inr ⟨fun both => Bool.false_ne_true both.1, Nat.le_of_eq (chosen.trans (if_neg (by simp)))⟩
    | cons head rest =>
      have more : apiRoundGroups lib entries ≠ [round] := by
        rw [groups]
        simp
      refine .inr ⟨fun both => more both.2, ?_⟩
      rw [chosen, groups]
      split
      next => simp
      next => exact found

theorem automaticCut_le_last_iff {config : CompactionConfig} {force pressure : Bool}
    {entries round : List JsonValue} {earlier : List (List JsonValue)}
    (groups : apiRoundGroups lib entries = earlier ++ [round])
    (finished : config.protectSemanticTail = true → ¬Recorded lib round) :
    automaticCut lib sizes limits config force pressure entries ≤ earlier.flatten.length ↔
      ¬TakesEverything lib sizes limits config force pressure entries round := by
  have length := length_of_last groups
  have last : round ∈ apiRoundGroups lib entries :=
    groups ▸ List.mem_append_right _ (List.mem_singleton_self round)
  have some : round.length ≠ 0 := fun empty => round_ne_nil last (List.length_eq_zero_iff.mp empty)
  have semantic : (if config.protectSemanticTail = true then semanticProtectedTailStart lib entries
      else entries.length) = entries.length := by
    split
    next protect =>
      rw [semanticProtectedTailStart_of_last groups,
          if_neg fun raw => finished protect (apiRoundRequiresRaw_iff.mp raw)]
    next => rfl
  unfold automaticCut applyProtectedTail TakesEverything
  dsimp only
  rw [semantic]
  generalize chosen : (if force = true then entries.length else _) = cut
  have chosen := chosenCut_of_last groups chosen.symm
  by_cases held : 0 < effectiveProtectedRecentMessages config
  · rw [if_pos held]
    refine iff_of_true (retreat_below_last groups ?_) fun takes => absurd takes.1 (not_le.mpr held)
    omega
  · rw [if_neg held, Nat.min_self]
    obtain ⟨takes, whole⟩ | ⟨leaves, lower⟩ := chosen
    · rw [whole, Nat.min_self, retreat_length]
      refine iff_of_false ?_ fun leaves => leaves ⟨not_lt.mp held, takes⟩
      omega
    · refine iff_of_true (retreat_below_last groups ?_) fun takes => leaves takes.2
      omega

end Last

/-- The automatic cut keeps the protected messages and, unless the reading overlooks it, the live
last round; the cut before the protection is packed from whole rounds just when the packing rests
at its stop. -/
theorem automatic_cut_iff (lib : EntryLibrary) (sizes : ReplaySizes) (limits : KeepLimits)
    (config : CompactionConfig) (force pressure : Bool) (entries : List JsonValue) :
    (Protected lib config entries
          (automaticCut lib sizes limits config force pressure entries) ↔
        NothingOverlooked lib sizes limits config force pressure entries) ∧
      (KeepsPackedRounds lib sizes limits entries
          (findTurnBoundaryCut lib sizes limits entries) ↔
        PackingRests lib sizes limits entries) := by
  refine ⟨⟨fun kept protect round last overlooked => ?_, fun nothing => ?_⟩,
    keepsPackedRounds_iff lib sizes limits entries⟩
  · obtain ⟨earlier, groups⟩ := List.getLast?_eq_some_iff.mp last
    exact (automaticCut_le_last_iff groups fun _ => overlooked.2).mp
      ((last_isSuffix_iff groups).mp (kept.semantic protect round last overlooked.1))
  · obtain ⟨inside, recent⟩ := automaticCut_recent lib sizes limits config force pressure entries
    refine ⟨inside, recent, fun protect round last live => ?_⟩
    obtain ⟨earlier, groups⟩ := List.getLast?_eq_some_iff.mp last
    rw [last_isSuffix_iff groups]
    by_cases recorded : Recorded lib round
    · exact automaticCut_recorded sizes limits groups protect recorded
    · exact (automaticCut_le_last_iff groups fun _ => recorded).mpr
        (nothing protect round last ⟨live, recorded⟩)

def writtenCallEntry : JsonValue :=
  .object [("role", .str "assistant"), ("content", .str "[tool_call: f]"), ("tool_calls", .list [])]

-- Two finished rows of one token each, one of which fits: the retreat keeps both of them. And a
-- forced cut takes a call that its message writes down beside an empty list of segments.
theorem automatic_cut_fails : (¬∀ (sizes : ReplaySizes) (limits : KeepLimits) (entries : List JsonValue),
      KeepsPackedRounds asciiLibrary sizes limits entries
        (findTurnBoundaryCut asciiLibrary sizes limits entries)) ∧
    ¬∀ (sizes : ReplaySizes) (limits : KeepLimits) (config : CompactionConfig) (force pressure : Bool)
      (entries : List JsonValue), Protected asciiLibrary config entries
        (automaticCut asciiLibrary sizes limits config force pressure entries) := by
  constructor
  · intro keeps
    obtain ⟨before, after, groups, cut, -⟩ := keeps ⟨fun _ => 1, fun _ => 0⟩ ⟨1, none, none⟩
      [userEntry, finishedEntry, finishedEntry]
    have boundary : findTurnBoundaryCut asciiLibrary ⟨fun _ => 1, fun _ => 0⟩ ⟨1, none, none⟩
        [userEntry, finishedEntry, finishedEntry] ∈
        apiRoundBoundaries asciiLibrary [userEntry, finishedEntry, finishedEntry] :=
      Grouping.mem_boundaries.mpr ⟨before, after, groups, cut⟩
    revert boundary
    decide
  · intro keeps
    have kept := keeps ⟨fun _ => 1, fun _ => 0⟩ ⟨1, none, none⟩ ⟨0, none, true⟩ true false [writtenCallEntry]
    have live : LiveRound asciiLibrary [writtenCallEntry] := by
      refine .inl (.inr (.inr ⟨_, List.suffix_rfl, ?_⟩))
      decide
    have round := (kept.semantic rfl [writtenCallEntry] rfl live).length_le
    revert round
    decide

end OpenSquilla.Compaction
