import OpenSquilla.Compaction.Rounds

set_option autoImplicit false

namespace OpenSquilla.Compaction

variable {lib : EntryLibrary}

theorem get?_append_cons (before : List JsonValue) (entry : JsonValue) (after : List JsonValue) :
    (before ++ entry :: after)[before.length]? = some entry := by
  rw [List.getElem?_append_right (Nat.le_refl _), Nat.sub_self]
  rfl

theorem get?_append_head (before after : List JsonValue) : (before ++ after)[before.length]? = after.head? := by
  cases after with
  | nil => rw [List.append_nil]; exact List.getElem?_eq_none (Nat.le_refl _)
  | cons entry rest => exact get?_append_cons before entry rest

theorem get?_append_last (before after : List JsonValue) (some : before ≠ []) :
    (before ++ after)[before.length - 1]? = before.getLast? := by
  obtain ⟨init, last, rfl⟩ := List.eq_nil_or_concat before |>.resolve_left some
  rw [List.concat_eq_append, List.getLast?_concat, List.length_append, List.append_assoc]
  exact get?_append_cons init last after

theorem resultStart_append (before after : List JsonValue) : resultStart lib (before ++ after) before.length =
      (before.rdropWhile (isToolResultEntry lib)).length := by
  induction before using List.reverseRecOn generalizing after with
  | nil => rfl
  | append_singleton init last ih =>
    rw [List.length_append, List.append_assoc, List.length_singleton, resultStart,
      List.singleton_append, get?_append_cons, Option.any_some]
    cases result : isToolResultEntry lib last with
    | true =>
      rw [if_pos rfl, List.rdropWhile_concat_pos _ _ _ result]
      exact ih (last :: after)
    | false =>
      rw [if_neg Bool.false_ne_true,
        List.rdropWhile_concat_neg _ _ _ (by rw [result]; exact Bool.false_ne_true),
        List.length_append]
      rfl

-- The entries before a run of results, and before the call of that run.
def withoutToolRun (lib : EntryLibrary) (entries : List JsonValue) : List JsonValue :=
  let base := entries.rdropWhile (isToolResultEntry lib)
  if base.getLast?.any (isAssistantToolCallEntry lib) then base.dropLast else base

theorem withoutToolRun_isPrefix (lib : EntryLibrary) (entries : List JsonValue) :
    withoutToolRun lib entries <+: entries := by
  have shorter := List.rdropWhile_prefix (isToolResultEntry lib) entries
  unfold withoutToolRun
  dsimp only
  split
  next => exact (List.dropLast_prefix _).trans shorter
  next => exact shorter

theorem withoutToolRun_length_le (lib : EntryLibrary) (entries : List JsonValue) :
    (withoutToolRun lib entries).length ≤ entries.length :=
  (withoutToolRun_isPrefix lib entries).length_le
variable {entries : List JsonValue}

theorem retreatLoop_stop {turns cut : Nat} (enough : cut ≤ turns)
    (stops : 0 < cut → retreatNext lib entries cut = none) : retreatLoop lib entries turns cut = cut := by
  cases turns with
  | zero => exact (Nat.le_zero.mp enough).symm
  | succ turns =>
    unfold retreatLoop
    split
    next zero => exact zero.symm
    next positive => rw [stops (Nat.pos_of_ne_zero positive)]

theorem retreatNext_plain {before after : List JsonValue}
    (plain : after.head?.any (isToolResultEntry lib) = false) :
    retreatNext lib (before ++ after) before.length = none := by
  unfold retreatNext
  dsimp only
  rw [get?_append_head, plain]
  rfl

theorem getLast?_rdropWhile {last : JsonValue}
    (here : (entries.rdropWhile (isToolResultEntry lib)).getLast? = some last) :
    isToolResultEntry lib last = false := by
  have some : entries.rdropWhile (isToolResultEntry lib) ≠ [] := by
    intro empty
    rw [empty] at here
    cases here
  have noResult := List.rdropWhile_last_not (isToolResultEntry lib) entries some
  rw [List.getLast?_eq_some_getLast some] at here
  cases here
  exact Bool.not_eq_true _ ▸ noResult

theorem retreatNext_result {before after : List JsonValue} (some' : before ≠ [])
    (result : after.head?.any (isToolResultEntry lib) = true) :
    retreatNext lib (before ++ after) before.length =
      let base := before.rdropWhile (isToolResultEntry lib)
      if base.getLast?.any (isAssistantToolCallEntry lib) then some (base.length - 1)
      else if base.length ≠ before.length then some base.length
      else none := by
  have parts : before.rdropWhile (isToolResultEntry lib) ++
      before.rtakeWhile (isToolResultEntry lib) = before :=
    List.rdropWhile_append_rtakeWhile
  unfold retreatNext
  dsimp only
  rw [get?_append_head, if_pos result, resultStart_append]
  generalize before.rdropWhile (isToolResultEntry lib) = base at parts ⊢
  have last : base ≠ [] → (before ++ after)[base.length - 1]? = base.getLast? := by
    intro some
    rw [← parts, List.append_assoc]
    exact get?_append_last _ _ some
  cases call : base.getLast?.any (isAssistantToolCallEntry lib) with
  | true =>
    have some : base ≠ [] := by
      rintro rfl
      cases call
    rw [last some, call, if_pos ⟨List.length_pos_of_ne_nil some, rfl⟩, if_pos rfl]
  | false =>
    have noCall : ¬(0 < base.length ∧
        (before ++ after)[base.length - 1]?.any (isAssistantToolCallEntry lib) = true) := by
      rintro ⟨positive, here⟩
      rw [last (List.ne_nil_of_length_pos positive), call] at here
      cases here
    rw [if_neg noCall, if_neg Bool.false_ne_true]
    split
    next => rfl
    next same =>
      have inside : base <+: before := parts ▸ List.prefix_append base _
      obtain rfl := inside.eq_of_length (not_not.mp same)
      rw [last some', call]
      rfl

theorem withoutToolRun_settled {before : List JsonValue}
    (settled : ∀ last ∈ before.getLast?, isToolResultEntry lib last = false ∧
      isAssistantToolCallEntry lib last = false) : withoutToolRun lib before = before := by
  cases before using List.reverseRecOn with
  | nil => rfl
  | append_singleton init last =>
    obtain ⟨noResult, noCall⟩ := settled last List.getLast?_concat
    unfold withoutToolRun
    dsimp only
    rw [List.rdropWhile_concat_neg _ _ _ (by rw [noResult]; exact Bool.false_ne_true),
      List.getLast?_concat, Option.any_some, noCall]
    rfl

theorem retreatToTurnBoundary_append (before after : List JsonValue) :
    retreatToTurnBoundary lib (before ++ after) before.length =
      if after.head?.any (isToolResultEntry lib) then
        (withoutToolRun lib before).length
      else before.length := by
  unfold retreatToTurnBoundary
  cases result : after.head?.any (isToolResultEntry lib) with
  | false => exact retreatLoop_stop (Nat.le_refl _) fun _ => retreatNext_plain result
  | true =>
    rw [if_pos rfl]
    obtain rfl | some := eq_or_ne before []
    · rfl
    have next := retreatNext_result some result
    have parts : before.rdropWhile (isToolResultEntry lib) ++
        before.rtakeWhile (isToolResultEntry lib) = before :=
      List.rdropWhile_append_rtakeWhile
    have noResult : ∀ last, (before.rdropWhile (isToolResultEntry lib)).getLast? = .some last →
        isToolResultEntry lib last = false := fun _ => getLast?_rdropWhile
    have settled := List.rdropWhile_idempotent (isToolResultEntry lib) before
    have results : ∀ entry ∈ before.rtakeWhile (isToolResultEntry lib),
        isToolResultEntry lib entry = true := fun _ => List.mem_rtakeWhile_imp
    obtain ⟨turns, length⟩ := Nat.exists_eq_succ_of_ne_zero
      (Nat.ne_of_gt (List.length_pos_of_ne_nil some))
    unfold withoutToolRun
    dsimp only at next ⊢
    generalize before.rdropWhile (isToolResultEntry lib) = base at *
    generalize before.rtakeWhile (isToolResultEntry lib) = run at *
    have lengths := congrArg List.length parts
    rw [List.length_append, length] at lengths
    rw [length] at next ⊢
    unfold retreatLoop
    rw [if_neg (Nat.succ_ne_zero turns), next]
    cases call : base.getLast?.any (isAssistantToolCallEntry lib) with
    | true =>
      -- the call itself is no result, so the cut rests there
      obtain rfl | ⟨init, last, rfl⟩ := List.eq_nil_or_concat base
      · cases call
      rw [List.concat_eq_append] at *
      have plain := noResult last List.getLast?_concat
      rw [if_pos rfl, if_pos rfl, List.dropLast_concat, List.length_append, List.length_singleton,
        Nat.add_sub_cancel, ← parts, List.append_assoc, List.append_assoc]
      rw [List.length_append, List.length_singleton] at lengths
      apply retreatLoop_stop (by omega)
      intro _
      exact retreatNext_plain (by rw [List.singleton_append, List.head?_cons, Option.any_some, plain])
    | false =>
      rw [if_neg Bool.false_ne_true, if_neg Bool.false_ne_true]
      split
      next same =>
        split at same
        next => cases same
        next whole => exact (not_not.mp whole).symm
      next earlier here =>
        split at here
        next shorter =>
          cases here
          apply retreatLoop_stop (by omega)
          intro positive
          have head : (run ++ after).head?.any (isToolResultEntry lib) = true := by
            cases run with
            | nil => simp at lengths; omega
            | cons first others => exact results first List.mem_cons_self
          rw [← parts, List.append_assoc, retreatNext_result (List.ne_nil_of_length_pos positive) head]
          dsimp only
          rw [settled, call, if_neg Bool.false_ne_true, if_neg (fun differ => differ rfl)]
        next => cases here

theorem cut_at {before after : List (List JsonValue)}
    (groups : apiRoundGroups lib entries = before ++ after) {x y : JsonValue}
    (last : before.flatten.getLast? = some x) (head : after.flatten.head? = some y)
    (result : isToolResultEntry lib y = true) : endsRound lib x = true ∨ (isAssistant lib y = true ∧
      (isAssistantToolCallEntry lib x = true → isToolResultEntry lib x = true)) := by
  have shape := groupRounds_shape lib [] entries .nil
  have cuts := groupRounds_cuts lib [] entries
  change ∀ round ∈ apiRoundGroups lib entries, _ at shape
  change (apiRoundGroups lib entries).IsChain _ at cuts
  rw [groups] at shape cuts
  obtain rfl | ⟨earlier, round, rfl⟩ := List.eq_nil_or_concat before
  · cases last
  cases after with
  | nil => cases head
  | cons next later =>
    rw [List.concat_eq_append] at *
    have cut := (List.isChain_append.mp cuts).2.2 round List.getLast?_concat next rfl
    obtain ⟨some, together⟩ := shape round (List.mem_append_left _
      (List.mem_append_right _ (List.mem_singleton_self round)))
    have begun := (shape next (List.mem_append_right _ List.mem_cons_self)).1
    have lastHere : round.getLast? = .some x := by
      rw [List.flatten_append, List.flatten_singleton, List.getLast?_append_of_ne_nil _ some] at last
      exact last
    have headHere : next.head? = .some y := by
      rw [List.flatten_cons, List.head?_append_of_ne_nil _ begun] at head
      exact head
    obtain plain | ⟨assistant, other, mem, otherResult⟩ | ⟨ending, here, ends⟩ := cut y headHere
    · rw [result] at plain
      cases plain
    · refine Or.inr ⟨assistant, fun call => ?_⟩
      obtain rfl | ⟨init, final, rfl⟩ := List.eq_nil_or_concat round
      · exact absurd rfl some
      rw [List.concat_eq_append, List.getLast?_concat] at lastHere
      cases lastHere
      rw [List.concat_eq_append] at mem together
      obtain early | single := List.mem_append.mp mem
      · have apart := (List.pairwise_append.mp together).2.2 other early x
          (List.mem_singleton_self x)
        exact absurd ⟨otherResult, isAssistant_of_call call⟩ apart
      · rw [← List.mem_singleton.mp single]
        exact otherResult
    · cases lastHere.symm.trans here
      exact Or.inl ends

-- An assistant entry that counts as a result stands right after another result.
def ResultsMeet (lib : EntryLibrary) (earlier later : JsonValue) : Prop :=
  isToolResultEntry lib earlier = true ∧ isToolResultEntry lib later = true ∧
    isAssistant lib later = true

theorem withoutToolRun_of_apart {before after : List (List JsonValue)}
    (groups : apiRoundGroups lib entries = before ++ after)
    (apart : ∀ x ∈ before.flatten.getLast?, ∀ y ∈ after.flatten.head?, ¬ResultsMeet lib x y)
    (result : after.flatten.head?.any (isToolResultEntry lib) = true) :
    withoutToolRun lib before.flatten = before.flatten := by
  apply withoutToolRun_settled
  intro last here
  obtain ⟨head, starts, result⟩ := (Option.any_eq_true _ _).mp result
  have cut := cut_at groups here starts result
  have noResult : isToolResultEntry lib last = false := by
    obtain ends | ⟨assistant, -⟩ := cut
    · unfold endsRound at ends
      simp only [Bool.and_eq_true, Bool.not_eq_true'] at ends
      exact ends.1.2
    · cases found : isToolResultEntry lib last with
      | false => rfl
      | true => exact absurd ⟨found, result, assistant⟩ (apart last here head starts)
  refine ⟨noResult, ?_⟩
  obtain ends | ⟨-, calls⟩ := cut
  · unfold endsRound at ends
    simp only [Bool.and_eq_true, Bool.not_eq_true'] at ends
    exact ends.1.1
  · cases call : isAssistantToolCallEntry lib last with
    | false => rfl
    | true =>
      rw [calls call] at noResult
      cases noResult

theorem retreatToTurnBoundary_boundary {before after : List (List JsonValue)}
    (groups : apiRoundGroups lib entries = before ++ after) :
    retreatToTurnBoundary lib entries before.flatten.length =
      if after.flatten.head?.any (isToolResultEntry lib) then
        (withoutToolRun lib before.flatten).length
      else before.flatten.length := by
  have whole := apiRoundGroups_flatten lib entries
  rw [groups, List.flatten_append] at whole
  rw [← whole]
  exact retreatToTurnBoundary_append _ _

def isToolRole (entry : JsonValue) : Bool := (entry.get "role").isText "tool"

/-- A kept tool-role result follows a removed call directly, through other such results. -/
def FollowsCall (lib : EntryLibrary) (entries : List JsonValue) (cut : Nat) : Prop :=
  ∃ before call between result after, entries = before ++ call :: (between ++ result :: after) ∧
    isAssistantToolCallEntry lib call = true ∧
    (∀ entry ∈ between, isToolRole entry = true) ∧ isToolRole result = true ∧
    before.length < cut ∧ cut ≤ before.length + 1 + between.length

structure CutsOnRounds (lib : EntryLibrary) (entries : List JsonValue) : Prop where
  whole : (apiRoundGroups lib entries).flatten = entries
  boundary : ∀ cut ≤ entries.length,
    retreatToApiRoundBoundary lib entries cut ∈ apiRoundBoundaries lib entries ∧
      retreatToApiRoundBoundary lib entries cut ≤ cut
  idempotent : ∀ cut ≤ entries.length,
    retreatToApiRoundBoundary lib entries (retreatToApiRoundBoundary lib entries cut) =
      retreatToApiRoundBoundary lib entries cut
  monotone : ∀ cut later, cut ≤ later → later ≤ entries.length →
    retreatToApiRoundBoundary lib entries cut ≤ retreatToApiRoundBoundary lib entries later
  stays : ∀ cut ∈ apiRoundBoundaries lib entries, ¬FollowsCall lib entries cut →
    retreatToApiRoundBoundary lib entries cut = cut
  kept : ∀ cut ≤ entries.length,
    ¬FollowsCall lib entries (retreatToApiRoundBoundary lib entries cut)

theorem isToolResult_of_toolRole {entry : JsonValue} (tool : isToolRole entry = true) :
    isToolResultEntry lib entry = true := by
  unfold isToolRole at tool
  unfold isToolResultEntry
  rw [tool]
  rfl

theorem not_assistant_of_toolRole {entry : JsonValue} (tool : isToolRole entry = true) :
    isAssistant lib entry = false := by
  have role : (entry.get "role").str? = some "tool" := of_decide_eq_true tool
  unfold isAssistant strOr
  cases held : entry.get "role" with
  | str value =>
    rw [held] at role
    cases role
    rfl
  | _ =>
    rw [held] at role
    cases role

theorem FollowsCall.sides {cut : Nat} (follows : FollowsCall lib entries cut) :
    ∃ before x y after, entries = before ++ x :: y :: after ∧ cut = before.length + 1 ∧
      (isAssistantToolCallEntry lib x = true ∨ isToolRole x = true) ∧
      isToolRole y = true := by
  obtain ⟨before, call, between, result, after, rfl, calls, tools, tool, low, high⟩ := follows
  obtain ⟨offset, rfl⟩ : ∃ offset, cut = before.length + 1 + offset := ⟨cut - (before.length + 1),
    by omega⟩
  have inside : offset ≤ between.length := by omega
  have parts := List.take_append_drop offset between
  have left : (between.take offset).length = offset := by
    rw [List.length_take]
    exact Nat.min_eq_left inside
  have tools' : ∀ entry ∈ between.take offset ++ between.drop offset, isToolRole entry = true := by
    rw [parts]
    exact tools
  rw [← parts]
  generalize between.take offset = passed at *
  generalize between.drop offset = ahead at *
  rw [List.forall_mem_append] at tools'
  have next : ∃ y rest, ahead ++ result :: after = y :: rest ∧ isToolRole y = true := by
    cases ahead with
    | nil => exact ⟨result, after, rfl, tool⟩
    | cons y rest => exact ⟨y, _, rfl, tools'.2 y List.mem_cons_self⟩
  obtain ⟨y, rest, same, toolY⟩ := next
  rw [List.append_assoc, same]
  obtain rfl | ⟨init, x, rfl⟩ := List.eq_nil_or_concat passed
  · refine ⟨before, call, y, rest, rfl, ?_, Or.inl calls, toolY⟩
    rw [← left]
    rfl
  · rw [List.concat_eq_append] at left tools' ⊢
    refine ⟨before ++ call :: init, x, y, rest, ?_, ?_, Or.inr ?_, toolY⟩
    · simp
    · rw [← left]
      simp
      omega
    · exact tools'.1 x (List.mem_append_right _ (List.mem_singleton_self x))

theorem not_followsCall_boundary {cut : Nat}
    (boundary : cut ∈ apiRoundBoundaries lib entries) : ¬FollowsCall lib entries cut := by
  intro follows
  obtain ⟨before, x, y, after, rfl, rfl, left, tool⟩ := follows.sides
  obtain ⟨first, later, groups, length⟩ := Grouping.mem_boundaries.mp boundary
  have whole := apiRoundGroups_flatten lib (before ++ x :: y :: after)
  rw [groups, List.flatten_append, ← List.singleton_append, ← List.append_assoc] at whole
  obtain ⟨firstIs, laterIs⟩ := List.append_inj whole (by rw [← length, List.length_append]; rfl)
  have cut := cut_at groups (by rw [firstIs, List.getLast?_concat]) (by rw [laterIs]; rfl)
    (isToolResult_of_toolRole tool)
  obtain ends | ⟨assistant, -⟩ := cut
  · unfold endsRound at ends
    simp only [Bool.and_eq_true, Bool.not_eq_true'] at ends
    obtain call | toolX := left
    · rw [call] at ends
      cases ends.1.1
    · rw [isToolResult_of_toolRole toolX] at ends
      cases ends.1.2
  · rw [not_assistant_of_toolRole tool] at assistant
    cases assistant

theorem zero_mem_boundaries (lib : EntryLibrary) (entries : List JsonValue) :
    0 ∈ apiRoundBoundaries lib entries :=
  List.mem_cons_self

theorem retreat_apart (apart : entries.IsChain fun x y => ¬ResultsMeet lib x y) (cut : Nat) :
    retreatToApiRoundBoundary lib entries cut =
      Grouping.floor (apiRoundBoundaries lib entries) cut := by
  have start := zero_mem_boundaries lib entries
  obtain ⟨before, after, groups, here⟩ := Grouping.mem_boundaries.mp
    (Grouping.floor_mem_le start cut).1
  unfold retreatToApiRoundBoundary
  change Grouping.floor (apiRoundBoundaries lib entries) cut = _ at here
  rw [here, retreatToTurnBoundary_boundary groups]
  split
  next result =>
    have whole := apiRoundGroups_flatten lib entries
    rw [groups, List.flatten_append] at whole
    rw [← whole, List.isChain_append] at apart
    rw [withoutToolRun_of_apart groups apart.2.2 result]
  next => rfl

theorem retreat_meet (before after : List JsonValue) {x y : JsonValue} (meet : ResultsMeet lib x y) :
    before.length + 1 ∈ apiRoundBoundaries lib (before ++ x :: y :: after) ∧
      retreatToApiRoundBoundary lib (before ++ x :: y :: after) (before.length + 1) <
        before.length + 1 := by
  have shape := groupRounds_shape lib [] (before ++ x :: y :: after) .nil
  have whole := apiRoundGroups_flatten lib (before ++ x :: y :: after)
  obtain ⟨first, later, groups, firstIs, laterIs⟩ := Grouping.split_of_apart
    (fun round mem => (shape round mem).2) whole (fun together => together ⟨meet.1, meet.2.2⟩)
  have length : before.length + 1 = first.flatten.length := by
    rw [firstIs, List.length_append]
    rfl
  have boundary : before.length + 1 ∈ apiRoundBoundaries lib (before ++ x :: y :: after) :=
    Grouping.mem_boundaries.mpr ⟨first, later, groups, length⟩
  refine ⟨boundary, ?_⟩
  unfold retreatToApiRoundBoundary
  rw [Grouping.floor_of_mem (zero_mem_boundaries lib _) boundary, length,
    retreatToTurnBoundary_boundary groups, laterIs, firstIs]
  rw [List.head?_cons, Option.any_some, meet.2.1, if_pos rfl]
  have shorter := withoutToolRun_length_le lib before
  unfold withoutToolRun at shorter ⊢
  rw [List.rdropWhile_concat_pos _ _ _ meet.1, List.length_append]
  exact Nat.lt_succ_of_le shorter

/-- Every cut falls on complete rounds just when no assistant entry that counts as a result comes
right after another result. -/
theorem cuts_on_rounds_iff (lib : EntryLibrary) (entries : List JsonValue) :
    CutsOnRounds lib entries ↔ entries.IsChain fun x y => ¬ResultsMeet lib x y := by
  have start := zero_mem_boundaries lib entries
  constructor
  · intro cuts
    rw [List.isChain_iff_forall_rel_of_append_cons_cons]
    rintro x y before after rfl meet
    obtain ⟨boundary, lower⟩ := retreat_meet before after meet
    rw [cuts.stays _ boundary (not_followsCall_boundary boundary)] at lower
    exact Nat.lt_irrefl _ lower
  · intro apart
    have same := retreat_apart apart
    have onBoundary := fun cut => (Grouping.floor_mem_le start cut).1
    refine ⟨apiRoundGroups_flatten lib entries, ?_, ?_, ?_, ?_, ?_⟩
    · intro cut _
      rw [same]
      exact Grouping.floor_mem_le start cut
    · intro cut _
      rw [same, same]
      exact Grouping.floor_of_mem start (onBoundary cut)
    · intro cut later order _
      rw [same, same]
      exact Grouping.floor_mono start order
    · intro cut boundary _
      rw [same]
      exact Grouping.floor_of_mem start boundary
    · intro cut _
      rw [same]
      exact not_followsCall_boundary (onBoundary cut)

def asciiLibrary : EntryLibrary := ⟨fun _ => "", fun text => text, fun _ => none⟩

def userEntry : JsonValue := .object [("role", .str "user"), ("content", .str "go on")]

def finishedEntry : JsonValue :=
  .object [("role", .str "assistant"), ("content", .str ""), ("tool_calls", .list [
    .object [("type", .str "tool_use"), ("tool_use_id", .str "c1"), ("name", .str "exec")],
    .object [("type", .str "tool_result"), ("tool_use_id", .str "c1"), ("result", .str "ok")]])]

-- the retreat from the start of the second finished row goes between the user and the first one
theorem retreat_inside_round : ¬∀ entries : List JsonValue, CutsOnRounds asciiLibrary entries := by
  intro cuts
  have boundary := ((cuts [userEntry, finishedEntry, finishedEntry]).boundary 2 (by decide)).1
  revert boundary
  decide

end OpenSquilla.Compaction
