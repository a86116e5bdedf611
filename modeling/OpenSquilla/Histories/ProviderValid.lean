import OpenSquilla.Histories.Settlement

set_option autoImplicit false

namespace OpenSquilla.Histories

def runResultIds (run : List Message) : List String :=
  run.flatMap (fun message => resultIds message.content.list)

def unionIds (run : List Message) : Finset String := (runResultIds run).toFinset

/-- What a provider accepts: plain messages, and assistant calls each followed at once by a run of
result messages, which hold one result for every id of the call and no other result. -/
inductive ProviderValid : List Message → Prop
  | nil : ProviderValid []
  | plain (message : Message) (rest : List Message) (noUses : message.toolUseIds = ∅)
      (noResults : message.toolResultIds = ∅) (valid : ProviderValid rest) :
      ProviderValid (message :: rest)
  | paired (call : Message) (run rest : List Message) (assistant : call.role = .assistant)
      (calls : call.toolUseIds ≠ ∅) (results : ∀ message ∈ run, message.toolResultIds ≠ ∅)
      (once : (runResultIds run).Nodup) (answers : unionIds run = call.toolUseIds)
      (valid : ProviderValid rest) : ProviderValid (call :: (run ++ rest))

-- The shortest run of result messages whose ids are those of the call.
structure Completes (useIds : Finset String) (run : List Message) : Prop where
  results : ∀ message ∈ run, message.toolResultIds ≠ ∅
  ids : unionIds run = useIds
  first : ∀ part, part <+: run → unionIds part = useIds → part = run

/-- No call has two messages with a result for the same id among those that complete it. -/
def AnsweredOnce (messages : List Message) : Prop :=
  ∀ before call run after, messages = before ++ call :: (run ++ after) →
    call.role = .assistant → call.toolUseIds ≠ ∅ → Completes call.toolUseIds run →
    run.Pairwise (fun first second => Disjoint first.toolResultIds second.toolResultIds)

section Runs

variable {useIds : Finset String} {run after : List Message}

theorem unionIds_nil : unionIds [] = ∅ := rfl

theorem unionIds_cons (message : Message) (run : List Message) :
    unionIds (message :: run) = message.toolResultIds ∪ unionIds run := by
  rw [unionIds, runResultIds, List.flatMap_cons, List.toFinset_append]
  rfl

theorem subset_unionIds {message : Message} (mem : message ∈ run) : message.toolResultIds ⊆ unionIds run := by
  intro id result
  rw [unionIds, List.mem_toFinset, runResultIds, List.mem_flatMap]
  exact ⟨message, mem, List.mem_toFinset.mp result⟩

theorem runLength_eq_some_iff {found : Finset String} {rest : List Message} {count : Nat} :
    runLength useIds found rest = some count ↔
      ∃ run after, rest = run ++ after ∧ run.length = count ∧ run ≠ [] ∧
        (∀ message ∈ run, message.toolResultIds ≠ ∅) ∧ found ∪ unionIds run = useIds ∧
        ∀ part, part <+: run → part ≠ [] → found ∪ unionIds part = useIds → part = run := by
  induction rest generalizing found count with
  | nil =>
    constructor
    · intro counted
      cases counted
    · rintro ⟨run, after, split, -, nonempty, -⟩
      exact absurd (List.append_eq_nil_iff.mp split.symm).1 nonempty
  | cons message rest ih =>
    constructor
    · intro counted
      unfold runLength at counted
      split at counted
      · cases counted
      next results =>
        split at counted
        · cases counted
        · split at counted
          next complete =>
            obtain rfl := Option.some.inj counted
            refine ⟨[message], rest, rfl, rfl, List.cons_ne_nil _ _, by simpa using results, ?_, ?_⟩
            · rw [unionIds_cons, unionIds_nil, Finset.union_empty, complete]
            · intro part isPrefix nonempty _
              rcases List.prefix_cons_iff.mp isPrefix with empty | ⟨tail, same, rest⟩
              · exact absurd empty nonempty
              · rw [same, List.prefix_nil.mp rest]
          next incomplete =>
            obtain ⟨later, countedLater, rfl⟩ := Option.map_eq_some_iff.mp counted
            obtain ⟨run, after, rfl, rfl, -, runResults, ids, first⟩ := ih.mp countedLater
            refine ⟨message :: run, after, rfl, rfl, List.cons_ne_nil _ _, ?_, ?_, ?_⟩
            · intro other mem
              rcases List.mem_cons.mp mem with rfl | inRun
              · exact results
              · exact runResults other inRun
            · rw [unionIds_cons, ← Finset.union_assoc, ids]
            · intro part isPrefix nonempty complete
              rcases List.prefix_cons_iff.mp isPrefix with rfl | ⟨tail, rfl, tailPrefix⟩
              · exact absurd rfl nonempty
              · rw [unionIds_cons, ← Finset.union_assoc] at complete
                by_cases empty : tail = []
                · rw [empty, unionIds_nil, Finset.union_empty] at complete
                  exact absurd complete incomplete
                · rw [first tail tailPrefix empty complete]
    · rintro ⟨run, after, split, rfl, nonempty, results, ids, first⟩
      obtain ⟨head, run, rfl⟩ := List.exists_cons_of_ne_nil nonempty
      obtain ⟨rfl, rfl⟩ := List.cons_eq_cons.mp split
      rw [unionIds_cons, ← Finset.union_assoc] at ids
      unfold runLength
      rw [if_neg (results message (List.mem_cons_self ..)),
        if_neg (not_not.mpr (ids ▸ Finset.subset_union_left))]
      by_cases complete : found ∪ message.toolResultIds = useIds
      · have alone := first [message] ⟨run, rfl⟩ (List.cons_ne_nil _ _)
          (by rw [unionIds_cons, unionIds_nil, Finset.union_empty, complete])
        rw [if_pos complete, ← alone, List.length_singleton]
      · rw [if_neg complete]
        have runNonempty : run ≠ [] := by
          rintro rfl
          rw [unionIds_nil, Finset.union_empty] at ids
          exact complete ids
        rw [ih.mpr ⟨run, after, rfl, rfl, runNonempty,
          fun other mem => results other (List.mem_cons_of_mem _ mem), ids, ?_⟩]
        · rfl
        · intro part isPrefix partNonempty partComplete
          have whole := first (message :: part) (List.prefix_cons_inj message |>.mpr isPrefix)
            (List.cons_ne_nil _ _) (by rw [unionIds_cons, ← Finset.union_assoc, partComplete])
          exact (List.cons_eq_cons.mp whole).2

theorem answerLength_eq_some_iff {call : Message} {rest : List Message} {count : Nat}
    (calls : call.toolUseIds ≠ ∅) : answerLength call rest = some count ↔ call.role = .assistant ∧
      ∃ run after, rest = run ++ after ∧ run.length = count ∧ Completes call.toolUseIds run := by
  unfold answerLength
  by_cases assistant : call.role = .assistant
  · rw [if_pos assistant, runLength_eq_some_iff]
    simp only [assistant, true_and, Finset.empty_union]
    constructor
    · rintro ⟨run, after, split, length, nonempty, results, ids, first⟩
      refine ⟨run, after, split, length, results, ids, fun part isPrefix complete => ?_⟩
      refine first part isPrefix ?_ complete
      rintro rfl
      exact calls complete.symm
    · rintro ⟨run, after, split, length, completes⟩
      refine ⟨run, after, split, length, ?_, completes.results, completes.ids,
        fun part isPrefix _ => completes.first part isPrefix⟩
      rintro rfl
      exact calls completes.ids.symm
  · simp [assistant]

theorem completes_unique {other otherAfter : List Message} (completes : Completes useIds run)
    (otherCompletes : Completes useIds other) (same : run ++ after = other ++ otherAfter) : run = other := by
  rcases List.prefix_or_prefix_of_prefix (List.prefix_append run after)
    (same ▸ List.prefix_append other otherAfter) with shorter | longer
  · exact otherCompletes.first run shorter completes.ids
  · exact (completes.first other longer otherCompletes.ids).symm

theorem completes_of_once (results : ∀ message ∈ run, message.toolResultIds ≠ ∅)
    (once : (runResultIds run).Nodup) (answers : unionIds run = useIds) : Completes useIds run where
  results := results
  ids := answers
  first part isPrefix complete := by
    obtain ⟨tail, rfl⟩ := isPrefix
    cases tail with
    | nil => rw [List.append_nil]
    | cons message tail =>
      have result := results message (by simp)
      obtain ⟨id, mem⟩ := Finset.nonempty_iff_ne_empty.mpr result
      have before : id ∈ unionIds part := by
        rw [complete, ← answers]
        exact subset_unionIds (by simp) mem
      rw [runResultIds, List.flatMap_append, List.nodup_append] at once
      refine absurd rfl (once.2.2 id (List.mem_toFinset.mp before) id ?_)
      rw [List.flatMap_cons, List.mem_append]
      exact .inl (List.mem_toFinset.mp mem)

end Runs

-- What the repair keeps of a history, segment by segment.
inductive Settles : List Message → List Message → Prop
  | nil : Settles [] []
  | plain (message : Message) (rest out : List Message) (noUses : message.toolUseIds = ∅)
      (noResults : message.toolResultIds = ∅) (tail : Settles rest out) :
      Settles (message :: rest) (message :: out)
  | orphanCall (message : Message) (rest out : List Message) (calls : message.toolUseIds ≠ ∅)
      (unanswered : message.role = .assistant →
        ¬∃ run after, rest = run ++ after ∧ Completes message.toolUseIds run)
      (tail : Settles rest out) : Settles (message :: rest) out
  | orphanResult (message : Message) (rest out : List Message) (noUses : message.toolUseIds = ∅)
      (results : message.toolResultIds ≠ ∅) (tail : Settles rest out) : Settles (message :: rest) out
  | paired (call : Message) (run rest out : List Message) (assistant : call.role = .assistant)
      (calls : call.toolUseIds ≠ ∅) (completes : Completes call.toolUseIds run)
      (tail : Settles rest out) :
      Settles (call :: (run ++ rest)) (call :: (run.map Message.deduped ++ out))

theorem settle_run (run rest : List Message) :
    settle run.length (run ++ rest) = run.map Message.deduped ++ settle 0 rest := by
  induction run with
  | nil => rfl
  | cons message run ih =>
    rw [List.cons_append, List.length_cons, settle, ih]
    rfl

theorem settle_paired {call : Message} {run : List Message} (rest : List Message)
    (assistant : call.role = .assistant) (calls : call.toolUseIds ≠ ∅)
    (completes : Completes call.toolUseIds run) :
    settle 0 (call :: (run ++ rest)) = call :: (run.map Message.deduped ++ settle 0 rest) := by
  have answer : answerLength call (run ++ rest) = some run.length :=
    (answerLength_eq_some_iff calls).mpr ⟨assistant, run, rest, rfl, rfl, completes⟩
  rw [settle, if_pos calls, answer]
  exact congrArg (call :: ·) (settle_run run rest)

theorem settles (messages : List Message) : Settles messages (settle 0 messages) := by
  induction length : messages.length using Nat.strong_induction_on generalizing messages with
  | _ size ih =>
    subst length
    cases messages with
    | nil => exact .nil
    | cons message rest =>
      have tail := ih rest.length (by simp) rest rfl
      by_cases noUses : message.toolUseIds = ∅
      · by_cases noResults : message.toolResultIds = ∅
        · simp only [settle, noUses, noResults, ne_eq, not_true_eq_false, if_false]
          exact .plain message rest _ noUses noResults tail
        · simp only [settle, noUses, noResults, ne_eq, not_true_eq_false, if_false,
            not_false_eq_true, if_true]
          exact .orphanResult message rest _ noUses noResults tail
      · cases answer : answerLength message rest with
        | some count =>
          obtain ⟨assistant, run, after, rfl, -, completes⟩ :=
            (answerLength_eq_some_iff noUses).mp answer
          rw [settle_paired after assistant noUses completes]
          exact .paired message run after _ assistant noUses completes
            (ih after.length (by simp only [List.length_cons, List.length_append]; omega) after rfl)
        | none =>
          simp only [settle, noUses, ne_eq, not_false_eq_true, if_true, answer]
          refine .orphanCall message rest _ noUses (fun assistant => ?_) tail
          rintro ⟨run, after, split, completes⟩
          rw [(answerLength_eq_some_iff noUses).mpr ⟨assistant, run, after, split, rfl, completes⟩]
            at answer
          cases answer

theorem deduped_list (message : Message) : message.deduped.content.list = keepLast message.content.list := by
  obtain ⟨role, content⟩ := message
  cases content <;> rfl

theorem toolResultIds_deduped (message : Message) : message.deduped.toolResultIds = message.toolResultIds := by
  ext id
  have same := mem_resultIds_keepLast message.content.list id
  rw [← deduped_list] at same
  simp only [Message.toolResultIds, extractToolResultIds, List.mem_toFinset]
  exact same

theorem toolUseIds_deduped (message : Message) : message.deduped.toolUseIds = message.toolUseIds := by
  have uses : ∀ content : List ContentBlock,
      content.filterMap (·.toolUseId?) =
        (content.filter (fun block => !isToolResultBlock block)).filterMap (·.toolUseId?) := by
    intro content
    induction content with
    | nil => rfl
    | cons block rest ih =>
      cases block with
      | toolUse id name input => exact congrArg (id :: ·) ih
      | toolResult toolUseId content isError => exact ih
      | other type data => exact ih
  rw [Message.toolUseIds, Message.toolUseIds, extractToolUseIds, extractToolUseIds, deduped_list,
    uses, filter_keepLast, ← uses]

theorem nodup_deduped (message : Message) : (resultIds message.deduped.content.list).Nodup := by
  rw [deduped_list]
  exact nodup_resultIds_keepLast _

theorem deduped_deduped (message : Message) : message.deduped.deduped = message.deduped :=
  deduped_of_nodup (nodup_deduped message)

theorem unionIds_deduped (run : List Message) : unionIds (run.map Message.deduped) = unionIds run := by
  induction run with
  | nil => rfl
  | cons message run ih =>
    rw [List.map_cons, unionIds_cons, unionIds_cons, ih, toolResultIds_deduped]

theorem completes_deduped {useIds : Finset String} {run : List Message}
    (completes : Completes useIds run) : Completes useIds (run.map Message.deduped) where
  results message mem := by
    obtain ⟨original, inRun, rfl⟩ := List.mem_map.mp mem
    rw [toolResultIds_deduped]
    exact completes.results original inRun
  ids := (unionIds_deduped run).trans completes.ids
  first part isPrefix complete := by
    rw [List.prefix_iff_eq_take, ← List.map_take] at isPrefix
    rw [isPrefix, unionIds_deduped] at complete
    rw [isPrefix, completes.first _ (List.take_prefix _ _) complete]

/-- The messages of the run hold one result for each id when no id has results in two of them. -/
theorem once_deduped_iff (run : List Message) : (runResultIds (run.map Message.deduped)).Nodup ↔
      run.Pairwise (fun first second => Disjoint first.toolResultIds second.toolResultIds) := by
  rw [runResultIds, List.nodup_flatMap]
  constructor
  · rintro ⟨-, apart⟩
    rw [List.pairwise_map] at apart
    refine apart.imp fun {first second} disjoint => ?_
    rw [← toolResultIds_deduped first, ← toolResultIds_deduped second]
    exact List.disjoint_toFinset_iff_disjoint.mpr disjoint
  · intro apart
    constructor
    · intro message mem
      obtain ⟨original, -, rfl⟩ := List.mem_map.mp mem
      exact nodup_deduped original
    · rw [List.pairwise_map]
      refine apart.imp fun {first second} disjoint => ?_
      rw [← toolResultIds_deduped first, ← toolResultIds_deduped second] at disjoint
      exact List.disjoint_toFinset_iff_disjoint.mp disjoint

def Message.Plain (message : Message) : Prop :=
  message.toolUseIds = ∅ ∧ message.toolResultIds = ∅

instance (message : Message) : Decidable message.Plain :=
  inferInstanceAs (Decidable (_ ∧ _))

/-- The second message is the first one, but for results that a later result of its id replaces. -/
structure Trimmed (message trimmed : Message) : Prop where
  role : trimmed.role = message.role
  blocks : trimmed.content.list.Sublist message.content.list
  others : trimmed.content.list.filter (fun block => !isToolResultBlock block) =
    message.content.list.filter (fun block => !isToolResultBlock block)
  results : trimmed.toolResultIds = message.toolResultIds
  text : ∀ words, message.content = .text words → trimmed = message

theorem trimmed_deduped (message : Message) : Trimmed message message.deduped where
  role := rfl
  blocks := by
    rw [deduped_list]
    exact keepLast_sublist _
  others := by rw [deduped_list, filter_keepLast]
  results := toolResultIds_deduped message
  text words text := deduped_of_no_results (by simp [Message.toolResultIds, text,
    extractToolResultIds, MessageContent.list])

theorem trimmed_refl (message : Message) : Trimmed message message :=
  ⟨rfl, List.Sublist.refl _, rfl, rfl, fun _ _ => rfl⟩

section Contract

variable {messages out : List Message}

theorem Unmixed.tail {message : Message} (unmixed : Unmixed (message :: messages)) : Unmixed messages :=
  fun other mem => unmixed other (List.mem_cons_of_mem _ mem)

theorem Unmixed.drop {call : Message} {run : List Message}
    (unmixed : Unmixed (call :: (run ++ messages))) : Unmixed messages :=
  fun other mem => unmixed other (List.mem_cons_of_mem _ (List.mem_append_right _ mem))

theorem Settles.subsequence (settles : Settles messages out) :
    ∃ kept, kept.Sublist messages ∧ List.Forall₂ Trimmed kept out := by
  induction settles with
  | nil => exact ⟨[], .slnil, .nil⟩
  | plain message rest out noUses noResults tail ih =>
    obtain ⟨kept, sublist, trimmed⟩ := ih
    exact ⟨message :: kept, sublist.cons_cons message, .cons (trimmed_refl message) trimmed⟩
  | orphanCall message rest out calls unanswered tail ih
  | orphanResult message rest out noUses results tail ih =>
    obtain ⟨kept, sublist, trimmed⟩ := ih
    exact ⟨kept, sublist.cons message, trimmed⟩
  | paired call run rest out assistant calls completes tail ih =>
    obtain ⟨kept, sublist, trimmed⟩ := ih
    refine ⟨call :: (run ++ kept), ((List.Sublist.refl run).append sublist).cons_cons call,
      .cons (trimmed_refl call) (List.rel_append ?_ trimmed)⟩
    exact List.forall₂_map_right_iff.mpr (List.forall₂_same.mpr fun message _ => trimmed_deduped message)

theorem Settles.plain_kept (settles : Settles messages out) :
    out.filter (·.Plain) = messages.filter (·.Plain) := by
  induction settles with
  | nil => rfl
  | plain message rest out noUses noResults tail ih =>
    rw [List.filter_cons, List.filter_cons, ih]
  | orphanCall message rest out calls unanswered tail ih =>
    rw [ih, List.filter_cons_of_neg (by simp [Message.Plain, calls])]
  | orphanResult message rest out noUses results tail ih =>
    rw [ih, List.filter_cons_of_neg (by simp [Message.Plain, results])]
  | paired call run rest out assistant calls completes tail ih =>
    have noneOf : ∀ part : List Message, (∀ message ∈ part, message.toolResultIds ≠ ∅) →
        part.filter (·.Plain) = [] := by
      intro part results
      refine List.filter_eq_nil_iff.mpr fun message mem => ?_
      simp [Message.Plain, results message mem]
    have notPlain : decide call.Plain = false := by simp [Message.Plain, calls]
    simp only [List.filter_cons, notPlain, Bool.false_eq_true, if_false, List.filter_append,
      noneOf run completes.results, noneOf _ (completes_deduped completes).results, ih]

theorem Settles.of_valid (settles : Settles messages out) (valid : ProviderValid messages) :
    out = messages := by
  induction settles with
  | nil => rfl
  | plain message rest out noUses noResults tail ih =>
    cases valid with
    | plain _ _ _ _ valid => rw [ih valid]
    | paired _ _ _ _ calls => exact absurd noUses calls
  | orphanCall message rest out calls unanswered tail ih =>
    cases valid with
    | plain _ _ noUses => exact absurd noUses calls
    | paired _ run after assistant _ results once answers _ =>
      exact absurd ⟨run, after, rfl, completes_of_once results once answers⟩ (unanswered assistant)
  | orphanResult message rest out noUses results tail ih =>
    cases valid with
    | plain _ _ _ noResults => exact absurd noResults results
    | paired _ _ _ _ calls => exact absurd noUses calls
  | paired call run rest out assistant calls completes tail ih =>
    generalize split : run ++ rest = all at valid
    cases valid with
    | plain _ _ noUses => exact absurd noUses calls
    | paired _ other after _ _ results once answers valid =>
      obtain rfl := completes_unique completes (completes_of_once results once answers) split
      obtain rfl := List.append_cancel_left split
      have asBefore : run.map Message.deduped = run := by
        refine (List.map_congr_left fun message mem => ?_).trans (List.map_id run)
        exact deduped_of_nodup ((List.nodup_flatMap.mp once).1 message mem)
      rw [ih valid, asBefore]

theorem Settles.unmixed (settles : Settles messages out) (unmixed : Unmixed messages) : Unmixed out := by
  induction settles with
  | nil => exact unmixed
  | plain message rest out noUses noResults tail ih =>
    exact List.forall_mem_cons.mpr ⟨.inl noUses, ih unmixed.tail⟩
  | orphanCall message rest out calls unanswered tail ih
  | orphanResult message rest out noUses results tail ih => exact ih unmixed.tail
  | paired call run rest out assistant calls completes tail ih =>
    refine List.forall_mem_cons.mpr ⟨unmixed call (List.mem_cons_self ..), ?_⟩
    refine List.forall_mem_append.mpr ⟨fun message mem => ?_, ih unmixed.drop⟩
    obtain ⟨original, inRun, rfl⟩ := List.mem_map.mp mem
    have unmixedOriginal := unmixed original (by simp [inRun])
    rwa [Message.Unmixed, toolUseIds_deduped, toolResultIds_deduped]

theorem Settles.again (settles : Settles messages out) : settle 0 out = out := by
  induction settles with
  | nil => rfl
  | plain message rest out noUses noResults tail ih => simp [settle, noUses, noResults, ih]
  | orphanCall message rest out calls unanswered tail ih
  | orphanResult message rest out noUses results tail ih => exact ih
  | paired call run rest out assistant calls completes tail ih =>
    have deduped : (run.map Message.deduped).map Message.deduped = run.map Message.deduped := by
      rw [List.map_map]
      exact List.map_congr_left fun message _ => deduped_deduped message
    rw [settle_paired out assistant calls (completes_deduped completes), deduped, ih]

theorem AnsweredOnce.tail {message : Message} (answered : AnsweredOnce (message :: messages)) :
    AnsweredOnce messages := by
  intro before call run after split
  exact answered (message :: before) call run after (by rw [split, List.cons_append])

theorem AnsweredOnce.drop {part : List Message} (answered : AnsweredOnce (part ++ messages)) :
    AnsweredOnce messages := by
  induction part with
  | nil => exact answered
  | cons message part ih => exact ih answered.tail

theorem AnsweredOnce.cons {message : Message} (answered : AnsweredOnce messages)
    (here : ∀ run after, messages = run ++ after → message.role = .assistant →
      message.toolUseIds ≠ ∅ → Completes message.toolUseIds run →
      run.Pairwise (fun first second => Disjoint first.toolResultIds second.toolResultIds)) :
    AnsweredOnce (message :: messages) := by
  intro before call run after split
  cases before with
  | nil =>
    obtain ⟨rfl, rfl⟩ := List.cons_eq_cons.mp split
    exact here run after rfl
  | cons first before => exact answered before call run after (List.cons_eq_cons.mp split).2

theorem AnsweredOnce.append {part : List Message} (answered : AnsweredOnce messages)
    (noCalls : ∀ message ∈ part, message.toolUseIds = ∅) : AnsweredOnce (part ++ messages) := by
  induction part with
  | nil => exact answered
  | cons message part ih =>
    obtain ⟨here, later⟩ := List.forall_mem_cons.mp noCalls
    exact (ih later).cons fun _ _ _ _ calls => absurd here calls

theorem Settles.valid_iff (settles : Settles messages out) (unmixed : Unmixed messages) :
    ProviderValid out ↔ AnsweredOnce messages := by
  induction settles with
  | nil => exact ⟨fun _ before call run after split => by simp at split, fun _ => .nil⟩
  | plain message rest out noUses noResults tail ih =>
    constructor
    · intro valid
      cases valid with
      | plain _ _ _ _ valid =>
        exact ((ih unmixed.tail).mp valid).cons fun _ _ _ _ calls => absurd noUses calls
      | paired _ _ _ _ calls => exact absurd noUses calls
    · exact fun answered => .plain message out noUses noResults ((ih unmixed.tail).mpr answered.tail)
  | orphanCall message rest out calls unanswered tail ih =>
    rw [ih unmixed.tail]
    refine ⟨fun answered => answered.cons fun run after split assistant _ completes => ?_, (·.tail)⟩
    exact absurd ⟨run, after, split, completes⟩ (unanswered assistant)
  | orphanResult message rest out noUses results tail ih =>
    rw [ih unmixed.tail]
    exact ⟨fun answered => answered.cons fun _ _ _ _ calls => absurd noUses calls, (·.tail)⟩
  | paired call run rest out assistant calls completes tail ih =>
    have apart := once_deduped_iff run
    constructor
    · intro valid
      generalize split : run.map Message.deduped ++ out = all at valid
      cases valid with
      | plain _ _ noUses => exact absurd noUses calls
      | paired _ other after _ _ results once answers valid =>
        obtain rfl := completes_unique (completes_deduped completes)
          (completes_of_once results once answers) split
        obtain rfl := List.append_cancel_left split
        refine (((ih unmixed.drop).mp valid).append fun message mem => ?_).cons
          fun other after same _ _ otherCompletes => ?_
        · exact (unmixed message (by simp [mem])).resolve_right (completes.results message mem)
        · obtain rfl := completes_unique completes otherCompletes same
          exact apart.mp once
    · intro answered
      refine .paired call _ out assistant calls (completes_deduped completes).results
        (apart.mpr (answered [] call run rest rfl assistant calls completes))
        (completes_deduped completes).ids ((ih unmixed.drop).mpr answered.tail.drop)

end Contract

structure PairingContract (messages : List Message) : Prop where
  subsequence : ∃ kept, kept.Sublist messages ∧ List.Forall₂ Trimmed kept (repairToolPairing messages)
  valid : ProviderValid (repairToolPairing messages)
  plain : (repairToolPairing messages).filter (·.Plain) = messages.filter (·.Plain)
  unchanged : ProviderValid messages → repairToolPairing messages = messages
  idempotent : repairToolPairing (repairToolPairing messages) = repairToolPairing messages

/-- The repair keeps all its promises exactly where no id is answered in two messages of one run. -/
theorem repairToolPairing_contract_iff (messages : List Message) (unmixed : Unmixed messages) :
    PairingContract messages ↔ AnsweredOnce messages := by
  have repaired := repairToolPairing_eq_settle unmixed
  have settled := settles messages
  rw [← repaired] at settled
  have valid := settled.valid_iff unmixed
  refine ⟨fun contract => valid.mp contract.valid, fun answered => ?_⟩
  exact
    { subsequence := settled.subsequence
      valid := valid.mpr answered
      plain := settled.plain_kept
      unchanged := settled.of_valid
      idempotent := by
        rw [repairToolPairing_eq_settle (settled.unmixed unmixed)]
        exact settled.again }

/-- A question, then a call whose results come in two messages, one of them with a replaced result. -/
def answeredInParts : List Message :=
  [⟨.user, .text "look"⟩,
   ⟨.assistant, .blocks [.toolUse "a" "lookup" .empty, .toolUse "b" "lookup" .empty]⟩,
   ⟨.user, .blocks [.toolResult "a" "approval_required" false, .toolResult "a" "done" false]⟩,
   ⟨.user, .blocks [.toolResult "b" "done" false]⟩]

theorem repairToolPairing_contract_answeredInParts : PairingContract answeredInParts := by
  have unmixed : Unmixed answeredInParts := by
    simp only [Unmixed, Message.Unmixed]
    decide
  refine (repairToolPairing_contract_iff answeredInParts unmixed).mpr ?_
  refine ((settles answeredInParts).valid_iff unmixed).mp ?_
  have kept : settle 0 answeredInParts = ⟨.user, .text "look"⟩ ::
      ⟨.assistant, .blocks [.toolUse "a" "lookup" .empty, .toolUse "b" "lookup" .empty]⟩ ::
      ([⟨.user, .blocks [.toolResult "a" "done" false]⟩,
        ⟨.user, .blocks [.toolResult "b" "done" false]⟩] ++ []) := by decide
  rw [kept]
  exact .plain _ _ (by decide) (by decide)
    (.paired _ _ [] rfl (by decide) (by decide) (by decide)
      (by decide) .nil)

-- A call for two ids, the first of them answered in two messages.
def answeredTwice : List Message :=
  [⟨.assistant, .blocks [.toolUse "a" "lookup" .empty, .toolUse "b" "lookup" .empty]⟩,
   ⟨.user, .blocks [.toolResult "a" "approval_required" false]⟩,
   ⟨.user, .blocks [.toolResult "a" "approval_denied" true]⟩,
   ⟨.user, .blocks [.toolResult "b" "done" false]⟩]

theorem repair_keeps_both_results : Unmixed answeredTwice ∧ repairToolPairing answeredTwice = answeredTwice ∧
    (runResultIds answeredTwice).count "a" = 2 ∧ ¬ProviderValid (repairToolPairing answeredTwice) := by
  have unmixed : Unmixed answeredTwice := by
    simp only [Unmixed, Message.Unmixed]
    decide
  have unchanged : repairToolPairing answeredTwice = answeredTwice := by decide
  refine ⟨unmixed, unchanged, by decide, ?_⟩
  rw [unchanged]
  intro valid
  generalize split : answeredTwice = all at valid
  cases valid with
  | nil => cases split
  | plain message rest noUses =>
    cases split
    exact absurd noUses (by decide)
  | paired call run rest assistant calls results once answers valid =>
    obtain ⟨rfl, following⟩ := List.cons_eq_cons.mp split
    -- only the whole run holds both ids, and it holds the first of them twice
    have isPrefix : run ∈ (answeredTwice.tail).inits :=
      (List.mem_inits _ _).mpr ⟨rest, following.symm⟩
    simp only [answeredTwice, List.tail_cons, List.inits, List.map_cons, List.map_nil,
      List.mem_cons, List.not_mem_nil, or_false] at isPrefix
    rcases isPrefix with rfl | rfl | rfl | rfl
    · exact absurd answers (by decide)
    · exact absurd answers (by decide)
    · exact absurd answers (by decide)
    · exact absurd once (by decide)

end OpenSquilla.Histories
