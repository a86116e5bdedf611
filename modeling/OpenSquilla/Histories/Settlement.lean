import OpenSquilla.Histories.Pairing

set_option autoImplicit false

namespace OpenSquilla.Histories

/-- The repair as one pass over the messages: how many results the last call still waits for. -/
def settle : Nat → List Message → List Message
  | _, [] => []
  | pending + 1, message :: rest => message.deduped :: settle pending rest
  | 0, message :: rest =>
    if message.toolUseIds ≠ ∅ then
      match answerLength message rest with
      | some count => message :: settle count rest
      | none => settle 0 rest
    else if message.toolResultIds ≠ ∅ then settle 0 rest
    else message :: settle 0 rest

def Message.Unmixed (message : Message) : Prop :=
  message.toolUseIds = ∅ ∨ message.toolResultIds = ∅

def Unmixed (messages : List Message) : Prop := ∀ message ∈ messages, message.Unmixed

def keptAt (valid : ValidIndices) (entry : Message × Nat) : Option Message :=
  if entry.1.toolUseIds ≠ ∅ ∧ entry.2 ∉ valid.calls then none
  else if entry.1.toolResultIds ≠ ∅ ∧ entry.2 ∉ valid.results then none
  else some entry.1.deduped

theorem resultIds_eq_nil_iff (message : Message) :
    resultIds message.content.list = [] ↔ message.toolResultIds = ∅ := by
  rw [Message.toolResultIds, extractToolResultIds, List.toFinset_eq_empty_iff]
  rfl

theorem deduped_of_nodup {message : Message} (nodup : (resultIds message.content.list).Nodup) :
    message.deduped = message := by
  obtain ⟨role, content⟩ := message
  cases content with
  | text words => rfl
  | blocks blocks =>
    exact congrArg (fun kept => (⟨role, .blocks kept⟩ : Message)) (keepLast_of_nodup nodup)

theorem deduped_of_no_results {message : Message} (noResults : message.toolResultIds = ∅) :
    message.deduped = message := by
  refine deduped_of_nodup ?_
  rw [(resultIds_eq_nil_iff message).mpr noResults]
  exact List.nodup_nil

theorem repairAt_spec (valid : ValidIndices) (repair : Repair) (entry : Message × Nat) :
    (repairAt valid repair entry).repaired = repair.repaired ++ (keptAt valid entry).toList ∧
    ((repairAt valid repair entry).changed = false →
      repair.changed = false ∧ keptAt valid entry = some entry.1) := by
  unfold repairAt keptAt
  by_cases orphanCall : entry.1.toolUseIds ≠ ∅ ∧ entry.2 ∉ valid.calls
  · simp [if_pos orphanCall]
  · simp only [if_neg orphanCall]
    by_cases orphanResult : entry.1.toolResultIds ≠ ∅ ∧ entry.2 ∉ valid.results
    · simp [if_pos orphanResult]
    · simp only [if_neg orphanResult]
      by_cases results : entry.1.toolResultIds ≠ ∅
      · obtain ⟨same, unchanged⟩ := dedupeToolResultBlocks_spec entry.1.content
        simp only [if_pos results]
        cases changed : (dedupeToolResultBlocks entry.1.content).2 with
        | true => simp [Message.deduped, same]
        | false =>
          have asBefore : entry.1.deduped = entry.1 := by
            rw [Message.deduped, unchanged changed]
          simp [asBefore]
      · have asBefore := deduped_of_no_results (not_not.mp results)
        simp [asBefore, not_not.mp results]

theorem foldl_repairAt_spec (valid : ValidIndices) (entries : List (Message × Nat)) (repair : Repair) :
    (entries.foldl (repairAt valid) repair).repaired =
      repair.repaired ++ entries.filterMap (keptAt valid) ∧
    ((entries.foldl (repairAt valid) repair).changed = false →
      repair.changed = false ∧ entries.filterMap (keptAt valid) = entries.map Prod.fst) := by
  induction entries generalizing repair with
  | nil => simp
  | cons entry rest ih =>
    obtain ⟨repaired, unchanged⟩ := ih (repairAt valid repair entry)
    obtain ⟨repairedHere, unchangedHere⟩ := repairAt_spec valid repair entry
    rw [List.foldl_cons]
    constructor
    · rw [repaired, repairedHere, List.append_assoc, List.filterMap_cons]
      cases keptAt valid entry <;> rfl
    · intro settled
      obtain ⟨unchangedNext, tail⟩ := unchanged settled
      obtain ⟨before, kept⟩ := unchangedHere unchangedNext
      refine ⟨before, ?_⟩
      rw [List.filterMap_cons, kept, List.map_cons, tail]

theorem repairToolPairing_eq_filterMap (messages : List Message) :
    repairToolPairing messages = messages.zipIdx.filterMap (keptAt (validIndices messages)) := by
  obtain ⟨repaired, unchanged⟩ := foldl_repairAt_spec (validIndices messages) messages.zipIdx {}
  unfold repairToolPairing repairToolPairingWithRetainedIndexes
  split
  next empty => rw [empty, List.zipIdx_nil, List.filterMap_nil]
  next =>
    dsimp only
    split
    next settled =>
      rw [(unchanged (by simpa using settled)).2, List.zipIdx_map_fst]
    next => rw [repaired, List.nil_append]

theorem results_of_runLength {useIds found : Finset String} {rest : List Message} {count : Nat}
    (counted : runLength useIds found rest = some count) :
    ∀ message ∈ rest.take count, message.toolResultIds ≠ ∅ := by
  induction rest generalizing found count with
  | nil => cases counted
  | cons message rest ih =>
    unfold runLength at counted
    split at counted
    · cases counted
    next results =>
      split at counted
      · cases counted
      · split at counted
        · cases counted
          simpa using results
        · obtain ⟨later, countedLater, rfl⟩ := Option.map_eq_some_iff.mp counted
          rw [List.take_succ_cons]
          intro other mem
          rcases List.mem_cons.mp mem with rfl | inRest
          · exact results
          · exact ih countedLater other inRest

theorem results_of_callAt {messages : List Message} {call count : Nat}
    (callAt : CallAt messages call count) {index : Nat} {message : Message}
    (found : messages[index]? = some message) (after : call < index) (within : index ≤ call + count) :
    message.toolResultIds ≠ ∅ := by
  obtain ⟨caller, -, -, answer⟩ := callAt
  rw [answerLength] at answer
  split at answer
  · refine results_of_runLength answer message (List.mem_of_getElem? (i := index - (call + 1)) ?_)
    rw [List.getElem?_take, if_pos (by omega), List.getElem?_drop]
    rw [← found]
    congr 1
    omega
  · cases answer

/-- The walk over the messages from an index on, when the calls before it still wait for so many. -/
theorem filterMap_keptAt {messages : List Message} (unmixed : Unmixed messages)
    (rest before : List Message) (pending : Nat) (split : messages = before ++ rest)
    (covered : ∀ index, before.length ≤ index →
      ((∃ call count, CallAt messages call count ∧ call < before.length ∧ call < index ∧
        index ≤ call + count) ↔ index < before.length + pending)) :
    (rest.zipIdx before.length).filterMap (keptAt (validIndices messages)) = settle pending rest := by
  obtain ⟨calls, results⟩ := mem_validIndices messages
  induction rest generalizing before pending with
  | nil => cases pending <;> rfl
  | cons message rest ih =>
    have here : messages[before.length]? = some message := by simp [split]
    have dropped : messages.drop (before.length + 1) = rest := by
      rw [split, ← List.singleton_append, ← List.append_assoc, List.drop_left' (by simp)]
    have step := fun pending => ih (before ++ [message]) pending (by simp [split])
    rw [List.length_append, List.length_singleton] at step
    have unmixedHere := unmixed message (by simp [split])
    have callHere : ∀ count, CallAt messages before.length count ↔
        message.toolUseIds ≠ ∅ ∧ answerLength message rest = some count := by
      intro count
      simp only [CallAt, here, Option.some.injEq, exists_eq_left', Answered, dropped]
    have resultHere : before.length ∈ (validIndices messages).results ↔ 0 < pending := by
      rw [results]
      have inside := covered before.length (Nat.le_refl _)
      constructor
      · rintro ⟨call, count, callAt, after, within⟩
        have := inside.mp ⟨call, count, callAt, after, after, within⟩
        omega
      · intro waiting
        obtain ⟨call, count, callAt, after, -, within⟩ := inside.mpr (by omega)
        exact ⟨call, count, callAt, after, within⟩
    rw [List.zipIdx_cons, List.filterMap_cons]
    cases pending with
    | succ pending =>
      -- an answer of an earlier call
      have isResult : message.toolResultIds ≠ ∅ := by
        obtain ⟨call, count, callAt, after, -, within⟩ :=
          (covered before.length (Nat.le_refl _)).mpr (by omega)
        exact results_of_callAt callAt here after within
      have noUses : message.toolUseIds = ∅ := unmixedHere.resolve_right isResult
      have kept : keptAt (validIndices messages) (message, before.length) = some message.deduped := by
        simp [keptAt, noUses, resultHere]
      rw [kept, settle]
      refine congrArg (message.deduped :: ·) ?_
      refine step pending fun index later => ?_
      rw [← (by omega : before.length + (pending + 1) = before.length + 1 + pending),
        ← covered index (by omega)]
      constructor
      · rintro ⟨call, count, callAt, earlier, inside⟩
        rcases Nat.lt_succ_iff_lt_or_eq.mp earlier with before | rfl
        · exact ⟨call, count, callAt, before, inside⟩
        · exact absurd noUses ((callHere count).mp callAt).1
      · rintro ⟨call, count, callAt, earlier, inside⟩
        exact ⟨call, count, callAt, by omega, inside⟩
    | zero =>
      have noneOpen : ∀ call count index, CallAt messages call count → call < before.length →
          before.length ≤ index → call < index → ¬index ≤ call + count := by
        intro call count index callAt earlier later after within
        have := (covered index later).mp ⟨call, count, callAt, earlier, after, within⟩
        omega
      have notResult : before.length ∉ (validIndices messages).results := by
        rw [resultHere]
        omega
      rw [settle]
      by_cases noUses : message.toolUseIds = ∅
      · have nothingOpen := step 0 fun index later => by
          constructor
          · rintro ⟨call, count, callAt, earlier, after, within⟩
            rcases Nat.lt_succ_iff_lt_or_eq.mp earlier with before | rfl
            · exact absurd within (noneOpen call count index callAt before (by omega) after)
            · exact absurd noUses ((callHere count).mp callAt).1
          · intro impossible
            omega
        by_cases noResults : message.toolResultIds = ∅
        · have kept : keptAt (validIndices messages) (message, before.length) = some message := by
            simp [keptAt, noUses, noResults, deduped_of_no_results]
          simp [kept, noUses, noResults, nothingOpen]
        · have gone : keptAt (validIndices messages) (message, before.length) = none := by
            simp [keptAt, noUses, noResults, notResult]
          simp [gone, noUses, noResults, nothingOpen]
      · have noResults : message.toolResultIds = ∅ := unmixedHere.resolve_left noUses
        cases answer : answerLength message rest with
        | some count =>
          have called : before.length ∈ (validIndices messages).calls :=
            (calls _).mpr ⟨count, (callHere count).mpr ⟨noUses, answer⟩⟩
          have kept : keptAt (validIndices messages) (message, before.length) = some message := by
            simp [keptAt, called, noResults, deduped_of_no_results]
          have opened := step count fun index later => by
            constructor
            · rintro ⟨call, other, callAt, earlier, after, within⟩
              rcases Nat.lt_succ_iff_lt_or_eq.mp earlier with before | rfl
              · exact absurd within (noneOpen call other index callAt before (by omega) after)
              · have same := ((callHere other).mp callAt).2
                rw [answer, Option.some.injEq] at same
                omega
            · intro within
              exact ⟨before.length, count, (callHere count).mpr ⟨noUses, answer⟩, by omega, by omega,
                by omega⟩
          simp [kept, noUses, opened]
        | none =>
          have uncalled : before.length ∉ (validIndices messages).calls := by
            rw [calls]
            rintro ⟨count, callAt⟩
            rw [((callHere count).mp callAt).2] at answer
            cases answer
          have gone : keptAt (validIndices messages) (message, before.length) = none := by
            simp [keptAt, noUses, uncalled]
          have nothingOpen := step 0 fun index later => by
            constructor
            · rintro ⟨call, count, callAt, earlier, after, within⟩
              rcases Nat.lt_succ_iff_lt_or_eq.mp earlier with before | rfl
              · exact absurd within (noneOpen call count index callAt before (by omega) after)
              · rw [((callHere count).mp callAt).2] at answer
                cases answer
            · intro impossible
              omega
          simp [gone, noUses, nothingOpen]

theorem repairToolPairing_eq_settle {messages : List Message} (unmixed : Unmixed messages) :
    repairToolPairing messages = settle 0 messages := by
  rw [repairToolPairing_eq_filterMap]
  refine filterMap_keptAt unmixed messages [] 0 rfl fun index _ => ?_
  simp

end OpenSquilla.Histories
