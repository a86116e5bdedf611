import Mathlib.Data.List.DropRight
import Mathlib.Order.Interval.Finset.Nat
import OpenSquilla.Histories.Message

set_option autoImplicit false

namespace OpenSquilla.Histories

namespace Message

def toolUseIds (message : Message) : Finset String := extractToolUseIds message.content

def toolResultIds (message : Message) : Finset String := extractToolResultIds message.content

def deduped (message : Message) : Message := { message with content := message.content.deduped }

end Message

def collectResults (useIds : Finset String) : Nat → List Message → Finset String → Finset Nat →
    Finset String × Finset Nat
  | _, [], resultIds, resultIndices => (resultIds, resultIndices)
  | index, message :: rest, resultIds, resultIndices =>
    if message.toolResultIds = ∅ then (resultIds, resultIndices)
    else if ¬resultIds ∪ message.toolResultIds ⊆ useIds then
      (resultIds ∪ message.toolResultIds, resultIndices)
    else if resultIds ∪ message.toolResultIds = useIds then
      (resultIds ∪ message.toolResultIds, insert index resultIndices)
    else
      collectResults useIds (index + 1) rest (resultIds ∪ message.toolResultIds)
        (insert index resultIndices)

structure ValidIndices where
  calls : Finset Nat := ∅
  results : Finset Nat := ∅

def pairAt (messages : List Message) (valid : ValidIndices) (entry : Message × Nat) : ValidIndices :=
  let useIds := entry.1.toolUseIds
  if useIds = ∅ then valid
  else if entry.1.role ≠ .assistant then valid
  else
    let found := collectResults useIds (entry.2 + 1) (messages.drop (entry.2 + 1)) ∅ ∅
    if found.1 = useIds then ⟨insert entry.2 valid.calls, valid.results ∪ found.2⟩ else valid

def validIndices (messages : List Message) : ValidIndices :=
  messages.dropLast.zipIdx.foldl (pairAt messages) {}

structure Repair where
  repaired : List Message := []
  retainedIndexes : List Nat := []
  changed : Bool := false

def repairAt (valid : ValidIndices) (repair : Repair) (entry : Message × Nat) : Repair :=
  if entry.1.toolUseIds ≠ ∅ ∧ entry.2 ∉ valid.calls then { repair with changed := true }
  else if entry.1.toolResultIds ≠ ∅ ∧ entry.2 ∉ valid.results then { repair with changed := true }
  else
    let (content, deduped) :=
      if entry.1.toolResultIds ≠ ∅ then dedupeToolResultBlocks entry.1.content
      else (entry.1.content, false)
    { repaired := repair.repaired ++ [if deduped then { entry.1 with content := content } else entry.1]
      retainedIndexes := repair.retainedIndexes ++ [entry.2]
      changed := repair.changed || deduped }

def repairToolPairingWithRetainedIndexes (messages : List Message) : List Message × List Nat :=
  if messages = [] then (messages, [])
  else
    let repair := messages.zipIdx.foldl (repairAt (validIndices messages)) {}
    if !repair.changed then (messages, List.range messages.length)
    else (repair.repaired, repair.retainedIndexes)

def repairToolPairing (messages : List Message) : List Message :=
  (repairToolPairingWithRetainedIndexes messages).1

/-- How many of the messages after a call complete its results, counted with the ids found so far. -/
def runLength (useIds : Finset String) : Finset String → List Message → Option Nat
  | _, [] => none
  | found, message :: rest =>
    if message.toolResultIds = ∅ then none
    else if ¬found ∪ message.toolResultIds ⊆ useIds then none
    else if found ∪ message.toolResultIds = useIds then some 1
    else (runLength useIds (found ∪ message.toolResultIds) rest).map (· + 1)

theorem collectResults_spec {useIds : Finset String} (rest : List Message) (index : Nat)
    (found : Finset String) (indices : Finset Nat) (open_ : found ≠ useIds) :
    match runLength useIds found rest with
    | some count => collectResults useIds index rest found indices =
        (useIds, indices ∪ Finset.Ico index (index + count))
    | none => (collectResults useIds index rest found indices).1 ≠ useIds := by
  induction rest generalizing index found indices with
  | nil => exact open_
  | cons message rest ih =>
    unfold runLength collectResults
    by_cases noResults : message.toolResultIds = ∅
    · simp only [if_pos noResults]
      exact open_
    · simp only [if_neg noResults]
      by_cases inside : found ∪ message.toolResultIds ⊆ useIds
      · simp only [not_true_eq_false, inside, if_false]
        by_cases complete : found ∪ message.toolResultIds = useIds
        · simp only [if_pos complete]
          rw [complete, Prod.mk.injEq]
          refine ⟨rfl, ?_⟩
          ext position
          simp only [Finset.mem_union, Finset.mem_insert, Finset.mem_Ico]
          grind
        · simp only [if_neg complete]
          have later := ih (index + 1) (found ∪ message.toolResultIds) (insert index indices) complete
          cases counted : runLength useIds (found ∪ message.toolResultIds) rest with
          | none =>
            rw [counted] at later
            exact later
          | some count =>
            rw [counted] at later
            rw [Option.map_some]
            dsimp only at later ⊢
            rw [later, Prod.mk.injEq]
            refine ⟨rfl, ?_⟩
            ext position
            simp only [Finset.mem_union, Finset.mem_insert, Finset.mem_Ico]
            grind
      · simp only [inside, not_false_eq_true, if_true]
        exact fun complete => inside complete.subset

/-- The length of the run that answers the message, if the messages after it hold one. -/
def answerLength (message : Message) (rest : List Message) : Option Nat :=
  if message.role = .assistant then runLength message.toolUseIds ∅ rest else none

-- The entry is a call, and the messages after it answer it in so many messages.
def Answered (messages : List Message) (entry : Message × Nat) (count : Nat) : Prop :=
  entry.1.toolUseIds ≠ ∅ ∧ answerLength entry.1 (messages.drop (entry.2 + 1)) = some count

theorem pairAt_spec (messages : List Message) (valid : ValidIndices) (entry : Message × Nat) :
    (∀ index, index ∈ (pairAt messages valid entry).calls ↔
      index ∈ valid.calls ∨ entry.2 = index ∧ ∃ count, Answered messages entry count) ∧
    (∀ index, index ∈ (pairAt messages valid entry).results ↔
      index ∈ valid.results ∨ ∃ count, Answered messages entry count ∧
        entry.2 < index ∧ index ≤ entry.2 + count) := by
  unfold pairAt Answered answerLength
  by_cases noUses : entry.1.toolUseIds = ∅
  · simp [noUses]
  · by_cases assistant : entry.1.role = .assistant
    · have collected := collectResults_spec (messages.drop (entry.2 + 1)) (entry.2 + 1) ∅ ∅
        (Ne.symm noUses)
      simp only [assistant, ne_eq, not_true_eq_false, if_false, if_true, noUses,
        not_false_eq_true, true_and]
      cases counted : runLength entry.1.toolUseIds ∅ (messages.drop (entry.2 + 1)) with
      | none =>
        rw [counted] at collected
        simp [if_neg collected]
      | some count =>
        rw [counted] at collected
        dsimp only at collected
        simp only [collected, if_true, Finset.mem_insert, Finset.mem_union, Finset.mem_Ico,
          Option.some.injEq, Finset.empty_union]
        constructor
        · intro index
          simp only [exists_eq', and_true, eq_comm (a := index)]
          exact or_comm
        · intro index
          simp only [exists_eq_left']
          exact or_congr_right (by omega)
    · simp [noUses, assistant]

theorem foldl_pairAt_spec (messages : List Message) (entries : List (Message × Nat)) (valid : ValidIndices) :
    (∀ index, index ∈ (entries.foldl (pairAt messages) valid).calls ↔
      index ∈ valid.calls ∨
        ∃ entry ∈ entries, entry.2 = index ∧ ∃ count, Answered messages entry count) ∧
    (∀ index, index ∈ (entries.foldl (pairAt messages) valid).results ↔
      index ∈ valid.results ∨ ∃ entry ∈ entries, ∃ count, Answered messages entry count ∧
        entry.2 < index ∧ index ≤ entry.2 + count) := by
  induction entries generalizing valid with
  | nil => simp
  | cons entry rest ih =>
    obtain ⟨calls, results⟩ := ih (pairAt messages valid entry)
    obtain ⟨callsHere, resultsHere⟩ := pairAt_spec messages valid entry
    rw [List.foldl_cons]
    constructor
    · intro index
      rw [calls, callsHere, or_assoc]
      simp only [List.mem_cons, exists_eq_or_imp]
    · intro index
      rw [results, resultsHere, or_assoc]
      simp only [List.mem_cons, exists_eq_or_imp]

-- The message at the index is a call that the next messages answer.
def CallAt (messages : List Message) (index count : Nat) : Prop :=
  ∃ message, messages[index]? = some message ∧ Answered messages (message, index) count

-- the loop leaves out the last message, and nothing could answer it
theorem mem_dropLast_of_answered {messages : List Message} {entry : Message × Nat} {count : Nat}
    (answered : Answered messages entry count) :
    entry ∈ messages.dropLast.zipIdx ↔ messages[entry.2]? = some entry.1 := by
  rw [List.mem_zipIdx_iff_getElem?, List.getElem?_dropLast]
  split
  · rfl
  next last =>
    have nothing : messages.drop (entry.2 + 1) = [] := List.drop_eq_nil_of_le (by omega)
    have unanswered := answered.2
    rw [nothing, answerLength, runLength, ite_self] at unanswered
    cases unanswered

theorem mem_validIndices (messages : List Message) :
    (∀ index, index ∈ (validIndices messages).calls ↔ ∃ count, CallAt messages index count) ∧
    (∀ index, index ∈ (validIndices messages).results ↔
      ∃ call count, CallAt messages call count ∧ call < index ∧ index ≤ call + count) := by
  obtain ⟨calls, results⟩ := foldl_pairAt_spec messages messages.dropLast.zipIdx {}
  constructor
  · intro index
    rw [validIndices, calls]
    constructor
    · rintro (absent | ⟨entry, mem, rfl, count, answered⟩)
      · simp at absent
      · exact ⟨count, entry.1, (mem_dropLast_of_answered answered).mp mem, answered⟩
    · rintro ⟨count, message, found, answered⟩
      exact .inr ⟨(message, index), (mem_dropLast_of_answered answered).mpr found, rfl, count, answered⟩
  · intro index
    rw [validIndices, results]
    constructor
    · rintro (absent | ⟨entry, mem, count, answered, inside⟩)
      · simp at absent
      · exact ⟨entry.2, count, ⟨entry.1, (mem_dropLast_of_answered answered).mp mem, answered⟩,
          inside⟩
    · rintro ⟨call, count, ⟨message, found, answered⟩, inside⟩
      exact .inr ⟨(message, call), (mem_dropLast_of_answered answered).mpr found, count, answered,
        inside⟩

end OpenSquilla.Histories
