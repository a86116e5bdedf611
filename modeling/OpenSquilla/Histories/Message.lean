import Mathlib.Data.Finset.Card
import OpenSquilla.Streams.Payload

set_option autoImplicit false

namespace OpenSquilla.Histories

open Streams (Payload)

inductive Role
  | user
  | assistant
  deriving DecidableEq

inductive ContentBlock
  | toolUse (id name : String) (input : Payload)
  | toolResult (toolUseId content : String) (isError : Bool)
  -- text, media, thinking and compaction blocks: no function here looks inside
  | other (type data : String)
  deriving DecidableEq

inductive MessageContent
  | text (text : String)
  | blocks (blocks : List ContentBlock)
  deriving DecidableEq

structure Message where
  role : Role
  content : MessageContent
  deriving DecidableEq

def ContentBlock.toolUseId? : ContentBlock → Option String
  | .toolUse id .. => some id
  | _ => none

def ContentBlock.toolResultId? : ContentBlock → Option String
  | .toolResult toolUseId .. => some toolUseId
  | _ => none

def MessageContent.list : MessageContent → List ContentBlock
  | .text _ => []
  | .blocks content => content

def extractToolUseIds (content : MessageContent) : Finset String :=
  (content.list.filterMap (·.toolUseId?)).toFinset

def extractToolResultIds (content : MessageContent) : Finset String :=
  (content.list.filterMap (·.toolResultId?)).toFinset

def isToolResultBlock (block : ContentBlock) : Bool := block.toolResultId?.isSome

-- The index of the last result of each id, counting from the given index.
def lastIndexById (content : List (ContentBlock × Nat)) (last : Dict String Nat) : Dict String Nat :=
  content.foldl (fun last entry =>
    match entry.1.toolResultId? with
    | some id => last.set id entry.2
    | none => last) last

def superseded (last : Dict String Nat) (entry : ContentBlock × Nat) : Bool :=
  match entry.1.toolResultId? with
  | some id => last.get? id ≠ some entry.2
  | none => false

def dedupeToolResultBlocks : MessageContent → MessageContent × Bool
  | .text text => (.text text, false)
  | .blocks content =>
    let last := lastIndexById content.zipIdx .empty
    if content.countP isToolResultBlock = last.size then (.blocks content, false)
    else
      (.blocks ((content.zipIdx.filter (fun entry => !superseded last entry)).map Prod.fst),
        content.zipIdx.any (superseded last))

def resultIds (blocks : List ContentBlock) : List String := blocks.filterMap (·.toolResultId?)

def keepLast : List ContentBlock → List ContentBlock
  | [] => []
  | block :: rest =>
    match block.toolResultId? with
    | some id => if id ∈ resultIds rest then keepLast rest else block :: keepLast rest
    | none => block :: keepLast rest

theorem lastIndexById_cons (entry : ContentBlock × Nat) (rest : List (ContentBlock × Nat))
    (last : Dict String Nat) : lastIndexById (entry :: rest) last = lastIndexById rest
      (match entry.1.toolResultId? with
        | some id => last.set id entry.2
        | none => last) := rfl

theorem resultIds_cons (block : ContentBlock) (rest : List ContentBlock) :
    resultIds (block :: rest) = block.toolResultId?.toList ++ resultIds rest := by
  unfold resultIds
  cases kind : block.toolResultId? <;> simp [kind]

theorem get?_lastIndexById_of_absent {content : List ContentBlock} {id : String}
    (absent : id ∉ resultIds content) (start : Nat) (last : Dict String Nat) :
    (lastIndexById (content.zipIdx start) last).get? id = last.get? id := by
  induction content generalizing start last with
  | nil => rfl
  | cons block rest ih =>
    rw [resultIds_cons, List.mem_append, not_or] at absent
    rw [List.zipIdx_cons, lastIndexById_cons, ih absent.2]
    cases kind : block.toolResultId? with
    | none => rfl
    | some other =>
      have different : id ≠ other := by simpa [kind] using absent.1
      simp [different]

theorem get?_lastIndexById_of_mem {content : List ContentBlock} {id : String}
    (mem : id ∈ resultIds content) (start : Nat) (last : Dict String Nat) :
    ∃ index, start ≤ index ∧ (lastIndexById (content.zipIdx start) last).get? id = some index := by
  induction content generalizing start last with
  | nil => cases mem
  | cons block rest ih =>
    rw [List.zipIdx_cons, lastIndexById_cons]
    by_cases later : id ∈ resultIds rest
    · obtain ⟨index, after, found⟩ := ih later (start + 1) _
      exact ⟨index, by omega, found⟩
    · have here : block.toolResultId? = some id := by
        simpa [resultIds_cons, later] using mem
      refine ⟨start, Nat.le_refl start, ?_⟩
      rw [get?_lastIndexById_of_absent later]
      simp [here]

theorem filter_superseded (before rest : List ContentBlock) : (((rest.zipIdx before.length).filter (fun entry =>
      !superseded (lastIndexById ((before ++ rest).zipIdx) .empty) entry)).map Prod.fst) =
      keepLast rest := by
  induction rest generalizing before with
  | nil => rfl
  | cons block rest ih =>
    have tail := ih (before ++ [block])
    rw [List.append_assoc, List.singleton_append, List.length_append, List.length_singleton] at tail
    rw [List.zipIdx_cons, List.filter_cons, keepLast]
    cases kind : block.toolResultId? with
    | none =>
      have stays : superseded (lastIndexById ((before ++ block :: rest).zipIdx) .empty)
          (block, before.length) = false := by simp [superseded, kind]
      simp only [stays, Bool.not_false, if_true, List.map_cons, tail]
    | some id =>
      have last : (lastIndexById ((before ++ block :: rest).zipIdx) .empty).get? id =
          (lastIndexById (rest.zipIdx (before.length + 1))
            ((lastIndexById before.zipIdx .empty).set id before.length)).get? id := by
        rw [List.zipIdx_append, lastIndexById, List.foldl_append, List.zipIdx_cons, List.foldl_cons]
        simp only [kind, Nat.zero_add]
        rfl
      by_cases later : id ∈ resultIds rest
      · obtain ⟨index, after, found⟩ := get?_lastIndexById_of_mem later (before.length + 1)
          ((lastIndexById before.zipIdx .empty).set id before.length)
        have goes : superseded (lastIndexById ((before ++ block :: rest).zipIdx) .empty)
            (block, before.length) = true := by
          simp only [superseded, kind, last, found, ne_eq, Option.some.injEq, decide_not,
            Bool.not_eq_true', decide_eq_false_iff_not]
          omega
        simpa only [goes, Bool.not_true, if_pos later, Bool.false_eq_true, if_false] using tail
      · have stays : superseded (lastIndexById ((before ++ block :: rest).zipIdx) .empty)
            (block, before.length) = false := by
          simp [superseded, kind, last, get?_lastIndexById_of_absent later]
        simp only [stays, Bool.not_false, if_true, if_neg later, List.map_cons, tail]

theorem length_resultIds (content : List ContentBlock) :
    (resultIds content).length = content.countP isToolResultBlock := by
  induction content with
  | nil => rfl
  | cons block rest ih =>
    rw [resultIds_cons, List.length_append, ih, List.countP_cons]
    cases kind : block.toolResultId? <;> simp [isToolResultBlock, kind, Nat.add_comm]

theorem keys_lastIndexById (content : List ContentBlock) :
    (lastIndexById content.zipIdx .empty).keys.toFinset = (resultIds content).toFinset := by
  ext id
  rw [List.mem_toFinset, List.mem_toFinset, Dict.mem_keys_iff]
  constructor
  · rintro ⟨index, found⟩
    by_contra absent
    rw [get?_lastIndexById_of_absent absent, Dict.get?_empty] at found
    cases found
  · intro mem
    obtain ⟨index, -, found⟩ := get?_lastIndexById_of_mem mem 0 .empty
    exact ⟨index, found⟩

theorem nodup_of_count_eq {content : List ContentBlock}
    (same : content.countP isToolResultBlock = (lastIndexById content.zipIdx .empty).size) :
    (resultIds content).Nodup := by
  have distinct : (lastIndexById content.zipIdx .empty).keys.toFinset.card =
      (lastIndexById content.zipIdx .empty).size := by
    rw [Dict.keys, List.toFinset_card_of_nodup (lastIndexById content.zipIdx .empty).nodupKeys,
      List.length_map, Dict.size]
  rw [keys_lastIndexById, ← same, ← length_resultIds] at distinct
  exact Multiset.toFinset_card_eq_card_iff_nodup.mp distinct

theorem keepLast_of_nodup {content : List ContentBlock} (nodup : (resultIds content).Nodup) :
    keepLast content = content := by
  induction content with
  | nil => rfl
  | cons block rest ih =>
    rw [resultIds_cons] at nodup
    have tail := ih nodup.of_append_right
    rw [keepLast]
    cases kind : block.toolResultId? with
    | none => rw [tail]
    | some id =>
      rw [kind, Option.toList_some, List.singleton_append, List.nodup_cons] at nodup
      simp only [if_neg nodup.1, tail]

def MessageContent.deduped : MessageContent → MessageContent
  | text words => text words
  | blocks content => blocks (keepLast content)

theorem dedupeToolResultBlocks_spec (content : MessageContent) :
    (dedupeToolResultBlocks content).1 = content.deduped ∧
    ((dedupeToolResultBlocks content).2 = false → content.deduped = content) := by
  cases content with
  | text text => exact ⟨rfl, fun _ => rfl⟩
  | blocks content =>
    have kept := filter_superseded [] content
    simp only [List.length_nil, List.nil_append] at kept
    by_cases same : content.countP isToolResultBlock = (lastIndexById content.zipIdx .empty).size
    · simp only [dedupeToolResultBlocks, if_pos same]
      have unchanged := keepLast_of_nodup (nodup_of_count_eq same)
      exact ⟨by rw [MessageContent.deduped, unchanged], fun _ => by rw [MessageContent.deduped, unchanged]⟩
    · simp only [dedupeToolResultBlocks, if_neg same]
      refine ⟨by rw [MessageContent.deduped, ← kept], fun unchanged => ?_⟩
      have all : ∀ entry ∈ content.zipIdx,
          (!superseded (lastIndexById content.zipIdx .empty) entry) = true := by
        simpa using unchanged
      rw [MessageContent.deduped, ← kept, List.filter_eq_self.mpr all, List.zipIdx_map_fst]

theorem keepLast_sublist (content : List ContentBlock) : (keepLast content).Sublist content := by
  induction content with
  | nil => exact .slnil
  | cons block rest ih =>
    rw [keepLast]
    split
    · split
      · exact ih.cons block
      · exact ih.cons_cons block
    · exact ih.cons_cons block

theorem mem_resultIds_keepLast (content : List ContentBlock) (id : String) :
    id ∈ resultIds (keepLast content) ↔ id ∈ resultIds content := by
  induction content with
  | nil => rfl
  | cons block rest ih =>
    rw [keepLast, resultIds_cons, List.mem_append]
    cases kind : block.toolResultId? with
    | none => simp [resultIds_cons, kind, ih]
    | some other =>
      by_cases later : other ∈ resultIds rest
      · simp only [if_pos later, ih, Option.toList_some, List.mem_singleton]
        exact ⟨.inr, fun mem => mem.elim (fun same => same ▸ later) fun present => present⟩
      · simp only [if_neg later, resultIds_cons, kind, List.mem_append, ih]

theorem nodup_resultIds_keepLast (content : List ContentBlock) : (resultIds (keepLast content)).Nodup := by
  induction content with
  | nil => exact List.nodup_nil
  | cons block rest ih =>
    rw [keepLast]
    cases kind : block.toolResultId? with
    | none => simpa [resultIds_cons, kind] using ih
    | some other =>
      by_cases later : other ∈ resultIds rest
      · simpa only [if_pos later] using ih
      · simp only [if_neg later, resultIds_cons, kind, Option.toList_some, List.singleton_append,
          List.nodup_cons, mem_resultIds_keepLast]
        exact ⟨later, ih⟩

theorem filter_keepLast (content : List ContentBlock) :
    (keepLast content).filter (fun block => !isToolResultBlock block) =
      content.filter (fun block => !isToolResultBlock block) := by
  induction content with
  | nil => rfl
  | cons block rest ih =>
    rw [keepLast]
    cases kind : block.toolResultId? with
    | none =>
      have plain : (!isToolResultBlock block) = true := by simp [isToolResultBlock, kind]
      simp only [List.filter_cons, plain, if_true, ih]
    | some other =>
      have result : (!isToolResultBlock block) = false := by simp [isToolResultBlock, kind]
      by_cases later : other ∈ resultIds rest
      · simp only [if_pos later, ih, List.filter_cons, result, Bool.false_eq_true, if_false]
      · simp only [if_neg later, ih, List.filter_cons, result, Bool.false_eq_true, if_false]

end OpenSquilla.Histories
