import Mathlib.Algebra.GroupWithZero.Nat
import Mathlib.Data.Finset.Basic
import OpenSquilla.Shared.Grouping
import OpenSquilla.Shared.JsonValue
import OpenSquilla.Shared.TextScan

set_option autoImplicit false

-- Entries are grouped forward into rounds of a user message, the calls and their results. A cut
-- retreats to the start of a round, and from there over results that would lose their call.

namespace OpenSquilla.Compaction

open TextLines TextScan

-- The text of a value that is no string, lower case and the JSON parser.
structure EntryLibrary where
  str : JsonValue → String
  lower : Text → Text
  loads : String → Option JsonValue

variable (lib : EntryLibrary)

def strOr (value : JsonValue) : String :=
  if value.truthy then value.str?.getD (lib.str value) else ""

def word (value : JsonValue) : Text := lib.lower (strip (strOr lib value).toList)

def segmentsOf (entry : JsonValue) : Option (List JsonValue) :=
  match entry.get "tool_calls" with
  | .list segments => some segments
  | _ => none

def isResultSegment (segment : JsonValue) : Bool :=
  word lib (segment.get "type") = "tool_result".toList || segment.hasKey "result"

def nestedToolResultSegments (entry : JsonValue) : List JsonValue :=
  ((segmentsOf entry).getD []).filter fun segment =>
    segment.isObject && isResultSegment lib segment

def isAssistantToolCallEntry (entry : JsonValue) : Bool :=
  (entry.get "role").isText "assistant" &&
    ((entry.get "tool_calls").truthy ||
      ("[tool_call:".toList <:+: (strOr lib (entry.get "content")).toList) ||
      ("[Used tool:".toList <:+: (strOr lib (entry.get "content")).toList))

def isToolResultEntry (entry : JsonValue) : Bool :=
  (entry.get "role").isText "tool" || (entry.get "tool_call_id").truthy ||
    !(nestedToolResultSegments lib entry).isEmpty ||
    "[Tool result ".toList.isPrefixOf
      ((strOr lib (entry.get "content")).toList.dropWhile isSpace)

def isAssistant (entry : JsonValue) : Bool := strOr lib (entry.get "role") = "assistant"

def isUser (entry : JsonValue) : Bool := strOr lib (entry.get "role") = "user"

def startsRound (current : List JsonValue) (entry : JsonValue) : Bool :=
  !current.isEmpty &&
    if isUser lib entry && !isToolResultEntry lib entry then true
    -- an assistant after a result is the next model round
    else isAssistant lib entry && current.any (isToolResultEntry lib)

def endsRound (entry : JsonValue) : Bool :=
  !isAssistantToolCallEntry lib entry && !isToolResultEntry lib entry &&
    isAssistant lib entry

def groupRounds (current : List JsonValue) : List JsonValue → List (List JsonValue)
  | [] => if current.isEmpty then [] else [current]
  | entry :: rest =>
    if startsRound lib current entry then
      current :: if endsRound lib entry then [entry] :: groupRounds [] rest
        else groupRounds [entry] rest
    else if endsRound lib entry then (current ++ [entry]) :: groupRounds [] rest
    else groupRounds (current ++ [entry]) rest

def apiRoundGroups (entries : List JsonValue) : List (List JsonValue) :=
  groupRounds lib [] entries

def apiRoundBoundaries (entries : List JsonValue) : List Nat :=
  Grouping.boundaries (apiRoundGroups lib entries)

def resultStart (entries : List JsonValue) : Nat → Nat
  | 0 => 0
  | cut + 1 =>
    if entries[cut]?.any (isToolResultEntry lib) then resultStart entries cut else cut + 1

-- One turn of the loop: where the cut goes, none when it stays.
def retreatNext (entries : List JsonValue) (cut : Nat) : Option Nat :=
  let firstKept := entries[cut]?
  if firstKept.any (isToolResultEntry lib) then
    let start := resultStart lib entries cut
    if 0 < start ∧ entries[start - 1]?.any (isAssistantToolCallEntry lib) = true then
      some (start - 1)
    else if start ≠ cut then some start
    else if entries[cut - 1]?.any (isAssistantToolCallEntry lib) then some (cut - 1)
    else none
  else none

def retreatLoop (entries : List JsonValue) : Nat → Nat → Nat
  | 0, _ => 0
  | turns + 1, cut =>
    if cut = 0 then 0
    else
      match retreatNext lib entries cut with
      | none => cut
      | some earlier => retreatLoop entries turns earlier

-- each turn goes down, so there are enough of them
def retreatToTurnBoundary (entries : List JsonValue) (cut : Nat) : Nat :=
  retreatLoop lib entries cut cut

def retreatToApiRoundBoundary (entries : List JsonValue) (cut : Nat) : Nat :=
  retreatToTurnBoundary lib entries
    (Grouping.floor (apiRoundBoundaries lib entries) cut)

section Rounds

variable {lib}

theorem isAssistant_of_call {entry : JsonValue}
    (call : isAssistantToolCallEntry lib entry = true) : isAssistant lib entry = true := by
  have role : (entry.get "role").str? = some "assistant" :=
    of_decide_eq_true (Bool.and_eq_true_iff.mp call).1
  have same : entry.get "role" = .str "assistant" := by
    cases held : entry.get "role" with
    | str value =>
      rw [held] at role
      cases role
      rfl
    | _ =>
      rw [held] at role
      cases role
  unfold isAssistant strOr
  rw [same]
  rfl

def Together (lib : EntryLibrary) (earlier later : JsonValue) : Prop :=
  ¬(isToolResultEntry lib earlier = true ∧ isAssistant lib later = true)

def Cut (lib : EntryLibrary) (round next : List JsonValue) : Prop :=
  ∀ entry ∈ next.head?,
    isToolResultEntry lib entry = false ∨
      (isAssistant lib entry = true ∧
        ∃ result ∈ round, isToolResultEntry lib result = true) ∨
      ∃ last ∈ round.getLast?, endsRound lib last = true

theorem groupRounds_flatten (lib : EntryLibrary) (current entries : List JsonValue) :
    (groupRounds lib current entries).flatten = current ++ entries := by
  induction entries generalizing current with
  | nil =>
    unfold groupRounds
    split
    next empty => rw [List.isEmpty_iff.mp empty]; rfl
    next => simp
  | cons entry rest ih =>
    unfold groupRounds
    split
    next =>
      split
      next => rw [List.flatten_cons, List.flatten_cons, ih]; rfl
      next => rw [List.flatten_cons, ih]; rfl
    next =>
      split
      next => rw [List.flatten_cons, ih, List.append_assoc]; rfl
      next => rw [ih, List.append_assoc]; rfl

theorem apiRoundGroups_flatten (lib : EntryLibrary) (entries : List JsonValue) :
    (apiRoundGroups lib entries).flatten = entries :=
  groupRounds_flatten lib [] entries

theorem groupRounds_head (lib : EntryLibrary) {current : List JsonValue} (open' : current ≠ [])
    (entries : List JsonValue) :
    ∃ more later, groupRounds lib current entries = (current ++ more) :: later := by
  induction entries generalizing current with
  | nil =>
    unfold groupRounds
    rw [if_neg (fun empty => open' (List.isEmpty_iff.mp empty))]
    exact ⟨[], [], by rw [List.append_nil]⟩
  | cons entry rest ih =>
    unfold groupRounds
    split
    next => exact ⟨[], _, by rw [List.append_nil]⟩
    next =>
      split
      next => exact ⟨[entry], _, rfl⟩
      next =>
        obtain ⟨more, later, same⟩ := ih (List.append_ne_nil_of_left_ne_nil open' [entry])
        exact ⟨entry :: more, later, by rw [same, List.append_assoc]; rfl⟩

theorem together_of_stays {current : List JsonValue} {entry : JsonValue}
    (stays : startsRound lib current entry = false) : ∀ earlier ∈ current, Together lib earlier entry := by
  rintro earlier mem ⟨result, assistant⟩
  have some : current.isEmpty = false := by
    cases current with
    | nil => cases mem
    | cons => rfl
  have any : current.any (isToolResultEntry lib) = true :=
    List.any_eq_true.mpr ⟨earlier, mem, result⟩
  unfold startsRound at stays
  rw [some, any, assistant] at stays
  simp at stays

theorem groupRounds_shape (lib : EntryLibrary) (current entries : List JsonValue)
    (shape : current.Pairwise (Together lib)) : ∀ round ∈ groupRounds lib current entries,
      round ≠ [] ∧ round.Pairwise (Together lib) := by
  induction entries generalizing current with
  | nil =>
    unfold groupRounds
    split
    next => exact List.forall_mem_nil _
    next some =>
      rw [List.forall_mem_singleton]
      exact ⟨fun empty => some (List.isEmpty_iff.mpr empty), shape⟩
  | cons entry rest ih =>
    unfold groupRounds
    split
    next starts =>
      have some : current ≠ [] := by
        rintro rfl
        cases starts
      rw [List.forall_mem_cons]
      refine ⟨⟨some, shape⟩, ?_⟩
      split
      next =>
        rw [List.forall_mem_cons]
        exact ⟨⟨List.cons_ne_nil _ _, List.pairwise_singleton _ _⟩, ih [] .nil⟩
      next => exact ih [entry] (List.pairwise_singleton _ _)
    next stays =>
      have longer : (current ++ [entry]).Pairwise (Together lib) := by
        rw [List.pairwise_append]
        refine ⟨shape, List.pairwise_singleton _ _, ?_⟩
        intro earlier mem later single
        rw [List.mem_singleton.mp single]
        exact together_of_stays (Bool.not_eq_true _ ▸ stays) earlier mem
      split
      next =>
        rw [List.forall_mem_cons]
        exact ⟨⟨List.concat_ne_nil _ _, longer⟩, ih [] .nil⟩
      next => exact ih _ longer

theorem cut_of_starts {current next : List JsonValue} {entry : JsonValue}
    (starts : startsRound lib current entry = true) (head : next.head? = some entry) :
    Cut lib current next := by
  intro first here
  cases head.symm.trans here
  unfold startsRound at starts
  have starts := (Bool.and_eq_true_iff.mp starts).2
  split at starts
  next user =>
    have plain := (Bool.and_eq_true_iff.mp user).2
    exact Or.inl (Bool.not_eq_true' _ ▸ plain)
  next =>
    obtain ⟨assistant, any⟩ := Bool.and_eq_true_iff.mp starts
    exact Or.inr (Or.inl ⟨assistant, List.any_eq_true.mp any⟩)

theorem cut_of_ends {round next : List JsonValue} {last : JsonValue}
    (ends : endsRound lib last = true) (here : round.getLast? = some last) : Cut lib round next :=
  fun _ _ => Or.inr (Or.inr ⟨last, here, ends⟩)

theorem groupRounds_cuts (lib : EntryLibrary) (current entries : List JsonValue) :
    (groupRounds lib current entries).IsChain (Cut lib) := by
  induction entries generalizing current with
  | nil =>
    unfold groupRounds
    split
    next => exact .nil
    next => exact List.isChain_singleton _
  | cons entry rest ih =>
    unfold groupRounds
    split
    next starts =>
      split
      next ends =>
        rw [List.isChain_cons, List.isChain_cons]
        refine ⟨?_, ?_, ih []⟩
        · intro next here
          cases here
          exact cut_of_starts starts rfl
        · intro next _
          exact cut_of_ends ends rfl
      next =>
        rw [List.isChain_cons]
        refine ⟨?_, ih [entry]⟩
        intro next here
        obtain ⟨more, later, same⟩ :=
          groupRounds_head lib (List.cons_ne_nil entry []) rest
        rw [same] at here
        cases here
        exact cut_of_starts starts rfl
    next =>
      split
      next ends =>
        rw [List.isChain_cons]
        refine ⟨?_, ih []⟩
        intro next _
        exact cut_of_ends ends List.getLast?_concat
      next => exact ih _

end Rounds

variable (lib : EntryLibrary)

def liveStatuses : List String :=
  ["pending", "running", "in_progress", "unresolved", "waiting", "queued", "requires_action",
    "awaiting_approval"]

def liveReasons : List String :=
  ["background_running", "pending", "queued", "running", "requires_action", "awaiting_approval",
    "unresolved"]

def livePreservation : List String := ["ephemeral", "unresolved"]

def isOneOf (names : List String) (text : Text) : Bool := (names.map String.toList).contains text

def executionStatusParts (value : JsonValue) : Text × Text × Text :=
  if value.isObject then
    (word lib (value.get "status"), word lib (value.get "reason"),
      word lib (value.get "preservation_class"))
  else (word lib value, [], [])

def executionStatusIsLive (value : JsonValue) : Bool :=
  let (status, reason, preservationClass) := executionStatusParts lib value
  isOneOf liveStatuses status || isOneOf liveReasons reason ||
    isOneOf livePreservation preservationClass

def textPayloadIsLive (text : String) : Bool :=
  match lib.loads text with
  | some (.object fields) =>
    let value := JsonValue.object fields
    executionStatusIsLive lib ((value.get "execution_status").orElse value)
  | _ => false

def blockText? (block : JsonValue) : Option String :=
  if (block.get "type").isText "text" then (block.get "text").str? else none

def toolResultPayloadIsLive (value : JsonValue) : Bool :=
  match value with
  | .list blocks => blocks.any fun block => (blockText? block).any (textPayloadIsLive lib)
  | .str text => textPayloadIsLive lib text
  | .object _ => executionStatusIsLive lib ((value.get "execution_status").orElse value)
  | _ => false

structure OpenCalls where
  pendingIds : Finset Text
  unidentifiedCalls : Nat
  unstructuredCallOpen : Bool

namespace OpenCalls

def call (calls : OpenCalls) (id : Text) : OpenCalls :=
  if id = [] then { calls with unidentifiedCalls := calls.unidentifiedCalls + 1 }
  else { calls with pendingIds := insert id calls.pendingIds }

def result (calls : OpenCalls) (id : Text) : OpenCalls :=
  if id = [] then { calls with unidentifiedCalls := calls.unidentifiedCalls - 1 }
  else { calls with pendingIds := calls.pendingIds.erase id }

end OpenCalls

def segmentId (segment : JsonValue) : Text :=
  strip (strOr lib ((segment.get "tool_use_id").orElse (segment.get "id"))).toList

def isCallSegment (segment : JsonValue) : Bool :=
  let type := word lib (segment.get "type")
  isOneOf ["tool_use", "function"] type || (segment.get "function").isObject ||
    (type.isEmpty && !isResultSegment lib segment && !(segmentId lib segment).isEmpty &&
      ["name", "arguments", "input"].any segment.hasKey)

def segmentIsLive (segment : JsonValue) : Bool :=
  executionStatusIsLive lib
      ((segment.get "execution_status").orElse (segment.get "status")) ||
    toolResultPayloadIsLive lib
      (if segment.hasKey "result" then segment.get "result" else segment.get "content")

-- The calls after a segment; none when its result is live.
def readCallSegment (calls : OpenCalls) (segment : JsonValue) : Option OpenCalls :=
  if ¬segment.isObject then some calls
  else if isCallSegment lib segment then some (calls.call (segmentId lib segment))
  else if isResultSegment lib segment then
    if segmentIsLive lib segment then none
    else some (calls.result (segmentId lib segment))
  else some calls

def entryIsLive (entry : JsonValue) : Bool :=
  executionStatusIsLive lib ((entry.get "execution_status").orElse (entry.get "status")) ||
    toolResultPayloadIsLive lib (entry.get "content")

def readCalls (calls : OpenCalls) (entry : JsonValue) : Option OpenCalls :=
  match segmentsOf entry with
  | some segments => segments.foldlM (readCallSegment lib) calls
  | none =>
    if isAssistantToolCallEntry lib entry then some { calls with unstructuredCallOpen := true }
    else some calls

def readEntry (calls : OpenCalls) (entry : JsonValue) : Option OpenCalls := do
  let calls ← readCalls lib calls entry
  if isToolResultEntry lib entry && (nestedToolResultSegments lib entry).isEmpty then
    if entryIsLive lib entry then none
    else
      let id := strip (strOr lib (entry.get "tool_call_id")).toList
      some { calls.result id with unstructuredCallOpen := false }
  else some calls

def unansweredUser (entries : List JsonValue) : Bool :=
  entries.getLast?.any fun last =>
    (last.get "role").isText "user" && !isToolResultEntry lib last

def apiRoundRequiresRaw (entries : List JsonValue) : Bool :=
  match entries.foldlM (readEntry lib) ⟨∅, 0, false⟩ with
  | none => true
  | some calls =>
    unansweredUser lib entries || calls.pendingIds ≠ ∅ || 0 < calls.unidentifiedCalls ||
      calls.unstructuredCallOpen

def semanticProtectedTailStart (entries : List JsonValue) : Nat :=
  match (apiRoundGroups lib entries).getLast? with
  | none => entries.length
  | some round =>
    if apiRoundRequiresRaw lib round then entries.length - round.length else entries.length

end OpenSquilla.Compaction
