import OpenSquilla.Compaction.Rounds

set_option autoImplicit false

namespace OpenSquilla.Compaction

open TextLines TextScan

variable (lib : EntryLibrary)

/-- What becomes of the calls of a round, in the order in which it is written down. -/
inductive CallEvent
  | called (id : Text)
  -- a call in the words of an assistant message, with or without a list of segments
  | opened (listed : Bool)
  -- a result in a list of segments
  | answered (id : Text)
  -- a result with a message of its own
  | message (id : Text)
  deriving DecidableEq

namespace CallEvent

def isCalled : CallEvent → Bool
  | called _ => true
  | _ => false

def isNameless : CallEvent → Bool
  | called id => id = []
  | opened _ => true
  | _ => false

-- A result that bears the id of no call.
def isLoose (events : List CallEvent) : CallEvent → Bool
  | answered id | message id => id = [] ∨ .called id ∉ events
  | _ => false

end CallEvent

def segmentEvent (segment : JsonValue) : Option CallEvent :=
  if segment.isObject = false then none
  else if isCallSegment lib segment then some (.called (segmentId lib segment))
  else if isResultSegment lib segment then some (.answered (segmentId lib segment))
  else none

def isResultMessage (entry : JsonValue) : Bool :=
  isToolResultEntry lib entry && (nestedToolResultSegments lib entry).isEmpty

def segmentEvents (entry : JsonValue) : List CallEvent :=
  ((segmentsOf entry).getD []).filterMap (segmentEvent lib)

def marksCall (entry : JsonValue) : Bool :=
  ("[tool_call:".toList <:+: (strOr lib (entry.get "content")).toList) ||
    ("[Used tool:".toList <:+: (strOr lib (entry.get "content")).toList)

-- A list of segments that names no call leaves the words of the message.
def writesCall (entry : JsonValue) : Bool :=
  isAssistantToolCallEntry lib entry && ((segmentsOf entry).isNone ||
    marksCall lib entry && !(segmentEvents lib entry).any CallEvent.isCalled)

def entryEvents (entry : JsonValue) : List CallEvent :=
  (if writesCall lib entry then [.opened (segmentsOf entry).isSome] else []) ++
    segmentEvents lib entry ++
    if isResultMessage lib entry then
      [.message (strip (strOr lib (entry.get "tool_call_id")).toList)] else []

def roundEvents (round : List JsonValue) : List CallEvent := round.flatMap (entryEvents lib)

-- A call with an id that no later result answers.
def AwaitsId (events : List CallEvent) : Prop :=
  ∃ before id after, events = before ++ .called id :: after ∧ id ≠ [] ∧ .answered id ∉ after ∧
    .message id ∉ after

-- From some call on, more segments that call without an id than results without one.
def AwaitsNameless (events : List CallEvent) : Prop :=
  ∃ later, later <:+ events ∧
    later.count (.answered []) + later.count (.message []) < later.count (.called [])

-- From some call on, more calls without an id, in segments or words, than results left for them.
def AwaitsLoose (events : List CallEvent) : Prop :=
  ∃ later, later <:+ events ∧
    later.countP (CallEvent.isLoose events) < later.countP CallEvent.isNameless

def LiveCall (round : List JsonValue) : Prop :=
  AwaitsId (roundEvents lib round) ∨ AwaitsNameless (roundEvents lib round) ∨
    AwaitsLoose (roundEvents lib round)

def IsUserMessage (entry : JsonValue) : Prop :=
  (entry.get "role").isText "user" = true ∧ isToolResultEntry lib entry = false

-- No message of the assistant comes after the user's.
def UnansweredUser (round : List JsonValue) : Prop :=
  ∃ earlier user later, round = earlier ++ user :: later ∧ IsUserMessage lib user ∧
    ∀ entry ∈ later, (entry.get "role").isText "assistant" = false

def NamesLive (value : JsonValue) : Prop :=
  if value.isObject then
    word lib (value.get "status") ∈ liveStatuses.map String.toList ∨
      word lib (value.get "reason") ∈ liveReasons.map String.toList ∨
      word lib (value.get "preservation_class") ∈ livePreservation.map String.toList
  else word lib value ∈ liveStatuses.map String.toList

/-- The body of a result says that it is not finished. -/
inductive LivePayload : JsonValue → Prop
  | body {fields : List (String × JsonValue)}
      (live : NamesLive lib (((JsonValue.object fields).get "execution_status").orElse (.object fields))) :
      LivePayload (.object fields)
  | text {text : String} {fields : List (String × JsonValue)}
      (loads : lib.loads text = some (.object fields)) (body : LivePayload (.object fields)) :
      LivePayload (.str text)
  | block {blocks : List JsonValue} {block : JsonValue} {text : String} (mem : block ∈ blocks)
      (type : (block.get "type").isText "text" = true) (held : (block.get "text").str? = some text)
      (body : LivePayload (.str text)) : LivePayload (.list blocks)

def LiveSegment (segment : JsonValue) : Prop :=
  NamesLive lib ((segment.get "execution_status").orElse (segment.get "status")) ∨
    LivePayload lib (if segment.hasKey "result" then segment.get "result" else segment.get "content")

def LiveMessage (entry : JsonValue) : Prop :=
  NamesLive lib ((entry.get "execution_status").orElse (entry.get "status")) ∨
    LivePayload lib (entry.get "content")

def LiveEntry (entry : JsonValue) : Prop :=
  (∃ segment ∈ (segmentsOf entry).getD [], (∃ id, segmentEvent lib segment = some (.answered id)) ∧
      LiveSegment lib segment) ∨
    isResultMessage lib entry = true ∧ LiveMessage lib entry

/-- A round with something that is still going on. -/
def LiveRound (round : List JsonValue) : Prop :=
  LiveCall lib round ∨ UnansweredUser lib round ∨ ∃ entry ∈ round, LiveEntry lib entry

-- Words that call without a list of segments, with no result message behind them.
def AwaitsMessage (events : List CallEvent) : Prop :=
  ∃ before after, events = before ++ .opened false :: after ∧ ∀ id, .message id ∉ after

/-- What a reading of the round from its start to its end takes down. -/
def Recorded (round : List JsonValue) : Prop :=
  AwaitsId (roundEvents lib round) ∨ AwaitsNameless (roundEvents lib round) ∨
    AwaitsMessage (roundEvents lib round) ∨ (∃ last ∈ round.getLast?, IsUserMessage lib last) ∨
    ∃ entry ∈ round, LiveEntry lib entry

/-- A live round that the reading takes for a finished one. -/
def Overlooked (round : List JsonValue) : Prop := LiveRound lib round ∧ ¬Recorded lib round

variable {lib}

section Results

theorem isOneOf_iff {names : List String} {text : Text} :
    isOneOf names text = true ↔ text ∈ names.map String.toList := List.contains_iff_mem

theorem executionStatusIsLive_iff {value : JsonValue} :
    executionStatusIsLive lib value = true ↔ NamesLive lib value := by
  unfold executionStatusIsLive executionStatusParts NamesLive
  by_cases object : value.isObject = true
  · rw [if_pos object, if_pos object]
    simp only [Bool.or_eq_true, isOneOf_iff, or_assoc]
  · have reasons : isOneOf liveReasons [] = false := by decide
    have kept : isOneOf livePreservation [] = false := by decide
    rw [if_neg object, if_neg object]
    simp only [reasons, kept, Bool.or_false, isOneOf_iff]

theorem textPayloadIsLive_iff {text : String} :
    textPayloadIsLive lib text = true ↔ LivePayload lib (.str text) := by
  unfold textPayloadIsLive
  constructor
  · intro live
    split at live
    next fields loads => exact .text loads (.body (executionStatusIsLive_iff.mp live))
    next => cases live
  · rintro (_ | ⟨loads, ⟨live⟩⟩)
    rw [loads]
    exact executionStatusIsLive_iff.mpr live

theorem toolResultPayloadIsLive_iff {value : JsonValue} :
    toolResultPayloadIsLive lib value = true ↔ LivePayload lib value := by
  cases value with
  | list blocks =>
    unfold toolResultPayloadIsLive
    rw [List.any_eq_true]
    constructor
    · rintro ⟨block, mem, live⟩
      obtain ⟨text, held, live⟩ := (Option.any_eq_true _ _).mp live
      unfold blockText? at held
      split at held
      next type => exact .block mem type held (textPayloadIsLive_iff.mp live)
      next => cases held
    · rintro (_ | _ | ⟨mem, type, held, body⟩)
      refine ⟨_, mem, ?_⟩
      rw [blockText?, if_pos type, held]
      exact textPayloadIsLive_iff.mpr body
  | str text => exact textPayloadIsLive_iff
  | object fields =>
    constructor
    · exact fun live => .body (executionStatusIsLive_iff.mp live)
    · rintro ⟨live⟩
      exact executionStatusIsLive_iff.mpr live
  | _ =>
    constructor
    · intro live
      cases live
    · intro live
      cases live

theorem segmentIsLive_iff {segment : JsonValue} :
    segmentIsLive lib segment = true ↔ LiveSegment lib segment := by
  unfold segmentIsLive LiveSegment
  rw [Bool.or_eq_true, executionStatusIsLive_iff, toolResultPayloadIsLive_iff]

theorem entryIsLive_iff {entry : JsonValue} : entryIsLive lib entry = true ↔ LiveMessage lib entry := by
  unfold entryIsLive LiveMessage
  rw [Bool.or_eq_true, executionStatusIsLive_iff, toolResultPayloadIsLive_iff]

end Results

namespace OpenCalls

def read (calls : OpenCalls) : CallEvent → OpenCalls
  | .called id => calls.call id
  | .opened listed => if listed then calls else { calls with unstructuredCallOpen := true }
  | .answered id => calls.result id
  | .message id => { calls.result id with unstructuredCallOpen := false }

@[simp] theorem unstructuredCallOpen_call (calls : OpenCalls) (id : Text) :
    (calls.call id).unstructuredCallOpen = calls.unstructuredCallOpen := by
  unfold call
  split <;> rfl

@[simp] theorem unstructuredCallOpen_result (calls : OpenCalls) (id : Text) :
    (calls.result id).unstructuredCallOpen = calls.unstructuredCallOpen := by
  unfold result
  split <;> rfl

theorem mem_pendingIds_read {calls : OpenCalls} {event : CallEvent} {id : Text} :
    id ∈ (calls.read event).pendingIds ↔
      event = .called id ∧ id ≠ [] ∨
        id ∈ calls.pendingIds ∧ (id = [] ∨ event ≠ .answered id ∧ event ≠ .message id) := by
  cases event with
  | called other =>
    simp only [read, call]
    split <;> grind
  | opened listed =>
    cases listed <;> simp [read]
  | answered other =>
    simp only [read, result]
    split <;> grind
  | message other =>
    simp only [read, result]
    split <;> grind

theorem unidentifiedCalls_read (calls : OpenCalls) (event : CallEvent) : (calls.read event).unidentifiedCalls =
      if event = .called [] then calls.unidentifiedCalls + 1
      else if event = .answered [] ∨ event = .message [] then calls.unidentifiedCalls - 1
      else calls.unidentifiedCalls := by
  cases event with
  | opened listed => cases listed <;> simp [read]
  | called id => by_cases empty : id = [] <;> simp [read, call, empty]
  | answered id => by_cases empty : id = [] <;> simp [read, result, empty]
  | message id => by_cases empty : id = [] <;> simp [read, result, empty]

theorem unstructuredCallOpen_read (calls : OpenCalls) (event : CallEvent) :
    (calls.read event).unstructuredCallOpen = true ↔
      event = .opened false ∨ calls.unstructuredCallOpen = true ∧ ∀ id, event ≠ .message id := by
  cases event with
  | opened listed => cases listed <;> simp [read]
  | called id => simp [read]
  | answered id => simp [read]
  | message id => simp [read]

end OpenCalls

section Reading

def readEvents (events : List CallEvent) : OpenCalls := events.foldl OpenCalls.read ⟨∅, 0, false⟩

theorem readEvents_concat (events : List CallEvent) (event : CallEvent) :
    readEvents (events ++ [event]) = (readEvents events).read event := List.foldl_concat ..

theorem awaitsId_iff {events : List CallEvent} : AwaitsId events ↔ (readEvents events).pendingIds ≠ ∅ := by
  have each : ∀ id, id ∈ (readEvents events).pendingIds ↔
      ∃ before after, events = before ++ .called id :: after ∧ id ≠ [] ∧ .answered id ∉ after ∧
        .message id ∉ after := by
    intro id
    induction events using List.reverseRecOn with
    | nil => simp [readEvents]
    | append_singleton events event ih =>
      rw [readEvents_concat, OpenCalls.mem_pendingIds_read, ih]
      constructor
      · rintro (⟨rfl, named⟩ | ⟨⟨before, after, rfl, named, answered, message⟩, others⟩)
        · exact ⟨events, [], rfl, named, List.not_mem_nil, List.not_mem_nil⟩
        · obtain ⟨unanswered, unmessaged⟩ := others.resolve_left named
          refine ⟨before, after ++ [event], by rw [List.append_assoc]; rfl, named, ?_, ?_⟩
          · grind
          · grind
      · rintro ⟨before, after, split, named, answered, message⟩
        obtain rfl | ⟨after, final, rfl⟩ := List.eq_nil_or_concat after
        · exact .inl ⟨(List.append_inj' split rfl).2 |> List.singleton_inj.mp, named⟩
        · rw [List.concat_eq_append, ← List.cons_append, ← List.append_assoc] at split
          obtain ⟨rfl, same⟩ := List.append_inj' split rfl
          obtain rfl := List.singleton_inj.mp same
          refine .inr ⟨⟨before, after, rfl, named, ?_, ?_⟩, .inr ⟨?_, ?_⟩⟩ <;> grind
  rw [Ne, Finset.eq_empty_iff_forall_notMem, not_forall]
  simp only [not_not, each]
  exact ⟨fun ⟨before, id, after, rest⟩ => ⟨id, before, after, rest⟩,
    fun ⟨id, before, after, rest⟩ => ⟨before, id, after, rest⟩⟩

theorem awaitsNameless_iff {events : List CallEvent} :
    AwaitsNameless events ↔ 0 < (readEvents events).unidentifiedCalls := by
  have each : ∀ calls, calls < (readEvents events).unidentifiedCalls ↔
      ∃ later, later <:+ events ∧
        calls + (later.count (.answered []) + later.count (.message [])) < later.count (.called []) := by
    induction events using List.reverseRecOn with
    | nil => simp [readEvents]
    | append_singleton events event ih =>
      intro calls
      have step : (∃ later, later <:+ events ++ [event] ∧
            calls + (later.count (.answered []) + later.count (.message [])) < later.count (.called [])) ↔
          ∃ later, later <:+ events ∧ calls + (later.count (.answered []) + later.count (.message []) +
              if event = .answered [] ∨ event = .message [] then 1 else 0) <
            later.count (.called []) + if event = .called [] then 1 else 0 := by
        constructor
        · rintro ⟨later, suffix, fewer⟩
          obtain rfl | ⟨later, rfl, inside⟩ := List.suffix_concat_iff.mp suffix
          · simp at fewer
          · refine ⟨later, inside, ?_⟩
            rw [List.count_append, List.count_append, List.count_append] at fewer
            grind
        · rintro ⟨later, inside, fewer⟩
          refine ⟨later ++ [event], List.suffix_concat_iff.mpr (.inr ⟨later, rfl, inside⟩), ?_⟩
          rw [List.count_append, List.count_append, List.count_append]
          grind
      rw [readEvents_concat, OpenCalls.unidentifiedCalls_read, step]
      by_cases called : event = .called []
      · subst called
        cases calls with
        | zero => exact iff_of_true (Nat.succ_pos _) ⟨[], List.nil_suffix, by simp⟩
        | succ calls =>
          simp only [if_true, reduceCtorEq, or_self, if_false, Nat.add_zero]
          rw [Nat.add_lt_add_iff_right, ih calls]
          simp only [Nat.add_right_comm calls 1, Nat.add_lt_add_iff_right]
      · by_cases result : event = .answered [] ∨ event = .message []
        · rw [if_neg called, if_pos result, Nat.lt_sub_iff_add_lt, ih (calls + 1)]
          simp only [called, result, if_true, if_false, Nat.add_zero, Nat.add_right_comm calls 1, Nat.add_assoc]
        · rw [if_neg called, if_neg result, ih calls]
          simp only [called, result, if_false, Nat.add_zero]
  have whole := each 0
  simp only [Nat.zero_add] at whole
  exact whole.symm

theorem awaitsMessage_iff {events : List CallEvent} :
    AwaitsMessage events ↔ (readEvents events).unstructuredCallOpen = true := by
  induction events using List.reverseRecOn with
  | nil => simp [AwaitsMessage, readEvents]
  | append_singleton events event ih =>
    rw [readEvents_concat, OpenCalls.unstructuredCallOpen_read, ← ih]
    constructor
    · rintro ⟨before, after, split, unanswered⟩
      obtain rfl | ⟨after, final, rfl⟩ := List.eq_nil_or_concat after
      · exact .inl (List.singleton_inj.mp (List.append_inj' split rfl).2)
      · rw [List.concat_eq_append, ← List.cons_append, ← List.append_assoc] at split
        obtain ⟨rfl, same⟩ := List.append_inj' split rfl
        obtain rfl := List.singleton_inj.mp same
        refine .inr ⟨⟨before, after, rfl, ?_⟩, ?_⟩ <;> grind
    · rintro (rfl | ⟨⟨before, after, rfl, unanswered⟩, other⟩)
      · exact ⟨events, [], rfl, fun _ => List.not_mem_nil⟩
      · refine ⟨before, after ++ [event], by rw [List.append_assoc]; rfl, ?_⟩
        grind

theorem foldlM_guarded {σ α : Type} (stops : α → Bool) (step : σ → α → σ) (items : List α) (state : σ) :
    items.foldlM (fun state item => if stops item then none else some (step state item)) state =
      if items.any stops then none else some (items.foldl step state) := by
  induction items generalizing state with
  | nil => rfl
  | cons item items ih =>
    rw [List.foldlM_cons, List.any_cons, List.foldl_cons]
    cases here : stops item with
    | true => rfl
    | false => exact ih _

def segmentStops (lib : EntryLibrary) (segment : JsonValue) : Bool :=
  segment.isObject && !isCallSegment lib segment && isResultSegment lib segment &&
    segmentIsLive lib segment

theorem readCallSegment_eq (calls : OpenCalls) (segment : JsonValue) :
    readCallSegment lib calls segment = if segmentStops lib segment then none
      else some ((segmentEvent lib segment).elim calls calls.read) := by
  unfold readCallSegment segmentStops segmentEvent
  by_cases object : segment.isObject = true
  · rw [if_neg (not_not.mpr object), object]
    cases isCallSegment lib segment with
    | true => rfl
    | false =>
      cases isResultSegment lib segment with
      | true => cases segmentIsLive lib segment <;> rfl
      | false => rfl
  · rw [if_pos object, Bool.eq_false_of_not_eq_true object]
    rfl

def entryStops (lib : EntryLibrary) (entry : JsonValue) : Bool :=
  ((segmentsOf entry).getD []).any (segmentStops lib) ||
    isResultMessage lib entry && entryIsLive lib entry

theorem readCalls_eq (calls : OpenCalls) (entry : JsonValue) :
    readCalls lib calls entry = if ((segmentsOf entry).getD []).any (segmentStops lib) then none
      else some (((if writesCall lib entry then [CallEvent.opened (segmentsOf entry).isSome] else []) ++
        segmentEvents lib entry).foldl OpenCalls.read calls) := by
  unfold readCalls writesCall segmentEvents
  cases segmentsOf entry with
  | some segments =>
    have guarded : readCallSegment lib = fun calls segment => if segmentStops lib segment then none
        else some ((segmentEvent lib segment).elim calls calls.read) := by
      funext calls segment
      exact readCallSegment_eq calls segment
    have opens : ∀ opened : Bool, (if opened then [CallEvent.opened true] else []).foldl OpenCalls.read calls =
        calls := by
      rintro (_ | _) <;> rfl
    dsimp only [Option.getD_some, Option.isSome_some]
    rw [guarded, foldlM_guarded, List.foldl_append, opens, List.foldl_filterMap]
    refine if_congr Iff.rfl rfl (congrArg some (List.foldl_ext _ _ _ fun calls segment _ => ?_))
    cases segmentEvent lib segment <;> rfl
  | none =>
    cases isAssistantToolCallEntry lib entry <;> rfl

theorem readEntry_eq (calls : OpenCalls) (entry : JsonValue) :
    readEntry lib calls entry = if entryStops lib entry then none
      else some ((entryEvents lib entry).foldl OpenCalls.read calls) := by
  unfold readEntry entryStops entryEvents isResultMessage
  rw [readCalls_eq]
  cases ((segmentsOf entry).getD []).any (segmentStops lib) with
  | true => rfl
  | false =>
    simp only [List.foldl_append]
    cases isToolResultEntry lib entry && (nestedToolResultSegments lib entry).isEmpty with
    | true => cases entryIsLive lib entry <;> rfl
    | false => rfl

theorem segmentStops_iff {segment : JsonValue} : segmentStops lib segment = true ↔
    (∃ id, segmentEvent lib segment = some (.answered id)) ∧ LiveSegment lib segment := by
  unfold segmentStops
  rw [Bool.and_eq_true, segmentIsLive_iff]
  refine and_congr_left fun _ => ?_
  unfold segmentEvent
  cases segment.isObject <;> cases isCallSegment lib segment <;>
    cases isResultSegment lib segment <;> simp

theorem entryStops_iff {entry : JsonValue} : entryStops lib entry = true ↔ LiveEntry lib entry := by
  unfold entryStops LiveEntry
  rw [Bool.or_eq_true, Bool.and_eq_true, List.any_eq_true, entryIsLive_iff]
  simp only [segmentStops_iff]

theorem unansweredUser_iff {round : List JsonValue} :
    unansweredUser lib round = true ↔ ∃ last ∈ round.getLast?, IsUserMessage lib last := by
  unfold unansweredUser IsUserMessage
  rw [Option.any_eq_true]
  simp only [Bool.and_eq_true, Bool.not_eq_true', Option.mem_def]

theorem apiRoundRequiresRaw_iff {round : List JsonValue} :
    apiRoundRequiresRaw lib round = true ↔ Recorded lib round := by
  have guarded : readEntry lib = fun calls entry => if entryStops lib entry then none
      else some ((entryEvents lib entry).foldl OpenCalls.read calls) := by
    funext calls entry
    exact readEntry_eq calls entry
  have events : round.foldl (fun calls entry => (entryEvents lib entry).foldl OpenCalls.read calls)
      ⟨∅, 0, false⟩ = readEvents (roundEvents lib round) := List.foldl_flatMap.symm
  have live : round.any (entryStops lib) = true ↔ ∃ entry ∈ round, LiveEntry lib entry := by
    rw [List.any_eq_true]
    simp only [entryStops_iff]
  unfold apiRoundRequiresRaw Recorded
  rw [guarded, foldlM_guarded, events, awaitsId_iff, awaitsNameless_iff, awaitsMessage_iff, ← unansweredUser_iff,
    ← live]
  cases round.any (entryStops lib) with
  | true => simp
  | false =>
    simp only [Bool.false_eq_true, if_false, or_false, Bool.or_eq_true, decide_eq_true_eq]
    tauto

end Reading

end OpenSquilla.Compaction
