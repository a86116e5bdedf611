import OpenSquilla.Histories.RecordedContext
import OpenSquilla.Shared.TextScan

set_option autoImplicit false

namespace OpenSquilla.Histories

open RaisingRuns TextLines TextScan

-- The JSON parser, the text of a value and the validation of a message's content.
structure ReplayLibrary where
  loads : String → Option JsonValue
  dumps : JsonValue → String
  str : JsonValue → String
  validateContent : JsonValue → Option ReplayContent

inductive ReplayError
  | validation
  -- a list or an object looked up in a set
  | unhashable

variable (lib : ReplayLibrary)

def coerceToolInput (raw : JsonValue) : JsonValue :=
  match raw with
  | .object fields => .object fields
  | .str text =>
    if text = "" then .object []
    else
      match lib.loads text with
      | some (.object fields) => .object fields
      | _ => .object []
  | _ => .object []

def validStatuses : List String := ["success", "error", "timeout", "cancelled", "unknown"]

def validSources : List String := ["tool_runtime", "adapter", "replay", "legacy", "unknown"]

def validPreservation : List String :=
  ["normal", "diagnostic", "retain_summary", "retain_full", "ephemeral"]

def asBool : JsonValue → Bool
  | .bool value => value
  | _ => false

def asExitCode : JsonValue → Option Int
  | .int value => some value
  | _ => none

def hashable : JsonValue → Bool
  | .list _ | .object _ => false
  | _ => true

def oneOf (names : List String) (value : JsonValue) : Except ReplayError (Option String) :=
  if hashable value then .ok (value.str?.filter (names.contains ·)) else .error .unhashable

def normalizeExecutionStatus (value : JsonValue) : Except ReplayError ExecutionStatus :=
  if value.isObject then do
    let status ← oneOf validStatuses (value.get "status")
    let source ← oneOf validSources (value.get "source")
    let preservationClass ← oneOf validPreservation (value.get "preservation_class")
    return { status := status.getD "unknown"
             exitCode := asExitCode (value.get "exit_code")
             timedOut := asBool (value.get "timed_out")
             truncated := asBool (value.get "truncated")
             reason := if status.isSome then (value.get "reason").str? else some "invalid_status"
             source := source.getD "unknown"
             preservationClass := preservationClass.getD "normal" }
  else
    .ok { status := "unknown", exitCode := none, timedOut := false, truncated := false,
          reason := none, source := "unknown", preservationClass := "normal" }

def normalizeLegacyExecutionStatus (isError : Bool) : ExecutionStatus where
  status := if isError then "error" else "unknown"
  exitCode := none
  timedOut := false
  truncated := false
  reason := some "legacy_missing_status"
  source := "legacy"
  preservationClass := if isError then "diagnostic" else "normal"

def segmentType (segment : JsonValue) : Option String := (segment.get "type").str?

def useIdOf (segment : JsonValue) : JsonValue :=
  (segment.get "tool_use_id").orElse (segment.get "id")

def isErrorOf (segment : JsonValue) : Bool := (segment.get "is_error").truthy

def isLowerHex (c : Char) : Bool := ('0' ≤ c && c ≤ '9') || ('a' ≤ c && c ≤ 'f')

def isLogHandle (text : String) : Bool :=
  text.toList.take 3 = ['t', 'r', '-'] && text.toList.length = 35 &&
    (text.toList.drop 3).all isLowerHex

def addLogHandle (handle : JsonValue) (result : String) : String :=
  match handle with
  | .str handle =>
    -- a preview can have lost the address of the tool's log
    if isLogHandle handle ∧ ¬handle.toList <:+: result.toList then
      result ++ "\nexecution_log_handle: " ++ handle
    else result
  | _ => result

def resultContentOf (segment : JsonValue) : ResultContent :=
  let handle := segment.get "execution_log_handle"
  let raw := if segment.hasKey "result" then segment.get "result" else .str ""
  match raw with
  | .str text => .text (addLogHandle handle text)
  | .list items => .items items
  | raw => .text (addLogHandle handle (lib.str raw))

def executionStatusOf (segment : JsonValue) : Except ReplayError ExecutionStatus :=
  if segment.hasKey "execution_status" then
    normalizeExecutionStatus (segment.get "execution_status")
  else .ok (normalizeLegacyExecutionStatus (isErrorOf segment))

def textOf (value : JsonValue) : Except ReplayError String := orRaise value.str? .validation

-- The block of a segment, none when the segment is skipped.
def readSegment (segment : JsonValue) : Except ReplayError (Option ReplayBlock) :=
  if ¬segment.isObject then .ok none
  else
    match segmentType segment with
    | some "text" =>
      if ¬(segment.get "text").truthy then .ok none
      else (textOf (segment.get "text")).map fun text => some (.text text)
    | some "tool_use" =>
      if ¬(useIdOf segment).truthy ∨ ¬(segment.get "name").truthy then .ok none
      else do
        let id ← textOf (useIdOf segment)
        let name ← textOf (segment.get "name")
        return some (.toolUse id name (coerceToolInput lib (segment.get "input")))
    | some "tool_result" =>
      if ¬(segment.get "tool_use_id").truthy then .ok none
      else do
        let executionStatus ← executionStatusOf segment
        let toolUseId ← textOf (segment.get "tool_use_id")
        return some (.toolResult toolUseId (resultContentOf lib segment) (isErrorOf segment)
          (some executionStatus))
    | _ => .ok none

/-- A segment that stands for a block: non-empty text, a call with an id and a name, or a
result with an id. -/
def ValidSegment (segment : JsonValue) : Prop :=
  segment.isObject = true ∧
    (segmentType segment = some "text" ∧ (segment.get "text").truthy = true ∨
      segmentType segment = some "tool_use" ∧ (useIdOf segment).truthy = true ∧
        (segment.get "name").truthy = true ∨
      segmentType segment = some "tool_result" ∧ (segment.get "tool_use_id").truthy = true)

instance (segment : JsonValue) : Decidable (ValidSegment segment) :=
  inferInstanceAs (Decidable (_ ∧ _))

inductive Carries : JsonValue → ReplayBlock → Prop
  | text {segment : JsonValue} {text : String} (kind : segmentType segment = some "text")
      (held : segment.get "text" = .str text) : Carries segment (.text text)
  | toolUse {segment : JsonValue} {id name : String} (kind : segmentType segment = some "tool_use")
      (identified : useIdOf segment = .str id) (named : segment.get "name" = .str name) :
      Carries segment (.toolUse id name (coerceToolInput lib (segment.get "input")))
  | toolResult {segment : JsonValue} {toolUseId : String} {executionStatus : ExecutionStatus}
      (kind : segmentType segment = some "tool_result")
      (identified : segment.get "tool_use_id" = .str toolUseId)
      (normalized : executionStatusOf segment = .ok executionStatus) :
      Carries segment (.toolResult toolUseId (resultContentOf lib segment) (isErrorOf segment)
        (some executionStatus))

-- Texts, ids and names are strings, and the words of a status can be looked up.
def WellTyped (segment : JsonValue) : Prop :=
  (∀ key ∈ ["text", "tool_use_id", "id", "name"],
      (segment.get key).truthy = true → (segment.get key).str?.isSome) ∧
    ∀ key ∈ ["status", "source", "preservation_class"],
      hashable ((segment.get "execution_status").get key) = true

section Reading

variable {lib}

theorem textOf_ok {value : JsonValue} {text : String} (read : textOf value = .ok text) : value = .str text := by
  have held : value.str? = some text := orRaise_eq_ok.mp read
  cases value with
  | str value =>
    cases held
    rfl
  | _ => cases held

theorem textOf_total {value : JsonValue} (isText : value.str?.isSome) : ∃ text, textOf value = .ok text := by
  obtain ⟨text, held⟩ := Option.isSome_iff_exists.mp isText
  exact ⟨text, orRaise_eq_ok.mpr held⟩

theorem readSegment_cases {segment : JsonValue} {read : Option ReplayBlock}
    (ran : readSegment lib segment = .ok read) :
    (ValidSegment segment ∧ ∃ block, read = some block ∧ Carries lib segment block) ∨
      (¬ValidSegment segment ∧ read = none) := by
  unfold readSegment at ran
  split at ran
  next notObject =>
    cases ran
    exact Or.inr ⟨fun valid => notObject valid.1, rfl⟩
  next isObject =>
    have isObject := not_not.mp isObject
    split at ran
    next kind =>
      split at ran
      next empty =>
        cases ran
        refine Or.inr ⟨?_, rfl⟩
        rintro ⟨-, ⟨-, full⟩ | ⟨other, -⟩ | ⟨other, -⟩⟩
        · exact empty full
        · exact absurd (kind.symm.trans other) (by decide)
        · exact absurd (kind.symm.trans other) (by decide)
      next full =>
        obtain ⟨text, held, rfl⟩ := of_map_ok ran
        exact Or.inl ⟨⟨isObject, Or.inl ⟨kind, not_not.mp full⟩⟩, _, rfl,
          .text kind (textOf_ok held)⟩
    next kind =>
      split at ran
      next empty =>
        cases ran
        refine Or.inr ⟨?_, rfl⟩
        rintro ⟨-, ⟨other, -⟩ | ⟨-, identified, named⟩ | ⟨other, -⟩⟩
        · exact absurd (kind.symm.trans other) (by decide)
        · exact empty.elim (· identified) (· named)
        · exact absurd (kind.symm.trans other) (by decide)
      next full =>
        rw [not_or, not_not, not_not] at full
        obtain ⟨id, identified, ran⟩ := of_bind_ok ran
        obtain ⟨name, named, ran⟩ := of_bind_ok ran
        cases ran
        exact Or.inl ⟨⟨isObject, Or.inr (Or.inl ⟨kind, full⟩)⟩, _, rfl,
          .toolUse kind (textOf_ok identified) (textOf_ok named)⟩
    next kind =>
      split at ran
      next empty =>
        cases ran
        refine Or.inr ⟨?_, rfl⟩
        rintro ⟨-, ⟨other, -⟩ | ⟨other, -⟩ | ⟨-, identified⟩⟩
        · exact absurd (kind.symm.trans other) (by decide)
        · exact absurd (kind.symm.trans other) (by decide)
        · exact empty identified
      next full =>
        obtain ⟨executionStatus, normalized, ran⟩ := of_bind_ok ran
        obtain ⟨toolUseId, identified, ran⟩ := of_bind_ok ran
        cases ran
        exact Or.inl ⟨⟨isObject, Or.inr (Or.inr ⟨kind, not_not.mp full⟩)⟩, _, rfl,
          .toolResult kind (textOf_ok identified) normalized⟩
    next notText notUse notResult =>
      cases ran
      refine Or.inr ⟨?_, rfl⟩
      rintro ⟨-, ⟨kind, -⟩ | ⟨kind, -⟩ | ⟨kind, -⟩⟩
      · exact notText kind
      · exact notUse kind
      · exact notResult kind

theorem oneOf_total (names : List String) {value : JsonValue} (held : hashable value = true) :
    ∃ found, oneOf names value = .ok found := by
  unfold oneOf
  rw [if_pos held]
  exact ⟨_, rfl⟩

theorem executionStatusOf_total {segment : JsonValue} (typed : WellTyped segment) :
    ∃ executionStatus, executionStatusOf segment = .ok executionStatus := by
  have lookedUp := typed.2
  unfold executionStatusOf normalizeExecutionStatus
  split
  next =>
    split
    next =>
      obtain ⟨status, one⟩ := oneOf_total validStatuses (lookedUp "status" (by decide))
      obtain ⟨source, two⟩ := oneOf_total validSources (lookedUp "source" (by decide))
      obtain ⟨preservationClass, three⟩ := oneOf_total validPreservation
        (lookedUp "preservation_class" (by decide))
      rw [one, two, three]
      exact ⟨_, rfl⟩
    next => exact ⟨_, rfl⟩
  next => exact ⟨_, rfl⟩

theorem WellTyped.useId {segment : JsonValue} (typed : WellTyped segment)
    (full : (useIdOf segment).truthy = true) : (useIdOf segment).str?.isSome := by
  unfold useIdOf JsonValue.orElse at full ⊢
  split at full
  next given =>
    rw [if_pos given]
    exact typed.1 "tool_use_id" (by decide) full
  next missing =>
    rw [if_neg missing]
    exact typed.1 "id" (by decide) full

theorem readSegment_total (lib : ReplayLibrary) {segment : JsonValue} (typed : WellTyped segment) :
    ∃ read, readSegment lib segment = .ok read := by
  unfold readSegment
  split
  next => exact ⟨_, rfl⟩
  next =>
    split
    next =>
      split
      next => exact ⟨_, rfl⟩
      next full =>
        obtain ⟨text, held⟩ := textOf_total (typed.1 "text" (by decide) (not_not.mp full))
        rw [held]
        exact ⟨_, rfl⟩
    next =>
      split
      next => exact ⟨_, rfl⟩
      next full =>
        rw [not_or, not_not, not_not] at full
        obtain ⟨id, identified⟩ := textOf_total (typed.useId full.1)
        obtain ⟨name, named⟩ := textOf_total (typed.1 "name" (by decide) full.2)
        rw [identified, named]
        exact ⟨_, rfl⟩
    next =>
      split
      next => exact ⟨_, rfl⟩
      next full =>
        obtain ⟨executionStatus, normalized⟩ := executionStatusOf_total typed
        obtain ⟨toolUseId, identified⟩ :=
          textOf_total (typed.1 "tool_use_id" (by decide) (not_not.mp full))
        rw [normalized, identified]
        exact ⟨_, rfl⟩
    next => exact ⟨_, rfl⟩

end Reading

end OpenSquilla.Histories
