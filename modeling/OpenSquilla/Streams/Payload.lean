import OpenSquilla.Shared.Dict

set_option autoImplicit false

namespace OpenSquilla.Streams

/-- A payload value. A list, a mapping or a float is only ever compared, tested for truth or
converted to text here, and is known by these two readings. -/
inductive Value
  | none
  | bool (value : Bool)
  | int (value : Int)
  | str (value : String)
  | other (text : String) (truthy : Bool)
  deriving DecidableEq, Repr

namespace Value

def text : Value → String
  | .none => "None"
  | .bool value => if value then "True" else "False"
  | .int value => toString value
  | .str value => value
  | .other text _ => text

def truthy : Value → Bool
  | .none => false
  | .bool value => value
  | .int value => value ≠ 0
  | .str value => value ≠ ""
  | .other _ truthy => truthy

def normal : Value → Value
  | .bool value => .int (if value then 1 else 0)
  | value => value

def equals (left right : Value) : Bool := left.normal = right.normal

def textOrEmpty (value : Value) : String := if value.truthy then value.text else ""

def filled? : Value → Option String
  | .str value => if value = "" then Option.none else some value
  | _ => Option.none

def int? : Value → Option Int
  | .int value => some value
  | _ => Option.none

def natural? (value : Value) : Option Int := value.int?.filter (0 ≤ ·)

end Value

abbrev Payload := Dict String Value

structure BufferedSessionEvent where
  eventName : String
  payload : Payload
  streamSeq : Nat
  deriving DecidableEq

def textDelta : String := "session.event.text_delta"
def thinking : String := "session.event.thinking"
def thinkingStart : String := "session.event.thinking_start"
def thinkingEnd : String := "session.event.thinking_end"
def toolUseStart : String := "session.event.tool_use_start"
def toolUseDelta : String := "session.event.tool_use_delta"
def toolUseEnd : String := "session.event.tool_use_end"
def toolInputPreview : String := "session.event.tool_input_preview"
def toolResult : String := "session.event.tool_result"
def artifact : String := "session.event.artifact"
def runHeartbeat : String := "session.event.run_heartbeat"
def compaction : String := "session.event.compaction"
def providerActivity : String := "session.event.provider_activity"
def done : String := "session.event.done"
def error : String := "session.event.error"
def turnCommitted : String := "session.event.turn_committed"
def answerGenerationReset : String := "session.event.answer_generation_reset"

def isReplayLossy (eventName : String) (payload : Payload) : Bool :=
  eventName ∈ [textDelta, runHeartbeat, toolUseDelta, toolInputPreview] ||
    payload.get? "heartbeat" = some (.bool true) && eventName ∈ [compaction, providerActivity]

def isGenerationReset (eventName : String) : Bool := eventName = answerGenerationReset

def isGenerationLossy (eventName : String) : Bool :=
  eventName ∈ [textDelta, thinking, thinkingStart, thinkingEnd, toolUseDelta, toolInputPreview,
    toolUseEnd]

def isCompletedTurnEvent (eventName : String) : Bool :=
  eventName ∈ [toolResult, artifact, turnCommitted]

namespace Payload

def get (payload : Payload) (field : String) : Value := (payload.get? field).getD .none

def getAlias (payload : Payload) (field fallback : String) : Value :=
  (payload.get? field).getD (payload.get fallback)

def generationEpoch (payload : Payload) : Option Int :=
  (payload.getAlias "generation_epoch" "generationEpoch").natural?

def resetNewGenerationEpoch (payload : Payload) : Option Int :=
  (payload.getAlias "new_generation_epoch" "newGenerationEpoch").natural?

def identityValue (payload : Payload) (fields : List String) : Option String :=
  fields.findSome? (fun field => (payload.get field).filled?)

def taskId (payload : Payload) : Option String :=
  (payload.getAlias "task_id" "taskId").filled?.or (payload.getAlias "turn_id" "turnId").filled?

def toolId (payload : Payload) : String :=
  let raw := (payload.get? "tool_use_id").getD
    ((payload.get? "toolUseId").getD ((payload.get? "id").getD (.str "")))
  if raw = .none then "" else raw.text

def thinkingBlockId (payload : Payload) : String :=
  (payload.getAlias "block_id" "blockId").filled?.getD "__legacy_reasoning__"

def isSpace (c : Char) : Bool :=
  (9 ≤ c.toNat && c.toNat ≤ 13) || (28 ≤ c.toNat && c.toNat ≤ 32) ||
    c.toNat ∈ [0x85, 0xa0, 0x1680, 0x2028, 0x2029, 0x202f, 0x205f, 0x3000] ||
    (0x2000 ≤ c.toNat && c.toNat ≤ 0x200a)

def strip (text : String) : String :=
  String.ofList ((text.toList.dropWhile isSpace).reverse.dropWhile isSpace).reverse

def modelCallId (payload : Payload) : String :=
  match payload.getAlias "model_call_id" "modelCallId" with
  | .str raw => strip raw
  | _ => ""

def positiveIteration (payload : Payload) : Option Int := (payload.get "iteration").int?.filter (0 < ·)

-- Two optional identities are compatible unless both are known and differ.
def compatible {α : Type} [DecidableEq α] (left right : Option α) : Bool :=
  left = none || right = none || left = right

def modelCall (payload : Payload) : Option String × Option Int :=
  (payload.identityValue ["model_call_id", "modelCallId"], payload.positiveIteration)

def sameTextModelCall (left right : Payload) : Bool :=
  compatible left.modelCall.1 right.modelCall.1 && compatible left.modelCall.2 right.modelCall.2

def deltaField (payload : Payload) : String :=
  (["json_fragment", "jsonFragment", "fragment"].find? (· ∈ payload.keys)).getD "json_fragment"

def textAt (payload : Payload) (field : String) : String :=
  ((payload.get? field).getD (.str "")).text

end Payload

def identityFields : List (List String) :=
  [["task_id", "taskId"], ["turn_id", "turnId"], ["assistant_message_id", "assistantMessageId"]]

def sameTurnIdentity (event reset : BufferedSessionEvent) : Bool :=
  identityFields.all (fun fields =>
    Payload.compatible (event.payload.identityValue fields) (reset.payload.identityValue fields))

def sameGenerationIdentity (event reset : BufferedSessionEvent) : Bool :=
  let pairs := identityFields.map (fun fields =>
    (event.payload.identityValue fields, reset.payload.identityValue fields))
  pairs.all (fun pair => Payload.compatible pair.1 pair.2) &&
    (pairs.any (fun pair => pair.1.isSome && pair.2.isSome) ||
      !pairs.any (fun pair => pair.1.isSome || pair.2.isSome))

def eventIsStaleGeneration (event : BufferedSessionEvent) (currentGenerationEpoch : Option Int) : Bool :=
  isGenerationLossy event.eventName &&
    currentGenerationEpoch.any (fun current => event.payload.generationEpoch.any (· < current))

-- Manual maintenance, as told apart by its `source` without regard to case.
def isManualCompaction (eventName : String) (payload : Payload) : Bool :=
  eventName = compaction && (payload.get "source").textOrEmpty.toLower = "manual"

end OpenSquilla.Streams
