import OpenSquilla.Shared.Dict
import OpenSquilla.Shared.JsonValue
import OpenSquilla.Shared.Runs
import OpenSquilla.Shared.TextLines

set_option autoImplicit false

namespace OpenSquilla.Channels.Artifacts

open Runs
open TextLines (orText)

inductive ChannelSendStatus
  | sent
  | unsupported
  | degraded
  | failed
  | skipped
  deriving DecidableEq

def ChannelSendStatus.parse : String → Option ChannelSendStatus
  | "sent" => some .sent
  | "unsupported" => some .unsupported
  | "degraded" => some .degraded
  | "failed" => some .failed
  | "skipped" => some .skipped
  | _ => none

structure ChannelSendResult where
  status : ChannelSendStatus
  capability : String
  targetId : String
  providerMessageId : String
  providerFileId : String
  retryable : Bool
  reason : String
  deriving DecidableEq

def sentResult (capability targetId providerMessageId providerFileId : String) : ChannelSendResult :=
  ⟨.sent, capability, targetId, providerMessageId, providerFileId, false, ""⟩

def failedResult (capability targetId reason : String) : ChannelSendResult :=
  ⟨.failed, capability, targetId, "", "", false, reason⟩

-- The entries of a result that a provider gave as a mapping.
structure MappingResult where
  status : Option String
  capability : Option String
  targetId : Option String
  providerMessageId : Option String
  providerFileId : Option String
  retryable : Bool
  reason : Option String
  deriving DecidableEq

inductive RawResult
  | none
  | result (result : ChannelSendResult)
  | mapping (entries : MappingResult)
  | other
  deriving DecidableEq

def normalizeChannelSendResult (result : RawResult) (capability targetId : String) : ChannelSendResult :=
  match result with
  | .result result => result
  | .none | .other => sentResult capability targetId "" ""
  | .mapping entries =>
    { status := (ChannelSendStatus.parse (entries.status.getD "sent")).getD .failed
      capability := entries.capability.getD capability
      targetId := entries.targetId.getD targetId
      providerMessageId := entries.providerMessageId.getD ""
      providerFileId := entries.providerFileId.getD ""
      retryable := entries.retryable
      reason := entries.reason.getD "" }

inductive OutboxState
  | pending
  | unknown
  | sentUnconfirmed
  | settled (status : ChannelSendStatus)
  deriving DecidableEq

def OutboxState.text : OutboxState → String
  | pending => "pending"
  | unknown => "unknown"
  | sentUnconfirmed => "sent_unconfirmed"
  | settled .sent => "sent"
  | settled .unsupported => "unsupported"
  | settled .degraded => "degraded"
  | settled .failed => "failed"
  | settled .skipped => "skipped"

structure OutboxRow where
  channelName : String
  targetId : String
  messageJson : String
  state : OutboxState
  capability : String
  providerMessageId : String
  providerFileId : String
  retryable : Bool
  errorClass : String
  errorMessage : String

abbrev Outbox := Dict String OutboxRow

def OutboxRow.Retryable (row : OutboxRow) : Prop :=
  row.state = .settled .failed ∧ row.retryable = true

instance decidableRetryable (row : OutboxRow) : Decidable row.Retryable :=
  inferInstanceAs (Decidable (_ ∧ _))

def beginSendOnce (outbox : Outbox) (sendId channelName targetId messageJson capability : String) :
    Outbox × Bool :=
  match outbox.get? sendId with
  | some _ => (outbox, false)
  | none =>
    (outbox.set sendId ⟨channelName, targetId, messageJson, .pending, capability, "", "", false, "",
      ""⟩, true)

def claimFailedArtifactRetry (outbox : Outbox) (sendId channelName messageJson : String) : Outbox × Bool :=
  match outbox.get? sendId with
  | none => (outbox, false)
  | some row =>
    if row.channelName = channelName ∧ row.messageJson = messageJson ∧ row.Retryable then
      (outbox.set sendId { row with state := .pending, retryable := false }, true)
    else (outbox, false)

def completeSendReceipt (outbox : Outbox) (sendId : String) (normalized : ChannelSendResult)
    (state : OutboxState) (safeReason : Option String) : Outbox :=
  match outbox.get? sendId with
  | none => outbox
  | some row =>
    outbox.set sendId { row with
      state := state
      capability := normalized.capability
      providerMessageId := normalized.providerMessageId
      providerFileId := normalized.providerFileId
      retryable := normalized.retryable
      errorMessage := safeReason.getD normalized.reason }

def receiptState (result : RawResult) (normalized : ChannelSendResult) : OutboxState :=
  if result = .none then .sentUnconfirmed else .settled normalized.status

def completeSend (outbox : Outbox) (sendId : String) (result : RawResult)
    (capability targetId : String) (safeReason : Option String) : Outbox :=
  let normalized := normalizeChannelSendResult result capability targetId
  completeSendReceipt outbox sendId normalized (receiptState result normalized) safeReason

def failSend (outbox : Outbox) (sendId errorClass safeErrorMessage : String) : Outbox :=
  match outbox.get? sendId with
  | none => outbox
  | some row =>
    if row.state = .settled .sent ∨ row.state = .sentUnconfirmed then outbox
    else
      outbox.set sendId { row with
        state := .unknown
        errorClass := errorClass
        errorMessage := safeErrorMessage }

structure ArtifactRequest (ι : Type) where
  inbound : ι
  artifactId : String
  name : String
  mimeType : String
  size : Int
  deliveryId : Option String
  sessionId : String

structure OutgoingMessage where
  content : String
  replyTo : Option String
  metadata : List (String × JsonValue)

structure ArtifactLibrary (ι : Type) where
  channelId : ι → String
  basename : String → String
  binding : String → ArtifactRequest ι → String
  messageJson : OutgoingMessage → String
  -- a digest in hexadecimal
  binding_ne : ∀ channelName request, binding channelName request ≠ ""
  messageJson_replyTo : ∀ message other, messageJson message = messageJson other →
    message.replyTo = other.replyTo

variable {ι : Type} (lib : ArtifactLibrary ι)

def deliverArtifact : String := "deliver_artifact"

def artifactDelivery : String := "artifact_delivery"

def deliveryIdOf (channelName : String) (request : ArtifactRequest ι) : String :=
  let given := request.deliveryId.getD ""
  if given = "" then lib.binding channelName request else given

def operationMessage (channelName : String) (request : ArtifactRequest ι) : OutgoingMessage where
  content := ""
  replyTo :=
    let target := lib.channelId request.inbound
    if target = "" then none else some target
  metadata :=
    [("delivery_id", .str (deliveryIdOf lib channelName request)),
      ("outbox_operation", .str deliverArtifact),
      ("artifact_id", .str request.artifactId),
      ("artifact_name", .str (lib.basename request.name)),
      ("artifact_mime_type", .str request.mimeType),
      ("artifact_size", .int request.size),
      ("artifact_binding", .str (lib.binding channelName request))]

structure Delivery (ι : Type) where
  channelName : String
  attached : channelName ≠ ""
  request : ArtifactRequest ι

namespace Delivery

def sendId (delivery : Delivery ι) : String :=
  deliveryIdOf lib delivery.channelName delivery.request

def intent (delivery : Delivery ι) : OutgoingMessage :=
  operationMessage lib delivery.channelName delivery.request

def intentJson (delivery : Delivery ι) : String := lib.messageJson (delivery.intent lib)

def target (delivery : Delivery ι) : String := (delivery.intent lib).replyTo.getD ""

end Delivery

-- The row was recorded for the channel, the target and the intent of the call.
def OutboxRow.Matches (row : OutboxRow) (delivery : Delivery ι) : Prop :=
  row.channelName = delivery.channelName ∧ row.targetId = delivery.target lib ∧
    row.messageJson = delivery.intentJson lib

instance decidableMatches (row : OutboxRow) (delivery : Delivery ι) :
    Decidable (row.Matches lib delivery) := inferInstanceAs (Decidable (_ ∧ _))

def replayArtifactDelivery (record : Option OutboxRow) (delivery : Delivery ι) : ChannelSendResult :=
  let targetId := lib.channelId delivery.request.inbound
  match record with
  | none =>
    failedResult artifactDelivery targetId "artifact delivery record disappeared before retry"
  | some row =>
    if row.channelName ≠ delivery.channelName ∨ row.targetId ≠ targetId ∨
        row.messageJson ≠ delivery.intentJson lib then
      failedResult artifactDelivery targetId
        "artifact delivery identity does not match its original session and route"
    else if row.state = .settled .sent then
      sentResult (orText row.capability artifactDelivery) (orText row.targetId targetId)
        row.providerMessageId row.providerFileId
    else
      failedResult (orText row.capability artifactDelivery) (orText row.targetId targetId)
        ("artifact delivery " ++ delivery.sendId lib ++ " has durable outcome " ++
          row.state.text ++ "; manual reconciliation is required before retry")

inductive Outcome
  | returned (result : RawResult)
  -- an exception or a cancellation
  | raised (errorType errorClass : String)
  deriving DecidableEq

inductive Answer
  | raw (result : RawResult)
  | replayed (result : ChannelSendResult)
  deriving DecidableEq

/-- Where a call stands to the row: it may have inserted or claimed it without an outcome, and it
may have invoked the provider since. -/
inductive Standing
  | apart
  | holding
  | invoking
  deriving DecidableEq

inductive Phase
  | starting
  | refused
  | replaying
  | ready
  | invoked
  | outcome (outcome : Outcome)
  | finished (answer : Answer)
  | failed
  -- the process stopped; what it held and had begun is left as it was
  | stopped (standing : Standing)
  deriving DecidableEq

namespace Phase

def standing : Phase → Standing
  | .ready => .holding
  | .invoked | .outcome _ => .invoking
  | .stopped standing => standing
  | .starting | .refused | .replaying | .finished _ | .failed => .apart

def holds (phase : Phase) : Bool :=
  match phase.standing with
  | .apart => false
  | .holding | .invoking => true

end Phase

inductive LogEvent
  | invoked
  | recorded (state : OutboxState) (retryable : Bool)
  deriving DecidableEq

structure DeliveryWorld where
  outbox : Outbox
  phases : Nat → Phase
  log : List (Nat × LogEvent)

def DeliveryWorld.start : DeliveryWorld := ⟨.empty, fun _ => .starting, []⟩

def DeliveryWorld.goTo (world : DeliveryWorld) (call : Nat) (phase : Phase) : DeliveryWorld :=
  { world with phases := Function.update world.phases call phase }

def DeliveryWorld.enter (world : DeliveryWorld) (call : Nat) (event : LogEvent) : DeliveryWorld :=
  { world with log := world.log ++ [(call, event)] }

def DeliveryWorld.store (world : DeliveryWorld) (outbox : Outbox) : DeliveryWorld :=
  { world with outbox := outbox }

inductive Action
  | advance
  | outcome (outcome : Outcome)
  | stop

variable (deliveries : Nat → Delivery ι)

def advance (world : DeliveryWorld) (call : Nat) : DeliveryWorld :=
  let delivery := deliveries call
  let sendId := delivery.sendId lib
  match world.phases call with
  | .starting =>
    let (outbox, inserted) := beginSendOnce world.outbox sendId delivery.channelName
      (delivery.target lib) (delivery.intentJson lib) deliverArtifact
    (world.store outbox).goTo call (if inserted then .ready else .refused)
  | .refused =>
    let (outbox, claimed) := claimFailedArtifactRetry world.outbox sendId delivery.channelName
      (delivery.intentJson lib)
    (world.store outbox).goTo call (if claimed then .ready else .replaying)
  | .replaying =>
    world.goTo call
      (.finished (.replayed (replayArtifactDelivery lib (world.outbox.get? sendId) delivery)))
  | .ready => (world.enter call .invoked).goTo call .invoked
  | .outcome (.returned result) =>
    let targetId := delivery.target lib
    let normalized := normalizeChannelSendResult result deliverArtifact targetId
    let outbox := completeSend world.outbox sendId result deliverArtifact targetId (some "")
    ((world.store outbox).enter call
      (.recorded (receiptState result normalized) normalized.retryable)).goTo call
      (.finished (.raw result))
  | .outcome (.raised errorType errorClass) =>
    let outbox := failSend world.outbox sendId errorClass
      (errorType ++ ": contextual artifact delivery failed")
    (world.store outbox).goTo call .failed
  | .invoked | .finished _ | .failed | .stopped _ => world

def step (world : DeliveryWorld) (input : Nat × Action) : DeliveryWorld :=
  let (call, action) := input
  match action with
  | .advance => advance lib deliveries world call
  | .outcome outcome =>
    if world.phases call = .invoked then world.goTo call (.outcome outcome) else world
  | .stop =>
    match world.phases call with
    | .finished _ | .failed => world
    | phase => world.goTo call (.stopped phase.standing)

end OpenSquilla.Channels.Artifacts
