import Mathlib.Algebra.GroupWithZero.Nat
import Mathlib.Data.Finset.Card
import OpenSquilla.Shared.Dict
import OpenSquilla.Shared.TextScan

set_option autoImplicit false

namespace OpenSquilla.ToolStreams

open TextLines TextScan

inductive Operation
  | start
  | appendOrStart
  | append
  | setMetadata
  | finishWithArguments

inductive Reason
  | closedMutation
  | conflictingToolUseId
  | conflictingToolName
  | duplicateToolUseId
  | toolUseIdTooLarge
  | toolNameTooLarge
  | invalidToolArguments
  | unknownToolCall
  | incompleteToolIdentity
  | tooManyToolCalls
  | toolArgumentsTooLarge
  | totalToolArgumentsTooLarge
  | tooManyToolEvents

structure ToolStreamProtocolError (Key : Type) where
  operation : Operation
  key : Key
  toolUseId : Text
  reason : Reason
  limit : Option Nat := none
  observed : Option Nat := none

inductive StreamEvent (Arguments : Type)
  | toolUseStart (toolUseId toolName : Text)
  | toolUseDelta (toolUseId jsonFragment : Text)
  | toolUseEnd (toolUseId toolName : Text) (arguments : Arguments)

structure ToolStreamLimits where
  maxCalls : Nat := 256
  maxToolUseIdChars : Nat := 1024
  maxToolNameChars : Nat := 256
  maxArgumentChars : Nat := 256000
  maxTotalArgumentChars : Nat := 1024000
  maxEvents : Nat := 65536

structure PendingToolCall (Value : Type) where
  toolUseId : Text
  toolName : Text
  wireId : Option Text
  jsonParts : List Text
  metadata : Dict Text Value
  startEmitted : Bool
  argumentChars : Nat

def PendingToolCall.opened {Value : Type} (toolUseId toolName : Text) (wireId : Option Text) :
    PendingToolCall Value where
  toolUseId := toolUseId
  toolName := toolName
  wireId := wireId
  jsonParts := []
  metadata := Dict.empty
  startEmitted := false
  argumentChars := 0

def PendingToolCall.appended {Value : Type} (call : PendingToolCall Value) (fragment : Text) :
    PendingToolCall Value :=
  { call with
    jsonParts := call.jsonParts ++ [fragment]
    argumentChars := call.argumentChars + fragment.length }

structure ToolStreamAccumulator (Key Value : Type) where
  calls : Dict Key (PendingToolCall Value)
  closed : Finset Key
  -- public ids and late wire ids share one namespace
  identityKeys : Dict Text Key
  totalArgumentChars : Nat
  eventCount : Nat
  pendingUnemittedEvents : Int
  pendingUnemittedChars : Int
  limits : ToolStreamLimits

def hasIdentityValue (value : Text) : Bool := strip value ≠ []

def partsChars (parts : List Text) : Nat := (parts.map List.length).sum

namespace ToolStreamAccumulator

variable {Key Value Arguments : Type} [DecidableEq Key]

abbrev Raised (Key α : Type) := Except (ToolStreamProtocolError Key) α

def fresh (limits : ToolStreamLimits) : ToolStreamAccumulator Key Value where
  calls := Dict.empty
  closed := ∅
  identityKeys := Dict.empty
  totalArgumentChars := 0
  eventCount := 0
  pendingUnemittedEvents := 0
  pendingUnemittedChars := 0
  limits := limits

variable (acc : ToolStreamAccumulator Key Value)

def put (key : Key) (call : PendingToolCall Value) : ToolStreamAccumulator Key Value :=
  { acc with calls := acc.calls.set key call }

def rejectClosedMutation (operation : Operation) (key : Key) : Raised Key Unit :=
  if key ∈ acc.closed then
    .error
      { operation, key, reason := .closedMutation
        toolUseId := ((acc.calls.get? key).map PendingToolCall.toolUseId).getD [] }
  else .ok ()

def reserveEvent (operation : Operation) (key : Key) (toolUseId : Text) :
    Raised Key (ToolStreamAccumulator Key Value) :=
  if acc.limits.maxEvents < acc.eventCount + 1 then
    .error
      { operation, key, toolUseId, reason := .tooManyToolEvents
        limit := acc.limits.maxEvents, observed := some (acc.eventCount + 1) }
  else .ok { acc with eventCount := acc.eventCount + 1 }

def reserveIdentity (operation : Operation) (key : Key) (toolUseId : Text) :
    Raised Key (ToolStreamAccumulator Key Value) :=
  if acc.limits.maxToolUseIdChars < toolUseId.length then
    .error
      { operation, key, toolUseId := [], reason := .toolUseIdTooLarge
        limit := acc.limits.maxToolUseIdChars, observed := toolUseId.length }
  else if !hasIdentityValue toolUseId then .ok acc
  else
    match acc.identityKeys.get? toolUseId with
    | some existingKey =>
      if existingKey ≠ key then .error { operation, key, toolUseId, reason := .duplicateToolUseId }
      else .ok { acc with identityKeys := acc.identityKeys.set toolUseId key }
    | none => .ok { acc with identityKeys := acc.identityKeys.set toolUseId key }

def validateToolName (operation : Operation) (key : Key) (toolUseId toolName : Text) : Raised Key Unit :=
  if acc.limits.maxToolNameChars < toolName.length then
    .error
      { operation, key, toolUseId, reason := .toolNameTooLarge
        limit := acc.limits.maxToolNameChars, observed := toolName.length }
  else .ok ()

-- Counts a fragment against the limits and keeps it with its call.
def appendFragment (operation : Operation) (key : Key) (call : PendingToolCall Value) (fragment : Text) :
    Raised Key (ToolStreamAccumulator Key Value × PendingToolCall Value) :=
  let perCallObserved := call.argumentChars + fragment.length
  let totalObserved := acc.totalArgumentChars + fragment.length
  if acc.limits.maxArgumentChars < perCallObserved then
    .error
      { operation, key, toolUseId := call.toolUseId, reason := .toolArgumentsTooLarge
        limit := acc.limits.maxArgumentChars, observed := perCallObserved }
  else if acc.limits.maxTotalArgumentChars < totalObserved then
    .error
      { operation, key, toolUseId := call.toolUseId, reason := .totalToolArgumentsTooLarge
        limit := acc.limits.maxTotalArgumentChars, observed := totalObserved }
  else do
    let acc ← acc.reserveEvent operation key call.toolUseId
    return ({ acc with totalArgumentChars := totalObserved }.put key (call.appended fragment),
      call.appended fragment)

def mergeToolName (operation : Operation) (key : Key) (call : PendingToolCall Value) (toolName : Text) :
    Raised Key (ToolStreamAccumulator Key Value × PendingToolCall Value) :=
  if !hasIdentityValue toolName then .ok (acc, call)
  else if hasIdentityValue call.toolName then
    if call.toolName ≠ toolName then
      .error { operation, key, toolUseId := call.toolUseId, reason := .conflictingToolName }
    else .ok (acc, call)
  else
    let pending : Int := if call.startEmitted then 0 else toolName.length - call.toolName.length
    let renamed := { call with toolName := toolName }
    .ok ({ acc with pendingUnemittedChars := acc.pendingUnemittedChars + pending }.put key renamed, renamed)

-- The Start of a call and its fragments, which are held back with their characters until it can start.
def heldEvents (call : PendingToolCall Value) : Nat := 1 + call.jsonParts.length

def heldChars (call : PendingToolCall Value) : Nat :=
  call.toolUseId.length + call.toolName.length + partsChars call.jsonParts

def registerPendingCall (call : PendingToolCall Value) : ToolStreamAccumulator Key Value :=
  { acc with
    pendingUnemittedEvents := acc.pendingUnemittedEvents + heldEvents call
    pendingUnemittedChars := acc.pendingUnemittedChars + heldChars call }

def emitStartIfReady (key : Key) (call : PendingToolCall Value) :
    ToolStreamAccumulator Key Value × PendingToolCall Value × List (StreamEvent Arguments) :=
  if call.startEmitted || !hasIdentityValue call.toolUseId || !hasIdentityValue call.toolName then
    (acc, call, [])
  else
    let started := { call with startEmitted := true }
    ({ acc with
       pendingUnemittedEvents := acc.pendingUnemittedEvents - heldEvents call
       pendingUnemittedChars := acc.pendingUnemittedChars - heldChars call }.put key started,
      started,
      .toolUseStart call.toolUseId call.toolName :: call.jsonParts.map (.toolUseDelta call.toolUseId))

/-- A call that is not known yet. Its errors name the id as the chunk has it until an id is chosen. -/
def openCall (operation : Operation) (key : Key) (shownId toolUseId toolName : Text)
    (wireId : Option Text) : Raised Key (ToolStreamAccumulator Key Value × PendingToolCall Value) :=
  if acc.limits.maxCalls < acc.calls.size + 1 then
    .error
      { operation, key, toolUseId := shownId, reason := .tooManyToolCalls
        limit := acc.limits.maxCalls, observed := some (acc.calls.size + 1) }
  else do
    let acc ← acc.reserveIdentity operation key toolUseId
    let acc ← acc.reserveEvent operation key toolUseId
    let call := .opened toolUseId toolName wireId
    return ((acc.put key call).registerPendingCall call, call)

def fillToolUseId (key : Key) (call : PendingToolCall Value) (toolUseId : Text) :
    Raised Key (ToolStreamAccumulator Key Value × PendingToolCall Value) :=
  if !hasIdentityValue toolUseId then .ok (acc, call)
  else if hasIdentityValue call.toolUseId then
    if call.toolUseId ≠ toolUseId then
      .error { operation := .start, key, toolUseId := call.toolUseId, reason := .conflictingToolUseId }
    else .ok (acc, call)
  else do
    let acc ← acc.reserveIdentity .start key toolUseId
    let pending : Int := if call.startEmitted then 0 else toolUseId.length - call.toolUseId.length
    let named := { call with toolUseId := toolUseId, wireId := some toolUseId }
    return ({ acc with pendingUnemittedChars := acc.pendingUnemittedChars + pending }.put key named, named)

def identify (key : Key) (toolUseId toolName : Text) :
    Raised Key (ToolStreamAccumulator Key Value × PendingToolCall Value) :=
  match acc.calls.get? key with
  | none =>
    acc.openCall .start key toolUseId toolUseId toolName
      (if toolUseId = [] then none else some toolUseId)
  | some call => do
    let (acc, call) ← acc.fillToolUseId key call toolUseId
    acc.mergeToolName .start key call toolName

def start (key : Key) (toolUseId toolName : Text) :
    Raised Key (ToolStreamAccumulator Key Value × List (StreamEvent Arguments)) := do
  acc.rejectClosedMutation .start key
  acc.validateToolName .start key toolUseId toolName
  let (acc, call) ← acc.identify key toolUseId toolName
  let (acc, _, events) := acc.emitStartIfReady key call
  return (acc, events)

def adoptWireId (key : Key) (call : PendingToolCall Value) (toolCallId : Text) :
    Raised Key (ToolStreamAccumulator Key Value × PendingToolCall Value) :=
  if toolCallId = [] then .ok (acc, call)
  else if call.wireId.getD [] ≠ [] ∧ call.wireId.getD [] ≠ toolCallId then
    .error
      { operation := .appendOrStart, key, toolUseId := call.toolUseId, reason := .conflictingToolUseId }
  else do
    let acc ← acc.reserveIdentity .appendOrStart key toolCallId
    let wired := { call with wireId := some toolCallId }
    return (acc.put key wired, wired)

/-- An appended fragment is emitted at once, unless its call still waits for its identity. -/
def feedFragment (operation : Operation) (key : Key) (call : PendingToolCall Value) (fragment : Text) :
    Raised Key (ToolStreamAccumulator Key Value × List (StreamEvent Arguments)) := do
  let (acc, call) ← acc.appendFragment operation key call fragment
  if call.startEmitted then return (acc, [.toolUseDelta call.toolUseId fragment])
  else
    let held := { acc with
      pendingUnemittedEvents := acc.pendingUnemittedEvents + 1
      pendingUnemittedChars := acc.pendingUnemittedChars + fragment.length }
    return (held, [])

-- The id of a chunk that has none is made of a fresh random text.
def synthesizedId (random : Text) : Text := "call_".toList ++ random

def identifyChunk (key : Key) (toolCallId : Option Text) (toolName random : Text) :
    Raised Key (ToolStreamAccumulator Key Value × PendingToolCall Value) :=
  let shownId := toolCallId.getD []
  match acc.calls.get? key with
  | none =>
    acc.openCall .appendOrStart key shownId
      (if shownId = [] then synthesizedId random else shownId) toolName toolCallId
  | some call => do
    let (acc, call) ← acc.adoptWireId key call shownId
    acc.mergeToolName .appendOrStart key call toolName

def appendOrStart (key : Key) (toolCallId : Option Text) (toolName fragment random : Text) :
    Raised Key (ToolStreamAccumulator Key Value × List (StreamEvent Arguments)) := do
  acc.rejectClosedMutation .appendOrStart key
  acc.validateToolName .appendOrStart key (toolCallId.getD []) toolName
  let (acc, call) ← acc.identifyChunk key toolCallId toolName random
  let (acc, call, events) := acc.emitStartIfReady key call
  if fragment = [] then return (acc, events)
  else
    let (acc, later) ← acc.feedFragment .appendOrStart key call fragment
    return (acc, events ++ later)

def knownCall (operation : Operation) (key : Key) : Raised Key (PendingToolCall Value) :=
  match acc.calls.get? key with
  | none => .error { operation, key, toolUseId := [], reason := .unknownToolCall }
  | some call => .ok call

def append (key : Key) (fragment : Text) :
    Raised Key (ToolStreamAccumulator Key Value × List (StreamEvent Arguments)) := do
  acc.rejectClosedMutation .append key
  let call ← acc.knownCall .append key
  acc.feedFragment .append key call fragment

def setMetadata (key : Key) (name : Text) (value : Value) : Raised Key (ToolStreamAccumulator Key Value) := do
  acc.rejectClosedMutation .setMetadata key
  let call ← acc.knownCall .setMetadata key
  return acc.put key { call with metadata := call.metadata.set name value }

-- the canonical text of the arguments, if they have one
variable (dumps : Arguments → Option Text)

def finishWithArguments (key : Key) (arguments : Arguments) :
    Raised Key (ToolStreamAccumulator Key Value × List (StreamEvent Arguments)) := do
  let call ← acc.knownCall .finishWithArguments key
  if key ∈ acc.closed then return (acc, [])
  else if !call.startEmitted then
    .error
      { operation := .finishWithArguments, key, toolUseId := call.toolUseId
        reason := .incompleteToolIdentity }
  else
    match dumps arguments with
    | none =>
      .error
        { operation := .finishWithArguments, key, toolUseId := call.toolUseId
          reason := .invalidToolArguments }
    | some canonicalArguments =>
      let effectiveChars := max call.argumentChars canonicalArguments.length
      let totalObserved := acc.totalArgumentChars + (effectiveChars - call.argumentChars)
      if acc.limits.maxArgumentChars < effectiveChars then
        .error
          { operation := .finishWithArguments, key, toolUseId := call.toolUseId
            reason := .toolArgumentsTooLarge
            limit := acc.limits.maxArgumentChars, observed := effectiveChars }
      else if acc.limits.maxTotalArgumentChars < totalObserved then
        .error
          { operation := .finishWithArguments, key, toolUseId := call.toolUseId
            reason := .totalToolArgumentsTooLarge
            limit := acc.limits.maxTotalArgumentChars, observed := totalObserved }
      else
        let acc ← acc.reserveEvent .finishWithArguments key call.toolUseId
        let acc := { acc with
          totalArgumentChars := totalObserved
          closed := insert key acc.closed }.put key { call with argumentChars := effectiveChars }
        return (acc, [.toolUseEnd call.toolUseId call.toolName arguments])

end ToolStreamAccumulator

end OpenSquilla.ToolStreams
