import OpenSquilla.Shared.Dict
import OpenSquilla.Shared.Runs
import OpenSquilla.Shared.TextCuts

set_option autoImplicit false

namespace OpenSquilla.UserInputs

open TextLines TextScan TextCuts

def maxCompletedRequests : Nat := 256

def maxStringChars : Nat := 2000

-- The messages that the broker raises, with the field that they name.
inductive RequestError
  | notFound
  | otherSession
  | answeredDifferently
  | alreadyPending
  | noIdentities
  | noSchema
  | noFields
  | invalidFields
  | unnamedField
  | unknownField
  | required (name : Text)
  | tooLong (name : Text)
  | notBoolean (name : Text)
  | notInteger (name : Text)
  | notOffered (name : Text)
  | unsupportedType (name type : Text)

section Fields

/-- A submitted value; of a number, a list or an object its `str` and its truth are read. -/
inductive Value
  | none
  | bool (value : Bool)
  | text (text : Text)
  | other (str : Text) (truthy : Bool)

def Value.str : Value → Text
  | .none => "None".toList
  | .bool value => if value then "True".toList else "False".toList
  | .text written => written
  | .other written _ => written

def Value.strOrEmpty : Value → Text
  | .none | .bool false | .other _ false => []
  | .bool true => "True".toList
  | .text written => written
  | .other written true => written

inductive Answer
  | bool (value : Bool)
  | int (value : Int)
  | text (text : Text)
  deriving DecidableEq

structure Field where
  name : Text
  fieldType : Text
  required : Bool
  choices : List Text
  allowOther : Bool

-- `none` stands for what is neither a mapping nor a list where one is expected.
structure Schema where
  fields : Option (List (Option Field))

structure Payload (X : Type) where
  clarifySchema : Option Schema
  rest : X

variable {X : Type} (lower : Text → Text)

def schemaFields (payload : Payload X) : Except RequestError (List Field) :=
  match payload.clarifySchema with
  | none => .error .noSchema
  | some schema =>
    match schema.fields with
    | none | some [] => .error .noFields
    | some fields => if fields.all Option.isSome then .ok (fields.filterMap id) else .error .invalidFields

def requiredText (value : Value) (name : Text) : Except RequestError Text :=
  let text := strip value.strOrEmpty
  if text = [] then .error (.required name)
  else if maxStringChars < text.length then .error (.tooLong name)
  else .ok text

def yesWords : List Text := ["true".toList, "yes".toList, "1".toList, "on".toList, "是".toList]

def noWords : List Text := ["false".toList, "no".toList, "0".toList, "off".toList, "否".toList]

def coerceBool (value : Value) (name : Text) : Except RequestError Bool :=
  match value with
  | .bool value => .ok value
  | value =>
    let text := lower (strip value.strOrEmpty)
    if text ∈ yesWords then .ok true
    else if text ∈ noWords then .ok false
    else .error (.notBoolean name)

def coerceField (field : Field) (value : Value) : Except RequestError Answer :=
  let name := strip field.name
  let fieldType := lower (strip field.fieldType)
  let fieldType := if fieldType = "choice".toList then "enum".toList else fieldType
  if fieldType = "bool".toList then (coerceBool lower value name).map .bool
  else if fieldType = "int".toList then
    match value with
    | .bool _ => .error (.notInteger name)
    | value => (readInt (strip value.str)).elim (.error (.notInteger name)) fun number => .ok (.int number)
  else
    match requiredText value name with
    | .error error => .error error
    | .ok text =>
      if fieldType = "enum".toList then
        if text ∈ field.choices ∨ field.allowOther = true then .ok (.text text) else .error (.notOffered name)
      else if fieldType ≠ "string".toList then .error (.unsupportedType name fieldType)
      else .ok (.text text)

-- The answers come in the order of the fields of the schema.
def normalizeFields (fields : Dict Text Value) : List (Text × Field) → Except RequestError (List (Text × Answer))
  | [] => .ok []
  | (name, field) :: rest =>
    if name = [] then .error .unnamedField
    else
      match fields.get? name with
      | none | some .none | some (.text []) =>
        if field.required then .error (.required name) else normalizeFields fields rest
      | some value =>
        match coerceField lower field value with
        | .error error => .error error
        | .ok answer => (normalizeFields fields rest).map ((name, answer) :: ·)

def validateUserInputFields (payload : Payload X) (fields : Dict Text Value) :
    Except RequestError (List (Text × Answer)) :=
  match schemaFields payload with
  | .error error => .error error
  | .ok schema =>
    let fieldsByName : Dict Text Field := Dict.ofList (schema.map fun field => (strip field.name, field))
    if fields.keys.any fun name => name ∉ fieldsByName.keys then .error .unknownField
    else normalizeFields lower fields fieldsByName.entries

end Fields

abbrev Answers : Type := List (Text × Answer)

inductive Future
  | pending
  | answered (answers : Answers)
  | cancelled
  deriving DecidableEq

structure PendingUserInput (X : Type) where
  sessionKey : Text
  taskId : Text
  toolUseId : Text
  payload : Payload X

structure CompletedUserInput (X : Type) where
  sessionKey : Text
  payload : Payload X
  answers : Answers

/-- A task in `wait_for_response`. The one that is interrupted is thrown `CancelledError` at its next step. -/
inductive Wait
  | idle
  | awaiting (requestId : Nat)
  | interrupted (requestId : Nat)
  | done

/-- What `resolve` raises: an error of the broker, or what the future raises when it was cancelled. -/
inductive Raised
  | request (error : RequestError)
  | cancelledError

inductive Event (X : Type)
  | opened (requestId : Nat) (sessionKey : Text) (payload : Payload X)
  | resolved (requestId : Nat) (sessionKey : Text) (fields : Dict Text Value) (outcome : Except Raised Bool)
  | received (call requestId : Nat) (answers : Answers)
  | cancelled (requestId : Nat)

structure Broker (X : Type) where
  pending : Dict Nat (PendingUserInput X)
  completed : Dict Nat (CompletedUserInput X)
  drawn : Nat
  future : Nat → Future
  wait : Nat → Wait
  log : List (Event X)

inductive Input (X : Type)
  | openRequest (sessionKey taskId toolUseId : Text) (payload : Payload X)
  | waitForResponse (call requestId : Nat)
  | wake (call : Nat)
  | cancelWait (call : Nat)
  | resolve (sessionKey : Text) (requestId : Nat) (fields : Dict Text Value)
  | cancelRequest (requestId : Nat)
  | cancelTask (taskId : Text)

namespace Broker

variable {X : Type}

def start : Broker X := ⟨.empty, .empty, 0, fun _ => .pending, fun _ => .idle, []⟩

section Requests

variable (canonicalize : Text → Text)

/-- The payload that is kept is the one that was given, with the identifiers of the request beside it. -/
def openRequest (broker : Broker X) (sessionKey taskId toolUseId : Text) (payload : Payload X) :
    Except RequestError (Broker X) :=
  if taskId = [] ∨ toolUseId = [] then .error .noIdentities
  else
    match schemaFields payload with
    | .error error => .error error
    | .ok _ =>
      if broker.pending.values.any fun item => item.taskId = taskId && item.toolUseId = toolUseId then
          .error .alreadyPending
      else
        .ok { broker with
          pending := broker.pending.set broker.drawn ⟨canonicalize sessionKey, taskId, toolUseId, payload⟩
          drawn := broker.drawn + 1
          log := broker.log ++ [.opened broker.drawn (canonicalize sessionKey) payload] }

/-- A key that is new goes to the end, so the requests that were completed first are forgotten first. -/
def complete (completed : Dict Nat (CompletedUserInput X)) (requestId : Nat) (entry : CompletedUserInput X) :
    Dict Nat (CompletedUserInput X) :=
  let completed := (completed.erase requestId).set requestId entry
  completed.dropOldest (completed.size - maxCompletedRequests)

variable (lower : Text → Text)

def resolve (broker : Broker X) (sessionKey : Text) (requestId : Nat) (fields : Dict Text Value) :
    Except Raised Bool × Broker X :=
  let sessionKey := canonicalize sessionKey
  match broker.completed.get? requestId with
  | some completed =>
    if completed.sessionKey ≠ sessionKey then (.error (.request .otherSession), broker)
    else
      match validateUserInputFields lower completed.payload fields with
      | .error error => (.error (.request error), broker)
      | .ok normalized =>
        if normalized ≠ completed.answers then (.error (.request .answeredDifferently), broker) else
            (.ok true, broker)
  | none =>
    match broker.pending.get? requestId with
    | none => (.error (.request .notFound), broker)
    | some pending =>
      if pending.sessionKey ≠ sessionKey then (.error (.request .otherSession), broker)
      else
        match validateUserInputFields lower pending.payload fields with
        | .error error => (.error (.request error), broker)
        | .ok answers =>
          match broker.future requestId with
          -- `Future.result` of a future that was cancelled
          | .cancelled => (.error .cancelledError, broker)
          | .answered existing =>
            if existing ≠ answers then (.error (.request .answeredDifferently), broker) else (.ok true, broker)
          | .pending =>
            (.ok false,
              { broker with
                future := Function.update broker.future requestId (.answered answers)
                completed := complete broker.completed requestId ⟨sessionKey, pending.payload, answers⟩ })

end Requests

def cancelFuture (broker : Broker X) (requestId : Nat) : Broker X :=
  if broker.future requestId = .pending then
    { broker with
      future := Function.update broker.future requestId .cancelled
      log := broker.log ++ [.cancelled requestId] }
  else broker

def cancelRequest (broker : Broker X) (requestId : Nat) : Broker X :=
  match broker.pending.get? requestId with
  | none => broker
  | some _ => { broker with pending := broker.pending.erase requestId }.cancelFuture requestId

def cancelTask (broker : Broker X) (taskId : Text) : Broker X :=
  let requestIds := (broker.pending.entries.filter fun entry => entry.2.taskId = taskId).map Prod.fst
  requestIds.foldl cancelRequest broker

def finishWait (broker : Broker X) (call requestId : Nat) (events : List (Event X)) : Broker X :=
  { broker with
    pending := broker.pending.erase requestId
    wait := Function.update broker.wait call .done
    log := broker.log ++ events }

def wake (broker : Broker X) (call : Nat) : Broker X :=
  match broker.wait call with
  | .awaiting requestId =>
    match broker.future requestId with
    | .pending => broker
    | .answered answers => broker.finishWait call requestId [.received call requestId answers]
    | .cancelled => broker.finishWait call requestId []
  | .interrupted requestId => broker.finishWait call requestId []
  | .idle | .done => broker

def waitForResponse (broker : Broker X) (call requestId : Nat) : Broker X :=
  match broker.wait call with
  | .idle =>
    match broker.pending.get? requestId with
    | none => { broker with wait := Function.update broker.wait call .done }
    | some _ => { broker with wait := Function.update broker.wait call (.awaiting requestId) }.wake call
  | _ => broker

/-- `Task.cancel` cancels the future that the task waits for; the task itself goes on one step later. -/
def cancelWait (broker : Broker X) (call : Nat) : Broker X :=
  match broker.wait call with
  | .awaiting requestId =>
    if broker.future requestId = .pending then broker.cancelFuture requestId
    else { broker with wait := Function.update broker.wait call (.interrupted requestId) }
  | .idle => { broker with wait := Function.update broker.wait call .done }
  | .interrupted _ | .done => broker

def step (canonicalize lower : Text → Text) (broker : Broker X) : Input X → Broker X
  | .openRequest sessionKey taskId toolUseId payload =>
    match broker.openRequest canonicalize sessionKey taskId toolUseId payload with
    | .error _ => broker
    | .ok next => next
  | .waitForResponse call requestId => broker.waitForResponse call requestId
  | .wake call => broker.wake call
  | .cancelWait call => broker.cancelWait call
  | .resolve sessionKey requestId fields =>
    let (outcome, next) := broker.resolve canonicalize lower sessionKey requestId fields
    { next with log := next.log ++ [.resolved requestId sessionKey fields outcome] }
  | .cancelRequest requestId => broker.cancelRequest requestId
  | .cancelTask taskId => broker.cancelTask taskId

end Broker

end OpenSquilla.UserInputs
