import Mathlib.Data.Char
import OpenSquilla.PendingInputs.Store
import OpenSquilla.Shared.Dict
import OpenSquilla.Shared.Runs

set_option autoImplicit false

namespace OpenSquilla.Activations

open PendingInputs (canonicalizeSessionKey)
open RaisingRuns TextLines Transactions

-- A value of a JSON document as far as it can equal a text or an integer.
inductive Value
  | null
  | bool (value : Bool)
  | int (value : Int)
  | float (value : Rat)
  | str (value : Text)
  | other
  deriving DecidableEq

namespace Value

def number? : Value → Option Rat
  | bool value => some (if value then 1 else 0)
  | int value => some value
  | float value => some value
  | _ => none

-- the equality of Python, which compares booleans, integers and floats as numbers
def equals (one two : Value) : Bool :=
  match one.number?, two.number? with
  | some x, some y => x = y
  | none, none => one = two && one ≠ .other
  | _, _ => false

end Value

structure ActivationAuthority where
  sessionId : Value
  sessionEpoch : Value
  authorizationRevision : Value
  permissionFingerprint : Value
  authorityKind : Value := .null
  tokenPublicId : Value := .null

structure ActivationInvalidation where
  kind : Value
  replacedSessionId : Value
  replacedSessionEpoch : Value
  replacementSessionId : Value
  replacementSessionEpoch : Value
  otherKeys : Bool := false

namespace ActivationInvalidation

def equals (one two : ActivationInvalidation) : Bool :=
  one.kind.equals two.kind && one.replacedSessionId.equals two.replacedSessionId &&
    one.replacedSessionEpoch.equals two.replacedSessionEpoch &&
    one.replacementSessionId.equals two.replacementSessionId &&
    one.replacementSessionEpoch.equals two.replacementSessionEpoch && one.otherKeys = two.otherKeys

end ActivationInvalidation

-- `none` for a mapping stands for a key that is absent or holds no mapping.
structure TaskDetails where
  sessionId : Value := .null
  sessionEpoch : Value := .null
  activationAuthority : Option ActivationAuthority := none
  activationInvalidation : Option ActivationInvalidation := none

/-- New values for some of the keys. A key that is removed reads as null from then on. -/
structure DetailsPatch where
  sessionId : Option Value := none
  sessionEpoch : Option Value := none
  activationAuthority : Option (Option ActivationAuthority) := none
  activationInvalidation : Option (Option ActivationInvalidation) := none

def TaskDetails.patched (details : TaskDetails) (patch : DetailsPatch) : TaskDetails where
  sessionId := patch.sessionId.getD details.sessionId
  sessionEpoch := patch.sessionEpoch.getD details.sessionEpoch
  activationAuthority := patch.activationAuthority.getD details.activationAuthority
  activationInvalidation := patch.activationInvalidation.getD details.activationInvalidation

inductive AgentTaskStatus
  | queued
  | running
  | succeeded
  | failed
  | cancelled
  | timeout
  | abandoned
  deriving DecidableEq

def AgentTaskStatus.isTerminal : AgentTaskStatus → Bool
  | queued | running => false
  | succeeded | failed | cancelled | timeout | abandoned => true

structure AgentTask where
  sessionKey : Text
  status : AgentTaskStatus := .queued
  finishedAt : Option Int := none
  terminalReason : Option Text := none
  details : TaskDetails := {}

structure SessionOwner where
  sessionId : Text
  epoch : Int
  deriving DecidableEq

structure SandboxToken where
  rolesJson : Text
  scopesJson : Text
  capabilitiesJson : Text
  authorizationRevision : Int := 1
  revokedAt : Option Int := none

inductive PermitState
  | active
  | released
  | expired
  deriving DecidableEq

structure PermitCoordinates where
  sessionKey : Text
  sessionId : Text
  sessionEpoch : Int
  authorizationRevision : Int
  permissionFingerprint : Text
  deriving DecidableEq

structure ActivationPermit where
  permitId : Text
  taskId : Text
  coordinates : PermitCoordinates
  state : PermitState
  createdAt : Int
  expiresAt : Option Int
  activatedAt : Option Int
  releasedAt : Option Int
  deriving DecidableEq

namespace ActivationPermit

def keys (permit : ActivationPermit) : Text × Text := (permit.permitId, permit.taskId)

def ExpiredAt (permit : ActivationPermit) (now : Int) : Prop := ∃ expiry ∈ permit.expiresAt, expiry ≤ now

instance (permit : ActivationPermit) (now : Int) : Decidable (permit.ExpiredAt now) :=
  inferInstanceAs (Decidable (∃ expiry ∈ permit.expiresAt, expiry ≤ now))

def closed (state : PermitState) (stamp : Option Int → Option Int) (permit : ActivationPermit) :
    ActivationPermit :=
  { permit with state := state, releasedAt := stamp permit.releasedAt }

end ActivationPermit

-- The primary key and the unique column of `activation_permits`.
def PermitClash (one two : Text × Text) : Prop := one.1 = two.1 ∨ one.2 = two.2

instance : DecidableRel PermitClash := fun one two => inferInstanceAs (Decidable (one.1 = two.1 ∨ one.2 = two.2))

abbrev Permits := Table ActivationPermit.keys PermitClash

namespace Permits

-- An `UPDATE` of the active permits among the chosen ones.
def close (permits : Permits) (state : PermitState) (stamp : Option Int → Option Int)
    (chosen : ActivationPermit → Bool) : Permits :=
  permits.update (fun permit => if chosen permit ∧ permit.state = .active then
    permit.closed state stamp else permit)
    fun permit => by
      split
      · rfl
      · rfl

end Permits

structure Store where
  tasks : Dict Text AgentTask := .empty
  sessions : Dict Text SessionOwner := .empty
  tokens : Dict Text SandboxToken := .empty
  permits : Permits := .empty

inductive Raised
  | valueError (message : String)
  | activationPermitConflictError (message : String) (sessionResetInvalidated : Bool)
  | agentTaskTerminalConflictError
  | keyError (taskId : Text)
  | staleEpochError
  | integrityError
  deriving DecidableEq

structure Libraries where
  /-- The strings of a JSON list, `none` when it does not parse. -/
  readStrings : Text → Option (List Text)
  /-- The SHA-256 of the rendered permission sets. -/
  digest : List Text → List Text → List Text → Text

def SandboxToken.fingerprint (libraries : Libraries) (token : SandboxToken) : Option Text := do
  let read := fun raw : Text => libraries.readStrings (if raw = [] then "[]".toList else raw)
  let roles ← read token.rolesJson
  let scopes ← read token.scopesJson
  let capabilities ← read token.capabilitiesJson
  let sorted := fun values : List Text => values.insertionSort (· ≤ ·)
  return libraries.digest (sorted roles) (sorted scopes) (sorted capabilities)

structure ActivationClaim where
  taskId : Text
  sessionKey : Text
  sessionId : Text
  sessionEpoch : Int
  authorizationRevision : Int
  permissionFingerprint : Text
  expiresAt : Option Int := none

namespace ActivationClaim

def coordinates (claim : ActivationClaim) : PermitCoordinates where
  sessionKey := canonicalizeSessionKey claim.sessionKey
  sessionId := claim.sessionId
  sessionEpoch := claim.sessionEpoch
  authorizationRevision := claim.authorizationRevision
  permissionFingerprint := claim.permissionFingerprint

def raiseOnArguments (claim : ActivationClaim) : Except Raised Unit := do
  raiseIf (claim.taskId = [] ∨ claim.sessionId = [])
    (.valueError "activation permit requires task and session identity")
  raiseIf (claim.sessionEpoch < 0) (.valueError "activation permit session_epoch must be non-negative")
  raiseIf (claim.authorizationRevision < 0)
    (.valueError "activation permit authorization_revision must be non-negative")
  raiseIf (claim.permissionFingerprint = [])
    (.valueError "activation permit permission_fingerprint must be non-empty")
  raiseIf (∃ expiry ∈ claim.expiresAt, expiry ≤ 0)
    (.valueError "activation permit expires_at must be a positive timestamp")

end ActivationClaim

def conflict (message : String) : Raised := .activationPermitConflictError message false

namespace ActivationAuthority

def matches? (authority : ActivationAuthority) (claimed : PermitCoordinates) : Bool :=
  authority.sessionId.equals (.str claimed.sessionId) &&
    authority.sessionEpoch.equals (.int claimed.sessionEpoch) &&
    authority.authorizationRevision.equals (.int claimed.authorizationRevision) &&
    authority.permissionFingerprint.equals (.str claimed.permissionFingerprint)

def isNamedToken (authority : ActivationAuthority) : Bool :=
  authority.authorityKind.equals (.str "named_token".toList)

def publicId? (authority : ActivationAuthority) : Option Text :=
  match authority.tokenPublicId with
  | .str publicId => if publicId = [] then none else some publicId
  | _ => none

end ActivationAuthority

-- A reset took the session from the claimed generation to a later one.
def ActivationInvalidation.replaces (invalidation : ActivationInvalidation) (claimed : PermitCoordinates) :
    Bool :=
  invalidation.kind.equals (.str "session_reset".toList) &&
    invalidation.replacedSessionId.equals (.str claimed.sessionId) &&
    (match invalidation.replacedSessionEpoch with
      | .bool _ => false
      | epoch => epoch.equals (.int claimed.sessionEpoch)) &&
    (match invalidation.replacementSessionId with
      | .str sessionId => sessionId ≠ [] && sessionId ≠ claimed.sessionId
      | _ => false) &&
    (match invalidation.replacementSessionEpoch with
      | .int epoch => decide (claimed.sessionEpoch < epoch)
      | _ => false)

namespace Store

def queuedTask? (store : Store) (taskId sessionKey : Text) : Option AgentTask :=
  (store.tasks.get? taskId).filter fun task => task.sessionKey = sessionKey && task.status = .queued

def activeToken? (store : Store) (publicId : Text) : Option SandboxToken :=
  (store.tokens.get? publicId).filter fun token => token.revokedAt = none

def matchesSessionOwner (store : Store) (claimed : PermitCoordinates) : Bool :=
  store.sessions.get? claimed.sessionKey = some ⟨claimed.sessionId, claimed.sessionEpoch⟩

def activationPermit? (store : Store) (taskId : Text) : Option ActivationPermit :=
  store.permits.rows.find? fun permit => permit.taskId = taskId

-- The authority of a named token is read again next to the permit.
def raiseOnToken (libraries : Libraries) (store : Store) (authority : ActivationAuthority)
    (claimed : PermitCoordinates) : Except Raised Unit := if authority.isNamedToken = false then .ok () else do
  let publicId ← orRaise authority.publicId? (conflict "named-token activation authority is incomplete")
  let token ← orRaise (store.activeToken? publicId) (conflict "named-token authorization is no longer active")
  let fingerprint ← orRaise (token.fingerprint libraries) (conflict "named-token authorization is malformed")
  raiseIf (token.authorizationRevision ≠ claimed.authorizationRevision ∨
    fingerprint ≠ claimed.permissionFingerprint)
    (conflict "named-token authorization changed before activation")

def raiseOnAuthority (libraries : Libraries) (store : Store) (claim : ActivationClaim) : Except Raised Unit := do
  let task ← orRaise (store.queuedTask? claim.taskId claim.coordinates.sessionKey)
    (conflict "activation requires the exact queued task")
  let authority ← orRaise task.details.activationAuthority
      (conflict "activation authority snapshot is unavailable")
  raiseIf (authority.matches? claim.coordinates = false) (conflict "activation authority snapshot changed")
  store.raiseOnToken libraries authority claim.coordinates
  raiseIf (∃ invalidation ∈ task.details.activationInvalidation, invalidation.replaces claim.coordinates)
    (.activationPermitConflictError "activation was invalidated by a session reset" true)
  raiseIf (store.matchesSessionOwner claim.coordinates = false)
    (conflict "activation session owner generation changed")

def newPermit (now : Int) (permitId : Text) (claim : ActivationClaim) : ActivationPermit where
  permitId := permitId
  taskId := claim.taskId
  coordinates := claim.coordinates
  state := .active
  createdAt := now
  expiresAt := claim.expiresAt
  activatedAt := some now
  releasedAt := none

/-- Returns no permit when the one of the task has expired: that change is committed before the conflict is
reported. -/
def claimBody (libraries : Libraries) (now : Int) (permitId : Text) (claim : ActivationClaim) (store : Store) :
    Except Raised (Store × Option ActivationPermit) := do
  claim.raiseOnArguments
  store.raiseOnAuthority libraries claim
  match store.activationPermit? claim.taskId with
  | some permit =>
    if permit.state = .active ∧ permit.ExpiredAt now then
      return ({ store with
        permits :=
          store.permits.close .expired (fun _ => some now) fun row => row.permitId = permit.permitId }, none)
    else if permit.state = .active ∧ permit.coordinates = claim.coordinates then
      return (store, some permit)
    else
      throw (conflict "activation permit already exists with a different authority snapshot")
  | none =>
    let permits ← orRaise (store.permits.insert? (newPermit now permitId claim)) .integrityError
    return ({ store with permits }, some (newPermit now permitId claim))

def claimActivationPermit (libraries : Libraries) (now : Int) (permitId : Text) (claim : ActivationClaim)
    (store : Store) : Store × Except Raised ActivationPermit :=
  match transact store (store.claimBody libraries now permitId claim) with
  | (after, .ok (some permit)) => (after, .ok permit)
  | (after, .ok none) => (after, .error (conflict "activation permit has expired"))
  | (after, .error raised) => (after, .error raised)

end Store

end OpenSquilla.Activations
