import Mathlib.Data.List.Sort
import OpenSquilla.Shared.OneShot
import OpenSquilla.Shared.RaisingRuns
import OpenSquilla.Shared.Table
import OpenSquilla.Shared.TextScan

set_option autoImplicit false

namespace OpenSquilla.PendingInputs

open TextLines TextScan

-- the Kelvin sign and the dotted capital I are the only other characters that lower to ASCII
def lowerChar (c : Char) : Text :=
  if c.toNat = 8490 then ['k'] else if c.toNat = 304 then ['i', Char.ofNat 775] else [c.toLower]

def isSegmentChar (c : Char) : Bool :=
  ('a' ≤ c && c ≤ 'z') || ('0' ≤ c && c ≤ '9') || c = '_' || c = '-'

def normalizeIdSegment (value : Text) : Text :=
  let replaced := ((strip value).flatMap lowerChar).map (fun c => if isSegmentChar c then c else '-')
  let normalized := (replaced.dropWhile (· = '-')).rdropWhile (· = '-')
  if normalized = [] then "default".toList else normalized.take 64

def normalizeAgentId (agentId : Text) : Text :=
  let raw := strip agentId
  if raw = [] ∨ raw.flatMap lowerChar = "default".toList then "main".toList
  else if normalizeIdSegment raw = "default".toList then "main".toList
  else normalizeIdSegment raw

def canonicalizeAgentKey (key : Text) : Text :=
  List.intercalate [':'] ((key.splitOn ':').modify 1 normalizeAgentId)

def canonicalizeSessionKey (sessionKey : Text) : Text :=
  let key := strip sessionKey
  if key = [] then []
  else if key = "webchat:default".toList then
    "agent:".toList ++ normalizeAgentId "main".toList ++ ":webchat:default".toList
  else if "subagent:agent:".toList.isPrefixOf key then
    -- the recursive call goes no deeper: what is left starts with `agent:`
    "subagent:".toList ++ canonicalizeAgentKey (strip (key.drop "subagent:".length))
  else if "agent:".toList.isPrefixOf key then canonicalizeAgentKey key
  else key

inductive Raised
  | valueError (message : String)
  | pendingChatInputConflictError (message : String)
  | pendingChatInputCapacityError (message : String)
  | pendingChatInputNotFoundError (pendingInputId : Text)
  | pendingChatInputCancelledError (message : String)
  | pendingChatInputAlreadyDispatchedError (message : String)
  | turnIngressConflictError (message : String)
  | integrityError
  | assertionError (message : String)
  | staleEpochError
  | other (message : String)

structure PendingIdentity where
  pendingInputId : Text
  sessionKey : Text
  sourceScope : Text
  clientRequestId : Text
  clientMessageId : Text
  deriving DecidableEq

namespace PendingIdentity

def normalized (identity : PendingIdentity) : PendingIdentity where
  pendingInputId := strip identity.pendingInputId
  sessionKey := canonicalizeSessionKey identity.sessionKey
  sourceScope := strip identity.sourceScope
  clientRequestId := strip identity.clientRequestId
  clientMessageId := strip identity.clientMessageId

def values (identity : PendingIdentity) : List Text :=
  [identity.pendingInputId, identity.sessionKey, identity.sourceScope, identity.clientRequestId,
    identity.clientMessageId]

-- The primary key and the unique indexes of `pending_chat_inputs`.
def ClashesWaiting (one other : PendingIdentity) : Prop :=
  one.pendingInputId = other.pendingInputId ∨
    (one.sessionKey = other.sessionKey ∧ one.clientRequestId = other.clientRequestId) ∨
      (one.sessionKey = other.sessionKey ∧ one.clientMessageId = other.clientMessageId)

/-- The primary key and the unique indexes of `pending_chat_input_dispatch_receipts`. -/
def ClashesDispatched (one other : PendingIdentity) : Prop :=
  one.pendingInputId = other.pendingInputId ∨
    (one.sessionKey = other.sessionKey ∧ one.sourceScope = other.sourceScope ∧
        one.clientRequestId = other.clientRequestId) ∨
      (one.sessionKey = other.sessionKey ∧ one.clientMessageId = other.clientMessageId)

instance : DecidableRel ClashesWaiting := fun _ _ => inferInstanceAs (Decidable (_ ∨ _))

instance : DecidableRel ClashesDispatched := fun _ _ => inferInstanceAs (Decidable (_ ∨ _))

theorem ClashesDispatched.waiting {one other : PendingIdentity}
    (clashes : ClashesDispatched one other) : ClashesWaiting one other := by
  obtain same | ⟨session, -, request⟩ | same := clashes
  · exact .inl same
  · exact .inr (.inl ⟨session, request⟩)
  · exact .inr (.inr same)

instance : Std.Symm ClashesWaiting where
  symm one other clashes := by
    simpa only [ClashesWaiting, eq_comm] using clashes

instance : Std.Symm ClashesDispatched where
  symm one other clashes := by
    simpa only [ClashesDispatched, eq_comm] using clashes

end PendingIdentity

structure PendingChatInput (Payload : Type) extends PendingIdentity where
  requestFingerprint : Text
  payload : Payload
  position : Int
  stateRevision : Int
  createdAt : Int
  updatedAt : Int
  deriving DecidableEq

-- A row of `pending_chat_inputs`: its payload is the text of `payload_json`.
abbrev PendingRow := PendingChatInput Text

structure DispatchReceipt extends PendingIdentity where
  requestFingerprint : Text
  acceptedAt : Int

structure Cancellation where
  pendingInputId : Text
  sessionKey : Text
  cancelledAt : Int

structure RequestKey where
  sourceScope : Text
  requestSessionKey : Text
  clientRequestId : Text
  deriving DecidableEq

structure TurnIngressReceipt extends RequestKey where
  receiptId : Text
  requestFingerprint : Text
  acceptedSessionKey : Text
  sessionId : Text
  messageId : Text
  taskId : Option Text
  acceptedAt : Int
  deriving DecidableEq

-- The primary key and the unique index of `turn_ingress_receipts`.
def TurnIngressReceipt.Clashes (one other : TurnIngressReceipt) : Prop :=
  one.receiptId = other.receiptId ∨ one.toRequestKey = other.toRequestKey

instance : DecidableRel TurnIngressReceipt.Clashes :=
  fun _ _ => inferInstanceAs (Decidable (_ ∨ _))

instance : Std.Symm TurnIngressReceipt.Clashes where
  symm one other clashes := by
    simpa only [TurnIngressReceipt.Clashes, eq_comm] using clashes

structure TranscriptEntry where
  sessionKey : Text
  sessionId : Text
  messageId : Text
  -- the text `client_message_id` of `turn_context`
  clientMessageId : Option Text := none

-- A row of `transcript_entries`: `AUTOINCREMENT` never gives an `id` again.
structure TranscriptRow extends TranscriptEntry where
  id : Nat

structure Store where
  pendingChatInputs : Table (@PendingChatInput.toPendingIdentity Text) PendingIdentity.ClashesWaiting
  dispatchReceipts : Table DispatchReceipt.toPendingIdentity PendingIdentity.ClashesDispatched
  cancellations : Table Cancellation.pendingInputId Eq
  turnIngressReceipts : Table (fun receipt : TurnIngressReceipt => receipt) TurnIngressReceipt.Clashes
  transcriptEntries : List TranscriptRow
  transcriptSequence : Nat

end OpenSquilla.PendingInputs
