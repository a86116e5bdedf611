import OpenSquilla.Shared.Dict
import OpenSquilla.Shared.Runs
import OpenSquilla.Shared.TextScan

set_option autoImplicit false

-- No section under the coordinator's lock waits, so a task that waits for that lock runs the whole
-- section in the step that it takes next. What a task does between two such points is one step,
-- and any order of the steps is a run.

namespace OpenSquilla.Channels.Debounce

open TextLines TextScan

structure IncomingMessage (A V P : Type) where
  senderId : Text
  channelId : Text
  content : Text
  attachments : List A
  metadata : Dict Text V
  provenance : P

/-- What the metadata may hold: `None`, anything that `str` reads, and the two values that a batch adds. -/
structure MetadataLibrary (V : Type) where
  isNone : V → Bool
  str : V → Text
  texts : List Text → V
  yes : V

structure Combined (A V P : Type) where
  content : Text
  attachments : List A
  message : IncomingMessage A V P
  sourceMessages : List (IncomingMessage A V P)
  coalescedCount : Nat

def aliases : List Text :=
  ["native_message_id".toList, "message_id".toList, "msg_id".toList, "event_id".toList, "activity_id".toList,
    "update_id".toList, "ts".toList]

section Combining

variable {A V P : Type} (lib : MetadataLibrary V)

def nativeId (message : IncomingMessage A V P) : Option Text :=
  aliases.findSome? fun name =>
    match message.metadata.get? name with
    | none => none
    | some value =>
      if lib.isNone value = false ∧ strip (lib.str value) ≠ [] then
        some (name ++ ":".toList ++ strip (lib.str value))
      else none

-- The known part of the identities does not identify a batch.
def combinedMetadata (first : IncomingMessage A V P) (buffer : List (IncomingMessage A V P)) : Dict Text V :=
  let nativeIds := buffer.filterMap (nativeId lib)
  if nativeIds.length = buffer.length then
    first.metadata.set "_opensquilla_debounce_native_message_ids".toList (lib.texts nativeIds)
  else first.metadata.set "_opensquilla_debounce_native_ids_incomplete".toList lib.yes

def combine (first : IncomingMessage A V P) (buffer : List (IncomingMessage A V P)) : Combined A V P :=
  let content := "\n".toList.intercalate (buffer.map (·.content))
  let attachments := buffer.flatMap (·.attachments)
  { content
    attachments
    message :=
      ⟨first.senderId, first.channelId, content, attachments, combinedMetadata lib first buffer,
        first.provenance⟩
    sourceMessages := buffer
    coalescedCount := buffer.length }

end Combining

/-- Where a `_settle` stands: it waits for the lock of the batch, or it comes to a callback. -/
inductive Settle
  | waiting
  | invoking (next : Nat)
  deriving DecidableEq

inductive Timer
  | created
  | sleeping
  | locking
  | firing
  | closing
  | settling (progress : Settle)
  | done
  deriving DecidableEq

/-- `cancelling` says that the task is to be thrown `CancelledError` at its next step. -/
structure DebounceState (A V P F K : Type) where
  sessionKey : Text
  buffer : List (IncomingMessage A V P)
  onFire : F
  onSettled : List K
  timer : Timer
  cancelling : Bool
  settled : Bool
  settleLocked : Bool

inductive Canceller
  | locking (sessionKey : Text)
  | joining (batch : Nat)
  | settling (batch : Nat) (progress : Settle)
  | done
  deriving DecidableEq

inductive Event (A V P F K : Type)
  | scheduled (sessionKey : Text) (message : IncomingMessage A V P) (onSettled : Option K)
  | fired (onFire : F) (combined : Combined A V P)
  | returned (raised : Bool)
  | cancelled
  | settled (callback : K)

structure Coordinator (A V P F K : Type) where
  pending : Dict Text Nat
  opened : Nat
  batch : Nat → Option (DebounceState A V P F K)
  calls : Nat
  canceller : Nat → Canceller
  log : List (Nat × Event A V P F K)

inductive Input (A V P F K : Type)
  | schedule (sessionKey : Text) (message : IncomingMessage A V P) (onFire : F) (onSettled : Option K)
  | cancel (sessionKey : Text)
  | cancelAll
  | stepTimer (batch : Nat) (raised : Bool)
  | stepCanceller (call : Nat)

namespace Coordinator

variable {A V P F K : Type}

def start : Coordinator A V P F K := ⟨.empty, 0, fun _ => none, 0, fun _ => .done, []⟩

def setBatch (coord : Coordinator A V P F K) (batch : Nat) (state : DebounceState A V P F K)
    (events : List (Event A V P F K)) : Coordinator A V P F K :=
  { coord with
    batch := Function.update coord.batch batch (some state)
    log := coord.log ++ events.map fun event => (batch, event) }

def setCanceller (coord : Coordinator A V P F K) (call : Nat) (canceller : Canceller) : Coordinator A V P F K :=
  { coord with canceller := Function.update coord.canceller call canceller }

-- `self._pending.pop(session_key, None)`, where the entry is this batch.
def release (coord : Coordinator A V P F K) (sessionKey : Text) (batch : Nat) : Coordinator A V P F K :=
  if coord.pending.get? sessionKey = some batch then
    { coord with pending := coord.pending.erase sessionKey }
  else coord

def schedule (coord : Coordinator A V P F K) (sessionKey : Text) (message : IncomingMessage A V P) (onFire : F)
    (onSettled : Option K) : Coordinator A V P F K :=
  match (coord.pending.get? sessionKey).bind fun batch => (coord.batch batch).map (batch, ·) with
  | some (batch, state) =>
    coord.setBatch batch
      { state with buffer := state.buffer ++ [message], onSettled := state.onSettled ++ onSettled.toList }
      [.scheduled sessionKey message onSettled]
  | none =>
    let state : DebounceState A V P F K :=
      ⟨sessionKey, [message], onFire, onSettled.toList, .created, false, false, false⟩
    let batch := coord.opened
    { coord.setBatch batch state [.scheduled sessionKey message onSettled] with
      pending := coord.pending.set sessionKey batch
      opened := batch + 1 }

def startCancel (coord : Coordinator A V P F K) (sessionKey : Text) : Coordinator A V P F K :=
  { coord.setCanceller coord.calls (.locking sessionKey) with calls := coord.calls + 1 }

-- One step of `_settle`; what is left of it is `none` when it returns.
def settle (state : DebounceState A V P F K) :
    Settle → DebounceState A V P F K × Option Settle × List (Event A V P F K)
  | .waiting =>
    if state.settleLocked then (state, some .waiting, [])
    else if state.settled then (state, none, [])
    else ({ state with settled := true, settleLocked := true }, some (.invoking 0), [])
  | .invoking next =>
    -- what a callback raises is logged only
    match state.onSettled[next]? with
    | some callback => (state, some (.invoking (next + 1)), [.settled callback])
    | none => ({ state with settleLocked := false }, none, [])

/-- `CancelledError` is thrown where the task waits. A task that was never started does not come to
its `finally`. -/
def interrupted (state : DebounceState A V P F K) : DebounceState A V P F K :=
  match state.timer with
  | .created | .closing | .settling .waiting => { state with cancelling := false, timer := .done }
  | .sleeping | .locking | .firing => { state with cancelling := false, timer := .closing }
  | .settling (.invoking _) => { state with cancelling := false, timer := .done, settleLocked := false }
  | .done => { state with cancelling := false }

def stepTimer (lib : MetadataLibrary V) (coord : Coordinator A V P F K) (batch : Nat) (raised : Bool) :
    Coordinator A V P F K :=
  match coord.batch batch with
  | none => coord
  | some state =>
    if state.cancelling then coord.setBatch batch (interrupted state) []
    else
      match state.timer with
      | .created => coord.setBatch batch { state with timer := .sleeping } []
      | .sleeping => coord.setBatch batch { state with timer := .locking } []
      | .locking =>
        if coord.pending.get? state.sessionKey = some batch then
          match state.buffer with
          | [] => (coord.release state.sessionKey batch).setBatch batch { state with timer := .closing } []
          | first :: _ =>
            (coord.release state.sessionKey batch).setBatch batch { state with timer := .firing }
              [.fired state.onFire (combine lib first state.buffer)]
        else coord.setBatch batch { state with timer := .closing } []
      | .firing => coord.setBatch batch { state with timer := .closing } [.returned raised]
      | .closing =>
        (coord.release state.sessionKey batch).setBatch batch { state with timer := .settling .waiting } []
      | .settling progress =>
        let (state, left, events) := settle state progress
        coord.setBatch batch { state with timer := left.elim .done .settling } events
      | .done => coord

def stepCanceller (coord : Coordinator A V P F K) (call : Nat) : Coordinator A V P F K :=
  match coord.canceller call with
  | .locking sessionKey =>
    match (coord.pending.get? sessionKey).bind fun batch => (coord.batch batch).map (batch, ·) with
    | none => coord.setCanceller call .done
    | some (batch, state) =>
      let coord := coord.release sessionKey batch
      if state.timer = .done then
        (coord.setBatch batch state [.cancelled]).setCanceller call (.settling batch .waiting)
      else
        (coord.setBatch batch { state with cancelling := true } [.cancelled]).setCanceller call
          (.joining batch)
  | .joining batch =>
    if (coord.batch batch).all fun state => state.timer = .done then
      coord.setCanceller call (.settling batch .waiting)
    else coord
  | .settling batch progress =>
    match coord.batch batch with
    | none => coord
    | some state =>
      let (state, left, events) := settle state progress
      (coord.setBatch batch state events).setCanceller call (left.elim .done (.settling batch))
  | .done => coord

def step (lib : MetadataLibrary V) (coord : Coordinator A V P F K) : Input A V P F K → Coordinator A V P F K
  | .schedule sessionKey message onFire onSettled => coord.schedule sessionKey message onFire onSettled
  | .cancel sessionKey => coord.startCancel sessionKey
  | .cancelAll => coord.pending.keys.foldl startCancel coord
  | .stepTimer batch raised => coord.stepTimer lib batch raised
  | .stepCanceller call => coord.stepCanceller call

end Coordinator

end OpenSquilla.Channels.Debounce
