import Mathlib.Algebra.Ring.Int.Defs
import Mathlib.Data.Finset.Card
import OpenSquilla.Shared.Dict

set_option autoImplicit false

namespace OpenSquilla.Transport

def flowWindowBytes : Int := 4 * 1024 * 1024
def flowWindowFrames : Nat := 128
def flowV2MaxLaneEpochs : Nat := 16
def controlBufferBytes : Int := 1024 * 1024
def recoveryWindowBytes : Int := 1024 * 1024
def recoveryWindowFrames : Int := 16
def maxWireBytes : Int := 25 * 1024 * 1024

inductive LaneState
  | active
  | retired
  | closed
  deriving DecidableEq, Repr

inductive Publication
  | reserved
  | original
  | tombstone
  deriving DecidableEq, Repr

structure Delivery where
  size : Int
  recovery : Bool := false
  lane : Option String := none
  laneEpoch : Option String := none
  laneSequence : Option Int := none
  sent : Bool := false
  sending : Bool := false
  acknowledged : Bool := false
  retiredUnsent : Bool := false
  key : Option String := none
  publication : Publication := .reserved
  deriving DecidableEq, Repr

inductive RejectionReason
  | flowClosed
  | laneEpochLimit
  | laneRetired
  | laneLimit
  | frameWireLimit
  | recoveryWindowExhausted
  | connectionWindowExhausted
  | transportReservationRejected
  deriving DecidableEq, Repr

inductive FlowError
  | valueError (message : String)
  | keyError
  deriving DecidableEq, Repr

/-- What crosses the accounting boundary. `reserved` is the reservation of an admitted
delivery, granted by the callback or handed over by the caller (`preReserved`);
`released` and `staged` are calls of the release and `on_stage` callbacks. -/
inductive FlowEvent
  | reserved (id : Int) (recovery : Bool) (size : Int) (preReserved : Bool)
  | released (id : Int) (recovery : Bool) (size : Int)
  | staged (id : Int)
  deriving DecidableEq, Repr

/-- The per-lane fields of the window. A key of the epoch maps is a lane with an epoch. -/
structure LaneTable where
  seen : Finset String := ∅
  states : Dict String LaneState := .empty
  epochs : Dict String (Option String) := .empty
  epochStates : Dict (String × Option String) LaneState := .empty
  retireTokens : Dict String String := .empty
  epochRetireTokens : Dict (String × Option String) String := .empty
  finalIds : Dict String Int := .empty
  epochFinalIds : Dict (String × Option String) Int := .empty
  ackIds : Dict String Int := .empty
  deliveryAckIds : Dict String Int := .empty
  epochDeliveryAckIds : Dict (String × Option String) Int := .empty
  nextIds : Dict String Int := .empty

structure FlowWindow where
  epoch : String
  recoveryLimit : Int
  hasOnStage : Bool
  laneMode : Bool
  laneLimit : Int
  lanes : LaneTable := {}
  closed : Bool := false
  nextId : Int := 1
  ackId : Int := 0
  stagedId : Int := 0
  lastRejectionReason : Option RejectionReason := none
  deliveries : Dict Int Delivery := .empty
  trace : List FlowEvent := []

namespace FlowWindow

def init (epoch : String) (recoveryLimit : Int) (hasOnStage laneMode : Bool) (laneLimit : Int) :
    FlowWindow where
  epoch := epoch
  recoveryLimit := min recoveryWindowFrames (max 1 recoveryLimit)
  hasOnStage := hasOnStage
  laneMode := laneMode
  laneLimit := max 1 laneLimit

/-- `self._lane_epochs.get(lane)`: an unknown lane and the epoch `None` read the same. -/
def laneEpochOf (w : FlowWindow) (lane : String) : Option String := (w.lanes.epochs.get? lane).join

def ordinary (w : FlowWindow) : List Delivery := w.deliveries.values.filter (fun entry => !entry.recovery)

def pieces (w : FlowWindow) : List Delivery := w.deliveries.values.filter Delivery.recovery

def sizes (entries : List Delivery) : Int := (entries.map Delivery.size).sum

structure AdmitRequest where
  size : Int
  recovery : Bool := false
  wireSize : Option Int := none
  key : Option String := none
  lane : Option String := none
  laneEpoch : Option String := none
  preReserved : Bool := false
  deriving DecidableEq, Repr

def fenced (state : Option LaneState) : Bool := state = some .retired || state = some .closed

def reactivate (w : FlowWindow) (lane : String) : FlowWindow :=
  { w with lanes :=
      { w.lanes with
        states := w.lanes.states.set lane .active
        ackIds := w.lanes.ackIds.erase lane
        deliveryAckIds := w.lanes.deliveryAckIds.erase lane
        nextIds := w.lanes.nextIds.set lane 1 } }

def epochLimitReached (w : FlowWindow) (lane : String) (laneEpoch : Option String) : Bool :=
  w.lanes.epochStates.get? (lane, laneEpoch) = none && flowV2MaxLaneEpochs ≤ w.lanes.epochStates.size

/-- The lane checks of `admit`. Reactivating a retired lane is not undone when this check
or a later one refuses the frame. -/
def admitLane (w : FlowWindow) (lane : String) (laneEpoch : Option String) :
    Option RejectionReason × FlowWindow :=
  if w.epochLimitReached lane laneEpoch then (some .laneEpochLimit, w)
  else if fenced (w.lanes.states.get? lane) && (laneEpoch = none || laneEpoch = w.laneEpochOf lane) then
    (some .laneRetired, w)
  else
    let w := if fenced (w.lanes.states.get? lane) then w.reactivate lane else w
    if lane ∉ w.lanes.seen ∧ w.laneLimit ≤ w.lanes.seen.card then (some .laneLimit, w)
    else (none, w)

def checkLane (w : FlowWindow) (request : AdmitRequest) : Option RejectionReason × FlowWindow :=
  match request.lane with
  | some lane => if w.laneMode then w.admitLane lane request.laneEpoch else (none, w)
  | none => (none, w)

def activeLanes (w : FlowWindow) : Finset String := (w.ordinary.filterMap Delivery.lane).toFinset

-- The size and window checks of `admit`, before it asks for a reservation.
def admitWindow (w : FlowWindow) (request : AdmitRequest) : Option RejectionReason :=
  let wireSize := request.wireSize.getD request.size
  if ¬(0 < wireSize ∧ wireSize ≤ maxWireBytes) ∨
      ¬(wireSize ≤ request.size ∧ request.size ≤ maxWireBytes + 32) then
    some .frameWireLimit
  else if w.laneMode ∧ ∃ lane ∈ request.lane, lane ∉ w.activeLanes ∧ w.laneLimit ≤ w.activeLanes.card then
    some .laneLimit
  else if request.recovery then
    if w.recoveryLimit ≤ w.pieces.length ∨ recoveryWindowBytes < sizes w.pieces + request.size ∨
        (request.key ≠ none ∧ ∃ entry ∈ w.pieces, entry.key = request.key) then
      some .recoveryWindowExhausted
    else none
  else if flowWindowFrames ≤ w.ordinary.length ∨
      (w.ordinary ≠ [] ∧ flowWindowBytes < sizes w.ordinary + request.size) then
    some .connectionWindowExhausted
  else none

def laneSequenceOf (w : FlowWindow) (lane : String) : Int := (w.lanes.nextIds.get? lane).getD 1

def enrolLane (w : FlowWindow) (lane : String) (laneEpoch : Option String) : LaneTable :=
  { w.lanes with
    nextIds := w.lanes.nextIds.set lane (w.laneSequenceOf lane + 1)
    seen := insert lane w.lanes.seen
    states := w.lanes.states.setDefault lane .active
    epochs := w.lanes.epochs.set lane laneEpoch
    epochStates := w.lanes.epochStates.setDefault (lane, laneEpoch) .active
    epochDeliveryAckIds := w.lanes.epochDeliveryAckIds.setDefault (lane, laneEpoch) 0 }

def admittedDelivery (w : FlowWindow) (request : AdmitRequest) : Delivery where
  size := request.size
  recovery := request.recovery
  lane := request.lane
  laneEpoch := request.laneEpoch
  laneSequence := request.lane.map w.laneSequenceOf
  key := request.key

def enterDelivery (w : FlowWindow) (request : AdmitRequest) : FlowWindow :=
  { w with
    nextId := w.nextId + 1
    lanes := request.lane.elim w.lanes (fun lane => w.enrolLane lane request.laneEpoch)
    deliveries := w.deliveries.set w.nextId (w.admittedDelivery request)
    trace := w.trace ++ [.reserved w.nextId request.recovery request.size request.preReserved] }

def reject (w : FlowWindow) (reason : RejectionReason) : Option Int × FlowWindow :=
  (none, { w with lastRejectionReason := some reason })

-- `granted` is what the reserve callback answers if it is asked.
def admitDelivery (w : FlowWindow) (request : AdmitRequest) (granted : Bool) : Option Int × FlowWindow :=
  let w := { w with lastRejectionReason := none }
  if w.closed then w.reject .flowClosed
  else
    match w.checkLane request with
    | (some reason, w) => w.reject reason
    | (none, w) =>
      match w.admitWindow request with
      | some reason => w.reject reason
      | none =>
        if !request.preReserved && !granted then w.reject .transportReservationRejected
        else (some w.nextId, w.enterDelivery request)

def validLane (lane : String) : Bool := lane ≠ "" && lane.length ≤ 4096

def registerLaneEpoch (w : FlowWindow) (lane : String) (laneEpoch : Option String) :
    Except FlowError Unit × FlowWindow :=
  if !w.laneMode then (.ok (), w)
  else if !validLane lane then (.error (.valueError "Invalid delivery lane"), w)
  else if laneEpoch.any (fun epoch => 4096 < epoch.length) then
    (.error (.valueError "Invalid lane epoch"), w)
  else if w.laneEpochOf lane = laneEpoch then (.ok (), w)
  else if w.laneEpochOf lane ≠ none ∧
      ¬fenced (w.lanes.epochStates.get? (lane, w.laneEpochOf lane)) ∧
      ¬(w.lanes.epochStates.get? (lane, w.laneEpochOf lane) = none ∧
        fenced (w.lanes.states.get? lane)) then
    (.error (.valueError "Lane epoch replacement is not retired"), w)
  else if w.epochLimitReached lane laneEpoch then
    (.error (.valueError "Lane epoch history is full"), w)
  else
    (.ok (), { w with lanes :=
      { w.lanes with
        seen := insert lane w.lanes.seen
        epochs := w.lanes.epochs.set lane laneEpoch
        states := w.lanes.states.set lane .active
        epochStates := w.lanes.epochStates.setDefault (lane, laneEpoch) .active
        epochDeliveryAckIds := w.lanes.epochDeliveryAckIds.setDefault (lane, laneEpoch) 0
        nextIds := w.lanes.nextIds.setDefault lane 1
        ackIds := w.lanes.ackIds.erase lane
        deliveryAckIds := w.lanes.deliveryAckIds.erase lane } })

def updateDelivery (w : FlowWindow) (id : Int) (f : Delivery → Delivery) : FlowWindow :=
  { w with deliveries := w.deliveries.modify id f }

-- Exactly one frame may publish a reserved recovery receipt.
def claim (w : FlowWindow) (id : Int) (publication : Publication) : Bool × FlowWindow :=
  match w.deliveries.get? id with
  | none => (false, w)
  | some delivery =>
    if !delivery.recovery || delivery.publication ≠ .reserved || delivery.sending || delivery.sent then
      (false, w)
    else (true, w.updateDelivery id (fun d => { d with publication := publication }))

def releaseDelivery (w : FlowWindow) (id : Int) : FlowWindow :=
  match w.deliveries.get? id with
  | none => w
  | some delivery =>
    { w with
      deliveries := w.deliveries.erase id
      trace := w.trace ++ [.released id delivery.recovery delivery.size] }

def confirmDelivery (w : FlowWindow) (id : Int) (delivery : Delivery) : FlowWindow :=
  if delivery.acknowledged then w
  else
    let w := w.updateDelivery id (fun d => { d with acknowledged := true })
    if delivery.recovery && delivery.publication = .original && w.hasOnStage then
      { w with trace := w.trace ++ [.staged id] }
    else w

def markSending (w : FlowWindow) (id : Int) : Except FlowError Unit × FlowWindow :=
  match w.deliveries.get? id with
  | none => (.error .keyError, w)
  | some _ => (.ok (), w.updateDelivery id (fun d => { d with sending := true }))

-- Drop an explicitly retired queue entry, retaining credit until dequeue.
def discardRetiredQueued (w : FlowWindow) (id : Int) : Except FlowError Bool × FlowWindow :=
  match w.deliveries.get? id with
  | none => (.error .keyError, w)
  | some delivery =>
    if !delivery.retiredUnsent then (.ok false, w)
    else if delivery.sent || delivery.sending then
      (.error (.valueError "Retired queued delivery has already started sending"), w)
    else (.ok true, w.releaseDelivery id)

def markSent (w : FlowWindow) (id : Int) : Except FlowError Unit × FlowWindow :=
  match w.deliveries.get? id with
  | none => (.error .keyError, w)
  | some delivery =>
    let w := w.updateDelivery id (fun d => { d with sent := true, sending := false })
    (.ok (), if delivery.acknowledged then w.releaseDelivery id else w)

-- Release a retired write only after its physical send has unwound.
def markSendFinished (w : FlowWindow) (id : Int) : FlowWindow :=
  match w.deliveries.get? id with
  | none => w
  | some delivery =>
    let w := w.updateDelivery id (fun d => { d with sending := false })
    if w.closed || delivery.acknowledged then w.releaseDelivery id else w

def validateStage (w : FlowWindow) (epoch : String) (id : Int) : Except FlowError Unit :=
  if epoch ≠ w.epoch then .error (.valueError "Delivery epoch is not current")
  else if id ≤ 0 then .error (.valueError "Invalid staged delivery acknowledgement")
  else
    match w.deliveries.get? id with
    | none =>
      if id ≤ max w.stagedId w.ackId then .ok ()
      else .error (.valueError "Acknowledgement is not a recovery delivery")
    | some delivery =>
      if !delivery.recovery then .error (.valueError "Acknowledgement is not a recovery delivery")
      else if !delivery.sent && !delivery.sending then
        .error (.valueError "Acknowledgement includes an unsent delivery")
      else .ok ()

/-- Confirm the delivery when it is selected, and release it unless its write is still
unwinding. Every acknowledgement path runs this on the ledger entries it visits. -/
def settleIf (selected : Delivery → Bool) (w : FlowWindow) (id : Int) : FlowWindow :=
  match w.deliveries.get? id with
  | none => w
  | some entry =>
    if !selected entry then w
    else
      let w := w.confirmDelivery id entry
      if entry.sent then w.releaseDelivery id else w

def settleEach (w : FlowWindow) (selected : Delivery → Bool) (ids : List Int) : FlowWindow :=
  ids.foldl (settleIf selected) w

def stage (w : FlowWindow) (epoch : String) (id : Int) : Except FlowError Unit × FlowWindow :=
  match w.validateStage epoch id with
  | .error error => (.error error, w)
  | .ok () =>
    match w.deliveries.get? id with
    | none => (.ok (), w)
    | some _ =>
      let w := { w with stagedId := max w.stagedId id }
      (.ok (), w.settleEach (fun _ => true) [id])

def unsent (entry : Delivery) : Bool := !entry.sent && !entry.sending

def validateAcknowledgement (w : FlowWindow) (epoch : String) (id : Int) : Except FlowError Unit :=
  if epoch ≠ w.epoch then .error (.valueError "Delivery epoch is not current")
  else if id < 0 then .error (.valueError "Invalid delivery acknowledgement")
  else if id ≤ w.ackId then .ok ()
  else if w.nextId ≤ id then .error (.valueError "Acknowledgement is ahead of delivery")
  else if w.deliveries.entries.any (fun entry => decide (entry.1 ≤ id) && unsent entry.2) then
    .error (.valueError "Acknowledgement includes an unsent delivery")
  else .ok ()

def acknowledge (w : FlowWindow) (epoch : String) (id : Int) : Except FlowError Unit × FlowWindow :=
  match w.validateAcknowledgement epoch id with
  | .error error => (.error error, w)
  | .ok () =>
    if id ≤ w.ackId then (.ok (), w)
    else
      let w := w.settleEach (fun _ => true) (w.deliveries.keys.takeWhile (· ≤ id))
      (.ok (), { w with ackId := id })

-- A delivery of `lane` whose lane sequence the watermark covers.
def coveredBy (lane : String) (laneSequence : Int) (entry : Delivery) : Bool :=
  entry.lane = some lane && entry.laneSequence.any (· ≤ laneSequence)

def validateLaneAcknowledgement (w : FlowWindow) (epoch lane : String) (laneSequence : Int) :
    Except FlowError Unit :=
  if epoch ≠ w.epoch then .error (.valueError "Delivery epoch is not current")
  else if !validLane lane then .error (.valueError "Invalid delivery lane")
  else if laneSequence < 0 then .error (.valueError "Invalid lane delivery acknowledgement")
  else if w.deliveries.values.any
      (fun entry => entry.lane = some lane && entry.laneEpoch ≠ w.laneEpochOf lane) then
    .error (.valueError "Lane epoch is not current")
  else if laneSequence ≤ (w.lanes.ackIds.get? lane).getD 0 then .ok ()
  else if (w.lanes.nextIds.get? lane).getD 1 ≤ laneSequence then
    .error (.valueError "Acknowledgement is ahead of delivery")
  else if w.deliveries.values.any (fun entry => coveredBy lane laneSequence entry && unsent entry) then
    .error (.valueError "Acknowledgement includes an unsent delivery")
  else if !w.deliveries.values.any (coveredBy lane laneSequence) then
    .error (.valueError "Acknowledgement does not belong to lane")
  else .ok ()

def acknowledgeLane (w : FlowWindow) (epoch lane : String) (laneSequence : Int) :
    Except FlowError Unit × FlowWindow :=
  match w.validateLaneAcknowledgement epoch lane laneSequence with
  | .error error => (.error error, w)
  | .ok () =>
    if laneSequence ≤ (w.lanes.ackIds.get? lane).getD 0 then (.ok (), w)
    else
      let w := w.settleEach (coveredBy lane laneSequence) w.deliveries.keys
      (.ok (), { w with lanes := { w.lanes with ackIds := w.lanes.ackIds.set lane laneSequence } })

def ownedBy (lane : String) (laneEpoch : Option String) (entry : Delivery) : Bool :=
  entry.lane = some lane && entry.laneEpoch = laneEpoch

-- An omitted `lane_epoch` argument means the current epoch of the lane.
def resolveEpoch (w : FlowWindow) (lane : String) (laneEpoch : Option String) : Option String :=
  laneEpoch.or (w.laneEpochOf lane)

def validateLaneDeliveryAcknowledgement (w : FlowWindow) (epoch lane : String) (through : Int)
    (laneEpoch : Option String) : Except FlowError Unit :=
  if epoch ≠ w.epoch then .error (.valueError "Delivery epoch is not current")
  else if !validLane lane then .error (.valueError "Invalid delivery lane")
  else if through < 0 then .error (.valueError "Invalid lane delivery acknowledgement")
  else
    let laneEpoch := w.resolveEpoch lane laneEpoch
    let epochState := w.lanes.epochStates.get? (lane, laneEpoch)
    if laneEpoch ≠ w.laneEpochOf lane then .error (.valueError "Lane epoch is not current")
    else if epochState ≠ some .active ∧ epochState ≠ some .retired then
      .error (.valueError "Lane epoch is not current")
    else if through ≤ (w.lanes.epochDeliveryAckIds.get? (lane, laneEpoch)).getD 0 then .ok ()
    else if w.nextId ≤ through then .error (.valueError "Acknowledgement is ahead of delivery")
    else
      let owned := w.deliveries.entries.filter
        (fun entry => decide (entry.1 ≤ through) && ownedBy lane laneEpoch entry.2)
      if owned = [] then .error (.valueError "Acknowledgement does not belong to lane")
      else if owned.any (fun entry => unsent entry.2) then
        .error (.valueError "Acknowledgement includes an unsent delivery")
      else .ok ()

def acknowledgeLaneDelivery (w : FlowWindow) (epoch lane : String) (through : Int)
    (laneEpoch : Option String) : Except FlowError Unit × FlowWindow :=
  match w.validateLaneDeliveryAcknowledgement epoch lane through laneEpoch with
  | .error error => (.error error, w)
  | .ok () =>
    let laneEpoch := w.resolveEpoch lane laneEpoch
    if through ≤ (w.lanes.epochDeliveryAckIds.get? (lane, laneEpoch)).getD 0 then (.ok (), w)
    else
      let current := w.laneEpochOf lane
      let w := w.settleEach (ownedBy lane laneEpoch) (w.deliveries.keys.takeWhile (· ≤ through))
      (.ok (), { w with lanes :=
        { w.lanes with
          epochDeliveryAckIds := w.lanes.epochDeliveryAckIds.set (lane, laneEpoch) through
          deliveryAckIds :=
            if current = laneEpoch then w.lanes.deliveryAckIds.set lane through
            else w.lanes.deliveryAckIds } })

-- Python's `left or right` on an optional string: the empty string is falsy.
def orElseText (left : Option String) (right : String) : String :=
  match left with
  | some text => if text = "" then right else text
  | none => right

def retireUnsent (lane : String) (laneEpoch : Option String) (entry : Delivery) : Delivery :=
  if ownedBy lane laneEpoch entry && unsent entry then { entry with retiredUnsent := true } else entry

/-- Fence publication for a lane and return its retire token. `fresh` is what `uuid4().hex`
yields if it is drawn. -/
def retireLane (w : FlowWindow) (epoch lane : String) (retireToken : Option String)
    (finalPublishedId : Option Int) (laneEpoch : Option String) (fresh : String) :
    Except FlowError String × FlowWindow :=
  if epoch ≠ w.epoch then (.error (.valueError "Delivery epoch is not current"), w)
  else if !validLane lane then (.error (.valueError "Invalid delivery lane"), w)
  else if lane ∉ w.lanes.seen then (.error (.valueError "Lane is not current"), w)
  else
    let laneEpoch := w.resolveEpoch lane laneEpoch
    let epochKey := (lane, laneEpoch)
    match w.lanes.epochStates.get? epochKey with
    | none => (.error (.valueError "Lane epoch is not current"), w)
    | some .active =>
      let token := orElseText retireToken (orElseText (w.lanes.epochRetireTokens.get? epochKey) fresh)
      if token = "" ∨ 128 < token.length then
        (.error (.valueError "Invalid lane retire token"), w)
      else
        let finalId := finalPublishedId.getD
          ((w.deliveries.entries.filter (fun entry => ownedBy lane laneEpoch entry.2)).foldl
            (fun final entry => max final entry.1) 0)
        (.ok token,
          { w with
            lanes :=
              { w.lanes with
                states := w.lanes.states.set lane .retired
                retireTokens := w.lanes.retireTokens.set lane token
                epochStates := w.lanes.epochStates.set epochKey .retired
                epochRetireTokens := w.lanes.epochRetireTokens.set epochKey token
                finalIds := w.lanes.finalIds.set lane (max 0 finalId)
                epochFinalIds := w.lanes.epochFinalIds.set epochKey (max 0 finalId) }
            deliveries := w.deliveries.mapValues (retireUnsent lane laneEpoch) })
    | some _ =>
      let token := w.lanes.epochRetireTokens.get? epochKey
      if retireToken ≠ none ∧ retireToken ≠ token then
        (.error (.valueError "Lane retire token is not current"), w)
      else if finalPublishedId ≠ none ∧
          finalPublishedId ≠ some ((w.lanes.epochFinalIds.get? epochKey).getD 0) then
        (.error (.valueError "Lane final delivery fence is not current"), w)
      else (.ok (orElseText token fresh), w)

def validateLaneRetireConfirmation (w : FlowWindow) (epoch lane retireToken : String)
    (finalPublishedId : Int) (laneEpoch : Option String) : Except FlowError Unit :=
  let epochKey := (lane, w.resolveEpoch lane laneEpoch)
  if epoch ≠ w.epoch then .error (.valueError "Delivery epoch is not current")
  else if w.lanes.epochStates.get? epochKey ≠ some .retired then
    .error (.valueError "Lane is not retired")
  else if w.lanes.epochRetireTokens.get? epochKey ≠ some retireToken then
    .error (.valueError "Lane retire token is not current")
  else if w.lanes.epochFinalIds.get? epochKey ≠ some finalPublishedId then
    .error (.valueError "Lane final delivery fence is not current")
  else .ok ()

def confirmLaneRetire (w : FlowWindow) (epoch lane retireToken : String) (finalPublishedId : Int)
    (laneEpoch : Option String) : Except FlowError Unit × FlowWindow :=
  match w.validateLaneRetireConfirmation epoch lane retireToken finalPublishedId laneEpoch with
  | .error error => (.error error, w)
  | .ok () =>
    let laneEpoch := w.resolveEpoch lane laneEpoch
    let epochKey := (lane, laneEpoch)
    let current := w.laneEpochOf lane
    let w := w.settleEach (fun entry => ownedBy lane laneEpoch entry && !entry.retiredUnsent)
      w.deliveries.keys
    (.ok (), { w with lanes :=
      { w.lanes with
        states := if current = laneEpoch then w.lanes.states.set lane .closed else w.lanes.states
        epochStates := w.lanes.epochStates.erase epochKey
        epochRetireTokens := w.lanes.epochRetireTokens.erase epochKey
        epochFinalIds := w.lanes.epochFinalIds.erase epochKey
        epochDeliveryAckIds := w.lanes.epochDeliveryAckIds.erase epochKey } })

-- Lanes whose epoch ledger or physical writes still own them.
def retainedLanes (w : FlowWindow) : Finset String :=
  (w.lanes.epochStates.keys.map Prod.fst ++ w.deliveries.values.filterMap Delivery.lane).toFinset

def forgetLane (lanes : LaneTable) (lane : String) : LaneTable :=
  { lanes with
    seen := lanes.seen.erase lane
    states := lanes.states.erase lane
    epochs := lanes.epochs.erase lane
    retireTokens := lanes.retireTokens.erase lane
    finalIds := lanes.finalIds.erase lane
    nextIds := lanes.nextIds.erase lane
    ackIds := lanes.ackIds.erase lane
    deliveryAckIds := lanes.deliveryAckIds.erase lane }

def settledLanes (w : FlowWindow) : List String :=
  (w.lanes.states.entries.filter
    (fun entry => entry.2 = .closed && entry.1 ∉ w.retainedLanes)).map Prod.fst

def pruneSettledLanes (w : FlowWindow) : FlowWindow :=
  { w with lanes := w.settledLanes.foldl forgetLane w.lanes }

def closeDelivery (w : FlowWindow) (id : Int) : FlowWindow :=
  match w.deliveries.get? id with
  | none => w
  | some delivery =>
    if delivery.sending && !delivery.sent then
      w.updateDelivery id (fun d => { d with acknowledged := true })
    else w.releaseDelivery id

def close (w : FlowWindow) : FlowWindow :=
  let w := w.deliveries.keys.foldl closeDelivery { w with closed := true }
  { w with lanes := {} }

end FlowWindow

-- The operations of a window, each with the answers it draws from outside.
inductive FlowOp
  | admitDelivery (request : FlowWindow.AdmitRequest) (granted : Bool)
  | registerLaneEpoch (lane : String) (laneEpoch : Option String)
  | claim (id : Int) (publication : Publication)
  | markSending (id : Int)
  | markSent (id : Int)
  | markSendFinished (id : Int)
  | discardRetiredQueued (id : Int)
  | stage (epoch : String) (id : Int)
  | acknowledge (epoch : String) (id : Int)
  | acknowledgeLane (epoch lane : String) (laneSequence : Int)
  | acknowledgeLaneDelivery (epoch lane : String) (through : Int) (laneEpoch : Option String)
  | retireLane (epoch lane : String) (retireToken : Option String) (finalPublishedId : Option Int)
      (laneEpoch : Option String) (fresh : String)
  | confirmLaneRetire (epoch lane retireToken : String) (finalPublishedId : Int)
      (laneEpoch : Option String)
  | pruneSettledLanes
  | close
  deriving DecidableEq, Repr

/-- The window after one operation. A raising call keeps what it changed before raising. -/
def FlowWindow.step (w : FlowWindow) : FlowOp → FlowWindow
  | .admitDelivery request granted => (w.admitDelivery request granted).2
  | .registerLaneEpoch lane laneEpoch => (w.registerLaneEpoch lane laneEpoch).2
  | .claim id publication => (w.claim id publication).2
  | .markSending id => (w.markSending id).2
  | .markSent id => (w.markSent id).2
  | .markSendFinished id => w.markSendFinished id
  | .discardRetiredQueued id => (w.discardRetiredQueued id).2
  | .stage epoch id => (w.stage epoch id).2
  | .acknowledge epoch id => (w.acknowledge epoch id).2
  | .acknowledgeLane epoch lane laneSequence => (w.acknowledgeLane epoch lane laneSequence).2
  | .acknowledgeLaneDelivery epoch lane through laneEpoch =>
    (w.acknowledgeLaneDelivery epoch lane through laneEpoch).2
  | .retireLane epoch lane retireToken finalPublishedId laneEpoch fresh =>
    (w.retireLane epoch lane retireToken finalPublishedId laneEpoch fresh).2
  | .confirmLaneRetire epoch lane retireToken finalPublishedId laneEpoch =>
    (w.confirmLaneRetire epoch lane retireToken finalPublishedId laneEpoch).2
  | .pruneSettledLanes => w.pruneSettledLanes
  | .close => w.close

end OpenSquilla.Transport
