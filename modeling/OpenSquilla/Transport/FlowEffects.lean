import OpenSquilla.Shared.CreditLedger
import OpenSquilla.Transport.FlowWindow

set_option autoImplicit false

namespace OpenSquilla.Transport

open CreditLedger

abbrev Credit := CreditLedger.Entry Int Bool Int

def creditOf (entry : Int × Delivery) : Credit := ⟨entry.1, entry.2.recovery, entry.2.size⟩

def FlowEvent.opened? : FlowEvent → Option Credit
  | .reserved id recovery size _ => some ⟨id, recovery, size⟩
  | _ => none

def FlowEvent.settled? : FlowEvent → Option Credit
  | .released id recovery size => some ⟨id, recovery, size⟩
  | _ => none

-- The part of a delivery that admission fixes and no later operation changes.
structure Frame where
  id : Int
  recovery : Bool
  size : Int
  key : Option String

def frameOf (entry : Int × Delivery) : Frame :=
  ⟨entry.1, entry.2.recovery, entry.2.size, entry.2.key⟩

namespace FlowWindow

/-- The window read as a ledger of credit: reservations open it, releases settle it. -/
def ledger (w : FlowWindow) : Ledger Int Bool Int where
  opened := w.trace.filterMap FlowEvent.opened?
  settled := w.trace.filterMap FlowEvent.settled?
  held := w.deliveries.entries.map creditOf

def frames (w : FlowWindow) : List Frame := w.deliveries.entries.map frameOf

/-- What every operation but a successful admission does to the deliveries: some are
released, each through the callback of its own kind, and no other one is touched beyond
its flags. -/
structure Settles (before after : FlowWindow) : Prop where
  nextId : after.nextId = before.nextId
  limit : after.recoveryLimit = before.recoveryLimit
  laneMode : after.laneMode = before.laneMode
  closed : before.closed = true → after.closed = true
  opened : after.ledger.opened = before.ledger.opened
  steps : Steps before.ledger after.ledger
  frames : after.frames.Sublist before.frames
  survivors : ∀ id entry, after.deliveries.get? id = some entry →
    ∃ old, before.deliveries.get? id = some old ∧ (old.acknowledged → entry.acknowledged)

theorem Settles.of_same {before after : FlowWindow} (nextId : after.nextId = before.nextId)
    (limit : after.recoveryLimit = before.recoveryLimit) (laneMode : after.laneMode = before.laneMode)
    (closed : before.closed = true → after.closed = true) (trace : after.trace = before.trace)
    (deliveries : after.deliveries = before.deliveries) : Settles before after where
  nextId := nextId
  limit := limit
  laneMode := laneMode
  closed := closed
  opened := by simp [ledger, trace]
  steps := by
    have same : after.ledger = before.ledger := by simp [ledger, trace, deliveries]
    rw [same]
  frames := by simp [FlowWindow.frames, deliveries]
  survivors := fun _ entry found => ⟨entry, deliveries ▸ found, fun kept => kept⟩

theorem Settles.refl (w : FlowWindow) : Settles w w := .of_same rfl rfl rfl id rfl rfl

theorem Settles.trans {first second third : FlowWindow} (one : Settles first second)
    (two : Settles second third) : Settles first third where
  nextId := two.nextId.trans one.nextId
  limit := two.limit.trans one.limit
  laneMode := two.laneMode.trans one.laneMode
  closed := two.closed ∘ one.closed
  opened := two.opened.trans one.opened
  steps := one.steps.trans two.steps
  frames := two.frames.trans one.frames
  survivors := by
    intro id entry found
    obtain ⟨middle, inMiddle, toEntry⟩ := two.survivors id entry found
    obtain ⟨old, inFirst, toMiddle⟩ := one.survivors id middle inMiddle
    exact ⟨old, inFirst, fun acknowledged => toEntry (toMiddle acknowledged)⟩

theorem Settles.foldl {f : FlowWindow → Int → FlowWindow} (each : ∀ w id, Settles w (f w id))
    (ids : List Int) (w : FlowWindow) : Settles w (ids.foldl f w) := by
  induction ids generalizing w with
  | nil => exact .refl w
  | cons id rest ih => exact (each w id).trans (ih (f w id))

theorem updateDelivery_settles (w : FlowWindow) (id : Int) (f : Delivery → Delivery)
    (keeps : ∀ key entry, frameOf (key, f entry) = frameOf (key, entry))
    (acknowledged : ∀ entry, entry.acknowledged → (f entry).acknowledged) :
    Settles w (w.updateDelivery id f) where
  nextId := rfl
  limit := rfl
  laneMode := rfl
  closed := fun closed => closed
  opened := rfl
  steps := by
    have credit : ∀ key entry, creditOf (key, f entry) = creditOf (key, entry) := by
      intro key entry
      have same := keeps key entry
      simp only [frameOf, Frame.mk.injEq] at same
      simp [creditOf, same]
    have same : (w.updateDelivery id f).ledger = w.ledger := by
      simp [ledger, updateDelivery, Dict.map_entries_modify _ _ _ _ credit]
    rw [same]
  frames := by
    simp [FlowWindow.frames, updateDelivery, Dict.map_entries_modify _ _ _ _ keeps]
  survivors := by
    intro key entry found
    simp only [updateDelivery, Dict.get?_modify] at found
    split at found
    · obtain ⟨old, present, rfl⟩ := Option.map_eq_some_iff.mp found
      exact ⟨old, present, acknowledged old⟩
    · exact ⟨entry, found, fun kept => kept⟩

theorem releaseDelivery_settles (w : FlowWindow) (id : Int) : Settles w (w.releaseDelivery id) := by
  unfold releaseDelivery
  split
  next => exact .refl w
  next delivery found =>
    obtain ⟨before, after, present, erased⟩ := Dict.erase_split found
    refine ⟨rfl, rfl, rfl, fun closed => closed, by simp [ledger, FlowEvent.opened?], ?_, ?_, ?_⟩
    · have held : w.ledger.held =
          before.map creditOf ++ creditOf (id, delivery) :: after.map creditOf := by
        simp [ledger, present]
      have step := Step.settles w.ledger _ _ _ held
      have same : ({ w.ledger with
          settled := w.ledger.settled ++ [creditOf (id, delivery)]
          held := before.map creditOf ++ after.map creditOf } : Ledger Int Bool Int) =
          ({ w with
            deliveries := w.deliveries.erase id
            trace := w.trace ++ [.released id delivery.recovery delivery.size] }
            : FlowWindow).ledger := by
        simp [ledger, erased, FlowEvent.opened?, FlowEvent.settled?, creditOf]
      exact .single (same ▸ step)
    · simp only [FlowWindow.frames, erased, present, List.map_append, List.map_cons]
      exact List.Sublist.append_left (List.sublist_cons_self _ _) _
    · intro key entry found
      simp only [Dict.get?_erase] at found
      split at found
      · cases found
      · exact ⟨entry, found, fun kept => kept⟩

theorem stagedEvent_settles (w : FlowWindow) (id : Int) :
    Settles w { w with trace := w.trace ++ [.staged id] } where
  nextId := rfl
  limit := rfl
  laneMode := rfl
  closed := fun closed => closed
  opened := by simp [ledger, FlowEvent.opened?]
  steps := by
    have same : ({ w with trace := w.trace ++ [.staged id] } : FlowWindow).ledger = w.ledger := by
      simp [ledger, FlowEvent.opened?, FlowEvent.settled?]
    rw [same]
  frames := List.Sublist.refl _
  survivors := fun _ entry found => ⟨entry, found, fun kept => kept⟩

theorem confirmDelivery_settles (w : FlowWindow) (id : Int) (delivery : Delivery) :
    Settles w (w.confirmDelivery id delivery) := by
  unfold confirmDelivery
  have confirmed : Settles w (w.updateDelivery id (fun d => { d with acknowledged := true })) :=
    updateDelivery_settles w id _ (fun _ _ => rfl) (fun _ _ => rfl)
  split
  · exact .refl w
  · dsimp only
    split
    · exact confirmed.trans (stagedEvent_settles _ id)
    · exact confirmed

theorem settleIf_settles (selected : Delivery → Bool) (w : FlowWindow) (id : Int) :
    Settles w (settleIf selected w id) := by
  unfold settleIf
  split
  · exact .refl w
  · split
    · exact .refl w
    · dsimp only
      split
      · exact (confirmDelivery_settles w id _).trans (releaseDelivery_settles _ id)
      · exact confirmDelivery_settles w id _

theorem settleEach_settles (w : FlowWindow) (selected : Delivery → Bool) (ids : List Int) :
    Settles w (w.settleEach selected ids) :=
  Settles.foldl (settleIf_settles selected) ids w

theorem closeDelivery_settles (w : FlowWindow) (id : Int) : Settles w (w.closeDelivery id) := by
  unfold closeDelivery
  split
  · exact .refl w
  · split
    · exact updateDelivery_settles w id _ (fun _ _ => rfl) (fun _ _ => rfl)
    · exact releaseDelivery_settles w id

-- A loop body that acts on the delivery it is given and on no other.
def ActsLocally (f : FlowWindow → Int → FlowWindow) (act : Delivery → Option Delivery) : Prop :=
  ∀ w id other, (f w id).deliveries.get? other =
    if other = id then (w.deliveries.get? id).bind act else w.deliveries.get? other

theorem ActsLocally.foldl {f : FlowWindow → Int → FlowWindow} {act : Delivery → Option Delivery}
    (locally : ActsLocally f act) (ids : List Int) (distinct : ids.Nodup) (w : FlowWindow)
    (other : Int) : (ids.foldl f w).deliveries.get? other =
      if other ∈ ids then (w.deliveries.get? other).bind act else w.deliveries.get? other := by
  induction ids generalizing w with
  | nil => simp
  | cons id rest ih =>
    rw [List.nodup_cons] at distinct
    rw [List.foldl_cons, ih distinct.2, locally w id other]
    by_cases same : other = id
    · subst same
      simp [distinct.1]
    · simp [same]

theorem get?_updateDelivery (w : FlowWindow) (id other : Int) (f : Delivery → Delivery) :
    (w.updateDelivery id f).deliveries.get? other =
      if other = id then (w.deliveries.get? other).map f else w.deliveries.get? other :=
  Dict.get?_modify _ _ _ _

theorem get?_releaseDelivery (w : FlowWindow) (id other : Int) : (w.releaseDelivery id).deliveries.get? other =
      if other = id then none else w.deliveries.get? other := by
  unfold releaseDelivery
  split
  next missing =>
    by_cases same : other = id
    · simp [same, missing]
    · simp [same]
  next => exact Dict.get?_erase _ _ _

theorem get?_confirmDelivery {w : FlowWindow} {id : Int} {delivery : Delivery}
    (found : w.deliveries.get? id = some delivery) (other : Int) :
    (w.confirmDelivery id delivery).deliveries.get? other =
      if other = id then some { delivery with acknowledged := true }
      else w.deliveries.get? other := by
  unfold confirmDelivery
  split
  next already =>
    have same : ({ delivery with acknowledged := true } : Delivery) = delivery := by
      cases delivery
      simp_all
    by_cases target : other = id
    · simp [target, found, same]
    · simp [target]
  next =>
    have updated : (w.updateDelivery id (fun d => { d with acknowledged := true })).deliveries.get?
        other = if other = id then some { delivery with acknowledged := true }
          else w.deliveries.get? other := by
      rw [get?_updateDelivery]
      by_cases target : other = id <;> simp [target, found]
    dsimp only
    split <;> exact updated

def settleAct (selected : Delivery → Bool) (entry : Delivery) : Option Delivery :=
  if selected entry then
    if entry.sent then none else some { entry with acknowledged := true }
  else some entry

theorem settleIf_local (selected : Delivery → Bool) : ActsLocally (settleIf selected) (settleAct selected) := by
  intro w id other
  unfold settleIf
  split
  next missing =>
    by_cases same : other = id <;> simp [same, missing]
  next entry found =>
    have confirmed := get?_confirmDelivery found other
    by_cases chosen : selected entry
    · by_cases sent : entry.sent
      · by_cases same : other = id <;>
          simp_all [get?_releaseDelivery, settleAct]
      · by_cases same : other = id <;> simp_all [settleAct]
    · by_cases same : other = id <;> simp_all [settleAct]

theorem get?_settleEach (w : FlowWindow) (selected : Delivery → Bool) (ids : List Int)
    (distinct : ids.Nodup) (other : Int) : (w.settleEach selected ids).deliveries.get? other =
      if other ∈ ids then (w.deliveries.get? other).bind (settleAct selected)
      else w.deliveries.get? other :=
  (settleIf_local selected).foldl ids distinct w other

def closeAct (entry : Delivery) : Option Delivery :=
  if entry.sending && !entry.sent then some { entry with acknowledged := true } else none

theorem closeDelivery_local : ActsLocally closeDelivery closeAct := by
  intro w id other
  unfold closeDelivery
  split
  next missing =>
    by_cases same : other = id <;> simp [same, missing]
  next entry found =>
    by_cases inFlight : (entry.sending && !entry.sent) = true
    · rw [if_pos inFlight, get?_updateDelivery]
      by_cases same : other = id <;> simp [same, found, closeAct, inFlight]
    · rw [if_neg inFlight, get?_releaseDelivery]
      by_cases same : other = id <;> simp [same, found, closeAct, inFlight]

theorem get?_close (w : FlowWindow) (id : Int) :
    w.close.deliveries.get? id = (w.deliveries.get? id).bind closeAct := by
  have each := closeDelivery_local.foldl w.deliveries.keys w.deliveries.nodupKeys
    { w with closed := true } id
  show (w.deliveries.keys.foldl closeDelivery { w with closed := true }).deliveries.get? id = _
  rw [each]
  split
  · rfl
  next absent =>
    rw [(Dict.get?_eq_none_iff _ _).mpr absent]
    rfl

theorem retireUnsent_settles (w : FlowWindow) (lanes : LaneTable) (lane : String) (laneEpoch : Option String) :
    Settles w { w with
      lanes := lanes
      deliveries := w.deliveries.mapValues (retireUnsent lane laneEpoch) } where
  nextId := rfl
  limit := rfl
  laneMode := rfl
  closed := id
  opened := rfl
  steps := by
    have same : ∀ entry, (retireUnsent lane laneEpoch entry).recovery = entry.recovery ∧
        (retireUnsent lane laneEpoch entry).size = entry.size := by
      intro entry
      unfold retireUnsent
      split <;> simp
    have held : ({ w with
        lanes := lanes
        deliveries := w.deliveries.mapValues (retireUnsent lane laneEpoch) } : FlowWindow).ledger =
        w.ledger := by
      simp [ledger, Dict.mapValues, creditOf, same, Function.comp_def]
    rw [held]
  frames := by
    have same : ∀ entry : Int × Delivery,
        frameOf (entry.1, retireUnsent lane laneEpoch entry.2) = frameOf entry := by
      intro entry
      unfold retireUnsent
      split <;> rfl
    simp [FlowWindow.frames, Dict.mapValues, Function.comp_def, same]
  survivors := by
    intro id entry found
    rw [Dict.get?_mapValues] at found
    obtain ⟨old, present, rfl⟩ := Option.map_eq_some_iff.mp found
    refine ⟨old, present, fun acknowledged => ?_⟩
    unfold retireUnsent
    split <;> exact acknowledged

-- The loops over the deliveries leave the counters and the lane table alone.
def DeliveriesOnly (before after : FlowWindow) : Prop :=
  ∃ deliveries trace, after = { before with deliveries := deliveries, trace := trace }

namespace DeliveriesOnly

theorem refl (w : FlowWindow) : DeliveriesOnly w w := ⟨w.deliveries, w.trace, rfl⟩

theorem trans {first second third : FlowWindow} (one : DeliveriesOnly first second)
    (two : DeliveriesOnly second third) : DeliveriesOnly first third := by
  obtain ⟨_, _, rfl⟩ := one
  obtain ⟨deliveries, trace, rfl⟩ := two
  exact ⟨deliveries, trace, rfl⟩

theorem foldl {f : FlowWindow → Int → FlowWindow} (each : ∀ w id, DeliveriesOnly w (f w id))
    (ids : List Int) (w : FlowWindow) : DeliveriesOnly w (ids.foldl f w) := by
  induction ids generalizing w with
  | nil => exact refl w
  | cons id rest ih => exact (each w id).trans (ih (f w id))

variable {before after : FlowWindow} (only : DeliveriesOnly before after)

include only

theorem lanes : after.lanes = before.lanes := by
  obtain ⟨_, _, rfl⟩ := only
  rfl

theorem ackId : after.ackId = before.ackId := by
  obtain ⟨_, _, rfl⟩ := only
  rfl

theorem laneMode : after.laneMode = before.laneMode := by
  obtain ⟨_, _, rfl⟩ := only
  rfl

end DeliveriesOnly

theorem updateDelivery_only (w : FlowWindow) (id : Int) (f : Delivery → Delivery) :
    DeliveriesOnly w (w.updateDelivery id f) := ⟨_, w.trace, rfl⟩

theorem releaseDelivery_only (w : FlowWindow) (id : Int) : DeliveriesOnly w (w.releaseDelivery id) := by
  unfold releaseDelivery
  split
  · exact .refl w
  · exact ⟨_, _, rfl⟩

theorem confirmDelivery_only (w : FlowWindow) (id : Int) (delivery : Delivery) :
    DeliveriesOnly w (w.confirmDelivery id delivery) := by
  unfold confirmDelivery
  split
  · exact .refl w
  · dsimp only
    split
    · exact ⟨_, _, rfl⟩
    · exact updateDelivery_only w id _

theorem settleIf_only (selected : Delivery → Bool) (w : FlowWindow) (id : Int) :
    DeliveriesOnly w (settleIf selected w id) := by
  unfold settleIf
  split
  · exact .refl w
  · split
    · exact .refl w
    · dsimp only
      split
      · exact (confirmDelivery_only w id _).trans (releaseDelivery_only _ id)
      · exact confirmDelivery_only w id _

theorem settleEach_only (w : FlowWindow) (selected : Delivery → Bool) (ids : List Int) :
    DeliveriesOnly w (w.settleEach selected ids) :=
  DeliveriesOnly.foldl (settleIf_only selected) ids w

theorem closeDelivery_only (w : FlowWindow) (id : Int) : DeliveriesOnly w (w.closeDelivery id) := by
  unfold closeDelivery
  split
  · exact .refl w
  · split
    · exact updateDelivery_only w id _
    · exact releaseDelivery_only w id

theorem checkLane_lanesOnly (w : FlowWindow) (request : AdmitRequest) :
    ∃ lanes, (w.checkLane request).2 = { w with lanes := lanes } := by
  unfold checkLane
  split
  · split
    next lane _ _ =>
      unfold admitLane
      split
      · exact ⟨w.lanes, rfl⟩
      · split
        · exact ⟨w.lanes, rfl⟩
        · by_cases reopened : fenced (w.lanes.states.get? lane)
          · refine ⟨(w.reactivate lane).lanes, ?_⟩
            simp only [reopened, if_true]
            split <;> rfl
          · refine ⟨w.lanes, ?_⟩
            simp only [reopened, Bool.false_eq_true, if_false]
            split <;> rfl
    · exact ⟨w.lanes, rfl⟩
  · exact ⟨w.lanes, rfl⟩

/-- Everything a call of `admitDelivery` can do: refuse, having changed the lane table and
the reported reason only, or enter a delivery that passed every window check. -/
theorem admitDelivery_cases (w : FlowWindow) (request : AdmitRequest) (granted : Bool) :
    (∃ lanes reason, w.admitDelivery request granted =
      (none, { w with lanes := lanes, lastRejectionReason := some reason })) ∨
    (∃ lanes, w.closed = false ∧ w.admitWindow request = none ∧
      (request.preReserved = true ∨ granted = true) ∧
      w.admitDelivery request granted =
        (some w.nextId,
          ({ w with lanes := lanes, lastRejectionReason := none } : FlowWindow).enterDelivery
            request)) := by
  unfold admitDelivery
  dsimp only
  split
  · exact .inl ⟨w.lanes, _, rfl⟩
  next opened =>
    obtain ⟨lanes, same⟩ := checkLane_lanesOnly { w with lastRejectionReason := none } request
    split
    next reason checked outcome =>
      obtain rfl : checked = _ := (congrArg Prod.snd outcome).symm.trans same
      exact .inl ⟨lanes, reason, rfl⟩
    next checked outcome =>
      obtain rfl : checked = _ := (congrArg Prod.snd outcome).symm.trans same
      split
      · exact .inl ⟨lanes, _, rfl⟩
      next passed =>
        split
        · exact .inl ⟨lanes, _, rfl⟩
        next reserved =>
          refine .inr ⟨lanes, by simpa using opened, passed, ?_, rfl⟩
          cases ready : request.preReserved <;> simp_all

theorem step_settles (w : FlowWindow) (op : FlowOp)
    (notAdmitted : ∀ request granted, op ≠ .admitDelivery request granted) : Settles w (w.step op) := by
  cases op with
  | admitDelivery request granted => exact absurd rfl (notAdmitted request granted)
  | registerLaneEpoch lane laneEpoch =>
    simp only [step, registerLaneEpoch]
    repeat' split
    all_goals first
      | exact .refl w
      | exact Settles.of_same rfl rfl rfl (fun closed => closed) rfl rfl
  | claim id publication =>
    simp only [step, claim]
    split
    · exact .refl w
    · split
      · exact .refl w
      · exact updateDelivery_settles w id _ (fun _ _ => rfl) (fun _ kept => kept)
  | markSending id =>
    simp only [step, markSending]
    split
    · exact .refl w
    · exact updateDelivery_settles w id _ (fun _ _ => rfl) (fun _ kept => kept)
  | markSent id =>
    simp only [step, markSent]
    split
    · exact .refl w
    next delivery _ =>
      have sent := updateDelivery_settles w id
        (fun d => { d with sent := true, sending := false }) (fun _ _ => rfl) (fun _ kept => kept)
      dsimp only
      split
      · exact sent.trans (releaseDelivery_settles _ id)
      · exact sent
  | markSendFinished id =>
    simp only [step, markSendFinished]
    split
    · exact .refl w
    next delivery _ =>
      have finished := updateDelivery_settles w id
        (fun d => { d with sending := false }) (fun _ _ => rfl) (fun _ kept => kept)
      split
      · exact finished.trans (releaseDelivery_settles _ id)
      · exact finished
  | discardRetiredQueued id =>
    simp only [step, discardRetiredQueued]
    split
    · exact .refl w
    · split
      · exact .refl w
      · split
        · exact .refl w
        · exact releaseDelivery_settles w id
  | stage epoch id =>
    simp only [step, stage]
    split
    · exact .refl w
    · split
      · exact .refl w
      · have staged : Settles w { w with stagedId := max w.stagedId id } :=
          Settles.of_same rfl rfl rfl (fun closed => closed) rfl rfl
        exact staged.trans (settleEach_settles _ _ _)
  | acknowledge epoch id =>
    simp only [step, acknowledge]
    split
    · exact .refl w
    · split
      · exact .refl w
      · exact (settleEach_settles w _ _).trans
          (Settles.of_same rfl rfl rfl (fun closed => closed) rfl rfl)
  | acknowledgeLane epoch lane laneSequence =>
    simp only [step, acknowledgeLane]
    split
    · exact .refl w
    · split
      · exact .refl w
      · exact (settleEach_settles w _ _).trans
          (Settles.of_same rfl rfl rfl (fun closed => closed) rfl rfl)
  | acknowledgeLaneDelivery epoch lane through laneEpoch =>
    simp only [step, acknowledgeLaneDelivery]
    split
    · exact .refl w
    · split
      · exact .refl w
      · exact (settleEach_settles w _ _).trans
          (Settles.of_same rfl rfl rfl (fun closed => closed) rfl rfl)
  | retireLane epoch lane retireToken finalPublishedId laneEpoch fresh =>
    simp only [step, retireLane]
    repeat' split
    all_goals first | exact .refl w | exact retireUnsent_settles w _ _ _
  | confirmLaneRetire epoch lane retireToken finalPublishedId laneEpoch =>
    simp only [step, confirmLaneRetire]
    split
    · exact .refl w
    · exact (settleEach_settles w _ _).trans
        (Settles.of_same rfl rfl rfl (fun closed => closed) rfl rfl)
  | pruneSettledLanes => exact Settles.of_same rfl rfl rfl (fun closed => closed) rfl rfl
  | close =>
    have opened : Settles w { w with closed := true } := .of_same rfl rfl rfl (fun _ => rfl) rfl rfl
    have drained := Settles.foldl closeDelivery_settles w.deliveries.keys { w with closed := true }
    exact (opened.trans drained).trans (Settles.of_same rfl rfl rfl (fun closed => closed) rfl rfl)

def ledgerOnly : FlowOp → Bool
  | .claim .. | .markSending .. | .markSent .. | .markSendFinished .. => true
  | .discardRetiredQueued .. | .stage .. | .acknowledge .. => true
  | _ => false

theorem step_lanes (w : FlowWindow) (op : FlowOp) (only : ledgerOnly op = true) :
    (w.step op).lanes = w.lanes := by
  cases op with
  | claim id publication =>
    simp only [step, claim]
    repeat' split
    all_goals rfl
  | markSending id =>
    simp only [step, markSending]
    split <;> rfl
  | markSent id =>
    simp only [step, markSent]
    split
    · rfl
    · split
      · exact (releaseDelivery_only _ id).lanes
      · rfl
  | markSendFinished id =>
    simp only [step, markSendFinished]
    split
    · rfl
    · split
      · exact (releaseDelivery_only _ id).lanes
      · rfl
  | discardRetiredQueued id =>
    simp only [step, discardRetiredQueued]
    split
    · rfl
    · split
      · rfl
      · split
        · rfl
        · exact (releaseDelivery_only w id).lanes
  | stage epoch id =>
    simp only [step, stage]
    split
    · rfl
    · split
      · rfl
      · exact (settleEach_only _ _ _).lanes
  | acknowledge epoch id =>
    simp only [step, acknowledge]
    split
    · rfl
    · split
      · rfl
      · exact (settleEach_only w _ _).lanes
  | _ => cases only

theorem step_config (w : FlowWindow) (op : FlowOp) :
    (w.step op).recoveryLimit = w.recoveryLimit ∧ (w.step op).laneMode = w.laneMode := by
  by_cases notAdmitted : ∀ request granted, op ≠ .admitDelivery request granted
  · have settles := step_settles w op notAdmitted
    exact ⟨settles.limit, settles.laneMode⟩
  · push Not at notAdmitted
    obtain ⟨request, granted, rfl⟩ := notAdmitted
    rcases admitDelivery_cases w request granted with
      ⟨lanes, reason, refused⟩ | ⟨lanes, _, _, _, entered⟩
    · simp only [step, refused, and_self]
    · simp only [step, entered]
      exact ⟨rfl, rfl⟩

theorem step_closed (w : FlowWindow) (op : FlowOp) (closed : w.closed = true) : (w.step op).closed = true := by
  by_cases notAdmitted : ∀ request granted, op ≠ .admitDelivery request granted
  · exact (step_settles w op notAdmitted).closed closed
  · push Not at notAdmitted
    obtain ⟨request, granted, rfl⟩ := notAdmitted
    rcases admitDelivery_cases w request granted with
      ⟨lanes, reason, refused⟩ | ⟨lanes, stillOpen, _⟩
    · simp only [step, refused]
      exact closed
    · rw [closed] at stillOpen
      cases stillOpen

end FlowWindow

end OpenSquilla.Transport
