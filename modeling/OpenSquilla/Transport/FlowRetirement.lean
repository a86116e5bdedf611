import OpenSquilla.Transport.FlowAccounting

set_option autoImplicit false

namespace OpenSquilla.Transport

open Runs

namespace FlowWindow

/-- The lane table refuses `laneEpoch` on `lane`: the lane is fenced and still remembers
`laneEpoch` as its current epoch. -/
structure LaneFence (lanes : LaneTable) (lane : String) (laneEpoch : Option String) : Prop where
  seen : lane ∈ lanes.seen
  state : fenced (lanes.states.get? lane) = true
  current : (lanes.epochs.get? lane).join = laneEpoch
  retired : lanes.epochStates.get? (lane, laneEpoch) ≠ some .active

variable {laneEpoch : Option String} {w : FlowWindow}

theorem reactivate_other {lane other : String}
    (fence : LaneFence w.lanes lane laneEpoch) (different : lane ≠ other) :
    LaneFence (w.reactivate other).lanes lane laneEpoch where
  seen := fence.seen
  state := by
    simp only [reactivate, Dict.get?_set, different, if_false]
    exact fence.state
  current := fence.current
  retired := fence.retired

theorem enrolLane_other {lane other : String} {laneEpoch otherEpoch : Option String}
    (fence : LaneFence w.lanes lane laneEpoch) (different : lane ≠ other) :
    LaneFence (w.enrolLane other otherEpoch) lane laneEpoch where
  seen := Finset.mem_insert_of_mem fence.seen
  state := by
    simp only [enrolLane, Dict.get?_setDefault, different, if_false]
    exact fence.state
  current := by
    simp only [enrolLane, Dict.get?_set, different, if_false]
    exact fence.current
  retired := by
    simp only [enrolLane, Dict.get?_setDefault, Prod.mk.injEq, different, false_and, if_false]
    exact fence.retired

theorem forgetLane_other {lanes : LaneTable} {lane other : String}
    (fence : LaneFence lanes lane laneEpoch) (different : lane ≠ other) :
    LaneFence (forgetLane lanes other) lane laneEpoch where
  seen := Finset.mem_erase.mpr ⟨different, fence.seen⟩
  state := by
    simp only [forgetLane, Dict.get?_erase, different, if_false]
    exact fence.state
  current := by
    simp only [forgetLane, Dict.get?_erase, different, if_false]
    exact fence.current
  retired := fence.retired

variable {lane : String}

theorem forgetLanes_other {lanes : LaneTable}
    (fence : LaneFence lanes lane laneEpoch) (others : List String) (kept : lane ∉ others) :
    LaneFence (others.foldl forgetLane lanes) lane laneEpoch := by
  induction others generalizing lanes with
  | nil => exact fence
  | cons other rest ih =>
    rw [List.mem_cons, not_or] at kept
    exact ih (forgetLane_other fence kept.1) kept.2

theorem admitLane_other {lane other : String} {laneEpoch otherEpoch : Option String}
    (fence : LaneFence w.lanes lane laneEpoch) (different : lane ≠ other) :
    LaneFence (w.admitLane other otherEpoch).2.lanes lane laneEpoch := by
  unfold admitLane
  split
  · exact fence
  · split
    · exact fence
    · by_cases reopened : fenced (w.lanes.states.get? other)
      · simp only [reopened, if_true]
        split <;> exact reactivate_other fence different
      · simp only [reopened, Bool.false_eq_true, if_false]
        split <;> exact fence

theorem admitLane_fenced (fence : LaneFence w.lanes lane laneEpoch) (otherEpoch : Option String)
    (own : otherEpoch = none ∨ otherEpoch = laneEpoch ∨ w.epochLimitReached lane otherEpoch = true) :
    ∃ reason, w.admitLane lane otherEpoch = (some reason, w) := by
  unfold admitLane
  by_cases full : w.epochLimitReached lane otherEpoch
  · exact ⟨_, if_pos full⟩
  · have refused : (fenced (w.lanes.states.get? lane) &&
        (otherEpoch = none || otherEpoch = w.laneEpochOf lane)) = true := by
      have current : w.laneEpochOf lane = laneEpoch := fence.current
      rcases own with rfl | rfl | limit
      · simp [fence.state]
      · simp [fence.state, current]
      · exact absurd limit full
    rw [if_neg full, if_pos refused]
    exact ⟨_, rfl⟩

theorem admitLane_passes (seen : lane ∈ w.lanes.seen) (room : w.epochLimitReached lane laneEpoch = false)
    (down : fenced (w.lanes.states.get? lane) = false ∨
      (laneEpoch ≠ none ∧ laneEpoch ≠ w.laneEpochOf lane)) :
    w.admitLane lane laneEpoch =
      (none, if fenced (w.lanes.states.get? lane) then w.reactivate lane else w) := by
  unfold admitLane
  have passes : ¬(fenced (w.lanes.states.get? lane) &&
      (laneEpoch = none || laneEpoch = w.laneEpochOf lane)) = true := by
    rcases down with open_ | ⟨named, other⟩
    · simp [open_]
    · simp [named, other]
  rw [if_neg (by simp [room]), if_neg passes]
  by_cases reopened : fenced (w.lanes.states.get? lane)
  · have kept : lane ∈ (w.reactivate lane).lanes.seen := seen
    simp only [reopened, if_true, kept, not_true_eq_false, false_and, if_false]
  · simp [reopened, seen]

theorem admitDelivery_lanes (w : FlowWindow) (request : AdmitRequest) (granted : Bool) :
    let asked : FlowWindow := { w with lastRejectionReason := none }
    let checked := asked.checkLane request
    (w.closed = true ∧ (w.admitDelivery request granted).1 = none ∧
      (w.admitDelivery request granted).2.lanes = w.lanes) ∨
    (w.closed = false ∧ (w.admitDelivery request granted).1 = none ∧
      (w.admitDelivery request granted).2.lanes = checked.2.lanes) ∨
    (w.closed = false ∧ checked.1 = none ∧
      (w.admitDelivery request granted).2.lanes = (checked.2.enterDelivery request).lanes) := by
  intro asked checked
  unfold admitDelivery
  dsimp only
  split
  next closed => exact .inl ⟨closed, rfl, rfl⟩
  next opened =>
    have opened : w.closed = false := by simpa using opened
    split
    next reason after outcome =>
      have same : checked.2 = after := congrArg Prod.snd outcome
      exact .inr (.inl ⟨opened, rfl, by rw [same]; rfl⟩)
    next after outcome =>
      have same : checked.2 = after := congrArg Prod.snd outcome
      split
      · exact .inr (.inl ⟨opened, rfl, by rw [same]; rfl⟩)
      · split
        · exact .inr (.inl ⟨opened, rfl, by rw [same]; rfl⟩)
        · exact .inr (.inr ⟨opened, congrArg Prod.fst outcome, by rw [same]⟩)

/-- Nothing of `lane` under `laneEpoch` is admitted: the window is closed or the lane fenced. -/
def Fenced (w : FlowWindow) (lane : String) (laneEpoch : Option String) : Prop :=
  w.closed = true ∨ LaneFence w.lanes lane laneEpoch

/-- The calls that lift the fence of the retired `laneEpoch`: an admission for another epoch
of the lane that reaches the reactivation of the lane (whether or not a later check refuses
it), the registration of another epoch, and forgetting the settled lane. -/
def reopens (w : FlowWindow) (lane : String) (laneEpoch : Option String) : FlowOp → Prop
  | .admitDelivery request _ =>
    w.closed = false ∧ request.lane = some lane ∧ request.laneEpoch ≠ none ∧
      request.laneEpoch ≠ laneEpoch ∧ w.epochLimitReached lane request.laneEpoch = false
  | .registerLaneEpoch other otherEpoch =>
    w.closed = false ∧ other = lane ∧ otherEpoch ≠ laneEpoch ∧ validLane lane = true ∧
      otherEpoch.any (fun epoch => 4096 < epoch.length) = false ∧
      w.epochLimitReached lane otherEpoch = false
  | .pruneSettledLanes => w.closed = false ∧ lane ∈ w.settledLanes
  | _ => False

theorem admitDelivery_fenced
    (laneMode : w.laneMode = true) (fenced : w.Fenced lane laneEpoch) (request : AdmitRequest)
    (granted : Bool) (onLane : request.lane = some lane)
    (own : request.laneEpoch = none ∨ request.laneEpoch = laneEpoch ∨
      w.epochLimitReached lane request.laneEpoch = true) :
    (w.admitDelivery request granted).1 = none ∧
      (w.admitDelivery request granted).2.lanes = w.lanes := by
  have result := admitDelivery_lanes w request granted
  rcases fenced with shut | fence
  · rcases result with ⟨_, refused, kept⟩ | ⟨stillOpen, _⟩ | ⟨stillOpen, _⟩
    · exact ⟨refused, kept⟩
    · rw [shut] at stillOpen
      cases stillOpen
    · rw [shut] at stillOpen
      cases stillOpen
  · obtain ⟨reason, refusal⟩ := admitLane_fenced
      (w := { w with lastRejectionReason := none }) fence request.laneEpoch own
    have checked : ({ w with lastRejectionReason := none } : FlowWindow).checkLane request =
        (some reason, { w with lastRejectionReason := none }) := by
      unfold checkLane
      rw [onLane]
      dsimp only
      rw [if_pos laneMode]
      exact refusal
    simp only [checked] at result
    rcases result with ⟨_, refused, kept⟩ | ⟨_, refused, kept⟩ | ⟨_, none, _⟩
    · exact ⟨refused, kept⟩
    · exact ⟨refused, kept⟩
    · cases none

theorem admitDelivery_fence (laneMode : w.laneMode = true) (stillOpen : w.closed = false)
    (fence : LaneFence w.lanes lane laneEpoch) (request : AdmitRequest) (granted : Bool)
    (quiet : ¬w.reopens lane laneEpoch (.admitDelivery request granted)) :
    LaneFence (w.admitDelivery request granted).2.lanes lane laneEpoch := by
  by_cases onLane : request.lane = some lane
  · have own : request.laneEpoch = none ∨ request.laneEpoch = laneEpoch ∨
        w.epochLimitReached lane request.laneEpoch = true := by
      by_contra otherEpoch
      push Not at otherEpoch
      exact quiet ⟨stillOpen, onLane, otherEpoch.1, otherEpoch.2.1,
        by simpa using otherEpoch.2.2⟩
    exact (admitDelivery_fenced laneMode (.inr fence) request granted onLane own).2 ▸ fence
  · have checked : LaneFence
        (({ w with lastRejectionReason := none } : FlowWindow).checkLane request).2.lanes
        lane laneEpoch := by
      unfold checkLane
      split
      next other named =>
        have different : lane ≠ other := fun same => onLane (same ▸ named)
        rw [if_pos (show ({ w with lastRejectionReason := none } : FlowWindow).laneMode = true
          from laneMode)]
        exact admitLane_other (w := { w with lastRejectionReason := none }) fence different
      · exact fence
    rcases admitDelivery_lanes w request granted with
      ⟨_, _, kept⟩ | ⟨_, _, kept⟩ | ⟨_, _, kept⟩
    · exact kept ▸ fence
    · exact kept ▸ checked
    · rw [kept]
      cases named : request.lane with
      | none => simpa [enterDelivery, named] using checked
      | some other =>
        have different : lane ≠ other := fun same => onLane (same ▸ named)
        simpa [enterDelivery, named] using enrolLane_other checked different

theorem registerLaneEpoch_fence
    (stillOpen : w.closed = false) (fence : LaneFence w.lanes lane laneEpoch) (other : String)
    (otherEpoch : Option String) (quiet : ¬w.reopens lane laneEpoch (.registerLaneEpoch other otherEpoch)) :
    LaneFence (w.registerLaneEpoch other otherEpoch).2.lanes lane laneEpoch := by
  have current : w.laneEpochOf lane = laneEpoch := fence.current
  unfold registerLaneEpoch
  split
  · exact fence
  · split
    · exact fence
    next valid =>
      split
      · exact fence
      next short =>
        split
        · exact fence
        next replaced =>
          split
          · exact fence
          · split
            · exact fence
            next room =>
              have different : lane ≠ other := by
                intro same
                subst same
                refine quiet ⟨stillOpen, rfl, ?_, by simpa using valid, by simpa using short,
                  by simpa using room⟩
                intro own
                exact replaced (current.trans own.symm)
              refine ⟨Finset.mem_insert_of_mem fence.seen, ?_, ?_, ?_⟩
              · simp only [Dict.get?_set, different, if_false]
                exact fence.state
              · simp only [Dict.get?_set, different, if_false]
                exact fence.current
              · simp only [Dict.get?_setDefault, Prod.mk.injEq, different, false_and, if_false]
                exact fence.retired

theorem retireLane_fence (fence : LaneFence w.lanes lane laneEpoch) (epoch other : String)
    (retireToken : Option String) (finalPublishedId : Option Int) (otherEpoch : Option String)
    (fresh : String) :
    LaneFence (w.retireLane epoch other retireToken finalPublishedId otherEpoch fresh).2.lanes
      lane laneEpoch := by
  unfold retireLane
  split
  · exact fence
  · split
    · exact fence
    · split
      · exact fence
      · dsimp only
        split
        · exact fence
        · split
          · exact fence
          · refine ⟨fence.seen, ?_, fence.current, ?_⟩
            · simp only [Dict.get?_set]
              split
              · rfl
              · exact fence.state
            · simp only [Dict.get?_set]
              split
              · simp
              · exact fence.retired
        · split
          · exact fence
          · split <;> exact fence

theorem confirmLaneRetire_fence (fence : LaneFence w.lanes lane laneEpoch) (epoch other retireToken : String)
    (finalPublishedId : Int) (otherEpoch : Option String) :
    LaneFence (w.confirmLaneRetire epoch other retireToken finalPublishedId otherEpoch).2.lanes
      lane laneEpoch := by
  unfold confirmLaneRetire
  split
  · exact fence
  · have settled := (settleEach_only w
      (fun entry => ownedBy other (w.resolveEpoch other otherEpoch) entry && !entry.retiredUnsent)
      w.deliveries.keys).lanes
    refine ⟨?_, ?_, ?_, ?_⟩
    · simp only [settled]
      exact fence.seen
    · simp only [settled]
      split
      · simp only [Dict.get?_set]
        split
        · rfl
        · exact fence.state
      · exact fence.state
    · simp only [settled]
      exact fence.current
    · simp only [settled, Dict.get?_erase]
      split
      · simp
      · exact fence.retired

theorem step_fenced (w : FlowWindow) (op : FlowOp)
    (laneMode : w.laneMode = true) (fenced : w.Fenced lane laneEpoch)
    (quiet : ¬w.reopens lane laneEpoch op) : (w.step op).Fenced lane laneEpoch := by
  by_cases shut : w.closed = true
  · exact .inl (step_closed w op shut)
  rcases eq_or_ne op .close with rfl | notClosing
  · exact .inl ((step_settles { w with closed := true } .close (by simp)).closed rfl)
  have stillOpen : w.closed = false := by simpa using shut
  have fence : LaneFence w.lanes lane laneEpoch := fenced.resolve_left shut
  right
  by_cases untouched : ledgerOnly op = true
  · exact step_lanes w op untouched ▸ fence
  · cases op with
    | admitDelivery request granted =>
      exact admitDelivery_fence laneMode stillOpen fence request granted quiet
    | registerLaneEpoch other otherEpoch =>
      exact registerLaneEpoch_fence stillOpen fence other otherEpoch quiet
    | acknowledgeLane epoch other laneSequence =>
      simp only [step, acknowledgeLane]
      split
      · exact fence
      · split
        · exact fence
        · have settled := (settleEach_only w (coveredBy other laneSequence) w.deliveries.keys).lanes
          exact ⟨settled ▸ fence.seen, settled ▸ fence.state, settled ▸ fence.current,
            settled ▸ fence.retired⟩
    | acknowledgeLaneDelivery epoch other through otherEpoch =>
      simp only [step, acknowledgeLaneDelivery]
      split
      · exact fence
      · split
        · exact fence
        · have settled := (settleEach_only w (ownedBy other (w.resolveEpoch other otherEpoch))
            (w.deliveries.keys.takeWhile (· ≤ through))).lanes
          exact ⟨settled ▸ fence.seen, settled ▸ fence.state, settled ▸ fence.current,
            settled ▸ fence.retired⟩
    | retireLane epoch other retireToken finalPublishedId otherEpoch fresh =>
      exact retireLane_fence fence epoch other retireToken finalPublishedId otherEpoch fresh
    | confirmLaneRetire epoch other retireToken finalPublishedId otherEpoch =>
      exact confirmLaneRetire_fence fence epoch other retireToken finalPublishedId otherEpoch
    | pruneSettledLanes =>
      apply forgetLanes_other fence
      exact fun settled => quiet ⟨stillOpen, settled⟩
    | close => exact absurd rfl notClosing
    | _ => exact absurd rfl untouched

/-- A successful retirement fences the lane when it names the current epoch, which is active
or whose lane is still fenced by an earlier retirement. -/
def retirementFences (w : FlowWindow) (lane : String) (laneEpoch : Option String) : Prop :=
  w.closed = true ∨
  w.laneEpochOf lane = laneEpoch ∧
    (w.lanes.epochStates.get? (lane, laneEpoch) = some .active ∨
      fenced (w.lanes.states.get? lane) = true)

theorem retireLane_closed (w : FlowWindow) (epoch lane : String) (retireToken : Option String)
    (finalPublishedId : Option Int) (laneEpoch : Option String) (fresh : String) :
    (w.retireLane epoch lane retireToken finalPublishedId laneEpoch fresh).2.closed = w.closed := by
  unfold retireLane
  dsimp only
  repeat' split
  all_goals rfl

/-- What a successful `retireLane` leaves behind: either it fences an active epoch, or it
repeats the receipt of a retired one. -/
theorem retireLane_succeeded {epoch lane : String} {retireToken : Option String}
    {finalPublishedId : Option Int} {fresh token : String}
    (succeeded : (w.retireLane epoch lane retireToken finalPublishedId laneEpoch fresh).1 =
      .ok token) :
    let retired := (w.retireLane epoch lane retireToken finalPublishedId laneEpoch fresh).2
    let key := (lane, w.resolveEpoch lane laneEpoch)
    lane ∈ retired.lanes.seen ∧ retired.laneEpochOf lane = w.laneEpochOf lane ∧
    (w.lanes.epochStates.get? key = some .active ∧
        retired.lanes.states.get? lane = some .retired ∧
        retired.lanes.epochStates.get? key = some .retired ∨
      w.lanes.epochStates.get? key ≠ some .active ∧ w.lanes.epochStates.get? key ≠ none ∧
        retired = w) := by
  unfold retireLane at succeeded ⊢
  split at succeeded
  · cases succeeded
  next sameEpoch =>
    split at succeeded
    · cases succeeded
    next valid =>
      split at succeeded
      · cases succeeded
      next seen =>
        have seen : lane ∈ w.lanes.seen := not_not.mp seen
        rw [if_neg sameEpoch, if_neg valid, if_neg (not_not.mpr seen)]
        dsimp only at succeeded ⊢
        split at succeeded
        · cases succeeded
        next active =>
          split at succeeded
          · cases succeeded
          next tokenFits =>
            simp only [active, if_neg tokenFits]
            exact ⟨seen, rfl, .inl (by simp)⟩
        next state notActive found =>
          have different : state ≠ .active := notActive
          split at succeeded
          · cases succeeded
          next tokenSame =>
            split at succeeded
            · cases succeeded
            next finalSame =>
              rw [found]
              cases state with
              | active => exact absurd rfl different
              | retired =>
                simp only [if_neg tokenSame, if_neg finalSame]
                exact ⟨seen, by simp⟩
              | closed =>
                simp only [if_neg tokenSame, if_neg finalSame]
                exact ⟨seen, by simp⟩

theorem retireLane_fenced {epoch lane : String} {retireToken : Option String}
    {finalPublishedId : Option Int} {fresh token : String}
    (succeeded : (w.retireLane epoch lane retireToken finalPublishedId laneEpoch fresh).1 =
      .ok token)
    (fences : w.retirementFences lane (w.resolveEpoch lane laneEpoch)) :
    (w.retireLane epoch lane retireToken finalPublishedId laneEpoch fresh).2.Fenced lane
      (w.resolveEpoch lane laneEpoch) := by
  obtain ⟨seen, current, outcome⟩ := retireLane_succeeded succeeded
  rcases fences with shut | ⟨named, holding⟩
  · exact .inl ((retireLane_closed ..).trans shut)
  · right
    rcases outcome with ⟨_, state, retired⟩ | ⟨notActive, _, same⟩
    · exact ⟨seen, by rw [state]; rfl, current.trans named, by rw [retired]; simp⟩
    · rw [same] at seen ⊢
      exact ⟨seen, holding.resolve_left notActive, named, notActive⟩

-- An admission for `lane` under `laneEpoch` that the fence alone could refuse.
structure FindsRoom (w : FlowWindow) (lane : String) (laneEpoch : Option String)
    (request : AdmitRequest) (granted : Bool) : Prop where
  onLane : request.lane = some lane
  ofEpoch : request.laneEpoch = laneEpoch
  slot : w.epochLimitReached lane laneEpoch = false
  window : w.admitWindow request = none
  reserved : request.preReserved = true ∨ granted = true

theorem admitDelivery_granted {request : AdmitRequest} {granted : Bool} (laneMode : w.laneMode = true)
    (stillOpen : w.closed = false) (seen : lane ∈ w.lanes.seen)
    (down : fenced (w.lanes.states.get? lane) = false ∨
      (laneEpoch ≠ none ∧ laneEpoch ≠ w.laneEpochOf lane))
    (room : w.FindsRoom lane laneEpoch request granted) :
    (w.admitDelivery request granted).1 = some w.nextId := by
  have passed := admitLane_passes (w := { w with lastRejectionReason := none })
    seen room.slot down
  obtain ⟨lanes, same⟩ : ∃ lanes, (if fenced (w.lanes.states.get? lane) then
      ({ w with lastRejectionReason := none } : FlowWindow).reactivate lane
      else { w with lastRejectionReason := none }) =
        { w with lanes := lanes, lastRejectionReason := none } := by
    split
    · exact ⟨_, rfl⟩
    · exact ⟨_, rfl⟩
  rw [same] at passed
  have checked : ({ w with lastRejectionReason := none } : FlowWindow).checkLane request =
      (none, { w with lanes := lanes, lastRejectionReason := none }) := by
    unfold checkLane
    rw [room.onLane, room.ofEpoch]
    dsimp only
    rw [if_pos laneMode]
    exact passed
  have window : ({ w with lanes := lanes, lastRejectionReason := none } : FlowWindow).admitWindow
      request = none := room.window
  have reserved : ¬(!request.preReserved && !granted) = true := by
    rcases room.reserved with held | held <;> simp [held]
  unfold admitDelivery
  dsimp only
  rw [if_neg (by simp [stillOpen]), checked]
  dsimp only
  rw [window]
  dsimp only
  rw [if_neg reserved]

theorem reopens_active (laneMode : w.laneMode = true) (fence : LaneFence w.lanes lane laneEpoch) (op : FlowOp)
    (reopened : w.reopens lane laneEpoch op) (notPruned : op ≠ .pruneSettledLanes) :
    (w.step op).closed = false ∧ lane ∈ (w.step op).lanes.seen ∧
      (w.step op).lanes.states.get? lane = some .active := by
  have current : w.laneEpochOf lane = laneEpoch := fence.current
  cases op with
  | admitDelivery request granted =>
    obtain ⟨stillOpen, onLane, named, other, slot⟩ := reopened
    have checked : ({ w with lastRejectionReason := none } : FlowWindow).checkLane request =
        (none, ({ w with lastRejectionReason := none } : FlowWindow).reactivate lane) := by
      have passed := admitLane_passes (w := { w with lastRejectionReason := none }) fence.seen slot
        (.inr ⟨named, fun same => other (same.trans current)⟩)
      rw [if_pos fence.state] at passed
      unfold checkLane
      rw [onLane]
      dsimp only
      rw [if_pos laneMode]
      exact passed
    have closed : (w.admitDelivery request granted).2.closed = w.closed := by
      rcases admitDelivery_cases w request granted with
        ⟨lanes, reason, refused⟩ | ⟨lanes, _, _, _, entered⟩
      · rw [refused]
      · rw [entered]
        rfl
    refine ⟨closed.trans stillOpen, ?_⟩
    simp only [step]
    have result := admitDelivery_lanes w request granted
    simp only [checked] at result
    rcases result with ⟨shut, _⟩ | ⟨_, _, lanes⟩ | ⟨_, _, lanes⟩
    · rw [stillOpen] at shut
      cases shut
    · rw [lanes]
      exact ⟨fence.seen, by simp [reactivate]⟩
    · rw [lanes]
      simp only [enterDelivery, onLane]
      exact ⟨Finset.mem_insert_self _ _, by simp [enrolLane, reactivate]⟩
  | registerLaneEpoch otherLane otherEpoch =>
    obtain ⟨stillOpen, rfl, other, valid, short, slot⟩ := reopened
    have replaceable : ¬(w.laneEpochOf otherLane ≠ none ∧
        ¬fenced (w.lanes.epochStates.get? (otherLane, w.laneEpochOf otherLane)) ∧
        ¬(w.lanes.epochStates.get? (otherLane, w.laneEpochOf otherLane) = none ∧
          fenced (w.lanes.states.get? otherLane))) := by
      rw [current]
      rintro ⟨_, notFenced, notForgotten⟩
      cases state : w.lanes.epochStates.get? (otherLane, laneEpoch) with
      | none => exact notForgotten ⟨state, fence.state⟩
      | some held =>
        cases held with
        | active => exact fence.retired state
        | retired => exact notFenced (by rw [state]; rfl)
        | closed => exact notFenced (by rw [state]; rfl)
    simp only [step, registerLaneEpoch]
    rw [if_neg (by simp [laneMode]), if_neg (by simp [valid]), if_neg (by simp [short]),
      if_neg (by rw [current]; exact fun same => other same.symm), if_neg replaceable,
      if_neg (by simp [slot])]
    exact ⟨stillOpen, Finset.mem_insert_self _ _, by simp⟩
  | pruneSettledLanes => exact absurd rfl notPruned
  | _ => exact reopened.elim

instance (w : FlowWindow) (lane : String) (laneEpoch : Option String) (op : FlowOp) :
    Decidable (w.reopens lane laneEpoch op) :=
  match op with
  | .admitDelivery .. => inferInstanceAs (Decidable (_ ∧ _ ∧ _ ∧ _ ∧ _))
  | .registerLaneEpoch .. => inferInstanceAs (Decidable (_ ∧ _ ∧ _ ∧ _ ∧ _ ∧ _))
  | .pruneSettledLanes => inferInstanceAs (Decidable (_ ∧ _))
  | .claim .. | .markSending .. | .markSent .. | .markSendFinished .. => instDecidableFalse
  | .discardRetiredQueued .. | .stage .. | .acknowledge .. | .acknowledgeLane .. =>
    instDecidableFalse
  | .acknowledgeLaneDelivery .. | .retireLane .. | .confirmLaneRetire .. | .close =>
    instDecidableFalse

theorem run_laneMode (w : FlowWindow) (ops : List FlowOp) : (run step w ops).laneMode = w.laneMode := by
  refine run_invariant (fun (state : FlowWindow) => state.laneMode = w.laneMode) ?_ rfl ops
  intro state op same
  exact (step_config state op).2.trans same

theorem run_fenced (laneMode : w.laneMode = true) (fenced : w.Fenced lane laneEpoch) (ops : List FlowOp)
    (quiet : Along step (fun state op => ¬state.reopens lane laneEpoch op) w ops) :
    (run step w ops).Fenced lane laneEpoch := by
  have kept := run_invariant_along
    (fun (state : FlowWindow) => state.laneMode = true ∧ state.Fenced lane laneEpoch)
    (fun state op holds allowed => ⟨(step_config state op).2.trans holds.1,
      step_fenced state op holds.1 holds.2 allowed⟩) ⟨laneMode, fenced⟩ ops quiet
  exact kept.2

theorem reopens_open {op : FlowOp} (reopened : w.reopens lane laneEpoch op) : w.closed = false := by
  cases op with
  | admitDelivery request granted => exact reopened.1
  | registerLaneEpoch other otherEpoch => exact reopened.1
  | pruneSettledLanes => exact reopened.1
  | _ => exact reopened.elim

/-- A retired lane accepts its old epoch after an admission for a newer epoch that was
itself refused by the wire limit. -/
theorem retired_epoch_readmitted :
    let delivery (size : Int) (laneEpoch : String) : FlowOp :=
      .admitDelivery { size := size, lane := some "a", laneEpoch := some laneEpoch } true
    let before := run step (init "delivery" 2 false true 4) [delivery 100 "old"]
    let retired := (before.retireLane "delivery" "a" none none (some "old") "token")
    let between := [delivery (maxWireBytes + 64) "new"]
    retired.1 = .ok "token" ∧
    ((run step retired.2 between).admitDelivery
      { size := 100, lane := some "a", laneEpoch := some "old" } true).1 = some 2 := by
  decide

/-- The fence of a successful retirement holds along a run exactly as long as no call
reopens the lane: until then every admission of the retired epoch is refused, and right
after such a call, or after a retirement that fenced nothing, one that finds room is
granted. -/
theorem retired_epoch_refused_until_reopened (connection : String) (recoveryLimit : Int)
    (hasOnStage : Bool) (laneLimit : Int) (earlier : List FlowOp) (epoch lane : String)
    (retireToken : Option String) (finalPublishedId : Option Int) (laneEpoch : Option String)
    (fresh token : String) :
    let before := run step (init connection recoveryLimit hasOnStage true laneLimit) earlier
    let outcome := before.retireLane epoch lane retireToken finalPublishedId laneEpoch fresh
    let retiredEpoch := before.resolveEpoch lane laneEpoch
    outcome.1 = .ok token →
    (before.retirementFences lane retiredEpoch → ∀ between,
      Along step (fun w op => ¬w.reopens lane retiredEpoch op) outcome.2 between →
      (∀ request granted, request.lane = some lane → request.laneEpoch = retiredEpoch →
        ((run step outcome.2 between).admitDelivery request granted).1 = none) ∧
      ∀ op, (run step outcome.2 between).reopens lane retiredEpoch op → op ≠ .pruneSettledLanes →
        let reopened := run step outcome.2 (between ++ [op])
        ∀ request granted, reopened.FindsRoom lane retiredEpoch request granted →
          (reopened.admitDelivery request granted).1 = some reopened.nextId) ∧
    (¬before.retirementFences lane retiredEpoch → ∀ request granted,
      outcome.2.FindsRoom lane retiredEpoch request granted →
        (outcome.2.admitDelivery request granted).1 = some outcome.2.nextId) := by
  intro before outcome retiredEpoch succeeded
  have laneMode : before.laneMode = true := run_laneMode _ earlier
  have stillLaneMode : outcome.2.laneMode = true :=
    (step_config before
      (.retireLane epoch lane retireToken finalPublishedId laneEpoch fresh)).2.trans laneMode
  constructor
  · intro fences between quiet
    have fenced := run_fenced stillLaneMode (retireLane_fenced succeeded fences) between quiet
    have runLaneMode := (run_laneMode outcome.2 between).trans stillLaneMode
    refine ⟨?_, ?_⟩
    · intro request granted onLane ofEpoch
      exact (admitDelivery_fenced runLaneMode fenced request granted onLane
        (.inr (.inl ofEpoch))).1
    · intro op reopening notPruned reopened request granted room
      have after : reopened = (run step outcome.2 between).step op := run_append step _ between [op]
      have fence := fenced.resolve_left (by simp [reopens_open reopening])
      obtain ⟨stillOpen, seen, active⟩ := reopens_active runLaneMode fence op reopening notPruned
      rw [after] at room ⊢
      exact admitDelivery_granted ((step_config _ op).2.trans runLaneMode) stillOpen seen
        (.inl (by rw [active]; rfl)) room
  · intro notFencing request granted room
    simp only [retirementFences, not_or, not_and] at notFencing
    obtain ⟨notClosed, notHolding⟩ := notFencing
    have stillOpen : outcome.2.closed = false :=
      (retireLane_closed ..).trans (by simpa using notClosed)
    obtain ⟨seen, current, state⟩ := retireLane_succeeded succeeded
    refine admitDelivery_granted stillLaneMode stillOpen seen ?_ room
    by_cases named : before.laneEpochOf lane = retiredEpoch
    · left
      obtain ⟨notActive, notFenced⟩ := notHolding named
      rcases state with ⟨active, _⟩ | ⟨_, _, same⟩
      · exact absurd active notActive
      · have same : outcome.2 = before := same
        rw [same]
        simpa using notFenced
    · -- an epoch that is not the current one was named by the caller
      right
      refine ⟨fun absent => named ?_, fun same => named (current.symm.trans same.symm)⟩
      have resolved : before.resolveEpoch lane laneEpoch = none := absent
      simp only [resolveEpoch, Option.or_eq_none_iff] at resolved
      exact resolved.2.trans absent.symm

theorem retired_epoch_refused_after_acknowledgement :
    let before := run step (init "delivery" 2 false true 4)
      [.admitDelivery { size := 100, lane := some "a", laneEpoch := some "old" } true, .markSent 1]
    let outcome := before.retireLane "delivery" "a" none none (some "old") "token"
    let between : List FlowOp :=
      [.acknowledge "delivery" 1, .confirmLaneRetire "delivery" "a" "token" 1 (some "old")]
    ((run step outcome.2 between).admitDelivery
      { size := 100, lane := some "a", laneEpoch := some "old" } true).1 = none :=
  ((retired_epoch_refused_until_reopened "delivery" 2 false 4
    [.admitDelivery { size := 100, lane := some "a", laneEpoch := some "old" } true, .markSent 1]
    "delivery" "a" none none (some "old") "token" "token" (by decide)).1
    (.inr (by decide))
    [.acknowledge "delivery" 1, .confirmLaneRetire "delivery" "a" "token" 1 (some "old")]
    ⟨by decide, by decide, trivial⟩).1 _ true rfl (by decide)

end FlowWindow

end OpenSquilla.Transport
