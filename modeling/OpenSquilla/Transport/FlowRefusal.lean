import OpenSquilla.Shared.Runs
import OpenSquilla.Transport.FlowWindow

set_option autoImplicit false

namespace OpenSquilla.Transport.FlowWindow

open Runs

-- The frame brings a replacement epoch to a fenced lane of an open window.
def Reactivates (w : FlowWindow) (request : AdmitRequest) : Prop :=
  w.closed = false ∧ w.laneMode = true ∧ ∃ lane ∈ request.lane,
    w.epochLimitReached lane request.laneEpoch = false ∧ fenced (w.lanes.states.get? lane) = true ∧
      request.laneEpoch ≠ none ∧ request.laneEpoch ≠ w.laneEpochOf lane

theorem checkLane_cases (w : FlowWindow) (request : AdmitRequest) (isOpen : w.closed = false) :
    (¬w.Reactivates request ∧ (w.checkLane request).2 = w) ∨
    (w.Reactivates request ∧ ∃ lane, fenced (w.lanes.states.get? lane) = true ∧
      (w.checkLane request).2 = w.reactivate lane) := by
  unfold checkLane
  split
  next lane named =>
    split
    next laneMode =>
      have here : ∀ {condition : Prop}, (w.Reactivates request → condition) ↔
          (w.epochLimitReached lane request.laneEpoch = false ∧ fenced (w.lanes.states.get? lane) = true ∧
            request.laneEpoch ≠ none ∧ request.laneEpoch ≠ w.laneEpochOf lane → condition) := by
        intro condition
        simp [Reactivates, isOpen, laneMode, named]
      unfold admitLane
      split
      next limit =>
        refine .inl ⟨here.2 fun reactivates => ?_, rfl⟩
        rw [limit] at reactivates
        cases reactivates.1
      next room =>
        rw [Bool.not_eq_true] at room
        split
        next refused =>
          simp only [Bool.and_eq_true, Bool.or_eq_true, decide_eq_true_eq] at refused
          refine .inl ⟨here.2 fun reactivates => ?_, rfl⟩
          obtain none | same := refused.2
          · exact reactivates.2.2.1 none
          · exact reactivates.2.2.2 same
        next passed =>
          dsimp only
          by_cases fence : fenced (w.lanes.states.get? lane) = true
          · simp only [fence, Bool.true_and, Bool.or_eq_true, decide_eq_true_eq, not_or] at passed
            refine .inr ⟨⟨isOpen, laneMode, lane, named, room, fence, passed⟩, lane, fence, ?_⟩
            rw [if_pos fence]
            split
            · rfl
            · rfl
          · refine .inl ⟨here.2 fun reactivates => fence reactivates.2.1, ?_⟩
            rw [if_neg fence]
            split
            · rfl
            · rfl
    next laneMode =>
      refine .inl ⟨?_, rfl⟩
      rintro ⟨-, on, -⟩
      exact laneMode on
  next named =>
    refine .inl ⟨?_, rfl⟩
    rintro ⟨-, -, lane, mem, -⟩
    rw [named] at mem
    cases mem

theorem reactivate_lanes_ne {w : FlowWindow} {lane : String}
    (fence : fenced (w.lanes.states.get? lane) = true) : (w.reactivate lane).lanes ≠ w.lanes := by
  intro same
  have active : (w.reactivate lane).lanes.states.get? lane = some .active := by
    dsimp only [reactivate]
    rw [Dict.get?_set, if_pos rfl]
  rw [same] at active
  rw [active] at fence
  cases fence

def cleared (w : FlowWindow) : FlowWindow := { w with lastRejectionReason := none }

theorem admitDelivery_eq (w : FlowWindow) (request : AdmitRequest) (granted : Bool) :
    w.admitDelivery request granted =
      if w.closed then w.cleared.reject .flowClosed
      else
        match w.cleared.checkLane request with
        | (some reason, next) => next.reject reason
        | (none, next) =>
          match next.admitWindow request with
          | some reason => next.reject reason
          | none =>
            if !request.preReserved && !granted then next.reject .transportReservationRejected
            else (some next.nextId, next.enterDelivery request) := rfl

theorem admitDelivery_refused {w : FlowWindow} {request : AdmitRequest} {granted : Bool}
    (refused : (w.admitDelivery request granted).1 = none) :
    (w.closed = true ∧ (w.admitDelivery request granted).2 = (w.reject .flowClosed).2) ∨
    (w.closed = false ∧ ∃ reason,
      (w.admitDelivery request granted).2 = ((w.cleared.checkLane request).2.reject reason).2) := by
  rw [admitDelivery_eq] at refused ⊢
  cases shut : w.closed with
  | true => exact .inl ⟨rfl, rfl⟩
  | false =>
    refine .inr ⟨rfl, ?_⟩
    rw [shut, if_neg Bool.false_ne_true] at refused
    rw [if_neg Bool.false_ne_true]
    generalize w.cleared.checkLane request = checked at refused ⊢
    obtain ⟨reason, next⟩ := checked
    cases reason with
    | some reason => exact ⟨reason, rfl⟩
    | none =>
      dsimp only at refused ⊢
      cases window : next.admitWindow request with
      | some reason => exact ⟨reason, rfl⟩
      | none =>
        rw [window] at refused
        dsimp only at refused ⊢
        split at refused
        next denied =>
          rw [if_pos denied]
          exact ⟨.transportReservationRejected, rfl⟩
        next => cases refused

/-- A refused frame reserves nothing, and it leaves all of the window but the reason as it was exactly when
it brings no replacement epoch to a fenced lane. -/
theorem refused_admission_changes_nothing (w : FlowWindow) (request : AdmitRequest) (granted : Bool)
    (refused : (w.admitDelivery request granted).1 = none) :
    (w.admitDelivery request granted).2.trace = w.trace ∧
      ((∃ reason, (w.admitDelivery request granted).2 = { w with lastRejectionReason := reason }) ↔
        ¬w.Reactivates request) := by
  obtain ⟨shut, left⟩ | ⟨isOpen, reason, left⟩ := admitDelivery_refused refused
  · rw [left]
    refine ⟨rfl, iff_of_true ⟨some .flowClosed, rfl⟩ ?_⟩
    rintro ⟨isOpen, -⟩
    rw [shut] at isOpen
    cases isOpen
  · rw [left]
    obtain ⟨still, same⟩ | ⟨reactivates, lane, fence, same⟩ := checkLane_cases w.cleared request isOpen
    · rw [same]
      exact ⟨rfl, iff_of_true ⟨some reason, rfl⟩ still⟩
    · rw [same]
      refine ⟨rfl, iff_of_false ?_ (fun still => still reactivates)⟩
      rintro ⟨other, unchanged⟩
      -- the reactivated lane tells the two windows apart
      have lanes : ((w.cleared.reactivate lane).reject reason).2.lanes = w.lanes := by rw [unchanged]
      exact reactivate_lanes_ne fence lanes

def retiredWindow : FlowWindow :=
  run step (init "e" 1 false true 4) [
    .admitDelivery { size := 100, lane := some "a", laneEpoch := some "old" } true,
    .retireLane "e" "a" none none (some "old") "token"]

/-- A frame of a replacement epoch, too large for the wire, is refused, and the retired lane is active. -/
theorem refused_frame_reactivates : (retiredWindow.admitDelivery
      { size := maxWireBytes + 64, lane := some "a", laneEpoch := some "new" } true).1 = none ∧
    ¬∃ reason, (retiredWindow.admitDelivery
      { size := maxWireBytes + 64, lane := some "a", laneEpoch := some "new" } true).2 =
        { retiredWindow with lastRejectionReason := reason } := by
  refine ⟨by decide, ?_⟩
  rintro ⟨reason, unchanged⟩
  have active : (retiredWindow.admitDelivery
      { size := maxWireBytes + 64, lane := some "a", laneEpoch := some "new" } true).2.lanes.states.get? "a" =
      retiredWindow.lanes.states.get? "a" := by
    rw [unchanged]
  exact absurd active (by decide)

theorem refused_frame_of_the_retired_epoch : ∃ reason, (retiredWindow.admitDelivery
      { size := 100, lane := some "a", laneEpoch := some "old" } true).2 =
        { retiredWindow with lastRejectionReason := reason } := by
  apply ((refused_admission_changes_nothing _ _ _ (by decide)).2).2
  rintro ⟨-, -, lane, named, -, -, -, replaces⟩
  cases named
  exact replaces (by decide)

end OpenSquilla.Transport.FlowWindow
