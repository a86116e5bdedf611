import OpenSquilla.Shared.Runs
import OpenSquilla.Transport.FlowEffects

set_option autoImplicit false

namespace OpenSquilla.Transport

open CreditLedger Runs

namespace FlowWindow

def reservedBytes (w : FlowWindow) (recovery : Bool) : Int := total recovery w.ledger.opened

def releasedBytes (w : FlowWindow) (recovery : Bool) : Int := total recovery w.ledger.settled

def heldBytes (w : FlowWindow) (recovery : Bool) : Int :=
  sizes (w.deliveries.values.filter (fun entry => entry.recovery = recovery))

theorem heldBytes_eq_total (w : FlowWindow) (recovery : Bool) :
    w.heldBytes recovery = total recovery w.ledger.held := by
  simp only [heldBytes, sizes, total, ledger, Dict.values, List.filter_map, List.map_map]
  rfl

-- The ledger of the window balances, and delivery ids are handed out in order.
structure Accounted (w : FlowWindow) : Prop where
  balanced : w.ledger.Balanced
  issued : ∀ credit ∈ w.ledger.opened, credit.id < w.nextId
  present : ∀ id ∈ w.deliveries.keys, id < w.nextId

theorem init_accounted (epoch : String) (recoveryLimit : Int) (hasOnStage laneMode : Bool)
    (laneLimit : Int) : (init epoch recoveryLimit hasOnStage laneMode laneLimit).Accounted where
  balanced := empty_balanced
  issued := by simp [init, ledger]
  present := by simp [init, Dict.keys]

theorem nextId_absent {w : FlowWindow} (accounted : w.Accounted) : w.nextId ∉ w.deliveries.keys :=
  fun mem => lt_irrefl _ (accounted.present _ mem)

theorem enterDelivery_accounted (w : FlowWindow) (request : AdmitRequest)
    (accounted : w.Accounted) : (w.enterDelivery request).Accounted := by
  have absent := nextId_absent accounted
  have entries : (w.enterDelivery request).deliveries.entries =
      w.deliveries.entries ++ [(w.nextId, w.admittedDelivery request)] :=
    Dict.entries_set_of_absent _ _ _ absent
  let credit : Credit := ⟨w.nextId, request.recovery, request.size⟩
  have after : (w.enterDelivery request).ledger =
      { w.ledger with
        opened := w.ledger.opened ++ [credit]
        held := w.ledger.held ++ [credit] } := by
    simp only [ledger, entries, List.map_append]
    simp [enterDelivery, FlowEvent.opened?, FlowEvent.settled?, creditOf, admittedDelivery, credit]
  have fresh : credit.id ∉ w.ledger.opened.map Entry.id := by
    intro mem
    obtain ⟨earlier, opened, same⟩ := List.mem_map.mp mem
    have below := accounted.issued earlier opened
    simp only [credit] at same
    omega
  refine ⟨?_, ?_, ?_⟩
  · rw [after]
    exact (Step.opens w.ledger credit fresh).balanced accounted.balanced
  · intro entry mem
    rw [after] at mem
    show entry.id < w.nextId + 1
    rcases List.mem_append.mp mem with earlier | last
    · have below := accounted.issued entry earlier
      omega
    · obtain rfl := List.mem_singleton.mp last
      show w.nextId < w.nextId + 1
      omega
  · intro id mem
    show id < w.nextId + 1
    rw [Dict.keys, entries, List.map_append, List.mem_append] at mem
    rcases mem with earlier | last
    · have below := accounted.present id earlier
      omega
    · simp only [List.map_cons, List.map_nil, List.mem_singleton] at last
      omega

theorem Settles.accounted {before after : FlowWindow} (settles : Settles before after)
    (accounted : before.Accounted) : after.Accounted where
  balanced := settles.steps.balanced accounted.balanced
  issued := by
    rw [settles.opened, settles.nextId]
    exact accounted.issued
  present := by
    intro id mem
    have before : id ∈ before.deliveries.keys := by
      have ids : after.deliveries.keys.Sublist before.deliveries.keys := by
        simpa [FlowWindow.frames, frameOf, Dict.keys, Function.comp_def] using settles.frames.map Frame.id
      exact ids.subset mem
    rw [settles.nextId]
    exact accounted.present id before

theorem step_accounted (w : FlowWindow) (op : FlowOp) (accounted : w.Accounted) : (w.step op).Accounted := by
  by_cases notAdmitted : ∀ request granted, op ≠ .admitDelivery request granted
  · exact (step_settles w op notAdmitted).accounted accounted
  · push Not at notAdmitted
    obtain ⟨request, granted, rfl⟩ := notAdmitted
    have rest : ∀ lanes reason,
        ({ w with lanes := lanes, lastRejectionReason := reason } : FlowWindow).Accounted :=
      fun lanes reason => ⟨accounted.balanced, accounted.issued, accounted.present⟩
    rcases admitDelivery_cases w request granted with
      ⟨lanes, reason, refused⟩ | ⟨lanes, _, _, _, entered⟩
    · simp only [step, refused]
      exact rest lanes (some reason)
    · simp only [step, entered]
      exact enterDelivery_accounted _ request (rest lanes none)

/-- After `close` the window only drains: nothing is admitted, and what is left was
acknowledged while its physical write was still unwinding. -/
structure Draining (w : FlowWindow) : Prop where
  closed : w.closed = true
  acknowledged : ∀ id entry, w.deliveries.get? id = some entry → entry.acknowledged = true

theorem close_draining (w : FlowWindow) : w.close.Draining where
  closed := (step_settles { w with closed := true } .close (by simp)).closed rfl
  acknowledged := by
    intro id entry found
    rw [get?_close] at found
    obtain ⟨old, _, kept⟩ := Option.bind_eq_some_iff.mp found
    unfold closeAct at kept
    split at kept
    · obtain rfl := Option.some.inj kept
      rfl
    · cases kept

theorem step_survivors (w : FlowWindow) (draining : w.Draining) (op : FlowOp) (id : Int)
    (entry : Delivery) (found : (w.step op).deliveries.get? id = some entry) :
    ∃ old, w.deliveries.get? id = some old ∧ (old.acknowledged → entry.acknowledged) := by
  by_cases notAdmitted : ∀ request granted, op ≠ .admitDelivery request granted
  · exact (step_settles w op notAdmitted).survivors id entry found
  · push Not at notAdmitted
    obtain ⟨request, granted, rfl⟩ := notAdmitted
    rcases admitDelivery_cases w request granted with
      ⟨lanes, reason, refused⟩ | ⟨lanes, stillOpen, _⟩
    · simp only [step, refused] at found
      exact ⟨entry, found, fun kept => kept⟩
    · rw [draining.closed] at stillOpen
      cases stillOpen

theorem step_draining (w : FlowWindow) (draining : w.Draining) (op : FlowOp) : (w.step op).Draining where
  closed := step_closed w op draining.closed
  acknowledged := by
    intro id entry found
    obtain ⟨old, present, kept⟩ := step_survivors w draining op id entry found
    exact kept (draining.acknowledged id old present)

-- The two ways the writer reports that the physical write of a delivery is over.
def finishes (id : Int) (op : FlowOp) : Prop := op = .markSent id ∨ op = .markSendFinished id

theorem finishes_gone (w : FlowWindow) (draining : w.Draining) (id : Int) (op : FlowOp)
    (finish : finishes id op) : (w.step op).deliveries.get? id = none := by
  have released : ∀ v : FlowWindow, (v.releaseDelivery id).deliveries.get? id = none := by
    intro v
    simp [get?_releaseDelivery]
  rcases finish with rfl | rfl
  · simp only [step, markSent]
    split
    next missing => exact missing
    next delivery found =>
      simp only [draining.acknowledged id delivery found, if_true]
      exact released _
  · simp only [step, markSendFinished]
    split
    next missing => exact missing
    next delivery found =>
      simp only [draining.acknowledged id delivery found, Bool.or_true, if_true]
      exact released _

theorem run_gone (more : List FlowOp) (id : Int) (w : FlowWindow) (draining : w.Draining)
    (gone : w.deliveries.get? id = none ∨ ∃ op ∈ more, finishes id op) :
    (run step w more).deliveries.get? id = none := by
  induction more generalizing w with
  | nil => simpa using gone
  | cons op rest ih =>
    apply ih (w.step op) (step_draining w draining op)
    rcases gone with absent | ⟨last, mem, finish⟩
    · left
      cases found : (w.step op).deliveries.get? id with
      | none => rfl
      | some entry =>
        obtain ⟨old, present, _⟩ := step_survivors w draining op id entry found
        rw [absent] at present
        cases present
    · rcases List.mem_cons.mp mem with rfl | later
      · exact .inl (finishes_gone w draining id last finish)
      · exact .inr ⟨last, later, finish⟩

theorem close_drains (w : FlowWindow) (more : List FlowOp)
    (finished : ∀ id entry, w.deliveries.get? id = some entry → entry.sending = true →
      entry.sent = false → ∃ op ∈ more, finishes id op) :
    (run step w.close more).deliveries.entries = [] := by
  apply List.eq_nil_iff_forall_not_mem.mpr
  intro ⟨id, entry⟩ mem
  have found := (Dict.get?_eq_some_iff _ _ _).mpr mem
  rw [run_gone more id w.close (close_draining w)] at found
  · cases found
  · rw [get?_close]
    cases present : w.deliveries.get? id with
    | none => exact .inl rfl
    | some old =>
      by_cases inFlight : (old.sending && !old.sent) = true
      · simp only [Bool.and_eq_true, Bool.not_eq_true'] at inFlight
        exact .inr (finished id old present inFlight.1 inFlight.2)
      · left
        simp [closeAct, inFlight]

/-- Every byte reserved for an admitted delivery is in the ledger or was returned, once and
through the callback of the delivery's own kind; a closed window returns the rest as the
writes in flight end. -/
theorem flow_credit_conserved (epoch : String) (recoveryLimit : Int) (hasOnStage laneMode : Bool)
    (laneLimit : Int) (ops : List FlowOp) :
    let w := run step (init epoch recoveryLimit hasOnStage laneMode laneLimit) ops
    (∀ recovery, w.reservedBytes recovery - w.releasedBytes recovery = w.heldBytes recovery) ∧
    (w.ledger.settled.map Entry.id).Nodup ∧
    (∀ credit ∈ w.ledger.settled, credit ∈ w.ledger.opened ∧
      ∀ other ∈ w.ledger.opened, other.id = credit.id → other = credit) ∧
    ∀ more : List FlowOp,
      (∀ id entry, w.deliveries.get? id = some entry → entry.sending = true → entry.sent = false →
        ∃ op ∈ more, finishes id op) →
      let drained := run step w.close more
      drained.deliveries.entries = [] ∧
      (∀ recovery, drained.releasedBytes recovery = drained.reservedBytes recovery) ∧
      drained.ledger.opened.Perm drained.ledger.settled := by
  intro w
  have start := init_accounted epoch recoveryLimit hasOnStage laneMode laneLimit
  have accounted : w.Accounted := run_invariant Accounted step_accounted start ops
  refine ⟨?_, accounted.balanced.settledOnce, ?_, ?_⟩
  · intro recovery
    rw [heldBytes_eq_total]
    exact accounted.balanced.total_held recovery
  · intro credit settled
    have opened := accounted.balanced.opened_of_settled settled
    exact ⟨opened, fun other mem same => accounted.balanced.opened_unique mem opened same⟩
  · intro more finished drained
    have empty : drained.deliveries.entries = [] := close_drains w more finished
    have closed : w.close.Accounted := step_accounted w .close accounted
    have rest : drained.Accounted := run_invariant Accounted step_accounted closed more
    have all : drained.ledger.opened.Perm drained.ledger.settled :=
      rest.balanced.settled_all (by simp [ledger, empty])
    exact ⟨empty, fun recovery => (total_perm recovery all).symm, all⟩

end FlowWindow

end OpenSquilla.Transport
