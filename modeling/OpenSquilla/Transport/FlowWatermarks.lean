import Mathlib.Algebra.Order.BigOperators.Group.List
import OpenSquilla.Transport.FlowAccounting

set_option autoImplicit false

namespace OpenSquilla.Transport

open Runs

namespace FlowWindow

def framesOf (recovery : Bool) (frames : List Frame) : List Frame :=
  frames.filter (fun frame => frame.recovery = recovery)

def frameBytes (frames : List Frame) : Int := (frames.map Frame.size).sum

/-- The windows as a property of the frames in flight. It only looks at what admission
fixes, so it survives the loss of any of them. -/
structure Windowed (recoveryLimit : Int) (frames : List Frame) : Prop where
  sorted : (frames.map Frame.id).Pairwise (· < ·)
  positive : ∀ frame ∈ frames, 0 < frame.size
  ordinaryFrames : (framesOf false frames).length ≤ flowWindowFrames
  ordinaryBytes : frameBytes (framesOf false frames) ≤ flowWindowBytes ∨
    (framesOf false frames).length = 1
  recoveryFrames : ((framesOf true frames).length : Int) ≤ recoveryLimit
  recoveryBytes : frameBytes (framesOf true frames) ≤ recoveryWindowBytes
  recoveryKeys : (framesOf true frames).Pairwise
    (fun first second => first.key = none ∨ first.key ≠ second.key)

theorem frameBytes_sublist {fewer frames : List Frame} (sublist : fewer.Sublist frames)
    (positive : ∀ frame ∈ frames, 0 < frame.size) : frameBytes fewer ≤ frameBytes frames := by
  apply (sublist.map Frame.size).sum_le_sum
  intro size mem
  obtain ⟨frame, present, rfl⟩ := List.mem_map.mp mem
  exact (positive frame present).le

theorem Windowed.sublist {recoveryLimit : Int} {fewer frames : List Frame}
    (windowed : Windowed recoveryLimit frames) (sublist : fewer.Sublist frames) :
    Windowed recoveryLimit fewer := by
  have kinds : ∀ recovery, (framesOf recovery fewer).Sublist (framesOf recovery frames) :=
    fun recovery => sublist.filter _
  have bytes : ∀ recovery,
      frameBytes (framesOf recovery fewer) ≤ frameBytes (framesOf recovery frames) :=
    fun recovery => frameBytes_sublist (kinds recovery)
      (fun frame mem => windowed.positive frame (List.mem_of_mem_filter mem))
  have ordinaryFrames := (kinds false).length_le
  have recoveryFrames := (kinds true).length_le
  refine ⟨windowed.sorted.sublist (sublist.map _), ?_, ?_, ?_, ?_, ?_, ?_⟩
  · exact fun frame mem => windowed.positive frame (sublist.subset mem)
  · exact ordinaryFrames.trans windowed.ordinaryFrames
  · rcases windowed.ordinaryBytes with within | single
    · exact .inl ((bytes false).trans within)
    · -- a single oversized frame either stays or leaves an empty window
      rcases Nat.lt_or_ge (framesOf false fewer).length 1 with none | some
      · left
        have empty : framesOf false fewer = [] := List.length_eq_zero_iff.mp (by omega)
        simp [empty, frameBytes, flowWindowBytes]
      · right
        omega
  · have limit := windowed.recoveryFrames
    omega
  · exact (bytes true).trans windowed.recoveryBytes
  · exact windowed.recoveryKeys.sublist (kinds true)

theorem framesOf_append (recovery : Bool) (frames : List Frame) (frame : Frame) :
    framesOf recovery (frames ++ [frame]) =
      framesOf recovery frames ++ if frame.recovery = recovery then [frame] else [] := by
  by_cases same : frame.recovery = recovery <;> simp [framesOf, same]

theorem frameBytes_append (frames : List Frame) (frame : Frame) :
    frameBytes (frames ++ [frame]) = frameBytes frames + frame.size := by
  simp [frameBytes]

theorem Windowed.append {recoveryLimit : Int} {frames : List Frame}
    (windowed : Windowed recoveryLimit frames) (frame : Frame) (positive : 0 < frame.size)
    (last : ∀ earlier ∈ frames, earlier.id < frame.id)
    (ordinary : frame.recovery = false → (framesOf false frames).length < flowWindowFrames ∧
      (framesOf false frames = [] ∨
        frameBytes (framesOf false frames) + frame.size ≤ flowWindowBytes))
    (recovery : frame.recovery = true → ((framesOf true frames).length : Int) < recoveryLimit ∧
      frameBytes (framesOf true frames) + frame.size ≤ recoveryWindowBytes ∧
      ∀ earlier ∈ framesOf true frames, earlier.key = none ∨ earlier.key ≠ frame.key) :
    Windowed recoveryLimit (frames ++ [frame]) := by
  have sorted : ((frames ++ [frame]).map Frame.id).Pairwise (· < ·) := by
    rw [List.map_append, List.pairwise_append]
    refine ⟨windowed.sorted, List.pairwise_singleton _ _, ?_⟩
    intro id mem next single
    obtain ⟨earlier, present, rfl⟩ := List.mem_map.mp mem
    obtain rfl := List.mem_singleton.mp single
    exact last earlier present
  have sizesPositive : ∀ entry ∈ frames ++ [frame], 0 < entry.size := by
    intro entry mem
    rcases List.mem_append.mp mem with earlier | new
    · exact windowed.positive entry earlier
    · obtain rfl := List.mem_singleton.mp new
      exact positive
  cases kind : frame.recovery with
  | false =>
    obtain ⟨room, bytes⟩ := ordinary kind
    have kept : framesOf true (frames ++ [frame]) = framesOf true frames := by
      simp [framesOf_append, kind]
    have grown : framesOf false (frames ++ [frame]) = framesOf false frames ++ [frame] := by
      simp [framesOf_append, kind]
    refine ⟨sorted, sizesPositive, ?_, ?_, ?_, ?_, ?_⟩
    · rw [grown, List.length_append, List.length_singleton]
      exact room
    · rw [grown, frameBytes_append]
      rcases bytes with empty | within
      · right
        simp [empty]
      · exact .inl within
    · exact kept ▸ windowed.recoveryFrames
    · exact kept ▸ windowed.recoveryBytes
    · exact kept ▸ windowed.recoveryKeys
  | true =>
    obtain ⟨room, bytes, keys⟩ := recovery kind
    have kept : framesOf false (frames ++ [frame]) = framesOf false frames := by
      simp [framesOf_append, kind]
    have grown : framesOf true (frames ++ [frame]) = framesOf true frames ++ [frame] := by
      simp [framesOf_append, kind]
    refine ⟨sorted, sizesPositive, ?_, ?_, ?_, ?_, ?_⟩
    · exact kept ▸ windowed.ordinaryFrames
    · exact kept ▸ windowed.ordinaryBytes
    · rw [grown, List.length_append, List.length_singleton]
      omega
    · rw [grown, frameBytes_append]
      exact bytes
    · rw [grown, List.pairwise_append]
      refine ⟨windowed.recoveryKeys, List.pairwise_singleton _ _, ?_⟩
      intro earlier mem next single
      obtain rfl := List.mem_singleton.mp single
      exact keys earlier mem

theorem framesOf_frames (w : FlowWindow) (recovery : Bool) (f : Frame → Int)
    (g : Delivery → Int) (same : ∀ entry, f (frameOf entry) = g entry.2) : (framesOf recovery w.frames).map f =
      (w.deliveries.values.filter (fun entry => entry.recovery = recovery)).map g := by
  simp only [framesOf, frames, Dict.values, List.filter_map, List.map_map]
  apply List.map_congr_left
  intro entry _
  exact same entry

theorem ordinary_eq (w : FlowWindow) :
    w.ordinary = w.deliveries.values.filter (fun entry => entry.recovery = false) := by
  simp [ordinary]

theorem pieces_eq (w : FlowWindow) :
    w.pieces = w.deliveries.values.filter (fun entry => entry.recovery = true) := by
  simp [pieces]

theorem frameBytes_ordinary (w : FlowWindow) : frameBytes (framesOf false w.frames) = sizes w.ordinary := by
  rw [frameBytes, framesOf_frames w false Frame.size Delivery.size (fun _ => rfl), sizes, ordinary_eq]

theorem frameBytes_pieces (w : FlowWindow) : frameBytes (framesOf true w.frames) = sizes w.pieces := by
  rw [frameBytes, framesOf_frames w true Frame.size Delivery.size (fun _ => rfl), sizes, pieces_eq]

theorem length_ordinary (w : FlowWindow) : (framesOf false w.frames).length = w.ordinary.length := by
  have same := congrArg List.length
    (framesOf_frames w false Frame.size Delivery.size (fun _ => rfl))
  simpa [ordinary_eq] using same

theorem length_pieces (w : FlowWindow) : (framesOf true w.frames).length = w.pieces.length := by
  have same := congrArg List.length
    (framesOf_frames w true Frame.size Delivery.size (fun _ => rfl))
  simpa [pieces_eq] using same

theorem admitWindow_passed {w : FlowWindow} {request : AdmitRequest} (passed : w.admitWindow request = none) :
    0 < request.size ∧ (request.recovery = false → w.ordinary.length < flowWindowFrames ∧
      (w.ordinary = [] ∨ sizes w.ordinary + request.size ≤ flowWindowBytes)) ∧
    (request.recovery = true → (w.pieces.length : Int) < w.recoveryLimit ∧
      sizes w.pieces + request.size ≤ recoveryWindowBytes ∧
      ∀ entry ∈ w.pieces, entry.key = none ∨ entry.key ≠ request.key) := by
  unfold admitWindow at passed
  dsimp only at passed
  split at passed
  · cases passed
  next fits =>
    push Not at fits
    have positive : 0 < request.size := by omega
    split at passed
    · cases passed
    · split at passed
      next recovery =>
        split at passed
        · cases passed
        next room =>
          push Not at room
          obtain ⟨count, bytes, keys⟩ := room
          refine ⟨positive, by simp [recovery], fun _ => ⟨count, bytes, ?_⟩⟩
          intro entry mem
          by_cases keyless : entry.key = none
          · exact .inl keyless
          · right
            intro same
            exact keys (same ▸ keyless) entry mem same
      next ordinary =>
        split at passed
        · cases passed
        next room =>
          push Not at room
          refine ⟨positive, fun _ => ⟨room.1, ?_⟩, fun recovery => absurd recovery ordinary⟩
          by_cases empty : w.ordinary = []
          · exact .inl empty
          · exact .inr (room.2 empty)

theorem enterDelivery_frames (w : FlowWindow) (request : AdmitRequest) (accounted : w.Accounted) :
    (w.enterDelivery request).frames =
      w.frames ++ [⟨w.nextId, request.recovery, request.size, request.key⟩] := by
  have entries : (w.enterDelivery request).deliveries.entries =
      w.deliveries.entries ++ [(w.nextId, w.admittedDelivery request)] :=
    Dict.entries_set_of_absent _ _ _ (nextId_absent accounted)
  simp [frames, entries, frameOf, admittedDelivery]

theorem enterDelivery_windowed (w : FlowWindow) (request : AdmitRequest) (accounted : w.Accounted)
    (windowed : Windowed w.recoveryLimit w.frames) (passed : w.admitWindow request = none) :
    Windowed w.recoveryLimit (w.enterDelivery request).frames := by
  obtain ⟨positive, ordinary, recovery⟩ := admitWindow_passed passed
  rw [enterDelivery_frames w request accounted]
  refine windowed.append _ positive ?_ ?_ ?_
  · intro earlier mem
    obtain ⟨entry, present, rfl⟩ := List.mem_map.mp mem
    exact accounted.present entry.1 (List.mem_map_of_mem present)
  · intro kind
    obtain ⟨room, bytes⟩ := ordinary kind
    rw [frameBytes_ordinary, length_ordinary]
    refine ⟨room, bytes.imp_left fun empty => ?_⟩
    have count := length_ordinary w
    rw [empty] at count
    exact List.length_eq_zero_iff.mp count
  · intro kind
    obtain ⟨room, bytes, keys⟩ := recovery kind
    rw [frameBytes_pieces, length_pieces]
    refine ⟨room, bytes, fun earlier mem => ?_⟩
    obtain ⟨found, kind⟩ := List.mem_filter.mp mem
    obtain ⟨entry, present, rfl⟩ := List.mem_map.mp found
    apply keys entry.2
    exact List.mem_filter.mpr ⟨List.mem_map_of_mem present, of_decide_eq_true kind⟩

theorem step_windowed (w : FlowWindow) (op : FlowOp) (accounted : w.Accounted)
    (windowed : Windowed w.recoveryLimit w.frames) : Windowed (w.step op).recoveryLimit (w.step op).frames := by
  rw [(step_config w op).1]
  by_cases notAdmitted : ∀ request granted, op ≠ .admitDelivery request granted
  · exact windowed.sublist (step_settles w op notAdmitted).frames
  · push Not at notAdmitted
    obtain ⟨request, granted, rfl⟩ := notAdmitted
    rcases admitDelivery_cases w request granted with
      ⟨lanes, reason, refused⟩ | ⟨lanes, _, passed, _, entered⟩
    · simp only [step, refused]
      exact windowed
    · simp only [step, entered]
      exact enterDelivery_windowed
        { w with lanes := lanes, lastRejectionReason := none } request
        ⟨accounted.balanced, accounted.issued, accounted.present⟩ windowed passed

/-- The physical write of the delivery has not unwound, and its credit is owed to it alone. -/
def unwinding (entry : Delivery) : Prop :=
  entry.acknowledged = true ∧ entry.sent = false ∧ entry.sending = true

def Unwinds (before after : FlowWindow) : Prop :=
  ∀ id entry, after.deliveries.get? id = some entry →
    ∃ old, before.deliveries.get? id = some old ∧ (unwinding old → unwinding entry)

theorem Unwinds.of_same {before after : FlowWindow}
    (deliveries : after.deliveries = before.deliveries) : Unwinds before after :=
  fun _ entry found => ⟨entry, deliveries ▸ found, fun kept => kept⟩

theorem updateDelivery_unwinds (w : FlowWindow) (id : Int) (f : Delivery → Delivery)
    (keeps : ∀ entry, unwinding entry → unwinding (f entry)) : Unwinds w (w.updateDelivery id f) := by
  intro other entry found
  rw [get?_updateDelivery] at found
  split at found
  · obtain ⟨old, present, rfl⟩ := Option.map_eq_some_iff.mp found
    exact ⟨old, present, keeps old⟩
  · exact ⟨entry, found, fun kept => kept⟩

theorem releaseDelivery_unwinds (w : FlowWindow) (id : Int) : Unwinds w (w.releaseDelivery id) := by
  intro other entry found
  rw [get?_releaseDelivery] at found
  split at found
  · cases found
  · exact ⟨entry, found, fun kept => kept⟩

theorem settleEach_unwinds (w : FlowWindow) (selected : Delivery → Bool) (ids : List Int)
    (distinct : ids.Nodup) : Unwinds w (w.settleEach selected ids) := by
  intro id entry found
  rw [get?_settleEach w selected ids distinct] at found
  split at found
  · obtain ⟨old, present, kept⟩ := Option.bind_eq_some_iff.mp found
    refine ⟨old, present, fun holds => ?_⟩
    obtain ⟨acknowledged, sent, sending⟩ := holds
    unfold settleAct at kept
    rw [sent] at kept
    by_cases chosen : selected old
    · simp only [chosen, if_true, Bool.false_eq_true, if_false] at kept
      obtain rfl := Option.some.inj kept
      exact ⟨rfl, rfl, sending⟩
    · simp only [chosen, Bool.false_eq_true, if_false] at kept
      obtain rfl := Option.some.inj kept
      exact ⟨acknowledged, sent, sending⟩
  · exact ⟨entry, found, fun kept => kept⟩

/-- The end of a physical write clears `sending` on its delivery, but releases it first when
it was acknowledged. -/
theorem finished_unwinds (w : FlowWindow) (id : Int) (f : Delivery → Delivery) (release : Bool)
    (releases : ∀ entry, w.deliveries.get? id = some entry → entry.acknowledged = true →
      release = true) :
    Unwinds w (if release then (w.updateDelivery id f).releaseDelivery id
      else w.updateDelivery id f) := by
  intro other entry found
  cases release with
  | true =>
    simp only [if_true, get?_releaseDelivery, get?_updateDelivery] at found
    by_cases same : other = id
    · simp [same] at found
    · simp only [same, if_false] at found
      exact ⟨entry, found, fun kept => kept⟩
  | false =>
    simp only [Bool.false_eq_true, if_false, get?_updateDelivery] at found
    by_cases same : other = id
    · subst same
      simp only [if_true] at found
      obtain ⟨old, present, rfl⟩ := Option.map_eq_some_iff.mp found
      refine ⟨old, present, fun holds => ?_⟩
      have released := releases old present holds.1
      cases released
    · simp only [same, if_false] at found
      exact ⟨entry, found, fun kept => kept⟩

theorem close_unwinds (w : FlowWindow) : Unwinds w w.close := by
  intro id entry found
  rw [get?_close] at found
  obtain ⟨old, present, kept⟩ := Option.bind_eq_some_iff.mp found
  refine ⟨old, present, fun holds => ?_⟩
  unfold closeAct at kept
  split at kept
  · obtain rfl := Option.some.inj kept
    exact ⟨rfl, holds.2⟩
  · cases kept

theorem retireUnsent_unwinds (w : FlowWindow) (lanes : LaneTable) (lane : String) (laneEpoch : Option String) :
    Unwinds w { w with
      lanes := lanes
      deliveries := w.deliveries.mapValues (retireUnsent lane laneEpoch) } := by
  intro id entry found
  rw [Dict.get?_mapValues] at found
  obtain ⟨old, present, rfl⟩ := Option.map_eq_some_iff.mp found
  refine ⟨old, present, fun holds => ?_⟩
  unfold retireUnsent
  split <;> exact holds

theorem takeWhile_nodup (w : FlowWindow) (through : Int) : (w.deliveries.keys.takeWhile (· ≤ through)).Nodup :=
  List.Nodup.sublist (List.takeWhile_sublist _) w.deliveries.nodupKeys

theorem step_unwinds (w : FlowWindow) (op : FlowOp)
    (notAdmitted : ∀ request granted, op ≠ .admitDelivery request granted) : Unwinds w (w.step op) := by
  cases op with
  | admitDelivery request granted => exact absurd rfl (notAdmitted request granted)
  | registerLaneEpoch lane laneEpoch =>
    simp only [step, registerLaneEpoch]
    repeat' split
    all_goals exact .of_same rfl
  | claim id publication =>
    simp only [step, claim]
    split
    · exact .of_same rfl
    · split
      · exact .of_same rfl
      · exact updateDelivery_unwinds w id _ (fun _ holds => holds)
  | markSending id =>
    simp only [step, markSending]
    split
    · exact .of_same rfl
    · exact updateDelivery_unwinds w id _ (fun _ holds => ⟨holds.1, holds.2.1, rfl⟩)
  | markSent id =>
    simp only [step, markSent]
    split
    · exact .of_same rfl
    next delivery found =>
      refine finished_unwinds w id _ delivery.acknowledged ?_
      intro entry present acknowledged
      obtain rfl := Option.some.inj (found.symm.trans present)
      exact acknowledged
  | markSendFinished id =>
    simp only [step, markSendFinished]
    split
    · exact .of_same rfl
    next delivery found =>
      refine finished_unwinds w id _ (_ || delivery.acknowledged) ?_
      intro entry present acknowledged
      obtain rfl := Option.some.inj (found.symm.trans present)
      simp [acknowledged]
  | discardRetiredQueued id =>
    simp only [step, discardRetiredQueued]
    split
    · exact .of_same rfl
    · split
      · exact .of_same rfl
      · split
        · exact .of_same rfl
        · exact releaseDelivery_unwinds w id
  | stage epoch id =>
    simp only [step, stage]
    split
    · exact .of_same rfl
    · split
      · exact .of_same rfl
      · exact settleEach_unwinds { w with stagedId := max w.stagedId id } _ [id] (by simp)
  | acknowledge epoch id =>
    simp only [step, acknowledge]
    split
    · exact .of_same rfl
    · split
      · exact .of_same rfl
      · exact settleEach_unwinds w _ _ (takeWhile_nodup w id)
  | acknowledgeLane epoch lane laneSequence =>
    simp only [step, acknowledgeLane]
    split
    · exact .of_same rfl
    · split
      · exact .of_same rfl
      · exact settleEach_unwinds w _ _ w.deliveries.nodupKeys
  | acknowledgeLaneDelivery epoch lane through laneEpoch =>
    simp only [step, acknowledgeLaneDelivery]
    split
    · exact .of_same rfl
    · split
      · exact .of_same rfl
      · exact settleEach_unwinds w _ _ (takeWhile_nodup w through)
  | retireLane epoch lane retireToken finalPublishedId laneEpoch fresh =>
    simp only [step, retireLane]
    repeat' split
    all_goals first | exact .of_same rfl | exact retireUnsent_unwinds w _ _ _
  | confirmLaneRetire epoch lane retireToken finalPublishedId laneEpoch =>
    simp only [step, confirmLaneRetire]
    split
    · exact .of_same rfl
    · exact settleEach_unwinds w _ _ w.deliveries.nodupKeys
  | pruneSettledLanes => exact .of_same rfl
  | close => exact close_unwinds w

theorem step_ackId (w : FlowWindow) (op : FlowOp) : (w.step op).ackId = w.ackId ∨
    ∃ epoch id, op = .acknowledge epoch id ∧ w.validateAcknowledgement epoch id = .ok () ∧
      w.ackId < id ∧ (w.step op).ackId = id := by
  cases op with
  | admitDelivery request granted =>
    left
    rcases admitDelivery_cases w request granted with
      ⟨lanes, reason, refused⟩ | ⟨lanes, _, _, _, entered⟩
    · simp only [step, refused]
    · simp only [step, entered]
      rfl
  | registerLaneEpoch lane laneEpoch =>
    left
    simp only [step, registerLaneEpoch]
    repeat' split
    all_goals rfl
  | claim id publication =>
    left
    simp only [step, claim]
    repeat' split
    all_goals rfl
  | markSending id =>
    left
    simp only [step, markSending]
    split <;> rfl
  | markSent id =>
    left
    simp only [step, markSent]
    split
    · rfl
    · split
      · exact (releaseDelivery_only _ id).ackId
      · rfl
  | markSendFinished id =>
    left
    simp only [step, markSendFinished]
    split
    · rfl
    · split
      · exact (releaseDelivery_only _ id).ackId
      · rfl
  | discardRetiredQueued id =>
    left
    simp only [step, discardRetiredQueued]
    split
    · rfl
    · split
      · rfl
      · split
        · rfl
        · exact (releaseDelivery_only w id).ackId
  | stage epoch id =>
    left
    simp only [step, stage]
    split
    · rfl
    · split
      · rfl
      · exact (settleEach_only _ _ _).ackId
  | acknowledge epoch id =>
    simp only [step, acknowledge]
    split
    · exact .inl rfl
    next valid =>
      split
      · exact .inl rfl
      next ahead => exact .inr ⟨epoch, id, rfl, valid, by omega, rfl⟩
  | acknowledgeLane epoch lane laneSequence =>
    left
    simp only [step, acknowledgeLane]
    split
    · rfl
    · split
      · rfl
      · exact (settleEach_only w _ _).ackId
  | acknowledgeLaneDelivery epoch lane through laneEpoch =>
    left
    simp only [step, acknowledgeLaneDelivery]
    split
    · rfl
    · split
      · rfl
      · exact (settleEach_only w _ _).ackId
  | retireLane epoch lane retireToken finalPublishedId laneEpoch fresh =>
    left
    simp only [step, retireLane]
    repeat' split
    all_goals rfl
  | confirmLaneRetire epoch lane retireToken finalPublishedId laneEpoch =>
    left
    simp only [step, confirmLaneRetire]
    split
    · rfl
    · exact (settleEach_only w _ _).ackId
  | pruneSettledLanes => exact .inl rfl
  | close =>
    left
    exact (DeliveriesOnly.foldl closeDelivery_only w.deliveries.keys { w with closed := true }).ackId

theorem validateAcknowledgement_ok {w : FlowWindow} {epoch : String} {id : Int}
    (valid : w.validateAcknowledgement epoch id = .ok ()) (ahead : w.ackId < id) :
    id < w.nextId ∧ ∀ entry ∈ w.deliveries.entries, entry.1 ≤ id → unsent entry.2 = false := by
  unfold validateAcknowledgement at valid
  split at valid
  · cases valid
  · split at valid
    · cases valid
    · rw [if_neg (by omega)] at valid
      split at valid
      · cases valid
      next issued =>
        split at valid
        · cases valid
        next started =>
          simp only [List.any_eq_true, not_exists, not_and] at started
          refine ⟨by omega, fun entry mem below => ?_⟩
          have each := started entry mem
          simpa [below] using each

theorem mem_takeWhile_of_sorted {keys : List Int} (sorted : keys.Pairwise (· < ·)) {id through : Int}
    (mem : id ∈ keys) (below : id ≤ through) : id ∈ keys.takeWhile (· ≤ through) := by
  induction keys with
  | nil => cases mem
  | cons first rest ih =>
    rw [List.pairwise_cons] at sorted
    rcases List.mem_cons.mp mem with rfl | later
    · simp [below]
    · have before : first ≤ through := (sorted.1 id later).le.trans below
      simp only [List.takeWhile_cons, before, decide_true, if_true]
      exact List.mem_cons_of_mem _ (ih sorted.2 later)

/-- The watermark is behind the ids in use, and what it covers is only waiting for its
physical write to unwind. -/
structure Watermarked (w : FlowWindow) : Prop where
  behind : w.ackId < w.nextId
  covered : ∀ id entry, w.deliveries.get? id = some entry → id ≤ w.ackId → unwinding entry

theorem acknowledged_unwinding {w : FlowWindow} (sorted : w.deliveries.keys.Pairwise (· < ·))
    {epoch : String} {id : Int} (valid : w.validateAcknowledgement epoch id = .ok ())
    (ahead : w.ackId < id) (key : Int) (entry : Delivery) (below : key ≤ id)
    (found : (w.step (.acknowledge epoch id)).deliveries.get? key = some entry) : unwinding entry := by
  have started := (validateAcknowledgement_ok valid ahead).2
  simp only [step, acknowledge, valid, show ¬id ≤ w.ackId by omega, if_false] at found
  rw [get?_settleEach _ _ _ (takeWhile_nodup w id)] at found
  split at found
  next visited =>
    obtain ⟨old, present, kept⟩ := Option.bind_eq_some_iff.mp found
    have sending := started (key, old) ((Dict.get?_eq_some_iff _ _ _).mp present) below
    unfold settleAct at kept
    simp only [if_true] at kept
    split at kept
    · cases kept
    next pending =>
      obtain rfl := Option.some.inj kept
      refine ⟨rfl, by simpa using pending, ?_⟩
      simpa [unsent, pending] using sending
  next skipped =>
    have mem : key ∈ w.deliveries.keys := (Dict.mem_keys_iff _ _).mpr ⟨entry, found⟩
    exact absurd (mem_takeWhile_of_sorted sorted mem below) skipped

theorem keys_sorted {w : FlowWindow} (windowed : Windowed w.recoveryLimit w.frames) :
    w.deliveries.keys.Pairwise (· < ·) := by
  have sorted := windowed.sorted
  simpa [frames, frameOf, Dict.keys, Function.comp_def] using sorted

theorem step_watermarked (w : FlowWindow) (op : FlowOp)
    (windowed : Windowed w.recoveryLimit w.frames) (watermarked : w.Watermarked) : (w.step op).Watermarked := by
  by_cases notAdmitted : ∀ request granted, op ≠ .admitDelivery request granted
  · have nextId := (step_settles w op notAdmitted).nextId
    rcases step_ackId w op with same | ⟨epoch, id, rfl, valid, ahead, moved⟩
    · refine ⟨by rw [same, nextId]; exact watermarked.behind, fun id entry found below => ?_⟩
      obtain ⟨old, present, kept⟩ := step_unwinds w op notAdmitted id entry found
      exact kept (watermarked.covered id old present (same ▸ below))
    · refine ⟨?_, fun key entry found below => ?_⟩
      · rw [moved, nextId]
        exact (validateAcknowledgement_ok valid ahead).1
      · rw [moved] at below
        exact acknowledged_unwinding (keys_sorted windowed) valid ahead key entry below found
  · push Not at notAdmitted
    obtain ⟨request, granted, rfl⟩ := notAdmitted
    rcases admitDelivery_cases w request granted with
      ⟨lanes, reason, refused⟩ | ⟨lanes, _, _, _, entered⟩
    · simp only [step, refused]
      exact ⟨watermarked.behind, watermarked.covered⟩
    · simp only [step, entered]
      have behind := watermarked.behind
      refine ⟨?_, fun id entry found below => ?_⟩
      · show w.ackId < w.nextId + 1
        omega
      · have old : id ≠ w.nextId := by
          have below : id ≤ w.ackId := below
          omega
        simp only [enterDelivery, Dict.get?_set, old, if_false] at found
        exact watermarked.covered id entry found below

structure Bounded (w : FlowWindow) : Prop where
  accounted : w.Accounted
  windowed : Windowed w.recoveryLimit w.frames
  watermarked : w.Watermarked

theorem init_bounded (epoch : String) (recoveryLimit : Int) (hasOnStage laneMode : Bool)
    (laneLimit : Int) : (init epoch recoveryLimit hasOnStage laneMode laneLimit).Bounded where
  accounted := init_accounted epoch recoveryLimit hasOnStage laneMode laneLimit
  windowed := by
    have limit : (0 : Int) ≤ min recoveryWindowFrames (max 1 recoveryLimit) := by
      simp only [recoveryWindowFrames]
      omega
    constructor <;> simp [init, frames, framesOf, frameBytes, flowWindowBytes, recoveryWindowBytes]
    simpa using limit
  watermarked := by
    constructor
    · simp [init]
    · intro id entry found
      cases found

theorem step_bounded (w : FlowWindow) (op : FlowOp) (bounded : w.Bounded) : (w.step op).Bounded where
  accounted := step_accounted w op bounded.accounted
  windowed := step_windowed w op bounded.accounted bounded.windowed
  watermarked := step_watermarked w op bounded.windowed bounded.watermarked

theorem run_ackId_le (w : FlowWindow) (ops : List FlowOp) : w.ackId ≤ (run step w ops).ackId := by
  refine run_relation (fun (before after : FlowWindow) => before.ackId ≤ after.ackId)
    (fun _ => le_refl _) (fun _ _ _ => le_trans) ?_ w ops
  intro state op
  rcases step_ackId state op with same | ⟨_, id, _, _, ahead, moved⟩
  · exact same.ge
  · rw [moved]
    exact ahead.le

theorem flow_window_bounded (epoch : String) (recoveryLimit : Int) (hasOnStage laneMode : Bool)
    (laneLimit : Int) (ops : List FlowOp) :
    let w := run step (init epoch recoveryLimit hasOnStage laneMode laneLimit) ops
    w.ordinary.length ≤ flowWindowFrames ∧
    (sizes w.ordinary ≤ flowWindowBytes ∨ w.ordinary.length = 1) ∧
    (w.pieces.length : Int) ≤ w.recoveryLimit ∧ sizes w.pieces ≤ recoveryWindowBytes ∧
    w.pieces.Pairwise (fun first second => first.key = none ∨ first.key ≠ second.key) ∧
    w.ackId < w.nextId ∧ (∀ more, w.ackId ≤ (run step w more).ackId) ∧
    ∀ id entry, w.deliveries.get? id = some entry → id ≤ w.ackId →
      entry.acknowledged = true ∧ entry.sent = false ∧ entry.sending = true := by
  intro w
  have start := init_bounded epoch recoveryLimit hasOnStage laneMode laneLimit
  obtain ⟨_, windowed, watermarked⟩ : w.Bounded := run_invariant Bounded step_bounded start ops
  refine ⟨?_, ?_, ?_, ?_, ?_, watermarked.behind, run_ackId_le w, watermarked.covered⟩
  · exact length_ordinary w ▸ windowed.ordinaryFrames
  · rw [← length_ordinary, ← frameBytes_ordinary]
    exact windowed.ordinaryBytes
  · exact length_pieces w ▸ windowed.recoveryFrames
  · exact frameBytes_pieces w ▸ windowed.recoveryBytes
  · have keys := windowed.recoveryKeys
    have same : (fun frame : Frame => decide (frame.recovery = true)) ∘ frameOf =
        Delivery.recovery ∘ Prod.snd := by
      funext entry
      simp [frameOf]
    simp only [framesOf, frames, List.filter_map, List.pairwise_map, same] at keys
    simp only [pieces, Dict.values, List.filter_map, List.pairwise_map]
    exact keys

end FlowWindow

end OpenSquilla.Transport
