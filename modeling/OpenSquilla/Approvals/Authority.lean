import OpenSquilla.Shared.Episodes
import OpenSquilla.Approvals.Claims

set_option autoImplicit false

namespace OpenSquilla.Approvals

open Runs Episodes

def subject : ApprovalEvent → String
  | .requested approvalId | .resolved approvalId _ | .claimed approvalId _ | .finalized approvalId _ _
  | .completed approvalId _ | .released approvalId _ | .expired approvalId
  | .claimExpired approvalId _ | .reopened approvalId | .consumed approvalId => approvalId

def reopens (approvalId : String) (event : ApprovalEvent) : Bool := event = .reopened approvalId

-- The approval is created or reopened: nothing decided before counts any more.
def starts (approvalId : String) (event : ApprovalEvent) : Bool :=
  event = .requested approvalId ∨ event = .reopened approvalId

/-- A decision to approve: of whoever resolved the unclaimed approval, or of the holder of its
claim, who finalized and completed it. -/
def Approves (approvalId : String) (events : List ApprovalEvent) : Prop :=
  .resolved approvalId true ∈ events ∨
  ∃ token, List.Sublist
    [.claimed approvalId token, .finalized approvalId token true, .completed approvalId token] events

theorem Approves.mono {approvalId : String} {events more : List ApprovalEvent}
    (included : events.Sublist more) (approves : Approves approvalId events) : Approves approvalId more := by
  rcases approves with resolved | ⟨token, finalized⟩
  · exact .inl (included.subset resolved)
  · exact .inr ⟨token, finalized.trans included⟩

/-- What stands behind a row, given the record since its approval started and the record since
it was last reopened. -/
structure RowBacked (approvalId : String) (present reopened : List ApprovalEvent)
    (row : PendingApproval) : Prop where
  claimed : ∀ token, row.claimToken = some token →
    List.Sublist [.claimed approvalId token] present
  finalized : ∀ token, row.claimToken = some token → row.resolved = true → row.approved = true →
    List.Sublist [.claimed approvalId token, .finalized approvalId token true] present
  approved : row.resolved = true → row.approved = true → row.claimToken = none →
    Approves approvalId present
  consumed : row.consumed = true →
    row.resolved = true ∧ row.approved = true ∧ row.claimToken = none
  unspent : row.consumed = false → .consumed approvalId ∉ reopened

namespace RowBacked

variable {approvalId : String} {present reopened : List ApprovalEvent} {row : PendingApproval}

theorem unconsumed_of_unresolved (backed : RowBacked approvalId present reopened row)
    (unresolved : row.resolved = false) : row.consumed = false :=
  Bool.eq_false_iff.mpr fun consumed => by simp [(backed.consumed consumed).1] at unresolved

theorem unconsumed_of_held (backed : RowBacked approvalId present reopened row) {token : String}
    (held : row.claimToken = some token) : row.consumed = false :=
  Bool.eq_false_iff.mpr fun consumed => by simp [(backed.consumed consumed).2.2] at held

theorem grow (backed : RowBacked approvalId present reopened row) (events : List ApprovalEvent)
    (unspent : .consumed approvalId ∉ events) :
    RowBacked approvalId (present ++ events) (reopened ++ events) row where
  claimed token held := (backed.claimed token held).trans (List.sublist_append_left ..)
  finalized token held resolved approved :=
    (backed.finalized token held resolved approved).trans (List.sublist_append_left ..)
  approved resolved approved unclaimed :=
    (backed.approved resolved approved unclaimed).mono (List.sublist_append_left ..)
  consumed := backed.consumed
  unspent unconsumed := by
    rw [List.mem_append, not_or]
    exact ⟨backed.unspent unconsumed, unspent⟩

theorem of_idle (unclaimed : row.claimToken = none)
    (undecided : ¬(row.resolved = true ∧ row.approved = true)) (unconsumed : row.consumed = false)
    (unspent : .consumed approvalId ∉ reopened) : RowBacked approvalId present reopened row where
  claimed token held := by simp [unclaimed] at held
  finalized token held := by simp [unclaimed] at held
  approved resolved approved := absurd ⟨resolved, approved⟩ undecided
  consumed consumed := by simp [unconsumed] at consumed
  unspent _ := unspent

end RowBacked

theorem change_subject {Fresh : String → Prop} {approvalId : String} {row next : PendingApproval}
    {events : List ApprovalEvent} (change : Change Fresh approvalId row next events) :
    ∀ event ∈ events, subject event = approvalId := by
  have ended : ∀ event ∈ row.claimEnded approvalId, subject event = approvalId := by
    intro event mem
    obtain ⟨token, -, rfl⟩ := Option.map_eq_some_iff.mp (Option.mem_toList.mp mem)
    rfl
  cases change with
  | expired | reopened =>
    intro event mem
    rcases List.mem_append.mp mem with before | last
    · exact ended event before
    · rw [List.mem_singleton.mp last, subject]
  | _ => simp [subject]

theorem claimEnded_quiet (approvalId : String) (row : PendingApproval) :
    ∀ event ∈ row.claimEnded approvalId, ∃ token, event = .released approvalId token := by
  intro event mem
  obtain ⟨token, -, rfl⟩ := Option.map_eq_some_iff.mp (Option.mem_toList.mp mem)
  exact ⟨token, rfl⟩

def RecordBacked (approvalId : String) (history : List ApprovalEvent) (row : PendingApproval) : Prop :=
  RowBacked approvalId (since (starts approvalId) history) (since (reopens approvalId) history) row

section Records

variable {Fresh : String → Prop} {approvalId : String} {history events : List ApprovalEvent}
  {row next : PendingApproval}

theorem not_starts_of_subject {event : ApprovalEvent} (other : subject event ≠ approvalId) :
    starts approvalId event = false ∧ reopens approvalId event = false := by
  constructor
  · simp only [starts, decide_eq_false_iff_not]
    rintro (rfl | rfl) <;> exact other rfl
  · simp only [reopens, decide_eq_false_iff_not]
    rintro rfl
    exact other rfl

theorem recordBacked_append_of_other (backed : RecordBacked approvalId history row)
    (others : ∀ event ∈ events, subject event ≠ approvalId) :
    RecordBacked approvalId (history ++ events) row := by
  rw [RecordBacked, since_append fun event mem => (not_starts_of_subject (others event mem)).1,
    since_append fun event mem => (not_starts_of_subject (others event mem)).2]
  exact backed.grow events fun spent => others _ spent rfl

theorem since_reopened (opens : ApprovalEvent → Bool) (opened : opens (.reopened approvalId) = true) :
    since opens (history ++ (row.claimEnded approvalId ++ [.reopened approvalId])) = [] := by
  rw [← List.append_assoc, since_opened opened]

theorem change_backed (backed : RecordBacked approvalId history row)
    (change : Change Fresh approvalId row next events) : RecordBacked approvalId (history ++ events) next := by
  unfold RecordBacked at backed ⊢
  cases change with
  | amended params deadline unresolved =>
    rw [List.append_nil]
    exact ⟨backed.claimed, backed.finalized, backed.approved, backed.consumed, backed.unspent⟩
  | resolved approved params unresolved unclaimed =>
    have unconsumed := backed.unconsumed_of_unresolved unresolved
    rw [since_append (by simp [starts]), since_append (by simp [reopens])]
    have grown := backed.grow [.resolved approvalId approved] (by simp)
    constructor
    · exact grown.claimed
    · intro token held
      simp [unclaimed] at held
    · rintro - rfl -
      exact .inl (List.mem_append_right _ (List.mem_singleton_self _))
    · intro consumed
      simp [unconsumed] at consumed
    · exact grown.unspent
  | claimed token now params fresh unresolved unclaimed =>
    have unconsumed := backed.unconsumed_of_unresolved unresolved
    rw [since_append (by simp [starts]), since_append (by simp [reopens])]
    have grown := backed.grow [.claimed approvalId token] (by simp)
    constructor
    · rintro _ ⟨⟩
      exact List.sublist_append_right ..
    · intro _ _ resolved
      simp [unresolved] at resolved
    · intro _ _ held
      cases held
    · intro consumed
      simp [unconsumed] at consumed
    · exact grown.unspent
  | finalized token approved unresolved held =>
    have unconsumed := backed.unconsumed_of_unresolved unresolved
    rw [since_append (by simp [starts]), since_append (by simp [reopens])]
    have grown := backed.grow [.finalized approvalId token approved] (by simp)
    constructor
    · exact grown.claimed
    · rintro other carried - rfl
      obtain rfl := Option.some.inj (held.symm.trans carried)
      exact (backed.claimed token held).append (List.Sublist.refl _)
    · intro _ _ unclaimed
      simp [held] at unclaimed
    · intro consumed
      simp [unconsumed] at consumed
    · exact grown.unspent
  | completed token resolved approved held =>
    have unconsumed := backed.unconsumed_of_held held
    rw [since_append (by simp [starts]), since_append (by simp [reopens])]
    have grown := backed.grow [.completed approvalId token] (by simp)
    constructor
    · rintro _ ⟨⟩
    · rintro _ ⟨⟩
    · intro _ _ _
      exact .inr ⟨token, (backed.finalized token held resolved approved).append (List.Sublist.refl _)⟩
    · intro consumed
      simp [PendingApproval.unclaimed, unconsumed] at consumed
    · exact grown.unspent
  | released token unresolved held =>
    have unconsumed := backed.unconsumed_of_unresolved unresolved
    rw [since_append (by simp [starts]), since_append (by simp [reopens])]
    have grown := backed.grow [.released approvalId token] (by simp)
    exact .of_idle rfl (by simp [PendingApproval.unclaimed, unresolved]) unconsumed
      (grown.unspent unconsumed)
  | expired unresolved =>
    have unconsumed := backed.unconsumed_of_unresolved unresolved
    have quiet := claimEnded_quiet approvalId row
    have unspent : .consumed approvalId ∉ row.claimEnded approvalId ++ [.expired approvalId] := by
      simp only [List.mem_append, List.mem_singleton, reduceCtorEq, or_false]
      intro spent
      obtain ⟨token, impossible⟩ := quiet _ spent
      cases impossible
    have within : ∀ opens : ApprovalEvent → Bool, (∀ token, opens (.released approvalId token) = false) →
        opens (.expired approvalId) = false →
        ∀ event ∈ row.claimEnded approvalId ++ [.expired approvalId], opens event = false := by
      intro opens released expired event mem
      rcases List.mem_append.mp mem with ended | last
      · obtain ⟨token, rfl⟩ := quiet event ended
        exact released token
      · rw [List.mem_singleton.mp last, expired]
    rw [since_append (within _ (by simp [starts]) (by simp [starts])),
      since_append (within _ (by simp [reopens]) (by simp [reopens]))]
    exact .of_idle rfl (by simp [PendingApproval.unclaimed]) unconsumed
      ((backed.grow _ unspent).unspent unconsumed)
  | claimExpired token held =>
    have unconsumed := backed.unconsumed_of_held held
    rw [since_append (by simp [starts]), since_append (by simp [reopens])]
    have grown := backed.grow [.claimExpired approvalId token] (by simp)
    exact .of_idle rfl (by simp [PendingApproval.unclaimed]) rfl (grown.unspent unconsumed)
  | reopened resolved =>
    rw [since_reopened _ (by simp [starts]), since_reopened _ (by simp [reopens])]
    exact .of_idle rfl (by simp [PendingApproval.unclaimed]) rfl (List.not_mem_nil)
  | consumed resolved approved unclaimed unconsumed =>
    rw [since_append (by simp [starts]), since_append (by simp [reopens])]
    constructor
    · intro token held
      simp [unclaimed] at held
    · intro token held
      simp [unclaimed] at held
    · intro _ _ _
      exact (backed.approved resolved approved unclaimed).mono (List.sublist_append_left ..)
    · exact fun _ => ⟨resolved, approved, unclaimed⟩
    · intro consumed
      cases consumed

end Records

namespace ApprovalQueue

-- Someone decided to approve it since it was created or last reopened.
def Authorized (q : ApprovalQueue) (approvalId : String) : Prop :=
  Approves approvalId (since (starts approvalId) q.history)

/-- Any two consumes are parted by a reopening and a new decision to approve after it. -/
def SpentApart (approvalId : String) (history : List ApprovalEvent) : Prop :=
  ∀ before between after,
    history = before ++ .consumed approvalId :: (between ++ .consumed approvalId :: after) →
    ∃ early late, between = early ++ .reopened approvalId :: late ∧ Approves approvalId late

structure Backed (q : ApprovalQueue) : Prop where
  rows : ∀ approvalId row, q.rows.get? approvalId = some row → RecordBacked approvalId q.history row
  absent : ∀ approvalId, q.rows.get? approvalId = none → .consumed approvalId ∉ q.history
  apart : ∀ approvalId, SpentApart approvalId q.history

theorem init_backed (defaultTimeout : Option Time) (claimTtlSeconds : Time) :
    (init defaultTimeout claimTtlSeconds).Backed where
  rows approvalId row found := by simp [init] at found
  absent approvalId _ := by simp [init]
  apart approvalId before between after same := by simp [init] at same

theorem spentApart_append_of_unspent {approvalId : String} {history events : List ApprovalEvent}
    (apart : SpentApart approvalId history) (unspent : .consumed approvalId ∉ events) :
    SpentApart approvalId (history ++ events) := by
  intro before between after same
  -- the second consume is in the old record, with all that stands before it
  have split : before ++ .consumed approvalId :: (between ++ .consumed approvalId :: after) =
      (before ++ .consumed approvalId :: between) ++ .consumed approvalId :: after := by simp
  rw [split] at same
  rcases List.append_eq_append_iff.mp same with ⟨more, parted, tail⟩ | ⟨more, parted, tail⟩
  · exact absurd (tail ▸ List.mem_append_right _ (List.mem_cons_self ..)) unspent
  · cases more with
    | nil =>
      rw [List.nil_append] at tail
      exact absurd (tail ▸ List.mem_cons_self ..) unspent
    | cons event more =>
      obtain ⟨rfl, rest⟩ := List.cons_eq_cons.mp tail
      exact apart before between more (by rw [parted]; simp)

theorem spentApart_consume {approvalId : String} {history : List ApprovalEvent}
    (apart : SpentApart approvalId history)
    (unspent : .consumed approvalId ∉ since (reopens approvalId) history)
    (approves : Approves approvalId (since (starts approvalId) history)) :
    SpentApart approvalId (history ++ [.consumed approvalId]) := by
  intro before between after same
  rcases List.eq_nil_or_concat' after with rfl | ⟨init, last, rfl⟩
  · have split : before ++ .consumed approvalId :: (between ++ [.consumed approvalId]) =
        (before ++ .consumed approvalId :: between) ++ [.consumed approvalId] := by simp
    rw [split] at same
    obtain rfl := (List.append_inj' same rfl).1
    obtain ⟨early, opening, opened, parted⟩ := cut_off (by simp [reopens]) unspent
    obtain rfl := of_decide_eq_true opened
    refine ⟨early, _, parted, approves.mono (since_sublist_since (fun event reopened => ?_) _)⟩
    obtain rfl := of_decide_eq_true reopened
    simp [starts]
  · have split : before ++ .consumed approvalId :: (between ++ .consumed approvalId :: (init ++ [last])) =
        (before ++ .consumed approvalId :: (between ++ .consumed approvalId :: init)) ++ [last] := by
      simp
    rw [split] at same
    exact apart before between init (List.append_inj' same rfl).1

theorem move_backed {q next : ApprovalQueue} (backed : q.Backed) (move : Move q next) : next.Backed := by
  cases move with
  | requested approvalId nspace params createdAt deadline absent =>
    have unspent : ∀ other, .consumed other ∉ [ApprovalEvent.requested approvalId] := by simp
    constructor
    · intro other row found
      by_cases here : other = approvalId
      · subst here
        obtain rfl : _ = row := by simpa [write] using found
        refine .of_idle rfl (by simp) rfl ?_
        rw [write, since_append (by simp [reopens]), List.mem_append, not_or]
        exact ⟨fun spent => backed.absent other absent (since_subset spent), unspent other⟩
      · rw [write, Dict.get?_set, if_neg here] at found
        exact recordBacked_append_of_other (backed.rows other row found)
          (by simpa [subject] using Ne.symm here)
    · intro other missing
      by_cases here : other = approvalId
      · simp [write, here] at missing
      · rw [write, Dict.get?_set, if_neg here] at missing
        rw [write, List.mem_append, not_or]
        exact ⟨backed.absent other missing, unspent other⟩
    · exact fun other => spentApart_append_of_unspent (backed.apart other) (unspent other)
  | changed approvalId row next events found change =>
    have subjects := change_subject change
    have others : ∀ other, other ≠ approvalId → ∀ event ∈ events, subject event ≠ other :=
      fun other different event mem same => different (same.symm.trans (subjects event mem))
    have rowBacked := backed.rows approvalId row found
    constructor
    · intro other otherRow otherFound
      by_cases here : other = approvalId
      · subst here
        obtain rfl : _ = otherRow := by simpa [write] using otherFound
        exact change_backed rowBacked change
      · rw [write, Dict.get?_set, if_neg here] at otherFound
        exact recordBacked_append_of_other (backed.rows other otherRow otherFound) (others other here)
    · intro other missing
      by_cases here : other = approvalId
      · simp [write, here] at missing
      · rw [write, Dict.get?_set, if_neg here] at missing
        rw [write, List.mem_append, not_or]
        exact ⟨backed.absent other missing, fun spent => others other here _ spent rfl⟩
    · intro other
      by_cases here : other = approvalId
      · subst here
        by_cases spent : .consumed other ∈ events
        · cases change with
          | consumed resolved approved unclaimed unconsumed =>
            exact spentApart_consume (backed.apart other) (rowBacked.unspent unconsumed)
              (rowBacked.approved resolved approved unclaimed)
          | expired | reopened =>
            rcases List.mem_append.mp spent with ended | last
            · obtain ⟨token, impossible⟩ := claimEnded_quiet other row _ ended
              cases impossible
            · simp at last
          | _ => simp at spent
        · exact spentApart_append_of_unspent (backed.apart other) spent
      · exact spentApart_append_of_unspent (backed.apart other)
          fun spent => others other here _ spent rfl

section Answers

variable {q : ApprovalQueue} {approvalId : String} {row : PendingApproval}

theorem authorized_of_ready (backed : q.Backed)
    (found : q.rows.get? approvalId = some row) (ready : row.ready = true)
    (approved : row.approved = true) : q.Authorized approvalId := by
  simp only [PendingApproval.ready, Bool.and_eq_true, Option.isNone_iff_eq_none] at ready
  exact (backed.rows approvalId row found).approved ready.1 approved ready.2

theorem authorized_of_consumed (backed : q.Backed)
    (found : q.rows.get? approvalId = some row) (consumed : row.consumed = true) : q.Authorized approvalId := by
  have rowBacked := backed.rows approvalId row found
  obtain ⟨resolved, approved, unclaimed⟩ := rowBacked.consumed consumed
  exact rowBacked.approved resolved approved unclaimed

theorem get_found {now : Time} (answer : (q.get approvalId now).1 = .ok row) :
    (q.get approvalId now).2.rows.get? approvalId = some row := by
  simp only [get] at answer ⊢
  split at answer
  next other found =>
    obtain rfl := Except.ok.inj answer
    exact found
  next => cases answer

theorem get_backed (backed : q.Backed) (approvalId : String) (now : Time) : (q.get approvalId now).2.Backed :=
  moves_invariant (fun _ _ => move_backed) backed (get_moves q approvalId now)

theorem status_authorized (backed : q.Backed) {now : Time} {info : ApprovalStatus}
    (answer : (q.status approvalId now).1 = .ok info) (reported : info.approved = true ∨ info.consumed = true) :
    (q.status approvalId now).2.Authorized approvalId := by
  have after := get_backed backed approvalId now
  simp only [status] at answer ⊢
  cases entry : (q.get approvalId now).1 with
  | error raised => simp [entry, Except.map] at answer
  | ok row =>
    have found := get_found entry
    rw [entry] at answer
    obtain rfl := Except.ok.inj answer
    cases ready : row.ready with
    | false => simp [ready] at reported
    | true =>
      simp only [ready, if_true] at reported
      rcases reported with approved | consumed
      · exact authorized_of_ready after found ready approved
      · exact authorized_of_consumed after found consumed

theorem transactionThenGet_changed {body : PendingApproval → Decision} {after : Time}
    (answer : (q.transactionThenGet approvalId body after).1 = .ok true) :
    ∃ row next events, q.rows.get? approvalId = some row ∧ body row = .ok (some (next, events)) ∧
      (q.transactionThenGet approvalId body after).2.rows.get? approvalId =
        some (freed (after - q.claimTtlSeconds) next) := by
  simp only [transactionThenGet] at answer ⊢
  rw [if_pos answer, get]
  unfold transaction at answer ⊢
  cases found : q.rows.get? approvalId with
  | none => simp [found] at answer
  | some row =>
    cases decided : body row with
    | error raised => simp [found, decided] at answer
    | ok outcome =>
      cases outcome with
      | none => simp [found, decided] at answer
      | some change =>
        refine ⟨row, change.1, change.2, rfl, decided, ?_⟩
        simp [decided, get?_releaseStaleClaims, write]

theorem transactionThenGet_kept {body : PendingApproval → Decision} {after : Time}
    (answer : (q.transactionThenGet approvalId body after).1 = .ok false) :
    ∃ row, q.rows.get? approvalId = some row ∧ body row = .ok none ∧
      (q.transactionThenGet approvalId body after).2 = q := by
  simp only [transactionThenGet] at answer ⊢
  rw [answer, if_neg (by simp)]
  unfold transaction at answer ⊢
  cases found : q.rows.get? approvalId with
  | none => simp [found] at answer
  | some row =>
    cases decided : body row with
    | error raised => simp [found, decided] at answer
    | ok outcome =>
      cases outcome with
      | none => exact ⟨row, rfl, decided, by simp [decided]⟩
      | some change => simp [found, decided] at answer

theorem freed_consumed (threshold : Time) (row : PendingApproval) :
    (freed threshold row).consumed = row.consumed := by
  unfold freed
  split <;> rfl

theorem freed_approved (threshold : Time) (row : PendingApproval) :
    (freed threshold row).approved = row.approved := by
  unfold freed
  split <;> rfl

theorem consumeRow_consumes {row next : PendingApproval} {events : List ApprovalEvent}
    (decided : consumeRow approvalId row = .ok (some (next, events))) : next.consumed = true := by
  unfold consumeRow at decided
  split at decided
  · cases decided
  · split at decided
    · cases decided
    · split at decided
      · cases decided
      · cases decided
        rfl

theorem consume_authorized (backed : q.Backed) {clocks : Clocks}
    (answer : (q.consume approvalId clocks).1 = .ok true) :
    (q.consume approvalId clocks).2.Authorized approvalId := by
  have after : (q.consume approvalId clocks).2.Backed :=
    moves_invariant (fun _ _ => move_backed) backed
      (call_moves (fun _ => consumeRow_sanctioned) clocks.after)
  obtain ⟨row, next, events, -, decided, left⟩ := transactionThenGet_changed answer
  exact authorized_of_consumed after left ((freed_consumed _ next).trans (consumeRow_consumes decided))

theorem expireRow_refuses {row next : PendingApproval} {force : Bool} {now : Time} {events : List ApprovalEvent}
    (decided : expireRow approvalId row force now = .ok (some (next, events))) : next.approved = false := by
  unfold expireRow at decided
  split at decided
  · cases decided
  · split at decided
    · cases decided
    · split at decided
      · cases decided
      · cases decided
        rfl

theorem expireRow_unclaimed {now : Time}
    (decided : expireRow approvalId row false now = .ok none) : row.claimToken = none := by
  unfold expireRow at decided
  split at decided
  · cases decided
  next unclaimed => simpa using unclaimed

theorem expireIfUnresolved_authorized (backed : q.Backed) {clocks : Clocks}
    (answer : (q.expireIfUnresolved approvalId false clocks).1 = .ok (some true)) :
    (q.expireIfUnresolved approvalId false clocks).2.Authorized approvalId := by
  have after : (q.expireIfUnresolved approvalId false clocks).2.Backed :=
    moves_invariant (fun _ _ => move_backed) backed
      (expireIfUnresolved_moves q approvalId false clocks)
  simp only [expireIfUnresolved] at answer after ⊢
  cases result : ((q.releaseStaleClaims clocks.before).transactionThenGet approvalId
      (expireRow approvalId · false clocks.now) clocks.after).1 with
  | error raised => simp [result, Except.map] at answer
  | ok changed =>
    rw [result] at answer
    obtain ⟨row, found, reported⟩ := Option.bind_eq_some_iff.mp (Except.ok.inj answer)
    have decision : row.resolved = true ∧ row.approved = true := by simpa using reported
    cases changed with
    | true =>
      obtain ⟨old, next, events, -, decided, left⟩ := transactionThenGet_changed result
      obtain rfl := Option.some.inj (found.symm.trans left)
      rw [freed_approved, expireRow_refuses decided] at decision
      cases decision.2
    | false =>
      obtain ⟨old, before, decided, same⟩ := transactionThenGet_kept result
      rw [same] at found
      obtain rfl := Option.some.inj (before.symm.trans found)
      rw [same] at after ⊢
      exact authorized_of_ready after found
        (by simp [PendingApproval.ready, decision.1, expireRow_unclaimed decided]) decision.2

theorem waitRound_authorized (backed : q.Backed) {polled now : Time} {clocks : Clocks}
    (answer : (q.waitRound approvalId polled now clocks).1 = .ok (some true)) :
    (q.waitRound approvalId polled now clocks).2.Authorized approvalId := by
  have after := get_backed backed approvalId polled
  unfold waitRound at answer ⊢
  split at answer
  next => cases answer
  next entry polledQueue same =>
    have found := get_found (congrArg Prod.fst same)
    rw [same] at after found
    split at answer
    next ready =>
      rw [if_pos ready]
      exact authorized_of_ready after found ready (Option.some.inj (Except.ok.inj answer))
    next waiting =>
      rw [if_neg waiting]
      split at answer
      next lapsed =>
        rw [if_pos lapsed]
        exact expireIfUnresolved_authorized after answer
      next => cases Except.ok.inj answer

end Answers

/-- What is reported as approved or consumed was decided by someone since the approval was created or last
reopened. A token that lost its claim decides nothing, and each consumption has a decision of its own. -/
structure Authority (approvalId : String) (q : ApprovalQueue) : Prop where
  status : ∀ now info, (q.status approvalId now).1 = .ok info → info.approved = true ∨ info.consumed = true →
    (q.status approvalId now).2.Authorized approvalId
  waits : ∀ polled now clocks, (q.waitRound approvalId polled now clocks).1 = .ok (some true) →
    (q.waitRound approvalId polled now clocks).2.Authorized approvalId
  -- the end of a wait, with any calls since its last poll
  expires : ∀ clocks, (q.expireIfUnresolved approvalId false clocks).1 = .ok (some true) →
    (q.expireIfUnresolved approvalId false clocks).2.Authorized approvalId
  consumes : ∀ clocks, (q.consume approvalId clocks).1 = .ok true →
    (q.consume approvalId clocks).2.Authorized approvalId
  lost : ∀ token, Lost approvalId token q → ∀ later, Along step Permitted q later →
    (run step q later).Powerless approvalId token
  apart : SpentApart approvalId q.history

theorem approval_authority (defaultTimeout : Option Time) (claimTtlSeconds : Time) (ops : List ApprovalOp)
    (permitted : Along step Permitted (init defaultTimeout claimTtlSeconds) ops) (approvalId : String) :
    Authority approvalId (run step (init defaultTimeout claimTtlSeconds) ops) := by
  generalize ran : run step (init defaultTimeout claimTtlSeconds) ops = q
  have backed : q.Backed := ran ▸
    run_move_invariant (fun _ _ => move_backed) (init_backed defaultTimeout claimTtlSeconds) permitted
  have sound : q.leases.Sound := ran ▸
    run_move_invariant (fun _ _ => move_sound) (init_sound defaultTimeout claimTtlSeconds) permitted
  refine ⟨fun now info => status_authorized backed, fun polled now clocks => waitRound_authorized backed,
    fun clocks => expireIfUnresolved_authorized backed, fun clocks => consume_authorized backed,
        fun token lost later laterPermitted => ?_,
    backed.apart approvalId⟩
  have kept : (run step q later).leases.Sound ∧ Lost approvalId token (run step q later) :=
    run_move_invariant (I := fun q => q.leases.Sound ∧ Lost approvalId token q)
      (fun _ _ held move => ⟨move_sound held.1 move, move_lost held.1 held.2 move⟩) ⟨sound, lost⟩
      laterPermitted
  exact lost_powerless kept.2

/-- A claim goes stale and is replaced; the second holder approves, and the approval is consumed
and reopened before it is approved again. -/
def replacedClaim : List ApprovalOp :=
  [.request "a" "exec" .empty 0,
   .claimResolution "a" "late" .empty ⟨1, 1, 1⟩,
   .claimResolution "a" "next" .empty ⟨400, 400, 400⟩,
   .finalizeClaimedResolution "a" "next" true,
   .completeClaimedResolution "a" "next" 401,
   .consume "a" ⟨402, 402, 402⟩,
   .reopenResolvedApproval "a" true 403,
   .resolve "a" true true .empty ⟨404, 404, 404⟩]

theorem approval_authority_after_replacement :
    let q := run step (init (some 60) 60) replacedClaim
    (q.status "a" 405).2.Authorized "a" ∧
    (q.waitRound "a" 405 405 ⟨405, 405, 405⟩).2.Authorized "a" ∧
    (q.expireIfUnresolved "a" false ⟨405, 405, 405⟩).2.Authorized "a" ∧
    (q.consume "a" ⟨405, 405, 405⟩).2.Authorized "a" ∧
    (run step q [.consume "a" ⟨405, 405, 405⟩]).Powerless "a" "late" ∧
    (∃ early late, [.reopened "a", .resolved "a" true] = early ++ .reopened "a" :: late ∧
      Approves "a" late) := by
  intro q
  obtain ⟨reported, waited, expired, consumed, lost, -⟩ :=
    approval_authority (some 60) 60 replacedClaim (by decide +kernel) "a"
  have apart := (approval_authority (some 60) 60
    (replacedClaim ++ [.consume "a" ⟨405, 405, 405⟩]) (by decide +kernel) "a").apart
  have unclaimed : (q.rows.get? "a").map (·.claimToken) = some none := by decide +kernel
  refine ⟨?_, waited 405 405 ⟨405, 405, 405⟩ (by decide +kernel), expired ⟨405, 405, 405⟩ (by decide +kernel),
    consumed ⟨405, 405, 405⟩ (by decide +kernel), lost "late" ⟨by decide +kernel, ?_⟩ _ (by decide +kernel),
    ?_⟩
  · exact reported 405
      { id := "a", nspace := "exec", params := .empty, createdAt := 0, deadline := 60,
        resolved := true, approved := true, resolution := .approved, consumed := false }
      (by decide +kernel) (.inl rfl)
  · intro row found carried
    rw [found, Option.map_some, carried] at unclaimed
    cases unclaimed
  · exact apart [.requested "a", .claimed "a" "late", .released "a" "late", .claimed "a" "next",
      .finalized "a" "next" true, .completed "a" "next"] _ [] (by decide +kernel)

end ApprovalQueue

end OpenSquilla.Approvals
