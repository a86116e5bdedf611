import OpenSquilla.Channels.StorageOperations

set_option autoImplicit false

namespace OpenSquilla.Channels.Storage

open Connections
open Ingress (IncomingMessage IngressRow Journal MessageCodec inboundEventKey)

def Passes (faults : Faults) (points : List Point) : Prop := ∀ point ∈ points, faults point = none

/-- What the handlers of `sqlite3.Error` are given is rolled back, unless that fails too. -/
def Handled (faults : Faults) : Option Fault → Prop
  | none => True
  | some .other => False
  | some .integrity | some .sqlite => faults .handlerRollback = none

section Pairings

variable (settings : Settings) (faults : Faults) (now : Time) (entry : Tables)

namespace PairingRequest

variable (request : PairingRequest)

@[simp] theorem isFor_refresh (row : PairingRow) :
    request.isFor (request.refresh now row) = request.isFor row := rfl

@[simp] theorem isFor_row : request.isFor (request.row now) = true := by
  simp [isFor, row]

theorem existing?_isSome_iff (pairings : PairingTable) :
    (request.existing? pairings).isSome ↔ ∃ stored ∈ pairings.entries, request.isFor stored.2 := by
  simp [existing?]

theorem of_existing? {pairings : PairingTable} {stored : String × PairingRow}
    (found : request.existing? pairings = some stored) :
    stored ∈ pairings.entries ∧ request.isFor stored.2 := by
  unfold existing? at found
  constructor
  · exact List.mem_of_find?_eq_some found
  · simpa using List.find?_some found

theorem existing?_upsert (pairingId : String) (pairings : PairingTable)
    (free : request.collides pairingId pairings = false) :
    (request.existing? (request.upsert now pairingId pairings)).isSome := by
  rw [existing?_isSome_iff]
  unfold upsert
  cases found : request.existing? pairings with
  | some stored =>
    obtain ⟨mem, own⟩ := request.of_existing? found
    have refreshed : (stored.1, request.refresh now stored.2) ∈
        pairings.entries.map (Dict.mapAt stored.1 (request.refresh now)) := by
      apply List.mem_map.mpr
      exact ⟨stored, mem, by simp [Dict.mapAt]⟩
    exact ⟨_, refreshed, by simpa using own⟩
  | none =>
    have absent : pairings.get? pairingId = none := by simpa [collides, found] using free
    have unused := (pairings.get?_eq_none_iff pairingId).mp absent
    refine ⟨(pairingId, request.row now), ?_, isFor_row now request⟩
    dsimp only
    rw [Dict.entries_set_of_absent pairings pairingId _ unused]
    simp

end PairingRequest

def prunedTables (writes : Nat) (tables : Tables) : Tables :=
  if (writes + 1) % pairingPruneEvery = 0 then
    { tables with channelPairings := dropStale settings now tables.channelPairings }
  else tables

def PersistUndisturbed (pairingId : String) (request : PairingRequest) (began : Tables) : Prop :=
  Passes faults [.write, .reselect, .commit] ∧
    request.collides pairingId began.channelPairings = false ∧
    (faults .result = none ∨
      { began with channelPairings := request.upsert now pairingId began.channelPairings } = entry)

theorem persistRequest_leaves_iff (pairingId : String) (request : PairingRequest) (began : Tables)
    (memory : Memory) : Leaves entry (persistRequest faults now pairingId request) ⟨began, some began, memory⟩ ↔
      PersistUndisturbed faults now entry pairingId request began := by
  unfold persistRequest PersistUndisturbed
  rw [leaves_arrive_open _ _ _ _ _ (Option.some_ne_none _), leaves_tablesNow]
  cases collides : request.collides pairingId began.channelPairings with
  | true => simp
  | false =>
    have stored := request.existing?_upsert now pairingId began.channelPairings collides
    obtain ⟨row, found⟩ := Option.isSome_iff_exists.mp stored
    simp [updatePairings, leaves_arrive_open, found, Passes, and_assoc]

def RequestUndisturbed (pairingId : String) (request : PairingRequest) (began : Tables) : Prop :=
  faults .select = none ∧
    match request.existing? began.channelPairings with
    | some (_, row) =>
      faults .compare = none ∧
        if request.repeats settings now row then
          faults .rollback = none ∧ (faults .result = none ∨ began = entry)
        else PersistUndisturbed faults now entry pairingId request began
    | none =>
      faults .count = none ∧
        if settings.maxPendingPairingsPerChannel ≤ request.pendingCount began.channelPairings then
          faults .rollback = none ∧ (faults .log = none ∨ began = entry)
        else PersistUndisturbed faults now entry pairingId request began

theorem decideRequest_leaves_iff (pairingId : String) (request : PairingRequest) (began : Tables)
    (memory : Memory) :
    Leaves entry (decideRequest settings faults now pairingId request) ⟨began, some began, memory⟩ ↔
      RequestUndisturbed settings faults now entry pairingId request began := by
  unfold decideRequest RequestUndisturbed
  rw [leaves_arrive_open _ _ _ _ _ (Option.some_ne_none _), leaves_tablesNow]
  apply and_congr_right
  intro _
  cases request.existing? began.channelPairings with
  | some stored =>
    dsimp only
    rw [leaves_arrive_open _ _ _ _ _ (Option.some_ne_none _)]
    apply and_congr_right
    intro _
    split
    · simp [answerRepeated, leaves_arrive_open, Session.rolledBack]
    · exact persistRequest_leaves_iff faults now entry pairingId request began memory
  | none =>
    dsimp only
    rw [leaves_arrive_open _ _ _ _ _ (Option.some_ne_none _)]
    apply and_congr_right
    intro _
    split
    · simp [refusePairing, leaves_arrive_open, Session.rolledBack]
    · exact persistRequest_leaves_iff faults now entry pairingId request began memory

theorem countPairingWrite_leaves_iff (tables : Tables) (memory : Memory) {α : Type}
    (next : Unit → StoreAction α) :
    Leaves entry (countPairingWrite settings now >>= next) ⟨tables, none, memory⟩ ↔
      Leaves entry (next ())
        ⟨prunedTables settings now memory.pairingWrites tables, none,
          { memory with pairingWrites := memory.pairingWrites + 1 }⟩ := by
  unfold countPairingWrite prunedTables
  simp only [bind_assoc, leaves_keep, leaves_keptNow]
  split
  · simp only [pruneStalePendingPairings, updatePairings, leaves_write]
  · simp only [pure_bind]

theorem requestPairing_leaves_iff (pairingId : String) (request : PairingRequest) (tables : Tables)
    (memory : Memory) :
    Leaves tables (requestPairing settings faults now pairingId request) ⟨tables, none, memory⟩ ↔
      (stripped request.channelName = "" ∨ stripped request.senderId = "" ∨
        RequestUndisturbed settings faults now tables pairingId request
          (prunedTables settings now memory.pairingWrites tables)) := by
  unfold requestPairing
  rw [← or_assoc]
  split
  next refused => simp [refused]
  next accepted =>
    rw [countPairingWrite_leaves_iff, beginImmediate, leaves_begin _ _ _ _ rfl,
      decideRequest_leaves_iff]
    simp [accepted]

def StatusUndisturbed (channelName pairingId status : String) (tables : Tables) : Prop :=
  faults .write = none ∧
    match pairingOf? channelName pairingId tables.channelPairings with
    | none => faults .rollback = none
    | some row =>
      Passes faults [.reselect, .commit] ∧ (faults .result = none ∨ decided now status row = row)

theorem modify_eq_self_iff {pairings : PairingTable} {pairingId : String} {row : PairingRow}
    (found : pairings.get? pairingId = some row) (change : PairingRow → PairingRow) :
    pairings.modify pairingId change = pairings ↔ change row = row := by
  constructor
  · intro same
    have changed := Dict.get?_modify pairings pairingId pairingId change
    rw [same, if_pos rfl, found] at changed
    exact (Option.some.inj changed).symm
  · intro fixed
    apply Dict.modify_of_fixed
    intro value stored
    rw [found] at stored
    rwa [← Option.some.inj stored]

theorem pairingOf?_decided {pairings : PairingTable} {channelName pairingId : String} {row : PairingRow}
    (found : pairingOf? channelName pairingId pairings = some row) (status : String) :
    pairingOf? channelName pairingId (pairings.modify pairingId (decided now status)) =
      some (decided now status row) := by
  obtain ⟨stored, own⟩ := Option.filter_eq_some_iff.mp found
  unfold pairingOf?
  rw [Dict.get?_modify, if_pos rfl, stored]
  exact Option.filter_eq_some_iff.mpr ⟨rfl, own⟩

theorem setPairingStatus_leaves_iff (channelName pairingId status : String) (tables : Tables)
    (memory : Memory) :
    Leaves tables (setPairingStatus faults now channelName pairingId status) ⟨tables, none, memory⟩ ↔
      ((status ≠ "approved" ∧ status ≠ "revoked") ∨
        StatusUndisturbed faults now channelName pairingId status tables) := by
  unfold setPairingStatus StatusUndisturbed
  split
  next unknown => simp [unknown]
  next known =>
    rw [beginImmediate, leaves_begin _ _ _ _ rfl,
      leaves_arrive_open _ _ _ _ _ (Option.some_ne_none _), leaves_tablesNow, or_iff_right known]
    apply and_congr_right
    intro _
    cases found : pairingOf? channelName pairingId tables.channelPairings with
    | none => simp [leaves_arrive_open, Session.rolledBack]
    | some row =>
      have stored := (Option.filter_eq_some_iff.mp found).1
      have same : ({ tables with
          channelPairings := tables.channelPairings.modify pairingId (decided now status) } = tables) ↔
          decided now status row = row := by
        rw [← modify_eq_self_iff stored]
        constructor
        · exact congrArg Tables.channelPairings
        · intro kept
          rw [kept]
      simp [updatePairings, leaves_arrive_open, pairingOf?_decided now found, Passes, same, and_assoc]

end Pairings

section Inbound

variable (codec : MessageCodec) (settings : Settings) (faults : Faults) (now : Time)

def insertFault (eventKey : String) (journal : Journal) : Option Fault :=
  (faults .write).or (if (journal.get? eventKey).isSome then some .integrity else none)

theorem ends_insertRow {α : Type} (post : Except Fault α → StoreSession → Prop) (eventKey : String)
    (row : IngressRow) (next : Unit → StoreAction α) (session : StoreSession) :
    Ends post (insertRow faults eventKey row >>= next) session ↔
      match insertFault faults eventKey session.tables.channelIngress with
      | none =>
        Ends post (next ()) { session with
          tables := { session.tables with
            channelIngress := session.tables.channelIngress.set eventKey row } }
      | some fault => post (.error fault) session := by
  unfold insertRow insertFault
  rw [bind_assoc, ends_arrive]
  cases faults .write with
  | some fault => rfl
  | none =>
    simp only [bind_assoc, ends_tablesNow]
    split
    · rfl
    · simp only [updateIngress, ends_write]
      rfl

theorem ends_suppressedRollback {α : Type} (post : Except Fault α → StoreSession → Prop)
    (next : Unit → StoreAction α) (session : StoreSession) :
    Ends post (suppressedRollback faults >>= next) session ↔
      match faults .handlerRollback with
      | none => Ends post (next ()) session.rolledBack
      | some .other => post (.error .other) session
      | some .integrity | some .sqlite => Ends post (next ()) session := by
  unfold suppressedRollback
  rw [ends_bind, ends_tryCatch, ends_arrive]
  cases faults .handlerRollback with
  | none => rfl
  | some fault => cases fault <;> rfl

variable {session : StoreSession}

theorem suppressedRollback_leaves_open {entry : Tables} {α : Type}
    (opened : session.began = some entry) (next : Unit → StoreAction α)
    (closes : ∀ memory, Leaves entry (next ()) ⟨entry, none, memory⟩)
    (opens : ¬Leaves entry (next ()) session) :
    Leaves entry (suppressedRollback faults >>= next) session ↔ faults .handlerRollback = none := by
  unfold Leaves at *
  rw [ends_suppressedRollback]
  cases raised : faults .handlerRollback with
  | none => simpa [Session.rolledBack, opened] using closes session.kept
  | some fault => cases fault <;> simp [opens, opened]

theorem suppressedRollback_leaves_closed {α : Type}
    (closed : session.began = none) (next : Unit → StoreAction α)
    (closes : Leaves session.tables (next ()) session) :
    Leaves session.tables (suppressedRollback faults >>= next) session := by
  have rolled : session.rolledBack = session := by
    cases session
    cases closed
    rfl
  unfold Leaves at *
  rw [ends_suppressedRollback, rolled]
  cases faults .handlerRollback with
  | none => exact closes
  | some fault => cases fault <;> simp [closes, closed]

theorem degrade_leaves_open {entry : Tables} (eventKey : String)
    (opened : session.began = some entry) (fault : Fault) :
    Leaves entry (degrade faults eventKey fault) session ↔ Handled faults (some fault) := by
  have caught : Leaves entry
      (suppressedRollback faults >>= fun _ => do
        keep (addUnjournaled eventKey)
        arrive faults .log
        return true) session ↔ faults .handlerRollback = none := by
    apply suppressedRollback_leaves_open faults opened
    · intro memory
      simp
    · simp [opened]
  cases fault with
  | other => simp [degrade, Handled, opened]
  | integrity | sqlite => exact caught

theorem degrade_leaves_closed (eventKey : String) (closed : session.began = none) (fault : Fault) :
    Leaves session.tables (degrade faults eventKey fault) session := by
  cases fault with
  | other => simp [degrade, closed]
  | integrity | sqlite =>
    apply suppressedRollback_leaves_closed faults closed
    simp [closed]

def AcceptUndisturbed (eventKey : String) (tables : Tables) : Prop :=
  match insertFault faults eventKey tables.channelIngress with
  | none => Handled faults (faults .commit)
  | some .integrity => Handled faults (faults .rollback)
  | some fault => Handled faults (some fault)

theorem commitAccepted_recovers_iff {entry : Tables} (eventKey : String) (opened : session.began = some entry) :
    Ends (Recovers (LeftBy entry) (degrade faults eventKey)) (commitAccepted faults) session ↔
      Handled faults (faults .commit) := by
  unfold commitAccepted
  rw [ends_arrive]
  cases faults .commit with
  | none => simp only [ends_commit, ends_pure, Recovers, leftBy_ok, Handled]
  | some fault => exact degrade_leaves_open faults eventKey opened fault

theorem acceptDuplicate_recovers_iff (eventKey : String) (opened : session.began = some session.tables) :
    Ends (Recovers (LeftBy session.tables) (degrade faults eventKey))
      (acceptDuplicate faults eventKey) session ↔ Handled faults (faults .rollback) := by
  unfold acceptDuplicate
  rw [ends_arrive]
  cases faults .rollback with
  | some fault => exact degrade_leaves_open faults eventKey opened fault
  | none =>
    have restored : session.rolledBack.tables = session.tables := by
      simp [Session.rolledBack, opened]
    have closed : session.rolledBack.began = none := rfl
    simp only [ends_rollback, Handled, iff_true]
    rw [ends_arrive]
    cases faults .reselect with
    | some fault =>
      have left := degrade_leaves_closed faults eventKey closed fault
      rwa [restored] at left
    | none =>
      simp only [ends_tablesNow, ends_keptNow]
      split
      · simp only [ends_keep, ends_pure, Recovers, leftBy_ok, closed]
      · simp only [ends_pure, Recovers, leftBy_ok, closed]

theorem acceptJournaled_leaves_iff (eventKey : String) (row : IngressRow) (tables : Tables) (memory : Memory) :
    Leaves tables (tryCatch (acceptJournaled faults eventKey row) (degrade faults eventKey))
        ⟨tables, none, memory⟩ ↔
      AcceptUndisturbed faults eventKey tables := by
  unfold acceptJournaled AcceptUndisturbed
  rw [leaves_tryCatch, beginImmediate, ends_begin _ _ _ _ rfl, ends_bind]
  unfold insertAccepted
  rw [ends_tryCatch, ends_insertRow]
  dsimp only
  cases insertFault faults eventKey tables.channelIngress with
  | none => exact commitAccepted_recovers_iff faults eventKey rfl
  | some fault =>
    cases fault with
    | integrity => exact acceptDuplicate_recovers_iff faults eventKey rfl
    | sqlite => exact degrade_leaves_open faults eventKey rfl .sqlite
    | other => exact degrade_leaves_open faults eventKey rfl .other

def Journaled (eventKey : String) (memory : Memory) : Prop :=
  eventKey ∉ memory.claimedUnjournaledEvents ∧ eventKey ∉ memory.unjournaledEvents

theorem acceptInbound_leaves_iff (channelName : String) (message : IncomingMessage) (tables : Tables)
    (memory : Memory) :
    Leaves tables (acceptInbound codec faults now channelName message) ⟨tables, none, memory⟩ ↔
      ∀ eventKey, inboundEventKey channelName message = some eventKey →
        Journaled eventKey memory → AcceptUndisturbed faults eventKey tables := by
  unfold acceptInbound Journaled
  cases inboundEventKey channelName message with
  | none => simp
  | some eventKey =>
    dsimp only
    rw [leaves_keptNow]
    split
    next claimed =>
      rw [leaves_keep, leaves_pure]
      simpa using fun unclaimed => absurd claimed unclaimed
    next unclaimed =>
      split
      next remembered => simp [remembered]
      next unknown =>
        rw [acceptJournaled_leaves_iff]
        simp [unclaimed, unknown]

def PromotionUndisturbed (eventKey : String) (tables : Tables) : Prop :=
  match insertFault faults eventKey tables.channelIngress with
  | none => Handled faults (faults .commit)
  | some fault => Handled faults (some fault)

theorem promotionFailed_leaves_iff {entry : Tables} (eventKey : String)
    (opened : session.began = some entry) (fault : Fault) :
    Leaves entry (promotionFailed settings faults eventKey fault) session ↔
      Handled faults (some fault) := by
  cases fault with
  | other => simp [promotionFailed, Handled, opened]
  | integrity | sqlite =>
    apply suppressedRollback_leaves_open faults opened
    · intro memory
      rw [leaves_keep, leaves_pure]
    · rw [leaves_keep, leaves_pure]
      simp [opened]

theorem claimUnjournaled_leaves_iff (token eventKey : String) (row : IngressRow) (tables : Tables)
    (memory : Memory) :
    Leaves tables (claimUnjournaled settings faults token eventKey row) ⟨tables, none, memory⟩ ↔
      PromotionUndisturbed faults eventKey tables := by
  unfold claimUnjournaled promote PromotionUndisturbed
  simp only [bind_assoc]
  rw [leaves_tryCatch, beginImmediate, ends_begin _ _ _ _ rfl, ends_insertRow]
  dsimp only
  cases insertFault faults eventKey tables.channelIngress with
  | some fault => exact promotionFailed_leaves_iff settings faults eventKey rfl fault
  | none =>
    dsimp only
    rw [ends_arrive]
    cases faults .commit with
    | none => simp only [ends_commit, ends_keep, ends_pure, Recovers, leftBy_ok, Handled]
    | some fault => exact promotionFailed_leaves_iff settings faults eventKey rfl fault

def ClaimUndisturbed (channelName eventKey : String) (tables : Tables) : Prop :=
  faults .write = none ∧
    if claimable channelName eventKey tables.channelIngress then faults .commit = none
    else faults .rollback = none

theorem claimAccepted_leaves_iff (token channelName eventKey : String) (tables : Tables) (memory : Memory) :
    Leaves tables (claimAccepted faults now token channelName eventKey) ⟨tables, none, memory⟩ ↔
      ClaimUndisturbed faults channelName eventKey tables := by
  unfold claimAccepted ClaimUndisturbed
  rw [beginImmediate, leaves_begin _ _ _ _ rfl, leaves_arrive_open _ _ _ _ _ (Option.some_ne_none _),
    leaves_tablesNow]
  apply and_congr_right
  intro _
  dsimp only
  split
  · rw [updateIngress, leaves_write, leaves_arrive_open _ _ _ _ _ (Option.some_ne_none _),
      leaves_commit, leaves_pure]
    simp
  · rw [leaves_arrive_open _ _ _ _ _ (Option.some_ne_none _), leaves_rollback, leaves_pure]
    simp [Session.rolledBack]

/-- A claim goes through the journal, through its promotion to the journal, or through neither. -/
def InboundClaimUndisturbed (channelName eventKey : String) (tables : Tables) (memory : Memory) : Prop :=
  if eventKey ∈ memory.claimedUnjournaledEvents then True
  else if eventKey ∈ memory.unjournaledEvents then PromotionUndisturbed faults eventKey tables
  else ClaimUndisturbed faults channelName eventKey tables

theorem claimInbound_leaves_iff (token channelName : String) (message : IncomingMessage)
    (tables : Tables) (memory : Memory) :
    Leaves tables (claimInbound codec settings faults now token channelName message)
        ⟨tables, none, memory⟩ ↔
      ∀ eventKey, inboundEventKey channelName message = some eventKey →
        InboundClaimUndisturbed faults channelName eventKey tables memory := by
  unfold claimInbound InboundClaimUndisturbed
  cases inboundEventKey channelName message with
  | none => simp
  | some eventKey =>
    simp only [Option.some.injEq, forall_eq']
    rw [leaves_keptNow]
    dsimp only
    split
    · rw [leaves_keep, leaves_pure]
      simp
    · split
      · exact claimUnjournaled_leaves_iff settings faults token eventKey _ tables memory
      · exact claimAccepted_leaves_iff faults now token channelName eventKey tables memory

def NoneInterrupted (channelName : String) (journal : Journal) : Prop :=
  ∀ row ∈ journal.values, row.interrupted channelName = false

theorem release_eq_self_iff (channelName : String) (row : IngressRow) :
    row.release now channelName = row ↔ row.interrupted channelName = false := by
  unfold IngressRow.release
  split
  next interrupted =>
    simp only [interrupted, Bool.true_eq_false, iff_false]
    intro same
    have accepted : row.state = .accepted := by rw [← same]
    simp [IngressRow.interrupted, accepted, Ingress.IngressState.claimToken] at interrupted
  next settled => simpa using settled

theorem releaseInterrupted_eq_self_iff (channelName : String) (journal : Journal) :
    releaseInterrupted now channelName journal = journal ↔ NoneInterrupted channelName journal := by
  obtain ⟨entries, nodup⟩ := journal
  have pointwise : releaseInterrupted now channelName ⟨entries, nodup⟩ = ⟨entries, nodup⟩ ↔
      ∀ stored ∈ entries, (stored.1, stored.2.release now channelName) = stored := by
    unfold releaseInterrupted Dict.mapValues
    rw [Dict.mk.injEq]
    nth_rewrite 2 [← List.map_id entries]
    exact List.map_inj_left
  rw [pointwise]
  unfold NoneInterrupted Dict.values
  simp only [List.mem_map, forall_exists_index, and_imp, forall_apply_eq_imp_iff₂]
  apply forall₂_congr
  intro stored _
  rw [← release_eq_self_iff now]
  simp [Prod.ext_iff]

def RecoverUndisturbed (channelName : String) (tables : Tables) : Prop :=
  Passes faults [.write, .select, .visibility, .commit] ∧
    (faults .result = none ∨ NoneInterrupted channelName tables.channelIngress)

theorem recoverInbound_leaves_iff (channelName : String) (tables : Tables) (memory : Memory) :
    Leaves tables (recoverInbound codec faults now channelName) ⟨tables, none, memory⟩ ↔
      RecoverUndisturbed faults channelName tables := by
  have same : ({ tables with
      channelIngress := releaseInterrupted now channelName tables.channelIngress } = tables) ↔
      NoneInterrupted channelName tables.channelIngress := by
    rw [← releaseInterrupted_eq_self_iff now]
    constructor
    · exact congrArg Tables.channelIngress
    · intro kept
      rw [kept]
  unfold recoverInbound RecoverUndisturbed
  rw [beginImmediate, leaves_begin _ _ _ _ rfl]
  simp [updateIngress, leaves_arrive_open, Passes, same, and_assoc]

end Inbound

section Leases

variable (faults : Faults) (now : Time)

def AcquireUndisturbed (channelName accountId ownerId : String) (tables : Tables) : Prop :=
  Passes faults [.select, .compare] ∧
    if (tables.channelTransportLeases.get? (channelName, accountId)).any (heldByOther now ownerId) then
      faults .rollback = none
    else Passes faults [.fencing, .write, .commit]

theorem acquireLease_leaves_iff (channelName accountId ownerId : String) (ttlSeconds : Time)
    (tables : Tables) (memory : Memory) :
    Leaves tables (acquireLease faults now channelName accountId ownerId ttlSeconds)
        ⟨tables, none, memory⟩ ↔
      AcquireUndisturbed faults now channelName accountId ownerId tables := by
  unfold acquireLease AcquireUndisturbed
  dsimp only
  rw [beginImmediate, leaves_begin _ _ _ _ rfl, leaves_arrive_open _ _ _ _ _ (Option.some_ne_none _),
    leaves_tablesNow, leaves_arrive_open _ _ _ _ _ (Option.some_ne_none _), ← and_assoc]
  apply and_congr
  · simp [Passes]
  · split
    · rw [leaves_arrive_open _ _ _ _ _ (Option.some_ne_none _), leaves_rollback, leaves_pure]
      simp [Session.rolledBack]
    · rw [leaves_arrive_open _ _ _ _ _ (Option.some_ne_none _),
        leaves_arrive_open _ _ _ _ _ (Option.some_ne_none _), updateLeases, leaves_write,
        leaves_arrive_open _ _ _ _ _ (Option.some_ne_none _), leaves_commit, leaves_pure]
      simp [Passes]

end Leases

structure Store where
  tables : Tables
  memory : Memory

def Store.session (store : Store) : StoreSession := ⟨store.tables, none, store.memory⟩

section Operations

variable (codec : MessageCodec) (settings : Settings) (faults : Faults) (now : Time)

/-- The operation leaves no transaction open, changed nothing if it raised, and the next one can
begin its own. -/
structure LeavesStorage (operation : Operation) (store : Store) : Prop where
  closed : (outcome (operation.run codec settings faults now) store.session).2.began = none
  unchanged : ∀ fault,
    (outcome (operation.run codec settings faults now) store.session).1 = .error fault →
      (outcome (operation.run codec settings faults now) store.session).2.tables = store.tables
  ready : (outcome beginImmediate
    (outcome (operation.run codec settings faults now) store.session).2).1 = .ok ()

theorem leavesStorage_iff (operation : Operation) (store : Store) :
    LeavesStorage codec settings faults now operation store ↔
      Leaves store.tables (operation.run codec settings faults now) store.session := by
  constructor
  · intro left
    exact ⟨left.closed, left.unchanged⟩
  · intro left
    exact ⟨left.1, left.2, (begins_iff _ Fault.sqlite).mpr left.1⟩

/-- Nothing raises that the operation does not undo: nothing inside its transaction, but for the
database's errors where they are caught and the rollback succeeds, and nothing behind a commit that
changed the tables. -/
def Undisturbed (store : Store) : Operation → Prop
  | .requestPairing pairingId request =>
    stripped request.channelName = "" ∨ stripped request.senderId = "" ∨
      RequestUndisturbed settings faults now store.tables pairingId request
        (prunedTables settings now store.memory.pairingWrites store.tables)
  | .setPairingStatus channelName pairingId status =>
    (status ≠ "approved" ∧ status ≠ "revoked") ∨
      StatusUndisturbed faults now channelName pairingId status store.tables
  | .acceptInbound channelName message =>
    ∀ eventKey, inboundEventKey channelName message = some eventKey →
      Journaled eventKey store.memory → AcceptUndisturbed faults eventKey store.tables
  | .claimInbound _ channelName message =>
    ∀ eventKey, inboundEventKey channelName message = some eventKey →
      InboundClaimUndisturbed faults channelName eventKey store.tables store.memory
  | .recoverInbound channelName => RecoverUndisturbed faults channelName store.tables
  | .acquireTransportLease channelName accountId ownerId _ =>
    AcquireUndisturbed faults now channelName accountId ownerId store.tables

theorem operation_leaves_storage_iff (operation : Operation) (store : Store) :
    LeavesStorage codec settings faults now operation store ↔
      Undisturbed settings faults now store operation := by
  rw [leavesStorage_iff]
  cases operation with
  | requestPairing pairingId request =>
    rw [Operation.run, leaves_map]
    exact requestPairing_leaves_iff settings faults now pairingId request store.tables store.memory
  | setPairingStatus channelName pairingId status =>
    rw [Operation.run, leaves_map]
    exact setPairingStatus_leaves_iff faults now channelName pairingId status store.tables store.memory
  | acceptInbound channelName message =>
    rw [Operation.run, leaves_map]
    exact acceptInbound_leaves_iff codec faults now channelName message store.tables store.memory
  | claimInbound token channelName message =>
    rw [Operation.run, leaves_map]
    exact claimInbound_leaves_iff codec settings faults now token channelName message store.tables
      store.memory
  | recoverInbound channelName =>
    rw [Operation.run, leaves_map]
    exact recoverInbound_leaves_iff codec faults now channelName store.tables store.memory
  | acquireTransportLease channelName accountId ownerId ttlSeconds =>
    rw [Operation.run, leaves_map]
    exact acquireLease_leaves_iff faults now channelName accountId ownerId ttlSeconds store.tables
      store.memory

end Operations

def failingWrite : Faults := fun point => if point = .write then some .sqlite else none

/-- The lease's transaction stays open, and the next operation cannot begin its own. -/
theorem acquire_leaves_transaction_open :
    ¬∀ (codec : MessageCodec) (settings : Settings) (faults : Faults) (now : Time)
      (operation : Operation) (store : Store),
      LeavesStorage codec settings faults now operation store := by
  intro always
  have left := always ⟨fun _ => "", fun _ => none⟩ {} failingWrite 0
    (.acquireTransportLease "telegram" "bot" "worker" 120) ⟨{}, {}⟩
  have undisturbed := (leavesStorage_iff _ _ _ _ _ _).mp left
  rw [Operation.run, leaves_map, Store.session, acquireLease_leaves_iff] at undisturbed
  have written := undisturbed.2
  rw [if_neg (by decide)] at written
  exact absurd (written .write (by decide)) (by decide)

end OpenSquilla.Channels.Storage
