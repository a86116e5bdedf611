import OpenSquilla.Activations.Operations

set_option autoImplicit false

namespace OpenSquilla.Activations

open PendingInputs (canonicalizeSessionKey)
open RaisingRuns Runs TextLines Transactions

namespace Value

theorem equals_str {value : Value} {text : Text} : value.equals (.str text) = true ↔ value = .str text := by
  cases value <;> simp [equals, number?]

theorem equals_int {value : Value} {number : Int} :
    value.equals (.int number) = true ↔ value.number? = some (number : Rat) := by
  cases value <;> simp [equals, number?]

end Value

-- The permit keeps its coordinates, and its state only leaves the active one.
structure ActivationPermit.Follows (before after : ActivationPermit) : Prop where
  kept : after = { before with
    state := after.state
    releasedAt := after.releasedAt }
  moves : after.state = before.state ∨ before.state = .active

namespace ActivationPermit.Follows

theorem refl (permit : ActivationPermit) : permit.Follows permit := ⟨rfl, .inl rfl⟩

theorem trans {one two three : ActivationPermit} (first : one.Follows two) (second : two.Follows three) :
    one.Follows three := by
  constructor
  · rw [second.kept, first.kept]
  · obtain same | active := first.moves
    · rw [← same]
      exact second.moves
    · exact .inr active

variable {before after : ActivationPermit}

theorem permitId (follows : before.Follows after) : after.permitId = before.permitId := by rw [follows.kept]

theorem taskId (follows : before.Follows after) : after.taskId = before.taskId := by rw [follows.kept]

theorem expiresAt (follows : before.Follows after) : after.expiresAt = before.expiresAt := by rw [follows.kept]

theorem closed_of_closed (follows : before.Follows after) (closed : before.state ≠ .active) :
    after.state ≠ .active := by
  obtain same | active := follows.moves
  · rwa [same]
  · exact absurd active closed

end ActivationPermit.Follows

namespace Permits

instance : Std.Symm PermitClash := ⟨fun _ _ clash => clash.imp Eq.symm Eq.symm⟩

inductive Change (before after : Permits) : Prop
  | updated (f : ActivationPermit → ActivationPermit)
      (follows : ∀ permit : ActivationPermit, permit.Follows (f permit))
      (rows : after.rows = before.rows.map f)
  | inserted (permit : ActivationPermit) (rows : after.rows = before.rows ++ [permit])

theorem Change.refl (permits : Permits) : permits.Change permits :=
  .updated id ActivationPermit.Follows.refl (List.map_id _).symm

theorem Change.follows {before after : Permits} (change : before.Change after) {permit : ActivationPermit}
    (mem : permit ∈ before.rows) : ∃ kept ∈ after.rows, permit.Follows kept := by
  cases change with
  | updated f follows rows =>
    refine ⟨f permit, ?_, follows permit⟩
    rw [rows]
    exact List.mem_map_of_mem mem
  | inserted added rows =>
    refine ⟨permit, ?_, .refl permit⟩
    rw [rows]
    exact List.mem_append_left _ mem

theorem close_rows (permits : Permits) (state : PermitState) (stamp : Option Int → Option Int)
    (chosen : ActivationPermit → Bool) : ∃ f, (∀ permit : ActivationPermit, permit.Follows (f permit)) ∧
      (permits.close state stamp chosen).rows = permits.rows.map f := by
  refine ⟨_, ?_, rfl⟩
  intro permit
  split
  next chosen => exact ⟨rfl, .inr chosen.2⟩
  next => exact .refl permit

theorem close_change (permits : Permits) (state : PermitState) (stamp : Option Int → Option Int)
    (chosen : ActivationPermit → Bool) : permits.Change (permits.close state stamp chosen) := by
  obtain ⟨f, follows, rows⟩ := permits.close_rows state stamp chosen
  exact .updated f follows rows

theorem eq_of_taskId {permits : Permits} {one two : ActivationPermit} (first : one ∈ permits.rows)
    (second : two ∈ permits.rows) (same : one.taskId = two.taskId) : one = two :=
  Table.eq_of_clash first second (.inr same)

end Permits

-- Everything about the claim that is checked outside the permits.
structure Authorized (libraries : Libraries) (store : Store) (claim : ActivationClaim) : Prop where
  task : ∃ task authority, store.tasks.get? claim.taskId = some task ∧
    task.sessionKey = claim.coordinates.sessionKey ∧ task.status = .queued ∧
    task.details.activationAuthority = some authority ∧ authority.matches? claim.coordinates = true ∧
    (authority.isNamedToken = true → ∃ publicId token, authority.tokenPublicId = .str publicId ∧
      store.tokens.get? publicId = some token ∧ token.revokedAt = none ∧
      token.authorizationRevision = claim.authorizationRevision ∧
      token.fingerprint libraries = some claim.permissionFingerprint)
  owner : store.sessions.get? claim.coordinates.sessionKey = some ⟨claim.sessionId, claim.sessionEpoch⟩

namespace Store

variable {libraries : Libraries} {store after : Store} {now : Int} {permitId : Text} {claim : ActivationClaim}

theorem queuedTask?_eq_some {taskId sessionKey : Text} {task : AgentTask}
    (found : store.queuedTask? taskId sessionKey = some task) :
    store.tasks.get? taskId = some task ∧ task.sessionKey = sessionKey ∧ task.status = .queued := by
  simpa only [queuedTask?, Option.filter_eq_some_iff, Bool.and_eq_true, decide_eq_true_eq] using found

theorem activeToken?_eq_some {publicId : Text} {token : SandboxToken}
    (found : store.activeToken? publicId = some token) :
    store.tokens.get? publicId = some token ∧ token.revokedAt = none := by
  simpa only [activeToken?, Option.filter_eq_some_iff, decide_eq_true_eq] using found

theorem publicId?_eq_some {authority : ActivationAuthority} {publicId : Text}
    (found : authority.publicId? = some publicId) : authority.tokenPublicId = .str publicId := by
  unfold ActivationAuthority.publicId? at found
  split at found
  next text same =>
    split at found
    · cases found
    · rw [same, Option.some.inj found]
  next => cases found

theorem token_of_raiseOnToken {authority : ActivationAuthority} {claimed : PermitCoordinates}
    (named : authority.isNamedToken = true) (passed : store.raiseOnToken libraries authority claimed = .ok ()) :
    ∃ publicId token, authority.tokenPublicId = .str publicId ∧ store.tokens.get? publicId = some token ∧
      token.revokedAt = none ∧ token.authorizationRevision = claimed.authorizationRevision ∧
      token.fingerprint libraries = some claimed.permissionFingerprint := by
  have tokenKind : ¬authority.isNamedToken = false := by rwa [Bool.not_eq_false]
  rw [raiseOnToken, if_neg tokenKind] at passed
  obtain ⟨publicId, identified, passed⟩ := of_bind_ok passed
  obtain ⟨token, found, passed⟩ := of_bind_ok passed
  obtain ⟨fingerprint, read, passed⟩ := of_bind_ok passed
  rw [orRaise_eq_ok] at identified found read
  rw [raiseIf_eq_ok, not_or, not_not, not_not] at passed
  obtain ⟨present, unrevoked⟩ := activeToken?_eq_some found
  refine ⟨publicId, token, publicId?_eq_some identified, present, unrevoked, passed.1, ?_⟩
  rw [read, passed.2]

theorem authorized_of_raiseOnAuthority (passed : store.raiseOnAuthority libraries claim = .ok ()) :
    Authorized libraries store claim := by
  obtain ⟨task, queued, passed⟩ := of_bind_ok passed
  obtain ⟨authority, snapshot, passed⟩ := of_bind_ok passed
  obtain ⟨_, same, passed⟩ := of_bind_ok passed
  obtain ⟨_, token, passed⟩ := of_bind_ok passed
  obtain ⟨_, valid, owner⟩ := of_bind_ok passed
  rw [orRaise_eq_ok] at queued snapshot
  rw [raiseIf_eq_ok, Bool.not_eq_false] at same owner
  obtain ⟨present, key, status⟩ := queuedTask?_eq_some queued
  constructor
  · exact ⟨task, authority, present, key, status, snapshot, same, fun named => token_of_raiseOnToken named token⟩
  · exact of_decide_eq_true owner

/-- The ways through a claim: an expired permit is closed, the active one is returned, or a new one is made. -/
inductive Claimed (now : Int) (permitId : Text) (claim : ActivationClaim) (store after : Store) :
    Option ActivationPermit → Prop
  | expires (permits : Permits) (change : store.permits.Change permits)
      (ids : permits.rows.map (·.permitId) = store.permits.rows.map (·.permitId))
      (same : after = { store with permits }) : Claimed now permitId claim store after none
  | again (permit : ActivationPermit) (mem : permit ∈ store.permits.rows)
      (task : permit.taskId = claim.taskId)
      (active : permit.state = .active) (coordinates : permit.coordinates = claim.coordinates)
      (unexpired : ¬permit.ExpiredAt now) (same : after = store) :
      Claimed now permitId claim store after (some permit)
  | fresh (permits : Permits) (first : ∀ permit ∈ store.permits.rows, permit.taskId ≠ claim.taskId)
      (rows : permits.rows = store.permits.rows ++ [newPermit now permitId claim])
      (same : after = { store with permits }) :
      Claimed now permitId claim store after (some (newPermit now permitId claim))

theorem of_claimBody {result : Option ActivationPermit}
    (ran : store.claimBody libraries now permitId claim = .ok (after, result)) :
    Authorized libraries store claim ∧ Claimed now permitId claim store after result := by
  obtain ⟨_, arguments, ran⟩ := of_bind_ok ran
  obtain ⟨_, authorized, ran⟩ := of_bind_ok ran
  refine ⟨authorized_of_raiseOnAuthority authorized, ?_⟩
  cases found : store.activationPermit? claim.taskId with
  | some permit =>
    have mem : permit ∈ store.permits.rows := List.mem_of_find?_eq_some found
    have task : permit.taskId = claim.taskId := by simpa using List.find?_some found
    rw [found] at ran
    dsimp only at ran
    split at ran
    next expired =>
      cases ran
      obtain ⟨f, follows, rows⟩ := store.permits.close_rows .expired (fun _ => some now)
        fun row => row.permitId = permit.permitId
      refine .expires _ (.updated f follows rows) ?_ rfl
      rw [rows, List.map_map]
      exact List.map_congr_left fun permit _ => (follows permit).permitId
    next fresh =>
      split at ran
      next same =>
        cases ran
        exact .again permit mem task same.1 same.2 (fun expired => fresh ⟨same.1, expired⟩) rfl
      next => cases ran
  | none =>
    rw [found] at ran
    obtain ⟨permits, inserted, ran⟩ := of_bind_ok ran
    cases ran
    rw [orRaise_eq_ok, Table.insert?_eq_some_iff] at inserted
    refine .fresh permits ?_ inserted.2 rfl
    intro permit mem
    simpa using List.find?_eq_none.mp found permit mem

theorem claimActivationPermit_cases (libraries : Libraries) (now : Int) (permitId : Text)
    (claim : ActivationClaim) (store : Store) :
    (∃ raised, store.claimActivationPermit libraries now permitId claim = (store, .error raised)) ∨
      ∃ after result, store.claimBody libraries now permitId claim = .ok (after, result) ∧
        store.claimActivationPermit libraries now permitId claim =
          (after, result.elim (.error (conflict "activation permit has expired")) .ok) := by
  unfold claimActivationPermit
  cases body : store.claimBody libraries now permitId claim with
  | error raised => exact .inl ⟨raised, rfl⟩
  | ok returned =>
    obtain ⟨after, result⟩ := returned
    refine .inr ⟨after, result, rfl, ?_⟩
    cases result with
    | none => rfl
    | some permit => rfl

/-- What every transaction leaves in place: the permits with their coordinates, and for each session a generation
that is no older. -/
structure Advances (before after : Store) : Prop where
  permits : Permits.Change before.permits after.permits
  sessions : ∀ key owner, before.sessions.get? key = some owner →
    ∃ later, after.sessions.get? key = some later ∧ (later = owner ∨ owner.epoch < later.epoch)

theorem Advances.of_same_sessions {store after : Store} (permits : Permits.Change store.permits after.permits)
    (sessions : after.sessions = store.sessions) : store.Advances after := by
  refine ⟨permits, ?_⟩
  intro key owner found
  exact ⟨owner, by rw [sessions, found], .inl rfl⟩

theorem Advances.refl (store : Store) : store.Advances store := .of_same_sessions (.refl _) rfl

theorem Claimed.advances {result : Option ActivationPermit}
    (claimed : Claimed now permitId claim store after result) : store.Advances after := by
  cases claimed with
  | expires permits change ids same =>
    rw [same]
    exact .of_same_sessions change rfl
  | again permit mem task active coordinates unexpired same =>
    rw [same]
    exact .refl store
  | fresh permits first rows same =>
    rw [same]
    exact .of_same_sessions (.inserted _ rows) rfl

theorem claimActivationPermit_advances (libraries : Libraries) (now : Int) (permitId : Text)
    (claim : ActivationClaim)
    (store : Store) : store.Advances (store.claimActivationPermit libraries now permitId claim).1 := by
  obtain ⟨raised, same⟩ | ⟨after, result, ran, same⟩ :=
    claimActivationPermit_cases libraries now permitId claim store
  · rw [same]
    exact .refl store
  · rw [same]
    exact (of_claimBody ran).2.advances

theorem releaseActivationPermit_advances (now : Int) (taskId sessionKey state : Text) (store : Store) :
    store.Advances (store.releaseActivationPermit now taskId sessionKey state).1 := by
  unfold releaseActivationPermit
  split
  · exact .refl store
  · exact .of_same_sessions (Permits.close_change _ _ _ _) rfl

theorem settleAgentTask_advances {taskId sessionKey : Text} {settlement : TaskSettlement}
    (ran : store.settleAgentTask taskId sessionKey settlement = .ok (after, ())) : store.Advances after := by
  obtain ⟨_, _, ran⟩ := of_bind_ok ran
  obtain ⟨task, _, ran⟩ := of_bind_ok ran
  obtain ⟨_, _, ran⟩ := of_bind_ok ran
  cases ran
  exact .of_same_sessions (Permits.close_change _ _ _ _) rfl

theorem markAbandonedAgentTasks_advances (now : Int) (store : Store) :
    store.Advances (store.markAbandonedAgentTasks now) := by
  refine .of_same_sessions ?_ rfl
  obtain ⟨first, interrupts, interrupted⟩ := store.permits.close_rows .released (·.or (some now))
    fun permit => (store.tasks.get? permit.taskId).any interrupted
  obtain ⟨second, sweeps, swept⟩ := Permits.close_rows _ .released (·.or (some now)) _
  refine .updated (second ∘ first) (fun permit => (interrupts permit).trans (sweeps (first permit))) ?_
  exact swept.trans (by rw [interrupted, List.map_map])

theorem createAgentTask_advances {taskId : Text} {task : AgentTask} {expected : Option (Text × Option Int)}
    (ran : store.createAgentTask taskId task expected = .ok (after, ())) : store.Advances after := by
  obtain ⟨_, _, ran⟩ := of_bind_ok ran
  obtain ⟨_, _, ran⟩ := of_bind_ok ran
  cases ran
  exact .of_same_sessions (.refl _) rfl

theorem updateAgentTask_advances {taskId : Text} {update : AgentTaskUpdate}
    (ran : store.updateAgentTask taskId update = .ok (after, ())) : store.Advances after := by
  obtain ⟨_, _, ran⟩ := of_bind_ok ran
  obtain ⟨task, _, ran⟩ := of_bind_ok ran
  cases ran
  exact .of_same_sessions (.refl _) rfl

theorem createToken_advances {publicId : Text} {token : SandboxToken}
    (ran : store.createToken publicId token = .ok (after, ())) : store.Advances after := by
  obtain ⟨_, _, ran⟩ := of_bind_ok ran
  cases ran
  exact .of_same_sessions (.refl _) rfl

theorem createSession_advances {sessionKey : Text} {owner : SessionOwner}
    (ran : store.createSession sessionKey owner = .ok (after, ())) : store.Advances after := by
  obtain ⟨_, absent, ran⟩ := of_bind_ok ran
  cases ran
  refine ⟨.refl _, ?_⟩
  intro key present found
  refine ⟨present, ?_, .inl rfl⟩
  rw [Dict.get?_set, if_neg, found]
  rintro rfl
  rw [raiseIf_eq_ok, found] at absent
  exact absent rfl

theorem resetSession_ok {reset : SessionReset} (ran : store.resetSession reset = .ok (after, ())) :
    let key := canonicalizeSessionKey reset.sessionKey
    reset.epoch = reset.expectedEpoch + 1 ∧
      store.sessions.get? key = some ⟨reset.expectedSessionId, reset.expectedEpoch⟩ ∧
      after = { store with
        sessions := store.sessions.set key ⟨reset.sessionId, reset.epoch⟩
        tasks := store.invalidateResetGeneration key reset } := by
  obtain ⟨_, _, ran⟩ := of_bind_ok ran
  obtain ⟨_, _, ran⟩ := of_bind_ok ran
  obtain ⟨_, next, ran⟩ := of_bind_ok ran
  obtain ⟨_, owned, ran⟩ := of_bind_ok ran
  cases ran
  rw [raiseIf_eq_ok, not_not] at next owned
  exact ⟨next, owned, rfl⟩

theorem resetSession_advances {reset : SessionReset} (ran : store.resetSession reset = .ok (after, ())) :
    store.Advances after := by
  obtain ⟨next, owned, rfl⟩ := resetSession_ok ran
  refine ⟨.refl _, ?_⟩
  intro key owner found
  by_cases same : canonicalizeSessionKey reset.sessionKey = key
  · refine ⟨_, by rw [Dict.get?_set, if_pos same.symm], .inr ?_⟩
    rw [same, found] at owned
    rw [Option.some.inj owned]
    dsimp only
    omega
  · exact ⟨owner, by rw [Dict.get?_set, if_neg (Ne.symm same), found], .inl rfl⟩

theorem apply_advances (libraries : Libraries) (now : Int) (store : Store) (operation : Operation) :
    store.Advances (store.apply libraries now operation) := by
  cases operation with
  | claim permitId claim => exact store.claimActivationPermit_advances libraries now permitId claim
  | release taskId sessionKey state => exact store.releaseActivationPermit_advances now taskId sessionKey state
  | createTask taskId task expected =>
    exact transact_keeps Advances (.refl store) fun after _ ran => createAgentTask_advances ran
  | updateTask taskId update =>
    exact transact_keeps Advances (.refl store) fun after _ ran => updateAgentTask_advances ran
  | settleTask taskId sessionKey settlement =>
    exact transact_keeps Advances (.refl store) fun after _ ran => settleAgentTask_advances ran
  | markAbandoned => exact store.markAbandonedAgentTasks_advances now
  | createSession sessionKey owner =>
    exact transact_keeps Advances (.refl store) fun after _ ran => createSession_advances ran
  | resetSession reset =>
    exact transact_keeps Advances (.refl store) fun after _ ran => resetSession_advances ran
  | createToken publicId token =>
    exact transact_keeps Advances (.refl store) fun after _ ran => createToken_advances ran
  | revokeToken publicId => exact .of_same_sessions (.refl _) rfl
  | editToken publicId edited => exact .of_same_sessions (.refl _) rfl

end Store

end OpenSquilla.Activations
