import OpenSquilla.Activations.Permits

set_option autoImplicit false

namespace OpenSquilla.Activations

open PendingInputs (canonicalizeSessionKey)
open RaisingRuns Runs TextLines Transactions

structure Granted (libraries : Libraries) (store : Store) (now : Int) (claim : ActivationClaim)
    (permit : ActivationPermit) : Prop extends Authorized libraries store claim where
  taskId : permit.taskId = claim.taskId
  active : permit.state = .active
  coordinates : permit.coordinates = claim.coordinates
  /-- A permit that was there is unexpired, and a new one takes the expiry of the claim as it is. -/
  current : permit ∈ store.permits.rows ∧ ¬permit.ExpiredAt now ∨
    (∀ other ∈ store.permits.rows, other.taskId ≠ claim.taskId) ∧ permit.expiresAt = claim.expiresAt

-- The snapshot was taken of this generation of the session.
def ActivationAuthority.names (authority : ActivationAuthority) (sessionId : Text) (epoch : Int) : Bool :=
  authority.sessionId.equals (.str sessionId) && authority.sessionEpoch.equals (.int epoch)

theorem ActivationAuthority.coordinates_of_names {authority : ActivationAuthority} {claimed : PermitCoordinates}
    {sessionId : Text} {epoch : Int} (matching : authority.matches? claimed = true)
    (named : authority.names sessionId epoch = true) :
    claimed.sessionId = sessionId ∧ claimed.sessionEpoch = epoch := by
  simp only [matches?, names, Bool.and_eq_true, Value.equals_str, Value.equals_int] at matching named
  obtain ⟨⟨⟨sameId, sameEpoch⟩, -⟩, -⟩ := matching
  rw [named.1] at sameId
  rw [named.2] at sameEpoch
  cases sameId
  exact ⟨rfl, by exact_mod_cast (Option.some.inj sameEpoch).symm⟩

namespace Store

variable {libraries : Libraries} {store after : Store} {now : Int} {permitId : Text} {claim : ActivationClaim}
  {permit : ActivationPermit}

theorem granted_of_claim (returned : (store.claimActivationPermit libraries now permitId claim).2 = .ok permit) :
    Granted libraries store now claim permit := by
  obtain ⟨raised, same⟩ | ⟨after, result, ran, same⟩ :=
    claimActivationPermit_cases libraries now permitId claim store
  · rw [same] at returned
    cases returned
  · rw [same] at returned
    obtain ⟨authorized, claimed⟩ := of_claimBody ran
    cases claimed with
    | expires => cases returned
    | again permit mem task active coordinates unexpired =>
      cases returned
      exact ⟨authorized, task, active, coordinates, .inl ⟨mem, unexpired⟩⟩
    | fresh permits first rows =>
      cases returned
      exact ⟨authorized, rfl, rfl, rfl, .inr ⟨first, rfl⟩⟩

theorem ids_of_claim_raised {raised : Raised}
    (failed : (store.claimActivationPermit libraries now permitId claim).2 = .error raised) :
    (store.claimActivationPermit libraries now permitId claim).1.permits.rows.map (·.permitId) =
      store.permits.rows.map (·.permitId) := by
  obtain ⟨error, same⟩ | ⟨after, result, ran, same⟩ :=
    claimActivationPermit_cases libraries now permitId claim store
  · rw [same]
  · rw [same] at failed ⊢
    cases (of_claimBody ran).2 with
    | expires permits change ids closed =>
      rw [closed]
      exact ids
    | again => cases failed
    | fresh => cases failed

theorem not_granted_of_spent (mem : permit ∈ store.permits.rows)
    (spent : permit.state ≠ .active ∨ permit.ExpiredAt now) (task : claim.taskId = permit.taskId)
    {granted : ActivationPermit} :
    (store.claimActivationPermit libraries now permitId claim).2 ≠ .ok granted := by
  intro returned
  have found := granted_of_claim returned
  obtain ⟨present, unexpired⟩ | ⟨first, -⟩ := found.current
  · have same : permit = granted := Permits.eq_of_taskId mem present (task.symm.trans found.taskId.symm)
    rw [same] at spent
    exact spent.elim (fun closed => closed found.active) unexpired
  · exact first permit mem task.symm

end Store

theorem ActivationPermit.ExpiredAt.later {permit : ActivationPermit} {early late : Int}
    (expired : permit.ExpiredAt early) (order : early ≤ late) : permit.ExpiredAt late := by
  obtain ⟨expiry, present, passed⟩ := expired
  exact ⟨expiry, present, le_trans passed order⟩

namespace World

variable {libraries : Libraries} {world : World} {later : List Transaction}

theorem run_follows {permit : ActivationPermit} (mem : permit ∈ world.store.permits.rows)
    (later : List Transaction) :
    ∃ kept ∈ (run (step libraries) world later).store.permits.rows, permit.Follows kept := by
  refine run_invariant (fun world : World => ∃ kept ∈ world.store.permits.rows, permit.Follows kept) ?_
    ⟨permit, mem, .refl permit⟩ later
  intro world transaction ⟨kept, present, follows⟩
  obtain ⟨next, mem, moved⟩ :=
    (world.store.apply_advances libraries transaction.now transaction.operation).permits.follows present
  exact ⟨next, mem, follows.trans moved⟩

theorem run_clock (permitted : Along (step libraries) Permitted world later) :
    world.clock ≤ (run (step libraries) world later).clock := by
  refine run_invariant_along (fun reached => world.clock ≤ reached.clock) ?_ le_rfl later permitted
  intro reached transaction behind permitted
  exact le_trans behind permitted

theorem run_generation {key : Text} {epoch : Int} {owner : SessionOwner}
    (found : world.store.sessions.get? key = some owner) (behind : epoch < owner.epoch)
    (later : List Transaction) :
    ∃ current, (run (step libraries) world later).store.sessions.get? key = some current ∧
      epoch < current.epoch := by
  refine run_invariant
    (fun world : World => ∃ current, world.store.sessions.get? key = some current ∧ epoch < current.epoch) ?_
    ⟨owner, found, behind⟩ later
  intro world transaction ⟨current, present, behind⟩
  obtain ⟨next, reached, same | newer⟩ :=
    (world.store.apply_advances libraries transaction.now transaction.operation).sessions key current present
  · exact ⟨next, reached, same ▸ behind⟩
  · exact ⟨next, reached, behind.trans newer⟩

theorem not_granted_after_spent {permit : ActivationPermit} (mem : permit ∈ world.store.permits.rows)
    (spent : permit.state ≠ .active ∨ permit.ExpiredAt world.clock)
    (permitted : Along (step libraries) Permitted world later) {now : Int} {permitId : Text}
    {claim : ActivationClaim}
    (timely : (run (step libraries) world later).clock ≤ now) (task : claim.taskId = permit.taskId)
    {granted : ActivationPermit} :
    ((run (step libraries) world later).store.claimActivationPermit libraries now permitId claim).2 ≠
      .ok granted := by
  have moved : ∃ kept ∈ (run (step libraries) world later).store.permits.rows, permit.Follows kept :=
    run_follows mem later
  obtain ⟨kept, present, follows⟩ := moved
  apply Store.not_granted_of_spent present
  · obtain closed | expired := spent
    · exact .inl (follows.closed_of_closed closed)
    · refine .inr ?_
      have passed := expired.later ((run_clock permitted).trans timely)
      rwa [ActivationPermit.ExpiredAt, follows.expiresAt]
  · rw [task, follows.taskId]

theorem current_generation_of_reset {reset : SessionReset} {after : Store} {now : Int}
    (ran : world.store.resetSession reset = .ok (after, ())) (later : List Transaction) :
    ∃ current, (run (step libraries) (world.step libraries ⟨now, .resetSession reset⟩) later).store.sessions.get?
      (canonicalizeSessionKey reset.sessionKey) = some current ∧ reset.expectedEpoch < current.epoch := by
  have moved : (world.step libraries ⟨now, .resetSession reset⟩).store = after := by
    rw [step, Store.apply, ran, transact_ok]
  obtain ⟨next, owned, same⟩ := Store.resetSession_ok ran
  have replaced : (world.step libraries ⟨now, .resetSession reset⟩).store.sessions.get?
      (canonicalizeSessionKey reset.sessionKey) = some ⟨reset.sessionId, reset.epoch⟩ := by
    rw [moved, same, Dict.get?_set, if_pos rfl]
  have newer : reset.expectedEpoch < reset.epoch := by omega
  exact run_generation replaced newer later

/-- There is one permit for a task, which keeps its coordinates and is closed for good. A claim returns it only to
the queued task of the current generation, under an authority that still stands. -/
theorem activation_permits_fenced (libraries : Libraries) (before later : List Transaction)
    (permitted : Along (step libraries) Permitted {} (before ++ later)) :
    let reached := run (step libraries) {} before
    let last := run (step libraries) reached later
    (∀ permit ∈ reached.store.permits.rows, ∀ other ∈ reached.store.permits.rows,
      permit.taskId = other.taskId → permit = other) ∧
    (∀ permit ∈ reached.store.permits.rows, ∃ after ∈ last.store.permits.rows, permit.Follows after) ∧
    (∀ now permitId claim,
      (∀ permit, (reached.store.claimActivationPermit libraries now permitId claim).2 = .ok permit →
        Granted libraries reached.store now claim permit) ∧
      (∀ raised, (reached.store.claimActivationPermit libraries now permitId claim).2 = .error raised →
        (reached.store.claimActivationPermit libraries now permitId claim).1.permits.rows.map (·.permitId) =
          reached.store.permits.rows.map (·.permitId))) ∧
    (∀ permit ∈ reached.store.permits.rows, permit.state ≠ .active ∨ permit.ExpiredAt reached.clock →
      ∀ now permitId claim granted, last.clock ≤ now → claim.taskId = permit.taskId →
        (last.store.claimActivationPermit libraries now permitId claim).2 ≠ .ok granted) ∧
    (∀ moment reset rest after, later = ⟨moment, .resetSession reset⟩ :: rest →
      reached.store.resetSession reset = .ok (after, ()) →
      ∀ now permitId claim granted,
        (last.store.claimActivationPermit libraries now permitId claim).2 = .ok granted →
        claim.coordinates.sessionKey = canonicalizeSessionKey reset.sessionKey →
        ¬(claim.sessionId = reset.expectedSessionId ∧ claim.sessionEpoch = reset.expectedEpoch) ∧
        ∀ task authority, last.store.tasks.get? claim.taskId = some task →
          task.details.activationAuthority = some authority →
          authority.names reset.expectedSessionId reset.expectedEpoch = false) := by
  intro reached last
  have during : Along (step libraries) Permitted reached later := ((along_append _ _ _).mp permitted).2
  refine ⟨?_, ?_, ?_, ?_, ?_⟩
  · intro permit mem other present same
    exact Permits.eq_of_taskId mem present same
  · intro permit mem
    exact run_follows mem later
  · intro now permitId claim
    exact ⟨fun permit => Store.granted_of_claim, fun raised => Store.ids_of_claim_raised⟩
  · intro permit mem spent now permitId claim granted timely task
    exact not_granted_after_spent mem spent during timely task
  · rintro moment reset rest after rfl ran now permitId claim granted returned key
    have found := Store.granted_of_claim returned
    have passed : ∃ current,
        (run (step libraries) reached (⟨moment, .resetSession reset⟩ :: rest)).store.sessions.get?
        (canonicalizeSessionKey reset.sessionKey) = some current ∧ reset.expectedEpoch < current.epoch :=
      current_generation_of_reset ran rest
    obtain ⟨current, present, newer⟩ := passed
    have generation : claim.sessionEpoch = current.epoch := by
      have owner := found.owner
      rw [key] at owner
      exact congrArg SessionOwner.epoch (Option.some.inj (owner.symm.trans present))
    have different :
        ¬(claim.sessionId = reset.expectedSessionId ∧ claim.sessionEpoch = reset.expectedEpoch) := by
      rintro ⟨-, same⟩
      omega
    refine ⟨different, ?_⟩
    intro task authority stored snapshot
    obtain ⟨queued, held, taken, -, -, own, matching, -⟩ := found.task
    rw [stored] at taken
    cases taken
    rw [snapshot] at own
    cases own
    rw [Bool.eq_false_iff]
    intro names
    exact different (ActivationAuthority.coordinates_of_names matching names)

def bareLibraries : Libraries where
  readStrings raw := if raw = "[]".toList then some [] else none
  digest _ _ _ := "e0d23bb2ec551f3575d4ad833055cd600f648f38ee1df6799974602e8e2d7199".toList

def bareToken : SandboxToken where
  rolesJson := "[]".toList
  scopesJson := "[]".toList
  capabilitiesJson := "[]".toList

def snapshot (sessionId : String) (epoch : Int) : ActivationAuthority where
  sessionId := .str sessionId.toList
  sessionEpoch := .int epoch
  authorizationRevision := .int 1
  permissionFingerprint := .str (bareLibraries.digest [] [] [])
  authorityKind := .str "named_token".toList
  tokenPublicId := .str "token".toList

def claimOf (sessionId : String) (epoch : Int) (expiresAt : Option Int) : ActivationClaim where
  taskId := "task".toList
  sessionKey := "session".toList
  sessionId := sessionId.toList
  sessionEpoch := epoch
  authorizationRevision := 1
  permissionFingerprint := bareLibraries.digest [] [] []
  expiresAt := expiresAt

def queuedTask : AgentTask where
  sessionKey := "session".toList
  details.activationAuthority := some (snapshot "first" 0)

def resnapshot : AgentTaskUpdate where
  detailsPatch := some { activationAuthority := some (some (snapshot "second" 1)) }

def admitted : List Transaction :=
  [⟨1, .createToken "token".toList bareToken⟩, ⟨2, .createSession "session".toList ⟨"first".toList, 0⟩⟩,
    ⟨3, .createTask "task".toList queuedTask none⟩]

def firstPermit : ActivationPermit := Store.newPermit 4 "permit".toList (claimOf "first" 0 none)

def releasedRun : List Transaction :=
  admitted ++ [⟨4, .claim "permit".toList (claimOf "first" 0 none)⟩,
    ⟨5, .release "task".toList "session".toList "released".toList⟩]

/-- Once its permit is released, the task is refused. -/
theorem activation_permits_fenced_released :
    ((run (step bareLibraries) {} releasedRun).store.claimActivationPermit bareLibraries 6 "other".toList
      (claimOf "first" 0 none)).2 ≠ .ok firstPermit := by
  have permitted : Along (step bareLibraries) Permitted {} (releasedRun ++ []) := by decide
  obtain ⟨-, -, -, fenced, -⟩ := activation_permits_fenced bareLibraries releasedRun [] permitted
  have stored : firstPermit.closed .released (fun _ => some 5) ∈
      (run (step bareLibraries) {} releasedRun).store.permits.rows := by
    decide
  have timely : (run (step bareLibraries) {} releasedRun).clock ≤ 6 := by decide
  exact fenced _ stored (.inl (by decide)) 6 "other".toList (claimOf "first" 0 none) firstPermit timely rfl

/-- A claim may make a permit whose expiry has passed. After a reset, a snapshot of the new generation lets the task
that waited through the reset claim its permit. -/
theorem expired_permit_is_granted : (∃ permit,
      ((run (step bareLibraries) {} admitted).store.claimActivationPermit bareLibraries 4 "permit".toList
        (claimOf "first" 0 (some 1))).2 = .ok permit ∧ permit.ExpiredAt 4) ∧
      ∃ permit, ((run (step bareLibraries) {} (admitted ++
          [⟨4, .resetSession ⟨"session".toList, "second".toList, 1, "first".toList, 0⟩⟩,
            ⟨5, .updateTask "task".toList resnapshot⟩])).store.claimActivationPermit bareLibraries 6
          "permit".toList (claimOf "second" 1 none)).2 = .ok permit :=
  ⟨⟨Store.newPermit 4 "permit".toList (claimOf "first" 0 (some 1)), by decide⟩,
    Store.newPermit 6 "permit".toList (claimOf "second" 1 none), by decide⟩

end World

end OpenSquilla.Activations
