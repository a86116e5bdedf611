import Mathlib.Algebra.Order.Ring.Rat
import OpenSquilla.Shared.Dict
import OpenSquilla.Shared.ExpiringLease
import OpenSquilla.Shared.Runs

set_option autoImplicit false

-- One row for each account of a channel says who may drive its transport. A call reads the clock
-- before it waits for the connection, so its reading may be older than the instant at which it
-- runs.

namespace OpenSquilla.Channels

open Runs

abbrev Time := Rat

structure TransportLease where
  channelName : String
  accountId : String
  ownerId : String
  fencingToken : Int
  expiresAt : Time
  deriving DecidableEq

structure LeaseRow where
  ownerId : String
  fencingToken : Int
  expiresAt : Time
  updatedAt : Time
  deriving DecidableEq

abbrev LeaseTable := Dict (String × String) LeaseRow

def leaseEnd (now ttlSeconds : Time) : Time := now + max 5 ttlSeconds

def TransportLease.key (lease : TransportLease) : String × String :=
  (lease.channelName, lease.accountId)

def TransportLease.extended (lease : TransportLease) (expiresAt : Time) : TransportLease :=
  { lease with expiresAt := expiresAt }

@[simp] theorem TransportLease.key_extended (lease : TransportLease) (expiresAt : Time) :
    (lease.extended expiresAt).key = lease.key := rfl

def LeaseRow.grants (row : LeaseRow) (lease : TransportLease) : Prop :=
  row.ownerId = lease.ownerId ∧ row.fencingToken = lease.fencingToken

instance decidableGrants (row : LeaseRow) (lease : TransportLease) : Decidable (row.grants lease) :=
  inferInstanceAs (Decidable (_ ∧ _))

def acquireTransportLease (table : LeaseTable) (channelName accountId ownerId : String)
    (ttlSeconds now : Time) : LeaseTable × Option TransportLease :=
  let expiresAt := leaseEnd now ttlSeconds
  let granted := fun fencingToken : Int =>
    (table.set (channelName, accountId) ⟨ownerId, fencingToken, expiresAt, now⟩,
      some ⟨channelName, accountId, ownerId, fencingToken, expiresAt⟩)
  match table.get? (channelName, accountId) with
  | none => granted 1
  | some row =>
    if row.ownerId ≠ ownerId ∧ now < row.expiresAt then (table, none)
    else granted (row.fencingToken + 1)

-- The update of the row that grants the lease, and whether there was one.
def updateLease (table : LeaseTable) (lease : TransportLease) (expiresAt now : Time) : LeaseTable × Bool :=
  match table.get? lease.key with
  | none => (table, false)
  | some row =>
    if row.grants lease then
      (table.set lease.key { row with expiresAt := expiresAt, updatedAt := now }, true)
    else (table, false)

def renewTransportLease (table : LeaseTable) (lease : TransportLease) (ttlSeconds now : Time) :
    LeaseTable × Option TransportLease :=
  let expiresAt := leaseEnd now ttlSeconds
  let (table, updated) := updateLease table lease expiresAt now
  (table, if updated then some (lease.extended expiresAt) else none)

def releaseTransportLease (table : LeaseTable) (lease : TransportLease) (now : Time) : LeaseTable × Bool :=
  updateLease table lease 0 now

inductive Operation
  | acquire (channelName accountId ownerId : String) (ttlSeconds : Time)
  | renew (lease : TransportLease) (ttlSeconds : Time)
  | release (lease : TransportLease)

-- A call that runs at an instant with a reading of the clock taken before.
structure Call where
  operation : Operation
  reading : Time
  instant : Time

structure World where
  table : LeaseTable
  clock : Time
  -- the lease value an owner got last for an account, until it is released
  held : String × String → String → Option TransportLease

def World.hold (world : World) (key : String × String) (owner : String)
    (lease : Option TransportLease) : String × String → String → Option TransportLease :=
  Function.update world.held key (Function.update (world.held key) owner lease)

def World.granted (world : World) (instant : Time) (table : LeaseTable) : Option TransportLease → World
  | none => { world with table := table, clock := instant }
  | some lease => ⟨table, instant, world.hold lease.key lease.ownerId (some lease)⟩

def step (world : World) (call : Call) : World :=
  match call.operation with
  | .acquire channelName accountId ownerId ttlSeconds =>
    let (table, lease) :=
      acquireTransportLease world.table channelName accountId ownerId ttlSeconds call.reading
    world.granted call.instant table lease
  | .renew lease ttlSeconds =>
    let (table, renewed) := renewTransportLease world.table lease ttlSeconds call.reading
    world.granted call.instant table renewed
  | .release lease =>
    match releaseTransportLease world.table lease call.reading with
    | (table, true) => ⟨table, call.instant, world.hold lease.key lease.ownerId none⟩
    | (table, false) => { world with table := table, clock := call.instant }

def Timely (world : World) (call : Call) : Prop :=
  world.clock ≤ call.instant ∧ call.reading ≤ call.instant

instance decidableTimely (world : World) (call : Call) : Decidable (Timely world call) :=
  inferInstanceAs (Decidable (_ ∧ _))

def LeaseRow.grant (row : LeaseRow) : ExpiringLease.Grant String Time :=
  ⟨row.ownerId, row.fencingToken, row.expiresAt⟩

def TransportLease.grant (lease : TransportLease) : ExpiringLease.Grant String Time :=
  ⟨lease.ownerId, lease.fencingToken, lease.expiresAt⟩

def World.lease (world : World) (key : String × String) : ExpiringLease.State String Time where
  clock := world.clock
  latest := (world.table.get? key).map LeaseRow.grant
  held owner := (world.held key owner).map TransportLease.grant

section Refinement

variable {world : World} {key : String × String}

theorem lease_hold {table : LeaseTable} {instant : Time} {owner : String} {lease : Option TransportLease} :
    (⟨table, instant, world.hold key owner lease⟩ : World).lease key =
      ⟨instant, (table.get? key).map LeaseRow.grant,
        Function.update (world.lease key).held owner (lease.map TransportLease.grant)⟩ := by
  unfold World.lease World.hold
  dsimp only
  congr 1
  funext other
  rw [Function.update_self]
  by_cases same : other = owner
  · subst same
    rw [Function.update_self, Function.update_self]
  · rw [Function.update_of_ne same, Function.update_of_ne same]

theorem lease_hold_of_ne {table : LeaseTable} {instant : Time} {owner : String}
    {other : String × String} {lease : Option TransportLease} (different : key ≠ other)
    (same : table.get? key = world.table.get? key) :
    (⟨table, instant, world.hold other owner lease⟩ : World).lease key =
      { world.lease key with clock := instant } := by
  unfold World.lease World.hold
  dsimp only
  rw [Function.update_of_ne different, same]

theorem updateLease_cases (table : LeaseTable) (lease : TransportLease) (expiresAt now : Time) :
    (∃ row, table.get? lease.key = some row ∧ row.grants lease ∧
        updateLease table lease expiresAt now =
          (table.set lease.key { row with expiresAt := expiresAt, updatedAt := now }, true)) ∨
      (updateLease table lease expiresAt now = (table, false) ∧
        ∀ row, table.get? lease.key = some row → ¬row.grants lease) := by
  unfold updateLease
  cases found : table.get? lease.key with
  | none =>
    right
    refine ⟨rfl, ?_⟩
    intro row there
    cases there
  | some row =>
    dsimp only
    split
    next grants => exact Or.inl ⟨row, rfl, grants, rfl⟩
    next refuses =>
      right
      refine ⟨rfl, ?_⟩
      rintro other there
      cases there
      exact refuses

theorem acquire_refines {instant reading : Time} (later : world.clock ≤ instant)
    (read : reading ≤ instant) (channelName accountId ownerId : String) (ttlSeconds : Time)
    (key : String × String) : ExpiringLease.Step (world.lease key)
      ((step world ⟨.acquire channelName accountId ownerId ttlSeconds, reading, instant⟩).lease
        key) := by
  have granted : ∀ fencingToken : Int,
      (∀ row, world.table.get? (channelName, accountId) = some row →
        (row.ownerId = ownerId ∨ row.expiresAt ≤ reading) ∧ row.fencingToken < fencingToken) →
      ExpiringLease.Step (world.lease key)
        ((world.granted instant
          (world.table.set (channelName, accountId)
            ⟨ownerId, fencingToken, leaseEnd reading ttlSeconds, reading⟩)
          (some ⟨channelName, accountId, ownerId, fencingToken,
            leaseEnd reading ttlSeconds⟩)).lease key) := by
    intro fencingToken free
    unfold World.granted
    dsimp only [TransportLease.key]
    by_cases here : key = (channelName, accountId)
    · subst here
      rw [lease_hold, Dict.get?_set, if_pos rfl]
      apply ExpiringLease.Step.take instant later
      · intro old latest
        obtain ⟨row, found, rfl⟩ := Option.map_eq_some_iff.mp latest
        exact (free row found).1.imp_right fun expired => expired.trans read
      · intro old latest
        obtain ⟨row, found, rfl⟩ := Option.map_eq_some_iff.mp latest
        exact (free row found).2
    · rw [lease_hold_of_ne here (by rw [Dict.get?_set, if_neg here])]
      exact ExpiringLease.Step.idle instant later
  unfold step acquireTransportLease
  dsimp only
  cases found : world.table.get? (channelName, accountId) with
  | none =>
    apply granted
    intro row there
    rw [found] at there
    cases there
  | some row =>
    dsimp only
    split
    next => exact ExpiringLease.Step.idle instant later
    next free =>
      apply granted
      intro other there
      cases found.symm.trans there
      refine ⟨?_, by omega⟩
      by_contra taken
      rw [not_or, not_le] at taken
      exact free taken

theorem latest_of_found {row : LeaseRow} (found : world.table.get? key = some row) :
    (world.lease key).latest = some row.grant := by
  unfold World.lease
  rw [found]
  rfl

theorem renew_refines {instant : Time} (later : world.clock ≤ instant) (reading : Time)
    (lease : TransportLease) (ttlSeconds : Time) (key : String × String) : ExpiringLease.Step (world.lease key)
      ((step world ⟨.renew lease ttlSeconds, reading, instant⟩).lease key) := by
  unfold step renewTransportLease
  dsimp only
  obtain ⟨row, found, ⟨owner, token⟩, updated⟩ | ⟨updated, -⟩ :=
    updateLease_cases world.table lease (leaseEnd reading ttlSeconds) reading
  · rw [updated]
    dsimp only
    rw [if_pos rfl]
    unfold World.granted
    dsimp only
    by_cases here : key = lease.key
    · subst here
      have extended := ExpiringLease.Step.extend instant later row.grant (latest_of_found found)
        (leaseEnd reading ttlSeconds)
      have renewed : (lease.extended (leaseEnd reading ttlSeconds)).grant =
          { row.grant with expiresAt := leaseEnd reading ttlSeconds } := by
        unfold TransportLease.grant TransportLease.extended LeaseRow.grant
        rw [owner, token]
      have mine : (lease.extended (leaseEnd reading ttlSeconds)).ownerId = row.grant.owner :=
        owner.symm
      rw [TransportLease.key_extended, lease_hold, Dict.get?_set, if_pos rfl, Option.map_some,
        Option.map_some, renewed, mine]
      exact extended
    · rw [TransportLease.key_extended,
        lease_hold_of_ne here (by rw [Dict.get?_set, if_neg here])]
      exact ExpiringLease.Step.idle instant later
  · rw [updated]
    exact ExpiringLease.Step.idle instant later

theorem release_refines {instant : Time} (later : world.clock ≤ instant) (reading : Time)
    (lease : TransportLease) (key : String × String) : ExpiringLease.Step (world.lease key)
      ((step world ⟨.release lease, reading, instant⟩).lease key) := by
  unfold step releaseTransportLease
  dsimp only
  obtain ⟨row, found, ⟨owner, token⟩, updated⟩ | ⟨updated, -⟩ :=
    updateLease_cases world.table lease 0 reading
  · rw [updated]
    dsimp only
    by_cases here : key = lease.key
    · subst here
      have released := ExpiringLease.Step.release instant later row.grant (latest_of_found found) 0
      rw [lease_hold, Dict.get?_set, if_pos rfl, Option.map_none, ← owner]
      exact released
    · rw [lease_hold_of_ne here (by rw [Dict.get?_set, if_neg here])]
      exact ExpiringLease.Step.idle instant later
  · rw [updated]
    exact ExpiringLease.Step.idle instant later

theorem step_refines {call : Call} (timely : Timely world call) (key : String × String) :
    ExpiringLease.Step (world.lease key) ((step world call).lease key) := by
  obtain ⟨operation, reading, instant⟩ := call
  obtain ⟨later, read⟩ := timely
  cases operation with
  | acquire channelName accountId ownerId ttlSeconds =>
    exact acquire_refines later read channelName accountId ownerId ttlSeconds key
  | renew lease ttlSeconds => exact renew_refines later reading lease ttlSeconds key
  | release lease => exact release_refines later reading lease key

end Refinement

section Fencing

variable {world : World} {key : String × String} {token : Int}

/-- A lease with the token was granted for the account: later ones get greater tokens, and
calls with a smaller one fail and change nothing. -/
structure Fenced (world : World) (key : String × String) (token : Int) : Prop where
  acquires : ∀ ownerId ttlSeconds now lease,
    (acquireTransportLease world.table key.1 key.2 ownerId ttlSeconds now).2 = some lease →
      token < lease.fencingToken
  renews : ∀ lease ttlSeconds now, lease.key = key → lease.fencingToken < token →
    renewTransportLease world.table lease ttlSeconds now = (world.table, none)
  releases : ∀ lease now, lease.key = key → lease.fencingToken < token →
    releaseTransportLease world.table lease now = (world.table, false)

theorem fenced_of_reached (reached : ExpiringLease.Reached token (world.lease key)) :
    Fenced world key token := by
  obtain ⟨grant, latest, below⟩ := reached
  obtain ⟨row, found, rfl⟩ := Option.map_eq_some_iff.mp latest
  have below : token ≤ row.fencingToken := below
  have refused : ∀ lease expiresAt now, lease.key = key → lease.fencingToken < token →
      updateLease world.table lease expiresAt now = (world.table, false) := by
    rintro lease expiresAt now rfl smaller
    obtain ⟨other, there, ⟨-, same⟩, -⟩ | ⟨updated, -⟩ :=
      updateLease_cases world.table lease expiresAt now
    · cases found.symm.trans there
      omega
    · exact updated
  constructor
  · intro ownerId ttlSeconds now lease granted
    unfold acquireTransportLease at granted
    rw [found] at granted
    dsimp only at granted
    split at granted
    next => cases granted
    next =>
      cases granted
      dsimp only
      omega
  · intro lease ttlSeconds now same smaller
    unfold renewTransportLease
    dsimp only
    rw [refused lease _ now same smaller]
    rfl
  · intro lease now same smaller
    exact refused lease 0 now same smaller

theorem reached_acquired {channelName accountId ownerId : String} {ttlSeconds reading instant : Time}
    {lease : TransportLease}
    (granted : (acquireTransportLease world.table channelName accountId ownerId ttlSeconds
      reading).2 = some lease) :
    ExpiringLease.Reached lease.fencingToken
      ((step world ⟨.acquire channelName accountId ownerId ttlSeconds, reading, instant⟩).lease
        (channelName, accountId)) := by
  have stored : ∃ row, (acquireTransportLease world.table channelName accountId ownerId ttlSeconds
      reading).1.get? (channelName, accountId) = some row ∧
      row.fencingToken = lease.fencingToken := by
    unfold acquireTransportLease at granted ⊢
    split at granted
    next =>
      cases granted
      exact ⟨_, (Dict.get?_set _ _ _ _).trans (if_pos rfl), rfl⟩
    next row found =>
      dsimp only at granted ⊢
      split at granted
      next => cases granted
      next free =>
        cases granted
        rw [if_neg free]
        exact ⟨_, (Dict.get?_set _ _ _ _).trans (if_pos rfl), rfl⟩
  obtain ⟨row, found, same⟩ := stored
  refine ⟨row.grant, ?_, same.ge⟩
  unfold step World.lease
  dsimp only
  rw [granted]
  dsimp only [World.granted]
  rw [found]
  rfl

theorem reached_run {calls : List Call} (timely : Along step Timely world calls)
    (reached : ExpiringLease.Reached token (world.lease key)) :
    ExpiringLease.Reached token ((run step world calls).lease key) :=
  run_invariant_along (fun world => ExpiringLease.Reached token (world.lease key))
    (fun _ _ reached timely => (step_refines timely key).reached reached) reached calls timely

def start (table : LeaseTable) (clock : Time) : World := ⟨table, clock, fun _ _ => none⟩

theorem sound_run {table : LeaseTable} {clock : Time} {calls : List Call}
    (timely : Along step Timely (start table clock) calls) (key : String × String) :
    ExpiringLease.Sound ((run step (start table clock) calls).lease key) := by
  refine run_invariant_along (fun world => ExpiringLease.Sound (world.lease key))
    (fun _ _ sound timely => (step_refines timely key).sound sound) ?_ calls timely
  intro owner grant holds
  cases holds

/-- At no instant do two owners hold an unexpired lease of one account, and the fencing
tokens only grow. -/
theorem transport_lease_excludes (table : LeaseTable) (clock : Time) (calls : List Call)
    (timely : Along step Timely (start table clock) calls) :
    (∀ key instant, (run step (start table clock) calls).clock ≤ instant →
      ∀ first second one two,
        (run step (start table clock) calls).held key first = some one →
        (run step (start table clock) calls).held key second = some two →
        instant < one.expiresAt → instant < two.expiresAt → first = second) ∧
      ∀ before channelName accountId ownerId ttlSeconds reading instant between rest lease,
        calls = before ++ ⟨.acquire channelName accountId ownerId ttlSeconds, reading, instant⟩ ::
          (between ++ rest) →
        (acquireTransportLease (run step (start table clock) before).table channelName accountId
          ownerId ttlSeconds reading).2 = some lease →
        Fenced (run step (start table clock) (before ++
            ⟨.acquire channelName accountId ownerId ttlSeconds, reading, instant⟩ :: between))
          (channelName, accountId) lease.fencingToken := by
  constructor
  · intro key instant later first second one two holdsOne holdsTwo validOne validTwo
    have sound := sound_run timely key
    have grantedOne : ((run step (start table clock) calls).lease key).held first =
        some one.grant := congrArg (Option.map TransportLease.grant) holdsOne
    have grantedTwo : ((run step (start table clock) calls).lease key).held second =
        some two.grant := congrArg (Option.map TransportLease.grant) holdsTwo
    exact sound.exclusive later grantedOne grantedTwo validOne validTwo
  · rintro before channelName accountId ownerId ttlSeconds reading instant between rest lease rfl
      granted
    obtain ⟨-, along⟩ := (along_append _ before _).mp timely
    have along := ((along_append _ between rest).mp along.2).1
    rw [run_append, run_cons]
    exact fenced_of_reached (reached_run along (reached_acquired granted))

/-- A negative time to live counts as five seconds; the second owner takes over after it. -/
theorem transport_lease_excludes_taken_over : Fenced (run step (start Dict.empty 0)
      [⟨.acquire "feishu" "bot" "a" (-3), 1, 1⟩, ⟨.acquire "feishu" "bot" "b" 60, 2, 3⟩,
        ⟨.acquire "feishu" "bot" "b" 60, 7, 8⟩]) ("feishu", "bot") 2 :=
  (transport_lease_excludes Dict.empty 0
    [⟨.acquire "feishu" "bot" "a" (-3), 1, 1⟩, ⟨.acquire "feishu" "bot" "b" 60, 2, 3⟩,
      ⟨.acquire "feishu" "bot" "b" 60, 7, 8⟩] (by decide +kernel)).2
    [⟨.acquire "feishu" "bot" "a" (-3), 1, 1⟩, ⟨.acquire "feishu" "bot" "b" 60, 2, 3⟩]
    "feishu" "bot" "b" 60 7 8 [] [] ⟨"feishu", "bot", "b", 2, 67⟩ rfl (by decide +kernel)

end Fencing

end OpenSquilla.Channels
