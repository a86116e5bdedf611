import OpenSquilla.Shared.Dict
import OpenSquilla.Shared.Runs
import Mathlib.Algebra.Order.Ring.Unbundled.Rat

set_option autoImplicit false

-- Numbers are exact. Each reading of the clock is an input, and so is what another thread or task
-- does between two readings. An object is known by when it was made; its address is that of no
-- other object as long as somebody holds it.

namespace OpenSquilla.Cooldowns

inductive FailureReason
  | rateLimited
  | providerOverloaded

inductive Hint
  | finite (seconds : Rat)
  | infinity
  | negativeInfinity
  | nan
  | unreadable
  deriving DecidableEq

def positiveHint : Hint → Option Rat
  | .finite seconds => some (if 0 < seconds then seconds else 0)
  | .infinity => none
  | .negativeInfinity | .nan | .unreadable => some 0

def resolveRetryDelaySeconds (localDelay : Rat) (providerRetryAfter : Hint) (maximum : Rat) : Option Rat :=
  match positiveHint providerRetryAfter with
  | none => none
  | some hint => if maximum < hint then none else some (min (max (max 0 localDelay) hint) maximum)

inductive DeferralReason
  | deadline
  | waitCeiling
  deriving DecidableEq

section Ledger

variable {D : Type} [DecidableEq D]

inductive Key (D : Type)
  | scope (digest : D)
  | object (address : Nat)
  deriving DecidableEq

structure CoolingEntry where
  notBefore : Rat
  reason : FailureReason
  owner : Option Nat

-- What a wait is for: a known scope, or the object itself.
def keyOf (scope : Option D) (address : Nat) : Key D :=
  match scope with
  | some digest => .scope digest
  | none => .object address

def expire (entries : Dict (Key D) CoolingEntry) (now : Rat) : Dict (Key D) CoolingEntry where
  entries := entries.entries.filter fun entry => now < entry.2.notBefore
  nodupKeys := entries.nodupKeys.sublist (List.filter_sublist.map Prod.fst)

def recordHint (entries : Dict (Key D) CoolingEntry) (now : Rat) (provider address : Nat) (hint : Hint)
    (scope : Option D) (reason : FailureReason) : Dict (Key D) CoolingEntry :=
  let entries := expire entries now
  match positiveHint hint with
  | none => entries
  | some seconds =>
    if seconds = 0 then entries
    else
      let key := keyOf scope address
      let known := entries.get? key
      let notBefore := max (now + seconds) (known.elim now (·.notBefore))
      let reason := (known.filter fun known => now + seconds < known.notBefore).elim reason (·.reason)
      entries.set key ⟨notBefore, reason, if scope.isSome then none else some provider⟩

def remainingSeconds (entries : Dict (Key D) CoolingEntry) (now : Rat) (provider address : Nat)
    (scope : Option D) : Rat :=
  match (expire entries now).get? (keyOf scope address) with
  | none => 0
  | some entry => if scope.isNone && entry.owner ≠ some provider then 0 else max 0 (entry.notBefore - now)

def failureReason (entries : Dict (Key D) CoolingEntry) (now : Rat) (address : Nat) (scope : Option D) :
    FailureReason :=
  ((expire entries now).get? (keyOf scope address)).elim .rateLimited (·.reason)

end Ledger

/-- Where a wait stands. A delay that was yielded is slept out before the next look. -/
inductive Phase
  | starting
  | waking (started : Rat)
  | asking (started now : Rat)
  | deferring (remaining : Rat) (why : DeferralReason)
  | sleeping (started : Rat)
  | returned
  | deferred (remaining : Rat) (why : DeferralReason) (reason : FailureReason)
  | timedOut
  | abandoned

def Phase.isOver : Phase → Bool
  | .returned | .deferred _ _ _ | .timedOut | .abandoned => true
  | _ => false

structure Wait (D : Type) where
  provider : Nat
  scope : Option D
  deadline : Option Rat
  maximum : Rat
  phase : Phase

-- For whom a hint is: objects are told apart however their addresses were used.
inductive Account (D : Type)
  | scope (digest : D)
  | object (provider : Nat)
  deriving DecidableEq

def accountOf {D : Type} (scope : Option D) (provider : Nat) : Account D :=
  match scope with
  | some digest => .scope digest
  | none => .object provider

inductive Event (D : Type)
  | recorded (account : Account D) (time : Rat) (hint : Hint)
  | began (call : Nat) (time : Rat)
  | yielded (call : Nat) (started now delay : Rat)
  | refused (call : Nat) (started now remaining : Rat) (why : DeferralReason)
  | ended (call : Nat) (account : Account D) (time : Rat)
  deriving DecidableEq

structure World (D : Type) where
  clock : Rat
  created : Nat
  objects : Dict Nat Nat
  entries : Dict (Key D) CoolingEntry
  waits : Dict Nat (Wait D)
  log : List (Event D)

inductive Input (D : Type)
  | allocate (address : Nat)
  | collect (address : Nat)
  | record (address : Nat) (hint : Hint) (scope : Option D) (reason : FailureReason) (reading : Rat)
  | wait (call address : Nat) (scope : Option D) (deadline : Option Rat) (maximum : Rat)
  | advance (call : Nat) (reading : Rat)
  | timeout (call : Nat)
  | abandon (call : Nat)

namespace World

variable {D : Type} [DecidableEq D]

def start : World D := ⟨0, 0, .empty, .empty, .empty, []⟩

def read (world : World D) (reading : Rat) : World D := { world with clock := max world.clock reading }

def goTo (world : World D) (call : Nat) (wait : Wait D) (phase : Phase) (events : List (Event D)) : World D :=
  { world with waits := world.waits.set call { wait with phase := phase }, log := world.log ++ events }

def addressOf (world : World D) (provider : Nat) : Option Nat :=
  (world.objects.entries.find? fun entry => entry.2 = provider).map Prod.fst

def record (world : World D) (provider address : Nat) (hint : Hint) (scope : Option D)
    (reason : FailureReason) : World D :=
  { world with
    entries := recordHint world.entries world.clock provider address hint scope reason
    log := world.log ++ [.recorded (accountOf scope provider) world.clock hint] }

def look (world : World D) (call : Nat) (wait : Wait D) (address : Nat) (started now : Rat) : World D :=
  let remaining := remainingSeconds world.entries world.clock wait.provider address wait.scope
  let world := { world with entries := expire world.entries world.clock }
  if remaining ≤ 0 then
    world.goTo call wait .returned [.ended call (accountOf wait.scope wait.provider) world.clock]
  else if wait.deadline.any fun deadline => deadline ≤ now + remaining then
    world.goTo call wait (.deferring remaining .deadline) [.refused call started now remaining .deadline]
  else
    match resolveRetryDelaySeconds 0 (.finite remaining) (max 0 (started + wait.maximum - now)) with
    | none =>
        world.goTo call wait (.deferring remaining .waitCeiling)
          [.refused call started now remaining .waitCeiling]
    | some delay => world.goTo call wait (.sleeping started) [.yielded call started now delay]

def advance (world : World D) (call : Nat) (wait : Wait D) (address : Nat) : World D :=
  match wait.phase with
  | .starting => world.goTo call wait (.waking world.clock) [.began call world.clock]
  | .waking started =>
    if wait.deadline.any fun deadline => deadline ≤ world.clock then world.goTo call wait .timedOut []
    else world.goTo call wait (.asking started world.clock) []
  | .asking started now => world.look call wait address started now
  | .deferring remaining why =>
    { world with entries := expire world.entries world.clock }.goTo call wait
      (.deferred remaining why (failureReason world.entries world.clock address wait.scope)) []
  | .sleeping started => world.goTo call wait (.waking started) []
  | .returned | .deferred _ _ _ | .timedOut | .abandoned => world

-- What is held is neither collected nor is its address given away.
def isHeld (world : World D) (provider : Nat) : Bool :=
  (world.entries.values.any fun entry => entry.owner = some provider) ||
    world.waits.values.any fun wait => wait.provider = provider && !wait.phase.isOver

def step (world : World D) : Input D → World D
  | .allocate address =>
    if (world.objects.get? address).isSome then world
    else { world with objects := world.objects.set address world.created, created := world.created + 1 }
  | .collect address =>
    match world.objects.get? address with
    | none => world
    | some provider =>
      if world.isHeld provider then world else { world with objects := world.objects.erase address }
  | .record address hint scope reason reading =>
    match world.objects.get? address with
    | none => world
    | some provider => (world.read reading).record provider address hint scope reason
  | .wait call address scope deadline maximum =>
    match world.objects.get? address with
    | none => world
    | some provider =>
      if (world.waits.get? call).isSome then world
      else { world with waits := world.waits.set call ⟨provider, scope, deadline, maximum, .starting⟩ }
  | .advance call reading =>
    match world.waits.get? call with
    | none => world
    | some wait =>
      match world.addressOf wait.provider with
      | none => world
      | some address => (world.read reading).advance call wait address
  | .timeout call =>
    match world.waits.get? call with
    | none => world
    | some wait =>
      match wait.phase, wait.deadline with
      | .sleeping _, some _ => world.goTo call wait .timedOut []
      | _, _ => world
  | .abandon call =>
    match world.waits.get? call with
    | none => world
    | some wait => if wait.phase.isOver then world else world.goTo call wait .abandoned []

end World

end OpenSquilla.Cooldowns
