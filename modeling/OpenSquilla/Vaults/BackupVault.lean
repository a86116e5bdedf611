import Mathlib.Algebra.Ring.Int.Defs
import Mathlib.Data.String.Basic
import OpenSquilla.Shared.Eviction

set_option autoImplicit false

-- What is deleted recursively is copied first. A copy is made in the staging directory and moved
-- among the entries, where the oldest ones make room for it.

namespace OpenSquilla.Vaults

structure Manifest where
  backupId : String
  originalPath : String
  sizeBytes : Int
  createdAt : Int
  deriving DecidableEq

structure BackupReceipt extends Manifest where
  -- the name of its directory
  entryPath : String
  deriving DecidableEq

-- A directory among the entries. The manifest is missing where it cannot be read.
structure Entry (C : Type) where
  content : C
  manifest : Option Manifest

structure Vault (C : Type) where
  staging : Dict String C
  entries : Dict String (Entry C)

structure StagedBackup where
  backupId : String
  originalPath : String
  sizeBytes : Nat
  createdAt : Int

inductive Source (C : Type)
  | missing
  -- it is there, and copying it fails
  | unreadable
  | readable (content : C)

/-- What staging a target learns from outside: the clock, a random token and the file system. -/
structure Reading (C : Type) where
  namedAt : Int
  token : String
  source : Source C
  createdAt : Int

def Reading.backupId {C : Type} (reading : Reading C) :
    String := toString reading.namedAt ++ "-" ++ reading.token

inductive Raised
  | tooLarge (sizeBytes quotaBytes : Int)
  | osError

inductive BackupUnavailable
  | tooLarge (sizeBytes quotaBytes : Int)
  | ioError

variable {C : Type}

def older (first second : BackupReceipt) : Prop :=
  first.createdAt < second.createdAt ∨ first.createdAt = second.createdAt ∧ first.backupId ≤ second.backupId

instance : DecidableRel older := fun first second =>
  inferInstanceAs (Decidable (first.createdAt < second.createdAt ∨
    first.createdAt = second.createdAt ∧ first.backupId ≤ second.backupId))

-- What can be read of the entries, in the order of the directory.
def receipts (entries : Dict String (Entry C)) : List BackupReceipt :=
  entries.entries.filterMap fun entry => entry.2.manifest.map fun manifest => ⟨manifest, entry.1⟩

def listReceipts (entries : Dict String (Entry C)) : List BackupReceipt := (receipts entries).insertionSort older

def bytesOf (receipts : List BackupReceipt) : Int := (receipts.map fun receipt => receipt.sizeBytes).sum

def evictReceipts (required quota : Int) : Int → List BackupReceipt → Dict String (Entry C) →
    Dict String (Entry C)
  | _, [], entries => entries
  | total, receipt :: rest, entries =>
    if total + required ≤ quota then entries
    else evictReceipts required quota (total - receipt.sizeBytes) rest (entries.erase receipt.entryPath)

def evictForCapacity (vault : Vault C) (requiredBytes quotaBytes : Int) : Vault C :=
  { vault with
    entries := evictReceipts (max 0 requiredBytes) (max 0 quotaBytes) (bytesOf (listReceipts vault.entries))
      (listReceipts vault.entries) vault.entries }

def enforceReceipts (quota : Int) (preserveId : Option String) :
    Int → List BackupReceipt → Dict String (Entry C) → Dict String (Entry C)
  | _, [], entries => entries
  | total, receipt :: rest, entries =>
    if total ≤ quota then entries
    else if some receipt.backupId = preserveId then enforceReceipts quota preserveId total rest entries
    else enforceReceipts quota preserveId (total - receipt.sizeBytes) rest (entries.erase receipt.entryPath)

def enforceQuota (vault : Vault C) (quotaBytes : Int) (preserveId : Option String) : Vault C :=
  { vault with
    entries :=
      enforceReceipts quotaBytes preserveId (bytesOf (listReceipts vault.entries)) (listReceipts vault.entries)
      vault.entries }

def clearCommittedBackups (vault : Vault C) : Vault C := { vault with entries := Dict.empty }

section Staging

def discard (vault : Vault C) (item : StagedBackup) : Vault C :=
  { vault with staging := vault.staging.erase item.backupId }

def discardAll (vault : Vault C) (staged : List StagedBackup) : Vault C := staged.foldl discard vault

def StagedBackup.manifest (item : StagedBackup) : Manifest :=
  ⟨item.backupId, item.originalPath, item.sizeBytes, item.createdAt⟩

def StagedBackup.receipt (item : StagedBackup) : BackupReceipt := ⟨item.manifest, item.backupId⟩

def publish (quotaBytes : Int) (vault : Vault C) (item : StagedBackup) : Except Raised BackupReceipt × Vault C :=
  let vault := evictForCapacity vault item.sizeBytes quotaBytes
  if quotaBytes < item.sizeBytes then (.error (.tooLarge item.sizeBytes quotaBytes), discard vault item)
  else
    match vault.staging.get? item.backupId with
    -- there is no directory to write the manifest in
    | none => (.error .osError, vault)
    | some content =>
      -- a directory is not moved over another one
      if item.backupId ∈ vault.entries.keys then (.error .osError, vault)
      else
        let moved : Vault C :=
          { staging := vault.staging.erase item.backupId
            entries := vault.entries.set item.backupId ⟨content, some item.manifest⟩ }
        (.ok item.receipt, enforceQuota moved quotaBytes (some item.backupId))

def publishAll (quotaBytes : Int) : Vault C → List StagedBackup → Except Raised (List BackupReceipt) × Vault C
  | vault, [] => (.ok [], vault)
  | vault, item :: rest =>
    match publish quotaBytes vault item with
    | (.error raised, vault) => (.error raised, vault)
    | (.ok receipt, vault) =>
      match publishAll quotaBytes vault rest with
      | (.error raised, vault) => (.error raised, vault)
      | (.ok receipts, vault) => (.ok (receipt :: receipts), vault)

variable (treeSize : C → Nat) (surroundings : Nat → String → Reading C)

-- The surroundings answer by the number of targets that have been staged before.
def stage (vault : Vault C) (count : Nat) (target : String) : Except Raised StagedBackup × Vault C :=
  let reading := surroundings count target
  match reading.source with
  | .missing => (.error .osError, vault)
  -- what has been copied so far is removed
  | .unreadable => (.error .osError, vault)
  | .readable content =>
    if reading.backupId ∈ vault.staging.keys then (.error .osError, vault)
    else
      (.ok ⟨reading.backupId, target, treeSize content, reading.createdAt⟩,
        { vault with staging := vault.staging.set reading.backupId content })

def stageAll : Nat → Vault C → List String → Except Raised (List StagedBackup) × Nat × Vault C
  | count, vault, [] => (.ok [], count, vault)
  | count, vault, target :: rest =>
    match stage treeSize surroundings vault count target with
    | (.error raised, vault) => (.error raised, count + 1, vault)
    | (.ok item, vault) =>
      match stageAll (count + 1) vault rest with
      | (.error raised, count, vault) => (.error raised, count, vault)
      | (.ok items, count, vault) => (.ok (item :: items), count, vault)

-- How one attempt ends, with what the handler of its error knows to be staged.
structure Attempted (C : Type) where
  result : Except Raised (List BackupReceipt)
  staged : List StagedBackup
  count : Nat
  vault : Vault C

def attempt (quotaBytes : Int) (count : Nat) (vault : Vault C) (targets : List String) : Attempted C :=
  match stageAll treeSize surroundings count vault targets with
  -- the list has not been assigned
  | (.error raised, count, vault) => ⟨.error raised, [], count, vault⟩
  | (.ok staged, count, vault) =>
    let totalSize : Int := (staged.map fun item => (item.sizeBytes : Int)).sum
    let vault := evictForCapacity vault totalSize quotaBytes
    if quotaBytes < totalSize then ⟨.error (.tooLarge totalSize quotaBytes), staged, count, vault⟩
    else
      let (result, vault) := publishAll quotaBytes vault staged
      ⟨result, staged, count, vault⟩

def backupAttempts (quotaBytes : Int) (targets : List String) :
    Nat → Nat → Vault C → Except BackupUnavailable (List BackupReceipt) × Vault C
  | 0, _, vault => (.error .ioError, vault)
  | remaining + 1, count, vault =>
    let tried := attempt treeSize surroundings quotaBytes count vault targets
    match tried.result with
    | .ok receipts => (.ok receipts, tried.vault)
    | .error (.tooLarge sizeBytes quotaBytes) =>
      (.error (.tooLarge sizeBytes quotaBytes), discardAll tried.vault tried.staged)
    | .error .osError =>
      backupAttempts quotaBytes targets remaining tried.count
        (clearCommittedBackups (discardAll tried.vault tried.staged))

def backupMany (quotaBytes : Int) (vault : Vault C) (targets : List String) :
    Except BackupUnavailable (List BackupReceipt) × Vault C :=
  if targets = [] then (.ok [], vault) else backupAttempts treeSize surroundings quotaBytes targets 2 0 vault

end Staging

end OpenSquilla.Vaults
