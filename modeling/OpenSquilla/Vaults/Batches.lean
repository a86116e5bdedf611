import OpenSquilla.Vaults.Staging

set_option autoImplicit false

namespace OpenSquilla.Vaults

variable {C : Type} {treeSize : C → Nat} {surroundings : Nat → String → Reading C} {quota : Int}

-- The batch behind the entries that are left, and the receipts for it.
structure Committed (treeSize : C → Nat) (surroundings : Nat → String → Reading C) (quota : Int)
    (targets : List String)
    (before after : Dict String (Entry C)) (returned : List BackupReceipt) (copies : List (StagedBackup × C))
    (given : Nat) : Prop where
  copied : List.Forall₂ (IsCopy treeSize surroundings) targets copies
  returned_eq : returned = copies.map fun copy => copy.1.receipt
  entries : after.entries = (withoutOldest before given).entries ++ copies.map committedEntry
  givenUp : GivenUp before (batchBytes copies) quota given
  within : bytesOf (receipts after) ≤ quota

structure TooLarge (treeSize : C → Nat) (surroundings : Nat → String → Reading C) (quota : Int)
    (targets : List String)
    (before after : Dict String (Entry C)) (copies : List (StagedBackup × C)) (given : Nat) : Prop where
  copied : List.Forall₂ (IsCopy treeSize surroundings) targets copies
  large : quota < batchBytes copies
  entries : after = withoutOldest before given
  givenUp : GivenUp before (batchBytes copies) (max 0 quota) given

inductive Ends (treeSize : C → Nat) (surroundings : Nat → String → Reading C) (quota : Int)
    (targets : List String)
    (count : Nat) (vault : Vault C) (tried : Attempted C) : Prop
  | committed (returned : List BackupReceipt) (copies : List (StagedBackup × C)) (given : Nat)
      (result : tried.result = .ok returned)
      (committed : Committed treeSize surroundings quota targets vault.entries tried.vault.entries returned copies given)
  | tooLarge (copies : List (StagedBackup × C)) (given : Nat)
      (result : tried.result = .error (.tooLarge (batchBytes copies) quota))
      (refused : TooLarge treeSize surroundings quota targets vault.entries tried.vault.entries copies given)
      (unstaged : (discardAll tried.vault tried.staged).staging = vault.staging)
  | osError (result : tried.result = .error .osError) (disturbed : ¬Undisturbed surroundings vault count targets)
      (unstaged : StagesOrStops surroundings vault.staging count targets →
        (discardAll tried.vault tried.staged).staging = vault.staging)

theorem receipts_committed {before after : Dict String (Entry C)} {copies : List (StagedBackup × C)}
    (entries : after.entries = before.entries ++ copies.map committedEntry) :
    receipts after = receipts before ++ copies.map fun copy => copy.1.receipt := by
  have each : (copies.map committedEntry).filterMap (fun entry => entry.2.manifest.map fun manifest =>
      (⟨manifest, entry.1⟩ : BackupReceipt)) = copies.map fun copy => copy.1.receipt := by
    rw [List.filterMap_map, ← List.filterMap_eq_map]
    rfl
  rw [receipts, entries, List.filterMap_append, each]
  rfl

theorem bytesOf_batch (copies : List (StagedBackup × C)) :
    bytesOf (copies.map fun copy => copy.1.receipt) = batchBytes copies := by
  rw [bytesOf, List.map_map]
  rfl

theorem attempt_ends (count : Nat) (vault : Vault C) (targets : List String) :
    Ends treeSize surroundings quota targets count vault
      (attempt treeSize surroundings quota count vault targets) := by
  rw [attempt]
  split
  · rename_i raised after later failed
    refine .osError (congrArg Except.error (stageAll_error failed)) (fun undisturbed => ?_) fun stops => ?_
    · obtain ⟨items, reached, last, staged, -⟩ :=
        @stageAll_stageable C treeSize surroundings count vault targets undisturbed.toStageable
      rw [failed] at staged
      cases staged
    · rw [stageAll_stops failed stops]
      rfl
  rename_i items after later staged
  obtain ⟨copies, rfl, copied, entries, staging⟩ := stageAll_ok staged
  have total : ((copies.map Prod.fst).map fun item => (item.sizeBytes : Int)).sum = batchBytes copies := by
    rw [List.map_map]
    rfl
  have ids : (copies.map Prod.fst).map StagedBackup.backupId = idsOf copies := List.map_map ..
  have nonneg := batchBytes_nonneg copies
  simp only [total, evictForCapacity_eq, max_eq_right nonneg, entries]
  have given := surplus_givenUp (batchBytes copies) (max 0 quota) vault.entries
  split
  · rename_i large
    refine .tooLarge copies _ rfl ⟨copied, large, rfl, given⟩ ?_
    rw [discardAll_eq, ids]
    exact eraseAll_staged staging
  rename_i possible
  rw [Int.not_lt] at possible
  have quotaSome := nonneg.trans possible
  rw [max_eq_right quotaSome] at given ⊢
  have room := bytesOf_evicted vault.entries possible
  have apart := later.staging.nodupKeys
  rw [staging, List.map_append, List.nodup_append, List.map_map] at apart
  have stored : ∀ copy ∈ copies, later.staging.get? copy.1.backupId = some copy.2 := by
    intro copy mem
    rw [Dict.get?_eq_some_iff, staging]
    exact List.mem_append_right _ (List.mem_map_of_mem mem)
  rcases @publishAll_cases C quota
    ⟨later.staging,
      withoutOldest vault.entries (surplus (batchBytes copies) quota vault.entries)⟩ copies apart.2.1 stored
    possible room with ⟨failed, copy, mem, taken⟩ | ⟨done, all⟩
  · refine .osError failed (fun undisturbed => ?_) fun _ => ?_
    · obtain ⟨items, reached, last, again, names⟩ :=
        @stageAll_stageable C treeSize surroundings count vault targets undisturbed.toStageable
      rw [staged] at again
      cases again
      rw [ids] at names
      have drawn : copy.1.backupId ∈ idsOf copies := List.mem_map_of_mem mem
      rw [names] at drawn
      obtain ⟨reading, read, same⟩ := List.mem_map.mp drawn
      rw [← same, withoutOldest, Dict.keys, Dict.entries_eraseAll] at taken
      exact undisturbed.uncommitted reading read ((List.filter_sublist.map Prod.fst).subset taken)
    · have named : ∀ item ∈ copies.map Prod.fst, item.backupId ∈ idsOf copies := by
        rw [← ids]
        exact fun item mem => List.mem_map_of_mem mem
      rw [discardAll_eq, ids]
      exact (publishAll_staging _ named).trans (eraseAll_staged staging)
  · refine .committed _ copies _ done ⟨copied, rfl, all, given, ?_⟩
    rw [receipts_committed all, bytesOf_append, bytesOf_batch]
    exact room

/-- What the last attempt found: the entries there were, or none after an attempt that met an error. -/
inductive FoundBy (surroundings : Nat → String → Reading C) (targets : List String) (count : Nat)
    (vault : Vault C) :
    Dict String (Entry C) → Prop
  | first : FoundBy surroundings targets count vault vault.entries
  | cleared (disturbed : ¬Undisturbed surroundings vault count targets) : FoundBy surroundings targets count vault Dict.empty

variable {targets : List String}

theorem backupAttempts_ok {returned : List BackupReceipt} {after : Vault C} (remaining : Nat)
    {count : Nat} {vault : Vault C}
    (ran : backupAttempts treeSize surroundings quota targets remaining count vault = (.ok returned, after)) :
    ∃ before copies given, FoundBy surroundings targets count vault before ∧
      Committed treeSize surroundings quota targets before after.entries returned copies given := by
  induction remaining generalizing count vault with
  | zero => cases ran
  | succ remaining ih =>
    rw [backupAttempts] at ran
    have ends := @attempt_ends C treeSize surroundings quota count vault targets
    generalize attempt treeSize surroundings quota count vault targets = tried at ends ran
    cases ends with
    | committed returned copies given result committed =>
      simp only [result] at ran
      cases ran
      exact ⟨_, copies, given, .first, committed⟩
    | tooLarge copies given result =>
      simp only [result] at ran
      cases ran
    | osError result disturbed =>
      simp only [result] at ran
      obtain ⟨before, copies, given, found, committed⟩ := ih ran
      refine ⟨before, copies, given, ?_, committed⟩
      cases found with
      | first => exact .cleared disturbed
      | cleared _ => exact .cleared disturbed

theorem backupAttempts_tooLarge {sizeBytes quotaBytes : Int} {after : Vault C} (remaining : Nat)
    {count : Nat} {vault : Vault C}
    (ran : backupAttempts treeSize surroundings quota targets remaining count vault =
      (.error (.tooLarge sizeBytes quotaBytes), after)) :
    ∃ before copies given, FoundBy surroundings targets count vault before ∧
      (remaining ≤ 1 ∨ remaining ≤ 2 ∧ StagesOrStops surroundings vault.staging count targets →
        after.staging = vault.staging) ∧
      sizeBytes = batchBytes copies ∧ quotaBytes = quota ∧
      TooLarge treeSize surroundings quota targets before after.entries copies given := by
  induction remaining generalizing count vault with
  | zero => cases ran
  | succ remaining ih =>
    rw [backupAttempts] at ran
    have ends := @attempt_ends C treeSize surroundings quota count vault targets
    generalize attempt treeSize surroundings quota count vault targets = tried at ends ran
    cases ends with
    | committed returned copies given result =>
      simp only [result] at ran
      cases ran
    | tooLarge copies given result refused unstaged =>
      simp only [result] at ran
      cases ran
      refine ⟨_, copies, given, .first, fun _ => unstaged, rfl, rfl, ?_⟩
      rw [discardAll_eq]
      exact refused
    | osError result disturbed unstaged =>
      simp only [result] at ran
      obtain ⟨before, copies, given, found, same, size, bound, refused⟩ := ih ran
      refine ⟨before, copies, given, ?_, fun few => ?_, size, bound, refused⟩
      · cases found with
        | first => exact .cleared disturbed
        | cleared _ => exact .cleared disturbed
      · obtain last | ⟨two, stops⟩ := few
        · -- no attempt is left that could find the batch too large
          obtain rfl : remaining = 0 := by omega
          cases ran
        · exact (same (.inl (by omega))).trans (unstaged stops)

theorem backupAttempts_missing {target : String} (mem : target ∈ targets)
    (missing : ∀ moment, (surroundings moment target).source = .missing) (remaining count : Nat)
    (vault : Vault C) : ∃ after, backupAttempts treeSize surroundings quota targets remaining count vault =
      (.error .ioError, after) ∧
      (0 < remaining ∨ vault.entries = Dict.empty → after.entries = Dict.empty) ∧
      (targets.head? = some target → after.staging = vault.staging) := by
  induction remaining generalizing count vault with
  | zero => exact ⟨vault, rfl, fun either => either.resolve_left (Nat.lt_irrefl 0), fun _ => rfl⟩
  | succ remaining ih =>
    obtain ⟨counted, later, failed⟩ :=
      @stageAll_missing C treeSize surroundings target targets mem missing count vault
    obtain ⟨after, ran, cleared, same⟩ := ih counted (clearCommittedBackups later)
    refine ⟨after, ?_, fun _ => cleared (.inr rfl), fun leads => ?_⟩
    · rw [backupAttempts, attempt]
      simp only [failed]
      exact ran
    · have stops : StagesOrStops surroundings vault.staging count targets := by
        refine .inr fun stageable => ?_
        obtain ⟨rest, rfl⟩ := List.head?_eq_some_iff.mp leads
        obtain ⟨content, source⟩ := stageable.readable _ (List.mem_singleton_self _)
        rw [missing count] at source
        cases source
      rw [same leads, stageAll_stops failed stops]
      rfl

theorem TooLarge.clears {before after : Dict String (Entry C)} {copies : List (StagedBackup × C)}
    {given : Nat} (refused : TooLarge treeSize surroundings quota targets before after copies given)
    (quotaSome : 0 ≤ quota)
    (sizes : ∀ receipt ∈ receipts before, 0 ≤ receipt.sizeBytes) : receipts after = [] := by
  obtain ⟨-, large, rfl, givenUp⟩ := refused
  rw [max_eq_right quotaSome] at givenUp
  have left := receipts_withoutOldest before given
  rcases Nat.lt_or_eq_of_le givenUp.within with fewer | all
  · -- what is left would have to be of negative size
    have rest : 0 ≤ bytesOf ((listReceipts before).drop given) := by
      refine bytesOf_nonneg fun receipt mem => sizes receipt ?_
      exact (listReceipts_perm before).subset ((List.drop_sublist ..).subset mem)
    have enough := givenUp.enough fewer
    omega
  · have none : (listReceipts before).drop given = [] := by rw [all, List.drop_length]
    rw [none] at left
    exact left.eq_nil

/-- What a call of `backup_many` does to the backups there are, and to the staging directory. -/
structure BackupsKept (treeSize : C → Nat) (surroundings : Nat → String → Reading C) (quota : Int)
    (vault : Vault C)
    (targets : List String) : Prop where
  returned : ∀ returned after, backupMany treeSize surroundings quota vault targets = (.ok returned, after) →
    ∃ before copies given, FoundBy surroundings targets 0 vault before ∧
      Committed treeSize surroundings quota targets before after.entries returned copies given
  refused : ∀ sizeBytes quotaBytes after,
    backupMany treeSize surroundings quota vault targets = (.error (.tooLarge sizeBytes quotaBytes), after) →
      ∃ before copies given, FoundBy surroundings targets 0 vault before ∧
        (StagesOrStops surroundings vault.staging 0 targets → after.staging = vault.staging) ∧
        sizeBytes = batchBytes copies ∧ quotaBytes = quota ∧
        TooLarge treeSize surroundings quota targets before after.entries copies given ∧
        (0 ≤ quota → (∀ receipt ∈ receipts vault.entries, 0 ≤ receipt.sizeBytes) → receipts after.entries = [])
  missing : ∀ target ∈ targets, (∀ moment, (surroundings moment target).source = .missing) →
    ∃ after, backupMany treeSize surroundings quota vault targets = (.error .ioError, after) ∧
      after.entries = Dict.empty ∧ (targets.head? = some target → after.staging = vault.staging)

theorem recursive_delete_backups (treeSize : C → Nat) (surroundings : Nat → String → Reading C) (quota : Int)
    (vault : Vault C) (nonempty : targets ≠ []) : BackupsKept treeSize surroundings quota vault targets := by
  have attempts : backupMany treeSize surroundings quota vault targets =
      backupAttempts treeSize surroundings quota targets 2 0 vault := if_neg nonempty
  constructor
  case returned =>
    intro returned after ran
    exact backupAttempts_ok 2 (attempts.symm.trans ran)
  case refused =>
    intro sizeBytes quotaBytes after ran
    obtain ⟨before, copies, given, found, staging, size, bound, refused⟩ :=
      backupAttempts_tooLarge 2 (attempts.symm.trans ran)
    refine ⟨before, copies, given, found, fun stops => staging (.inr ⟨Nat.le_refl _, stops⟩), size, bound,
      refused, fun quotaSome sizes => ?_⟩
    refine refused.clears quotaSome ?_
    cases found with
    | first => exact sizes
    | cleared _ => exact List.forall_mem_nil _
  case missing =>
    intro target mem missing
    obtain ⟨after, ran, cleared, same⟩ :=
      @backupAttempts_missing C treeSize surroundings quota targets target mem missing 2 0 vault
    exact ⟨after, attempts.trans ran, cleared (.inl (Nat.zero_lt_two)), same⟩

def keptVault : Vault Nat where
  staging := Dict.empty
  entries := Dict.empty.set "1-a" ⟨8, some ⟨"1-a", "/old", 8, 1⟩⟩

-- Files of a size, at the second after that of the backup.
def filesOf (size : Nat) (moment : Nat) (_ : String) : Reading Nat :=
  ⟨2, if moment = 0 then "b" else "c", .readable size, 2⟩

theorem recursive_delete_backups_of_two :
    (backupMany id (filesOf 6) 12 keptVault ["/first", "/second"]).1.toOption =
        some [⟨⟨"2-b", "/first", 6, 2⟩, "2-b"⟩, ⟨⟨"2-c", "/second", 6, 2⟩, "2-c"⟩] ∧
      BackupsKept id (filesOf 6) 12 keptVault ["/first", "/second"] :=
  ⟨by decide, recursive_delete_backups id (filesOf 6) 12 keptVault (List.cons_ne_nil _ _)⟩

def StillThere (before after : Vault C) : Prop := ∀ entry ∈ before.entries.entries, entry ∈ after.entries.entries

theorem refused_batch_destroys_backups :
    ¬∀ (treeSize : Nat → Nat) (surroundings : Nat → String → Reading Nat) (quota : Int) (vault : Vault Nat)
        (targets : List String) (sizeBytes quotaBytes : Int) (after : Vault Nat),
      backupMany treeSize surroundings quota vault targets = (.error (.tooLarge sizeBytes quotaBytes), after) →
        StillThere vault after := by
  intro keeps
  have refused : backupMany id (filesOf 9) 8 keptVault ["/large"] =
      (.error (.tooLarge 9 8), ⟨Dict.empty, Dict.empty⟩) := rfl
  exact List.not_mem_nil (keeps _ _ _ _ _ _ _ _ refused _ (List.mem_singleton_self _))

end OpenSquilla.Vaults
