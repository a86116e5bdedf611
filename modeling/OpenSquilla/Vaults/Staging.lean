import OpenSquilla.Vaults.Capacity

set_option autoImplicit false

-- Each target is copied into the staging directory. Where the batch fits, its copies are moved
-- among the entries one after another, and none of them makes another one go.

namespace OpenSquilla.Vaults

variable {C : Type}

section Copies

variable (treeSize : C → Nat) (surroundings : Nat → String → Reading C)

structure IsCopy (target : String) (copy : StagedBackup × C) : Prop where
  path : copy.1.originalPath = target
  found : ∃ moment, (surroundings moment target).source = .readable copy.2
  size : copy.1.sizeBytes = treeSize copy.2

def stagedEntry (copy : StagedBackup × C) : String × C := (copy.1.backupId, copy.2)

def committedEntry (copy : StagedBackup × C) : String × Entry C :=
  (copy.1.backupId, ⟨copy.2, some copy.1.manifest⟩)

def idsOf (copies : List (StagedBackup × C)) : List String := copies.map fun copy => copy.1.backupId

def batchBytes (copies : List (StagedBackup × C)) : Int := (copies.map fun copy => (copy.1.sizeBytes : Int)).sum

theorem batchBytes_cons (copy : StagedBackup × C) (rest : List (StagedBackup × C)) :
    batchBytes (copy :: rest) = copy.1.sizeBytes + batchBytes rest := by
  rw [batchBytes, List.map_cons, List.sum_cons, ← batchBytes]

theorem batchBytes_nonneg (copies : List (StagedBackup × C)) : 0 ≤ batchBytes copies := by
  induction copies with
  | nil => exact Int.le_refl _
  | cons copy rest ih =>
    rw [batchBytes_cons]
    omega

end Copies

section StageAll

variable {treeSize : C → Nat} {surroundings : Nat → String → Reading C}

theorem stage_ok {vault later : Vault C} {count : Nat} {target : String} {item : StagedBackup}
    (staged : stage treeSize surroundings vault count target = (.ok item, later)) :
    ∃ content, IsCopy treeSize surroundings target (item, content) ∧ later.entries = vault.entries ∧
      later.staging.entries = vault.staging.entries ++ [stagedEntry (item, content)] := by
  rw [stage] at staged
  cases source : (surroundings count target).source with
  | missing =>
    simp only [source] at staged
    cases staged
  | unreadable =>
    simp only [source] at staged
    cases staged
  | readable content =>
    simp only [source] at staged
    split at staged
    · cases staged
    rename_i fresh
    cases staged
    exact ⟨content, ⟨rfl, ⟨count, source⟩, rfl⟩, rfl, Dict.entries_set_of_absent _ _ _ fresh⟩

theorem stage_readable {vault : Vault C} {count : Nat} {target : String} {content : C}
    (source : (surroundings count target).source = .readable content)
    (unstaged : (surroundings count target).backupId ∉ vault.staging.keys) :
    stage treeSize surroundings vault count target =
      (.ok ⟨(surroundings count target).backupId, target, treeSize content,
        (surroundings count target).createdAt⟩,
        { vault with staging := vault.staging.set (surroundings count target).backupId content }) := by
  rw [stage]
  simp only [source, if_neg unstaged]

theorem stage_error {vault later : Vault C} {count : Nat} {target : String} {raised : Raised}
    (failed : stage treeSize surroundings vault count target = (.error raised, later)) : raised = .osError := by
  rw [stage] at failed
  cases source : (surroundings count target).source with
  | missing =>
    simp only [source] at failed
    cases failed
    rfl
  | unreadable =>
    simp only [source] at failed
    cases failed
    rfl
  | readable content =>
    simp only [source] at failed
    split at failed
    · cases failed
      rfl
    · cases failed

theorem stageAll_ok {count after : Nat} {vault later : Vault C} {targets : List String}
    {items : List StagedBackup}
    (staged : stageAll treeSize surroundings count vault targets = (.ok items, after, later)) :
    ∃ copies : List (StagedBackup × C), items = copies.map Prod.fst ∧
      List.Forall₂ (IsCopy treeSize surroundings) targets copies ∧ later.entries = vault.entries ∧
      later.staging.entries = vault.staging.entries ++ copies.map stagedEntry := by
  induction targets generalizing count vault items with
  | nil =>
    cases staged
    exact ⟨[], rfl, .nil, rfl, (List.append_nil _).symm⟩
  | cons target rest ih =>
    rw [stageAll] at staged
    split at staged
    · cases staged
    rename_i item middle first
    split at staged
    · cases staged
    rename_i items' count' later' others
    cases staged
    obtain ⟨content, isCopy, entries, staging⟩ := stage_ok first
    obtain ⟨copies, rfl, copied, sameEntries, allStaging⟩ := ih others
    refine ⟨(item, content) :: copies, rfl, .cons isCopy copied, sameEntries.trans entries, ?_⟩
    rw [allStaging, staging, List.append_assoc, List.singleton_append, List.map_cons]

theorem stageAll_error {count after : Nat} {vault later : Vault C} {targets : List String} {raised : Raised}
    (failed : stageAll treeSize surroundings count vault targets = (.error raised, after, later)) :
    raised = .osError := by
  induction targets generalizing count vault with
  | nil => cases failed
  | cons target rest ih =>
    rw [stageAll] at failed
    split at failed
    · rename_i first
      cases failed
      exact stage_error first
    split at failed
    · rename_i others
      cases failed
      exact ih others
    · cases failed

theorem stageAll_missing {target : String} {targets : List String} (mem : target ∈ targets)
    (missing : ∀ moment, (surroundings moment target).source = .missing) (count : Nat) (vault : Vault C) :
    ∃ after later, stageAll treeSize surroundings count vault targets = (.error .osError, after, later) := by
  cases staged : stageAll treeSize surroundings count vault targets with
  | mk result rest =>
    obtain ⟨after, later⟩ := rest
    cases result with
    | error raised => exact ⟨after, later, by rw [stageAll_error staged]⟩
    | ok items =>
      obtain ⟨copies, -, copied, -⟩ := stageAll_ok staged
      obtain ⟨index, bound, here⟩ := List.getElem_of_mem mem
      have isCopy := copied.get bound (by rw [← copied.length_eq]; exact bound)
      obtain ⟨moment, found⟩ := isCopy.found
      rw [List.get_eq_getElem, here, missing moment] at found
      cases found

-- What is read while the targets are staged, one after another.
def readings (surroundings : Nat → String → Reading C) : Nat → List String → List (Reading C)
  | _, [] => []
  | count, target :: rest => surroundings count target :: readings surroundings (count + 1) rest

/-- Every target can be staged: it can be read, and the name drawn for it is new. -/
structure Stageable (surroundings : Nat → String → Reading C) (staging : Dict String C) (count : Nat)
    (targets : List String) : Prop where
  readable : ∀ reading ∈ readings surroundings count targets, ∃ content, reading.source = .readable content
  distinct : ((readings surroundings count targets).map Reading.backupId).Nodup
  unstaged : ∀ reading ∈ readings surroundings count targets, reading.backupId ∉ staging.keys

-- The file operations of a batch go through: no entry has a name that is drawn for a target either.
structure Undisturbed (surroundings : Nat → String → Reading C) (vault : Vault C) (count : Nat)
    (targets : List String) : Prop extends Stageable surroundings vault.staging count targets where
  uncommitted : ∀ reading ∈ readings surroundings count targets, reading.backupId ∉ vault.entries.keys

theorem stageAll_stageable {count : Nat} {vault : Vault C} {targets : List String}
    (stageable : Stageable surroundings vault.staging count targets) :
    ∃ items after later, stageAll treeSize surroundings count vault targets = (.ok items, after, later) ∧
      items.map StagedBackup.backupId = (readings surroundings count targets).map Reading.backupId := by
  induction targets generalizing count vault with
  | nil => exact ⟨[], count, vault, rfl, rfl⟩
  | cons target rest ih =>
    obtain ⟨readable, distinct, unstaged⟩ := stageable
    rw [readings, List.forall_mem_cons] at readable unstaged
    rw [readings, List.map_cons, List.nodup_cons] at distinct
    obtain ⟨content, source⟩ := readable.1
    have first := @stage_readable C treeSize surroundings vault count target content source unstaged.1
    have fresh : ∀ reading ∈ readings surroundings (count + 1) rest,
        reading.backupId ∉ (vault.staging.set (surroundings count target).backupId content).keys := by
      intro reading mem
      rw [Dict.mem_keys_set]
      rintro (same | before)
      · exact distinct.1 (same ▸ List.mem_map_of_mem mem)
      · exact unstaged.2 reading mem before
    obtain ⟨items, after, later, others, ids⟩ := @ih (count + 1)
      { vault with staging := vault.staging.set (surroundings count target).backupId content }
      ⟨readable.2, distinct.2, fresh⟩
    refine ⟨⟨(surroundings count target).backupId, target, treeSize content,
        (surroundings count target).createdAt⟩ :: items,
      after, later, ?_, ?_⟩
    · rw [stageAll, first]
      simp only [others]
    · rw [List.map_cons, ids, readings, List.map_cons]

-- The targets can be staged, or already the first of them cannot.
def StagesOrStops (surroundings : Nat → String → Reading C) (staging : Dict String C) (count : Nat)
    (targets : List String) : Prop :=
  Stageable surroundings staging count targets ∨ ¬Stageable surroundings staging count (targets.take 1)

theorem stageAll_stops {count after : Nat} {vault later : Vault C} {targets : List String} {raised : Raised}
    (failed : stageAll treeSize surroundings count vault targets = (.error raised, after, later))
    (stops : StagesOrStops surroundings vault.staging count targets) : later = vault := by
  obtain stageable | unstageable := stops
  · obtain ⟨items, after, last, staged, -⟩ :=
      @stageAll_stageable C treeSize surroundings count vault targets stageable
    rw [failed] at staged
    cases staged
  · cases targets with
    | nil => cases failed
    | cons target rest =>
      have alone : readings surroundings count [target] = [surroundings count target] := rfl
      rw [stageAll, stage] at failed
      cases source : (surroundings count target).source with
      | missing =>
        simp only [source] at failed
        cases failed
        rfl
      | unreadable =>
        simp only [source] at failed
        cases failed
        rfl
      | readable content =>
        by_cases taken : (surroundings count target).backupId ∈ vault.staging.keys
        · simp only [source, if_pos taken] at failed
          cases failed
          rfl
        · refine absurd ⟨?_, ?_, ?_⟩ unstageable
          · exact List.forall_mem_singleton.mpr ⟨content, source⟩
          · exact List.nodup_singleton _
          · exact List.forall_mem_singleton.mpr taken

end StageAll

section PublishAll

variable {quota : Int} {vault : Vault C}

theorem publish_of_room {item : StagedBackup} {content : C}
    (found : vault.staging.get? item.backupId = some content)
    (fits : item.sizeBytes ≤ quota) (room : bytesOf (receipts vault.entries) + item.sizeBytes ≤ quota) :
    publish quota vault item =
      if item.backupId ∈ vault.entries.keys then (.error .osError, vault)
      else
        (.ok item.receipt,
          { staging := vault.staging.erase item.backupId
            entries := vault.entries.set item.backupId ⟨content, some item.manifest⟩ }) := by
  have evicted : evictForCapacity vault item.sizeBytes quota = vault :=
    evictForCapacity_of_room (Int.natCast_nonneg _) room ((Int.natCast_nonneg _).trans fits)
  unfold publish
  simp only [evicted, if_neg (Int.not_lt.mpr fits), found]
  split
  · rfl
  rename_i fresh
  rw [enforceQuota_of_fits]
  rw [receipts_set fresh, bytesOf_append]
  exact room

theorem publishAll_cases (copies : List (StagedBackup × C)) (distinct : (idsOf copies).Nodup)
    (stored : ∀ copy ∈ copies, vault.staging.get? copy.1.backupId = some copy.2)
    (fits : batchBytes copies ≤ quota) (room : bytesOf (receipts vault.entries) + batchBytes copies ≤ quota) :
    ((publishAll quota vault (copies.map Prod.fst)).1 = .error .osError ∧
        ∃ copy ∈ copies, copy.1.backupId ∈ vault.entries.keys) ∨
      (publishAll quota vault (copies.map Prod.fst)).1 = .ok (copies.map fun copy => copy.1.receipt) ∧
        (publishAll quota vault (copies.map Prod.fst)).2.entries.entries =
          vault.entries.entries ++ copies.map committedEntry := by
  induction copies generalizing vault with
  | nil => exact .inr ⟨rfl, (List.append_nil _).symm⟩
  | cons copy rest ih =>
    rw [batchBytes_cons] at fits room
    rw [List.forall_mem_cons] at stored
    rw [idsOf, List.map_cons, List.nodup_cons] at distinct
    have more := batchBytes_nonneg rest
    have published :=
      publish_of_room stored.1 (by omega) (by omega : bytesOf (receipts vault.entries) + _ ≤ quota)
    rw [List.map_cons, publishAll, published]
    by_cases taken : copy.1.backupId ∈ vault.entries.keys
    · rw [if_pos taken]
      exact .inl ⟨rfl, copy, List.mem_cons_self .., taken⟩
    rw [if_neg taken]
    simp only
    generalize moved : (⟨vault.staging.erase copy.1.backupId,
      vault.entries.set copy.1.backupId ⟨copy.2, some copy.1.manifest⟩⟩ : Vault C) = later
    have others : ∀ other ∈ rest, other.1.backupId ≠ copy.1.backupId :=
      fun other mem same => distinct.1 (same ▸ List.mem_map_of_mem mem)
    have kept : ∀ other ∈ rest, later.staging.get? other.1.backupId = some other.2 := by
      intro other mem
      rw [← moved, Dict.get?_erase, if_neg (others other mem), stored.2 other mem]
    have entries : later.entries.entries = vault.entries.entries ++ [committedEntry copy] := by
      rw [← moved]
      exact Dict.entries_set_of_absent _ _ _ taken
    have bytes : bytesOf (receipts later.entries) = bytesOf (receipts vault.entries) + copy.1.sizeBytes := by
      rw [← moved, receipts_set taken, bytesOf_append]
      rfl
    rcases ih distinct.2 kept (by omega) (by omega) with ⟨failed, other, mem, known⟩ | ⟨done, all⟩
    · refine .inl ⟨?_, other, List.mem_cons_of_mem _ mem, ?_⟩
      · split
        · rename_i ended
          rw [ended] at failed
          exact failed
        · rename_i ended
          rw [ended] at failed
          cases failed
      · rw [Dict.keys, entries, List.map_append, List.mem_append] at known
        rcases known with before | here
        · exact before
        · exact absurd (List.mem_singleton.mp here) (others other mem)
    · refine .inr ?_
      split
      · rename_i ended
        rw [ended] at done
        cases done
      · rename_i ended
        rw [ended] at done all
        cases done
        refine ⟨rfl, ?_⟩
        rw [all, entries, List.append_assoc, List.singleton_append, List.map_cons]

-- Publishing takes nothing from the staging directory but what it moves among the entries.
theorem publish_staging (vault : Vault C) (item : StagedBackup) :
    (publish quota vault item).2.staging = vault.staging ∨
      (publish quota vault item).2.staging = vault.staging.erase item.backupId := by
  unfold publish
  dsimp only
  split
  · exact Or.inr rfl
  · split
    · exact Or.inl rfl
    · split
      · exact Or.inl rfl
      · exact Or.inr rfl

theorem publishAll_staging (vault : Vault C) {items : List StagedBackup} {names : List String}
    (named : ∀ item ∈ items, item.backupId ∈ names) :
    (publishAll quota vault items).2.staging.eraseAll names = vault.staging.eraseAll names := by
  induction items generalizing vault with
  | nil => rfl
  | cons item rest ih =>
    rw [List.forall_mem_cons] at named
    have one : (publish quota vault item).2.staging.eraseAll names = vault.staging.eraseAll names := by
      obtain same | moved := @publish_staging C quota vault item
      · rw [same]
      · rw [moved, Dict.eraseAll_erase_of_mem named.1]
    have others := ih (publish quota vault item).2 named.2
    rw [publishAll]
    generalize publish quota vault item = published at one others ⊢
    obtain ⟨result, middle⟩ := published
    cases result with
    | error raised => exact one
    | ok receipt =>
      dsimp only at others ⊢
      rw [← one, ← others]
      generalize publishAll quota middle rest = ended
      obtain ⟨result, last⟩ := ended
      cases result <;> rfl

end PublishAll

theorem discardAll_eq (vault : Vault C) (staged : List StagedBackup) : discardAll vault staged =
      { vault with staging := vault.staging.eraseAll (staged.map StagedBackup.backupId) } := by
  induction staged generalizing vault with
  | nil => rfl
  | cons item rest ih => exact ih (discard vault item)

theorem eraseAll_staged {before after : Dict String C} {copies : List (StagedBackup × C)}
    (staged : after.entries = before.entries ++ copies.map stagedEntry) :
    after.eraseAll (idsOf copies) = before := by
  have apart := after.nodupKeys
  rw [staged, List.map_append, List.nodup_append, List.map_map] at apart
  have old : before.entries.filter (fun entry => entry.1 ∉ idsOf copies) = before.entries := by
    refine List.filter_eq_self.mpr fun entry mem => decide_eq_true fun there => ?_
    exact apart.2.2 _ (List.mem_map_of_mem mem) _ there rfl
  have new : (copies.map stagedEntry).filter (fun entry => entry.1 ∉ idsOf copies) = [] := by
    refine List.filter_eq_nil_iff.mpr fun entry mem => ?_
    obtain ⟨copy, inside, rfl⟩ := List.mem_map.mp mem
    have there : copy.1.backupId ∈ idsOf copies := List.mem_map_of_mem inside
    exact fun absent => of_decide_eq_true absent there
  ext1
  rw [Dict.entries_eraseAll, staged, List.filter_append, old, new, List.append_nil]

end OpenSquilla.Vaults
