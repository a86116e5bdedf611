import OpenSquilla.Vaults.BackupVault

set_option autoImplicit false

namespace OpenSquilla.Vaults

variable {C : Type} {entries : Dict String (Entry C)}

theorem older_total (first second : BackupReceipt) : older first second ∨ older second first := by
  rcases lt_trichotomy first.createdAt second.createdAt with before | same | after
  · exact .inl (.inl before)
  · rcases le_total first.backupId second.backupId with below | above
    · exact .inl (.inr ⟨same, below⟩)
    · exact .inr (.inr ⟨same.symm, above⟩)
  · exact .inr (.inl after)

theorem older_trans {first second third : BackupReceipt} (one : older first second) (two : older second third) :
    older first third := by
  rcases one with before | ⟨same, below⟩
  · rcases two with then_ | ⟨same, -⟩
    · exact .inl (before.trans then_)
    · exact .inl (before.trans_eq same)
  · rcases two with then_ | ⟨alike, under⟩
    · exact .inl (same.trans_lt then_)
    · exact .inr ⟨same.trans alike, below.trans under⟩

theorem listReceipts_perm (entries : Dict String (Entry C)) : (listReceipts entries).Perm (receipts entries) :=
  List.perm_insertionSort _ _

theorem listReceipts_sorted (entries : Dict String (Entry C)) : (listReceipts entries).Pairwise older := by
  have total : Std.Total older := ⟨older_total⟩
  have trans : IsTrans BackupReceipt older := ⟨fun _ _ _ => older_trans⟩
  exact List.pairwise_insertionSort older _

theorem bytesOf_perm {first second : List BackupReceipt} (same : first.Perm second) :
    bytesOf first = bytesOf second :=
  (same.map _).sum_eq

theorem receipts_paths_nodup (entries : Dict String (Entry C)) :
    ((receipts entries).map BackupReceipt.entryPath).Nodup := by
  refine entries.nodupKeys.sublist ?_
  rw [receipts]
  generalize entries.entries = all
  induction all with
  | nil => exact List.Sublist.slnil
  | cons entry rest ih =>
    cases manifest : entry.2.manifest with
    | none =>
      rw [List.filterMap_cons_none (by rw [manifest]; rfl)]
      exact ih.cons _
    | some read =>
      rw [List.filterMap_cons_some (by rw [manifest]; rfl)]
      exact ih.cons_cons _

theorem receipts_eraseAll (entries : Dict String (Entry C)) (paths : List String) :
    receipts (entries.eraseAll paths) = (receipts entries).filter fun receipt => receipt.entryPath ∉ paths := by
  rw [receipts, receipts, Dict.entries_eraseAll]
  induction entries.entries with
  | nil => rfl
  | cons entry rest ih =>
    by_cases gone : entry.1 ∈ paths
    · rw [List.filter_cons_of_neg (by simpa using gone), ih]
      cases manifest : entry.2.manifest with
      | none => rw [List.filterMap_cons_none (by rw [manifest]; rfl)]
      | some read =>
        rw [List.filterMap_cons_some (by rw [manifest]; rfl), List.filter_cons_of_neg (by simpa using gone)]
    · rw [List.filter_cons_of_pos (by simpa using gone)]
      cases manifest : entry.2.manifest with
      | none =>
          rw [List.filterMap_cons_none (by rw [manifest]; rfl),
              List.filterMap_cons_none (by rw [manifest]; rfl), ih]
      | some read =>
        rw [List.filterMap_cons_some (by rw [manifest]; rfl), List.filterMap_cons_some (by rw [manifest]; rfl),
          List.filter_cons_of_pos (by simpa using gone), ih]

theorem bytesOf_cons (receipt : BackupReceipt) (rest : List BackupReceipt) :
    bytesOf (receipt :: rest) = receipt.sizeBytes + bytesOf rest := by
  rw [bytesOf, List.map_cons, List.sum_cons, ← bytesOf]

theorem bytesOf_nonneg {all : List BackupReceipt} (sizes : ∀ receipt ∈ all, 0 ≤ receipt.sizeBytes) :
    0 ≤ bytesOf all := by
  induction all with
  | nil => exact Int.le_refl _
  | cons receipt rest ih =>
    rw [List.forall_mem_cons] at sizes
    have later := ih sizes.2
    have here := sizes.1
    rw [bytesOf_cons]
    omega

-- The entries without the oldest of those that can be read.
def withoutOldest (entries : Dict String (Entry C)) (given : Nat) : Dict String (Entry C) :=
  entries.eraseAll (((listReceipts entries).take given).map BackupReceipt.entryPath)

theorem receipts_withoutOldest (entries : Dict String (Entry C)) (given : Nat) :
    (receipts (withoutOldest entries given)).Perm ((listReceipts entries).drop given) := by
  have distinct : ((listReceipts entries).map BackupReceipt.entryPath).Nodup :=
    ((listReceipts_perm entries).map _).nodup_iff.mpr (receipts_paths_nodup entries)
  rw [withoutOldest, receipts_eraseAll, ← Eviction.filter_key_drop distinct given]
  exact ((listReceipts_perm entries).symm).filter _

def hasRoom (required quota : Int) (left : List BackupReceipt) : Bool := bytesOf left + required ≤ quota

def surplus (required quota : Int) (entries : Dict String (Entry C)) : Nat :=
  Eviction.surplus (hasRoom required quota) (listReceipts entries)

theorem evictReceipts_eq (required quota : Int) (all : List BackupReceipt) (entries : Dict String (Entry C)) :
    evictReceipts required quota (bytesOf all) all entries =
      entries.eraseAll
        ((all.take (Eviction.surplus (hasRoom required quota) all)).map BackupReceipt.entryPath) := by
  induction all generalizing entries with
  | nil => rfl
  | cons receipt rest ih =>
    have less : bytesOf (receipt :: rest) - receipt.sizeBytes = bytesOf rest := by
      rw [bytesOf_cons]
      omega
    rw [evictReceipts, Eviction.surplus, less]
    by_cases room : bytesOf (receipt :: rest) + required ≤ quota
    · have fits : hasRoom required quota (receipt :: rest) = true := decide_eq_true room
      rw [if_pos room, if_pos fits]
      rfl
    · have full : hasRoom required quota (receipt :: rest) = false := decide_eq_false room
      rw [if_neg room, full, if_neg Bool.false_ne_true, ih]
      rfl

theorem evictForCapacity_eq (vault : Vault C) (required quota : Int) : evictForCapacity vault required quota =
      { vault with
        entries :=
          withoutOldest vault.entries (surplus (max 0 required) (max 0 quota) vault.entries) } := by
  rw [evictForCapacity, evictReceipts_eq]
  rfl

/-- A prefix of the receipts, the oldest first, that is not longer than what is required needs. -/
structure GivenUp (entries : Dict String (Entry C)) (required quota : Int) (given : Nat) : Prop where
  within : given ≤ (listReceipts entries).length
  oldestFirst : ∀ gone ∈ (listReceipts entries).take given, ∀ left ∈ (listReceipts entries).drop given,
    older gone left
  needed : ∀ fewer, fewer < given → quota < bytesOf ((listReceipts entries).drop fewer) + required
  enough : given < (listReceipts entries).length → bytesOf ((listReceipts entries).drop given) + required ≤ quota

theorem surplus_givenUp (required quota : Int) (entries : Dict String (Entry C)) :
    GivenUp entries required quota (surplus required quota entries) := by
  refine ⟨Eviction.surplus_le_length _ _, Eviction.dropped_before_kept (listReceipts_sorted entries) _, ?_, ?_⟩
  · intro fewer less
    have none := Eviction.not_fits_of_lt_surplus _ _ less
    rw [hasRoom, decide_eq_false_iff_not, Int.not_le] at none
    exact none
  · intro left
    exact of_decide_eq_true (Eviction.fits_of_surplus_lt _ left)

theorem bytesOf_withoutOldest (entries : Dict String (Entry C)) (given : Nat) :
    bytesOf (receipts (withoutOldest entries given)) = bytesOf ((listReceipts entries).drop given) :=
  bytesOf_perm (receipts_withoutOldest entries given)

theorem bytesOf_evicted {required quota : Int} (entries : Dict String (Entry C)) (possible : required ≤ quota) :
    bytesOf (receipts (withoutOldest entries (surplus required quota entries))) + required ≤ quota := by
  have given := surplus_givenUp required quota entries
  rw [bytesOf_withoutOldest]
  rcases Nat.lt_or_eq_of_le given.within with fewer | all
  · exact given.enough fewer
  · rw [all, List.drop_length, bytesOf, List.map_nil, List.sum_nil]
    omega

theorem evictForCapacity_of_room {vault : Vault C} {required quota : Int} (some : 0 ≤ required)
    (room : bytesOf (receipts vault.entries) + required ≤ quota) (quotaSome : 0 ≤ quota) :
    evictForCapacity vault required quota = vault := by
  have none : surplus required quota vault.entries = 0 := by
    rw [← bytesOf_perm (listReceipts_perm vault.entries)] at room
    exact Eviction.surplus_of_fits _ (decide_eq_true room)
  rw [evictForCapacity_eq, max_eq_right some, max_eq_right quotaSome, none]
  rfl

theorem enforceQuota_of_fits {vault : Vault C} {quota : Int} {preserveId : Option String}
    (fits : bytesOf (receipts vault.entries) ≤ quota) : enforceQuota vault quota preserveId = vault := by
  rw [enforceQuota, bytesOf_perm (listReceipts_perm vault.entries)]
  cases listReceipts vault.entries with
  | nil => rfl
  | cons receipt rest => rw [enforceReceipts, if_pos fits]

theorem receipts_set {entries : Dict String (Entry C)} {path : String} (fresh : path ∉ entries.keys)
    (content : C) (manifest : Manifest) :
    receipts (entries.set path ⟨content, some manifest⟩) = receipts entries ++ [⟨manifest, path⟩] := by
  rw [receipts, Dict.entries_set_of_absent _ _ _ fresh, List.filterMap_append]
  rfl

theorem bytesOf_append (first second : List BackupReceipt) :
    bytesOf (first ++ second) = bytesOf first + bytesOf second := by
  rw [bytesOf, List.map_append, List.sum_append]
  rfl

end OpenSquilla.Vaults
