import OpenSquilla.Shared.Eviction
import OpenSquilla.Snapshots.Store

set_option autoImplicit false

namespace OpenSquilla.Snapshots

open Eviction RaisingRuns TextLines

def ToolResultStore.stats (store : ToolResultStore) : List StoredMeta :=
  store.entries.map fun entry => entry.2.stat entry.1

def ToolResultStore.storedBytes (store : ToolResultStore) : Nat :=
  store.sumValues fun files => files.content.bytes.size

def RecordFiles.isExpired (cutoff : Option Int) (files : RecordFiles) : Bool :=
  Snapshots.isExpired cutoff files.content.modifiedAt

def StoredMeta.isExpired (cutoff : Option Int) (record : StoredMeta) : Bool :=
  Snapshots.isExpired cutoff record.createdAt

-- What is left of the store once the expired records are gone.
def retained (store : ToolResultStore) (cutoff : Option Int) (order : ScanOrder) : ToolResultStore :=
  (removeExpired cutoff store (iterRecordStats store order)).1

def byAge (store : ToolResultStore) (cutoff : Option Int) (order : ScanOrder) : List StoredMeta :=
  oldestFirst ((iterRecordStats store order).filter fun record => !record.isExpired cutoff)

def fitsBudget (incoming budget : Nat) (records : List StoredMeta) : Bool :=
  total StoredMeta.sizeBytes records + incoming ≤ budget

theorem removeExpired_eq (cutoff : Option Int) (store : ToolResultStore) (records : List StoredMeta) :
    removeExpired cutoff store records =
      (store.eraseAll ((records.filter (StoredMeta.isExpired cutoff)).map StoredMeta.recordDir),
        records.filter fun record => !record.isExpired cutoff) := by
  induction records generalizing store with
  | nil => rfl
  | cons record rest ih =>
    unfold removeExpired
    split
    next expired =>
      have gone : record.isExpired cutoff = true := expired
      rw [ih, List.filter_cons_of_pos gone, List.filter_cons_of_neg (by simp [gone])]
      rfl
    next live =>
      have kept : record.isExpired cutoff = false := Bool.not_eq_true _ ▸ live
      rw [ih, List.filter_cons_of_neg (by simp [kept]), List.filter_cons_of_pos (by simp [kept])]

theorem evictUntilFits_eq (incoming budget : Nat) (store : ToolResultStore)
    (records : List StoredMeta) (isOver : fitsBudget incoming budget records = false) :
    evictUntilFits incoming budget store (total StoredMeta.sizeBytes records) records =
      (store.eraseAll
          ((records.take (surplus (fitsBudget incoming budget) records)).map StoredMeta.recordDir),
        total StoredMeta.sizeBytes
          (records.drop (surplus (fitsBudget incoming budget) records))) := by
  induction records generalizing store with
  | nil => rfl
  | cons record rest ih =>
    have left : total StoredMeta.sizeBytes (record :: rest) - record.sizeBytes =
        total StoredMeta.sizeBytes rest := by
      rw [total_cons, Nat.add_sub_cancel_left]
    have more : ¬fitsBudget incoming budget (record :: rest) = true := by
      rw [isOver]
      exact Bool.false_ne_true
    rw [evictUntilFits, surplus, if_neg more, left]
    split
    next fits =>
      rw [surplus_of_fits _ (decide_eq_true fits)]
      rfl
    next more => exact ih _ (decide_eq_false more)

theorem pruneToFit_eq (store : ToolResultStore) (records : List StoredMeta) (incoming : Nat) (budget : Int) :
    pruneToFit store records incoming budget =
      let count := surplus (fitsBudget incoming budget.toNat) (oldestFirst records)
      let current := total StoredMeta.sizeBytes ((oldestFirst records).drop count)
      (store.eraseAll (((oldestFirst records).take count).map StoredMeta.recordDir),
        raiseIf (budget.toNat < current + incoming)
          (StoreError.exceedsDiskBudget current incoming budget.toNat)) := by
  unfold pruneToFit
  dsimp only
  split
  next fits =>
    have none : surplus (fitsBudget incoming budget.toNat) (oldestFirst records) = 0 :=
      surplus_of_fits _ (decide_eq_true fits)
    rw [none, List.take_zero, List.drop_zero, raiseIf, total, if_neg (Nat.not_lt.mpr fits)]
    rfl
  next isOver =>
    have evicted := evictUntilFits_eq incoming budget.toNat store (oldestFirst records)
      (decide_eq_false isOver)
    rw [total] at evicted
    rw [evicted]

theorem stats_perm (store : ToolResultStore) (order : ScanOrder) :
    (iterRecordStats store order).Perm store.stats := order.perm _

theorem oldestFirst_perm (records : List StoredMeta) : (oldestFirst records).Perm records :=
  List.perm_insertionSort _ _

theorem oldestFirst_sorted (records : List StoredMeta) :
    (oldestFirst records).Pairwise fun first second => first.createdAt ≤ second.createdAt := by
  have : Std.Total fun first second : StoredMeta => first.createdAt ≤ second.createdAt :=
    ⟨fun first second => Int.le_total first.createdAt second.createdAt⟩
  have : IsTrans StoredMeta fun first second => first.createdAt ≤ second.createdAt :=
    ⟨fun _ _ _ => Int.le_trans⟩
  exact List.pairwise_insertionSort _ _

theorem dirs_stats (store : ToolResultStore) : store.stats.map StoredMeta.recordDir = store.keys := by
  rw [ToolResultStore.stats, List.map_map]
  rfl

theorem nodup_dirs {store : ToolResultStore} {records : List StoredMeta}
    (same : records.Perm store.stats) : (records.map StoredMeta.recordDir).Nodup := by
  rw [(same.map StoredMeta.recordDir).nodup_iff, dirs_stats]
  exact store.nodupKeys

theorem stats_eraseAll (store : ToolResultStore) (dirs : List RecordDir) :
    ToolResultStore.stats (store.eraseAll dirs) =
      store.stats.filter fun record => record.recordDir ∉ dirs := by
  rw [ToolResultStore.stats, Dict.entries_eraseAll, ToolResultStore.stats, List.filter_map]
  rfl

theorem mem_stats {store : ToolResultStore} {dir : RecordDir} {record : StoredMeta} :
    record ∈ store.stats ∧ record.recordDir = dir ↔
      ∃ files, store.get? dir = some files ∧ record = files.stat dir := by
  constructor
  · rintro ⟨mem, rfl⟩
    obtain ⟨⟨dir, files⟩, present, rfl⟩ := List.mem_map.mp mem
    exact ⟨files, (Dict.get?_eq_some_iff store dir files).mpr present, rfl⟩
  · rintro ⟨files, present, rfl⟩
    exact ⟨List.mem_map_of_mem ((Dict.get?_eq_some_iff store dir files).mp present), rfl⟩

theorem get?_retained (store : ToolResultStore) (cutoff : Option Int) (order : ScanOrder) (dir : RecordDir) :
    (retained store cutoff order).get? dir =
      (store.get? dir).filter fun files => !files.isExpired cutoff := by
  have gone : dir ∈ ((iterRecordStats store order).filter (StoredMeta.isExpired cutoff)).map
      StoredMeta.recordDir ↔ ∃ files, store.get? dir = some files ∧ files.isExpired cutoff = true := by
    rw [List.mem_map]
    constructor
    · rintro ⟨record, mem, here⟩
      obtain ⟨present, expired⟩ := List.mem_filter.mp mem
      obtain ⟨files, found, rfl⟩ := mem_stats.mp ⟨(stats_perm store order).mem_iff.mp present, here⟩
      exact ⟨files, found, expired⟩
    · rintro ⟨files, found, expired⟩
      obtain ⟨present, here⟩ := mem_stats.mpr ⟨files, found, rfl⟩
      exact ⟨files.stat dir, List.mem_filter.mpr
        ⟨(stats_perm store order).mem_iff.mpr present, expired⟩, here⟩
  rw [retained, removeExpired_eq, Dict.get?_eraseAll]
  cases found : store.get? dir with
  | none => simp
  | some files =>
    simp only [gone, found, Option.some.injEq, exists_eq_left', Option.filter_some]
    cases files.isExpired cutoff <;> rfl

theorem stats_retained (store : ToolResultStore) (cutoff : Option Int) (order : ScanOrder) :
    (retained store cutoff order).stats.Perm (byAge store cutoff order) := by
  have scanned := stats_perm store order
  have distinct := nodup_dirs scanned
  calc (retained store cutoff order).stats
      = store.stats.filter fun record => record.recordDir ∉
          ((iterRecordStats store order).filter (StoredMeta.isExpired cutoff)).map
            StoredMeta.recordDir := by rw [retained, removeExpired_eq, stats_eraseAll]
    _ |>.Perm ((iterRecordStats store order).filter fun record => record.recordDir ∉
          ((iterRecordStats store order).filter (StoredMeta.isExpired cutoff)).map
            StoredMeta.recordDir) := scanned.symm.filter _
    _ = (iterRecordStats store order).filter fun record => !record.isExpired cutoff :=
        filter_key_filter distinct _
    _ |>.Perm (byAge store cutoff order) := (oldestFirst_perm _).symm

theorem survivors_byAge (store : ToolResultStore) (cutoff : Option Int) (order : ScanOrder) :
    oldestFirst (removeExpired cutoff store (iterRecordStats store order)).2 =
      byAge store cutoff order := by
  rw [removeExpired_eq]
  rfl

theorem fitsBudget_nil_of_drop {incoming budget : Nat} {records : List StoredMeta}
    (isOver : fitsBudget incoming budget
      (records.drop (surplus (fitsBudget incoming budget) records)) = false) :
    budget < incoming := by
  by_contra within
  have empty : fitsBudget incoming budget [] = true := by
    simpa [fitsBudget] using within
  rw [fits_drop_surplus _ _ empty] at isOver
  cases isOver

section CleanUp

variable (store : ToolResultStore) (request : WriteRequest) (snapshot : Snapshot)
  (cutoff : Option Int)

/-- The first `count` of the unexpired records give way to the incoming one, none needlessly. -/
structure Evicted (count : Nat) (cleaned : ToolResultStore) : Prop where
  left : cleaned = (retained store cutoff request.scanOrder).eraseAll
    (((byAge store cutoff request.scanOrder).take count).map StoredMeta.recordDir)
  needed : ∀ fewer < count, ∃ budget ∈ request.diskBudgetBytes,
    fitsBudget snapshot.stored.bytes.size budget.toNat
      ((byAge store cutoff request.scanOrder).drop fewer) = false

theorem cleanUp_reuses {reused : ToolResultRecord}
    (existing : existingRecord (retained store cutoff request.scanOrder) request snapshot
      snapshot.sha256.primaryHandle = some reused) :
    cleanUp store request snapshot cutoff =
      (retained store cutoff request.scanOrder, .ok (some reused)) := by
  unfold retained at existing ⊢
  simp only [cleanUp, existing]

theorem cleanUp_evicts (missing : existingRecord (retained store cutoff request.scanOrder) request snapshot
      snapshot.sha256.primaryHandle = none) :
    ∃ count cleaned, Evicted store request snapshot cutoff count cleaned ∧
      ((cleanUp store request snapshot cutoff = (cleaned, .ok none) ∧
          ∀ budget ∈ request.diskBudgetBytes, fitsBudget snapshot.stored.bytes.size budget.toNat
            ((byAge store cutoff request.scanOrder).drop count) = true) ∨
        (byAge store cutoff request.scanOrder).drop count = [] ∧
        ∃ budget ∈ request.diskBudgetBytes, budget.toNat < snapshot.stored.bytes.size ∧
          ∃ current, cleanUp store request snapshot cutoff =
            (cleaned, .error (.exceedsDiskBudget current snapshot.stored.bytes.size budget.toNat))) := by
  unfold retained at missing
  cases limit : request.diskBudgetBytes with
  | none =>
    refine ⟨0, retained store cutoff request.scanOrder, ⟨rfl, ?_⟩, Or.inl ⟨?_, ?_⟩⟩
    · intro fewer below
      exact absurd below (Nat.not_lt_zero fewer)
    · simp only [cleanUp, missing, limit]
      rfl
    · intro budget mem
      cases mem
  | some budget =>
    let fits := fitsBudget snapshot.stored.bytes.size budget.toNat
    let oldest := byAge store cutoff request.scanOrder
    let current := total StoredMeta.sizeBytes (oldest.drop (surplus fits oldest))
    have ran : cleanUp store request snapshot cutoff =
        ((retained store cutoff request.scanOrder).eraseAll
            ((oldest.take (surplus fits oldest)).map StoredMeta.recordDir),
          (raiseIf (budget.toNat < current + snapshot.stored.bytes.size)
            (StoreError.exceedsDiskBudget current snapshot.stored.bytes.size budget.toNat)).map
              fun _ => none) := by
      simp only [cleanUp, missing, limit, pruneToFit_eq, survivors_byAge]
      rfl
    refine ⟨surplus fits oldest, _, ⟨rfl, ?_⟩, ?_⟩
    · intro fewer below
      exact ⟨budget, limit, not_fits_of_lt_surplus fits oldest below⟩
    · rw [ran]
      cases fitting : fits (oldest.drop (surplus fits oldest)) with
      | true =>
        have within : ¬budget.toNat < current + snapshot.stored.bytes.size :=
          Nat.not_lt.mpr (of_decide_eq_true fitting)
        left
        rw [raiseIf, if_neg within]
        refine ⟨rfl, ?_⟩
        intro other same
        obtain rfl : budget = other := Option.some.inj same
        exact fitting
      | false =>
        have isOver : budget.toNat < current + snapshot.stored.bytes.size :=
          Nat.not_le.mp (of_decide_eq_false fitting)
        have larger := fitsBudget_nil_of_drop fitting
        have never : ∀ kept, fits kept = false := fun kept =>
          decide_eq_false (Nat.not_le.mpr (Nat.lt_of_lt_of_le larger (Nat.le_add_left _ _)))
        have all : surplus fits oldest = oldest.length := surplus_eq_length fits oldest never
        right
        refine ⟨?_, budget, rfl, larger, current, ?_⟩
        · rw [all]
          exact List.drop_length
        · rw [raiseIf, if_pos isOver]
          rfl

variable {store request snapshot cutoff}

theorem Evicted.stats {count : Nat} {cleaned : ToolResultStore}
    (evicted : Evicted store request snapshot cutoff count cleaned) :
    cleaned.stats.Perm ((byAge store cutoff request.scanOrder).drop count) := by
  have kept := stats_retained store cutoff request.scanOrder
  calc cleaned.stats
      = (retained store cutoff request.scanOrder).stats.filter fun record => record.recordDir ∉
          ((byAge store cutoff request.scanOrder).take count).map StoredMeta.recordDir := by
        rw [evicted.left, stats_eraseAll]
    _ |>.Perm ((byAge store cutoff request.scanOrder).filter fun record => record.recordDir ∉
          ((byAge store cutoff request.scanOrder).take count).map StoredMeta.recordDir) :=
        kept.filter _
    _ = (byAge store cutoff request.scanOrder).drop count :=
        filter_key_drop (nodup_dirs kept.symm) count

theorem Evicted.get? {count : Nat} {cleaned : ToolResultStore}
    (evicted : Evicted store request snapshot cutoff count cleaned) {dir : RecordDir}
    {files : RecordFiles} (found : cleaned.get? dir = some files) :
    store.get? dir = some files ∧ files.isExpired cutoff = false := by
  rw [evicted.left, Dict.get?_eraseAll] at found
  split at found
  next => cases found
  next =>
    rw [get?_retained, Option.filter_eq_some_iff] at found
    exact ⟨found.1, by simpa using found.2⟩

theorem Evicted.of_all_expired {count : Nat} {cleaned : ToolResultStore}
    (evicted : Evicted store request snapshot cutoff count cleaned) {dir : RecordDir}
    (missing : (retained store cutoff request.scanOrder).get? dir = none) : cleaned.get? dir = none := by
  rw [evicted.left, Dict.get?_eraseAll, missing, ite_self]

end CleanUp

theorem storedBytes_eq (store : ToolResultStore) :
    store.storedBytes = total StoredMeta.sizeBytes store.stats := by
  rw [ToolResultStore.storedBytes, Dict.sumValues, Dict.values, ToolResultStore.stats, total,
    List.map_map, List.map_map]
  rfl

end OpenSquilla.Snapshots
