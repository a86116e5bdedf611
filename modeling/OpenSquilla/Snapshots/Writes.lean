import OpenSquilla.Snapshots.CleanUp

set_option autoImplicit false

-- Every directory is named after the content that it holds. While no two contents share a name, a
-- write reuses the record of its own content or stores one in an empty directory.

namespace OpenSquilla.Snapshots

open Eviction RaisingRuns TextLines TextScan

variable (lib : Libraries)

def primaryHandle (content : String) : Handle := (lib.hexdigest content.toUTF8).primaryHandle

structure Intact (content : String) (files : RecordFiles) : Prop where
  readsBack : readContent lib files = .ok content.toUTF8
  hashed : files.metadata.sha256 = lib.hexdigest content.toUTF8
  sized : files.metadata.sizeBytes = content.toUTF8.size

def WellFormed (known : String → Prop) (store : ToolResultStore) : Prop :=
  ∀ dir files, store.get? dir = some files →
    ∃ content, known content ∧ dir.handle = primaryHandle lib content ∧ Intact lib content files

def CollisionFree (known : String → Prop) : Prop :=
  ∀ first second, known first → known second →
    primaryHandle lib first = primaryHandle lib second → first = second

def snapshotDir (snapshot : Snapshot) : RecordDir :=
  recordDir snapshot.sha256.primaryHandle snapshot.sessionId

def cleaned (store : ToolResultStore) (request : WriteRequest) : ToolResultStore :=
  match request.accept lib with
  | .error _ => store
  | .ok (snapshot, cutoff) => (cleanUp store request snapshot cutoff).1

structure SameRecord (before after : RecordFiles) : Prop where
  metadata : after.metadata = before.metadata
  name : after.content.name = before.content.name
  bytes : after.content.bytes = before.content.bytes

theorem SameRecord.refl (files : RecordFiles) : SameRecord files files := ⟨rfl, rfl, rfl⟩

theorem sameRecord_touch (at' : Int) (files : RecordFiles) : SameRecord files (files.touch at') :=
  ⟨rfl, rfl, rfl⟩

variable {lib}

theorem Intact.of_same {content : String} {before after : RecordFiles}
    (intact : Intact lib content before) (same : SameRecord before after) : Intact lib content after where
  readsBack := by
    have reads := intact.readsBack
    unfold readContent at reads ⊢
    rwa [same.metadata, same.name, same.bytes]
  hashed := by rw [same.metadata, intact.hashed]
  sized := by rw [same.metadata, intact.sized]

structure Admitted (lib : Libraries) (request : WriteRequest) (snapshot : Snapshot) : Prop where
  sessionId : snapshot.sessionId = strip request.sessionId
  nonblank : strip request.sessionId ≠ []
  payload : snapshot.payload = request.content.toUTF8
  stored : snapshot.stored = request.storedPayload lib
  sha256 : snapshot.sha256 = lib.hexdigest request.content.toUTF8
  nonempty : 0 < snapshot.stored.bytes.size

variable {request : WriteRequest}

theorem storedPayload_nonempty (lib : Libraries)
    (nonempty : request.payload.size ≠ 0) : 0 < (request.storedPayload lib).bytes.size := by
  unfold WriteRequest.storedPayload
  dsimp only
  split
  next => exact lib.compress_nonempty _ _
  next => exact Nat.pos_of_ne_zero nonempty

theorem validateNonEmpty_ok {name value valid : Text}
    (checked : validateNonEmpty name value = .ok valid) : valid = strip value ∧ strip value ≠ [] := by
  unfold validateNonEmpty at checked
  split at checked
  next => cases checked
  next nonblank => exact ⟨(Except.ok.inj checked).symm, nonblank⟩

variable {snapshot : Snapshot}

theorem accept_ok {cutoff : Option Int} (admitted : request.accept lib = .ok (snapshot, cutoff)) :
    Admitted lib request snapshot := by
  obtain ⟨prepared, ready, admitted⟩ := of_bind_ok admitted
  obtain ⟨_, -, admitted⟩ := of_bind_ok admitted
  cases admitted
  obtain ⟨sessionId, session, ready⟩ := of_bind_ok ready
  obtain ⟨_, -, ready⟩ := of_bind_ok ready
  obtain ⟨_, -, ready⟩ := of_bind_ok ready
  obtain ⟨_, nonempty, ready⟩ := of_bind_ok ready
  obtain ⟨_, -, ready⟩ := of_bind_ok ready
  cases ready
  obtain ⟨rfl, nonblank⟩ := validateNonEmpty_ok session
  exact ⟨rfl, nonblank, rfl, rfl, rfl, storedPayload_nonempty lib (raiseIf_eq_ok.mp nonempty)⟩

theorem Admitted.primaryHandle (admitted : Admitted lib request snapshot) :
    snapshot.sha256.primaryHandle = Snapshots.primaryHandle lib request.content := by
  rw [admitted.sha256]
  rfl

theorem intact_recordFiles (admitted : Admitted lib request snapshot) (handle : Handle) :
    Intact lib request.content
      (recordFiles request snapshot (newRecord request snapshot handle)) where
  readsBack := by
    simp only [readContent, recordFiles, newRecord, ne_eq, not_true_eq_false, if_false,
      admitted.stored, WriteRequest.storedPayload]
    by_cases compressed : exceeds request.maxBytes request.payload.size ∧
        (lib.compress request.compressedAt request.payload).size < request.payload.size
    · rw [if_pos compressed]
      dsimp only
      rw [lib.decompress_compress]
      rfl
    · rw [if_neg compressed]
      rfl
  hashed := admitted.sha256
  sized := congrArg ByteArray.size admitted.payload

variable {store : ToolResultStore}

theorem existingRecord_eq_some {handle : Handle} {record : ToolResultRecord}
    (existing : existingRecord store request snapshot handle = some record) :
    (∃ files, store.get? (recordDir handle snapshot.sessionId) = some files) ∧
      record.handle = handle ∧ record.sessionId = snapshot.sessionId := by
  unfold existingRecord at existing
  obtain ⟨files, found, existing⟩ := Option.bind_eq_some_iff.mp existing
  split at existing
  next =>
    cases existing
    exact ⟨⟨files, found⟩, rfl, rfl⟩
  next => cases existing

theorem get?_of_no_existing {known : String → Prop} (wellFormed : WellFormed lib known store)
    (distinct : CollisionFree lib known) (asked : known request.content)
    (admitted : Admitted lib request snapshot)
    (missing : existingRecord store request snapshot snapshot.sha256.primaryHandle = none) :
    store.get? (snapshotDir snapshot) = none := by
  cases found : store.get? (snapshotDir snapshot) with
  | none => rfl
  | some files =>
    obtain ⟨content, stored, named, intact⟩ := wellFormed _ files found
    have same : content = request.content :=
      distinct content request.content stored asked (named.symm.trans admitted.primaryHandle)
    have hashed : files.metadata.sha256 = snapshot.sha256 := by
      rw [intact.hashed, admitted.sha256, same]
    unfold snapshotDir at found
    simp [existingRecord, found, hashed] at missing

/-- The ways through a write: the store after clean-up, then the store and the result. -/
inductive Wrote (lib : Libraries) (store : ToolResultStore) (request : WriteRequest) :
    ToolResultStore → ToolResultStore × Except StoreError ToolResultRecord → Prop
  | refused {raised : StoreError} (refusal : request.accept lib = .error raised) :
      Wrote lib store request store (store, .error raised)
  | reused {snapshot : Snapshot} {cutoff : Option Int} {record : ToolResultRecord}
      {files : RecordFiles} (admitted : request.accept lib = .ok (snapshot, cutoff))
      (found : (retained store cutoff request.scanOrder).get? (snapshotDir snapshot) = some files)
      (handle : record.handle = snapshot.sha256.primaryHandle)
      (session : record.sessionId = snapshot.sessionId) :
      Wrote lib store request (retained store cutoff request.scanOrder)
        ((retained store cutoff request.scanOrder).modify (snapshotDir snapshot)
          (RecordFiles.touch request.touchedAt), .ok record)
  | stored {snapshot : Snapshot} {cutoff : Option Int} {count : Nat} {left : ToolResultStore}
      (admitted : request.accept lib = .ok (snapshot, cutoff))
      (missing : (retained store cutoff request.scanOrder).get? (snapshotDir snapshot) = none)
      (evicted : Evicted store request snapshot cutoff count left)
      (fits : ∀ budget ∈ request.diskBudgetBytes, fitsBudget snapshot.stored.bytes.size
        budget.toNat ((byAge store cutoff request.scanOrder).drop count) = true) :
      Wrote lib store request left
        (left.set (snapshotDir snapshot) (recordFiles request snapshot
            (newRecord request snapshot snapshot.sha256.primaryHandle)),
          .ok (newRecord request snapshot snapshot.sha256.primaryHandle))
  | overBudget {snapshot : Snapshot} {cutoff : Option Int} {count : Nat} {left : ToolResultStore}
      {budget : Int} {current : Nat} (admitted : request.accept lib = .ok (snapshot, cutoff))
      (missing : (retained store cutoff request.scanOrder).get? (snapshotDir snapshot) = none)
      (evicted : Evicted store request snapshot cutoff count left)
      (emptied : (byAge store cutoff request.scanOrder).drop count = [])
      (limit : request.diskBudgetBytes = some budget)
      (isOver : budget.toNat < snapshot.stored.bytes.size) :
      Wrote lib store request left (left,
        .error (.exceedsDiskBudget current snapshot.stored.bytes.size budget.toNat))

theorem wellFormed_retained {known : String → Prop}
    (wellFormed : WellFormed lib known store) (cutoff : Option Int) (order : ScanOrder) :
    WellFormed lib known (retained store cutoff order) := by
  intro dir files found
  rw [get?_retained, Option.filter_eq_some_iff] at found
  exact wellFormed dir files found.1

theorem storeUnder_free (free : store.get? (snapshotDir snapshot) = none) :
    storeUnder store request snapshot (candidateHandles request snapshot) =
      (store.set (snapshotDir snapshot) (recordFiles request snapshot
          (newRecord request snapshot snapshot.sha256.primaryHandle)),
        .ok (newRecord request snapshot snapshot.sha256.primaryHandle)) := by
  unfold snapshotDir at free
  simp only [candidateHandles, storeUnder, free, Option.isSome_none, Bool.false_eq_true, if_false]
  rfl

theorem write_wrote {known : String → Prop}
    (wellFormed : WellFormed lib known store) (distinct : CollisionFree lib known)
    (asked : known request.content) :
    Wrote lib store request (cleaned lib store request) (write lib store request) := by
  unfold cleaned write
  cases admitted : request.accept lib with
  | error raised => exact Wrote.refused admitted
  | ok admission =>
    obtain ⟨snapshot, cutoff⟩ := admission
    dsimp only
    have kept := wellFormed_retained wellFormed cutoff request.scanOrder
    cases existing : existingRecord (retained store cutoff request.scanOrder) request snapshot
        snapshot.sha256.primaryHandle with
    | some record =>
      obtain ⟨⟨files, found⟩, handle, session⟩ := existingRecord_eq_some existing
      rw [cleanUp_reuses store request snapshot cutoff existing]
      exact Wrote.reused admitted found handle session
    | none =>
      have missing := get?_of_no_existing kept distinct asked (accept_ok admitted) existing
      obtain ⟨count, left, evicted, ran⟩ := cleanUp_evicts store request snapshot cutoff existing
      obtain ⟨ran, fits⟩ | ⟨emptied, budget, limit, isOver, current, ran⟩ := ran
      · have free := evicted.of_all_expired missing
        rw [ran]
        dsimp only
        rw [storeUnder_free free]
        exact Wrote.stored admitted missing evicted fits
      · rw [ran]
        exact Wrote.overBudget admitted missing evicted emptied limit isOver

end OpenSquilla.Snapshots
