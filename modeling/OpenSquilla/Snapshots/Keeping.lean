import OpenSquilla.Shared.Runs
import OpenSquilla.Snapshots.Writes

set_option autoImplicit false

-- A record that a write returned is read back until a later write evicts it, provided that no
-- write reuses the record of another session and none is larger than its whole budget.

namespace OpenSquilla.Snapshots

open Eviction RaisingRuns Runs TextLines TextScan

inductive Operation
  | write (request : WriteRequest)
  | read (handle sessionId : Text)

variable (lib : Libraries)

def step (store : ToolResultStore) : Operation → ToolResultStore
  | .write request => (write lib store request).1
  | .read .. => store

-- The operation deletes the record by retention or by the budget.
def Operation.Evicts (store : ToolResultStore) (dir : RecordDir) : Operation → Prop
  | .write request => (store.get? dir).isSome ∧ (cleaned lib store request).get? dir = none
  | .read .. => False

def AddsNoBytes (before after : ToolResultStore) : Prop :=
  ∀ dir files, after.get? dir = some files →
    ∃ old, before.get? dir = some old ∧ files.content.bytes = old.content.bytes

-- What is promised of a write in `store` that is followed by `later`.
structure KeepsItsWord (store : ToolResultStore) (request : WriteRequest)
    (later : List Operation) : Prop where
  readable : ∀ record, (write lib store request).2 = .ok record →
    ∀ between rest, later = between ++ rest →
      Along (step lib)
          (fun store op => ¬op.Evicts lib store (recordDir record.handle record.sessionId))
          (write lib store request).1 between →
        ∃ back, read lib (run (step lib) (write lib store request).1 between) record.handle.text
          request.sessionId = .ok back ∧ back.content = request.content
  sameHandle : ∀ record, (write lib store request).2 = .ok record →
    ∀ between again rest, later = between ++ .write again :: rest →
      again.content = request.content → again.sessionId = request.sessionId →
        ∀ repeated, (write lib (run (step lib) (write lib store request).1 between) again).2 =
          .ok repeated → repeated.handle = record.handle
  addsNoBytes : ∀ record, (write lib store request).2 = .ok record →
    ∀ between again rest, later = between ++ .write again :: rest →
      again.content = request.content → again.sessionId = request.sessionId →
        Along (step lib)
            (fun store op => ¬op.Evicts lib store (recordDir record.handle record.sessionId))
            (write lib store request).1 (between ++ [.write again]) →
          (∃ admitted, again.accept lib = .ok admitted) →
            let held := run (step lib) (write lib store request).1 between
            (∃ repeated, (write lib held again).2 = .ok repeated) ∧
              AddsNoBytes held (write lib held again).1
  withinBudget : ∀ record, (write lib store request).2 = .ok record →
    (cleaned lib store request).get? (recordDir record.handle record.sessionId) = none →
      ∀ budget ∈ request.diskBudgetBytes, ((write lib store request).1.storedBytes : Int) ≤ budget
  deletesOldest : ∀ snapshot cutoff, request.accept lib = .ok (snapshot, cutoff) →
    ∃ (oldest : List StoredMeta) (count : Nat),
      oldest.Perm (store.stats.filter fun record => !record.isExpired cutoff) ∧
      oldest.Pairwise (fun first second => first.createdAt ≤ second.createdAt) ∧
      (cleaned lib store request).stats.Perm (oldest.drop count) ∧
      ∀ fewer < count, ∃ budget ∈ request.diskBudgetBytes,
        max 0 budget < (total StoredMeta.sizeBytes (oldest.drop fewer) : Int) +
          snapshot.stored.bytes.size
  deletesNoOther : ∀ dir files, (cleaned lib store request).get? dir = some files →
    store.get? dir = some files ∧
      ∃ after, (write lib store request).1.get? dir = some after ∧ SameRecord files after
  lossless : ∀ raised, (write lib store request).2 = .error raised → raised.IsBudgetError →
    ∀ dir files, store.get? dir = some files →
      (∃ snapshot cutoff, request.accept lib = .ok (snapshot, cutoff) ∧ files.isExpired cutoff) ∨
        (write lib store request).1.get? dir = some files

-- The unexpired record under the name of the content, if there is one.
def WriteRequest.kept (store : ToolResultStore) (request : WriteRequest) : Option RecordFiles :=
  match request.accept lib with
  | .error _ => none
  | .ok (snapshot, cutoff) =>
    (store.get? (snapshotDir snapshot)).filter fun files => !files.isExpired cutoff

def WriteRequest.ReusesItsOwn (store : ToolResultStore) (request : WriteRequest) : Prop :=
  ∀ files ∈ request.kept lib store, files.metadata.sessionId = strip request.sessionId

/-- The write has something to reuse, or fits an empty disk, or finds nothing to lose. -/
def WriteRequest.SparesOthers (store : ToolResultStore) (request : WriteRequest) : Prop :=
  ∀ admission ∈ (request.accept lib).toOption,
    (request.kept lib store).isSome ∨
      (∀ budget ∈ request.diskBudgetBytes, admission.1.stored.bytes.size ≤ budget.toNat) ∨
      ∀ record ∈ store.stats, record.isExpired admission.2 = true

def Operation.Harmless (store : ToolResultStore) : Operation → Prop
  | .write request => request.ReusesItsOwn lib store ∧ request.SparesOthers lib store
  | .read .. => True

instance decidableReusesItsOwn (store : ToolResultStore) (request : WriteRequest) :
    Decidable (request.ReusesItsOwn lib store) :=
  inferInstanceAs (Decidable (∀ files ∈ request.kept lib store, _))

instance decidableSparesOthers (store : ToolResultStore) (request : WriteRequest) :
    Decidable (request.SparesOthers lib store) :=
  inferInstanceAs (Decidable (∀ admission ∈ (request.accept lib).toOption, _))

instance decidableHarmless (store : ToolResultStore) :
    ∀ op : Operation, Decidable (op.Harmless lib store)
  | .write request =>
    inferInstanceAs (Decidable (request.ReusesItsOwn lib store ∧ request.SparesOthers lib store))
  | .read .. => isTrue trivial

def Holds (store : ToolResultStore) (dir : RecordDir) (sessionId : Text) (content : String) : Prop :=
  ∃ files, store.get? dir = some files ∧ Intact lib content files ∧
    files.metadata.sessionId = sessionId

variable {lib} {known : String → Prop} {store : ToolResultStore} {request : WriteRequest}
  {left : ToolResultStore} {done : ToolResultStore × Except StoreError ToolResultRecord}
variable {dir : RecordDir} {files : RecordFiles}

theorem Wrote.leaves (wrote : Wrote lib store request left done) (found : left.get? dir = some files) :
    store.get? dir = some files ∧ ∃ after, done.1.get? dir = some after ∧ SameRecord files after := by
  cases wrote with
  | refused => exact ⟨found, files, found, SameRecord.refl files⟩
  | @reused snapshot cutoff =>
    have stored := found
    rw [get?_retained, Option.filter_eq_some_iff] at stored
    refine ⟨stored.1, ?_⟩
    dsimp only
    rw [Dict.get?_modify]
    split
    next =>
      rw [found]
      exact ⟨_, rfl, sameRecord_touch _ files⟩
    next => exact ⟨files, found, SameRecord.refl files⟩
  | @stored snapshot cutoff count left admitted missing evicted =>
    have other : dir ≠ snapshotDir snapshot := by
      rintro rfl
      rw [evicted.of_all_expired missing] at found
      cases found
    refine ⟨(evicted.get? found).1, files, ?_, SameRecord.refl files⟩
    dsimp only
    rw [Dict.get?_set, if_neg other, found]
  | overBudget admitted missing evicted =>
    exact ⟨(evicted.get? found).1, files, found, SameRecord.refl files⟩

theorem Wrote.comes (wrote : Wrote lib store request left done) (found : done.1.get? dir = some files) :
    (∃ before, left.get? dir = some before ∧ SameRecord before files) ∨
      ∃ snapshot cutoff, request.accept lib = .ok (snapshot, cutoff) ∧ dir = snapshotDir snapshot ∧
        left.get? dir = none ∧ files = recordFiles request snapshot
          (newRecord request snapshot snapshot.sha256.primaryHandle) := by
  cases wrote with
  | refused => exact Or.inl ⟨files, found, SameRecord.refl files⟩
  | reused =>
    left
    dsimp only at found
    rw [Dict.get?_modify] at found
    split at found
    next =>
      obtain ⟨before, there, rfl⟩ := Option.map_eq_some_iff.mp found
      exact ⟨before, there, sameRecord_touch _ before⟩
    next => exact ⟨files, found, SameRecord.refl files⟩
  | @stored snapshot cutoff count left admitted missing evicted =>
    dsimp only at found
    rw [Dict.get?_set] at found
    split at found
    next here =>
      have free := evicted.of_all_expired missing
      exact Or.inr ⟨snapshot, cutoff, admitted, here, here ▸ free, (Option.some.inj found).symm⟩
    next => exact Or.inl ⟨files, found, SameRecord.refl files⟩
  | overBudget => exact Or.inl ⟨files, found, SameRecord.refl files⟩

theorem WellFormed.write (wellFormed : WellFormed lib known store)
    (distinct : CollisionFree lib known) (asked : known request.content) :
    WellFormed lib known (write lib store request).1 := by
  have wrote := write_wrote wellFormed distinct asked
  intro dir files found
  obtain ⟨before, there, same⟩ | ⟨snapshot, cutoff, admitted, rfl, -, rfl⟩ := wrote.comes found
  · obtain ⟨content, stored, named, intact⟩ := wellFormed dir before (wrote.leaves there).1
    exact ⟨content, stored, named, intact.of_same same⟩
  · have facts := accept_ok admitted
    exact ⟨request.content, asked, facts.primaryHandle, intact_recordFiles facts _⟩

theorem WellFormed.step {op : Operation} (wellFormed : WellFormed lib known store)
    (distinct : CollisionFree lib known) (asked : ∀ request, op = .write request → known request.content) :
    WellFormed lib known (step lib store op) := by
  cases op with
  | write request => exact wellFormed.write distinct (asked request rfl)
  | read => exact wellFormed

theorem Wrote.holds (wrote : Wrote lib store request left done)
    (wellFormed : WellFormed lib known store) (distinct : CollisionFree lib known)
    (asked : known request.content) (own : request.ReusesItsOwn lib store)
    {record : ToolResultRecord} (returned : done.2 = .ok record) :
    record.handle = primaryHandle lib request.content ∧
      record.sessionId = strip request.sessionId ∧ strip request.sessionId ≠ [] ∧
      Holds lib done.1 (recordDir record.handle record.sessionId) record.sessionId
        request.content := by
  cases wrote with
  | refused => cases returned
  | @reused snapshot cutoff _ files admitted found handle session =>
    cases returned
    have facts := accept_ok admitted
    have kept : request.kept lib store = some files := by
      rw [WriteRequest.kept, admitted]
      rwa [get?_retained] at found
    have mine := own files kept
    rw [handle, session, facts.sessionId, facts.primaryHandle]
    refine ⟨rfl, rfl, facts.nonblank, files.touch request.touchedAt, ?_, ?_, mine⟩
    · have here : recordDir (primaryHandle lib request.content) (strip request.sessionId) =
          snapshotDir snapshot := by
        rw [snapshotDir, facts.primaryHandle, facts.sessionId]
      dsimp only
      rw [here, Dict.get?_modify, if_pos rfl, found]
      rfl
    · obtain ⟨content, stored, named, intact⟩ :=
        wellFormed_retained wellFormed cutoff request.scanOrder _ files found
      have same := distinct content request.content stored asked
        (named.symm.trans facts.primaryHandle)
      subst same
      exact intact.of_same (sameRecord_touch _ files)
  | @stored snapshot cutoff count left admitted =>
    cases returned
    have facts := accept_ok admitted
    refine ⟨facts.primaryHandle, facts.sessionId, facts.nonblank, _, ?_,
      intact_recordFiles facts snapshot.sha256.primaryHandle, rfl⟩
    exact (Dict.get?_set _ _ _ _).trans (if_pos rfl)
  | overBudget => cases returned

theorem Holds.step {op : Operation} {sessionId : Text} {content : String}
    (wellFormed : WellFormed lib known store) (distinct : CollisionFree lib known)
    (asked : ∀ request, op = .write request → known request.content)
    (holds : Holds lib store dir sessionId content) (spared : ¬op.Evicts lib store dir) :
    Holds lib (step lib store op) dir sessionId content := by
  cases op with
  | read => exact holds
  | write request =>
    have wrote := write_wrote wellFormed distinct (asked request rfl)
    obtain ⟨files, found, intact, mine⟩ := holds
    cases there : (cleaned lib store request).get? dir with
    | none => exact absurd ⟨by rw [found]; rfl, there⟩ spared
    | some kept =>
      obtain ⟨stored, after, reached, same⟩ := wrote.leaves there
      obtain rfl : files = kept := Option.some.inj (found.symm.trans stored)
      exact ⟨after, reached, intact.of_same same, same.metadata ▸ mine⟩

theorem validateHandle_text (handle : Handle) : validateHandle handle.text = .ok handle := by
  have valid : handleMark.isPrefixOf handle.text ∧
      (handle.text.drop 3).length = contentHandleHex ∧
      ∀ c ∈ handle.text.drop 3, isHexDigit c = true := by
    refine ⟨?_, ?_, ?_⟩
    · exact List.isPrefixOf_iff_prefix.mpr (List.prefix_append handleMark handle.suffix)
    · exact handle.length_suffix
    · exact handle.isHex
  rw [validateHandle, dif_pos valid]
  rfl

theorem fromUTF8?_toUTF8 (content : String) : String.fromUTF8? content.toUTF8 = some content := by
  rw [String.fromUTF8?, String.toUTF8_eq_toByteArray, dif_pos content.isValidUTF8]
  rfl

theorem Holds.read {handle : Handle} {sessionId : Text} {content : String} (nonblank : strip sessionId ≠ [])
    (holds : Holds lib store (recordDir handle (strip sessionId)) (strip sessionId) content) :
    ∃ back, read lib store handle.text sessionId = .ok back ∧ back.content = content := by
  obtain ⟨files, found, intact, mine⟩ := holds
  unfold Snapshots.read
  simp only [validateNonEmpty, if_neg nonblank, validateHandle_text, found, orRaise, Option.elim_some,
    intact.readsBack, fromUTF8?_toUTF8, raiseIf, mine, intact.hashed, intact.sized, ne_eq,
    not_true_eq_false, if_false, Except.bind, bind, pure, Except.pure]
  exact ⟨_, rfl, rfl⟩

theorem Wrote.withinBudget (wrote : Wrote lib store request left done) {record : ToolResultRecord}
    (returned : done.2 = .ok record)
    (free : left.get? (recordDir record.handle record.sessionId) = none) {budget : Int}
    (limit : request.diskBudgetBytes = some budget) : (done.1.storedBytes : Int) ≤ budget := by
  cases wrote with
  | refused => cases returned
  | reused admitted found handle session =>
    cases returned
    rw [handle, session] at free
    cases found.symm.trans free
  | @stored snapshot cutoff count left admitted missing evicted fits =>
    have empty := evicted.of_all_expired missing
    have room := of_decide_eq_true (fits budget limit)
    have nonempty := (accept_ok admitted).nonempty
    have added := Dict.sumValues_set left (snapshotDir snapshot) (recordFiles request snapshot
      (newRecord request snapshot snapshot.sha256.primaryHandle))
      (fun files => files.content.bytes.size)
    rw [empty, Option.elim_none, add_zero] at added
    have before := storedBytes_eq left
    rw [total_perm StoredMeta.sizeBytes evicted.stats] at before
    have size : (recordFiles request snapshot (newRecord request snapshot
        snapshot.sha256.primaryHandle)).content.bytes.size = snapshot.stored.bytes.size := rfl
    unfold ToolResultStore.storedBytes at before ⊢
    dsimp only
    rw [added, size, before]
    omega
  | overBudget => cases returned

theorem Wrote.deletesOldest (wrote : Wrote lib store request left done) {snapshot : Snapshot}
    {cutoff : Option Int} (admitted : request.accept lib = .ok (snapshot, cutoff)) :
    ∃ (oldest : List StoredMeta) (count : Nat),
      oldest.Perm (store.stats.filter fun record => !record.isExpired cutoff) ∧
      oldest.Pairwise (fun first second => first.createdAt ≤ second.createdAt) ∧
      left.stats.Perm (oldest.drop count) ∧
      ∀ fewer < count, ∃ budget ∈ request.diskBudgetBytes,
        max 0 budget < (total StoredMeta.sizeBytes (oldest.drop fewer) : Int) +
          snapshot.stored.bytes.size := by
  have unexpired : (byAge store cutoff request.scanOrder).Perm
      (store.stats.filter fun record => !record.isExpired cutoff) :=
    (oldestFirst_perm _).trans ((stats_perm store request.scanOrder).filter _)
  have evicts : ∀ {count : Nat}, Evicted store request snapshot cutoff count left →
      ∃ (oldest : List StoredMeta) (count : Nat),
        oldest.Perm (store.stats.filter fun record => !record.isExpired cutoff) ∧
        oldest.Pairwise (fun first second => first.createdAt ≤ second.createdAt) ∧
        left.stats.Perm (oldest.drop count) ∧
        ∀ fewer < count, ∃ budget ∈ request.diskBudgetBytes,
          max 0 budget < (total StoredMeta.sizeBytes (oldest.drop fewer) : Int) +
            snapshot.stored.bytes.size := by
    intro count evicted
    refine ⟨_, count, unexpired, oldestFirst_sorted _, evicted.stats, ?_⟩
    intro fewer below
    obtain ⟨budget, limit, isOver⟩ := evicted.needed fewer below
    have more := of_decide_eq_false isOver
    unfold total at more ⊢
    exact ⟨budget, limit, by omega⟩
  cases wrote with
  | refused refusal => cases refusal.symm.trans admitted
  | reused again =>
    cases again.symm.trans admitted
    refine ⟨_, 0, unexpired, oldestFirst_sorted _, stats_retained store cutoff request.scanOrder, ?_⟩
    intro fewer below
    exact absurd below (Nat.not_lt_zero fewer)
  | stored again _ evicted =>
    cases again.symm.trans admitted
    exact evicts evicted
  | overBudget again _ evicted =>
    cases again.symm.trans admitted
    exact evicts evicted

theorem kept_eq_retained {snapshot : Snapshot} {cutoff : Option Int}
    (admitted : request.accept lib = .ok (snapshot, cutoff)) : request.kept lib store =
      (retained store cutoff request.scanOrder).get? (snapshotDir snapshot) := by
  rw [WriteRequest.kept, admitted, get?_retained]

theorem Wrote.lossless (wrote : Wrote lib store request left done)
    (spares : request.SparesOthers lib store) {raised : StoreError}
    (failed : done.2 = .error raised) (dir : RecordDir) (files : RecordFiles)
    (found : store.get? dir = some files) :
    (∃ snapshot cutoff, request.accept lib = .ok (snapshot, cutoff) ∧ files.isExpired cutoff) ∨
      done.1.get? dir = some files := by
  cases wrote with
  | refused => exact Or.inr found
  | reused => cases failed
  | stored => cases failed
  | @overBudget snapshot cutoff count left budget current admitted missing evicted emptied limit isOver =>
    obtain kept | fits | expired := spares (snapshot, cutoff) (by rw [admitted]; rfl)
    · rw [kept_eq_retained admitted, missing] at kept
      cases kept
    · exact absurd (fits budget limit) (Nat.not_le.mpr isOver)
    · obtain ⟨mem, -⟩ := mem_stats.mpr ⟨files, found, rfl⟩
      exact Or.inl ⟨snapshot, cutoff, admitted, expired _ mem⟩

theorem Wrote.reusesStored (wrote : Wrote lib store request left done)
    (admission : ∃ admitted, request.accept lib = .ok admitted)
    (there : left.get? (recordDir (primaryHandle lib request.content) (strip request.sessionId)) =
      some files) :
    (∃ record, done.2 = .ok record) ∧ AddsNoBytes store done.1 := by
  have here : ∀ {snapshot cutoff}, request.accept lib = .ok (snapshot, cutoff) →
      snapshotDir snapshot = recordDir (primaryHandle lib request.content)
        (strip request.sessionId) := by
    intro snapshot cutoff admitted
    have facts := accept_ok admitted
    rw [snapshotDir, facts.primaryHandle, facts.sessionId]
  have adds : AddsNoBytes store done.1 := by
    intro dir after found
    obtain ⟨before, kept, same⟩ | ⟨snapshot, cutoff, admitted, rfl, empty, -⟩ := wrote.comes found
    · exact ⟨before, (wrote.leaves kept).1, same.bytes⟩
    · rw [here admitted, there] at empty
      cases empty
  refine ⟨?_, adds⟩
  cases wrote with
  | refused refusal =>
    obtain ⟨admitted, went⟩ := admission
    cases refusal.symm.trans went
  | reused => exact ⟨_, rfl⟩
  | stored => exact ⟨_, rfl⟩
  | @overBudget snapshot cutoff count left budget current admitted missing evicted =>
    have empty := evicted.of_all_expired missing
    rw [here admitted, there] at empty
    cases empty

theorem Wrote.handle (wrote : Wrote lib store request left done) {record : ToolResultRecord}
    (returned : done.2 = .ok record) : record.handle = primaryHandle lib request.content ∧
      record.sessionId = strip request.sessionId := by
  cases wrote with
  | refused => cases returned
  | reused admitted found handle session =>
    cases returned
    have facts := accept_ok admitted
    exact ⟨handle.trans facts.primaryHandle, session.trans facts.sessionId⟩
  | stored admitted =>
    cases returned
    have facts := accept_ok admitted
    exact ⟨facts.primaryHandle, facts.sessionId⟩
  | overBudget => cases returned

theorem read_ok {handle sessionId : Text} {back : ToolResultRecord}
    (reads : Snapshots.read lib store handle sessionId = .ok back) :
    ∃ normalized files, validateHandle handle = .ok normalized ∧
      store.get? (recordDir normalized (strip sessionId)) = some files ∧
      files.metadata.sessionId = strip sessionId := by
  obtain ⟨valid, session, reads⟩ := of_bind_ok reads
  obtain ⟨normalized, checked, reads⟩ := of_bind_ok reads
  obtain ⟨files, found, reads⟩ := of_bind_ok reads
  obtain ⟨_, -, reads⟩ := of_bind_ok reads
  obtain ⟨_, -, reads⟩ := of_bind_ok reads
  obtain ⟨_, mine, reads⟩ := of_bind_ok reads
  obtain ⟨rfl, -⟩ := validateNonEmpty_ok session
  exact ⟨normalized, files, checked, orRaise_eq_ok.mp found, not_not.mp (raiseIf_eq_ok.mp mine)⟩

theorem accept_of_kept (kept : request.kept lib store = some files) :
    ∃ snapshot cutoff, request.accept lib = .ok (snapshot, cutoff) := by
  unfold WriteRequest.kept at kept
  split at kept
  next => cases kept
  next snapshot cutoff admitted => exact ⟨snapshot, cutoff, admitted⟩

theorem KeepsItsWord.reusesItsOwn {later : List Operation}
    (wrote : Wrote lib store request (cleaned lib store request) (write lib store request))
    (word : KeepsItsWord lib store request later) : request.ReusesItsOwn lib store := by
  intro files kept
  obtain ⟨snapshot, cutoff, admitted⟩ := accept_of_kept kept
  have facts := accept_ok admitted
  rw [Option.mem_def, kept_eq_retained admitted] at kept
  have readable := word.readable
  generalize write lib store request = done at wrote readable
  generalize cleaned lib store request = left at wrote
  cases wrote with
  | refused refusal => cases refusal.symm.trans admitted
  | @reused _ _ record there again found handle session =>
    cases again.symm.trans admitted
    obtain rfl : files = there := Option.some.inj (kept.symm.trans found)
    obtain ⟨back, reads, -⟩ := readable record rfl [] later rfl trivial
    obtain ⟨normalized, stored, checked, held, mine⟩ := read_ok reads
    rw [validateHandle_text] at checked
    cases checked
    rw [run_nil, handle, ← facts.sessionId] at held
    have touched := (Dict.get?_modify _ (snapshotDir snapshot) (snapshotDir snapshot) _).symm.trans held
    rw [if_pos rfl, found] at touched
    cases touched
    exact mine
  | stored again missing =>
    cases again.symm.trans admitted
    cases kept.symm.trans missing
  | overBudget again missing =>
    cases again.symm.trans admitted
    cases kept.symm.trans missing

theorem KeepsItsWord.sparesOthers {later : List Operation}
    (wrote : Wrote lib store request (cleaned lib store request) (write lib store request))
    (word : KeepsItsWord lib store request later) : request.SparesOthers lib store := by
  rintro ⟨snapshot, cutoff⟩ went
  cases admitted : request.accept lib with
  | error raised =>
    rw [admitted] at went
    cases went
  | ok admission =>
    rw [admitted] at went
    obtain rfl : admission = (snapshot, cutoff) := Option.some.inj went
    rw [kept_eq_retained admitted]
    have lossless := word.lossless
    generalize write lib store request = done at wrote lossless
    generalize cleaned lib store request = left at wrote
    cases wrote with
    | refused refusal => cases refusal.symm.trans admitted
    | reused again found =>
      cases again.symm.trans admitted
      rw [found]
      exact Or.inl rfl
    | stored again missing evicted fits =>
      cases again.symm.trans admitted
      refine Or.inr (Or.inl fun budget limit => ?_)
      have room := of_decide_eq_true (fits budget limit)
      exact Nat.le_trans (Nat.le_add_left _ _) room
    | @overBudget _ _ count left _ _ again missing evicted emptied =>
      cases again.symm.trans admitted
      refine Or.inr (Or.inr fun record mem => ?_)
      obtain ⟨dir, here⟩ : ∃ dir, record.recordDir = dir := ⟨_, rfl⟩
      obtain ⟨files, found, rfl⟩ := mem_stats.mp ⟨mem, here⟩
      obtain ⟨other, expiry, same, expired⟩ | stays := lossless _ rfl trivial dir files found
      · cases same.symm.trans admitted
        exact expired
      · have remains := (mem_stats.mpr ⟨files, stays, rfl⟩).1
        rw [evicted.stats.mem_iff, emptied] at remains
        cases remains

theorem wellFormed_empty (lib : Libraries) (known : String → Prop) : WellFormed lib known Dict.empty := by
  intro dir files found
  cases found

def Operation.content? : Operation → Option String
  | .write request => some request.content
  | .read .. => none

def contents (ops : List Operation) : List String := ops.filterMap Operation.content?

theorem mem_contents {ops : List Operation} (mem : Operation.write request ∈ ops) :
    request.content ∈ contents ops :=
  List.mem_filterMap.mpr ⟨.write request, mem, rfl⟩

theorem WellFormed.run {ops : List Operation} (distinct : CollisionFree lib known)
    (asked : ∀ request, Operation.write request ∈ ops → known request.content)
    (wellFormed : WellFormed lib known store) :
    WellFormed lib known (Runs.run (Snapshots.step lib) store ops) := by
  induction ops generalizing store with
  | nil => exact wellFormed
  | cons op rest ih =>
    apply ih
    · intro request mem
      exact asked request (List.mem_cons_of_mem op mem)
    · apply wellFormed.step distinct
      rintro request rfl
      exact asked request List.mem_cons_self

theorem Holds.run {between : List Operation} {sessionId : Text} {content : String}
    (distinct : CollisionFree lib known)
    (asked : ∀ request, Operation.write request ∈ between → known request.content)
    (wellFormed : WellFormed lib known store) (holds : Holds lib store dir sessionId content)
    (spared : Along (Snapshots.step lib) (fun store op => ¬op.Evicts lib store dir) store between) :
    Holds lib (Runs.run (Snapshots.step lib) store between) dir sessionId content := by
  induction between generalizing store with
  | nil => exact holds
  | cons op rest ih =>
    have first : ∀ request, op = .write request → known request.content := by
      rintro request rfl
      exact asked request List.mem_cons_self
    apply ih
    · intro request mem
      exact asked request (List.mem_cons_of_mem op mem)
    · exact wellFormed.step distinct first
    · exact holds.step wellFormed distinct first spared.1
    · exact spared.2

theorem Holds.get?_cleaned {sessionId : Text} {content : String} (holds : Holds lib store dir sessionId content)
    (spared : ¬(Operation.write request).Evicts lib store dir) :
    ∃ files, (cleaned lib store request).get? dir = some files := by
  obtain ⟨files, found, -⟩ := holds
  cases there : (cleaned lib store request).get? dir with
  | none => exact absurd ⟨by rw [found]; rfl, there⟩ spared
  | some kept => exact ⟨kept, rfl⟩

theorem keepsItsWord_of_harmless {later : List Operation} (wellFormed : WellFormed lib known store)
    (distinct : CollisionFree lib known) (asked : known request.content)
    (askedLater : ∀ request, Operation.write request ∈ later → known request.content)
    (own : request.ReusesItsOwn lib store) (spares : request.SparesOthers lib store) :
    KeepsItsWord lib store request later := by
  have wrote := write_wrote wellFormed distinct asked
  have after := wellFormed.write distinct asked
  refine ⟨?_, ?_, ?_, ?_, ?_, ?_, ?_⟩
  · rintro record returned between rest rfl spared
    obtain ⟨-, session, nonblank, holds⟩ := wrote.holds wellFormed distinct asked own returned
    have kept := holds.run distinct
      (fun request mem => askedLater request (List.mem_append_left rest mem)) after spared
    rw [session] at kept
    exact kept.read nonblank
  · rintro record returned between again rest rfl sameContent - repeated second
    have wellFormedThen := after.run distinct
      (fun request mem => askedLater request (List.mem_append_left _ mem))
    have againAsked := askedLater again (List.mem_append_right between List.mem_cons_self)
    have rewrote := write_wrote wellFormedThen distinct againAsked
    rw [(rewrote.handle second).1, (wrote.handle returned).1, sameContent]
  · rintro record returned between again rest rfl sameContent sameSession spared admission
    dsimp only
    obtain ⟨handle, session, -, holds⟩ := wrote.holds wellFormed distinct asked own returned
    have askedBetween : ∀ request, Operation.write request ∈ between → known request.content :=
      fun request mem => askedLater request (List.mem_append_left _ mem)
    obtain ⟨before, ⟨last, -⟩⟩ := (along_append _ between [.write again]).mp spared
    obtain ⟨files, there⟩ := (holds.run distinct askedBetween after before).get?_cleaned last
    have wellFormedThen := after.run distinct askedBetween
    have againAsked := askedLater again (List.mem_append_right between List.mem_cons_self)
    have rewrote := write_wrote wellFormedThen distinct againAsked
    rw [handle, session, ← sameContent, ← sameSession] at there
    exact rewrote.reusesStored admission there
  · intro record returned free budget limit
    exact wrote.withinBudget returned free limit
  · intro snapshot cutoff admitted
    exact wrote.deletesOldest admitted
  · intro dir files found
    exact wrote.leaves found
  · intro raised failed _ dir files found
    exact wrote.lossless spares failed dir files found

theorem along_iff_split {allowed : ToolResultStore → Operation → Prop} {ops : List Operation} :
    Along (Snapshots.step lib) allowed store ops ↔
      ∀ before op later, ops = before ++ op :: later →
        allowed (run (Snapshots.step lib) store before) op := by
  constructor
  · rintro along before op later rfl
    exact ((along_append store before (op :: later)).mp along).2.1
  · intro each
    induction ops generalizing store with
    | nil => trivial
    | cons op rest ih =>
      refine ⟨each [] op rest rfl, ih ?_⟩
      rintro before other later rfl
      exact each (op :: before) other later rfl

theorem collisionFree_of_contents {ops : List Operation}
    (distinct : ∀ first ∈ contents ops, ∀ second ∈ contents ops,
      primaryHandle lib first = primaryHandle lib second → first = second) :
    CollisionFree lib (· ∈ contents ops) := by
  intro first second one two
  exact distinct first one second two

section Run

variable {ops before later : List Operation}

theorem wellFormed_before (distinct : CollisionFree lib (· ∈ contents ops))
    (here : ops = before ++ .write request :: later) :
    WellFormed lib (· ∈ contents ops) (run (step lib) Dict.empty before) := by
  apply (wellFormed_empty lib _).run distinct
  intro other mem
  rw [here]
  exact mem_contents (List.mem_append_left _ mem)

theorem along_of_kept (distinct : CollisionFree lib (· ∈ contents ops))
    (word : ∀ before request later, ops = before ++ .write request :: later →
      KeepsItsWord lib (run (step lib) Dict.empty before) request later) :
    Along (step lib) (Operation.Harmless lib) Dict.empty ops := by
  apply along_iff_split.mpr
  intro before op later here
  cases op with
  | read => trivial
  | write request =>
    have asked : request.content ∈ contents ops := by
      rw [here]
      exact mem_contents (List.mem_append_right before List.mem_cons_self)
    have wrote := write_wrote (wellFormed_before distinct here) distinct asked
    have kept := word before request later here
    exact ⟨kept.reusesItsOwn wrote, kept.sparesOthers wrote⟩

theorem kept_of_along (distinct : CollisionFree lib (· ∈ contents ops))
    (harmless : Along (step lib) (Operation.Harmless lib) Dict.empty ops)
    (here : ops = before ++ .write request :: later) :
    KeepsItsWord lib (run (step lib) Dict.empty before) request later := by
  obtain ⟨own, spares⟩ := along_iff_split.mp harmless before (.write request) later here
  apply keepsItsWord_of_harmless (wellFormed_before distinct here) distinct
  · rw [here]
    exact mem_contents (List.mem_append_right before List.mem_cons_self)
  · intro other mem
    rw [here]
    exact mem_contents (List.mem_append_right before (List.mem_cons_of_mem _ mem))
  · exact own
  · exact spares

end Run

/-- Every write of a run keeps its word exactly when none reuses the record of another
session and none gives up unexpired records without fitting afterwards. -/
theorem snapshots_kept_iff (lib : Libraries) (ops : List Operation)
    (distinct : CollisionFree lib (· ∈ contents ops)) :
    (∀ before request later, ops = before ++ .write request :: later →
        KeepsItsWord lib (run (step lib) Dict.empty before) request later) ↔
      Along (step lib) (Operation.Harmless lib) Dict.empty ops :=
  ⟨along_of_kept distinct, fun harmless _ _ _ => kept_of_along distinct harmless⟩

def digestOf (text : String) (hex : text.toList.length = 64 ∧
    ∀ c ∈ text.toList, isHexDigit c = true) : HexDigest := ⟨text.toList, hex.1, hex.2⟩

def marked (payload : ByteArray) : ByteArray := ⟨(0 :: payload.data.toList).toArray⟩

def unmarked (stored : ByteArray) : ByteArray := ⟨stored.data.toList.tail.toArray⟩

theorem unmarked_marked (payload : ByteArray) : unmarked (marked payload) = payload := by
  simp [unmarked, marked]

theorem marked_nonempty (payload : ByteArray) : 0 < (marked payload).size := by
  rw [marked, ByteArray.size, List.size_toArray, List.length_cons]
  exact Nat.succ_pos _

/-- The digests of the two contents below, which are small enough not to be compressed. -/
def smallContents : Libraries where
  hexdigest payload :=
    if payload = "x".toUTF8 then
      digestOf "2d711642b726b04401627ca9fbac32f5c8530fb1903cc4db02258717921a4881"
        (by decide)
    else
      digestOf "ef90d9c1ec76b1edc9edfaf2c0c05359c10ccc49ae8ecf7b7fd25ce9c02e86a4"
        (by decide)
  compress _ payload := marked payload
  decompress stored := some (unmarked stored)
  decompress_compress _ payload := congrArg some (unmarked_marked payload)
  compress_nonempty _ payload := marked_nonempty payload

def scanInOrder : ScanOrder := ⟨id, fun _ => List.Perm.refl _⟩

def smallWrite (content sessionId : String) (diskBudgetBytes : Option Int) : WriteRequest where
  content := content
  toolUseId := "call-1".toList
  toolName := "exec".toList
  sessionId := sessionId.toList
  sessionKey := "agent:main:web".toList
  agentId := "main".toList
  maxBytes := some 8388608
  diskBudgetBytes := diskBudgetBytes
  retentionSeconds := some 604800
  compressedAt := 0
  expiryClock := 0
  createdAt := 0
  touchedAt := 0
  storedAt := 0
  scanOrder := scanInOrder
  randomHandles _ := primaryHandle smallContents "x"

def evictingRun : List Operation :=
  [.write (smallWrite "x" "a/b" none), .write (smallWrite "yy" "a/b" (some 2)),
    .write (smallWrite "yy" "a/b" (some 2))]

def KeepsEveryWord (libraries : Libraries) (ops : List Operation) : Prop :=
  ∀ before request later, ops = before ++ .write request :: later →
    KeepsItsWord libraries (run (step libraries) Dict.empty before) request later

theorem snapshots_kept_evicting : KeepsEveryWord smallContents evictingRun :=
  (snapshots_kept_iff smallContents evictingRun (collisionFree_of_contents (by decide))).mpr
    (by decide)

def sharedTokenRun : List Operation :=
  [.write (smallWrite "x" "a/b" none), .write (smallWrite "x" "a-b" none)]

/-- Two bytes do not fit a budget of one, but the byte stored before is deleted for them. -/
def hopelessRun : List Operation :=
  [.write (smallWrite "x" "a/b" none), .write (smallWrite "yy" "a/b" (some 1))]

theorem snapshot_of_other_session_reused :
    (CollisionFree smallContents (· ∈ contents sharedTokenRun) ∧ ¬KeepsEveryWord smallContents sharedTokenRun) ∧
      CollisionFree smallContents (· ∈ contents hopelessRun) ∧ ¬KeepsEveryWord smallContents hopelessRun := by
  have distinct : ∀ ops ∈ [sharedTokenRun, hopelessRun],
      ∀ first ∈ contents ops, ∀ second ∈ contents ops,
        primaryHandle smallContents first = primaryHandle smallContents second → first = second := by
    decide
  have harmful : ∀ ops ∈ [sharedTokenRun, hopelessRun],
      ¬Along (step smallContents) (Operation.Harmless smallContents) Dict.empty ops := by
    decide
  have each : ∀ ops ∈ [sharedTokenRun, hopelessRun], CollisionFree smallContents (· ∈ contents ops) ∧
      ¬KeepsEveryWord smallContents ops := by
    intro ops mem
    have collisionFree := collisionFree_of_contents (distinct ops mem)
    exact ⟨collisionFree, fun word => harmful ops mem (along_of_kept collisionFree word)⟩
  exact ⟨each _ (List.mem_cons_self ..), each _ (List.mem_cons_of_mem _ (List.mem_singleton_self _))⟩

end OpenSquilla.Snapshots
