import OpenSquilla.Sandbox.Permissions

set_option autoImplicit false

-- The effective rules are the last declarations of their spellings. Only which they are counts,
-- and a denial that is declared last takes no access away from the denials before it.

namespace OpenSquilla.Sandbox

open TextLines DeepestRule

namespace FileSystem

variable {fs : FileSystem} {entry : FileSystemPermissionEntry}

@[simp] theorem normalizedEntry_path : (fs.normalizedEntry entry).path = fs.logicalAbsolutePath entry.path := rfl

@[simp] theorem normalizedEntry_access : (fs.normalizedEntry entry).access = entry.access := rfl

@[simp] theorem normalizedEntry_lexicalPath :
    (fs.normalizedEntry entry).lexicalPath = fs.logicalAbsolutePath entry.lexicalPath := by
  unfold normalizedEntry FileSystemPermissionEntry.lexicalPath
  cases entry.logicalPath with
  | none => simp
  | some logical => simp

theorem foldl_deduplicate_subset (unique rest : List PurePath) :
    ∀ path ∈ unique, path ∈ rest.foldl (fun unique path =>
      if fs.canonicalKey path ∈ unique.map fs.canonicalKey then unique else unique ++ [path]) unique := by
  induction rest generalizing unique with
  | nil => exact fun _ inside => inside
  | cons first rest ih =>
    intro path inside
    rw [List.foldl_cons]
    apply ih
    split
    · exact inside
    · exact List.mem_append_left _ inside

theorem mem_deduplicatePaths_cons (first : PurePath) (rest : List PurePath) :
    first ∈ fs.deduplicatePaths (first :: rest) :=
  foldl_deduplicate_subset [first] rest first List.mem_cons_self

theorem pathVariants_ne_nil (path : PurePath) : fs.pathVariants path ≠ [] :=
  List.ne_nil_of_mem (mem_deduplicatePaths_cons _ _)

end FileSystem

namespace FileSystemPermissionProfile

variable {fs : FileSystem} {profile : FileSystemPermissionProfile} {entry added : FileSystemPermissionEntry}

structure Declarations.Sound (fs : FileSystem) (declared : Declarations) : Prop where
  identified : ∀ id value, declared.finalByIdentity.get? id = some value → id = fs.identity value.2 ∧
    declared.identityBySpelling.get? (fs.spelling value.2) = some id
  spelled : ∀ spelling id, declared.identityBySpelling.get? spelling = some id → (id.1, id.2.1) = spelling

theorem Declarations.declare_final (declared : Declarations) (entry : FileSystemPermissionEntry)
    (id : Identity) : (declared.declare fs entry).finalByIdentity.get? id =
      if id = fs.identity (fs.normalizedEntry entry) then some (declared.count, fs.normalizedEntry entry)
      else if declared.identityBySpelling.get? (fs.spelling (fs.normalizedEntry entry)) = some id then none
      else declared.finalByIdentity.get? id := by
  simp only [declare, Dict.get?_set]
  split
  · rfl
  · cases prior : declared.identityBySpelling.get? (fs.spelling (fs.normalizedEntry entry)) with
    | none => simp
    | some prior => simp [Dict.get?_erase, eq_comm]

theorem Declarations.Sound.declare {declared : Declarations} (sound : declared.Sound fs)
    (entry : FileSystemPermissionEntry) : (declared.declare fs entry).Sound fs := by
  constructor
  · intro id value found
    rw [declare_final] at found
    simp only [Declarations.declare, Dict.get?_set]
    split at found
    next own =>
      cases found
      exact ⟨own, by rw [if_pos rfl, own]⟩
    next =>
      split at found
      next => cases found
      next unpopped =>
        obtain ⟨identified, spelled⟩ := sound.identified id value found
        refine ⟨identified, ?_⟩
        by_cases same : fs.spelling value.2 = fs.spelling (fs.normalizedEntry entry)
        · exact absurd (same ▸ spelled) unpopped
        · rw [if_neg same, spelled]
  · intro spelling id found
    simp only [Declarations.declare, Dict.get?_set] at found
    split at found
    next own =>
      cases found
      exact own.symm
    next => exact sound.spelled spelling id found

theorem declared_sound (entries : List FileSystemPermissionEntry) :
    (entries.foldl (Declarations.declare fs) {}).Sound fs := by
  induction entries using List.reverseRecOn with
  | nil =>
    constructor
    · intro id value found
      cases found
    · intro spelling id found
      cases found
  | append_singleton before entry ih =>
    rw [List.foldl_append, List.foldl_cons, List.foldl_nil]
    exact ih.declare entry

theorem mem_effectiveEntries : entry ∈ profile.effectiveEntries fs ↔ ∃ id count,
      (profile.entries.foldl (Declarations.declare fs) {}).finalByIdentity.get? id = some (count, entry) := by
  simp only [effectiveEntries, List.mem_map, List.mem_insertionSort, Dict.values, Dict.get?_eq_some_iff]
  constructor
  · rintro ⟨-, ⟨⟨id, count, entry⟩, stored, rfl⟩, rfl⟩
    exact ⟨id, count, stored⟩
  · rintro ⟨id, count, stored⟩
    exact ⟨_, ⟨_, stored, rfl⟩, rfl⟩

variable (profile) in
theorem mem_effectiveEntries_concat (entries : List FileSystemPermissionEntry)
    (last : FileSystemPermissionEntry) :
    entry ∈ { profile with entries := entries ++ [last] }.effectiveEntries fs ↔ entry = fs.normalizedEntry last ∨
      (entry ∈ { profile with entries := entries }.effectiveEntries fs ∧
        fs.spelling entry ≠ fs.spelling (fs.normalizedEntry last)) := by
  simp only [mem_effectiveEntries, List.foldl_append, List.foldl_cons, List.foldl_nil]
  have sound : (entries.foldl (Declarations.declare fs) {}).Sound fs := declared_sound entries
  generalize entries.foldl (Declarations.declare fs) {} = declared at sound ⊢
  simp only [Declarations.declare_final]
  constructor
  · rintro ⟨id, count, found⟩
    split at found
    next =>
      cases found
      exact .inl rfl
    next =>
      split at found
      next => cases found
      next unpopped =>
        refine .inr ⟨⟨id, count, found⟩, ?_⟩
        intro same
        exact unpopped (same ▸ (sound.identified id _ found).2)
  · rintro (rfl | ⟨⟨id, count, found⟩, other⟩)
    · exact ⟨_, _, if_pos rfl⟩
    · obtain ⟨rfl, spelled⟩ := sound.identified id _ found
      have fresh : fs.identity entry ≠ fs.identity (fs.normalizedEntry last) := by
        intro same
        exact other (congrArg (fun id : Identity => (id.1, id.2.1)) same)
      refine ⟨fs.identity entry, count, ?_⟩
      rw [if_neg fresh, if_neg, found]
      intro popped
      exact other (sound.spelled _ _ popped)

variable (profile) in
theorem effectiveEntries_nil : { profile with entries := [] }.effectiveEntries fs = [] := by
  simp [effectiveEntries, Dict.values, Dict.empty]

variable (profile) in
theorem mem_effectiveEntries_of_distinct {entries : List FileSystemPermissionEntry}
    (distinct : (entries.map (fun entry => fs.spelling (fs.normalizedEntry entry))).Nodup) :
    entry ∈ { profile with entries := entries }.effectiveEntries fs ↔ ∃ raw ∈ entries,
      entry = fs.normalizedEntry raw := by
  induction entries using List.reverseRecOn with
  | nil => simp [effectiveEntries_nil]
  | append_singleton before last ih =>
    rw [List.map_append, List.map_singleton, List.nodup_append] at distinct
    rw [mem_effectiveEntries_concat, ih distinct.1]
    simp only [List.mem_append, List.mem_singleton, or_and_right, exists_or, exists_eq_left]
    constructor
    · rintro (rfl | ⟨declared, -⟩)
      · exact .inr rfl
      · exact .inl declared
    · rintro (⟨raw, inside, rfl⟩ | rfl)
      · refine .inr ⟨⟨raw, inside, rfl⟩, ?_⟩
        exact distinct.2.2 _ (List.mem_map_of_mem inside) _ (List.mem_singleton_self _)
      · exact .inl rfl

theorem exists_raw (inside : entry ∈ profile.effectiveEntries fs) :
    ∃ raw ∈ profile.entries, entry = fs.normalizedEntry raw := by
  revert inside
  obtain ⟨entries, globs, access⟩ := profile
  induction entries using List.reverseRecOn with
  | nil =>
    intro inside
    rw [effectiveEntries_nil ⟨[], globs, access⟩] at inside
    cases inside
  | append_singleton before last ih =>
    intro inside
    rcases (mem_effectiveEntries_concat ⟨before, globs, access⟩ before last).1 inside with rfl | ⟨earlier, -⟩
    · exact ⟨last, List.mem_append_right _ (List.mem_singleton_self _), rfl⟩
    · obtain ⟨raw, declared, same⟩ := ih earlier
      exact ⟨raw, List.mem_append_left _ declared, same⟩

variable {candidate path : PurePath} {rule : Nat × FileSystemAccess} {access : FileSystemAccess}

theorem mem_coveringRules : rule ∈ profile.coveringRules fs candidate ↔
    ∃ entry ∈ profile.effectiveEntries fs, ∃ root ∈ fs.entryPathVariants entry,
      fs.isRelativeTo candidate root = true ∧ (root.parts.length, entry.access) = rule := by
  simp only [coveringRules, List.mem_flatMap, List.mem_map, List.mem_filter, and_assoc]

theorem resolve_le_iff : profile.resolve fs path ≤ access ↔
    profile.matchesDeniedGlob fs (fs.pathVariants path) = true ∨
      ∃ candidate ∈ fs.pathVariants path, (profile.winningRule fs candidate).1 ≤ access := by
  unfold resolve
  dsimp only
  split
  next denied => simp [denied, FileSystemAccess.deny_le]
  next allowed =>
    rw [least_le_iff (by simpa using FileSystem.pathVariants_ne_nil path)]
    simp [allowed]

/-- The access that the deepest effective rules covering a spelling decide on, the most restrictive of them. -/
def Decides (fs : FileSystem) (profile : FileSystemPermissionProfile) (candidate : PurePath)
    (access : FileSystemAccess) : Prop :=
  (profile.coveringRules fs candidate = [] ∧ access = profile.defaultAccess) ∨
    ∃ rule, Deepest (profile.coveringRules fs candidate) rule ∧ rule.2 = access ∧
      ∀ other, Deepest (profile.coveringRules fs candidate) other → access ≤ other.2

theorem decides_iff : Decides fs profile candidate access ↔ (profile.winningRule fs candidate).1 = access :=
  winner_eq_iff.symm

theorem resolve_eq_iff : profile.resolve fs path = access ↔
    if profile.matchesDeniedGlob fs (fs.pathVariants path) then access = .deny
    else (∃ candidate ∈ fs.pathVariants path, Decides fs profile candidate access) ∧
      ∀ candidate ∈ fs.pathVariants path, ∀ other, Decides fs profile candidate other → access ≤ other := by
  split
  next denied =>
    rw [resolve]
    simp only [denied, if_true]
    exact eq_comm
  next allowed =>
    have lowest : ∀ candidate ∈ fs.pathVariants path,
        profile.resolve fs path ≤ (profile.winningRule fs candidate).1 :=
      fun candidate inside => resolve_le_iff.2 (.inr ⟨candidate, inside, le_rfl⟩)
    have reached : ∃ candidate ∈ fs.pathVariants path,
        (profile.winningRule fs candidate).1 ≤ profile.resolve fs path :=
      (resolve_le_iff.1 le_rfl).resolve_left allowed
    simp only [decides_iff]
    constructor
    · rintro rfl
      refine ⟨?_, fun candidate inside other own => own ▸ lowest candidate inside⟩
      obtain ⟨candidate, inside, below⟩ := reached
      exact ⟨candidate, inside, le_antisymm below (lowest candidate inside)⟩
    · rintro ⟨⟨candidate, inside, rfl⟩, smallest⟩
      apply le_antisymm (lowest candidate inside)
      obtain ⟨other, among, below⟩ := reached
      exact (smallest other among _ rfl).trans below

theorem resolve_perm {entries : List FileSystemPermissionEntry} (perm : entries.Perm profile.entries)
    (distinct : (profile.entries.map (fun entry => fs.spelling (fs.normalizedEntry entry))).Nodup) :
    { profile with entries := entries }.resolve fs path = profile.resolve fs path := by
  have effective : ∀ entry, entry ∈ { profile with entries := entries }.effectiveEntries fs ↔
      entry ∈ profile.effectiveEntries fs := by
    intro entry
    rw [mem_effectiveEntries_of_distinct profile ((perm.map _).nodup_iff.2 distinct),
      mem_effectiveEntries_of_distinct profile distinct]
    simp only [perm.mem_iff]
  have covering : ∀ candidate rule, rule ∈ { profile with entries := entries }.coveringRules fs candidate ↔
      rule ∈ profile.coveringRules fs candidate := by
    intro candidate rule
    simp only [mem_coveringRules, effective]
  have winners : ∀ candidate, ({ profile with entries := entries }.winningRule fs candidate).1 =
      (profile.winningRule fs candidate).1 := fun candidate => winner_congr (covering candidate)
  unfold resolve
  simp only [winners]
  rfl

theorem entryPathVariants_of_ne_write (other : entry.access ≠ .write) :
    fs.entryPathVariants entry = fs.deduplicatePaths
      [fs.logicalAbsolutePath entry.lexicalPath, fs.logicalAbsolutePath entry.path,
        fs.canonical (fs.logicalAbsolutePath entry.lexicalPath),
          fs.canonical (fs.logicalAbsolutePath entry.path)] := by
  have kept : (fs.normalizedEntry entry).access ≠ .write := other
  simp only [FileSystem.entryPathVariants, if_neg kept, FileSystem.currentPathVariants,
    FileSystem.normalizedEntry_lexicalPath, FileSystem.normalizedEntry_path]

/-- Where the entry has the spelling of the other one, it is given by the same paths. -/
def Repeats (fs : FileSystem) (added entry : FileSystemPermissionEntry) : Prop :=
  fs.spelling (fs.normalizedEntry entry) = fs.spelling (fs.normalizedEntry added) →
    (fs.normalizedEntry entry).lexicalPath = (fs.normalizedEntry added).lexicalPath ∧
      (fs.normalizedEntry entry).path = (fs.normalizedEntry added).path

instance : Decidable (Repeats fs added entry) := inferInstanceAs (Decidable (_ → _))

theorem resolve_le_of_winners {other : FileSystemPermissionProfile}
    (globs : ∀ candidates, profile.matchesDeniedGlob fs candidates = true →
      other.matchesDeniedGlob fs candidates = true)
    (winners : ∀ candidate, (other.winningRule fs candidate).1 ≤ (profile.winningRule fs candidate).1) :
    other.resolve fs path ≤ profile.resolve fs path := by
  rw [resolve_le_iff]
  rcases resolve_le_iff.1 (le_refl (profile.resolve fs path)) with denied | ⟨candidate, inside, below⟩
  · exact .inl (globs _ denied)
  · exact .inr ⟨candidate, inside, (winners candidate).trans below⟩

theorem resolve_deny_le (denied : added.access = .deny)
    (repeats : ∀ entry ∈ profile.entries, entry.access ≠ .write → Repeats fs added entry) :
    { profile with entries := profile.entries ++ [added] }.resolve fs path ≤ profile.resolve fs path := by
  refine resolve_le_of_winners (fun _ matching => matching) ?_
  intro candidate
  apply winner_le_of_least FileSystemAccess.deny_le
  · intro rule covers
    obtain ⟨entry, effective, root, variant, covered, rfl⟩ := mem_coveringRules.1 covers
    rcases (mem_effectiveEntries_concat profile profile.entries added).1 effective with rfl | ⟨before, -⟩
    · exact .inr denied
    · exact .inl (mem_coveringRules.2 ⟨entry, before, root, variant, covered, rfl⟩)
  · intro rule covers
    obtain ⟨entry, effective, root, variant, covered, rfl⟩ := mem_coveringRules.1 covers
    by_cases same : fs.spelling entry = fs.spelling (fs.normalizedEntry added)
    · obtain ⟨raw, declared, rfl⟩ := exists_raw effective
      by_cases writes : raw.access = .write
      · exact .inr (.inr (fun access => writes.symm ▸ access.le_write))
      · -- the denial covers what the replaced rule does
        obtain ⟨lexical, frozen⟩ := repeats raw declared writes same
        have kept : (fs.normalizedEntry raw).access ≠ .write := writes
        have denial : (fs.normalizedEntry added).access ≠ .write := by
          rw [FileSystem.normalizedEntry_access, denied]
          decide
        rw [entryPathVariants_of_ne_write kept, lexical, frozen,
            ← entryPathVariants_of_ne_write denial] at variant
        refine .inr (.inl (mem_coveringRules.2 ⟨fs.normalizedEntry added, ?_, root, variant, covered, ?_⟩))
        · exact (mem_effectiveEntries_concat profile profile.entries added).2 (.inl rfl)
        · rw [FileSystem.normalizedEntry_access, denied]
    · refine .inl (mem_coveringRules.2 ⟨entry, ?_, root, variant, covered, rfl⟩)
      exact (mem_effectiveEntries_concat profile profile.entries added).2 (.inr ⟨effective, same⟩)

theorem resolve_glob_le (glob : Text) :
    { profile with deniedReadGlobs := profile.deniedReadGlobs ++ [glob] }.resolve fs path ≤
      profile.resolve fs path := by
  apply resolve_le_of_winners
  · intro candidates matching
    simp only [matchesDeniedGlob, List.any_eq_true, List.any_append, Bool.or_eq_true] at matching ⊢
    obtain ⟨candidate, inside, pattern⟩ := matching
    exact ⟨candidate, inside, .inl pattern⟩
  · exact fun candidate => le_rfl

/-- The most specific rules decide and the most restrictive spelling counts; the order of declarations of
different spellings does not matter; and no further denial raises an access, as long as it repeats no
spelling of a rule other than a write one under other paths. -/
theorem resolve_most_specific (fs : FileSystem) (profile : FileSystemPermissionProfile) :
    (∀ path access, profile.resolve fs path = access ↔
      if profile.matchesDeniedGlob fs (fs.pathVariants path) then access = .deny
      else (∃ candidate ∈ fs.pathVariants path, Decides fs profile candidate access) ∧
        ∀ candidate ∈ fs.pathVariants path, ∀ other, Decides fs profile candidate other → access ≤ other) ∧
    (∀ entries : List FileSystemPermissionEntry, entries.Perm profile.entries →
      (profile.entries.map (fun entry => fs.spelling (fs.normalizedEntry entry))).Nodup →
      ∀ path, { profile with entries := entries }.resolve fs path = profile.resolve fs path) ∧
    (∀ added : FileSystemPermissionEntry, added.access = .deny →
      (∀ entry ∈ profile.entries, entry.access ≠ .write → Repeats fs added entry) →
      ∀ path, { profile with entries := profile.entries ++ [added] }.resolve fs path ≤ profile.resolve fs path) ∧
    ∀ glob path,
      { profile with deniedReadGlobs := profile.deniedReadGlobs ++ [glob] }.resolve fs path ≤
        profile.resolve fs path :=
  ⟨fun _ _ => resolve_eq_iff, fun _ perm distinct _ => resolve_perm perm distinct,
    fun _ denied repeats _ => resolve_deny_le denied repeats, fun glob _ => resolve_glob_le glob⟩

-- A host on which `/ws/link` is a symbolic link to `/ws/target`.
def linkedHost : FileSystem where
  host := .posix
  lower := id
  casefold := id
  absolute := id
  resolved path :=
    if path.tail = ["ws".toList, "link".toList] then
        { path with tail := ["ws".toList, "target".toList] } else path
  expandUser := id
  parse flavour text := { flavour := flavour, concrete := false, root := [], tail := [text] }

def workspaceRule : FileSystemPermissionEntry where
  path := { tail := ["ws".toList] }
  access := .write

def linkDenial (concrete : Bool) : FileSystemPermissionEntry where
  path := { concrete := concrete, tail := ["ws".toList, "link".toList] }
  access := .deny

theorem resolve_most_specific_link : { entries := [workspaceRule, linkDenial true] ++
      [linkDenial true] : FileSystemPermissionProfile }.resolve linkedHost
        { tail := ["ws".toList, "target".toList] } ≤
      { entries := [workspaceRule, linkDenial true] : FileSystemPermissionProfile }.resolve linkedHost
        { tail := ["ws".toList, "target".toList] } := by
  refine (resolve_most_specific linkedHost { entries := [workspaceRule, linkDenial true] }).2.2.1 _ rfl ?_ _
  decide

-- the pure path has the spelling of the concrete one, but follows no link
theorem deny_repeated_raises : (linkDenial false).access = .deny ∧
      { entries := [workspaceRule, linkDenial true] : FileSystemPermissionProfile }.resolve linkedHost
        { tail := ["ws".toList, "target".toList] } = .deny ∧
      { entries := [workspaceRule, linkDenial true] ++
        [linkDenial false] : FileSystemPermissionProfile }.resolve linkedHost
        { tail := ["ws".toList, "target".toList] } = .write := by
  decide

end FileSystemPermissionProfile

end OpenSquilla.Sandbox
