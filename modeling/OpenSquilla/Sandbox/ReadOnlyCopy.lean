import OpenSquilla.Sandbox.Resolution

set_option autoImplicit false

-- A write rule covers only what its frozen path still names. Its copy is a read rule, which covers
-- the current targets too, and may be deeper there than a denial is.

namespace OpenSquilla.Sandbox

open TextLines DeepestRule

def FileSystemPermissionEntry.downgraded (entry : FileSystemPermissionEntry) : FileSystemPermissionEntry :=
  { entry with access := if entry.access = .deny then .deny else .read }

theorem FileSystemPermissionEntry.downgraded_access (entry : FileSystemPermissionEntry) :
    entry.downgraded.access = if entry.access = .deny then .deny else .read := rfl

namespace FileSystemPermissionProfile

variable {fs : FileSystem} {profile : FileSystemPermissionProfile} {entry : FileSystemPermissionEntry}
  {candidate path : PurePath}

def rootsOf (fs : FileSystem) (profile : FileSystemPermissionProfile) (access : FileSystemAccess) :
    List PurePath :=
  ((profile.effectiveEntries fs).filter (·.access = access)).flatMap fs.entryPathVariants

-- The spellings that the write rules have once they are read rules.
def copiedWriteRoots (fs : FileSystem) (profile : FileSystemPermissionProfile) : List PurePath :=
  ((profile.effectiveEntries fs).filter (·.access = .write)).flatMap
    (fun entry => fs.currentPathVariants (fs.normalizedEntry entry))

/-- A denial covers the candidate as deeply as any other root does, or the default denies it and no root
covers it. -/
def Denied (fs : FileSystem) (profile : FileSystemPermissionProfile) (writeRoots : List PurePath)
    (candidate : PurePath) : Prop :=
  (∃ root ∈ profile.rootsOf fs .deny, fs.isRelativeTo candidate root = true ∧
    ∀ other ∈ profile.rootsOf fs .deny ++ (profile.rootsOf fs .read ++ writeRoots),
      fs.isRelativeTo candidate other = true → other.parts.length ≤ root.parts.length) ∨
  (profile.defaultAccess = .deny ∧
    ∀ other ∈ profile.rootsOf fs .deny ++ (profile.rootsOf fs .read ++ writeRoots),
      fs.isRelativeTo candidate other = false)

theorem mem_rootsOf {access : FileSystemAccess} {root : PurePath} : root ∈ profile.rootsOf fs access ↔
    ∃ entry ∈ profile.effectiveEntries fs, entry.access = access ∧ root ∈ fs.entryPathVariants entry := by
  simp only [rootsOf, List.mem_flatMap, List.mem_filter, decide_eq_true_eq, and_assoc]

theorem mem_copiedWriteRoots {root : PurePath} : root ∈ profile.copiedWriteRoots fs ↔
    ∃ entry ∈ profile.effectiveEntries fs, entry.access = .write ∧
      root ∈ fs.currentPathVariants (fs.normalizedEntry entry) := by
  simp only [copiedWriteRoots, List.mem_flatMap, List.mem_filter, decide_eq_true_eq, and_assoc]

theorem winner_deny_iff {found : List (Nat × FileSystemAccess)} {otherwise : FileSystemAccess}
    {denied others : List PurePath} (sources : ∀ rule ∈ found,
      (∃ root ∈ denied, fs.isRelativeTo candidate root = true ∧ rule = (root.parts.length, .deny)) ∨
      ∃ root ∈ others, fs.isRelativeTo candidate root = true ∧ rule.1 = root.parts.length ∧ rule.2 ≠ .deny)
    (denials : ∀ root ∈ denied, fs.isRelativeTo candidate root = true → (root.parts.length, .deny) ∈ found)
    (grants : ∀ root ∈ others, fs.isRelativeTo candidate root = true → ∃ rule ∈ found,
      rule.1 = root.parts.length) :
    winner otherwise found ≤ .deny ↔
      (∃ root ∈ denied, fs.isRelativeTo candidate root = true ∧ ∀ other ∈ denied ++ others,
        fs.isRelativeTo candidate other = true → other.parts.length ≤ root.parts.length) ∨
      (otherwise = .deny ∧ ∀ other ∈ denied ++ others, fs.isRelativeTo candidate other = false) := by
  have reaches : ∀ other ∈ denied ++ others, fs.isRelativeTo candidate other = true →
      ∃ rule ∈ found, rule.1 = other.parts.length := by
    intro other inside covered
    rcases List.mem_append.1 inside with denial | grant
    · exact ⟨_, denials other denial covered, rfl⟩
    · exact grants other grant covered
  have among : ∀ rule ∈ found, ∃ root ∈ denied ++ others, fs.isRelativeTo candidate root = true ∧
      rule.1 = root.parts.length := by
    intro rule mem
    rcases sources rule mem with ⟨root, inside, covered, rfl⟩ | ⟨root, inside, covered, depth, -⟩
    · exact ⟨root, List.mem_append_left _ inside, covered, rfl⟩
    · exact ⟨root, List.mem_append_right _ inside, covered, depth⟩
  simp only [winner_le_iff, FileSystemAccess.le_deny_iff]
  rw [or_comm]
  apply or_congr
  · constructor
    · rintro ⟨rule, ⟨mem, deepest⟩, denies⟩
      rcases sources rule mem with ⟨root, inside, covered, rfl⟩ | ⟨root, -, -, -, allows⟩
      · refine ⟨root, inside, covered, fun other there reached => ?_⟩
        obtain ⟨rival, found, depth⟩ := reaches other there reached
        exact depth ▸ deepest rival found
      · exact absurd denies allows
    · rintro ⟨root, inside, covered, deepest⟩
      refine ⟨(root.parts.length, .deny), ⟨denials root inside covered, ?_⟩, rfl⟩
      intro rival mem
      obtain ⟨other, there, reached, depth⟩ := among rival mem
      exact depth ▸ deepest other there reached
  · constructor
    · rintro ⟨rfl, denies⟩
      refine ⟨denies, fun other there => ?_⟩
      rw [← Bool.not_eq_true]
      intro reached
      obtain ⟨rival, mem, -⟩ := reaches other there reached
      cases mem
    · rintro ⟨denies, uncovered⟩
      refine ⟨List.eq_nil_iff_forall_not_mem.2 (fun rule mem => ?_), denies⟩
      obtain ⟨root, inside, covered, -⟩ := among rule mem
      rw [uncovered root inside] at covered
      cases covered

theorem winningRule_deny_iff :
    (profile.winningRule fs candidate).1 ≤ .deny ↔ Denied fs profile (profile.rootsOf fs .write) candidate := by
  apply winner_deny_iff
  · intro rule found
    obtain ⟨entry, effective, root, variant, covered, rfl⟩ := mem_coveringRules.1 found
    cases access : entry.access with
    | deny => exact .inl ⟨root, mem_rootsOf.2 ⟨entry, effective, access, variant⟩, covered, rfl⟩
    | read =>
      exact .inr ⟨root, List.mem_append_left _ (mem_rootsOf.2 ⟨entry, effective, access, variant⟩), covered, rfl,
        by rintro ⟨⟩⟩
    | write =>
      exact .inr ⟨root, List.mem_append_right _ (mem_rootsOf.2 ⟨entry, effective, access, variant⟩),
          covered, rfl,
        by rintro ⟨⟩⟩
  · intro root inside covered
    obtain ⟨entry, effective, access, variant⟩ := mem_rootsOf.1 inside
    exact mem_coveringRules.2 ⟨entry, effective, root, variant, covered, by rw [access]⟩
  · intro root inside covered
    have rule : ∃ access, root ∈ profile.rootsOf fs access :=
      (List.mem_append.1 inside).elim (fun read => ⟨_, read⟩) (fun write => ⟨_, write⟩)
    obtain ⟨access, listed⟩ := rule
    obtain ⟨entry, effective, -, variant⟩ := mem_rootsOf.1 listed
    exact ⟨_, mem_coveringRules.2 ⟨entry, effective, root, variant, covered, rfl⟩, rfl⟩

theorem asReadOnly_defaultAccess : profile.asReadOnly.defaultAccess =
    if profile.defaultAccess = .write then .read else profile.defaultAccess := rfl

theorem normalizedEntry_downgraded :
    fs.normalizedEntry entry.downgraded = (fs.normalizedEntry entry).downgraded := rfl

theorem spelling_downgraded : fs.spelling entry.downgraded = fs.spelling entry := rfl

theorem mem_effectiveEntries_asReadOnly : entry ∈ profile.asReadOnly.effectiveEntries fs ↔
    ∃ original ∈ profile.effectiveEntries fs, entry = original.downgraded := by
  obtain ⟨entries, globs, access⟩ := profile
  induction entries using List.reverseRecOn generalizing entry with
  | nil =>
    have none : effectiveEntries fs ⟨[], globs, access⟩ = [] := effectiveEntries_nil ⟨[], globs, access⟩
    have copied : effectiveEntries fs (asReadOnly ⟨[], globs, access⟩) = [] :=
      effectiveEntries_nil (asReadOnly ⟨[], globs, access⟩)
    simp only [none, List.not_mem_nil, false_and, exists_false, iff_false]
    exact fun inside => List.not_mem_nil (copied ▸ inside)
  | append_singleton before last ih =>
    have split : asReadOnly ⟨before ++ [last], globs, access⟩ =
        { asReadOnly ⟨before, globs, access⟩ with
          entries := (asReadOnly ⟨before, globs, access⟩).entries ++ [last.downgraded] } := by
      simp [asReadOnly, FileSystemPermissionEntry.downgraded]
    rw [split, mem_effectiveEntries_concat, ih]
    simp only [mem_effectiveEntries_concat ⟨before, globs, access⟩ before last, normalizedEntry_downgraded,
      spelling_downgraded]
    constructor
    · rintro (rfl | ⟨⟨original, earlier, rfl⟩, other⟩)
      · exact ⟨_, .inl rfl, rfl⟩
      · exact ⟨original, .inr ⟨earlier, other⟩, rfl⟩
    · rintro ⟨original, rfl | ⟨earlier, other⟩, rfl⟩
      · exact .inl rfl
      · exact .inr ⟨⟨original, earlier, rfl⟩, other⟩

theorem entryPathVariants_downgraded : fs.entryPathVariants entry.downgraded =
    if entry.access = .write then fs.currentPathVariants (fs.normalizedEntry entry) else
        fs.entryPathVariants entry := by
  have grants : entry.downgraded.access ≠ .write := by
    rw [FileSystemPermissionEntry.downgraded_access]
    cases entry.access <;> decide
  have current : fs.entryPathVariants entry.downgraded = fs.currentPathVariants (fs.normalizedEntry entry) :=
    if_neg grants
  rw [current]
  split
  next => rfl
  next other => exact (if_neg other).symm

theorem mem_coveringRules_asReadOnly {rule : Nat × FileSystemAccess} :
    rule ∈ profile.asReadOnly.coveringRules fs candidate ↔ ∃ entry ∈ profile.effectiveEntries fs,
      ∃ root ∈ if entry.access = .write then fs.currentPathVariants (fs.normalizedEntry entry)
        else fs.entryPathVariants entry,
        fs.isRelativeTo candidate root = true ∧ (root.parts.length, entry.downgraded.access) = rule := by
  simp only [mem_coveringRules, mem_effectiveEntries_asReadOnly]
  constructor
  · rintro ⟨-, ⟨entry, effective, rfl⟩, root, variant, covered, same⟩
    exact ⟨entry, effective, root, entryPathVariants_downgraded ▸ variant, covered, same⟩
  · rintro ⟨entry, effective, root, variant, covered, same⟩
    exact ⟨_, ⟨entry, effective, rfl⟩, root, entryPathVariants_downgraded ▸ variant, covered, same⟩

theorem asReadOnly_winningRule_deny_iff : (profile.asReadOnly.winningRule fs candidate).1 ≤ .deny ↔
      Denied fs profile (profile.copiedWriteRoots fs) candidate := by
  have default : profile.asReadOnly.defaultAccess = .deny ↔ profile.defaultAccess = .deny := by
    rw [asReadOnly_defaultAccess]
    cases profile.defaultAccess <;> decide
  unfold Denied
  rw [← default]
  apply winner_deny_iff
  · intro rule found
    obtain ⟨entry, effective, root, variant, covered, rfl⟩ := mem_coveringRules_asReadOnly.1 found
    rw [FileSystemPermissionEntry.downgraded_access]
    cases access : entry.access with
    | deny =>
      rw [access, if_neg (by decide)] at variant
      exact .inl ⟨root, mem_rootsOf.2 ⟨entry, effective, access, variant⟩, covered, rfl⟩
    | read =>
      rw [access, if_neg (by decide)] at variant
      exact .inr ⟨root, List.mem_append_left _ (mem_rootsOf.2 ⟨entry, effective, access, variant⟩), covered, rfl,
        by rintro ⟨⟩⟩
    | write =>
      rw [access, if_pos rfl] at variant
      exact .inr ⟨root,
          List.mem_append_right _ (mem_copiedWriteRoots.2 ⟨entry, effective, access, variant⟩), covered,
        rfl, by rintro ⟨⟩⟩
  · intro root inside covered
    obtain ⟨entry, effective, access, variant⟩ := mem_rootsOf.1 inside
    refine mem_coveringRules_asReadOnly.2 ⟨entry, effective, root, ?_, covered, ?_⟩
    · rwa [if_neg (by rw [access]; decide)]
    · simp [FileSystemPermissionEntry.downgraded, access]
  · intro root inside covered
    rcases List.mem_append.1 inside with reads | writes
    · obtain ⟨entry, effective, access, variant⟩ := mem_rootsOf.1 reads
      refine ⟨_, mem_coveringRules_asReadOnly.2 ⟨entry, effective, root, ?_, covered, rfl⟩, rfl⟩
      rwa [if_neg (by rw [access]; decide)]
    · obtain ⟨entry, effective, access, variant⟩ := mem_copiedWriteRoots.1 writes
      refine ⟨_, mem_coveringRules_asReadOnly.2 ⟨entry, effective, root, ?_, covered, rfl⟩, rfl⟩
      rwa [if_pos access]

theorem asReadOnly_resolve_le_read : profile.asReadOnly.resolve fs path ≤ .read := by
  rw [resolve_le_iff]
  have spellings : fs.pathVariants path ≠ [] := FileSystem.pathVariants_ne_nil path
  obtain ⟨candidate, inside⟩ := List.exists_mem_of_ne_nil _ spellings
  refine .inr ⟨candidate, inside, winner_le_iff.2 ?_⟩
  by_cases none : profile.asReadOnly.coveringRules fs candidate = []
  · refine .inl ⟨none, ?_⟩
    rw [asReadOnly_defaultAccess]
    cases profile.defaultAccess <;> decide
  · obtain ⟨rule, deepest⟩ := exists_deepest none
    obtain ⟨entry, -, root, -, -, rfl⟩ := mem_coveringRules_asReadOnly.1 deepest.1
    refine .inr ⟨_, deepest, ?_⟩
    dsimp only
    rw [FileSystemPermissionEntry.downgraded_access]
    cases entry.access <;> decide

theorem eq_min_read_iff {access copied : FileSystemAccess} (bounded : copied ≤ .read) :
    copied = min .read access ↔ (copied ≤ .deny ↔ access ≤ .deny) := by
  cases access <;> cases copied <;> revert bounded <;> decide

/-- The read-only copy takes write access away and nothing else exactly when a denied glob matches the path, or
it is denied among the current targets of the write rules just when it is among the paths they still name, as it
is where these are the same. -/
theorem asReadOnly_resolve_iff (fs : FileSystem) (profile : FileSystemPermissionProfile) (path : PurePath) :
    (profile.asReadOnly.resolve fs path = min .read (profile.resolve fs path) ↔
      profile.matchesDeniedGlob fs (fs.pathVariants path) = true ∨
      ((∃ candidate ∈ fs.pathVariants path, Denied fs profile (profile.copiedWriteRoots fs) candidate) ↔
        ∃ candidate ∈ fs.pathVariants path, Denied fs profile (profile.rootsOf fs .write) candidate)) ∧
    ((∀ root, root ∈ profile.copiedWriteRoots fs ↔ root ∈ profile.rootsOf fs .write) →
      profile.asReadOnly.resolve fs path = min .read (profile.resolve fs path)) := by
  have copied : profile.asReadOnly.resolve fs path ≤ .deny ↔
      profile.matchesDeniedGlob fs (fs.pathVariants path) = true ∨
        ∃ candidate ∈ fs.pathVariants path, Denied fs profile (profile.copiedWriteRoots fs) candidate := by
    simp only [← asReadOnly_winningRule_deny_iff]
    exact resolve_le_iff
  have original : profile.resolve fs path ≤ .deny ↔
      profile.matchesDeniedGlob fs (fs.pathVariants path) = true ∨
        ∃ candidate ∈ fs.pathVariants path, Denied fs profile (profile.rootsOf fs .write) candidate := by
    simp only [← winningRule_deny_iff]
    exact resolve_le_iff
  rw [eq_min_read_iff asReadOnly_resolve_le_read, copied, original]
  refine ⟨?_, fun same => by simp only [Denied, List.mem_append, same]⟩
  cases profile.matchesDeniedGlob fs (fs.pathVariants path) <;> simp

-- A host on which `/data` has become a symbolic link to `/secret`.
def retargetedHost : FileSystem where
  host := .posix
  lower := id
  casefold := id
  absolute := id
  resolved path :=
    if path.tail.head? = some "data".toList then
        { path with tail := "secret".toList :: path.tail.tail } else path
  expandUser := id
  parse flavour text := { flavour := flavour, concrete := false, root := [], tail := [text] }

theorem asReadOnly_reads_denied :
    let profile : FileSystemPermissionProfile :=
      { entries := [{ path := { tail := ["data".toList] }, access := .write }] }
    let path : PurePath := { tail := ["secret".toList, "key".toList] }
    profile.resolve retargetedHost path = .deny ∧ profile.asReadOnly.resolve retargetedHost path = .read := by
  decide

end FileSystemPermissionProfile

end OpenSquilla.Sandbox
