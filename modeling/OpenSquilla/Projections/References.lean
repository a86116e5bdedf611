import OpenSquilla.Projections.ProjectionSizes

set_option autoImplicit false

namespace OpenSquilla.Projections

open TextLines TextScan JsonText

def isNamed (key line : Text) : Bool := (lineField line).any fun entry => entry.1 == key

theorem field_cons_named {key value line : Text} (read : lineField line = some (key, value)) (rest : List Text) :
    field (line :: rest) key = value := by
  simp [field, read]

theorem field_cons_other {key line : Text} (other : isNamed key line = false) (rest : List Text) :
    field (line :: rest) key = field rest key := by
  cases read : lineField line with
  | none => simp [field, read]
  | some entry =>
    obtain ⟨name, value⟩ := entry
    rw [isNamed, read, Option.any_some, beq_eq_false_iff_ne] at other
    have apart : (key == name) = false := beq_eq_false_iff_ne.mpr (Ne.symm other)
    simp [field, read, List.lookup_cons, apart]

theorem field_append_other {key : Text} {lines : List Text} (others : ∀ line ∈ lines, isNamed key line = false)
    (rest : List Text) : field (lines ++ rest) key = field rest key := by
  induction lines with
  | nil => rfl
  | cons line lines ih =>
    rw [List.forall_mem_cons] at others
    rw [List.cons_append, field_cons_other others.1, ih others.2]

theorem field_filter {key : Text} {keep : Text → Bool} {lines : List Text} (more : List Text)
    (first : ∀ line, lines.find? (isNamed key) = some line → keep line = true)
    (found : lines.any (isNamed key) = true) : field (lines.filter keep ++ more) key = field lines key := by
  induction lines with
  | nil => cases found
  | cons line rest ih =>
    cases named : isNamed key line with
    | true =>
      obtain ⟨⟨name, value⟩, read, same⟩ := Option.any_eq_true _ _ |>.mp named
      obtain rfl : name = key := beq_iff_eq.mp same
      have kept : keep line = true := first line (by rw [List.find?_cons_of_pos named])
      rw [List.filter_cons_of_pos kept, List.cons_append, field_cons_named read, field_cons_named read]
    | false =>
      have tail := ih (fun other is => first other (by rw [List.find?_cons_of_neg (by simp [named]), is]))
        (by simpa [named] using found)
      rw [field_cons_other named, ← tail]
      cases kept : keep line with
      | true => rw [List.filter_cons_of_pos kept, List.cons_append, field_cons_other named]
      | false => rw [List.filter_cons_of_neg (by simp [kept])]

theorem found_of_field {key : Text} {lines : List Text} (some : field lines key ≠ []) :
    lines.any (isNamed key) = true := by
  cases found : (lines.filterMap lineField).lookup key with
  | none => simp [field, found] at some
  | some value =>
    obtain ⟨entry, mem, rfl⟩ : ∃ entry ∈ lines.filterMap lineField, entry.1 = key := by
      by_contra none
      rw [List.lookup_eq_none_iff.mpr fun entry mem => ?_] at found
      · cases found
      · exact bne_iff_ne.mpr fun same => none ⟨entry, mem, same.symm⟩
    obtain ⟨line, inside, read⟩ := List.mem_filterMap.mp mem
    exact List.any_eq_true.mpr ⟨line, inside, by simp [isNamed, read]⟩

section Envelopes

variable {F : Type} (lib : Libraries F)

theorem isProjection_iff {content : Text} : isProjection content = true ↔
    ∃ mark rest, (mark = resultProjectionMark ∨ mark = aggregateProjectionMark) ∧
      content = mark ++ '\n' :: rest := by
  simp only [isProjection, Bool.or_eq_true, List.isPrefixOf_iff_prefix]
  constructor
  · rintro (⟨rest, rfl⟩ | ⟨rest, rfl⟩)
    · exact ⟨_, rest, .inl rfl, by simp⟩
    · exact ⟨_, rest, .inr rfl, by simp⟩
  · rintro ⟨mark, rest, rfl | rfl, rfl⟩
    · exact .inl ⟨rest, by simp⟩
    · exact .inr ⟨rest, by simp⟩

theorem checkedReference_eq_some {handle sha256 : Text} {reference : Text × Text} :
    checkedReference handle sha256 = some reference ↔
      isHandle handle = true ∧ isSha256 sha256 = true ∧ reference = (handle, sha256) := by
  rw [checkedReference]
  split
  · rename_i valid
    rw [Bool.and_eq_true] at valid
    simp [valid.1, valid.2, eq_comm]
  · rename_i invalid
    rw [Bool.and_eq_true, not_and] at invalid
    simp only [reduceCtorEq, false_iff, not_and]
    exact fun handle sha256 => absurd sha256 (invalid handle)

theorem recoverable_checked {content : Str} {reference : Text × Text}
    (found : recoverableToolResultReference lib content = .ok (some reference)) :
    isHandle reference.1 = true ∧ isSha256 reference.2 = true := by
  have checked : ∀ {handle sha256 : Text}, checkedReference handle sha256 = some reference →
      isHandle reference.1 = true ∧ isSha256 reference.2 = true := by
    intro handle sha256 made
    obtain ⟨valid, digest, rfl⟩ := checkedReference_eq_some.mp made
    exact ⟨valid, digest⟩
  unfold recoverableToolResultReference at found
  dsimp only at found
  split at found
  · exact checked (Except.ok.inj found)
  split at found
  · exact checked (Except.ok.inj found)
  split at found
  · cases found
  split at found
  · cases found
  unfold envelopeReference at found
  split at found
  · replace found := Except.ok.inj found
    unfold fieldsReference at found
    split at found
    · split at found
      · exact checked found
      · cases found
    · cases found
  all_goals cases found

-- The lines that name the original are written the way that stays.
def HeaderStays (content : Text) : Prop :=
  ∀ key ∈ ["tool_result_handle".toList, "sha256".toList], ∀ line,
    ((splitLines content).drop 1).find? (isNamed key) = some line → isKeptLine line = true

theorem reference_projection {content : Str} (projection : isProjection (shownText content) = true) :
    recoverableToolResultReference lib content =
      .ok (checkedReference (field ((splitLines (shownText content)).drop 1) "tool_result_handle".toList)
        (field ((splitLines (shownText content)).drop 1) "sha256".toList)) := by
  unfold recoverableToolResultReference
  exact if_pos projection

def projectionEnding (text toolUseId : Text) : List Text :=
  ["historical_replay_projection: recoverability header preserved; projected body compacted.".toList,
    "historical_replay_sha256: ".toList ++ digest lib text,
    compactedText lib text "historical_tool_result_projection_body".toList
      [("tool_use_id".toList, toolUseId)]]

theorem compacted_projection {content : Text} (projection : isProjection content = true) (toolUseId : Text) :
    isProjection (compactedProjection lib content toolUseId) = true ∧
      ∃ more, (splitLines (compactedProjection lib content toolUseId)).drop 1 =
        ((splitLines content).drop 1).filter isKeptLine ++ more := by
  obtain ⟨mark, rest, isMark, rfl⟩ := isProjection_iff.mp projection
  have unbroken : Unbroken mark := by
    rcases isMark with rfl | rfl
    · decide
    · decide
  have lines : splitLines (mark ++ '\n' :: rest) = mark :: splitLines rest := splitLines_cons unbroken
  have some : projectionEnding lib (mark ++ '\n' :: rest) toolUseId ≠ [] := List.cons_ne_nil _ _
  have compacted : compactedProjection lib (mark ++ '\n' :: rest) toolUseId =
      joinLines (mark :: (splitLines rest).filter isKeptLine ++
        projectionEnding lib (mark ++ '\n' :: rest) toolUseId) := by
    rw [compactedProjection, lines]
    rfl
  have each : ∀ line ∈ mark :: (splitLines rest).filter isKeptLine, Unbroken line :=
    List.forall_mem_cons.mpr ⟨unbroken, fun line mem =>
      unbroken_of_mem_splitLines (List.mem_filter.mp mem).1⟩
  rw [compacted, splitLines_joinLines_append each some, lines]
  have starts :
      joinLines (mark :: (splitLines rest).filter isKeptLine ++
        projectionEnding lib (mark ++ '\n' :: rest) toolUseId) =
      mark ++ '\n' :: joinLines
        ((splitLines rest).filter isKeptLine ++ projectionEnding lib (mark ++ '\n' :: rest) toolUseId) := by
    rw [List.cons_append, joinLines_cons (by simp [some]), List.append_assoc, List.singleton_append]
  exact ⟨isProjection_iff.mpr ⟨mark, _, isMark, starts⟩, _, rfl⟩

theorem compacted_projection_reference {content : Str} (projection : isProjection (shownText content) = true)
    (stays : HeaderStays (shownText content)) {reference : Text × Text}
    (known : recoverableToolResultReference lib content = .ok (some reference)) (toolUseId : Text) :
    recoverableToolResultReference lib (asStr (compactedProjection lib (shownText content) toolUseId)) =
      .ok (some reference) := by
  obtain ⟨still, more, lines⟩ := compacted_projection lib projection toolUseId
  have kept : ∀ key ∈ ["tool_result_handle".toList, "sha256".toList],
      field ((splitLines (shownText content)).drop 1) key ≠ [] →
        field (((splitLines (shownText content)).drop 1).filter isKeptLine ++ more) key =
          field ((splitLines (shownText content)).drop 1) key :=
    fun key mem some => field_filter more (stays key mem) (found_of_field some)
  rw [reference_projection lib projection] at known
  obtain ⟨handle, sha256, -⟩ := checkedReference_eq_some.mp (Except.ok.inj known)
  rw [reference_projection lib (by rwa [shownText_asStr]), shownText_asStr, lines, kept _ (by simp),
    kept _ (by simp), known]
  · intro none
    rw [none] at sha256
    exact absurd sha256 (by decide)
  · intro none
    rw [none] at handle
    exact absurd handle (by decide)

theorem unbroken_reference {text : Text} (made : ∀ c ∈ text, c ∈ referenceChars) : Unbroken text := by
  have each : ∀ c ∈ referenceChars, isLineBreak c = false := by decide
  exact fun c mem => each c (made c mem)

theorem strip_reference {text : Text} (made : ∀ c ∈ text, c ∈ referenceChars) : strip (' ' :: text) = text := by
  have each : ∀ c ∈ referenceChars, isSpace c = false := by decide
  have blank : strip (' ' :: text) = strip text := rfl
  rw [blank]
  refine strip_of_edges ?_ ?_
  · exact fun c first => each c (made c (List.mem_of_mem_head? first))
  · exact fun c last => each c (made c (List.mem_of_getLast? last))

def referenceLines (reference : Text × Text) : List Text :=
  ["retrieve_hint: Use retrieve_tool_result with this handle to inspect the original raw output.".toList,
    "tool_result_handle: ".toList ++ reference.1, "tool_result_sha256: ".toList ++ reference.2]

theorem compacted_reference {reference : Text × Text} (handle : isHandle reference.1 = true)
    (sha256 : isSha256 reference.2 = true) (text toolUseId : Text) :
    recoverableToolResultReference lib (asStr (compactedText lib text "historical_tool_result".toList
      (resultMetadata reference toolUseId))) = .ok (some reference) := by
  have sorted : sortMetadata (resultMetadata reference toolUseId) = resultMetadata reference toolUseId := rfl
  have shape :
      compactedText lib text "historical_tool_result".toList (resultMetadata reference toolUseId) =
      joinLines ((compactedHeader lib text "historical_tool_result".toList ++ referenceLines reference) ++
        (("tool_use_id: ".toList ++ toolUseId) ::
          quotedLines (headTail text resultPreviewChars).1 (headTail text resultPreviewChars).2.1)) := by
    rw [compactedText_eq, sorted]
    rfl
  have unbroken :
      ∀ line ∈ compactedHeader lib text "historical_tool_result".toList ++ referenceLines reference,
      Unbroken line := by
    have sha : Unbroken (digest lib text) := unbroken_reference fun c mem =>
      mem_referenceChars ((lib.sha256_hex _).2 c mem)
    simp only [compactedHeader, referenceLines, List.forall_mem_append, List.forall_mem_cons, Unbroken]
    refine ⟨⟨?_, ⟨?_, unbroken_toDigits _⟩, ⟨?_, sha⟩, ⟨?_, unbroken_toDigits _⟩, ?_, List.forall_mem_nil _⟩,
      ?_, ⟨?_, unbroken_reference (isHandle_spec handle).2⟩, ⟨?_, unbroken_reference (isSha256_spec sha256).2⟩,
      List.forall_mem_nil _⟩
    all_goals decide
  have lines := splitLines_joinLines_append unbroken (List.cons_ne_nil ("tool_use_id: ".toList ++ toolUseId)
    (quotedLines (headTail text resultPreviewChars).1 (headTail text resultPreviewChars).2.1))
  rw [← shape] at lines
  have noProjection : isProjection (compactedText lib text "historical_tool_result".toList
      (resultMetadata reference toolUseId)) = false := by
    rw [shape]
    rfl
  have compacted : isCompacted (compactedText lib text "historical_tool_result".toList
      (resultMetadata reference toolUseId)) = true := by
    rw [shape]
    rfl
  have handleOthers : ∀ line ∈ (compactedHeader lib text "historical_tool_result".toList).drop 1 ++
      (referenceLines reference).take 1, isNamed "tool_result_handle".toList line = false := by
    simp only [compactedHeader, referenceLines, List.drop_succ_cons, List.drop_zero, List.take_succ_cons,
        List.take_zero,
      List.forall_mem_append, List.forall_mem_cons]
    exact ⟨⟨rfl, rfl, rfl, rfl, List.forall_mem_nil _⟩, rfl, List.forall_mem_nil _⟩
  have shaOthers : ∀ line ∈ (compactedHeader lib text "historical_tool_result".toList).drop 1 ++
      (referenceLines reference).take 2, isNamed "tool_result_sha256".toList line = false := by
    simp only [compactedHeader, referenceLines, List.drop_succ_cons, List.drop_zero, List.take_succ_cons,
        List.take_zero,
      List.forall_mem_append, List.forall_mem_cons]
    exact ⟨⟨rfl, rfl, rfl, rfl, List.forall_mem_nil _⟩, rfl, rfl, List.forall_mem_nil _⟩
  have handleLine : lineField ("tool_result_handle: ".toList ++ reference.1) =
      some ("tool_result_handle".toList, strip (' ' :: reference.1)) := rfl
  have shaLine : lineField ("tool_result_sha256: ".toList ++ reference.2) =
      some ("tool_result_sha256".toList, strip (' ' :: reference.2)) := rfl
  have handleField := (field_append_other handleOthers _).trans (field_cons_named handleLine
    (("tool_result_sha256: ".toList ++ reference.2) :: splitLines
      (joinLines (("tool_use_id: ".toList ++ toolUseId) ::
          quotedLines (headTail text resultPreviewChars).1 (headTail text resultPreviewChars).2.1))))
  have shaField := (field_append_other shaOthers _).trans (field_cons_named shaLine
    (splitLines (joinLines (("tool_use_id: ".toList ++ toolUseId) ::
          quotedLines (headTail text resultPreviewChars).1 (headTail text resultPreviewChars).2.1))))
  unfold recoverableToolResultReference
  rw [shownText_asStr]
  dsimp only
  rw [if_neg (Bool.eq_false_iff.mp noProjection), if_pos compacted, lines]
  refine congrArg Except.ok ((congrArg₂ checkedReference handleField shaField).trans ?_)
  rw [strip_reference (isHandle_spec handle).2, strip_reference (isSha256_spec sha256).2]
  exact checkedReference_eq_some.mpr ⟨handle, sha256, rfl⟩

end Envelopes

end OpenSquilla.Projections
