import OpenSquilla.Checkpoints.SectionText
import OpenSquilla.Shared.JsonDumps

set_option autoImplicit false

namespace OpenSquilla.Checkpoints

open TextLines TextScan

theorem boundedLegacyFragment_prefix (text : Text) (maxChars : Nat) :
    boundedLegacyFragment text maxChars false <+: text ∧
      (boundedLegacyFragment text maxChars false).length ≤ maxChars := by
  have within : ∀ fragment : Text, fragment <+: text.take maxChars → fragment <+: text ∧
      fragment.length ≤ maxChars := by
    intro fragment inside
    refine ⟨inside.trans (List.take_prefix _ _), inside.length_le.trans ?_⟩
    rw [List.length_take]
    exact Nat.min_le_left _ _
  have stripped : ∀ fragment : Text, fragment <+: text.take maxChars → rstrip fragment <+: text.take maxChars :=
    fun fragment inside => (List.rdropWhile_prefix _ _).trans inside
  rw [boundedLegacyFragment]
  split
  · exact ⟨List.nil_prefix, Nat.zero_le _⟩
  split
  · rename_i fits
    exact ⟨List.prefix_refl _, fits⟩
  simp only [Bool.false_eq_true, if_false]
  split
  · refine within _ (stripped _ ?_)
    split
    · exact List.take_prefix _ _
    · exact List.prefix_refl _
  · exact within _ (stripped _ (List.prefix_refl _))

theorem boundedLegacyFragment_suffix (text : Text) (maxChars : Nat) :
    boundedLegacyFragment text maxChars true <:+ text ∧
      (boundedLegacyFragment text maxChars true).length ≤ maxChars := by
  have within : ∀ fragment : Text, fragment <:+ text.drop (text.length - maxChars) →
      fragment <:+ text ∧ fragment.length ≤ maxChars := by
    intro fragment inside
    refine ⟨inside.trans (List.drop_suffix _ _), inside.length_le.trans ?_⟩
    rw [List.length_drop]
    omega
  have stripped : ∀ fragment : Text, fragment <:+ text.drop (text.length - maxChars) →
      lstrip fragment <:+ text.drop (text.length - maxChars) :=
    fun fragment inside => (List.dropWhile_suffix _).trans inside
  rw [boundedLegacyFragment]
  split
  · exact ⟨List.nil_suffix, Nat.zero_le _⟩
  split
  · rename_i fits
    exact ⟨List.suffix_refl _, fits⟩
  simp only [if_true]
  split
  · refine within _ (stripped _ ?_)
    split
    · exact List.drop_suffix _ _
    · exact List.suffix_refl _
  · exact within _ (stripped _ (List.suffix_refl _))

theorem split_of_ends {text head tail : Text} (starts : head <+: text) (ends : tail <:+ text)
    (short : head.length + tail.length ≤ text.length) : ∃ middle, text = head ++ middle ++ tail := by
  obtain ⟨rest, rfl⟩ := starts
  rw [List.length_append] at short
  obtain ⟨middle, rfl⟩ := List.suffix_of_suffix_length_le ends (List.suffix_append head rest) (by omega)
  exact ⟨middle, (List.append_assoc ..).symm⟩

theorem packLegacy_faithful {text : Text} {budget : Int} {packed : Rendered} (trimmed : strip text = text)
    (other : splitStructuredSummarySections text = none)
    (shown : packLegacySummaryText text budget = some packed) : Faithful text packed := by
  rw [packLegacySummaryText, trimmed] at shown
  simp only at shown
  split at shown
  · cases shown
  split at shown
  · obtain rfl := Option.some.inj shown
    exact .whole
  rename_i long
  split at shown
  · cases shown
  rename_i room
  split at shown
  · cases shown
  split at shown
  · obtain rfl := Option.some.inj shown
    have head := boundedLegacyFragment_prefix text (max 1 ((budget - middleSeparator.length).toNat / 3))
    have tail := boundedLegacyFragment_suffix text (max 1 ((budget - middleSeparator.length).toNat -
      max 1 ((budget - middleSeparator.length).toNat / 3)))
    obtain ⟨middle, split⟩ := split_of_ends head.1 tail.1 (by omega)
    exact .edges _ middle _ other split
  · cases shown

section Steps

theorem isPrefixOf_of_structured {text : Text}
    (structured : (splitStructuredSummarySections text).isSome = true) :
    structuredHeader.isPrefixOf (lstrip text) = true := by
  rw [splitStructuredSummarySections] at structured
  cases lines : splitKeepends text with
  | nil =>
    rw [splitLines, lines] at structured
    cases structured
  | cons first rest =>
    rw [splitLines, lines, List.map_cons] at structured
    simp only at structured
    split at structured
    · cases structured
    rename_i header
    rw [not_not] at header
    have isLine := isLine_of_mem_splitKeepends text first (by rw [lines]; exact List.mem_cons_self ..)
    obtain ⟨ending, -, split⟩ := exists_ending isLine
    have joined := flatten_splitKeepends text
    rw [lines, List.flatten_cons, split, header, List.append_assoc] at joined
    have stays : lstrip text = text := by
      rw [← joined]
      rfl
    rw [stays, List.isPrefixOf_iff_prefix]
    exact ⟨_, joined⟩

theorem length_render_append (blocks : List (Nat × Text)) (number omitted : Nat) (first second : Text) :
    (renderSummaryContextBlocks (blocks ++ [(number, first ++ second)]) omitted).length =
      (renderSummaryContextBlocks (blocks ++ [(number, first)]) omitted).length + second.length := by
  have total : ∀ all : List (Nat × Text),
      (((all.insertionSort fun first second => first.1 ≤ second.1).map Prod.snd).map
      List.length).sum = (all.map fun block => block.2.length).sum := by
    intro all
    rw [List.map_map]
    exact ((List.perm_insertionSort (fun first second : Nat × Text => first.1 ≤ second.1) all).map _).sum_eq
  simp only [renderSummaryContextBlocks, joinParagraphs, List.length_append, JsonText.length_intercalate,
      List.map_append,
    List.sum_append, total, List.length_map, List.length_insertionSort, List.map_cons, List.map_nil,
      List.sum_cons,
    List.sum_nil, List.length_cons, List.length_nil]
  omega

variable {deduped : List Text} {maxChars : Int} {selected : List (Nat × Rendered)} {index : Nat}

/-- Where the next summary is packed by its sections, those that are kept have only line feeds. -/
def StepKeepsFeeds (deduped : List Text) (maxChars : Int) (selected : List (Nat × Rendered)) (index : Nat) :
    Prop :=
  fitsWhole deduped maxChars selected index = false →
    (packStructuredSummarySections (deduped.getD index []) (sectionBudget maxChars selected index)).isSome =
      true →
      KeepsFeeds (deduped.getD index []) (sectionBudget maxChars selected index)

theorem showSummary_fits {shown : Rendered} (next : showSummary deduped maxChars selected index = some shown) :
    (renderSummaryContextBlocks ((selected ++ [(index + 1, shown)]).map blockOf) index).length ≤ maxChars := by
  rw [showSummary] at next
  split at next
  · rename_i fits
    rw [← Option.some.inj next]
    exact of_decide_eq_true fits
  split at next
  · cases next
  split at next
  · rename_i fits
    rw [← Option.some.inj next]
    exact fits
  · cases next

theorem showSummary_sections {parts : List Text} (long : fitsWhole deduped maxChars selected index = false)
    (packed : packStructuredSummarySections (deduped.getD index [])
      (sectionBudget maxChars selected index) = some parts) :
    showSummary deduped maxChars selected index = some (.sections parts) := by
  obtain ⟨-, fits, -⟩ := packStructured_eq_some packed
  have whole :
      (renderSummaryContextBlocks
        ((selected ++ [(index + 1, Rendered.sections parts)]).map blockOf) index).length ≤
      maxChars := by
    rw [List.map_append, List.map_singleton, blockOf, length_render_append]
    rw [sectionBudget] at fits
    have rendered : (Rendered.sections parts).text = renderStructuredSections parts := rfl
    rw [rendered]
    push_cast
    omega
  rw [showSummary]
  simp only [long, packSummary, packed, Bool.false_eq_true, if_false]
  rw [if_pos whole]

theorem showSummary_faithful_iff (trimmed : strip (deduped.getD index []) = deduped.getD index [])
    {shown : Rendered} (next : showSummary deduped maxChars selected index = some shown) :
    Faithful (deduped.getD index []) shown ↔ StepKeepsFeeds deduped maxChars selected index := by
  cases long : fitsWhole deduped maxChars selected index with
  | true =>
    rw [showSummary] at next
    simp only [long, if_true] at next
    obtain rfl := Option.some.inj next
    exact ⟨fun _ short => absurd (long.symm.trans short) (by decide), fun _ => .whole⟩
  | false =>
    cases packed : packStructuredSummarySections (deduped.getD index [])
        (sectionBudget maxChars selected index) with
    | some parts =>
      rw [showSummary_sections long packed] at next
      obtain rfl := Option.some.inj next
      rw [faithful_sections_iff packed, StepKeepsFeeds, long, packed]
      exact ⟨fun keeps _ _ => keeps, fun keeps => keeps rfl rfl⟩
    | none =>
      refine iff_of_true ?_ ?_
      · rw [showSummary] at next
        simp only [long, packSummary, packed, Bool.false_eq_true, if_false] at next
        split at next
        · cases next
        rename_i result pack
        split at next
        · obtain rfl := Option.some.inj next
          split at pack
          · cases pack
          rename_i unmarked
          refine packLegacy_faithful trimmed ?_ pack
          cases split : splitStructuredSummarySections (deduped.getD index []) with
          | none => rfl
          | some sections => exact absurd (isPrefixOf_of_structured (by rw [split]; rfl)) unmarked
        · cases next
      · intro _ some
        rw [packed] at some
        cases some

end Steps

section Runs

variable (deduped : List Text) (maxChars : Int)

/-- The states of the selection: what is still to be looked at, and what is selected. -/
inductive Reached : Nat → List (Nat × Rendered) → Prop
  | start : Reached deduped.length []
  | next {index : Nat} {selected : List (Nat × Rendered)} {shown : Rendered}
      (before : Reached (index + 1) selected)
      (step : showSummary deduped maxChars selected index = some shown) :
      Reached index (selected ++ [(index + 1, shown)])

variable {deduped maxChars} {selected : List (Nat × Rendered)} {index : Nat}

theorem Reached.index_le (reached : Reached deduped maxChars index selected) : index ≤ deduped.length := by
  induction reached with
  | start => exact Nat.le_refl _
  | next _ _ ih => exact Nat.le_of_succ_le ih

theorem Reached.numbers (reached : Reached deduped maxChars index selected) :
    selected.reverse.map Prod.fst = List.range' (index + 1) (deduped.length - index) := by
  induction reached with
  | start => simp
  | @next index selected shown before _ ih =>
    have count : deduped.length - index = deduped.length - (index + 1) + 1 := by
      have := before.index_le
      omega
    rw [List.reverse_append, List.reverse_singleton, List.singleton_append, List.map_cons, ih, count,
        List.range'_succ]

theorem Reached.fits (reached : Reached deduped maxChars index selected) (some : selected ≠ []) :
    (renderSummaryContextBlocks (selected.map blockOf) index).length ≤ maxChars := by
  cases reached with
  | start => exact absurd rfl some
  | next _ step => exact showSummary_fits step

theorem selectSummaries_reached (reached : Reached deduped maxChars index selected) :
    Reached deduped maxChars (selectSummaries deduped maxChars index selected).2
        (selectSummaries deduped maxChars index selected).1 ∧
      selected <+: (selectSummaries deduped maxChars index selected).1 := by
  induction index generalizing selected with
  | zero => exact ⟨reached, List.prefix_refl _⟩
  | succ index ih =>
    rw [selectSummaries]
    split
    · rename_i shown step
      obtain ⟨after, within⟩ := ih (reached.next step)
      exact ⟨after, (List.prefix_append _ _).trans within⟩
    · exact ⟨reached, List.prefix_refl _⟩

theorem Reached.selectSummaries_eq (reached : Reached deduped maxChars index selected) :
    selectSummaries deduped maxChars index selected = selectSummaries deduped maxChars deduped.length [] := by
  induction reached with
  | start => rfl
  | next _ step ih => rw [← ih, selectSummaries, step]

theorem insertionSort_descending {blocks : List (Nat × Text)}
    (descending : blocks.Pairwise fun first second => second.1 < first.1) :
    (blocks.insertionSort fun first second => first.1 ≤ second.1) = blocks.reverse := by
  have last : ∀ (block : Nat × Text) (sorted : List (Nat × Text)), (∀ other ∈ sorted, other.1 < block.1) →
      sorted.orderedInsert (fun first second => first.1 ≤ second.1) block = sorted ++ [block] := by
    intro block sorted below
    induction sorted with
    | nil => rfl
    | cons first rest ih =>
      rw [List.forall_mem_cons] at below
      rw [List.orderedInsert, if_neg (Nat.not_le.mpr below.1), ih below.2, List.cons_append]
  induction blocks with
  | nil => rfl
  | cons block rest ih =>
    rw [List.pairwise_cons] at descending
    rw [List.insertionSort_cons, ih descending.2, List.reverse_cons]
    exact last block rest.reverse fun other mem => descending.1 other (List.mem_reverse.mp mem)

theorem Reached.descending (reached : Reached deduped maxChars index selected) :
    (selected.map blockOf).Pairwise fun first second => second.1 < first.1 := by
  have ascending : (selected.reverse.map Prod.fst).Pairwise (· < ·) := by
    rw [reached.numbers]
    exact List.pairwise_lt_range'
  rw [List.pairwise_map] at ascending
  rw [List.pairwise_map]
  exact List.pairwise_reverse.mp ascending

theorem Reached.rendering (reached : Reached deduped maxChars index selected) (omitted : Nat) :
    renderSummaryContextBlocks (selected.map blockOf) omitted = contextHeader ++ ['\n'] ++
      joinParagraphs ((if omitted = 0 then [] else [summaryOmissionMarker omitted]) ++
        selected.reverse.map fun entry => blockPrefix entry.1 ++ entry.2.text) := by
  rw [renderSummaryContextBlocks, insertionSort_descending reached.descending, ← List.map_reverse, List.map_map]
  rfl

def AllFaithful (deduped : List Text) (selected : List (Nat × Rendered)) : Prop :=
  ∀ entry ∈ selected, Faithful (deduped.getD (entry.1 - 1) []) entry.2

-- In every state, the sections kept in the next step have only line feeds.
def StepsKeepFeeds (deduped : List Text) (maxChars : Int) : Prop :=
  ∀ index selected, Reached deduped maxChars (index + 1) selected →
    StepKeepsFeeds deduped maxChars selected index

variable (trimmed : ∀ index, strip (deduped.getD index []) = deduped.getD index [])
include trimmed

theorem Reached.allFaithful (reached : Reached deduped maxChars index selected)
    (keeps : StepsKeepFeeds deduped maxChars) : AllFaithful deduped selected := by
  induction reached with
  | start => exact List.forall_mem_nil _
  | next before step ih =>
    refine List.forall_mem_append.mpr ⟨ih, List.forall_mem_singleton.mpr ?_⟩
    rw [Nat.add_sub_cancel]
    exact (showSummary_faithful_iff (trimmed _) step).mpr (keeps _ _ before)

theorem stepsKeepFeeds_of_allFaithful (faithful : (selectSummaries deduped maxChars deduped.length []).1 ≠ [] →
      AllFaithful deduped
        (selectSummaries deduped maxChars deduped.length []).1) : StepsKeepFeeds deduped maxChars := by
  intro index selected reached
  cases step : showSummary deduped maxChars selected index with
  | none =>
    intro long packed
    obtain ⟨parts, packed⟩ := Option.isSome_iff_exists.mp packed
    rw [showSummary_sections long packed] at step
    cases step
  | some shown =>
    have within := (selectSummaries_reached (reached.next step)).2
    rw [(reached.next step).selectSummaries_eq] at within
    have mem : (index + 1, shown) ∈ (selectSummaries deduped maxChars deduped.length []).1 :=
      within.subset (List.mem_append_right _ (List.mem_singleton_self _))
    have here := faithful (List.ne_nil_of_mem mem) _ mem
    rw [Nat.add_sub_cancel] at here
    exact (showSummary_faithful_iff (trimmed index) step).mp here

end Runs

theorem trimmed_of_mem {texts seen : List Text} : ∀ text ∈ deduplicate seen texts, strip text = text := by
  induction texts generalizing seen with
  | nil => exact List.forall_mem_nil _
  | cons raw rest ih =>
    rw [deduplicate]
    split
    · exact ih
    · exact List.forall_mem_cons.mpr ⟨strip_strip raw, ih⟩

theorem trimmed_deduplicated (texts : List Text) (index : Nat) :
    strip ((deduplicatedSummaryTexts texts).getD index []) = (deduplicatedSummaryTexts texts).getD index [] := by
  rw [List.getD_eq_getElem?_getD]
  cases found : (deduplicatedSummaryTexts texts)[index]? with
  | none => rfl
  | some text => exact trimmed_of_mem text (List.mem_of_getElem? found)

/-- The rendering shows the newest summaries in their order and under their numbers, each faithfully, behind a marker
that counts the others. -/
structure ShowsFaithfully (deduped : List Text) (selected : List (Nat × Rendered)) (left : Nat)
    (out : Text) : Prop where
  left_le : left ≤ deduped.length
  numbers : selected.reverse.map Prod.fst = List.range' (left + 1) (deduped.length - left)
  rendering : out = contextHeader ++ ['\n'] ++ joinParagraphs
    ((if left = 0 then [] else [summaryOmissionMarker left]) ++
    selected.reverse.map fun entry => blockPrefix entry.1 ++ entry.2.text)
  faithful : AllFaithful deduped selected

/-- A rendering stays within its bound, is the full one where that fits, and leaves out whole parts
otherwise. -/
structure RendersWithin (summaryTexts : List Text) (maxChars : Option Int) : Prop where
  bounded : ∀ out, formatCompactionSummaryContext summaryTexts maxChars = some out →
    ∀ bound, maxChars = some bound → (out.length : Int) ≤ bound
  whole : deduplicatedSummaryTexts summaryTexts ≠ [] →
    (∀ bound, maxChars = some bound →
      ((fullRendering (deduplicatedSummaryTexts summaryTexts)).length : Int) ≤ bound) →
    formatCompactionSummaryContext summaryTexts maxChars =
      some (fullRendering (deduplicatedSummaryTexts summaryTexts))
  shows : ∀ out, formatCompactionSummaryContext summaryTexts maxChars = some out →
    ∀ bound, maxChars = some bound →
      bound < (fullRendering (deduplicatedSummaryTexts summaryTexts)).length →
      let deduped := deduplicatedSummaryTexts summaryTexts
      ShowsFaithfully deduped (selectSummaries deduped bound deduped.length []).1
        (selectSummaries deduped bound deduped.length []).2 out
  answers : ∀ bound, maxChars = some bound → 0 < bound →
    let deduped := deduplicatedSummaryTexts summaryTexts
    (selectSummaries deduped bound deduped.length []).1 ≠ [] →
      (formatCompactionSummaryContext summaryTexts maxChars).isSome

/-- Wherever a summary is packed by its sections, those that are kept have no line separator but the
line feed. -/
def KeptSectionsFeed (summaryTexts : List Text) (maxChars : Option Int) : Prop :=
  let deduped := deduplicatedSummaryTexts summaryTexts
  ∀ bound, maxChars = some bound → 0 < bound → bound < (fullRendering deduped).length →
    StepsKeepFeeds deduped bound

variable {summaryTexts : List Text}

theorem format_bounded {bound : Int} (nonempty : deduplicatedSummaryTexts summaryTexts ≠ [])
    (positive : 0 < bound) (long : bound < (fullRendering (deduplicatedSummaryTexts summaryTexts)).length) :
    formatCompactionSummaryContext summaryTexts (some bound) =
      (let deduped := deduplicatedSummaryTexts summaryTexts
       let selection := selectSummaries deduped bound deduped.length []
       let bounded := renderSummaryContextBlocks (selection.1.map blockOf) selection.2
       if bounded.length ≤ bound then some bounded else none) := by
  unfold formatCompactionSummaryContext
  simp only [if_neg nonempty, if_neg (Int.not_le.mpr long), if_neg (Int.not_le.mpr positive)]

theorem showsFaithfully_of_reached {deduped : List Text} {bound : Int} {selected : List (Nat × Rendered)}
    {left : Nat} (reached : Reached deduped bound left selected) (faithful : AllFaithful deduped selected) :
    ShowsFaithfully deduped selected left (renderSummaryContextBlocks (selected.map blockOf) left) :=
  ⟨reached.index_le, reached.numbers, reached.rendering left, faithful⟩

variable {maxChars : Option Int}

theorem format_whole (nonempty : deduplicatedSummaryTexts summaryTexts ≠ [])
    (fits : ∀ bound, maxChars = some bound →
      ((fullRendering (deduplicatedSummaryTexts summaryTexts)).length : Int) ≤ bound) :
    formatCompactionSummaryContext summaryTexts maxChars =
      some (fullRendering (deduplicatedSummaryTexts summaryTexts)) := by
  unfold formatCompactionSummaryContext
  cases maxChars with
  | none => simp only [if_neg nonempty]
  | some bound => simp only [if_neg nonempty, if_pos (fits bound rfl)]

theorem nonempty_of_format {out : Text}
    (rendered : formatCompactionSummaryContext summaryTexts maxChars = some out) :
    deduplicatedSummaryTexts summaryTexts ≠ [] := by
  intro none
  unfold formatCompactionSummaryContext at rendered
  simp only [if_pos none] at rendered
  cases rendered

theorem positive_of_format {bound : Int} {out : Text}
    (rendered : formatCompactionSummaryContext summaryTexts (some bound) = some out)
    (long : bound < (fullRendering (deduplicatedSummaryTexts summaryTexts)).length) : 0 < bound := by
  by_contra nothing
  have nonempty := nonempty_of_format rendered
  unfold formatCompactionSummaryContext at rendered
  simp only [if_neg nonempty, if_neg (Int.not_le.mpr long),
    if_pos (Int.not_lt.mp nothing)] at rendered
  cases rendered

theorem nonempty_of_selected {deduped : List Text} {bound : Int}
    (shown : (selectSummaries deduped bound deduped.length []).1 ≠ []) : deduped ≠ [] := by
  rintro rfl
  exact shown rfl

theorem rendersWithin_of_keptSectionsFeed
    (keeps : KeptSectionsFeed summaryTexts maxChars) : RendersWithin summaryTexts maxChars where
  whole := format_whole
  bounded := by
    rintro out rendered bound rfl
    rcases Int.lt_or_le bound (fullRendering (deduplicatedSummaryTexts summaryTexts)).length with long | fits
    · rw [format_bounded (nonempty_of_format rendered) (positive_of_format rendered long) long] at rendered
      simp only at rendered
      split at rendered
      next short =>
        rw [← Option.some.inj rendered]
        exact short
      next => cases rendered
    · rw [format_whole (nonempty_of_format rendered) (by rintro _ ⟨⟩; exact fits)] at rendered
      rw [← Option.some.inj rendered]
      exact fits
  shows := by
    rintro out rendered bound rfl long
    have positive := positive_of_format rendered long
    rw [format_bounded (nonempty_of_format rendered) positive long] at rendered
    simp only at rendered
    split at rendered
    next =>
      have reached :=
        (selectSummaries_reached (.start : Reached (deduplicatedSummaryTexts summaryTexts) bound _ [])).1
      have faithful :=
        reached.allFaithful (trimmed_deduplicated summaryTexts) (keeps bound rfl positive long)
      rw [← Option.some.inj rendered]
      exact showsFaithfully_of_reached reached faithful
    next => cases rendered
  answers := by
    rintro bound rfl positive deduped shown
    have nonempty := nonempty_of_selected shown
    rcases Int.lt_or_le bound (fullRendering deduped).length with long | fits
    · have reached := (selectSummaries_reached (.start : Reached deduped bound _ [])).1
      rw [format_bounded nonempty positive long]
      dsimp only
      rw [if_pos (reached.fits shown)]
      rfl
    · rw [format_whole nonempty (by rintro _ ⟨⟩; exact fits)]
      rfl

theorem keptSectionsFeed_of_rendersWithin
    (renders : RendersWithin summaryTexts maxChars) : KeptSectionsFeed summaryTexts maxChars := by
  intro bound bounded positive long
  subst bounded
  refine stepsKeepFeeds_of_allFaithful (trimmed_deduplicated summaryTexts) ?_
  intro shown
  have nonempty := nonempty_of_selected shown
  -- what has been selected fits, so there is a rendering
  have reached :=
    (selectSummaries_reached (.start : Reached (deduplicatedSummaryTexts summaryTexts) bound _ [])).1
  have rendered := format_bounded nonempty positive long
  simp only [if_pos (reached.fits shown)] at rendered
  exact (renders.shows _ rendered bound rfl long).faithful

theorem checkpoints_render_within (summaryTexts : List Text) (maxChars : Option Int) :
    RendersWithin summaryTexts maxChars ↔ KeptSectionsFeed summaryTexts maxChars :=
  ⟨keptSectionsFeed_of_rendersWithin, rendersWithin_of_keptSectionsFeed⟩

-- A section with a line separator of its own (U+2028), and one that is too long.
def separatedGoal : Text :=
  structuredHeader ++ "\n\nGoal:\nship".toList ++ [Char.ofNat 0x2028] ++ "test\n\nNext Action:\n".toList ++
    List.replicate 200 'x'

theorem kept_separator_becomes_line_feed :
    ¬∀ (summaryTexts : List Text) (maxChars : Option Int), RendersWithin summaryTexts maxChars := by
  intro renders
  have keeps := keptSectionsFeed_of_rendersWithin (renders [separatedGoal] (some 220))
  have step := keeps 220 rfl (by decide) (by decide +kernel) 0 [] .start
  have newest : (deduplicatedSummaryTexts [separatedGoal]).getD 0 [] = separatedGoal := by decide +kernel
  have feeds := step (by decide +kernel) (by decide +kernel)
  rw [newest] at feeds
  have goal : ("Goal".toList,
      ["Goal:\n".toList, "ship".toList ++ [Char.ofNat 0x2028], "test\n".toList, "\n".toList]) ∈
      structuredBlocks separatedGoal := by decide +kernel
  have kept := feeds _ goal (by decide +kernel)
  revert kept
  decide

end OpenSquilla.Checkpoints
