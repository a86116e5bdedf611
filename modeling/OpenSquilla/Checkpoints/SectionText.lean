import OpenSquilla.Checkpoints.SummaryContext

set_option autoImplicit false

namespace OpenSquilla.Checkpoints

open TextLines TextScan

def Blank (text : Text) : Prop := ∀ c ∈ text, isSpace c = true

instance (text : Text) : Decidable (Blank text) := inferInstanceAs (Decidable (∀ c ∈ text, isSpace c = true))

theorem isSpace_of_isLineBreak {c : Char} (breaks : isLineBreak c = true) : isSpace c = true := by
  have each : ∀ code ∈ lineBreaks, code ∈ spaces := by decide
  rw [isLineBreak, List.contains_eq_mem, decide_eq_true_eq] at breaks
  rw [isSpace, List.contains_eq_mem, decide_eq_true_eq]
  exact each _ breaks

theorem rstrip_append_blank {text blanks : Text} (blank : Blank blanks) :
    rstrip (text ++ blanks) = rstrip text := by
  have all : blanks.reverse.dropWhile isSpace = [] :=
    List.dropWhile_eq_nil_iff.mpr fun c mem => blank c (List.mem_reverse.mp mem)
  rw [rstrip, rstrip, List.rdropWhile, List.rdropWhile, List.reverse_append, List.dropWhile_append, all]
  rfl

theorem rstrip_append_of_not_blank {text more : Text} (solid : ¬Blank more) :
    rstrip (text ++ more) = text ++ rstrip more := by
  have some : more.reverse.dropWhile isSpace ≠ [] := by
    rw [Ne, List.dropWhile_eq_nil_iff]
    exact fun all => solid fun c mem => all c (List.mem_reverse.mpr mem)
  rw [rstrip, rstrip, List.rdropWhile, List.rdropWhile, List.reverse_append, List.dropWhile_append,
    if_neg (by simpa using some), List.reverse_append, List.reverse_reverse]

theorem rstrip_eq_nil_iff {text : Text} : rstrip text = [] ↔ Blank text := by
  rw [rstrip, List.rdropWhile, List.reverse_eq_nil_iff, List.dropWhile_eq_nil_iff]
  simp only [List.mem_reverse, Blank]

theorem rstrip_append_congr (text : Text) {first second : Text} (same : rstrip first = rstrip second) :
    rstrip (text ++ first) = rstrip (text ++ second) := by
  by_cases blank : Blank first
  · have other : Blank second := by rwa [← rstrip_eq_nil_iff, ← same, rstrip_eq_nil_iff]
    rw [rstrip_append_blank blank, rstrip_append_blank other]
  · have other : ¬Blank second := by rwa [← rstrip_eq_nil_iff, ← same, rstrip_eq_nil_iff]
    rw [rstrip_append_of_not_blank blank, rstrip_append_of_not_blank other, same]

theorem blank_append {first second : Text} : Blank (first ++ second) ↔ Blank first ∧ Blank second :=
  List.forall_mem_append

def OnlyFeeds (text : Text) : Prop := ∀ c ∈ text, isLineBreak c = true → c = '\n'

instance (text : Text) : Decidable (OnlyFeeds text) :=
  inferInstanceAs (Decidable (∀ c ∈ text, isLineBreak c = true → c = '\n'))

def fed (lines : List Text) : Text := lines.flatMap fun line => line ++ ['\n']

theorem rstrip_joinLines (lines : List Text) : rstrip (joinLines lines) = rstrip (fed lines) := by
  have feed : Blank ['\n'] := by decide
  induction lines with
  | nil => rfl
  | cons line rest ih =>
    cases rest with
    | nil =>
      rw [joinLines, fed, List.flatMap_singleton, rstrip_append_blank feed]
    | cons next rest =>
      rw [joinLines_cons (List.cons_ne_nil next rest)]
      exact rstrip_append_congr (line ++ ['\n']) ih

def originalText (lines : List Text) : Text := rstrip lines.flatten

def rewrittenText (lines : List Text) : Text := rstrip (joinLines (lines.map lineText))

theorem onlyFeeds_append {first second : Text} : OnlyFeeds (first ++ second) ↔ OnlyFeeds first ∧
    OnlyFeeds second :=
  List.forall_mem_append

theorem onlyFeeds_of_unbroken {line : Text} (unbroken : Unbroken line) : OnlyFeeds line := by
  intro c mem breaks
  rw [unbroken c mem] at breaks
  cases breaks

theorem onlyFeeds_rstrip {text : Text} (feeds : OnlyFeeds text) : OnlyFeeds (rstrip text) :=
  fun c mem => feeds c ((List.rdropWhile_prefix _ _).subset mem)

theorem onlyFeeds_rewrittenText (lines : List Text) : OnlyFeeds (rewrittenText lines) := by
  rw [rewrittenText, rstrip_joinLines]
  refine onlyFeeds_rstrip ?_
  intro c mem
  obtain ⟨line, inside, here⟩ := List.mem_flatMap.mp mem
  obtain ⟨whole, -, rfl⟩ := List.mem_map.mp inside
  have each : OnlyFeeds (lineText whole ++ ['\n']) :=
    onlyFeeds_append.mpr ⟨onlyFeeds_of_unbroken (unbroken_lineText whole), by decide⟩
  exact each c here

theorem blank_terminator {ending : Text} (terminator : Terminator ending) : Blank ending := by
  rcases terminator with rfl | ⟨c, breaks, rfl⟩
  · decide
  · exact List.forall_mem_singleton.mpr (isSpace_of_isLineBreak breaks)

theorem exists_ending {line : Text} (isLine : IsLine line) :
    ∃ ending, Blank ending ∧ line = lineText line ++ ending := by
  cases isLine with
  | ended body ending unbroken terminator =>
    rw [lineText_ended unbroken terminator]
    exact ⟨ending, blank_terminator terminator, rfl⟩
  | unended c body unbroken =>
    rw [lineText_unbroken unbroken]
    exact ⟨[], List.forall_mem_nil _, (List.append_nil _).symm⟩

theorem blank_flatten {lines : List Text} (areLines : ∀ line ∈ lines, IsLine line) :
    Blank lines.flatten ↔ Blank (fed (lines.map lineText)) := by
  induction lines with
  | nil => exact Iff.rfl
  | cons line rest ih =>
    rw [List.forall_mem_cons] at areLines
    obtain ⟨ending, blank, split⟩ := exists_ending areLines.1
    have here : Blank line ↔ Blank (lineText line ++ ['\n']) := by
      have feed : Blank ['\n'] := by decide
      generalize lineText line = body at split
      rw [split, blank_append, blank_append, iff_true_intro blank, iff_true_intro feed]
    rw [List.flatten_cons, List.map_cons, fed, List.flatMap_cons, blank_append, blank_append, ← fed,
        ih areLines.2, here]

theorem ended_of_seamless {line next : Text} {rest : List Text} (seamless : Seamless (line :: next :: rest))
    (isLine : IsLine line) : ∃ body ending, Unbroken body ∧ Terminator ending ∧ line = body ++ ending := by
  cases isLine with
  | ended body ending unbroken terminator => exact ⟨body, ending, unbroken, terminator, rfl⟩
  | unended c body unbroken => exact absurd (.inl unbroken) (List.isChain_cons_cons.mp seamless).1

theorem rewrittenText_of_onlyFeeds {lines : List Text} (areLines : ∀ line ∈ lines, IsLine line)
    (seamless : Seamless lines)
    (feeds : OnlyFeeds (originalText lines)) : rewrittenText lines = originalText lines := by
  rw [rewrittenText, rstrip_joinLines, originalText]
  rw [originalText] at feeds
  induction lines with
  | nil => rfl
  | cons line rest ih =>
    rw [List.forall_mem_cons] at areLines
    have alike := blank_flatten areLines.2
    rw [List.flatten_cons] at feeds ⊢
    rw [List.map_cons, fed, List.flatMap_cons, ← fed]
    by_cases blank : Blank rest.flatten
    · obtain ⟨ending, blankEnding, split⟩ := exists_ending areLines.1
      have feed : Blank ['\n'] := by decide
      rw [rstrip_append_blank (alike.mp blank), rstrip_append_blank blank, rstrip_append_blank feed]
      generalize lineText line = body at split
      rw [split, rstrip_append_blank blankEnding]
    · cases rest with
      | nil => exact absurd (List.forall_mem_nil _) blank
      | cons next rest =>
        obtain ⟨body, ending, unbroken, terminator, rfl⟩ := ended_of_seamless seamless areLines.1
        rw [rstrip_append_of_not_blank blank, onlyFeeds_append, onlyFeeds_append] at feeds
        have feed : ending = ['\n'] := by
          rcases terminator with rfl | ⟨c, breaks, rfl⟩
          · exact absurd (feeds.1.2 '\r' (List.mem_cons_self ..) isLineBreak_cr) (by decide)
          · rw [feeds.1.2 c (List.mem_singleton_self c) breaks]
        rw [lineText_ended unbroken terminator, feed]
        exact rstrip_append_congr _ (ih areLines.2 (List.isChain_cons_cons.mp seamless).2 feeds.2)

theorem rewrittenText_eq_iff {lines : List Text} (areLines : ∀ line ∈ lines, IsLine line)
    (seamless : Seamless lines) :
    rewrittenText lines = originalText lines ↔ OnlyFeeds (originalText lines) := by
  constructor
  · intro same
    rw [← same]
    exact onlyFeeds_rewrittenText lines
  · exact rewrittenText_of_onlyFeeds areLines seamless

-- The lines of each section of a text, as they are ended in it.
def structuredBlocks (text : Text) : List (Text × List Text) :=
  (sectionBlocks lineText true ((splitKeepends text).drop 1)).2

theorem sectionBlocks_map {α β : Type} (line : β → Text) (f : α → β) (boundary : Bool) (items : List α) :
    sectionBlocks line boundary (items.map f) =
      ((sectionBlocks (line ∘ f) boundary items).1.map f,
        (sectionBlocks (line ∘ f) boundary items).2.map fun block => (block.1, block.2.map f)) := by
  induction items generalizing boundary with
  | nil => rfl
  | cons first rest ih =>
    rw [List.map_cons, sectionBlocks, sectionBlocks, ih]
    simp only [Function.comp_apply]
    split <;> rfl

theorem sectionBlocks_flatten {α : Type} (line : α → Text) (boundary : Bool) (items : List α) :
    (sectionBlocks line boundary items).1 ++ (sectionBlocks line boundary items).2.flatMap Prod.snd = items := by
  induction items generalizing boundary with
  | nil => rfl
  | cons first rest ih =>
    have behind := ih (isBlankLine (line first))
    rw [sectionBlocks]
    generalize sectionBlocks line (isBlankLine (line first)) rest = later at behind ⊢
    obtain ⟨before, blocks⟩ := later
    cases sectionTitle boundary (line first) with
    | some title =>
      simp only [List.nil_append, List.flatMap_cons, List.cons_append]
      rw [behind]
    | none =>
      simp only [List.cons_append]
      rw [behind]

theorem seamless_splitKeepends (text : Text) : Seamless (splitKeepends text) := by
  rcases splitKeepends_flatten_cases (isLine_of_mem_splitKeepends text) with ⟨seamless, -⟩ | ⟨-, fewer⟩
  · exact seamless
  · rw [flatten_splitKeepends] at fewer
    exact absurd fewer (Nat.lt_irrefl _)

theorem structuredBlocks_infix {text : Text} {block : Text × List Text} (mem : block ∈ structuredBlocks text) :
    block.2 <:+: splitKeepends text := by
  have all := sectionBlocks_flatten lineText true ((splitKeepends text).drop 1)
  obtain ⟨before, after, split⟩ := List.append_of_mem mem
  have inside : block.2 <:+: (structuredBlocks text).flatMap Prod.snd := by
    rw [split, List.flatMap_append, List.flatMap_cons]
    exact ⟨before.flatMap Prod.snd, after.flatMap Prod.snd, by rw [List.append_assoc]⟩
  have behind : (structuredBlocks text).flatMap Prod.snd <:+ (splitKeepends text).drop 1 := ⟨_, all⟩
  exact (inside.trans behind.isInfix).trans (List.drop_suffix 1 _).isInfix

theorem rewrittenText_block {text : Text} {block : Text × List Text} (mem : block ∈ structuredBlocks text) :
    rewrittenText block.2 = originalText block.2 ↔ OnlyFeeds (originalText block.2) := by
  have inside := structuredBlocks_infix mem
  exact rewrittenText_eq_iff (fun line inBlock => isLine_of_mem_splitKeepends text line (inside.subset inBlock))
    ( List.IsChain.infix (seamless_splitKeepends text) inside)

theorem split_eq_some {text : Text} {sections : List Section}
    (split : splitStructuredSummarySections text = some sections) :
    sections = (structuredBlocks text).map fun block => ⟨block.1, rewrittenText block.2⟩ := by
  rw [splitStructuredSummarySections] at split
  cases lines : splitKeepends text with
  | nil =>
    rw [splitLines, lines] at split
    cases split
  | cons first rest =>
    have blocks := sectionBlocks_map id lineText true rest
    rw [splitLines, lines, List.map_cons] at split
    simp only [blocks] at split
    split at split
    · cases split
    split at split
    · cases split
    split at split
    · cases split
    rw [← Option.some.inj split, structuredBlocks, lines, List.drop_one, List.tail_cons, List.map_map]
    rfl

-- How a summary may be shown: as it is, section by section, or by its two ends.
inductive Faithful (text : Text) : Rendered → Prop
  | whole : Faithful text (.whole text)
  -- each section character for character, or its title with the marker
  | sections (parts : List Text) (structured : (splitStructuredSummarySections text).isSome = true)
      (each : List.Forall₂ (fun block part => part = originalText block.2 ∨ part = omittedSection block.1)
        (structuredBlocks text) parts) : Faithful text (.sections parts)
  | edges (head middle tail : Text) (other : splitStructuredSummarySections text = none)
      (split : text = head ++ middle ++ tail) : Faithful text (.edges head tail)

-- The sections of a structured text that are kept within the budget.
def keptSections (text : Text) (budget : Int) : List Text :=
  keepSections ((structuredBlocks text).map fun block =>
    ⟨block.1, rewrittenText block.2⟩) budget sectionPriority []

/-- Every section that is kept has no line separator but the line feed, or is the marker itself. -/
def KeepsFeeds (text : Text) (budget : Int) : Prop :=
  ∀ block ∈ structuredBlocks text, block.1 ∈ keptSections text budget →
    OnlyFeeds (originalText block.2) ∨ rewrittenText block.2 = omittedSection block.1

theorem keepSections_fits {sections : List Section} {budget : Int} (titles : List Text) {kept : List Text}
    (fits : (renderStructuredSections (packedWith sections kept)).length ≤ budget) :
    (renderStructuredSections (packedWith sections (keepSections sections budget titles kept))).length ≤
      budget := by
  induction titles generalizing kept with
  | nil => exact fits
  | cons title rest ih =>
    rw [keepSections]
    split
    · rename_i tried
      exact ih tried.2
    · exact ih fits

theorem packStructured_eq_some {text : Text} {budget : Int} {parts : List Text}
    (packed : packStructuredSummarySections text budget = some parts) :
    (splitStructuredSummarySections text).isSome = true ∧
      (renderStructuredSections parts).length ≤ budget ∧
      parts = (structuredBlocks text).map fun block =>
        if block.1 ∈ keptSections text budget then rewrittenText block.2 else omittedSection block.1 := by
  rw [packStructuredSummarySections] at packed
  cases split : splitStructuredSummarySections text with
  | none =>
    rw [split] at packed
    cases packed
  | some sections =>
    simp only [split] at packed
    split at packed
    · cases packed
    · rename_i fits
      obtain rfl := Option.some.inj packed
      refine ⟨rfl, keepSections_fits _ (Int.not_lt.mp fits), ?_⟩
      rw [keptSections, ← split_eq_some split, packedWith, split_eq_some split, List.map_map]
      rfl

theorem faithful_sections_iff {text : Text} {budget : Int} {parts : List Text}
    (packed : packStructuredSummarySections text budget = some parts) :
    Faithful text (.sections parts) ↔ KeepsFeeds text budget := by
  obtain ⟨structured, -, made⟩ := packStructured_eq_some packed
  have each : List.Forall₂ (fun block part => part = originalText block.2 ∨ part = omittedSection block.1)
      (structuredBlocks text) parts ↔ KeepsFeeds text budget := by
    rw [made, List.forall₂_map_right_iff, List.forall₂_same]
    refine forall₂_congr fun block mem => ?_
    split
    · rename_i kept
      rw [rewrittenText_block mem]
      exact ⟨fun shown _ => shown, fun shown => shown kept⟩
    · rename_i left
      exact ⟨fun _ kept => absurd kept left, fun _ => .inr rfl⟩
  rw [← each]
  constructor
  · intro faithful
    cases faithful with
    | sections _ _ each => exact each
  · exact .sections parts structured

end OpenSquilla.Checkpoints
