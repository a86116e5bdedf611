import OpenSquilla.Patches.Hunk

set_option autoImplicit false

namespace OpenSquilla.Patches

open TextLines

/-- What a hunk asks for in place of its old lines: its context as the file has it, and its new
lines. -/
def replacement (lines : List Text) : Nat → List Text → List Text
  | _, [] => []
  | srcPos, raw :: rest =>
    match raw with
    | [] => replacement lines srcPos rest
    | mark :: content =>
      if mark = ' ' then lines.getD srcPos [] :: replacement lines (srcPos + 1) rest
      else if mark = '-' then replacement lines (srcPos + 1) rest
      else if mark = '+' then content :: replacement lines srcPos rest
      else replacement lines srcPos rest

-- The lines from a start on, every hunk's range replaced.
def edited (lines : List Text) : Nat → List PlannedHunk → List Text
  | start, [] => lines.drop start
  | start, (pos, hunk) :: rest =>
    (lines.drop start).take (pos - start) ++ replacement lines pos hunk.lines ++
      edited lines (pos + hunk.oldCount) rest

/-- The same with the terminators: those of the file's lines, and a line feed after a new line. -/
def spliced (fileLines : List Text) : Nat → List PlannedHunk → List Text
  | start, [] => fileLines.drop start
  | start, (pos, hunk) :: rest =>
    (fileLines.drop start).take (pos - start) ++ newLines fileLines pos hunk.lines ++
      spliced fileLines (pos + hunk.oldCount) rest

/-- Ranges in the order of their positions, none reaching into the next, from a start on. -/
def Ordered (fileLines : List Text) : Nat → List PlannedHunk → Prop
  | _, [] => True
  | start, (pos, hunk) :: rest =>
    start ≤ pos ∧ pos + hunk.oldCount ≤ fileLines.length ∧
      hunk.lines.countP isOldLine = hunk.oldCount ∧ Ordered fileLines (pos + hunk.oldCount) rest

section Splice

variable {fileLines : List Text}

theorem newLines_congr {first second : List Text} (lines : List Text) (srcPos : Nat)
    (same : ∀ index, index < srcPos + lines.countP isOldLine → first[index]? = second[index]?) :
    newLines first srcPos lines = newLines second srcPos lines := by
  induction lines generalizing srcPos with
  | nil => rfl
  | cons raw rest ih =>
    rw [List.countP_cons] at same
    cases raw with
    | nil => exact ih srcPos fun index inside => same index (by omega)
    | cons mark content =>
      by_cases context : mark = ' '
      · have here := same srcPos (by simp [isOldLine, context])
        have tail := ih (srcPos + 1) fun index inside => same index (by simp [isOldLine, context]; omega)
        simp only [newLines, if_pos context, List.getD_eq_getElem?_getD, here, tail]
      · by_cases deleted : mark = '-'
        · have tail := ih (srcPos + 1) fun index inside => same index (by simp [isOldLine, deleted]; omega)
          simp only [newLines, if_neg context, if_pos deleted, tail]
        · have tail := ih srcPos fun index inside => same index (by omega)
          simp only [newLines, if_neg context, if_neg deleted, tail]

theorem foldr_applyHunk (start : Nat) (planned : List PlannedHunk) (ordered : Ordered fileLines start planned) :
    planned.foldr (fun item lines => applyHunk lines item.2 item.1) fileLines =
      fileLines.take start ++ spliced fileLines start planned := by
  induction planned generalizing start with
  | nil => exact (List.take_append_drop start fileLines).symm
  | cons item rest ih =>
    obtain ⟨pos, hunk⟩ := item
    obtain ⟨after, inside, counted, tail⟩ := ordered
    have taken : (fileLines.take (pos + hunk.oldCount)).length = pos + hunk.oldCount := by
      rw [List.length_take]
      omega
    rw [List.foldr_cons, ih (pos + hunk.oldCount) tail, applyHunk, spliced]
    have before : (fileLines.take (pos + hunk.oldCount) ++
        spliced fileLines (pos + hunk.oldCount) rest).take pos = fileLines.take pos := by
      rw [List.take_append_of_le_length (by omega), List.take_take, Nat.min_eq_left (by omega)]
    have behind : (fileLines.take (pos + hunk.oldCount) ++
        spliced fileLines (pos + hunk.oldCount) rest).drop (pos + hunk.oldCount) =
          spliced fileLines (pos + hunk.oldCount) rest := List.drop_left' taken
    have unmoved : newLines (fileLines.take (pos + hunk.oldCount) ++
        spliced fileLines (pos + hunk.oldCount) rest) pos hunk.lines =
          newLines fileLines pos hunk.lines := by
      refine newLines_congr _ _ fun index below => ?_
      rw [List.getElem?_append_left (by omega), List.getElem?_take_of_lt (by omega)]
    have parts : fileLines.take pos =
        fileLines.take start ++ (fileLines.drop start).take (pos - start) := by
      rw [← List.take_add, Nat.add_sub_cancel' after]
    rw [before, behind, unmoved, parts]
    simp only [List.append_assoc]

theorem unbroken_content {raw : Text} {mark : Char} {content : Text} (unbroken : Unbroken raw)
    (marked : raw = mark :: content) : Unbroken content :=
  fun c mem => unbroken c (marked ▸ List.mem_cons_of_mem _ mem)

theorem addedLine_of_unbroken {content : Text} (unbroken : Unbroken content) :
    addedLine content = content ++ ['\n'] := by
  rw [addedLine, if_neg]
  intro feed
  have plain := unbroken '\n' (List.mem_of_getLast? feed)
  rw [isLineBreak_lf] at plain
  cases plain

theorem lineText_addedLine {content : Text} (unbroken : Unbroken content) :
    lineText (addedLine content) = content := by
  rw [addedLine_of_unbroken unbroken]
  exact lineText_ended unbroken (.inr ⟨'\n', isLineBreak_lf, rfl⟩)

theorem map_newLines (lines : List Text) (srcPos : Nat) (unbroken : ∀ raw ∈ lines, Unbroken raw) :
    (newLines fileLines srcPos lines).map lineText =
      replacement (fileLines.map lineText) srcPos lines := by
  induction lines generalizing srcPos with
  | nil => rfl
  | cons raw rest ih =>
    obtain ⟨here, later⟩ := List.forall_mem_cons.mp unbroken
    have tail := fun srcPos => ih srcPos later
    cases raw with
    | nil => exact tail srcPos
    | cons mark content =>
      have context : lineText (fileLines.getD srcPos []) = (fileLines.map lineText).getD srcPos [] := by
        cases found : fileLines[srcPos]? <;> simp [List.getD_eq_getElem?_getD, found, lineText]
      simp only [newLines, replacement]
      split
      · rw [List.map_cons, tail, context]
      · split
        · exact tail (srcPos + 1)
        · split
          · rw [List.map_cons, tail, lineText_addedLine (unbroken_content here rfl)]
          · exact tail srcPos

theorem map_spliced (start : Nat) (planned : List PlannedHunk)
    (unbroken : ∀ item ∈ planned, ∀ raw ∈ item.2.lines, Unbroken raw) :
    (spliced fileLines start planned).map lineText =
      edited (fileLines.map lineText) start planned := by
  induction planned generalizing start with
  | nil => rw [spliced, edited, List.map_drop]
  | cons item rest ih =>
    obtain ⟨here, later⟩ := List.forall_mem_cons.mp unbroken
    rw [spliced, edited, List.map_append, List.map_append, ih _ later, map_newLines _ _ here,
      List.map_take, List.map_drop]

theorem newLines_forall {P : Text → Prop} (ofFile : ∀ line ∈ fileLines, P line)
    (ofHunk : ∀ content, Unbroken content → P (content ++ ['\n'])) (lines : List Text) (srcPos : Nat)
    (inside : srcPos + lines.countP isOldLine ≤ fileLines.length) (unbroken : ∀ raw ∈ lines, Unbroken raw) :
    ∀ line ∈ newLines fileLines srcPos lines, P line := by
  induction lines generalizing srcPos with
  | nil => nofun
  | cons raw rest ih =>
    obtain ⟨here, later⟩ := List.forall_mem_cons.mp unbroken
    rw [List.countP_cons] at inside
    cases raw with
    | nil => exact ih srcPos (by omega) later
    | cons mark content =>
      simp only [newLines]
      split
      next context =>
        simp only [isOldLine, context, decide_true, Bool.true_or, if_true] at inside
        refine List.forall_mem_cons.mpr ⟨?_, ih (srcPos + 1) (by omega) later⟩
        rw [List.getD_eq_getElem?_getD, List.getElem?_eq_getElem (by omega), Option.getD_some]
        exact ofFile _ (List.getElem_mem _)
      · split
        next deleted =>
          simp only [isOldLine, deleted, decide_true, Bool.or_true, if_true] at inside
          exact ih (srcPos + 1) (by omega) later
        · split
          · refine List.forall_mem_cons.mpr ⟨?_, ih srcPos (by omega) later⟩
            rw [addedLine_of_unbroken (unbroken_content here rfl)]
            exact ofHunk content (unbroken_content here rfl)
          · exact ih srcPos (by omega) later

theorem spliced_forall {P : Text → Prop} (ofFile : ∀ line ∈ fileLines, P line)
    (ofHunk : ∀ content, Unbroken content → P (content ++ ['\n'])) (start : Nat)
    (planned : List PlannedHunk) (ordered : Ordered fileLines start planned)
    (unbroken : ∀ item ∈ planned, ∀ raw ∈ item.2.lines, Unbroken raw) :
    ∀ line ∈ spliced fileLines start planned, P line := by
  induction planned generalizing start with
  | nil => exact fun line mem => ofFile line (List.mem_of_mem_drop mem)
  | cons item rest ih =>
    obtain ⟨pos, hunk⟩ := item
    obtain ⟨after, inside, counted, tail⟩ := ordered
    obtain ⟨here, later⟩ := List.forall_mem_cons.mp unbroken
    intro line mem
    rw [spliced, List.mem_append, List.mem_append] at mem
    rcases mem with (before | new) | behind
    · exact ofFile line (List.mem_of_mem_drop (List.mem_of_mem_take before))
    · exact newLines_forall ofFile ofHunk hunk.lines pos (by omega) here line new
    · exact ih _ tail later line behind

theorem isLine_spliced (areLines : ∀ line ∈ fileLines, IsLine line) (start : Nat)
    (planned : List PlannedHunk) (ordered : Ordered fileLines start planned)
    (unbroken : ∀ item ∈ planned, ∀ raw ∈ item.2.lines, Unbroken raw) :
    ∀ line ∈ spliced fileLines start planned, IsLine line :=
  spliced_forall areLines (fun content plain =>
    .ended content ['\n'] plain (.inr ⟨'\n', isLineBreak_lf, rfl⟩)) start planned ordered unbroken

end Splice

section Plans

variable {fileLines : List Text} {hunks : List Hunk} {planned : List PlannedHunk}

theorem relocateHunks_spec {placed : List PlannedHunk} (resolved : relocateHunks fileLines hunks = .ok placed) :
    placed.map Prod.snd = hunks ∧ ∀ item ∈ placed, relocateHunk fileLines item.2 = .ok item.1 := by
  induction hunks generalizing placed with
  | nil =>
    obtain rfl := Except.ok.inj resolved
    exact ⟨rfl, nofun⟩
  | cons hunk rest ih =>
    unfold relocateHunks at resolved
    split at resolved
    · cases resolved
    next pos here =>
      cases later : relocateHunks fileLines rest with
      | error raised =>
        rw [later] at resolved
        cases resolved
      | ok tail =>
        obtain ⟨hunksOf, positions⟩ := ih later
        rw [later] at resolved
        obtain rfl := Except.ok.inj resolved
        exact ⟨by rw [List.map_cons, hunksOf], List.forall_mem_cons.mpr ⟨here, positions⟩⟩

theorem resolveHunks_spec (resolved : resolveHunks fileLines hunks = .ok planned) :
    (planned.map Prod.snd).Perm hunks ∧ ∀ item ∈ planned, relocateHunk fileLines item.2 = .ok item.1 := by
  unfold resolveHunks at resolved
  cases placed : relocateHunks fileLines hunks with
  | error raised =>
    rw [placed] at resolved
    cases resolved
  | ok items =>
    obtain ⟨hunksOf, positions⟩ := relocateHunks_spec placed
    rw [placed] at resolved
    obtain rfl := Except.ok.inj resolved
    have sorted := List.perm_insertionSort (fun first second : PlannedHunk => first.1 ≤ second.1) items
    exact ⟨hunksOf ▸ sorted.map Prod.snd, fun item mem => positions item (sorted.mem_iff.mp mem)⟩

theorem checkOverlap_ordered {previousPos : Int} {previousEnd : Nat}
    (apart : checkOverlap previousPos previousEnd planned = .ok ())
    (placed : ∀ item ∈ planned, relocateHunk fileLines item.2 = .ok item.1) :
    Ordered fileLines previousEnd planned := by
  induction planned generalizing previousPos previousEnd with
  | nil => trivial
  | cons item rest ih =>
    obtain ⟨pos, hunk⟩ := item
    obtain ⟨here, later⟩ := List.forall_mem_cons.mp placed
    unfold checkOverlap at apart
    split at apart
    · cases apart
    next free =>
      rw [not_or] at free
      exact ⟨Nat.le_of_not_lt free.1, relocateHunk_inside here, (relocateHunk_fits here).2,
        ih apart later⟩

theorem Ordered.disjoint {start : Nat} (ordered : Ordered fileLines start planned) :
    (∀ item ∈ planned, start ≤ item.1) ∧
    planned.Pairwise (fun first second => first.1 + first.2.oldCount ≤ second.1) := by
  induction planned generalizing start with
  | nil => exact ⟨nofun, .nil⟩
  | cons item rest ih =>
    obtain ⟨after, -, -, tail⟩ := ordered
    obtain ⟨behind, apart⟩ := ih tail
    refine ⟨List.forall_mem_cons.mpr ⟨after, fun other mem => ?_⟩, .cons behind apart⟩
    exact after.trans ((Nat.le_add_right _ _).trans (behind other mem))

theorem applyUpdateContent_ok {content result : Text}
    (accepted : applyUpdateContent content hunks = .ok result) :
    ∃ planned, resolveHunks (splitKeepends content) hunks = .ok planned ∧
      Ordered (splitKeepends content) 0 planned ∧
      result = (spliced (splitKeepends content) 0 planned).flatten := by
  unfold applyUpdateContent at accepted
  cases resolved : resolveHunks (splitKeepends content) hunks with
  | error raised => simp [resolved, bind, Except.bind] at accepted
  | ok planned =>
    cases apart : checkOverlap (-1) 0 planned with
    | error raised => simp [resolved, apart, bind, Except.bind] at accepted
    | ok =>
      simp only [resolved, apart, bind, Except.bind, pure, Except.pure, Except.ok.injEq,
        List.foldl_reverse] at accepted
      have ordered := checkOverlap_ordered apart (resolveHunks_spec resolved).2
      have applied := foldr_applyHunk 0 planned ordered
      rw [List.take_zero, List.nil_append] at applied
      exact ⟨planned, rfl, ordered, by rw [← accepted, applied]⟩

end Plans

-- What an update promises, for the positions its hunks resolve to.
structure UpdateContract (content : Text) (hunks : List Hunk) (result : Text)
    (planned : List PlannedHunk) : Prop where
  hunks : (planned.map Prod.snd).Perm hunks
  positions : ∀ item ∈ planned, relocateHunk (splitKeepends content) item.2 = .ok item.1
  inside : ∀ item ∈ planned, item.1 + item.2.oldCount ≤ (splitLines content).length
  disjoint : planned.Pairwise (fun first second => first.1 + first.2.oldCount ≤ second.1)
  lines : splitLines result = edited (splitLines content) 0 planned

/-- An accepted update keeps its promise exactly when no line it puts out runs into the next one:
neither the last line of a file without a final terminator, nor a line ended by a lone carriage
return before an empty line. -/
theorem applyUpdateContent_contract_iff (content : Text) (hunks : List Hunk) (result : Text)
    (unbroken : ∀ hunk ∈ hunks, ∀ raw ∈ hunk.lines, Unbroken raw)
    (accepted : applyUpdateContent content hunks = .ok result) :
    ∃ planned, resolveHunks (splitKeepends content) hunks = .ok planned ∧
      (UpdateContract content hunks result planned ↔
        Seamless (spliced (splitKeepends content) 0 planned)) := by
  obtain ⟨planned, resolved, ordered, rfl⟩ := applyUpdateContent_ok accepted
  refine ⟨planned, resolved, ?_⟩
  obtain ⟨perm, positions⟩ := resolveHunks_spec resolved
  have plannedUnbroken : ∀ item ∈ planned, ∀ raw ∈ item.2.lines, Unbroken raw :=
    fun item mem => unbroken item.2 (perm.mem_iff.mp (List.mem_map_of_mem mem))
  have lines := splitLines_flatten_iff (isLine_spliced (isLine_of_mem_splitKeepends content) 0 planned
    ordered plannedUnbroken)
  rw [map_spliced 0 planned plannedUnbroken, ← splitLines] at lines
  refine ⟨fun contract => lines.mp contract.lines, fun seamless => ?_⟩
  exact
    { hunks := perm
      positions := positions
      inside := fun item mem => by
        rw [splitLines, List.length_map]
        exact relocateHunk_inside (positions item mem)
      disjoint := ordered.disjoint.2
      lines := lines.mpr seamless }

def appendLine : Hunk := ⟨1, 1, 1, 2, [" a".toList, "+b".toList]⟩

theorem update_joins_unterminated_line : applyUpdateContent "a".toList [appendLine] = .ok "ab\n".toList ∧
    resolveHunks (splitKeepends "a".toList) [appendLine] = .ok [(0, appendLine)] ∧
    edited (splitLines "a".toList) 0 [(0, appendLine)] = ["a".toList, "b".toList] ∧
    splitLines "ab\n".toList = ["ab".toList] ∧
    ¬UpdateContract "a".toList [appendLine] "ab\n".toList [(0, appendLine)] := by
  refine ⟨by decide, by decide, by decide, by decide, fun contract => ?_⟩
  exact absurd contract.lines (by decide)

def replaceFirst : Hunk := ⟨1, 2, 1, 2, ["-a".toList, "+c".toList, " b".toList]⟩

theorem applyUpdateContent_contract_replaceFirst :
    UpdateContract "a\nb".toList [replaceFirst] "c\nb".toList [(0, replaceFirst)] := by
  obtain ⟨planned, resolved, iff⟩ := applyUpdateContent_contract_iff "a\nb".toList [replaceFirst]
    "c\nb".toList (by decide) (by decide)
  have place : resolveHunks (splitKeepends "a\nb".toList) [replaceFirst] = .ok [(0, replaceFirst)] := by
    decide
  obtain rfl := Except.ok.inj (place.symm.trans resolved)
  refine iff.mpr ?_
  have lines : spliced (splitKeepends "a\nb".toList) 0 [(0, replaceFirst)] =
      ["c\n".toList, "b".toList] := by decide
  rw [lines]
  exact .cons_cons (by decide) (.singleton _)

end OpenSquilla.Patches
