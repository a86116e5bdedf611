import Mathlib.Data.List.Perm.Basic
import OpenSquilla.Patches.Update
import OpenSquilla.Shared.RaisingRuns

set_option autoImplicit false

namespace OpenSquilla.Patches

open TextLines

-- A line without its end and the spaces and tabs before it.
def bare (line : Text) : Text := rstrip (fun c => c = ' ' || c = '\t') (rstripNewline line)

def oldLines (lines : List Text) : List Text := (lines.filter isOldLine).map List.tail

-- From the position on, the file has the old lines of the hunk.
def Fits (fileLines : List Text) (hunk : Hunk) (pos : Nat) : Prop :=
  pos ≤ fileLines.length ∧ (oldLines hunk.lines).map bare <+: (fileLines.drop pos).map bare

def TrailingBlanks (core line : Text) : Prop :=
  ∃ blanks ends, line = core ++ blanks ++ ends ∧
    (∀ c ∈ blanks, c = ' ' ∨ c = '\t') ∧ (∀ c ∈ ends, c = '\r' ∨ c = '\n')

-- Two lines that differ in trailing spaces and tabs at most, and in how they end.
def Alike (actual expected : Text) : Prop :=
  ∃ core, TrailingBlanks core actual ∧ TrailingBlanks core expected

/-- The position of a hunk: the declared one, or the only one that fits when that does not. -/
structure Anchored (fileLines : List Text) (hunk : Hunk) (pos : Nat) : Prop where
  fits : Fits fileLines hunk pos
  alike : ∀ index expected, (oldLines hunk.lines)[index]? = some expected →
    ∃ actual, fileLines[pos + index]? = some actual ∧ Alike actual expected
  declared : pos ≠ hunk.oldStart - 1 → ¬Fits fileLines hunk (hunk.oldStart - 1)
  unique : pos ≠ hunk.oldStart - 1 → ∀ other, Fits fileLines hunk other → other = pos

theorem rstrip_split (strips : Char → Bool) (text : Text) :
    ∃ stripped, text = rstrip strips text ++ stripped ∧ ∀ c ∈ stripped, strips c := by
  refine ⟨text.rtakeWhile strips, List.rdropWhile_append_rtakeWhile.symm, ?_⟩
  intro c mem
  exact List.mem_rtakeWhile_imp mem

theorem trailingBlanks_bare (line : Text) : TrailingBlanks (bare line) line := by
  obtain ⟨ends, whole, areEnds⟩ := rstrip_split (fun c => c = '\r' || c = '\n') line
  obtain ⟨blanks, inner, areBlanks⟩ :=
    rstrip_split (fun c => c = ' ' || c = '\t') (rstripNewline line)
  refine ⟨blanks, ends, ?_, by simpa using areBlanks, by simpa using areEnds⟩
  have unended : rstripNewline line = bare line ++ blanks := inner
  rw [← unended]
  exact whole

theorem alike_of_bare {actual expected : Text} (same : bare actual = bare expected) : Alike actual expected :=
  ⟨bare expected, same ▸ trailingBlanks_bare actual, trailingBlanks_bare expected⟩

theorem matchLine_iff (actual expected : Text) :
    matchLine actual expected ↔ bare actual = bare expected := by
  unfold matchLine
  simp only [Bool.or_eq_true, decide_eq_true_eq]
  constructor
  · rintro (rfl | same)
    · rfl
    · exact same
  · exact Or.inr

section Anchors

variable {fileLines : List Text} {hunk : Hunk} {pos : Nat}

theorem oldLines_cons_old {raw : Text} (old : isOldLine raw) (rest : List Text) :
    oldLines (raw :: rest) = raw.tail :: oldLines rest := by
  simp [oldLines, old]

theorem oldLines_cons_new {raw : Text} (new : ¬isOldLine raw) (rest : List Text) :
    oldLines (raw :: rest) = oldLines rest := by
  simp [oldLines, new]

theorem verifyLines_iff (lines : List Text) (checkPos : Nat) : verifyLines fileLines checkPos lines = none ↔
      (oldLines lines).map bare <+: (fileLines.drop checkPos).map bare := by
  induction lines generalizing checkPos with
  | nil => simp [verifyLines, oldLines]
  | cons raw rest ih =>
    unfold verifyLines
    split
    next old =>
      rw [oldLines_cons_old old, List.map_cons]
      cases found : fileLines[checkPos]? with
      | none =>
        have ended : fileLines.drop checkPos = [] :=
          List.drop_eq_nil_of_le (List.getElem?_eq_none_iff.mp found)
        simp [ended]
      | some actual =>
        have here : fileLines.drop checkPos = actual :: fileLines.drop (checkPos + 1) := by
          obtain ⟨inside, same⟩ := List.getElem?_eq_some_iff.mp found
          rw [List.drop_eq_getElem_cons inside, same]
        rw [here, List.map_cons, List.cons_prefix_cons, ← ih (checkPos + 1)]
        dsimp only
        by_cases matched : matchLine actual raw.tail
        · rw [if_pos matched]
          simp [((matchLine_iff _ _).mp matched).symm]
        · have different : bare raw.tail ≠ bare actual := fun same =>
            matched ((matchLine_iff _ _).mpr same.symm)
          rw [if_neg matched]
          simp [different]
    next new => rw [oldLines_cons_new new, ih checkPos]

theorem hunkVerifyError_iff : hunkVerifyError fileLines pos hunk = none ↔ Fits fileLines hunk pos := by
  unfold hunkVerifyError Fits
  split
  next outside => simp [Nat.not_le.mpr outside]
  next inside => simp [verifyLines_iff, Nat.le_of_not_lt inside]

theorem findUnique_some {candidates : List Nat} {first : Nat} {found : Option Nat}
    (unique : findUnique fileLines hunk candidates (some first) = .ok found) :
    found = some first ∧ ∀ other ∈ candidates, ¬Fits fileLines hunk other := by
  induction candidates with
  | nil => exact ⟨(Except.ok.inj unique).symm, nofun⟩
  | cons candidate rest ih =>
    unfold findUnique at unique
    split at unique
    next misfit =>
      obtain ⟨same, others⟩ := ih unique
      refine ⟨same, List.forall_mem_cons.mpr ⟨fun fits => ?_, others⟩⟩
      rw [hunkVerifyError_iff.mpr fits] at misfit
      cases misfit
    next fits => cases unique

theorem findUnique_only {candidates : List Nat}
    (unique : findUnique fileLines hunk candidates none = .ok (some pos)) :
    ∀ other ∈ candidates, Fits fileLines hunk other → other = pos := by
  induction candidates with
  | nil => nofun
  | cons candidate rest ih =>
    unfold findUnique at unique
    split at unique
    next misfit =>
      refine List.forall_mem_cons.mpr ⟨fun fits => ?_, ih unique⟩
      rw [hunkVerifyError_iff.mpr fits] at misfit
      cases misfit
    next fits =>
      obtain ⟨same, others⟩ := findUnique_some unique
      obtain rfl := Option.some.inj same
      exact List.forall_mem_cons.mpr ⟨fun _ => rfl, fun other mem fit =>
        absurd fit (others other mem)⟩

theorem Fits.alike (fits : Fits fileLines hunk pos) {index : Nat} {expected : Text}
    (old : (oldLines hunk.lines)[index]? = some expected) :
    ∃ actual, fileLines[pos + index]? = some actual ∧ Alike actual expected := by
  have inside : index < ((oldLines hunk.lines).map bare).length := by
    rw [List.length_map]
    exact (List.getElem?_eq_some_iff.mp old).1
  have same := (List.prefix_iff_getElem?.mp fits.2) index inside
  rw [List.getElem?_map, List.getElem?_drop, List.getElem_map] at same
  obtain ⟨actual, found, bares⟩ := Option.map_eq_some_iff.mp same
  refine ⟨actual, found, alike_of_bare ?_⟩
  rw [bares, (List.getElem?_eq_some_iff.mp old).2]

theorem relocateHunk_anchored (resolved : relocateHunk fileLines hunk = .ok pos) :
    Anchored fileLines hunk pos := by
  obtain ⟨verified, counted⟩ := relocateHunk_fits resolved
  have fits := hunkVerifyError_iff.mp verified
  unfold relocateHunk at resolved
  dsimp only at resolved
  rw [if_neg (not_not.mpr counted)] at resolved
  split at resolved
  next =>
    have same : pos = hunk.oldStart - 1 := (Except.ok.inj resolved).symm
    exact ⟨fits, fun _ _ => fits.alike, fun moved => absurd same moved, fun moved => absurd same moved⟩
  next error misfit =>
    have undeclared : ¬Fits fileLines hunk (hunk.oldStart - 1) := by
      intro declared
      rw [hunkVerifyError_iff.mpr declared] at misfit
      cases misfit
    split at resolved
    · cases resolved
    · split at resolved
      · cases resolved
      · cases resolved
      next found unique =>
        obtain rfl := Except.ok.inj resolved
        refine ⟨fits, fun _ _ => fits.alike, fun _ => undeclared, fun _ other fit => ?_⟩
        apply findUnique_only unique other _ fit
        -- what fits is inside of the file, and so among the candidates
        have inside := hunkVerifyError_fits (hunkVerifyError_iff.mpr fit)
        rw [List.mem_range]
        omega

end Anchors

section Order

variable {fileLines : List Text} {planned : List PlannedHunk}

theorem checkOverlap_increasing {previousPos : Int} {previousEnd : Nat} (behind : previousPos ≤ previousEnd)
    (apart : checkOverlap previousPos previousEnd planned = .ok ()) : (∀ item ∈ planned, previousPos < item.1) ∧
      planned.Pairwise (fun first second => first.1 < second.1) := by
  induction planned generalizing previousPos previousEnd with
  | nil => exact ⟨nofun, .nil⟩
  | cons item rest ih =>
    obtain ⟨pos, hunk⟩ := item
    unfold checkOverlap at apart
    split at apart
    · cases apart
    next free =>
      obtain ⟨later, increasing⟩ := ih (by omega) apart
      refine ⟨List.forall_mem_cons.mpr ⟨by omega, fun other mem => ?_⟩, .cons ?_ increasing⟩
      · have := later other mem
        omega
      · intro other mem
        exact Int.ofNat_lt.mp (later other mem)

def Placed (fileLines : List Text) (hunk : Hunk) (item : PlannedHunk) : Prop :=
  relocateHunk fileLines hunk = .ok item.1 ∧ item.2 = hunk

theorem relocateHunks_iff (hunks : List Hunk) (placed : List PlannedHunk) :
    relocateHunks fileLines hunks = .ok placed ↔ List.Forall₂ (Placed fileLines) hunks placed := by
  induction hunks generalizing placed with
  | nil => simp [relocateHunks, eq_comm]
  | cons hunk rest ih =>
    unfold relocateHunks
    rw [List.forall₂_cons_left_iff]
    cases here : relocateHunk fileLines hunk with
    | error raised => simp [Placed, here]
    | ok pos =>
      dsimp only
      constructor
      · intro resolved
        obtain ⟨tail, later, returned⟩ := RaisingRuns.of_map_ok resolved
        exact ⟨(pos, hunk), tail, ⟨here, rfl⟩, (ih tail).mp later, returned.symm⟩
      · rintro ⟨⟨position, same⟩, tail, ⟨resolved, rfl⟩, later, rfl⟩
        rw [here] at resolved
        cases resolved
        rw [(ih tail).mpr later]
        rfl

abbrev byPosition (first second : PlannedHunk) : Prop := first.1 ≤ second.1

instance totalPositions : Std.Total byPosition :=
  ⟨fun first second => Nat.le_total first.1 second.1⟩

instance transPositions : IsTrans PlannedHunk byPosition := ⟨fun _ _ _ => Nat.le_trans⟩

theorem resolveHunks_iff (hunks : List Hunk) : resolveHunks fileLines hunks = .ok planned ↔
      ∃ placed, List.Forall₂ (Placed fileLines) hunks placed ∧
        placed.insertionSort byPosition = planned := by
  constructor
  · intro resolved
    obtain ⟨placed, each, sorted⟩ := RaisingRuns.of_map_ok resolved
    exact ⟨placed, (relocateHunks_iff hunks placed).mp each, sorted⟩
  · rintro ⟨placed, each, rfl⟩
    unfold resolveHunks
    rw [(relocateHunks_iff hunks placed).mpr each]
    rfl

theorem resolveHunks_perm {hunks other : List Hunk} (permuted : hunks.Perm other)
    (resolved : resolveHunks fileLines hunks = .ok planned)
    (increasing : planned.Pairwise (fun first second => first.1 < second.1)) :
    resolveHunks fileLines other = .ok planned := by
  obtain ⟨placed, each, rfl⟩ := (resolveHunks_iff hunks).mp resolved
  obtain ⟨moved, eachMoved, movedPerm⟩ := List.perm_comp_forall₂ permuted.symm each
  refine (resolveHunks_iff other).mpr ⟨moved, eachMoved, ?_⟩
  have distinct : ((placed.insertionSort byPosition).map Prod.fst).Nodup :=
    List.pairwise_map.mpr (increasing.imp Nat.ne_of_lt)
  have samePerm : (moved.insertionSort byPosition).Perm (placed.insertionSort byPosition) :=
    (List.perm_insertionSort byPosition moved).trans
      (movedPerm.trans (List.perm_insertionSort byPosition placed).symm)
  apply List.Perm.eq_of_pairwise _ (List.pairwise_insertionSort byPosition moved)
    (List.pairwise_insertionSort byPosition placed) samePerm
  intro first second mem planned below above
  exact List.inj_on_of_nodup_map distinct (samePerm.mem_iff.mp mem) planned
    (Nat.le_antisymm below above)

theorem applyUpdateContent_iff (content : Text) (hunks : List Hunk) (result : Text) :
    applyUpdateContent content hunks = .ok result ↔
      ∃ planned, resolveHunks (splitKeepends content) hunks = .ok planned ∧
        checkOverlap (-1) 0 planned = .ok () ∧
        (planned.reverse.foldl (fun lines item => applyHunk lines item.2 item.1)
          (splitKeepends content)).flatten = result := by
  unfold applyUpdateContent
  constructor
  · intro accepted
    obtain ⟨planned, resolved, accepted⟩ := RaisingRuns.of_bind_ok accepted
    obtain ⟨_, apart, returned⟩ := RaisingRuns.of_bind_ok accepted
    exact ⟨planned, resolved, apart, Except.ok.inj returned⟩
  · rintro ⟨planned, resolved, apart, rfl⟩
    simp only [resolved, apart, bind, Except.bind]
    rfl

theorem applyUpdateContent_perm {content : Text} {hunks other : List Hunk} {result : Text}
    (permuted : hunks.Perm other) (accepted : applyUpdateContent content hunks = .ok result) :
    applyUpdateContent content other = .ok result := by
  obtain ⟨planned, resolved, apart, returned⟩ := (applyUpdateContent_iff content hunks result).mp accepted
  have increasing := (checkOverlap_increasing (by decide) apart).2
  exact (applyUpdateContent_iff content other result).mpr
    ⟨planned, resolveHunks_perm permuted resolved increasing, apart, returned⟩

end Order

/-- Which positions an update takes, and that the order of its hunks does not matter. -/
structure UnambiguousUpdate (content : Text) (hunks : List Hunk) : Prop where
  anchored : ∀ result, applyUpdateContent content hunks = .ok result →
    ∃ planned : List PlannedHunk, (planned.map Prod.snd).Perm hunks ∧
      (planned.reverse.foldl (fun lines item => applyHunk lines item.2 item.1)
        (splitKeepends content)).flatten = result ∧
      result = (spliced (splitKeepends content) 0 planned).flatten ∧
      ∀ item ∈ planned, Anchored (splitKeepends content) item.2 item.1
  -- either both raise, or both give one text
  unordered : ∀ other, hunks.Perm other →
    (applyUpdateContent content hunks).toOption = (applyUpdateContent content other).toOption

theorem update_unambiguous (content : Text) (hunks : List Hunk) : UnambiguousUpdate content hunks := by
  constructor
  case anchored =>
    intro result accepted
    obtain ⟨planned, resolved, apart, applied⟩ :=
      (applyUpdateContent_iff content hunks result).mp accepted
    obtain ⟨planned', resolved', _, written⟩ := applyUpdateContent_ok accepted
    obtain rfl := Except.ok.inj (resolved.symm.trans resolved')
    obtain ⟨perm, positions⟩ := resolveHunks_spec resolved
    exact ⟨planned, perm, applied, written, fun item mem =>
      relocateHunk_anchored (positions item mem)⟩
  case unordered =>
    intro other permuted
    cases first : applyUpdateContent content hunks with
    | ok result => rw [applyUpdateContent_perm permuted first]
    | error raised =>
      cases second : applyUpdateContent content other with
      | error raised' => rfl
      | ok result =>
        rw [applyUpdateContent_perm permuted.symm second] at first
        cases first

end OpenSquilla.Patches
