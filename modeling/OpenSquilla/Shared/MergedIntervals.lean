import Mathlib.Data.List.Basic
import Mathlib.Data.List.Induction

set_option autoImplicit false

namespace MergedIntervals

abbrev Interval := Nat × Nat

def addWindow (ranges : List Interval) (window : Interval) : List Interval :=
  match ranges.getLast? with
  | some last =>
    if window.1 ≤ last.2 + 1 then ranges.dropLast ++ [(last.1, max window.2 last.2)] else ranges ++ [window]
  | none => ranges ++ [window]

def Covers (ranges : List Interval) (n : Nat) : Prop := ∃ range ∈ ranges, range.1 ≤ n ∧ n ≤ range.2

structure Merged (ranges : List Interval) : Prop where
  proper : ∀ range ∈ ranges, range.1 ≤ range.2
  apart : ranges.Pairwise fun range next => range.2 + 1 < next.1

@[simp] theorem addWindow_nil (window : Interval) : addWindow [] window = [window] := rfl

theorem addWindow_concat (before : List Interval) (last window : Interval) :
    addWindow (before ++ [last]) window =
      if window.1 ≤ last.2 + 1 then before ++ [(last.1, max window.2 last.2)] else before ++ [last, window] := by
  simp [addWindow]

@[simp] theorem covers_nil (n : Nat) : Covers [] n ↔ False := by simp [Covers]

@[simp] theorem covers_append (before behind : List Interval) (n : Nat) :
    Covers (before ++ behind) n ↔ Covers before n ∨ Covers behind n := by
  simp [Covers, or_and_right, exists_or]

@[simp] theorem covers_cons (range : Interval) (ranges : List Interval) (n : Nat) :
    Covers (range :: ranges) n ↔ (range.1 ≤ n ∧ n ≤ range.2) ∨ Covers ranges n := by
  simp [Covers]

theorem Merged.nil : Merged [] := ⟨by simp, by simp⟩

section Adding

variable {ranges : List Interval} {window : Interval}

theorem covers_addWindow (starts : ∀ range ∈ ranges, range.1 ≤ window.1) (n : Nat) :
    Covers (addWindow ranges window) n ↔ Covers ranges n ∨ (window.1 ≤ n ∧ n ≤ window.2) := by
  induction ranges using List.reverseRecOn with
  | nil => simp
  | append_singleton before last _ =>
    have start := starts last (by simp)
    rw [addWindow_concat]
    split
    next touching =>
      simp only [covers_append, covers_cons, covers_nil, or_false]
      rw [or_assoc]
      refine or_congr_right ?_
      omega
    next => simp [or_assoc]

theorem merged_addWindow (merged : Merged ranges) (proper : window.1 ≤ window.2) :
    Merged (addWindow ranges window) := by
  induction ranges using List.reverseRecOn with
  | nil => exact ⟨by simpa using proper, by simp⟩
  | append_singleton before last _ =>
    obtain ⟨propers, apart⟩ := merged
    simp only [List.forall_mem_append, List.mem_singleton, forall_eq, List.pairwise_append] at propers apart
    rw [addWindow_concat]
    split
    next touching =>
      refine ⟨?_, ?_⟩
      · simp only [List.forall_mem_append, List.mem_singleton, forall_eq]
        exact ⟨propers.1, by omega⟩
      · simp only [List.pairwise_append, List.mem_singleton, forall_eq]
        exact ⟨apart.1, by simp, apart.2.2⟩
    next gap =>
      refine ⟨?_, ?_⟩
      · simp only [List.forall_mem_append, List.forall_mem_cons]
        exact ⟨propers.1, propers.2, proper, by simp⟩
      · simp only [List.pairwise_append, List.pairwise_cons, List.mem_cons, List.not_mem_nil, or_false,
            forall_eq_or_imp,
          forall_eq]
        refine ⟨apart.1, ⟨by omega, by simp⟩, fun range mem => ⟨apart.2.2 range mem, ?_⟩⟩
        have := apart.2.2 range mem
        omega

theorem starts_addWindow {bound : Nat} (starts : ∀ range ∈ ranges, range.1 ≤ bound)
    (here : window.1 ≤ bound) : ∀ range ∈ addWindow ranges window, range.1 ≤ bound := by
  induction ranges using List.reverseRecOn with
  | nil => simpa using here
  | append_singleton before last _ =>
    simp only [List.forall_mem_append, List.mem_singleton, forall_eq] at starts
    rw [addWindow_concat]
    split <;> simp only [List.forall_mem_append, List.forall_mem_cons]
    · exact ⟨starts.1, starts.2, by simp⟩
    · exact ⟨starts.1, starts.2, here, by simp⟩

theorem Covers.addWindow {n : Nat} (covered : Covers ranges n) : Covers (addWindow ranges window) n := by
  induction ranges using List.reverseRecOn with
  | nil => exact absurd ((covers_nil n).1 covered) id
  | append_singleton before last _ =>
    rw [addWindow_concat]
    split <;> simp only [covers_append, covers_cons, covers_nil, or_false] at covered ⊢
    · exact covered.imp_right fun inside => ⟨inside.1, Nat.le_trans inside.2 (Nat.le_max_right _ _)⟩
    · exact covered.imp_right Or.inl

theorem covers_addWindow_window {n : Nat} (starts : ∀ range ∈ ranges, range.1 ≤ n)
    (inside : window.1 ≤ n ∧ n ≤ window.2) : Covers (addWindow ranges window) n := by
  induction ranges using List.reverseRecOn with
  | nil => exact ⟨window, List.mem_cons_self, inside⟩
  | append_singleton before last _ =>
    rw [addWindow_concat]
    split <;> simp only [covers_append, covers_cons, covers_nil, or_false]
    · exact Or.inr ⟨starts last (by simp), Nat.le_trans inside.2 (Nat.le_max_left _ _)⟩
    · exact Or.inr (Or.inr inside)

theorem addWindow_further (before rest : List Interval) (start stop : Nat) (window : Interval) :
    ∃ further later, addWindow (before ++ (start, stop) :: rest) window = before ++ (start, further) :: later ∧
      stop ≤ further := by
  induction rest using List.reverseRecOn with
  | nil =>
    rw [addWindow_concat]
    split
    · exact ⟨_, [], rfl, Nat.le_max_right _ _⟩
    · exact ⟨stop, [window], rfl, Nat.le_refl _⟩
  | append_singleton rest last _ =>
    have shape :
        before ++ (start, stop) :: (rest ++ [last]) = (before ++ (start, stop) :: rest) ++ [last] := by simp
    rw [shape, addWindow_concat]
    split
    · exact ⟨stop, rest ++ [(last.1, max window.2 last.2)], by simp, Nat.le_refl _⟩
    · exact ⟨stop, rest ++ [last, window], by simp, Nat.le_refl _⟩

end Adding

theorem covers_foldl_addWindow {ranges windows : List Interval} (merged : Merged ranges)
    (proper : ∀ window ∈ windows, window.1 ≤ window.2)
    (sorted : windows.Pairwise fun window next => window.1 ≤ next.1)
    (starts : ∀ range ∈ ranges, ∀ window ∈ windows, range.1 ≤ window.1) :
    Merged (windows.foldl addWindow ranges) ∧
      ∀ n, Covers (windows.foldl addWindow ranges) n ↔ Covers ranges n ∨ Covers windows n := by
  induction windows generalizing ranges with
  | nil => simpa using merged
  | cons window windows ih =>
    simp only [List.forall_mem_cons, List.pairwise_cons] at proper sorted starts
    have here : ∀ range ∈ ranges, range.1 ≤ window.1 := fun range mem => (starts range mem).1
    obtain ⟨merged', covers⟩ := ih (merged_addWindow merged proper.1) proper.2 sorted.2
      fun range mem next later => Nat.le_trans (starts_addWindow here (Nat.le_refl _) range mem)
          (sorted.1 next later)
    refine ⟨merged', fun n => ?_⟩
    rw [List.foldl_cons, covers, covers_addWindow here, covers_cons, or_assoc]

/-- The last interval may end before it does with all windows, and others may follow. -/
def CutShort (shown ranges : List Interval) : Prop :=
  shown = [] ∨ ∃ before start stop further later,
    shown = before ++ [(start, stop)] ∧ ranges = before ++ (start, further) :: later ∧ stop ≤ further

theorem foldl_addWindow_further (windows before rest : List Interval) (start stop : Nat) : ∃ further later,
      windows.foldl addWindow (before ++ (start, stop) :: rest) = before ++ (start, further) :: later ∧
      stop ≤ further := by
  induction windows generalizing rest stop with
  | nil => exact ⟨stop, rest, rfl, Nat.le_refl _⟩
  | cons window windows ih =>
    obtain ⟨further, later, same, bound⟩ := addWindow_further before rest start stop window
    obtain ⟨further', later', same', bound'⟩ := ih later further
    exact ⟨further', later', by rw [List.foldl_cons, same, same'], Nat.le_trans bound bound'⟩

theorem cutShort_foldl (shown windows : List Interval) : CutShort shown (windows.foldl addWindow shown) := by
  induction shown using List.reverseRecOn with
  | nil => exact .inl rfl
  | append_singleton before last _ =>
    obtain ⟨further, later, same, bound⟩ := foldl_addWindow_further windows before [] last.1 last.2
    exact .inr ⟨before, last.1, last.2, further, later, rfl, same, bound⟩

end MergedIntervals
