import Mathlib.Data.List.DropRight
import OpenSquilla.Shared.TextLines

set_option autoImplicit false

namespace TextScan

open TextLines

def spaces : List Nat :=
  [9, 10, 11, 12, 13, 28, 29, 30, 31, 32, 133, 160, 5760, 8192, 8193, 8194, 8195, 8196, 8197, 8198,
   8199, 8200, 8201, 8202, 8232, 8233, 8239, 8287, 12288]

def isSpace (c : Char) : Bool := spaces.contains c.toNat

def strip (text : Text) : Text := (text.dropWhile isSpace).rdropWhile isSpace

-- the digits of one script follow its zero
def decimalZeros : List Nat :=
  [48, 1632, 1776, 1984, 2406, 2534, 2662, 2790, 2918, 3046, 3174, 3302, 3430, 3558, 3664, 3792, 3872,
   4160, 4240, 6112, 6160, 6470, 6608, 6784, 6800, 6992, 7088, 7232, 7248, 42528, 43216, 43264, 43472,
   43504, 43600, 44016, 65296, 66720, 68912, 69734, 69872, 69942, 70096, 70384, 70736, 70864, 71248,
   71360, 71472, 71904, 72016, 72784, 73040, 73120, 73552, 92768, 92864, 93008, 120782, 120792, 120802,
   120812, 120822, 123200, 123632, 124144, 125264, 130032]

def digitValue? (c : Char) : Option Nat :=
  (decimalZeros.find? (fun first => first ≤ c.toNat && c.toNat < first + 10)).map (c.toNat - ·)

def isDigit (c : Char) : Bool := (digitValue? c).isSome

def isHexDigit (c : Char) : Bool := "0123456789abcdef".toList.contains c

-- the limit of `int` and of `int.__repr__`
def maxStrDigits : Nat := 4300

def decimal (digits : Text) : Nat := digits.foldl (fun n c => 10 * n + (digitValue? c).getD 0) 0

def scanText (expected text : Text) : Option Text :=
  if expected.isPrefixOf text then some (text.drop expected.length) else none

def scanSpaces (text : Text) : Option Text :=
  if text.takeWhile isSpace = [] then none else some (text.dropWhile isSpace)

def scanNat (text : Text) : Option (Nat × Text) :=
  if text.takeWhile isDigit = [] then none
  else some (decimal (text.takeWhile isDigit), text.dropWhile isDigit)

/-- The lines before the first starting one, then each starting line with those that follow it. -/
def sections (starts : Text → Bool) : List Text → List Text × List (Text × List Text)
  | [] => ([], [])
  | line :: rest =>
    if starts line then ([], (line, (sections starts rest).1) :: (sections starts rest).2)
    else (line :: (sections starts rest).1, (sections starts rest).2)

def joinLines : List Text → Text
  | [] => []
  | [line] => line
  | line :: rest => line ++ '\n' :: joinLines rest

def splitFeeds : Text → List Text
  | [] => [[]]
  | c :: rest =>
    if c = '\n' then [] :: splitFeeds rest
    else
      match splitFeeds rest with
      | [] => [[c]]
      | piece :: pieces => (c :: piece) :: pieces

theorem digitValue?_of_isDigit {c : Char} (digit : c.isDigit = true) : digitValue? c = some (c.toNat - 48) := by
  have range : 48 ≤ c.toNat ∧ c.toNat ≤ 57 := by
    simp only [Char.isDigit, Bool.and_eq_true, decide_eq_true_eq] at digit
    exact ⟨digit.1, digit.2⟩
  have ascii : decimalZeros.find? (fun first => first ≤ c.toNat && c.toNat < first + 10) = some 48 := by
    rw [decimalZeros, List.find?_cons_of_pos]
    simp only [Bool.and_eq_true, decide_eq_true_eq]
    omega
  rw [digitValue?, ascii, Option.map_some]

theorem decimal_toDigits (n : Nat) : decimal (Nat.toDigits 10 n) = n := by
  have values : ∀ (digits : Text) (value : Nat), (∀ c ∈ digits, c.isDigit = true) →
      digits.foldl (fun n c => 10 * n + (digitValue? c).getD 0) value =
        Nat.ofDigitChars 10 digits value := by
    intro digits
    induction digits with
    | nil => intro value _; rw [List.foldl_nil, Nat.ofDigitChars_nil]
    | cons c rest ih =>
      intro value areDigits
      obtain ⟨here, later⟩ := List.forall_mem_cons.mp areDigits
      rw [List.foldl_cons, ih _ later, Nat.ofDigitChars_cons, digitValue?_of_isDigit here]
      rfl
  rw [decimal, values _ 0 fun c mem => Nat.isDigit_of_mem_toDigits (by decide) (by decide) mem,
    Nat.ofDigitChars_ten_toDigits]

theorem scanNat_toDigits (n : Nat) {rest : Text} (ends : ∀ c, rest.head? = some c → isDigit c = false) :
    scanNat (Nat.toDigits 10 n ++ rest) = some (n, rest) := by
  have digits : ∀ c ∈ Nat.toDigits 10 n, isDigit c = true := fun c mem => by
    rw [isDigit, digitValue?_of_isDigit (Nat.isDigit_of_mem_toDigits (by decide) (by decide) mem),
      Option.isSome_some]
  have stops : rest.takeWhile isDigit = [] := by
    cases rest with
    | nil => rfl
    | cons c rest => rw [List.takeWhile_cons_of_neg (by rw [ends c rfl]; decide)]
  have taken : (Nat.toDigits 10 n ++ rest).takeWhile isDigit = Nat.toDigits 10 n := by
    rw [List.takeWhile_append_of_pos digits, stops, List.append_nil]
  have left : (Nat.toDigits 10 n ++ rest).dropWhile isDigit = rest := by
    rw [List.dropWhile_append_of_pos digits]
    have whole := List.takeWhile_append_dropWhile (p := isDigit) (l := rest)
    rwa [stops, List.nil_append] at whole
  rw [scanNat, taken, left, if_neg Nat.toDigits_ne_nil, decimal_toDigits]

theorem scanText_append (expected rest : Text) : scanText expected (expected ++ rest) = some rest := by
  rw [scanText, if_pos (List.isPrefixOf_iff_prefix.mpr (List.prefix_append _ _)), List.drop_left]

theorem strip_cons {c : Char} (plain : isSpace c = false) (rest : Text) :
    strip (c :: rest) = c :: rest.rdropWhile isSpace := by
  rw [strip, List.dropWhile_cons_of_neg (by simp [plain]), List.rdropWhile, List.rdropWhile,
    List.reverse_cons, List.dropWhile_append]
  split
  next blank =>
    rw [List.isEmpty_iff.mp blank, List.dropWhile_cons_of_neg (by simp [plain])]
    rfl
  next => rw [List.reverse_append, List.reverse_singleton, List.singleton_append]

theorem strip_strip (text : Text) : strip (strip text) = strip text := by
  have first := List.head?_dropWhile_not isSpace text
  cases front : text.dropWhile isSpace with
  | nil =>
    have blank : strip text = [] := by
      rw [strip, front]
      rfl
    rw [blank]
    rfl
  | cons c rest =>
    rw [front] at first
    have stripped : strip text = c :: rest.rdropWhile isSpace := by
      rw [← strip_cons first, strip, front, strip, List.dropWhile_cons_of_neg (by simpa using first)]
    rw [stripped, strip_cons first, List.rdropWhile_idempotent]

theorem strip_of_edges {text : Text} (head : ∀ c, text.head? = some c → isSpace c = false)
    (last : ∀ c, text.getLast? = some c → isSpace c = false) : strip text = text := by
  have front : text.dropWhile isSpace = text := by
    cases text with
    | nil => rfl
    | cons c rest => rw [List.dropWhile_cons_of_neg (by simp [head c rfl])]
  rw [strip, front, List.rdropWhile_eq_self_iff]
  intro nonempty
  rw [last _ (List.getLast?_eq_some_getLast nonempty)]
  decide

section Sections

variable {starts : Text → Bool}

theorem sections_append {lines rest : List Text} (none : ∀ line ∈ lines, starts line = false) :
    sections starts (lines ++ rest) =
      (lines ++ (sections starts rest).1, (sections starts rest).2) := by
  induction lines with
  | nil => rfl
  | cons line tail ih =>
    obtain ⟨here, later⟩ := List.forall_mem_cons.mp none
    rw [List.cons_append, sections, here, ih later]
    rfl

theorem mem_of_mem_sections {lines : List Text} : (∀ line ∈ (sections starts lines).1, line ∈ lines) ∧
    ∀ block ∈ (sections starts lines).2, ∀ line ∈ block.2, line ∈ lines := by
  induction lines with
  | nil => exact ⟨by nofun, by nofun⟩
  | cons first rest ih =>
    obtain ⟨lead, blocks⟩ := ih
    have later := fun block mem line inside => List.mem_cons_of_mem first (blocks block mem line inside)
    rw [sections]
    split
    · refine ⟨by nofun, List.forall_mem_cons.mpr ⟨?_, later⟩⟩
      exact fun line inside => List.mem_cons_of_mem first (lead line inside)
    · refine ⟨List.forall_mem_cons.mpr ⟨List.mem_cons_self .., ?_⟩, later⟩
      exact fun line inside => List.mem_cons_of_mem first (lead line inside)

theorem sections_flatMap {α : Type*} (starts : Text → Bool) (header : α → Text) (lines : α → List Text)
    {blocks : List α} (starting : ∀ block ∈ blocks, starts (header block) = true)
    (following : ∀ block ∈ blocks, ∀ line ∈ lines block, starts line = false) :
    sections starts (blocks.flatMap (fun block => header block :: lines block)) =
      ([], blocks.map (fun block => (header block, lines block))) := by
  induction blocks with
  | nil => rfl
  | cons block rest ih =>
    obtain ⟨here, later⟩ := List.forall_mem_cons.mp starting
    obtain ⟨own, others⟩ := List.forall_mem_cons.mp following
    rw [List.flatMap_cons, List.cons_append, sections, here, sections_append own, ih later others]
    simp

end Sections

theorem splitFeeds_ne_nil (text : Text) : splitFeeds text ≠ [] := by
  cases text with
  | nil => exact List.cons_ne_nil _ _
  | cons c rest =>
    rw [splitFeeds]
    split
    · exact List.cons_ne_nil _ _
    · split <;> exact List.cons_ne_nil _ _

theorem joinLines_cons {line : Text} {rest : List Text} (more : rest ≠ []) :
    joinLines (line :: rest) = line ++ ['\n'] ++ joinLines rest := by
  cases rest with
  | nil => exact absurd rfl more
  | cons next rest =>
    rw [joinLines, List.append_assoc, List.singleton_append]
    exact List.cons_ne_nil _ _

theorem joinLines_splitFeeds (text : Text) : joinLines (splitFeeds text) = text := by
  induction text with
  | nil => rfl
  | cons c rest ih =>
    rw [splitFeeds]
    split
    next feed => rw [joinLines_cons (splitFeeds_ne_nil rest), ih, feed, List.nil_append, List.singleton_append]
    next =>
      cases pieces : splitFeeds rest with
      | nil => exact absurd pieces (splitFeeds_ne_nil rest)
      | cons piece others =>
        rw [pieces] at ih
        rw [← ih]
        cases others <;> rfl

theorem unbroken_of_mem_splitFeeds {text : Text} (feeds : ∀ c ∈ text, isLineBreak c = true → c = '\n') :
    ∀ piece ∈ splitFeeds text, Unbroken piece := by
  induction text with
  | nil => simp [splitFeeds, Unbroken]
  | cons c rest ih =>
    obtain ⟨here, later⟩ := List.forall_mem_cons.mp feeds
    have tail := ih later
    rw [splitFeeds]
    split
    · exact List.forall_mem_cons.mpr ⟨by simp [Unbroken], tail⟩
    next noFeed =>
      have plain : isLineBreak c = false := by
        rw [Bool.eq_false_iff]
        exact fun breaks => noFeed (here breaks)
      cases pieces : splitFeeds rest with
      | nil => exact absurd pieces (splitFeeds_ne_nil rest)
      | cons piece others =>
        rw [pieces] at tail
        obtain ⟨first, remaining⟩ := List.forall_mem_cons.mp tail
        exact List.forall_mem_cons.mpr ⟨List.forall_mem_cons.mpr ⟨plain, first⟩, remaining⟩

theorem splitLines_joinLines {lines : List Text} (unbroken : ∀ line ∈ lines, Unbroken line)
    (last : ∀ line, lines.getLast? = some line → line ≠ []) : splitLines (joinLines lines) = lines := by
  induction lines with
  | nil => rfl
  | cons line rest ih =>
    obtain ⟨here, later⟩ := List.forall_mem_cons.mp unbroken
    cases rest with
    | nil =>
      obtain ⟨c, body, rfl⟩ := List.exists_cons_of_ne_nil (last line rfl)
      rw [joinLines, splitLines, splitKeepends_unbroken here, List.map_singleton, lineText_unbroken here]
    | cons next rest =>
      have feed : Terminator ['\n'] := .inr ⟨'\n', isLineBreak_lf, rfl⟩
      have tail := ih later fun line ends => last line (by rw [List.getLast?_cons_cons, ends])
      rw [splitLines] at tail
      rw [joinLines_cons (List.cons_ne_nil _ _), splitLines,
        splitKeepends_append _ here feed (by simp [show '\n' ≠ '\r' by decide]), List.map_cons, tail,
        lineText_ended here feed]

theorem splitLines_joinLines_append {lines rest : List Text} (unbroken : ∀ line ∈ lines, Unbroken line)
    (more : rest ≠ []) : splitLines (joinLines (lines ++ rest)) = lines ++ splitLines (joinLines rest) := by
  induction lines with
  | nil => rfl
  | cons line lines ih =>
    rw [List.forall_mem_cons] at unbroken
    have feed : Terminator ['\n'] := .inr ⟨'\n', isLineBreak_lf, rfl⟩
    rw [List.cons_append, joinLines_cons (by simp [more]), splitLines,
      splitKeepends_append _ unbroken.1 feed (by simp [show '\n' ≠ '\r' by decide]), List.map_cons,
      lineText_ended unbroken.1 feed, ← splitLines, ih unbroken.2, List.cons_append]

theorem splitLines_cons {line rest : Text} (unbroken : Unbroken line) :
    splitLines (line ++ '\n' :: rest) = line :: splitLines rest := by
  have feed : Terminator ['\n'] := .inr ⟨'\n', isLineBreak_lf, rfl⟩
  have cut := splitKeepends_append rest unbroken feed (by simp [show '\n' ≠ '\r' by decide])
  rw [List.append_assoc, List.singleton_append] at cut
  rw [splitLines, cut, List.map_cons, lineText_ended unbroken feed, ← splitLines]

theorem unbroken_toDigits (n : Nat) : Unbroken (Nat.toDigits 10 n) := by
  intro c mem
  have digit := Nat.isDigit_of_mem_toDigits (by decide) (by decide) mem
  simp only [Char.isDigit, Bool.and_eq_true, decide_eq_true_eq] at digit
  have low : 48 ≤ c.toNat := digit.1
  have high : c.toNat ≤ 57 := digit.2
  rw [isLineBreak, List.contains_eq_mem, decide_eq_false_iff_not]
  intro breaks
  simp only [lineBreaks, List.mem_cons, List.not_mem_nil, or_false] at breaks
  omega

end TextScan
