import Mathlib.Algebra.GroupWithZero.Nat
import Mathlib.Data.List.Infix
import OpenSquilla.Shared.TextLines

set_option autoImplicit false

-- A source is split at its blanks. Single quotes keep what is between them, double quotes keep all
-- but escapes, and a backslash elsewhere keeps the next character.

namespace ShellWords

open TextLines

inductive Mode
  | between
  | word
  | single
  | double
  | escaped (inDouble : Bool)

inductive Unfinished
  | noClosingQuotation
  | noEscapedCharacter

def isBlank (c : Char) : Bool := c = ' ' || c = '\t' || c = '\r' || c = '\n'

def scan : Mode → Text → Text → Except Unfinished (List Text)
  | .between, _, [] => .ok []
  | .word, token, [] => .ok [token]
  | .single, _, [] => .error .noClosingQuotation
  | .double, _, [] => .error .noClosingQuotation
  | .escaped _, _, [] => .error .noEscapedCharacter
  | .between, _, c :: rest =>
    if isBlank c then scan .between [] rest
    else if c = '\\' then scan (.escaped false) [] rest
    else if c = '\'' then scan .single [] rest
    else if c = '"' then scan .double [] rest
    else scan .word [c] rest
  | .word, token, c :: rest =>
    if isBlank c then (scan .between [] rest).map (token :: ·)
    else if c = '\\' then scan (.escaped false) token rest
    else if c = '\'' then scan .single token rest
    else if c = '"' then scan .double token rest
    else scan .word (token ++ [c]) rest
  | .single, token, c :: rest =>
    if c = '\'' then scan .word token rest else scan .single (token ++ [c]) rest
  | .double, token, c :: rest =>
    if c = '"' then scan .word token rest
    else if c = '\\' then scan (.escaped true) token rest
    else scan .double (token ++ [c]) rest
  | .escaped inDouble, token, c :: rest =>
    -- within double quotes only the quote and the backslash can be escaped
    if inDouble && c ≠ '\\' && c ≠ '"' then scan .double (token ++ ['\\', c]) rest
    else scan (if inDouble then .double else .word) (token ++ [c]) rest

def split (source : Text) : Except Unfinished (List Text) := scan .between [] source

def size (words : List Text) : Nat := (words.map List.length).sum

@[simp] theorem size_nil : size [] = 0 := rfl

@[simp] theorem size_cons (word : Text) (words : List Text) : size (word :: words) = word.length +
  size words := rfl

theorem length_le_size {word : Text} {words : List Text} (mem : word ∈ words) : word.length ≤ size words := by
  induction words with
  | nil => cases mem
  | cons first rest ih =>
    rw [size_cons]
    obtain rfl | mem := List.mem_cons.1 mem
    · omega
    · have bound := ih mem
      omega

-- The characters that a scan has read and not put into a word yet.
def Mode.held : Mode → Text → Nat
  | .between, _ => 0
  | .escaped _, token => token.length + 1
  | _, token => token.length

theorem size_scan_le {mode : Mode} {token source : Text} {words : List Text}
    (ran : scan mode token source = .ok words) : size words ≤ mode.held token + source.length := by
  induction source generalizing mode token words with
  | nil =>
    cases mode with
    | between =>
      cases ran
      exact Nat.zero_le _
    | word =>
      cases ran
      simp [Mode.held]
    | single => cases ran
    | double => cases ran
    | escaped inDouble => cases ran
  | cons c rest ih =>
    rw [List.length_cons]
    cases mode with
    | between =>
      simp only [scan] at ran
      split_ifs at ran <;>
        · have bound := ih ran
          simp only [Mode.held, List.length_nil, List.length_singleton] at bound ⊢
          omega
    | word =>
      simp only [scan] at ran
      split_ifs at ran
      · cases later : scan .between [] rest with
        | error raised =>
          rw [later] at ran
          cases ran
        | ok others =>
          rw [later] at ran
          cases ran
          have bound := ih later
          simp only [Mode.held, size_cons] at bound ⊢
          omega
      all_goals
        have bound := ih ran
        simp only [Mode.held, List.length_append, List.length_singleton] at bound ⊢
        omega
    | single | double =>
      simp only [scan] at ran
      split_ifs at ran <;>
        · have bound := ih ran
          simp only [Mode.held, List.length_append, List.length_singleton] at bound ⊢
          omega
    | escaped inDouble =>
      simp only [scan] at ran
      split_ifs at ran <;>
        · have bound := ih ran
          simp only [Mode.held, List.length_append, List.length_cons, List.length_nil] at bound ⊢
          omega

theorem size_split_le {source : Text} {words : List Text} (ran : split source = .ok words) :
    size words ≤ source.length := by
  have bound := size_scan_le ran
  simpa only [Mode.held, Nat.zero_add] using bound

-- The characters that no shell reads as more than themselves.
def isPlain (c : Char) : Bool := c.isAlphanum || ['@', '%', '+', '=', ':', ',', '.', '/', '-', '_'].contains c

inductive Piece
  | plain (text : Text) (each : ∀ c ∈ text, isPlain c = true)
  | single (text : Text) (each : ∀ c ∈ text, c ≠ '\'')
  -- a single quote, escaped or in double quotes
  | apostrophe (escaped : Bool)

namespace Piece

def spelled : Piece → Text
  | plain text _ => text
  | single text _ => '\'' :: (text ++ ['\''])
  | apostrophe true => ['\\', '\'']
  | apostrophe false => ['"', '\'', '"']

def value : Piece → Text
  | plain text _ => text
  | single text _ => text
  | apostrophe _ => ['\'']

def quoted : Piece → Bool
  | plain _ _ => false
  | _ => true

end Piece

def spelled (pieces : List Piece) : Text := pieces.flatMap Piece.spelled

def value (pieces : List Piece) : Text := pieces.flatMap Piece.value

@[simp] theorem spelled_cons (piece : Piece) (pieces : List Piece) :
    spelled (piece :: pieces) = piece.spelled ++ spelled pieces := List.flatMap_cons

@[simp] theorem value_cons (piece : Piece) (pieces : List Piece) :
    value (piece :: pieces) = piece.value ++ value pieces := List.flatMap_cons

theorem ne_of_isPlain {c special : Char} (plain : isPlain c = true) (other : isPlain special = false) :
    c ≠ special := by
  rintro rfl
  rw [plain] at other
  cases other

theorem isPlain_cases {c : Char} (plain : isPlain c = true) :
    isBlank c = false ∧ c ≠ '\\' ∧ c ≠ '\'' ∧ c ≠ '"' := by
  have apart : ∀ special, isPlain special = false → c ≠ special := fun _ => ne_of_isPlain plain
  refine ⟨?_, apart _ (by decide), apart _ (by decide), apart _ (by decide)⟩
  simp [isBlank, apart ' ' (by decide), apart '\t' (by decide), apart '\r' (by decide), apart '\n' (by decide)]

theorem scan_plain {token text rest : Text} (each : ∀ c ∈ text, isPlain c = true) :
    scan .word token (text ++ rest) = scan .word (token ++ text) rest := by
  induction text generalizing token with
  | nil => rw [List.nil_append, List.append_nil]
  | cons c text ih =>
    rw [List.forall_mem_cons] at each
    obtain ⟨blank, backslash, single, double⟩ := isPlain_cases each.1
    rw [List.cons_append, scan, blank, if_neg Bool.false_ne_true, if_neg backslash, if_neg single, if_neg double,
      ih each.2, List.append_assoc, List.singleton_append]

theorem scan_single {token text rest : Text} (each : ∀ c ∈ text, c ≠ '\'') :
    scan .single token (text ++ '\'' :: rest) = scan .word (token ++ text) rest := by
  induction text generalizing token with
  | nil => rw [List.nil_append, List.append_nil, scan, if_pos rfl]
  | cons c text ih =>
    rw [List.forall_mem_cons] at each
    rw [List.cons_append, scan, if_neg each.1, ih each.2, List.append_assoc, List.singleton_append]

theorem scan_piece (piece : Piece) (token rest : Text) :
    scan .word token (piece.spelled ++ rest) = scan .word (token ++ piece.value) rest := by
  cases piece with
  | plain text each => exact scan_plain each
  | single text each =>
    have opened :
        scan .word token ('\'' :: (text ++ '\'' :: rest)) = scan .single token (text ++ '\'' :: rest) := by
      rw [scan]
      rfl
    rw [Piece.spelled, List.cons_append, List.append_assoc, List.singleton_append, opened, scan_single each]
    rfl
  | apostrophe escaped =>
    cases escaped with
    | true => rfl
    | false => rfl

theorem scan_pieces (pieces : List Piece) (token rest : Text) :
    scan .word token (spelled pieces ++ rest) = scan .word (token ++ value pieces) rest := by
  induction pieces generalizing token with
  | nil => simp [spelled, value]
  | cons piece pieces ih =>
    rw [spelled_cons, value_cons, List.append_assoc, scan_piece, ih, List.append_assoc]

theorem head_spelled {pieces : List Piece} {c : Char} (first : (spelled pieces).head? = some c) :
    isBlank c = false := by
  induction pieces with
  | nil => cases first
  | cons piece pieces ih =>
    rw [spelled_cons] at first
    cases piece with
    | plain text each =>
      cases text with
      | nil => exact ih first
      | cons head tail =>
        cases first
        exact (isPlain_cases (each c List.mem_cons_self)).1
    | single text each =>
      cases first
      rfl
    | apostrophe escaped =>
      cases escaped <;>
        · cases first
          rfl

structure Word where
  pieces : List Piece
  written : spelled pieces ≠ []

namespace Word

def spelled (word : Word) : Text := ShellWords.spelled word.pieces

def value (word : Word) : Text := ShellWords.value word.pieces

end Word

def line : List Word → Text
  | [] => []
  | [word] => word.spelled
  | word :: rest => word.spelled ++ ' ' :: line rest

theorem scan_word (word : Word) (rest : Text) :
    scan .between [] (word.spelled ++ rest) = scan .word word.value rest := by
  have through : scan .between [] (word.spelled ++ rest) = scan .word [] (word.spelled ++ rest) := by
    cases spelling : word.spelled with
    | nil => exact absurd spelling word.written
    | cons c tail =>
      have first : (ShellWords.spelled word.pieces).head? = some c := by
        rw [← Word.spelled, spelling]
        rfl
      have blank := head_spelled first
      rw [List.cons_append, scan, scan, blank]
      rfl
  rw [through]
  exact scan_pieces word.pieces [] rest

theorem split_line (words : List Word) : split (line words) = .ok (words.map Word.value) := by
  unfold split
  induction words with
  | nil => rfl
  | cons word rest ih =>
    cases rest with
    | nil =>
      have read := scan_word word []
      rw [List.append_nil] at read
      exact read
    | cons next rest =>
      have blank : scan .word word.value (' ' :: line (next :: rest)) =
          (scan .between [] (line (next :: rest))).map (word.value :: ·) := by
        rw [scan]
        rfl
      rw [line, scan_word, blank, ih]
      · rfl
      · rintro ⟨⟩

def quote (text : Text) : Text :=
  if text = [] then "''".toList
  else if text.all isPlain then text
  else '\'' :: (text.flatMap (fun c => if c = '\'' then "'\"'\"'".toList else [c]) ++ ['\''])

-- A text between single quotes, closed and opened again around each of its own.
def singles (run : { text : Text // ∀ c ∈ text, c ≠ '\'' }) : Text → List Piece
  | [] => [.single run.1 run.2]
  | c :: rest =>
    if apostrophe : c = '\'' then
      .single run.1 run.2 :: .apostrophe false :: singles ⟨[], List.forall_mem_nil _⟩ rest
    else
      singles ⟨run.1 ++ [c], by
        simp only [List.mem_append, List.mem_singleton, or_imp, forall_and, forall_eq]
        exact ⟨run.2, apostrophe⟩⟩ rest

theorem spelled_singles (run : { text : Text // ∀ c ∈ text, c ≠ '\'' }) (text : Text) :
    spelled (singles run text) =
      '\'' :: (run.1 ++ text.flatMap (fun c => if c = '\'' then "'\"'\"'".toList else [c]) ++ ['\'']) := by
  induction text generalizing run with
  | nil => simp [singles, spelled, Piece.spelled]
  | cons c rest ih =>
    rw [singles]
    split
    next apostrophe => simp [ih, Piece.spelled, apostrophe]
    next other => simp [ih, other]

theorem value_singles (run : { text : Text // ∀ c ∈ text, c ≠ '\'' }) (text : Text) :
    value (singles run text) = run.1 ++ text := by
  induction text generalizing run with
  | nil => simp [singles, value, Piece.value]
  | cons c rest ih =>
    rw [singles]
    split
    next apostrophe => simp [ih, Piece.value, apostrophe]
    next other => simp [ih]

def quoteWord (text : Text) : Word :=
  if plain : text ≠ [] ∧ ∀ c ∈ text, isPlain c = true then
    { pieces := [.plain text plain.2], written := by simpa [spelled, Piece.spelled] using plain.1 }
  else
    { pieces := singles ⟨[], List.forall_mem_nil _⟩ text,
      written := by rw [spelled_singles]; exact List.cons_ne_nil _ _ }

theorem spelled_quoteWord (text : Text) : (quoteWord text).spelled = quote text := by
  unfold quoteWord quote Word.spelled
  by_cases empty : text = []
  · subst empty
    rfl
  · by_cases plain : ∀ c ∈ text, isPlain c = true
    · have all : text.all isPlain = true := List.all_eq_true.2 plain
      rw [dif_pos ⟨empty, plain⟩, if_neg empty, if_pos all]
      simp [spelled, Piece.spelled]
    · have all : ¬text.all isPlain = true := fun all => plain (List.all_eq_true.1 all)
      rw [dif_neg (fun both => plain both.2), if_neg empty, if_neg all, spelled_singles, List.nil_append]

theorem value_quoteWord (text : Text) : (quoteWord text).value = text := by
  unfold quoteWord Word.value
  split
  next => simp [value, Piece.value]
  next => rw [value_singles, List.nil_append]

def join : List Text → Text
  | [] => []
  | [word] => quote word
  | word :: rest => quote word ++ ' ' :: join rest

theorem line_quoteWord (words : List Text) : line (words.map quoteWord) = join words := by
  induction words with
  | nil => rfl
  | cons word rest ih =>
    cases rest with
    | nil => exact spelled_quoteWord word
    | cons next rest =>
      rw [List.map_cons] at ih ⊢
      rw [List.map_cons, line, join, spelled_quoteWord, ih]
      · rintro ⟨⟩
      · rintro ⟨⟩

theorem split_join (words : List Text) : split (join words) = .ok words := by
  have values : (words.map quoteWord).map Word.value = words := by
    rw [List.map_map]
    exact List.map_id'' value_quoteWord words
  rw [← line_quoteWord, split_line, values]

end ShellWords

namespace VerbatimWords

open TextLines
open ShellWords (Unfinished isBlank size size_nil size_cons)

inductive Mode
  | between
  | word
  | quoted (quote : Char)

def scan : Mode → Text → Text → Except Unfinished (List Text)
  | .between, _, [] => .ok []
  | .word, token, [] => .ok [token]
  | .quoted _, _, [] => .error .noClosingQuotation
  | .between, _, c :: rest =>
    if isBlank c then scan .between [] rest
    else if c = '\'' || c = '"' then scan (.quoted c) [c] rest
    else scan .word [c] rest
  | .word, token, c :: rest =>
    if isBlank c then (scan .between [] rest).map (token :: ·) else scan .word (token ++ [c]) rest
  | .quoted quote, token, c :: rest =>
    if c = quote then (scan .between [] rest).map ((token ++ [c]) :: ·)
    else scan (.quoted quote) (token ++ [c]) rest

def split (source : Text) : Except Unfinished (List Text) := scan .between [] source

-- The characters that a scan has read and not put into a word yet.
def Mode.held : Mode → Text → Nat
  | .between, _ => 0
  | _, token => token.length

theorem size_emit {word rest : Text} {words : List Text}
    (bound : ∀ {others}, scan .between [] rest = .ok others → size others ≤ rest.length)
    (ran : (scan .between [] rest).map (word :: ·) = .ok words) : size words ≤ word.length + rest.length := by
  cases later : scan .between [] rest with
  | error raised =>
    rw [later] at ran
    cases ran
  | ok others =>
    rw [later] at ran
    cases ran
    have rest := bound later
    rw [size_cons]
    omega

theorem size_scan_le {mode : Mode} {token source : Text} {words : List Text}
    (ran : scan mode token source = .ok words) : size words ≤ mode.held token + source.length := by
  induction source generalizing mode token words with
  | nil =>
    cases mode with
    | between =>
      cases ran
      exact Nat.zero_le _
    | word =>
      cases ran
      simp [Mode.held]
    | quoted quote => cases ran
  | cons c rest ih =>
    have between : ∀ {others}, scan .between [] rest = .ok others → size others ≤ rest.length := by
      intro others ran
      simpa only [Mode.held, Nat.zero_add] using ih ran
    rw [List.length_cons]
    cases mode with
    | between =>
      simp only [scan] at ran
      split_ifs at ran <;>
        · have bound := ih ran
          simp only [Mode.held, List.length_singleton] at bound ⊢
          omega
    | word =>
      simp only [scan] at ran
      split_ifs at ran
      · have bound := size_emit between ran
        simp only [Mode.held]
        omega
      · have bound := ih ran
        simp only [Mode.held, List.length_append, List.length_singleton] at bound ⊢
        omega
    | quoted quote =>
      simp only [scan] at ran
      split_ifs at ran
      · have bound := size_emit between ran
        simp only [Mode.held, List.length_append, List.length_singleton] at bound ⊢
        omega
      · have bound := ih ran
        simp only [Mode.held, List.length_append, List.length_singleton] at bound ⊢
        omega

theorem size_split_le {source : Text} {words : List Text} (ran : split source = .ok words) :
    size words ≤ source.length := by
  have bound := size_scan_le ran
  simpa only [Mode.held, Nat.zero_add] using bound

end VerbatimWords
