import OpenSquilla.Shared.TextScan

set_option autoImplicit false

namespace TextCuts

open TextLines TextScan

def cutAt (mark : Char) : Text → Option (Text × Text)
  | [] => none
  | c :: rest =>
    if c = mark then some ([], rest) else (cutAt mark rest).map (fun cut => (c :: cut.1, cut.2))

-- the count is of the characters left over of the occurrence that was replaced last
def replaceFrom (old new : Text) : Nat → Text → Text
  | _, [] => []
  | skipped + 1, _ :: rest => replaceFrom old new skipped rest
  | 0, c :: rest =>
    if old.isPrefixOf (c :: rest) then new ++ replaceFrom old new (old.length - 1) rest
    else c :: replaceFrom old new 0 rest

-- Every occurrence of a text that is not empty, from the left.
def replace (old new text : Text) : Text := replaceFrom old new 0 text

def replaceAll (table : List (Text × Text)) (text : Text) : Text :=
  table.foldl (fun text entry => replace entry.1 entry.2 text) text

def words (text : Text) : List Text := (text.splitOnP isSpace).filter (· ≠ [])

-- The separators of ASCII are no white space around an integer.
def isIntSpace (c : Char) : Bool := isSpace c && !(28 ≤ c.toNat && c.toNat ≤ 31)

def trim (text : Text) : Text := (text.dropWhile isIntSpace).rdropWhile isIntSpace

-- an underscore stands between two digits
def readDigits : Bool → Text → Option (List Nat)
  | afterDigit, [] => if afterDigit then some [] else none
  | afterDigit, c :: rest =>
    if afterDigit && c = '_' then readDigits false rest
    else (digitValue? c).bind (fun digit => (readDigits true rest).map (digit :: ·))

def magnitude (text : Text) : Option Int :=
  (readDigits false text).bind (fun digits =>
    if maxStrDigits < digits.length then none
    else some (digits.foldl (fun (n : Int) (digit : Nat) => 10 * n + digit) 0))

def readInt (text : Text) : Option Int :=
  match trim text with
  | '-' :: rest => (magnitude rest).map (-·)
  | '+' :: rest => magnitude rest
  | plain => magnitude plain

section Cut

variable {mark : Char} {text front back : Text}

theorem cutAt_eq_none : cutAt mark text = none ↔ mark ∉ text := by
  induction text with
  | nil => simp [cutAt]
  | cons c rest ih =>
    rw [cutAt]
    split
    next here => simp [here]
    next other => simp [ih, Ne.symm other]

theorem cutAt_append (plain : mark ∉ front) : cutAt mark (front ++ mark :: back) = some (front, back) := by
  induction front with
  | nil => simp [cutAt]
  | cons c rest ih =>
    rw [List.mem_cons, not_or] at plain
    rw [List.cons_append, cutAt, if_neg (Ne.symm plain.1), ih plain.2, Option.map_some]

theorem cutAt_eq_some : cutAt mark text = some (front, back) ↔ mark ∉ front ∧ text = front ++ mark :: back := by
  constructor
  · intro found
    induction text generalizing front with
    | nil => cases found
    | cons c rest ih =>
      rw [cutAt] at found
      split at found
      next here =>
        cases found
        exact ⟨List.not_mem_nil, by rw [here, List.nil_append]⟩
      next other =>
        obtain ⟨⟨first, last⟩, later, same⟩ := Option.map_eq_some_iff.mp found
        cases same
        obtain ⟨plain, rfl⟩ := ih later
        rw [List.mem_cons, not_or]
        exact ⟨⟨Ne.symm other, plain⟩, rfl⟩
  · rintro ⟨plain, rfl⟩
    exact cutAt_append plain

theorem mem_of_mem_splitOn {c : Char} (piece : front ∈ text.splitOn mark) (inside : c ∈ front) : c ∈ text := by
  induction text generalizing front with
  | nil =>
    rw [List.splitOn_nil, List.mem_singleton] at piece
    rw [piece] at inside
    exact inside
  | cons d rest ih =>
    rw [List.splitOn_cons_eq_if_modifyHead] at piece
    split at piece
    next =>
      obtain rfl | later := List.mem_cons.mp piece
      · cases inside
      · exact List.mem_cons_of_mem d (ih later inside)
    next =>
      obtain ⟨first, others, same⟩ := List.exists_cons_of_ne_nil (List.splitOn_ne_nil mark rest)
      rw [same, List.modifyHead_cons] at piece
      rw [same] at ih
      obtain rfl | later := List.mem_cons.mp piece
      · obtain rfl | behind := List.mem_cons.mp inside
        · exact List.mem_cons_self
        · exact List.mem_cons_of_mem d (ih List.mem_cons_self behind)
      · exact List.mem_cons_of_mem d (ih (List.mem_cons_of_mem first later) inside)

theorem mem_of_mem_strip {c : Char} (inside : c ∈ strip text) : c ∈ text :=
  (List.dropWhile_suffix _).subset (List.IsPrefix.subset (List.rdropWhile_prefix ..) inside)

end Cut

section Replace

variable {old new : Text}

theorem isPrefixOf_append_mark {mark : Char} (apart : mark ∉ old) (front back : Text) :
    old.isPrefixOf (front ++ mark :: back) = old.isPrefixOf front := by
  induction old generalizing front with
  | nil => simp
  | cons c rest ih =>
    rw [List.mem_cons, not_or] at apart
    cases front with
    | nil => simp [List.isPrefixOf, Ne.symm apart.1]
    | cons first front => simp only [List.cons_append, List.isPrefixOf, ih apart.2]

theorem replaceFrom_append_mark {mark : Char} (nonempty : old ≠ []) (apart : mark ∉ old) {skipped : Nat}
    {front : Text} (within : skipped ≤ front.length) (back : Text) :
    replaceFrom old new skipped (front ++ mark :: back) =
      replaceFrom old new skipped front ++ mark :: replaceFrom old new 0 back := by
  induction front generalizing skipped with
  | nil =>
    obtain rfl : skipped = 0 := Nat.le_zero.mp within
    have absent : ¬old.isPrefixOf (mark :: back) = true := by
      rw [← List.nil_append (mark :: back), isPrefixOf_append_mark apart, List.isPrefixOf_iff_prefix,
        List.prefix_nil]
      exact nonempty
    rw [List.nil_append, replaceFrom.eq_3, if_neg absent]
    rfl
  | cons c rest ih =>
    cases skipped with
    | succ skipped => exact ih (Nat.le_of_succ_le_succ within)
    | zero =>
      rw [List.cons_append, replaceFrom, replaceFrom, ← List.cons_append, isPrefixOf_append_mark apart]
      split
      next occurs =>
        have short := (List.isPrefixOf_iff_prefix.mp occurs).length_le
        rw [List.length_cons] at short
        rw [ih (Nat.sub_le_of_le_add short), List.append_assoc]
      next => rw [ih (Nat.zero_le _), List.cons_append]

theorem replace_of_absent {text : Text} (absent : ¬old <:+: text) : replace old new text = text := by
  induction text with
  | nil => rfl
  | cons c rest ih =>
    have here : ¬old.isPrefixOf (c :: rest) = true := fun occurs =>
      absent (List.isPrefixOf_iff_prefix.mp occurs).isInfix
    have later : ¬old <:+: rest := fun occurs => absent (occurs.trans (List.suffix_cons c rest).isInfix)
    have tail := ih later
    rw [replace] at tail ⊢
    rw [replaceFrom, if_neg here, tail]

theorem replaceFrom_map {f : Char → Char} (spares : ∀ c ∈ old, ∀ d, f d = c ↔ d = c) (fixed : new.map f = new)
    (skipped : Nat) (text : Text) :
    replaceFrom old new skipped (text.map f) = (replaceFrom old new skipped text).map f := by
  have occurs : ∀ text : Text, old.isPrefixOf (text.map f) = old.isPrefixOf text := by
    induction old with
    | nil => intro text; cases text <;> rfl
    | cons c rest ih =>
      obtain ⟨here, later⟩ := List.forall_mem_cons.mp spares
      intro text
      cases text with
      | nil => rfl
      | cons d text =>
        rw [List.map_cons, List.isPrefixOf, List.isPrefixOf, ih later]
        congr 1
        rw [Bool.eq_iff_iff, beq_iff_eq, beq_iff_eq, eq_comm, here d, eq_comm]
  induction text generalizing skipped with
  | nil => cases skipped <;> rfl
  | cons c rest ih =>
    cases skipped with
    | succ skipped => exact ih skipped
    | zero =>
      rw [List.map_cons, replaceFrom, replaceFrom, ← List.map_cons, occurs]
      split
      next => rw [ih, List.map_append, fixed]
      next => rw [ih, List.map_cons]

theorem not_mem_replaceFrom {mark : Char} (apart : mark ∉ new) {text : Text} (absent : mark ∉ text)
    (skipped : Nat) : mark ∉ replaceFrom old new skipped text := by
  induction text generalizing skipped with
  | nil => cases skipped <;> exact List.not_mem_nil
  | cons c rest ih =>
    rw [List.mem_cons, not_or] at absent
    cases skipped with
    | succ skipped => exact ih absent.2 skipped
    | zero =>
      rw [replaceFrom]
      split
      next =>
        rw [List.mem_append, not_or]
        exact ⟨apart, ih absent.2 _⟩
      next =>
        rw [List.mem_cons, not_or]
        exact ⟨absent.1, ih absent.2 0⟩

theorem eq_nil_of_replace {text : Text} (nonempty : new ≠ []) (gone : replace old new text = []) :
    text = [] := by
  cases text with
  | nil => rfl
  | cons c rest =>
    rw [replace, replaceFrom] at gone
    split at gone
    next => exact absurd (List.append_eq_nil_iff.mp gone).1 nonempty
    next => cases gone

end Replace

section Table

variable {table : List (Text × Text)} {mark : Char} {text : Text}

def Solid (table : List (Text × Text)) : Prop := ∀ entry ∈ table, entry.1 ≠ [] ∧ entry.2 ≠ []

def Apart (mark : Char) (table : List (Text × Text)) : Prop := ∀ entry ∈ table, mark ∉ entry.1 ∧ mark ∉ entry.2

instance : Decidable (Solid table) := List.decidableBAll _ table

instance : Decidable (Apart mark table) := List.decidableBAll _ table

theorem replaceAll_append_mark (solid : Solid table) (apart : ∀ entry ∈ table, mark ∉ entry.1)
    (front back : Text) :
    replaceAll table (front ++ mark :: back) = replaceAll table front ++ mark :: replaceAll table back := by
  induction table generalizing front back with
  | nil => rfl
  | cons entry rest ih =>
    obtain ⟨⟨nonempty, -⟩, others⟩ := List.forall_mem_cons.mp solid
    obtain ⟨here, later⟩ := List.forall_mem_cons.mp apart
    have first : replaceFrom entry.1 entry.2 0 (front ++ mark :: back) = _ :=
      replaceFrom_append_mark nonempty here (Nat.zero_le front.length) back
    rw [replaceAll, List.foldl_cons, replace, first]
    exact ih others later _ _

theorem not_mem_replaceAll (apart : ∀ entry ∈ table, mark ∉ entry.2) (absent : mark ∉ text) :
    mark ∉ replaceAll table text := by
  induction table generalizing text with
  | nil => exact absent
  | cons entry rest ih =>
    obtain ⟨here, later⟩ := List.forall_mem_cons.mp apart
    exact ih later (not_mem_replaceFrom here absent 0)

theorem replaceAll_of_absent (absent : ∀ entry ∈ table, ¬entry.1 <:+: text) : replaceAll table text = text := by
  induction table with
  | nil => rfl
  | cons entry rest ih =>
    obtain ⟨here, later⟩ := List.forall_mem_cons.mp absent
    rw [replaceAll, List.foldl_cons, replace_of_absent here]
    exact ih later

theorem replaceAll_nil (solid : Solid table) : replaceAll table [] = [] := by
  apply replaceAll_of_absent
  intro entry mem occurs
  exact (solid entry mem).1 (List.infix_nil.mp occurs)

theorem eq_nil_of_replaceAll (solid : Solid table) (gone : replaceAll table text = []) : text = [] := by
  induction table generalizing text with
  | nil => exact gone
  | cons entry rest ih =>
    obtain ⟨⟨-, nonempty⟩, others⟩ := List.forall_mem_cons.mp solid
    exact eq_nil_of_replace nonempty (ih others gone)

theorem replaceAll_map {f : Char → Char} (spares : ∀ entry ∈ table, ∀ c ∈ entry.1, ∀ d, f d = c ↔ d = c)
    (fixed : ∀ entry ∈ table, entry.2.map f = entry.2) (text : Text) :
    replaceAll table (text.map f) = (replaceAll table text).map f := by
  induction table generalizing text with
  | nil => rfl
  | cons entry rest ih =>
    obtain ⟨here, later⟩ := List.forall_mem_cons.mp spares
    obtain ⟨same, others⟩ := List.forall_mem_cons.mp fixed
    rw [replaceAll, List.foldl_cons, replace, replaceFrom_map here same 0 text]
    exact ih later others _

theorem cutAt_replaceAll (solid : Solid table) (apart : Apart mark table) (text : Text) :
    cutAt mark (replaceAll table text) =
      (cutAt mark text).map (fun cut => (replaceAll table cut.1, replaceAll table cut.2)) := by
  cases cut : cutAt mark text with
  | none =>
    rw [Option.map_none, cutAt_eq_none]
    exact not_mem_replaceAll (fun entry mem => (apart entry mem).2) (cutAt_eq_none.mp cut)
  | some cut =>
    obtain ⟨plain, rfl⟩ := cutAt_eq_some.mp cut
    rw [replaceAll_append_mark solid fun entry mem => (apart entry mem).1]
    exact cutAt_append (not_mem_replaceAll (fun entry mem => (apart entry mem).2) plain)

theorem replaceAll_eq_singleton (solid : Solid table) (apart : Apart mark table) :
    replaceAll table text = [mark] ↔ text = [mark] := by
  have olds := fun entry mem => (apart entry mem).1
  have single : replaceAll table ([] ++ mark :: []) = [] ++ mark :: [] := by
    rw [replaceAll_append_mark solid olds, replaceAll_nil solid]
  constructor
  · intro becomes
    by_cases present : mark ∈ text
    · obtain ⟨front, back, rfl⟩ := List.append_of_mem present
      rw [replaceAll_append_mark solid olds, List.append_eq_singleton_iff] at becomes
      obtain ⟨before, behind⟩ | ⟨-, impossible⟩ := becomes
      · rw [eq_nil_of_replaceAll solid before, eq_nil_of_replaceAll solid (List.cons.inj behind).2]
        rfl
      · cases impossible
    · have absent := not_mem_replaceAll (fun entry mem => (apart entry mem).2) present
      rw [becomes] at absent
      exact absurd List.mem_cons_self absent
  · rintro rfl
    exact single

end Table

section Trim

variable {text front core back : Text}

theorem exists_trim (text : Text) :
    ∃ front back, (∀ c ∈ front, isIntSpace c = true) ∧ (∀ c ∈ back, isIntSpace c = true) ∧
      text = front ++ trim text ++ back := by
  refine ⟨text.takeWhile isIntSpace, (text.dropWhile isIntSpace).rtakeWhile isIntSpace, ?_, ?_, ?_⟩
  · exact fun c mem => List.mem_takeWhile_imp mem
  · exact fun c mem => List.mem_rtakeWhile_imp mem
  · rw [trim, List.append_assoc, List.rdropWhile_append_rtakeWhile, List.takeWhile_append_dropWhile]

theorem trim_append (before : ∀ c ∈ front, isIntSpace c = true) (behind : ∀ c ∈ back, isIntSpace c = true) :
    trim (front ++ core ++ back) = trim core := by
  have tail : ∀ text : Text, (text ++ back).rdropWhile isIntSpace = text.rdropWhile isIntSpace := by
    intro text
    rw [List.rdropWhile, List.rdropWhile, List.reverse_append,
      List.dropWhile_append_of_pos fun c mem => behind c (List.mem_reverse.mp mem)]
  rw [trim, trim, List.append_assoc, List.dropWhile_append_of_pos before, List.dropWhile_append]
  split
  next blank =>
    rw [List.isEmpty_iff.mp blank, ← List.nil_append (back.dropWhile isIntSpace),
      List.dropWhile_eq_nil_iff.mpr behind, List.append_nil]
  next => exact tail _

theorem replaceAll_surrounded {table : List (Text × Text)} (solid : Solid table)
    (unspaced : ∀ entry ∈ table, ∀ c ∈ entry.1, isIntSpace c = false) (before : ∀ c ∈ front, isIntSpace c = true)
    (behind : ∀ c ∈ back, isIntSpace c = true) :
    replaceAll table (front ++ core ++ back) = front ++ replaceAll table core ++ back := by
  have apart : ∀ c, isIntSpace c = true → ∀ entry ∈ table, c ∉ entry.1 := by
    intro c space entry mem inside
    rw [unspaced entry mem c inside] at space
    cases space
  have ending : ∀ core, replaceAll table (core ++ back) = replaceAll table core ++ back := by
    induction back with
    | nil =>
      intro core
      rw [List.append_nil, List.append_nil]
    | cons c rest ih =>
      intro core
      obtain ⟨here, later⟩ := List.forall_mem_cons.mp behind
      have blank := ih later []
      rw [List.nil_append, replaceAll_nil solid, List.nil_append] at blank
      rw [replaceAll_append_mark solid (apart c here), blank]
  induction front with
  | nil => exact ending core
  | cons c rest ih =>
    obtain ⟨here, later⟩ := List.forall_mem_cons.mp before
    have step := replaceAll_append_mark solid (apart c here) [] (rest ++ core ++ back)
    rw [replaceAll_nil solid, ih later] at step
    exact step

theorem readInt_trim (text : Text) : readInt (trim text) = readInt text := by
  obtain ⟨front, back, before, behind, whole⟩ := exists_trim text
  have same : trim text = trim (trim text) := by
    conv_lhs => rw [whole]
    exact trim_append before behind
  rw [readInt, ← same, readInt]

theorem readInt_append (before : ∀ c ∈ front, isIntSpace c = true) (behind : ∀ c ∈ back, isIntSpace c = true) :
    readInt (front ++ core ++ back) = readInt core := by
  rw [readInt, trim_append before behind, readInt]

end Trim

end TextCuts
