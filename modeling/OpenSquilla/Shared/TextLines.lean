import Mathlib.Data.List.Chain
import Mathlib.Data.List.TakeWhile

set_option autoImplicit false

namespace TextLines

abbrev Text := List Char

-- decided along the text, never by going through every character there is
instance {p : Char → Prop} [DecidablePred p] (text : Text) : Decidable (∀ c ∈ text, p c) :=
  List.decidableBAll p text

instance lawfulBEqText : LawfulBEq Text := inferInstance

def orText (text other : String) : String := if text = "" then other else text

def lineBreaks : List Nat := [10, 11, 12, 13, 28, 29, 30, 133, 8232, 8233]

def isLineBreak (c : Char) : Bool := lineBreaks.contains c.toNat

def endsLine (c : Char) (rest : Text) : Bool :=
  isLineBreak c && !(c = '\r' && rest.head? = some '\n')

def splitKeepends : Text → List Text
  | [] => []
  | c :: rest =>
    if endsLine c rest then [c] :: splitKeepends rest
    else
      match splitKeepends rest with
      | [] => [[c]]
      | line :: lines => (c :: line) :: lines

def lineText (line : Text) : Text := line.takeWhile (fun c => !isLineBreak c)

def splitLines (text : Text) : List Text := (splitKeepends text).map lineText

def Unbroken (text : Text) : Prop := ∀ c ∈ text, isLineBreak c = false

instance (text : Text) : Decidable (Unbroken text) :=
  inferInstanceAs (Decidable (∀ c ∈ text, isLineBreak c = false))

def Terminator (ending : Text) : Prop :=
  ending = ['\r', '\n'] ∨ ∃ c, isLineBreak c = true ∧ ending = [c]

inductive IsLine : Text → Prop
  | ended (body ending : Text) (unbroken : Unbroken body) (terminator : Terminator ending) :
      IsLine (body ++ ending)
  | unended (c : Char) (body : Text) (unbroken : Unbroken (c :: body)) : IsLine (c :: body)

def RunsInto (line next : Text) : Prop :=
  Unbroken line ∨ line.getLast? = some '\r' ∧ next.head? = some '\n'

instance (line next : Text) : Decidable (RunsInto line next) :=
  inferInstanceAs (Decidable (_ ∨ _ ∧ _))

def Seamless (lines : List Text) : Prop := lines.IsChain (fun line next => ¬RunsInto line next)

theorem isLineBreak_cr : isLineBreak '\r' = true := by decide

theorem isLineBreak_lf : isLineBreak '\n' = true := by decide

theorem splitKeepends_cons_of_not_ends {c : Char} {rest : Text} (going : endsLine c rest = false) :
    splitKeepends (c :: rest) =
      match splitKeepends rest with
      | [] => [[c]]
      | line :: lines => (c :: line) :: lines := by
  rw [splitKeepends, going]
  rfl

theorem splitKeepends_cons_of_ends {c : Char} {rest : Text} (ends : endsLine c rest = true) :
    splitKeepends (c :: rest) = [c] :: splitKeepends rest := by
  rw [splitKeepends, if_pos ends]

theorem endsLine_of_not_break {c : Char} (plain : isLineBreak c = false) (rest : Text) :
    endsLine c rest = false := by simp [endsLine, plain]

theorem flatten_splitKeepends (text : Text) : (splitKeepends text).flatten = text := by
  induction text with
  | nil => rfl
  | cons c rest ih =>
    cases ends : endsLine c rest with
    | true => rw [splitKeepends_cons_of_ends ends, List.flatten_cons, ih, List.singleton_append]
    | false =>
      rw [splitKeepends_cons_of_not_ends ends]
      cases split : splitKeepends rest with
      | nil =>
        rw [split] at ih
        rw [← ih]
        rfl
      | cons line lines =>
        rw [split] at ih
        rw [← ih]
        rfl

theorem splitKeepends_eq_nil_iff (text : Text) : splitKeepends text = [] ↔ text = [] := by
  constructor
  · intro none
    have joined := flatten_splitKeepends text
    rw [none] at joined
    exact joined.symm
  · rintro rfl
    rfl

theorem splitKeepends_append {body ending : Text} (rest : Text) (unbroken : Unbroken body)
    (terminator : Terminator ending) (apart : ¬(ending.getLast? = some '\r' ∧ rest.head? = some '\n')) :
    splitKeepends (body ++ ending ++ rest) = (body ++ ending) :: splitKeepends rest := by
  induction body with
  | nil =>
    rcases terminator with rfl | ⟨c, breaks, rfl⟩
    · have goingOn : endsLine '\r' ('\n' :: rest) = false := by simp [endsLine]
      have ends : endsLine '\n' rest = true := by simp [endsLine, isLineBreak_lf]
      rw [List.nil_append, List.cons_append, List.singleton_append,
        splitKeepends_cons_of_not_ends goingOn, splitKeepends_cons_of_ends ends]
    · have ends : endsLine c rest = true := by
        simp only [List.getLast?_singleton, Option.some.injEq, not_and_or] at apart
        simpa [endsLine, breaks] using apart
      rw [List.nil_append, List.singleton_append, splitKeepends_cons_of_ends ends]
  | cons c body ih =>
    have plain : isLineBreak c = false := unbroken c (List.mem_cons_self ..)
    have tail := ih fun other mem => unbroken other (List.mem_cons_of_mem _ mem)
    rw [List.cons_append, List.cons_append,
      splitKeepends_cons_of_not_ends (endsLine_of_not_break plain _), tail]

theorem splitKeepends_unbroken {c : Char} {body : Text} (unbroken : Unbroken (c :: body)) :
    splitKeepends (c :: body) = [c :: body] := by
  induction body generalizing c with
  | nil => exact splitKeepends_cons_of_not_ends (endsLine_of_not_break (unbroken c (by simp)) _)
  | cons next body ih =>
    rw [splitKeepends_cons_of_not_ends (endsLine_of_not_break (unbroken c (by simp)) _),
      ih fun other mem => unbroken other (List.mem_cons_of_mem _ mem)]

theorem length_splitKeepends_unbroken_append {body rest : Text} (unbroken : Unbroken body)
    (nonempty : rest ≠ []) : (splitKeepends (body ++ rest)).length = (splitKeepends rest).length := by
  induction body with
  | nil => rfl
  | cons c body ih =>
    have plain : isLineBreak c = false := unbroken c (List.mem_cons_self ..)
    have tail := ih fun other mem => unbroken other (List.mem_cons_of_mem _ mem)
    rw [List.cons_append, splitKeepends_cons_of_not_ends (endsLine_of_not_break plain _), ← tail]
    cases split : splitKeepends (body ++ rest) with
    | nil =>
      rw [splitKeepends_eq_nil_iff, List.append_eq_nil_iff] at split
      exact absurd split.2 nonempty
    | cons line lines => rfl

theorem length_splitKeepends_cr_append {body rest : Text} (unbroken : Unbroken body)
    (feed : rest.head? = some '\n') :
    (splitKeepends (body ++ ['\r'] ++ rest)).length = (splitKeepends rest).length := by
  cases rest with
  | nil => cases feed
  | cons c rest =>
    obtain rfl := Option.some.inj feed
    have together := splitKeepends_append rest unbroken (.inl rfl)
      (by simp [show '\n' ≠ '\r' by decide])
    have alone := splitKeepends_append rest (show Unbroken [] by simp [Unbroken])
      (.inr ⟨'\n', isLineBreak_lf, rfl⟩) (by simp [show '\n' ≠ '\r' by decide])
    have regrouped : body ++ ['\r'] ++ '\n' :: rest = body ++ ['\r', '\n'] ++ rest := by simp
    rw [regrouped, together]
    rw [List.nil_append, List.singleton_append] at alone
    rw [alone, List.length_cons, List.length_cons]

theorem IsLine.ne_nil {line : Text} (isLine : IsLine line) : line ≠ [] := by
  cases isLine with
  | ended body ending unbroken terminator =>
    rcases terminator with rfl | ⟨c, -, rfl⟩ <;> simp
  | unended c body unbroken => exact List.cons_ne_nil _ _

theorem isLine_of_mem_splitKeepends (text : Text) : ∀ line ∈ splitKeepends text, IsLine line := by
  induction text with
  | nil => nofun
  | cons c rest ih =>
    cases ends : endsLine c rest with
    | true =>
      rw [splitKeepends_cons_of_ends ends, List.forall_mem_cons]
      simp only [endsLine, Bool.and_eq_true] at ends
      exact ⟨.ended [] [c] (by simp [Unbroken]) (.inr ⟨c, ends.1, rfl⟩), ih⟩
    | false =>
      rw [splitKeepends_cons_of_not_ends ends]
      cases breaks : isLineBreak c with
      | false =>
        cases split : splitKeepends rest with
        | nil => exact List.forall_mem_singleton.mpr (.unended c [] (by simpa [Unbroken] using breaks))
        | cons line lines =>
          rw [split, List.forall_mem_cons] at ih
          refine List.forall_mem_cons.mpr ⟨?_, ih.2⟩
          cases ih.1 with
          | ended body ending unbroken terminator =>
            exact .ended (c :: body) ending (List.forall_mem_cons.mpr ⟨breaks, unbroken⟩) terminator
          | unended d body unbroken =>
            exact .unended c (d :: body) (List.forall_mem_cons.mpr ⟨breaks, unbroken⟩)
      | true =>
        -- the carriage return of a pair
        simp only [endsLine, breaks, Bool.true_and, Bool.not_eq_false', Bool.and_eq_true,
          decide_eq_true_eq] at ends
        obtain ⟨rfl, feed⟩ := ends
        cases rest with
        | nil => cases feed
        | cons d rest =>
          obtain rfl := Option.some.inj feed
          have ends : endsLine '\n' rest = true := by simp [endsLine, isLineBreak_lf]
          rw [splitKeepends_cons_of_ends ends, List.forall_mem_cons] at ih
          rw [splitKeepends_cons_of_ends ends]
          exact List.forall_mem_cons.mpr ⟨.ended [] ['\r', '\n'] (by simp [Unbroken]) (.inl rfl), ih.2⟩

theorem unbroken_append_terminator {body ending : Text} (terminator : Terminator ending) :
    ¬Unbroken (body ++ ending) := by
  intro unbroken
  rcases terminator with rfl | ⟨c, breaks, rfl⟩
  · have plain := unbroken '\n' (by simp)
    rw [isLineBreak_lf] at plain
    cases plain
  · have plain := unbroken c (by simp)
    rw [breaks] at plain
    cases plain

theorem head?_append_of_isLine {line rest : Text} (isLine : IsLine line) :
    (line ++ rest).head? = line.head? := by
  obtain ⟨c, body, rfl⟩ := List.exists_cons_of_ne_nil isLine.ne_nil
  rfl

/-- Lines joined to one text are its lines when none runs into the next, and more than its lines
otherwise. -/
theorem splitKeepends_flatten_cases {lines : List Text} (areLines : ∀ line ∈ lines, IsLine line) :
    Seamless lines ∧ splitKeepends lines.flatten = lines ∨
    ¬Seamless lines ∧ (splitKeepends lines.flatten).length < lines.length := by
  induction lines with
  | nil => exact .inl ⟨.nil, rfl⟩
  | cons line rest ih =>
    obtain ⟨isLine, restLines⟩ := List.forall_mem_cons.mp areLines
    have tail := ih restLines
    cases rest with
    | nil =>
      refine .inl ⟨.singleton line, ?_⟩
      rw [List.flatten_cons, List.flatten_nil]
      cases isLine with
      | ended body ending unbroken terminator =>
        exact splitKeepends_append [] unbroken terminator (by simp)
      | unended c body unbroken =>
        rw [List.append_nil]
        exact splitKeepends_unbroken unbroken
    | cons next rest =>
      have nextLine := restLines next (List.mem_cons_self ..)
      have head : (next :: rest).flatten.head? = next.head? := head?_append_of_isLine nextLine
      have nonempty : (next :: rest).flatten ≠ [] := by simp [nextLine.ne_nil]
      have atMost : (splitKeepends (next :: rest).flatten).length ≤ (next :: rest).length :=
        tail.elim (fun same => (congrArg List.length same.2).le) (fun fewer => fewer.2.le)
      rw [List.flatten_cons, Seamless, List.isChain_cons_cons]
      by_cases runs : RunsInto line next
      · refine .inr ⟨fun seamless => seamless.1 runs, ?_⟩
        rw [List.length_cons]
        rcases runs with unbroken | ⟨carriage, feed⟩
        · rw [length_splitKeepends_unbroken_append unbroken nonempty]
          omega
        · cases isLine with
          | unended c body unbroken =>
            rw [length_splitKeepends_unbroken_append unbroken nonempty]
            omega
          | ended body ending unbroken terminator =>
            rcases terminator with rfl | ⟨c, breaks, rfl⟩
            · simp [show '\n' ≠ '\r' by decide] at carriage
            · rw [List.getLast?_append, List.getLast?_singleton] at carriage
              obtain rfl := Option.some.inj carriage
              rw [length_splitKeepends_cr_append unbroken (head.trans feed)]
              omega
      · have cut : splitKeepends (line ++ (next :: rest).flatten) =
            line :: splitKeepends (next :: rest).flatten := by
          cases isLine with
          | unended c body unbroken => exact absurd (.inl unbroken) runs
          | ended body ending unbroken terminator =>
            refine splitKeepends_append _ unbroken terminator fun ⟨carriage, feed⟩ => runs (.inr ⟨?_, ?_⟩)
            · rw [List.getLast?_append, carriage, Option.some_or]
            · rw [← head, feed]
        rw [cut]
        rcases tail with ⟨seamless, same⟩ | ⟨broken, fewer⟩
        · exact .inl ⟨⟨runs, seamless⟩, by rw [same]⟩
        · refine .inr ⟨fun seamless => broken seamless.2, ?_⟩
          simp only [List.length_cons] at fewer ⊢
          omega

/-- The lines of a joined text are those it was joined from exactly when no line runs into the
next one. -/
theorem splitLines_flatten_iff {lines : List Text} (areLines : ∀ line ∈ lines, IsLine line) :
    splitLines lines.flatten = lines.map lineText ↔ Seamless lines := by
  rcases splitKeepends_flatten_cases areLines with ⟨seamless, same⟩ | ⟨broken, fewer⟩
  · exact ⟨fun _ => seamless, fun _ => by rw [splitLines, same]⟩
  · refine ⟨fun same => ?_, fun seamless => absurd seamless broken⟩
    have lengths := congrArg List.length same
    rw [splitLines, List.length_map, List.length_map] at lengths
    omega

theorem unbroken_lineText (line : Text) : Unbroken (lineText line) := by
  intro c mem
  have going := List.mem_takeWhile_imp mem
  rwa [Bool.not_eq_true'] at going

theorem unbroken_of_mem_splitLines {text line : Text} (mem : line ∈ splitLines text) : Unbroken line := by
  obtain ⟨ended, -, rfl⟩ := List.mem_map.mp mem
  exact unbroken_lineText ended

theorem lineText_ended {body ending : Text} (unbroken : Unbroken body)
    (terminator : Terminator ending) : lineText (body ++ ending) = body := by
  rw [lineText, List.takeWhile_append_of_pos fun c mem => by simp [unbroken c mem]]
  rcases terminator with rfl | ⟨c, breaks, rfl⟩
  · simp [isLineBreak_cr]
  · simp [breaks]

theorem lineText_unbroken {line : Text} (unbroken : Unbroken line) : lineText line = line :=
  List.takeWhile_eq_self_iff.mpr fun c mem => by simp [unbroken c mem]

end TextLines
