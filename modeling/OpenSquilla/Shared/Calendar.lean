import Mathlib.Data.Int.Notation

set_option autoImplicit false

namespace Calendar

def monthLengths (leap : Bool) : List Int :=
  [31, if leap then 29 else 28, 31, 30, 31, 30, 31, 31, 30, 31, 30, 31]

structure Date where
  year : Int
  month : Int
  day : Int

/-- The month and the day in it, of a day counted from 0 in the months that are left. -/
def monthDay : List Int → Int → Int → Int × Int
  | [], month, rest => (month, rest + 1)
  | length :: later, month, rest =>
    if rest < length then (month, rest + 1) else monthDay later (month + 1) (rest - length)

def ord2ymd (ordinal : Int) : Date :=
  let n := ordinal - 1
  let n400 := n / 146097
  let n := n % 146097
  let n100 := n / 36524
  let n := n % 36524
  let n4 := n / 1461
  let n := n % 1461
  let n1 := n / 365
  let n := n % 365
  let year := n400 * 400 + 1 + n100 * 100 + n4 * 4 + n1
  -- the last day of a leap year that ends four or four hundred years
  if n1 = 4 ∨ n100 = 4 then ⟨year - 1, 12, 31⟩
  else
    let leap : Bool := n1 = 3 && (n4 ≠ 24 || n100 = 3)
    let found := monthDay (monthLengths leap) 1 n
    ⟨year, found.1, found.2⟩

structure Civil where
  date : Date
  hour : Int
  minute : Int
  weekday : Int

def civil (minutes : Int) : Civil where
  date := ord2ymd (minutes / 1440 + 1)
  hour := minutes / 60 % 24
  minute := minutes % 60
  weekday := (minutes / 1440 + 1 + 6) % 7

theorem le_monthDay (lengths : List Int) (start rest : Int) : start ≤ (monthDay lengths start rest).1 := by
  induction lengths generalizing start rest with
  | nil => exact Int.le_refl start
  | cons length later ih =>
    rw [monthDay]
    split
    · exact Int.le_refl start
    · exact Int.le_trans (by omega) (ih (start + 1) (rest - length))

theorem monthDay_leapDay {leap : Bool} {rest : Int} (month : (monthDay (monthLengths leap) 1 rest).1 = 2)
    (day : (monthDay (monthLengths leap) 1 rest).2 = 29) : leap = true ∧ rest = 59 := by
  rw [monthLengths, monthDay] at month day
  by_cases january : rest < 31
  · rw [if_pos january] at month
    cases month
  rw [if_neg january, monthDay] at month day
  by_cases february : rest - 31 < if leap then 29 else 28
  · rw [if_pos february] at day
    cases leap with
    | true => exact ⟨rfl, by omega⟩
    | false =>
      rw [if_neg Bool.false_ne_true] at february
      omega
  · rw [if_neg february] at month
    have above :=
      le_monthDay [31, 30, 31, 30, 31, 31, 30, 31, 30, 31] (1 + 1 + 1) (rest - 31 - if leap then 29 else 28)
    rw [month] at above
    exact absurd above (by decide)

theorem ord2ymd_leapDay {ordinal : Int} (month : (ord2ymd ordinal).month = 2)
    (day : (ord2ymd ordinal).day = 29) : (ordinal - 1) % 146097 % 36524 % 1461 = 1154 := by
  unfold ord2ymd at month day
  dsimp only at month day
  split at month
  · cases month
  rename_i inside
  rw [if_neg inside] at day
  obtain ⟨leap, here⟩ := monthDay_leapDay month day
  simp only [Bool.and_eq_true, decide_eq_true_eq] at leap
  omega

end Calendar
