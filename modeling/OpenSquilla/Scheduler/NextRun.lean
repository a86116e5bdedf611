import OpenSquilla.Scheduler.CronExpression
import OpenSquilla.Scheduler.Job
import OpenSquilla.Shared.Grid

set_option autoImplicit false

namespace OpenSquilla.Scheduler

open Calendar RaisingRuns TextCuts TextLines TextScan

def minInstant : Int := -62135596800000000

def minuteOf (instant : Instant) : Int := instant / seconds 60 + 719162 * 1440

def inSeconds (span : Int) : Rat := span / 1000000

-- The microseconds of a `timedelta`, rounded half to even.
def timedelta (count : Rat) : Int :=
  let whole := (count * 1000000).floor
  let rest := count * 1000000 - whole
  if rest < 1 / 2 ∨ (rest = 1 / 2 ∧ whole % 2 = 0) then whole else whole + 1

def advance (instant delta : Int) : Except String Instant :=
  if minInstant ≤ instant + delta ∧ instant + delta ≤ maxInstant then .ok (instant + delta)
  else .error "date value out of range"

def intervalRun (interval : Int) (anchorAt : Option Instant) (after : Instant) : Except String Instant :=
  match anchorAt with
  | some anchor =>
    let elapsed := inSeconds (after - anchor)
    if elapsed < 0 then .ok anchor
    else if interval = 0 then .error "float floor division by zero"
    else
      let steps := (elapsed / interval).floor + 1
      advance anchor (seconds (steps * interval))
  | none => advance after (seconds interval)

def scanLimit : Nat := 2102400

-- The minutes from the candidate on, as long as the count lasts.
def scan (expr : CronExpression) (wall : Instant → Except String Instant) (failed : String) :
    Nat → Instant → Except String Instant
  | 0, _ => .error failed
  | left + 1, candidate => do
    let shown ← wall candidate
    if expr.matches (civil (minuteOf shown)) then .ok candidate
    else do
      let next ← advance candidate (seconds 60)
      scan expr wall failed left next

def isDigits (text : Text) : Bool := text ≠ [] && text.all isDigit

abbrev Zone := Instant → Except String Instant

def cronNextRun (zoneInfo : Text → Except String Zone) : NextRun := fun job after =>
  let cronExpr := job.cronExpr.toList
  if job.scheduleKind = .every ∧ isDigits cronExpr = true then do
    let interval ← orRaise (readInt cronExpr) "Exceeds the limit for integer string conversion"
    intervalRun interval job.anchorAt after
  else do
    let expr ← parseCron cronExpr
    let tzName := strip job.tz.toList
    let wall ← if tzName = [] then .ok .ok else zoneInfo tzName
    let start ← advance (after - after % seconds 60) (seconds 60)
    let candidate ← scan expr wall
        ("No valid next run found for expression '" ++ job.cronExpr ++ "'") scanLimit start
    advance candidate (timedelta job.jitterSeconds)

section Scan

variable {expr : CronExpression} {failed : String} {candidate : Instant}

def CronExpression.matchesAt (expr : CronExpression) (instant : Instant) : Bool :=
  expr.matches (civil (minuteOf instant))

theorem advance_eq_ok {instant result delta : Int} :
    advance instant delta = .ok result ↔ result = instant + delta ∧ minInstant ≤ result ∧
      result ≤ maxInstant := by
  unfold advance
  split
  next within =>
    constructor
    · rintro ⟨⟩
      exact ⟨rfl, within⟩
    · rintro ⟨rfl, -⟩
      rfl
  next out =>
    refine iff_of_false (by simp) ?_
    rintro ⟨rfl, within⟩
    exact out within

theorem scan_sound {left : Nat} {found : Instant} (ran : scan expr .ok failed left candidate = .ok found) :
    expr.matchesAt found = true ∧ ∃ k < left, found = candidate + k * seconds 60 ∧
      ∀ j < k, expr.matchesAt (candidate + j * seconds 60) = false := by
  induction left generalizing candidate with
  | zero => cases ran
  | succ left ih =>
    obtain ⟨shown, walls, ran⟩ := of_bind_ok ran
    cases walls
    split at ran
    next here =>
      cases ran
      exact ⟨here, 0, Nat.succ_pos left, by simp, by simp⟩
    next passed =>
      obtain ⟨next, advanced, ran⟩ := of_bind_ok ran
      obtain ⟨rfl, -⟩ := advance_eq_ok.mp advanced
      obtain ⟨found, k, short, rfl, before⟩ := ih ran
      refine ⟨found, k + 1, Nat.succ_lt_succ short, by push_cast; ring, ?_⟩
      intro j below
      cases j with
      | zero => simpa [CronExpression.matchesAt] using passed
      | succ j =>
        have shifted := before j (Nat.lt_of_succ_lt_succ below)
        rw [← shifted]
        congr 1
        push_cast
        ring

theorem scan_complete (failed : String) {candidate : Int} {left k : Nat} (short : k < left)
    (lower : minInstant ≤ candidate) (upper : candidate + k * seconds 60 ≤ maxInstant)
    (found : expr.matchesAt (candidate + k * seconds 60) = true) :
    ∃ result : Int, scan expr .ok failed left candidate = .ok result := by
  induction left generalizing k candidate with
  | zero => cases short
  | succ left ih =>
    have here : scan expr .ok failed (left + 1) candidate =
        if expr.matchesAt candidate then .ok candidate
        else (advance candidate (seconds 60)) >>= scan expr .ok failed left := rfl
    rw [here]
    split
    next => exact ⟨candidate, rfl⟩
    next passed =>
      cases k with
      | zero =>
        rw [Nat.cast_zero, zero_mul, add_zero] at found
        exact absurd found passed
      | succ k =>
        have minute : seconds 60 = 60000000 := rfl
        have later : (k + 1 : Nat) * seconds 60 = seconds 60 + k * seconds 60 := by
          push_cast
          ring
        have forward : 0 ≤ (k : Int) * seconds 60 := mul_nonneg (Nat.cast_nonneg k) (by decide)
        rw [later] at upper
        have same : candidate + seconds 60 + k * seconds 60 = candidate + (k + 1 : Nat) * seconds 60 := by
          push_cast
          ring
        have advanced : advance candidate (seconds 60) = .ok (candidate + seconds 60) :=
          advance_eq_ok.mpr ⟨rfl, by omega, by omega⟩
        rw [advanced]
        refine ih (Nat.lt_of_succ_lt_succ short) (by omega) (by omega) ?_
        rw [same]
        exact found

end Scan

section Cron

variable {job : CronJob} {expr : CronExpression}

/-- The whole minutes later than the minute of an instant at which the expression matches. -/
def LaterMatches (expr : CronExpression) (after : Int) : Set Int :=
  {instant | instant % seconds 60 = 0 ∧ minuteOf after < minuteOf instant ∧ expr.matchesAt instant = true}

theorem isDigit_of_isSpace {c : Char} (space : isSpace c = true) : isDigit c = false := by
  have none_ : ∀ n ∈ spaces, decimalZeros.find? (fun first => first ≤ n && n < first + 10) = none := by decide
  have mem : c.toNat ∈ spaces := List.contains_iff_mem.mp space
  rw [isDigit, digitValue?, none_ _ mem]
  rfl

theorem not_isDigits_of_parseCron {text : Text} (accepted : parseCron text = .ok expr) :
    isDigits text = false := by
  rw [Bool.eq_false_iff]
  intro digits
  simp only [isDigits, Bool.and_eq_true, decide_eq_true_eq, List.all_eq_true] at digits
  obtain ⟨nonempty, digits⟩ := digits
  have unspaced : ∀ c ∈ text, isSpace c = false := by
    intro c inside
    rw [Bool.eq_false_iff]
    intro space
    have digit := digits c inside
    rw [isDigit_of_isSpace space] at digit
    cases digit
  have stripped : strip text = text :=
    strip_of_edges (fun c here => unspaced c (List.mem_of_head? here))
      (fun c here => unspaced c (List.mem_of_getLast? here))
  have noPreset : text.head? ≠ some '@' := by
    intro here
    have digit := digits '@' (List.mem_of_head? here)
    revert digit
    decide
  have single : words text = [text] := by
    rw [words, List.splitOnP_eq_singleton unspaced]
    simp [nonempty]
  unfold parseCron at accepted
  rw [stripped, expandPreset, if_neg noPreset] at accepted
  obtain ⟨_, same, accepted⟩ := of_bind_ok accepted
  cases same
  rw [single] at accepted
  cases accepted

theorem mem_laterMatches {after instant : Int} : instant ∈ LaterMatches expr after ↔ ∃ k : Nat,
      instant = after - after % seconds 60 + seconds 60 + k * seconds 60 ∧ expr.matchesAt instant = true := by
  simp only [LaterMatches, Set.mem_ofPred_eq, minuteOf, show seconds 60 = 60000000 from rfl]
  constructor
  · rintro ⟨whole, later, found⟩
    exact ⟨(instant / 60000000 - after / 60000000 - 1).toNat, by omega, found⟩
  · rintro ⟨k, same, found⟩
    exact ⟨by omega, by omega, found⟩

theorem cronNextRun_eq (zoneInfo : Text → Except String Zone)
    (accepted : parseCron job.cronExpr.toList = .ok expr) (utc : strip job.tz.toList = [])
    (noJitter : job.jitterSeconds = 0) (after : Instant) : ∃ failed, cronNextRun zoneInfo job after =
      (advance (after - after % seconds 60)
        (seconds 60) >>= scan expr .ok failed scanLimit) >>= (advance · 0) := by
  have timed : ¬(job.scheduleKind = .every ∧ isDigits job.cronExpr.toList = true) := by
    rw [not_isDigits_of_parseCron accepted]
    exact fun both => Bool.false_ne_true both.2
  have still : timedelta job.jitterSeconds = 0 := by
    rw [noJitter]
    norm_num [timedelta, show Rat.floor 0 = 0 from rfl]
  refine ⟨"No valid next run found for expression '" ++ job.cronExpr ++ "'", ?_⟩
  unfold cronNextRun
  dsimp only
  rw [if_neg timed, accepted]
  change (if strip job.tz.toList = [] then _ else _) = _
  rw [if_pos utc, still]
  cases advance (after - after % seconds 60) (seconds 60) <;> rfl

theorem isLeast_of_scan {failed : String} {after found : Int}
    (ran : scan expr .ok failed scanLimit (after - after % seconds 60 + seconds 60) = .ok found) :
    IsLeast (LaterMatches expr after) found ∧ minuteOf found ≤ minuteOf after + scanLimit := by
  obtain ⟨matched, k, short, rfl, before⟩ := scan_sound ran
  refine ⟨⟨mem_laterMatches.mpr ⟨k, rfl, matched⟩, ?_⟩, ?_⟩
  · intro instant mem
    obtain ⟨j, rfl, matches_⟩ := mem_laterMatches.mp mem
    have order : k ≤ j := by
      by_contra below
      rw [before j (Nat.lt_of_not_le below)] at matches_
      cases matches_
    have steps : (k : Int) * seconds 60 ≤ j * seconds 60 :=
      mul_le_mul_of_nonneg_right (Nat.cast_le.mpr order) (by decide)
    omega
  · simp only [minuteOf, scanLimit, show seconds 60 = 60000000 from rfl] at short ⊢
    omega

/-- The next run is the least match exactly when one lies among the minutes that the scan goes through and that
there are in the calendar. -/
theorem cronNextRun_least_iff (zoneInfo : Text → Except String Zone) (job : CronJob) (after : Int)
    (expr : CronExpression) (accepted : parseCron job.cronExpr.toList = .ok expr)
    (utc : strip job.tz.toList = []) (noJitter : job.jitterSeconds = 0) (within : minInstant ≤ after) :
    (∃ value : Int, cronNextRun zoneInfo job after = .ok value ∧ IsLeast (LaterMatches expr after) value) ↔
      ∃ instant ∈ LaterMatches expr after, minuteOf instant ≤ minuteOf after + scanLimit ∧
        instant ≤ maxInstant := by
  obtain ⟨failed, runs⟩ := cronNextRun_eq zoneInfo accepted utc noJitter after
  have minute : seconds 60 = 60000000 := rfl
  constructor
  · rintro ⟨value, ran, least⟩
    rw [runs] at ran
    obtain ⟨candidate, ran, jittered⟩ := of_bind_ok ran
    obtain ⟨start, started, scanned⟩ := of_bind_ok ran
    obtain ⟨rfl, -⟩ := advance_eq_ok.mp started
    obtain ⟨same, -, upper⟩ := advance_eq_ok.mp jittered
    obtain rfl : value = candidate := by rw [same, add_zero]
    exact ⟨value, least.1, (isLeast_of_scan scanned).2, upper⟩
  · rintro ⟨instant, mem, bounded, upper⟩
    obtain ⟨k, same, found⟩ := mem_laterMatches.mp mem
    have forward : 0 ≤ (k : Int) * seconds 60 := mul_nonneg (Nat.cast_nonneg k) (by decide)
    have part : after % seconds 60 < seconds 60 := Int.emod_lt_of_pos after (by decide)
    have short : k < scanLimit := by
      simp only [minuteOf, minute] at same bounded
      omega
    have started : advance (after - after % seconds 60) (seconds 60) =
        .ok (after - after % seconds 60 + seconds 60) :=
      advance_eq_ok.mpr ⟨rfl, by omega, by omega⟩
    rw [same] at found upper
    obtain ⟨value, scanned⟩ := scan_complete failed short (by omega) upper found
    obtain ⟨least, -⟩ := isLeast_of_scan scanned
    have early : value ≤ instant := least.2 mem
    have late : after < value := by
      have later := least.1.2.1
      simp only [minuteOf, minute] at later
      omega
    refine ⟨value, ?_, least⟩
    rw [runs, started]
    change scan expr .ok failed scanLimit _ >>= (advance · 0) = _
    rw [scanned]
    exact advance_eq_ok.mpr ⟨(add_zero value).symm, by omega, by omega⟩

def leapDayJob : CronJob where
  updatedAt := 0
  cronExpr := "0 0 29 2 *"

def leapDayMidnight : CronExpression where
  minute := ⟨{0}, true⟩
  hour := ⟨{0}, true⟩
  dayOfMonth := ⟨{29}, true⟩
  month := ⟨{2}, true⟩
  dayOfWeek := ⟨{0, 1, 2, 3, 4, 5, 6}, false⟩
  raw := "0 0 29 2 *".toList

theorem parseCron_leapDay : parseCron leapDayJob.cronExpr.toList = .ok leapDayMidnight := by
  decide

/-- From the first of January of 2024. -/
theorem cronNextRun_least_leapDay :
    ∃ value : Int, cronNextRun (fun _ => .error "no zone") leapDayJob 1704067200000000 = .ok value ∧
      IsLeast (LaterMatches leapDayMidnight 1704067200000000) value := by
  refine (cronNextRun_least_iff (fun _ => .error "no zone") leapDayJob 1704067200000000 leapDayMidnight
    parseCron_leapDay (by decide) rfl (by decide)).mpr ?_
  exact ⟨1709164800000000, ⟨by decide, by decide, by decide⟩, by decide, by decide⟩

theorem no_leapDay_before_2028 :
    ∀ k : Nat, k < 1460 → (ord2ymd (738946 + k)).day ≠ 29 ∨ (ord2ymd (738946 + k)).month ≠ 2 := by
  intro k early
  by_contra both
  rw [not_or, not_not, not_not] at both
  have place := ord2ymd_leapDay both.2 both.1
  have fourCenturies : (738946 + (k : Int) - 1) % 146097 = 8460 + k := by omega
  have century : (8460 + (k : Int)) % 36524 = 8460 + k := by omega
  rw [fourCenturies, century] at place
  omega

theorem of_leapDayMidnight {shown : Civil} (found : leapDayMidnight.matches shown = true) :
    shown.minute = 0 ∧ shown.hour = 0 ∧ shown.date.month = 2 ∧ shown.date.day = 29 := by
  simp [CronExpression.matches, CronField.matches, leapDayMidnight] at found
  tauto

/-- From a leap day at midnight the next one lies a day behind the end of the scan. -/
theorem next_leapDay_is_missed : parseCron leapDayJob.cronExpr.toList = .ok leapDayMidnight ∧
      (1835395200000000 : Int) ∈ LaterMatches leapDayMidnight 1709164800000000 ∧
      ∀ value : Int, cronNextRun (fun _ => .error "no zone") leapDayJob 1709164800000000 ≠ .ok value := by
  refine ⟨parseCron_leapDay, ⟨by decide, by decide, by decide⟩, ?_⟩
  intro value ran
  obtain ⟨failed, runs⟩ := cronNextRun_eq (fun _ => .error "no zone") parseCron_leapDay (by decide) rfl
    1709164800000000
  rw [runs] at ran
  obtain ⟨candidate, ran, -⟩ := of_bind_ok ran
  obtain ⟨start, started, scanned⟩ := of_bind_ok ran
  obtain ⟨rfl, -⟩ := advance_eq_ok.mp started
  obtain ⟨found, k, short, rfl, -⟩ := scan_sound scanned
  obtain ⟨minute, hour, month, day⟩ := of_leapDayMidnight found
  -- the minute is the first of its day
  have within : ∃ j < 1460, minuteOf ((1709164800000000 : Int) - 1709164800000000 % seconds 60 + seconds 60 +
      k * seconds 60) / 1440 + 1 = 738946 + (j : Nat) := by
    simp only [civil, minuteOf, scanLimit, show seconds 60 = 60000000 from rfl] at minute hour short ⊢
    exact ⟨(k + 1) / 1440 - 1, by omega, by omega⟩
  obtain ⟨j, early, same⟩ := within
  have apart := no_leapDay_before_2028 j early
  rw [← same] at apart
  obtain noDay | noMonth := apart
  · exact noDay day
  · exact noMonth month

end Cron

end OpenSquilla.Scheduler
