import Mathlib.Data.Rat.Floor
import OpenSquilla.Scheduler.NextRun

set_option autoImplicit false

namespace OpenSquilla.Scheduler

open Grid RaisingRuns TextCuts TextLines

-- The anchored branch of `_next_run` over exact time, in seconds.
def anchoredRun (interval : Nat) (anchor start : ℚ) : ℚ :=
  let elapsed := start - anchor
  if elapsed < 0 then anchor
  else
    let steps := (elapsed / interval).floor + 1
    anchor + steps * interval

/-- The slots that are visited from a start, when each run ends so much later than its slot. -/
def visits (interval : Nat) (anchor start : ℚ) (late : ℕ → ℚ) : ℕ → ℚ
  | 0 => anchoredRun interval anchor start
  | n + 1 => anchoredRun interval anchor (visits interval anchor start late n + late n)

theorem rat_floor (q : ℚ) : q.floor = ⌊q⌋ := rfl

section Exact

variable {interval : Nat} {anchor : ℚ}

theorem anchoredRun_least (positive : 1 ≤ interval) (start : ℚ) :
    IsLeast (after anchor interval start) (anchoredRun interval anchor start) := by
  have step : (0 : ℚ) < interval := Nat.cast_pos.mpr positive
  unfold anchoredRun
  dsimp only
  split
  next before => exact least_before step (sub_neg.mp before)
  next behind =>
    have least := least_floor step (sub_nonneg.mp (not_lt.mp behind))
    rw [rat_floor]
    push_cast at least ⊢
    exact least

theorem anchoredRun_late (positive : 1 ≤ interval) {slot late : ℚ} (onGrid : slot ∈ instants anchor interval)
    (notEarly : 0 ≤ late) (within : late < interval) :
    anchoredRun interval anchor (slot + late) = slot + interval := by
  have step : (0 : ℚ) < interval := Nat.cast_pos.mpr positive
  obtain ⟨k, rfl⟩ := onGrid
  have least := least_between step k (le_add_of_nonneg_right notEarly)
    (show anchor + k * (interval : ℚ) + late < anchor + (k + 1 : ℕ) * interval by push_cast; linarith)
  rw [(anchoredRun_least positive _).unique least]
  push_cast
  ring

theorem visits_on_grid (positive : 1 ≤ interval) (start : ℚ) (late : ℕ → ℚ) (n : ℕ) :
    visits interval anchor start late n ∈ instants anchor interval := by
  cases n with
  | zero => exact (anchoredRun_least positive start).1.1
  | succ n => exact (anchoredRun_least positive _).1.1

end Exact

structure EveryJob (job : CronJob) (interval : Nat) (anchor : Int) : Prop where
  kind : job.scheduleKind = .every
  digits : isDigits job.cronExpr.toList = true
  read : readInt job.cronExpr.toList = some (interval : Int)
  anchored : job.anchorAt = some anchor

theorem inSeconds_add (instant span : Int) :
    inSeconds (instant + span) = inSeconds instant + inSeconds span := by
  unfold inSeconds
  push_cast
  ring

theorem inSeconds_seconds (count : Int) : inSeconds (seconds count) = count := by
  unfold inSeconds seconds
  push_cast
  ring

theorem inSeconds_le {first last : Int} : inSeconds first ≤ inSeconds last ↔ first ≤ last := by
  unfold inSeconds
  rw [div_le_div_iff_of_pos_right (by norm_num), Int.cast_le]

section Jobs

variable {job : CronJob} {interval : Nat} {anchor : Int}

theorem cronNextRun_every (zoneInfo : Text → Except String Zone) (every : EveryJob job interval anchor)
    (positive : 1 ≤ interval) (start : Int) : ∃ slot : Int, anchor ≤ slot ∧
      inSeconds slot = anchoredRun interval (inSeconds anchor) (inSeconds start) ∧
      (cronNextRun zoneInfo job start = .ok anchor ∧ slot = anchor ∨
        cronNextRun zoneInfo job start = advance anchor (slot - anchor)) := by
  have elapsed : inSeconds (start - anchor) = inSeconds start - inSeconds anchor := by
    unfold inSeconds
    push_cast
    ring
  have branch : cronNextRun zoneInfo job start = intervalRun interval (some anchor) start := by
    unfold cronNextRun
    dsimp only
    rw [if_pos ⟨every.kind, every.digits⟩, every.read, every.anchored]
    rfl
  rw [branch]
  unfold intervalRun anchoredRun
  dsimp only
  rw [elapsed]
  split
  next => exact ⟨anchor, le_refl anchor, rfl, .inl ⟨rfl, rfl⟩⟩
  next behind =>
    have nonzero : (interval : Int) ≠ 0 := by omega
    have forward : 0 ≤ ((inSeconds start - inSeconds anchor) / interval).floor := by
      rw [rat_floor]
      exact Int.floor_nonneg.mpr (div_nonneg (not_lt.mp behind) (Nat.cast_nonneg interval))
    have whole : ((interval : Int) : ℚ) = (interval : ℚ) := Int.cast_natCast interval
    rw [if_neg nonzero, whole]
    refine ⟨_, ?_, ?_, .inr (congrArg _ (add_sub_cancel_left anchor _).symm)⟩
    · have steps : 0 ≤ (((inSeconds start - inSeconds anchor) / interval).floor + 1) * (interval : Int) :=
        mul_nonneg (by omega) (Int.natCast_nonneg interval)
      unfold seconds
      omega
    · rw [inSeconds_add, inSeconds_seconds]
      push_cast
      ring

end Jobs

/-- The next run of an interval job is the least slot behind the start, and a job that runs in time visits every
later slot once and in order. -/
theorem interval_grid (interval : Nat) (positive : 1 ≤ interval) :
    (∀ anchor start : ℚ, IsLeast (after anchor interval start) (anchoredRun interval anchor start)) ∧
    (∀ (anchor start : ℚ) (late : ℕ → ℚ), (∀ n, 0 ≤ late n ∧ late n < interval) →
      StrictMono (visits interval anchor start late) ∧
        Set.range (visits interval anchor start late) = after anchor interval start) ∧
    ∀ (zoneInfo : Text → Except String Zone) (job : CronJob) (anchor start : Int), EveryJob job interval anchor →
      (∀ value : Int, cronNextRun zoneInfo job start = .ok value →
        inSeconds value = anchoredRun interval (inSeconds anchor) (inSeconds start)) ∧
      (minInstant ≤ anchor → anchoredRun interval (inSeconds anchor) (inSeconds start) ≤ inSeconds maxInstant →
        ∃ value, cronNextRun zoneInfo job start = .ok value) := by
  refine ⟨fun anchor start => anchoredRun_least positive start, ?_, ?_⟩
  · intro anchor start late within
    apply range_of_steps (Nat.cast_pos.mpr positive) (anchoredRun_least positive start)
    intro n
    exact anchoredRun_late positive (visits_on_grid positive start late n) (within n).1 (within n).2
  · intro zoneInfo job anchor start every
    obtain ⟨slot, later, exact_, ran⟩ := cronNextRun_every zoneInfo every positive start
    constructor
    · intro value returned
      rw [← exact_]
      obtain ⟨ran, rfl⟩ | ran := ran
      · rw [ran] at returned
        cases returned
        rfl
      · rw [ran] at returned
        obtain ⟨rfl, -⟩ := advance_eq_ok.mp returned
        rw [add_sub_cancel]
    · intro lower upper
      rw [← exact_, inSeconds_le] at upper
      obtain ⟨ran, -⟩ | ran := ran
      · exact ⟨anchor, ran⟩
      · rw [ran]
        exact ⟨_, advance_eq_ok.mpr ⟨rfl, by omega, by rwa [add_sub_cancel]⟩⟩

def minuteJob : CronJob where
  cronExpr := "60"
  updatedAt := 0
  scheduleKind := .every
  anchorAt := some 0

theorem everyJob_minuteJob : EveryJob minuteJob 60 0 := ⟨rfl, by decide, by decide, rfl⟩

/-- The slots of a minute, from two minutes and five seconds on, and the run of a job there. -/
theorem interval_grid_minute : IsLeast (after (0 : ℚ) (60 : ℕ) 125) (anchoredRun 60 0 125) ∧
    ∃ value, cronNextRun (fun _ => .error "no time zone") minuteJob (seconds 125) = .ok value ∧
      inSeconds value = anchoredRun 60 (inSeconds 0) (inSeconds (seconds 125)) := by
  obtain ⟨least, -, runs⟩ := interval_grid 60 (by decide)
  obtain ⟨lands, returns⟩ := runs (fun _ => .error "no time zone") minuteJob 0 (seconds 125) everyJob_minuteJob
  obtain ⟨value, returned⟩ := returns (by decide) (by decide +kernel)
  exact ⟨least 0 125, value, returned, lands value returned⟩

end OpenSquilla.Scheduler
