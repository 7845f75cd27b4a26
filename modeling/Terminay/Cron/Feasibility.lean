import Mathlib.Data.List.Pairwise
import Terminay.Cron.Firings

/-!
# Schedules that run

Every date but the leap day falls on every weekday within fourteen years, well within the horizon.
-/

namespace Terminay.Cron
open Script Outcome

variable {schedule : CronSchedule} {after : ℤ}

def dayMatches (schedule : CronSchedule) (day : ℤ) : Bool :=
  matchesDay schedule (Calendar.dayOfMonth day).toNat (Calendar.month day).toNat
    (Calendar.weekday day).toNat

/-- The schedule matches leap days only, and only those on its weekdays. -/
structure LeapOnly (schedule : CronSchedule) : Prop where
  star : schedule.dayOfWeek.star = true
  february : schedule.month.values = [2]
  late : ∀ d ∈ schedule.dayOfMonth.values, 29 ≤ d

def dayStart (day : ℤ) : ℤ := (day - 719468) * dayMs

def lastWall (schedule : CronSchedule) (day : ℤ) : ℤ :=
  dayStart day + (schedule.hour.values.getLast?.getD 0 : ℕ) * hourMs +
    (schedule.minute.values.getLast?.getD 0 : ℕ) * minuteMs

/-- A leap day on one of the weekdays of the schedule whose last minute comes after `after` and
before the horizon of the search. -/
structure LeapInSight (schedule : CronSchedule) (after leap : ℤ) : Prop where
  february : Calendar.month leap = 2
  last : Calendar.dayOfMonth leap = 29
  weekday : (Calendar.weekday leap).toNat ∈ schedule.dayOfWeek.values
  later : after < lastWall schedule leap
  sighted : dayStart leap < horizon after

theorem matchesDate_eq (wall : ℤ) :
    matchesDate schedule wall = dayMatches schedule (calendarDay wall) := by
  have hmonth := (Calendar.month_bounds (calendarDay wall)).1
  have hsame : getUTCMonth wall + 1 = (Calendar.month (calendarDay wall)).toNat := by
    unfold getUTCMonth
    omega
  unfold matchesDate dayMatches
  rw [hsame]
  rfl

theorem dayMatches_iff {day : ℤ} : dayMatches schedule day = true ↔
    (Calendar.month day).toNat ∈ schedule.month.values ∧
      if schedule.dayOfMonth.star = true ∨ schedule.dayOfWeek.star = true then
        (Calendar.dayOfMonth day).toNat ∈ schedule.dayOfMonth.values ∧
          (Calendar.weekday day).toNat ∈ schedule.dayOfWeek.values
      else (Calendar.dayOfMonth day).toNat ∈ schedule.dayOfMonth.values ∨
        (Calendar.weekday day).toNat ∈ schedule.dayOfWeek.values := by
  unfold dayMatches matchesDay
  split_ifs with hmonth hstar hstar' hstar' <;> simp_all

/-! ## Days -/

theorem maxDays_eq {m : ℕ} (hm : 1 ≤ m) (hm' : m ≤ 12) :
    (((maxDaysInMonth[m - 1]?).getD 0 : ℕ) : ℤ) = Calendar.longest m := by
  interval_cases m <;> rfl

theorem possible_iff (hs : ScheduleSound schedule) : possible schedule = true ↔
    ∃ m ∈ schedule.month.values, ∃ d ∈ schedule.dayOfMonth.values,
      (d : ℤ) ≤ Calendar.longest m := by
  simp only [possible, List.any_eq_true, decide_eq_true_eq]
  refine exists_congr fun m => and_congr_right fun hm => exists_congr fun d => and_congr_right fun _ => ?_
  obtain ⟨hlow, hhigh⟩ := hs.month.bounded m hm
  rw [← maxDays_eq hlow hhigh]
  exact Nat.cast_le.symm

theorem exists_date {m d k : ℕ} (hs : ScheduleSound schedule) (hm : m ∈ schedule.month.values)
    (hd : 1 ≤ d) (hd' : (d : ℤ) ≤ Calendar.longest m) (hleap : ¬(m = 2 ∧ d = 29))
    (hk : k ∈ schedule.dayOfWeek.values) (day : ℤ) :
    ∃ x, day < x ∧ x ≤ day + 5124 ∧ (Calendar.month x).toNat = m ∧
      (Calendar.dayOfMonth x).toNat = d ∧ (Calendar.weekday x).toNat = k := by
  obtain ⟨hlow, hhigh⟩ : 1 ≤ m ∧ m ≤ 12 := hs.month.bounded m hm
  have hweek : k ≤ 6 := (hs.dayOfWeek.bounded k hk).2
  obtain ⟨x, hlt, hle, hmonth, hdate, hweekday⟩ := Calendar.exists_weekday
    (show (1 : ℤ) ≤ m by omega) (show (m : ℤ) ≤ 12 by omega) (show (1 : ℤ) ≤ d by omega) hd'
    (show ¬((m : ℤ) = 2 ∧ (d : ℤ) = 29) by omega) day (show (0 : ℤ) ≤ k by omega)
    (show (k : ℤ) < 7 by omega)
  exact ⟨x, hlt, hle, by omega, by omega, by omega⟩

theorem exists_pair (hs : ScheduleSound schedule) (hstar : schedule.dayOfWeek.star = true)
    (hpossible : possible schedule = true) (hleap : ¬ LeapOnly schedule) :
    ∃ m ∈ schedule.month.values, ∃ d ∈ schedule.dayOfMonth.values,
      (d : ℤ) ≤ Calendar.longest m ∧ ¬(m = 2 ∧ d = 29) := by
  by_contra hnone
  have hall : ∀ m ∈ schedule.month.values, ∀ d ∈ schedule.dayOfMonth.values,
      (d : ℤ) ≤ Calendar.longest m → m = 2 ∧ d = 29 := by
    intro m hm d hd hle
    by_contra hother
    exact hnone ⟨m, hm, d, hd, hle, hother⟩
  obtain ⟨m, hm, d, hd, hle⟩ := (possible_iff hs).mp hpossible
  obtain ⟨rfl, rfl⟩ := hall m hm d hd hle
  have honly : ∀ m' ∈ schedule.month.values, m' = 2 := by
    intro m' hm'
    have hlong : ((29 : ℕ) : ℤ) ≤ Calendar.longest m' := by
      unfold Calendar.longest
      split_ifs <;> omega
    exact (hall m' hm' 29 hd hlong).1
  have hlate : ∀ d' ∈ schedule.dayOfMonth.values, 29 ≤ d' := by
    intro d' hd'
    by_contra hearly
    have hshort : (d' : ℤ) ≤ Calendar.longest (2 : ℕ) := by
      change (d' : ℤ) ≤ 29
      omega
    have hsame := (hall 2 hm d' hd' hshort).2
    omega
  refine hleap ⟨hstar, ?_, hlate⟩
  have hsorted := hs.month.sorted
  rcases hvalues : schedule.month.values with _ | ⟨a, _ | ⟨b, rest⟩⟩
  · exact absurd hvalues hs.month.filled
  · rw [hvalues] at honly
    rw [honly a (by simp)]
  · rw [hvalues] at honly hsorted
    have hlt : a < b := (List.pairwise_cons.mp hsorted).1 b (by simp)
    rw [honly a (by simp), honly b (by simp)] at hlt
    exact absurd hlt (lt_irrefl 2)

theorem exists_dayMatches (hs : ScheduleSound schedule)
    (hpossible : schedule.dayOfWeek.star = true → possible schedule = true)
    (hleap : ¬ LeapOnly schedule) (day : ℤ) :
    ∃ x, day < x ∧ x ≤ day + 5124 ∧ dayMatches schedule x = true := by
  obtain ⟨k, hk⟩ := List.exists_mem_of_ne_nil _ hs.dayOfWeek.filled
  obtain ⟨m₀, hm₀⟩ := List.exists_mem_of_ne_nil _ hs.month.filled
  by_cases hstar : schedule.dayOfWeek.star = true
  · obtain ⟨m, hm, d, hd, hle, hother⟩ := exists_pair hs hstar (hpossible hstar) hleap
    have hpos : 1 ≤ d := (hs.dayOfMonth.bounded d hd).1
    obtain ⟨x, hlt, hle, hmonth, hdate, hweekday⟩ := exists_date hs hm hpos hle hother hk day
    refine ⟨x, hlt, hle, dayMatches_iff.mpr ⟨by rwa [hmonth], ?_⟩⟩
    rw [if_pos (.inr hstar), hdate, hweekday]
    exact ⟨hd, hk⟩
  · have hfirst : ((1 : ℕ) : ℤ) ≤ Calendar.longest m₀ := by
      unfold Calendar.longest
      split_ifs <;> omega
    obtain ⟨x, hlt, hle, hmonth, hdate, hweekday⟩ :=
      exists_date hs hm₀ le_rfl hfirst (by omega) hk day
    refine ⟨x, hlt, hle, dayMatches_iff.mpr ⟨by rwa [hmonth], ?_⟩⟩
    rw [hdate, hweekday]
    split_ifs with hboth
    · exact ⟨hs.dayOfMonth.star (hboth.resolve_right hstar), hk⟩
    · exact .inr hk

/-- A schedule that is refused matches no calendar day. -/
theorem dayMatches_refused (hs : ScheduleSound schedule)
    (hstar : schedule.dayOfWeek.star = true) (hpossible : possible schedule = false) (day : ℤ) :
    dayMatches schedule day = false := by
  rw [← Bool.not_eq_true, dayMatches_iff, if_pos (.inr hstar)]
  rintro ⟨hmonth, hdate, -⟩
  have hbounds := Calendar.month_bounds day
  have hpos := Calendar.dayOfMonth_pos day
  have hle := Calendar.dayOfMonth_le day
  have hsome : possible schedule = true := by
    refine (possible_iff hs).mpr ⟨_, hmonth, _, hdate, ?_⟩
    rw [Int.toNat_of_nonneg (by omega), Int.toNat_of_nonneg (by omega)]
    exact hle
  rw [hsome] at hpossible
  cases hpossible

/-! ## Firings within the horizon -/

theorem nextOccurrence_isSome (hs : ScheduleSound schedule) :
    (nextOccurrence (fun _ => 0) schedule after).isSome = true ↔
      ∃ t, after < t ∧ Fires schedule t ∧ t < horizon after := by
  have hlow : -maxOffset ≤ 0 := by decide
  have hmem : ∀ t, t ∈ instants after 0 (walls schedule after) ↔
      FiresAfter schedule 0 after t ∧ t + 0 < horizon after := fun t => mem_instants hs hlow
  unfold nextOccurrence
  rw [nextOccurrences_fixed (fun _ => rfl) hlow, List.head?_take, if_neg one_ne_zero]
  constructor
  · intro h
    obtain ⟨t, ht⟩ := Option.isSome_iff_exists.mp h
    obtain ⟨⟨hlater, hfires⟩, hbefore⟩ := (hmem t).mp (List.mem_of_head? ht)
    rw [add_zero] at hfires hbefore
    exact ⟨t, hlater, hfires, hbefore⟩
  · rintro ⟨t, hlater, hfires, hbefore⟩
    have hin := (hmem t).mpr ⟨⟨hlater, by rwa [add_zero]⟩, by rwa [add_zero]⟩
    rw [List.isSome_head?]
    exact List.ne_nil_of_mem hin

theorem le_last {l : List ℕ} (hsorted : l.Pairwise (· < ·)) {v : ℕ} (hv : v ∈ l) :
    v ≤ l.getLast?.getD 0 := by
  rw [List.getLast?_eq_getLast_of_ne_nil (List.ne_nil_of_mem hv), Option.getD_some]
  exact (hsorted.imp le_of_lt).rel_getLast hv

theorem last_mem {l : List ℕ} (hne : l ≠ []) : l.getLast?.getD 0 ∈ l := by
  rw [List.getLast?_eq_getLast_of_ne_nil hne, Option.getD_some]
  exact List.getLast_mem hne

theorem horizon_day {wall : ℤ} : wall < horizon after ↔
    dayStart (calendarDay wall) < horizon after := by
  have hstart : startDay after % dayMs = 0 := Int.mul_emod_left _ _
  unfold horizon dayStart calendarDay
  simp only [units.2.2.1] at *
  omega

section Sound

variable (hs : ScheduleSound schedule)
include hs

theorem calendarDay_at (day : ℤ) {hour minute : ℕ} (hhour : hour ∈ schedule.hour.values)
    (hminute : minute ∈ schedule.minute.values) :
    calendarDay (dayStart day + hour * hourMs + minute * minuteMs) = day := by
  have hhour' : hour ≤ 23 := (hs.hour.bounded hour hhour).2
  have hminute' : minute ≤ 59 := (hs.minute.bounded minute hminute).2
  unfold calendarDay dayStart
  simp only [units.1, units.2.1, units.2.2.1]
  omega

theorem fires_at {day : ℤ} {hour minute : ℕ} (hday : dayMatches schedule day = true)
    (hhour : hour ∈ schedule.hour.values) (hminute : minute ∈ schedule.minute.values) :
    Fires schedule (dayStart day + hour * hourMs + minute * minuteMs) := by
  have hhour' : hour ≤ 23 := (hs.hour.bounded hour hhour).2
  have hminute' : minute ≤ 59 := (hs.minute.bounded minute hminute).2
  have hcalendar := calendarDay_at hs day hhour hminute
  unfold dayStart at *
  refine ⟨?_, ?_, ?_, ?_⟩
  · simp only [units.1, units.2.1, units.2.2.1]
    omega
  · convert hminute using 1
    simp only [units.1, units.2.1, units.2.2.1]
    omega
  · convert hhour using 1
    simp only [units.1, units.2.1, units.2.2.1]
    omega
  · rwa [matchesDate_eq, hcalendar]

theorem fires_le_lastWall {wall : ℤ} (h : Fires schedule wall) :
    wall ≤ lastWall schedule (calendarDay wall) := by
  have hwhole := h.whole
  have hhour := le_last hs.hour.sorted h.hour
  have hminute := le_last hs.minute.sorted h.minute
  unfold lastWall dayStart calendarDay
  simp only [units.1, units.2.1, units.2.2.1] at *
  omega

theorem leap_mem (hpossible : possible schedule = true) (hleap : LeapOnly schedule) :
    29 ∈ schedule.dayOfMonth.values := by
  obtain ⟨m, hm, d, hd, hle⟩ := (possible_iff hs).mp hpossible
  rw [hleap.february] at hm
  rw [List.mem_singleton.mp hm, show Calendar.longest (2 : ℕ) = 29 from rfl] at hle
  have hlate := hleap.late d hd
  rwa [show d = 29 by omega] at hd

theorem leapInSight_iff (hpossible : possible schedule = true) (hleap : LeapOnly schedule) :
    (∃ t, after < t ∧ Fires schedule t ∧ t < horizon after) ↔
      ∃ leap, LeapInSight schedule after leap := by
  constructor
  · rintro ⟨t, hlater, hfires, hbefore⟩
    have hmatch := hfires.day
    rw [matchesDate_eq, dayMatches_iff, if_pos (.inr hleap.star), hleap.february] at hmatch
    obtain ⟨hmonth, hdate, hweekday⟩ := hmatch
    have htwo := List.mem_singleton.mp hmonth
    have hlate := hleap.late _ hdate
    have hfebruary : Calendar.month (calendarDay t) = 2 := by omega
    have hle := Calendar.dayOfMonth_le (calendarDay t)
    rw [hfebruary, show Calendar.longest 2 = 29 from rfl] at hle
    exact ⟨calendarDay t, hfebruary, by omega, hweekday,
      hlater.trans_le (fires_le_lastWall hs hfires), horizon_day.mp hbefore⟩
  · rintro ⟨leap, h⟩
    have hday : dayMatches schedule leap = true := by
      rw [dayMatches_iff, if_pos (.inr hleap.star), h.february, h.last, hleap.february]
      exact ⟨List.mem_singleton.mpr rfl, leap_mem hs hpossible hleap, h.weekday⟩
    have hhour := last_mem hs.hour.filled
    have hminute := last_mem hs.minute.filled
    refine ⟨lastWall schedule leap, h.later, fires_at hs hday hhour hminute, ?_⟩
    rw [horizon_day, lastWall, calendarDay_at hs leap hhour hminute]
    exact h.sighted

/-- The firing of a date that is no leap day lies within fourteen years. -/
theorem exists_firing
    (hpossible : schedule.dayOfWeek.star = true → possible schedule = true)
    (hleap : ¬ LeapOnly schedule) (after : ℤ) :
    ∃ t, after < t ∧ Fires schedule t ∧ t < horizon after := by
  obtain ⟨x, hlt, hle, hday⟩ := exists_dayMatches hs hpossible hleap (calendarDay after)
  have hhour := last_mem hs.hour.filled
  have hminute := last_mem hs.minute.filled
  have hcalendar := calendarDay_at hs x hhour hminute
  refine ⟨lastWall schedule x, ?_, fires_at hs hday hhour hminute, ?_⟩
  · unfold lastWall dayStart
    unfold calendarDay at hlt
    simp only [units.1, units.2.1, units.2.2.1] at *
    omega
  · rw [horizon_day, lastWall, hcalendar]
    unfold horizon startDay lowestWall dayStart searchDays
    unfold calendarDay at hle
    simp only [units.1, units.2.1, units.2.2] at *
    omega

end Sound

theorem parseCron_possible (expression : Str) : Ensures (parseCron expression) fun schedule =>
    schedule.dayOfWeek.star = true → possible schedule = true := by
  refine Ensures.bind fun schedule _ => ?_
  refine Ensures.ite (fun _ => Ensures.error) fun hpossible => Ensures.ok fun hstar => ?_
  rw [hstar] at hpossible
  simpa using hpossible

def leapSundays : CronSchedule where
  expression := js "0 0 29 2 */7"
  minute := ⟨.minute, js "0", [⟨false, 0, 0, 1⟩], [0], false, false⟩
  hour := ⟨.hour, js "0", [⟨false, 0, 0, 1⟩], [0], false, false⟩
  dayOfMonth := ⟨.dayOfMonth, js "29", [⟨false, 29, 29, 1⟩], [29], false, false⟩
  month := ⟨.month, js "2", [⟨false, 2, 2, 1⟩], [2], false, false⟩
  dayOfWeek := ⟨.dayOfWeek, js "*/7", [⟨true, 0, 7, 7⟩], [0], true, false⟩

theorem leapSundays_parsed : parseCron (js "0 0 29 2 */7") = .ok leapSundays := rfl

end Terminay.Cron
