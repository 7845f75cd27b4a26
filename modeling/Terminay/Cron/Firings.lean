import Terminay.Cron.Fields
import Terminay.Cron.Occurrences

/-!
# The firings of a schedule

A schedule fires at the wall-clock minutes that its fields match.
-/

namespace Terminay.Cron

structure Fires (schedule : CronSchedule) (wall : ℤ) : Prop where
  whole : wall % minuteMs = 0
  minute : (wall / minuteMs % 60).toNat ∈ schedule.minute.values
  hour : (wall / hourMs % 24).toNat ∈ schedule.hour.values
  day : matchesDate schedule wall = true

def FiresAfter (schedule : CronSchedule) (offset after instant : ℤ) : Prop :=
  after < instant ∧ Fires schedule (instant + offset)

def horizon (after : ℤ) : ℤ := startDay after + searchDays * dayMs

structure Smallest (P : ℤ → Prop) (count : ℕ) (l : List ℤ) : Prop where
  increasing : l.Pairwise (· < ·)
  exact : l.length = count
  members : ∀ t ∈ l, P t
  least : ∀ t, P t → t ∉ l → ∀ u ∈ l, u < t

/-! ## Loops that return -/

def collected : Except (List ℤ) (List ℤ) → List ℤ
  | .ok results => results
  | .error returned => returned

variable {offsetAt : ℤ → ℤ} {schedule : CronSchedule} {after offset : ℤ} {count : ℕ}

def hourWalls (schedule : CronSchedule) (after dayStart : ℤ) (hour : ℕ) : List ℤ :=
  if dayStart + hour * hourMs + hourMs ≤ lowestWall after then []
  else schedule.minute.values.map fun minute => dayStart + hour * hourMs + (minute : ℕ) * minuteMs

def dayWalls (schedule : CronSchedule) (after : ℤ) (dayIndex : ℕ) : List ℤ :=
  let dayStart := startDay after + dayIndex * dayMs
  if matchesDate schedule dayStart then
    schedule.hour.values.flatMap (hourWalls schedule after dayStart)
  else []

def walls (schedule : CronSchedule) (after : ℤ) : List ℤ :=
  (List.range searchDays).flatMap (dayWalls schedule after)

theorem tryHour_eq (dayStart : ℤ) (results : List ℤ) (hour : ℕ) :
    tryHour offsetAt schedule after count dayStart results hour =
      (hourWalls schedule after dayStart hour).foldlM (tryWall offsetAt after count) results := by
  unfold tryHour hourWalls
  dsimp only
  split_ifs
  · rfl
  · rw [List.foldlM_map]

theorem tryDay_eq (results : List ℤ) (dayIndex : ℕ) :
    tryDay offsetAt schedule after count results dayIndex =
      (dayWalls schedule after dayIndex).foldlM (tryWall offsetAt after count) results := by
  unfold tryDay dayWalls
  dsimp only
  split_ifs
  · rw [Lists.foldlM_flatMap]
    exact congrArg (fun f => schedule.hour.values.foldlM f results)
      (funext fun results => funext fun hour => tryHour_eq _ results hour)
  · rfl

theorem nextOccurrences_eq (hcount : count ≠ 0) : nextOccurrences offsetAt schedule after count =
    collected ((walls schedule after).foldlM (tryWall offsetAt after count) []) := by
  have hdays : (List.range searchDays).foldlM (tryDay offsetAt schedule after count) [] =
      (walls schedule after).foldlM (tryWall offsetAt after count) [] := by
    rw [walls, Lists.foldlM_flatMap]
    exact congrArg (fun f => (List.range searchDays).foldlM f [])
      (funext fun results => funext fun dayIndex => tryDay_eq results dayIndex)
  rw [nextOccurrences, if_neg hcount, hdays]
  generalize (walls schedule after).foldlM (tryWall offsetAt after count) [] = searched
  cases searched <;> rfl

/-! ## A fixed offset -/

theorem earliestInstantForWall_fixed (hfixed : ∀ t, offsetAt t = offset) (wall : ℤ) :
    earliestInstantForWall offsetAt wall = some (wall - offset) := by
  simp [earliestInstantForWall, hfixed, Lists.unique]

theorem tryWall_fixed (hfixed : ∀ t, offsetAt t = offset) (hoffset : -maxOffset ≤ offset)
    (results : List ℤ) (wall : ℤ) :
    tryWall offsetAt after count results wall =
      if wall ≤ after + offset then .ok results
      else if results.length + 1 = count then .error (results ++ [wall - offset])
      else .ok (results ++ [wall - offset]) := by
  unfold tryWall lowestWall
  rw [earliestInstantForWall_fixed hfixed]
  dsimp only
  split_ifs <;> first | rfl | omega

def instants (after offset : ℤ) (ws : List ℤ) : List ℤ :=
  (ws.filter fun wall => after + offset < wall).map (· - offset)

theorem collected_foldlM (hfixed : ∀ t, offsetAt t = offset) (hoffset : -maxOffset ≤ offset)
    (ws results : List ℤ) (hmore : results.length < count) :
    collected (ws.foldlM (tryWall offsetAt after count) results) =
      results ++ (instants after offset ws).take (count - results.length) := by
  induction ws generalizing results with
  | nil => simp [instants, collected, pure, Except.pure]
  | cons wall ws ih =>
    rw [List.foldlM_cons, tryWall_fixed hfixed hoffset]
    split_ifs with hbefore hlast
    · have hskip : instants after offset (wall :: ws) = instants after offset ws := by
        rw [instants, List.filter_cons_of_neg (by simpa using hbefore), instants]
      rw [hskip]
      exact ih results hmore
    · have htake : instants after offset (wall :: ws) =
          (wall - offset) :: instants after offset ws := by
        rw [instants, List.filter_cons_of_pos (by simpa using hbefore), List.map_cons, instants]
      rw [htake, show count - results.length = 1 by omega]
      rfl
    · have htake : instants after offset (wall :: ws) =
          (wall - offset) :: instants after offset ws := by
        rw [instants, List.filter_cons_of_pos (by simpa using hbefore), List.map_cons, instants]
      have hrest := ih (results ++ [wall - offset]) (by
        rw [List.length_append, List.length_singleton]
        omega)
      rw [List.length_append, List.length_singleton, List.append_assoc] at hrest
      rw [htake, show count - results.length = count - (results.length + 1) + 1 by omega,
        List.take_succ_cons]
      exact hrest

theorem nextOccurrences_fixed (hfixed : ∀ t, offsetAt t = offset) (hoffset : -maxOffset ≤ offset)
    : nextOccurrences offsetAt schedule after count =
      (instants after offset (walls schedule after)).take count := by
  by_cases hcount : count = 0
  · rw [nextOccurrences, if_pos hcount, hcount, List.take_zero]
  · rw [nextOccurrences_eq hcount,
      collected_foldlM hfixed hoffset _ [] (Nat.pos_of_ne_zero hcount), List.nil_append,
      List.length_nil, Nat.sub_zero]

/-! ## The walls in order -/

theorem units : minuteMs = 60000 ∧ hourMs = 3600000 ∧ dayMs = 86400000 ∧
    maxOffset = 54000000 := by
  decide

theorem mem_hourWalls {dayStart wall : ℤ} {hour : ℕ} (h : wall ∈ hourWalls schedule after dayStart hour) :
    ∃ minute ∈ schedule.minute.values,
      wall = dayStart + hour * hourMs + (minute : ℕ) * minuteMs := by
  unfold hourWalls at h
  split_ifs at h
  · cases h
  · obtain ⟨minute, hminute, hwall⟩ := List.mem_map.mp h
    exact ⟨minute, hminute, hwall.symm⟩

theorem mem_dayWalls {wall : ℤ} {dayIndex : ℕ} (h : wall ∈ dayWalls schedule after dayIndex) :
    matchesDate schedule (startDay after + dayIndex * dayMs) = true ∧
      ∃ hour ∈ schedule.hour.values,
        wall ∈ hourWalls schedule after (startDay after + dayIndex * dayMs) hour := by
  unfold dayWalls at h
  dsimp only at h
  split_ifs at h with hmatch
  · exact ⟨hmatch, List.mem_flatMap.mp h⟩
  · cases h

section Sound

variable (hs : ScheduleSound schedule)
include hs

theorem hourWalls_bounds {dayStart wall : ℤ} {hour : ℕ}
    (h : wall ∈ hourWalls schedule after dayStart hour) :
    dayStart + hour * hourMs ≤ wall ∧ wall < dayStart + hour * hourMs + hourMs := by
  obtain ⟨minute, hminute, rfl⟩ := mem_hourWalls h
  obtain ⟨-, hle⟩ := hs.minute.bounded minute hminute
  have hle' : minute ≤ 59 := hle
  simp only [units.1, units.2.1]
  omega

theorem dayWalls_bounds {wall : ℤ} {dayIndex : ℕ} (h : wall ∈ dayWalls schedule after dayIndex) :
    startDay after + dayIndex * dayMs ≤ wall ∧
      wall < startDay after + dayIndex * dayMs + dayMs := by
  obtain ⟨-, hour, hhour, hwall⟩ := mem_dayWalls h
  obtain ⟨hlow, hhigh⟩ := hourWalls_bounds hs hwall
  obtain ⟨-, hle⟩ := hs.hour.bounded hour hhour
  have hle' : hour ≤ 23 := hle
  simp only [units.2.1, units.2.2.1] at hlow hhigh ⊢
  omega

theorem dayWalls_increasing (dayIndex : ℕ) :
    (dayWalls schedule after dayIndex).Pairwise (· < ·) := by
  unfold dayWalls
  dsimp only
  split_ifs
  · refine List.pairwise_flatMap.mpr ⟨fun hour _ => ?_, ?_⟩
    · unfold hourWalls
      split_ifs
      · exact List.Pairwise.nil
      · refine List.pairwise_map.mpr (hs.minute.sorted.imp fun {a b} hab => ?_)
        simp only [units.1]
        omega
    · refine hs.hour.sorted.imp fun {a b} hab x hx y hy => ?_
      have hbefore := (hourWalls_bounds hs hx).2
      have hafter := (hourWalls_bounds hs hy).1
      simp only [units.2.1] at hbefore hafter
      omega
  · exact List.Pairwise.nil

theorem walls_increasing : (walls schedule after).Pairwise (· < ·) := by
  refine List.pairwise_flatMap.mpr ⟨fun dayIndex _ => dayWalls_increasing hs dayIndex, ?_⟩
  refine List.pairwise_lt_range.imp fun {a b} hab x hx y hy => ?_
  have hbefore := (dayWalls_bounds hs hx).2
  have hafter := (dayWalls_bounds hs hy).1
  simp only [units.2.2.1] at hbefore hafter
  omega

theorem fires_of_mem_walls {wall : ℤ} (h : wall ∈ walls schedule after) :
    Fires schedule wall ∧ wall < horizon after := by
  obtain ⟨dayIndex, hindex, hday⟩ := List.mem_flatMap.mp h
  have hindex' : dayIndex < searchDays := List.mem_range.mp hindex
  have hbounds := dayWalls_bounds hs hday
  obtain ⟨hmatch, hour, hhour, hwall⟩ := mem_dayWalls hday
  obtain ⟨minute, hminute, hwall⟩ := mem_hourWalls hwall
  have hhour' : hour ≤ 23 := (hs.hour.bounded hour hhour).2
  have hminute' : minute ≤ 59 := (hs.minute.bounded minute hminute).2
  have hstart : startDay after % dayMs = 0 := Int.mul_emod_left _ _
  unfold horizon
  simp only [units.1, units.2.1, units.2.2.1] at *
  refine ⟨⟨?_, ?_, ?_, ?_⟩, by omega⟩
  · simp only [units.1]
    omega
  · rwa [show (wall / minuteMs % 60).toNat = minute by simp only [units.1]; omega]
  · rwa [show (wall / hourMs % 24).toNat = hour by simp only [units.2.1]; omega]
  · have hsame : calendarDay wall = calendarDay (startDay after + dayIndex * 86400000) := by
      unfold calendarDay
      simp only [units.2.2.1]
      omega
    unfold matchesDate getUTCDate getUTCMonth getUTCDay at hmatch ⊢
    rwa [hsame]

theorem mem_walls_of_fires {wall : ℤ} (h : Fires schedule wall) (hlow : lowestWall after < wall)
    (hhigh : wall < horizon after) : wall ∈ walls schedule after := by
  have hwhole := h.whole
  have hstart : startDay after = lowestWall after / dayMs * dayMs := rfl
  unfold horizon at hhigh
  obtain ⟨dayIndex, hindex⟩ : ∃ dayIndex : ℕ, (dayIndex : ℤ) = wall / dayMs - startDay after / dayMs :=
    ⟨(wall / dayMs - startDay after / dayMs).toNat, by
      simp only [units.2.2.1] at hstart ⊢
      omega⟩
  have hday : calendarDay (startDay after + dayIndex * dayMs) = calendarDay wall := by
    unfold calendarDay
    simp only [units.2.2.1] at *
    omega
  have hmatch : matchesDate schedule (startDay after + dayIndex * dayMs) = true := by
    have hmatch := h.day
    unfold matchesDate getUTCDate getUTCMonth getUTCDay at hmatch ⊢
    rwa [hday]
  have hsum : wall = startDay after + dayIndex * dayMs + ((wall / hourMs % 24).toNat : ℕ) * hourMs +
      ((wall / minuteMs % 60).toNat : ℕ) * minuteMs := by
    simp only [units.1, units.2.1, units.2.2.1] at *
    omega
  have hminute := (hs.minute.bounded _ h.minute).2
  refine List.mem_flatMap.mpr ⟨dayIndex, List.mem_range.mpr ?_, ?_⟩
  · simp only [units.2.2.1] at *
    omega
  · unfold dayWalls
    dsimp only
    rw [if_pos hmatch]
    refine List.mem_flatMap.mpr ⟨_, h.hour, ?_⟩
    unfold hourWalls
    rw [if_neg]
    · exact List.mem_map.mpr ⟨_, h.minute, hsum.symm⟩
    · simp only [units.1, units.2.1, units.2.2.1] at *
      omega

theorem mem_instants (hoffset : -maxOffset ≤ offset) {t : ℤ} :
    t ∈ instants after offset (walls schedule after) ↔
      FiresAfter schedule offset after t ∧ t + offset < horizon after := by
  constructor
  · intro h
    obtain ⟨wall, hwall, rfl⟩ := List.mem_map.mp h
    obtain ⟨hwall, hlater⟩ := List.mem_filter.mp hwall
    obtain ⟨hfires, hbefore⟩ := fires_of_mem_walls hs hwall
    have hlater' : after + offset < wall := of_decide_eq_true hlater
    rw [FiresAfter, sub_add_cancel]
    exact ⟨⟨by omega, hfires⟩, hbefore⟩
  · rintro ⟨⟨hlater, hfires⟩, hbefore⟩
    refine List.mem_map.mpr ⟨t + offset, List.mem_filter.mpr ⟨?_, ?_⟩, add_sub_cancel_right t offset⟩
    · refine mem_walls_of_fires hs hfires ?_ hbefore
      unfold lowestWall
      omega
    · exact decide_eq_true (by omega)

theorem instants_increasing (offset : ℤ) :
    (instants after offset (walls schedule after)).Pairwise (· < ·) := by
  refine List.pairwise_map.mpr (((walls_increasing hs).filter _).imp fun {a b} hab => ?_)
  omega

end Sound

end Terminay.Cron
