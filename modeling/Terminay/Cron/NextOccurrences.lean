import Mathlib.Data.Int.Interval
import Terminay.Cron.Firings

/-!
# The search finds the next occurrences within its horizon

In a zone with a fixed offset the search returns the next occurrences exactly when its horizon holds
as many as it is asked for.
-/

namespace Terminay.Cron
open Script Outcome

variable {schedule : CronSchedule} {after offset : ℤ} {count : ℕ}

theorem take_smallest (hs : ScheduleSound schedule) (hoffset : -maxOffset ≤ offset)
    (hcount : count ≤ (instants after offset (walls schedule after)).length) :
    Smallest (FiresAfter schedule offset after) count
      ((instants after offset (walls schedule after)).take count) := by
  have hincreasing : (instants after offset (walls schedule after)).Pairwise (· < ·) :=
    instants_increasing hs offset
  refine ⟨hincreasing.sublist (List.take_sublist _ _), List.length_take_of_le hcount, ?_, ?_⟩
  · intro t ht
    exact ((mem_instants hs hoffset).mp (List.mem_of_mem_take ht)).1
  · intro t ht hnot u hu
    by_cases hfound : t ∈ instants after offset (walls schedule after)
    · have hsplit := List.take_append_drop count (instants after offset (walls schedule after))
      rw [← hsplit] at hfound hincreasing
      have hdrop := (List.mem_append.mp hfound).resolve_left hnot
      exact (List.pairwise_append.mp hincreasing).2.2 u hu t hdrop
    · have hbefore := ((mem_instants hs hoffset).mp (List.mem_of_mem_take hu)).2
      have hbeyond : ¬ t + offset < horizon after := fun hlt =>
        hfound ((mem_instants hs hoffset).mpr ⟨ht, hlt⟩)
      omega

/-- Under a fixed offset of at most fifteen hours, the search answers with the `count` next
occurrences exactly when that many lie before its horizon. -/
theorem nextOccurrences_smallest (expression : Str) (offsetAt : ℤ → ℤ) (offset after : ℤ)
    (count : ℕ) (hfixed : ∀ t, offsetAt t = offset) (hoffset : |offset| ≤ maxOffset) :
    Ensures (parseCron expression) fun schedule =>
      (Smallest (FiresAfter schedule offset after) count
          (nextOccurrences offsetAt schedule after count) ↔
        ∃ firings : Finset ℤ, firings.card = count ∧ ∀ t ∈ firings,
          FiresAfter schedule offset after t ∧ t + offset < horizon after) := by
  intro schedule hparsed
  have hs := parseCron_sound expression schedule hparsed
  have hlow : -maxOffset ≤ offset := (abs_le.mp hoffset).1
  rw [nextOccurrences_fixed hfixed hlow]
  constructor
  · intro h
    refine ⟨((instants after offset (walls schedule after)).take count).toFinset, ?_, ?_⟩
    · rw [List.toFinset_card_of_nodup (h.increasing.imp ne_of_lt), h.exact]
    · intro t ht
      exact (mem_instants hs hlow).mp (List.mem_of_mem_take (List.mem_toFinset.mp ht))
  · rintro ⟨firings, hcard, hfirings⟩
    refine take_smallest hs hlow ?_
    have hsub : firings ⊆ (instants after offset (walls schedule after)).toFinset := by
      intro t ht
      exact List.mem_toFinset.mpr ((mem_instants hs hlow).mpr (hfirings t ht))
    rw [← hcard]
    exact (Finset.card_le_card hsub).trans (List.toFinset_card_le _)

def yearly : CronSchedule where
  expression := js "0 0 1 1 *"
  minute := ⟨.minute, js "0", [⟨false, 0, 0, 1⟩], [0], false, false⟩
  hour := ⟨.hour, js "0", [⟨false, 0, 0, 1⟩], [0], false, false⟩
  dayOfMonth := ⟨.dayOfMonth, js "1", [⟨false, 1, 1, 1⟩], [1], false, false⟩
  month := ⟨.month, js "1", [⟨false, 1, 1, 1⟩], [1], false, false⟩
  dayOfWeek := ⟨.dayOfWeek, js "*", [⟨true, 0, 7, 1⟩], [0, 1, 2, 3, 4, 5, 6], true, true⟩

theorem yearly_parsed : parseCron (js "0 0 1 1 *") = .ok yearly := rfl

/-- Three New Years after 1 June 2020, in UTC. -/
theorem nextOccurrences_smallest_yearly :
    Ensures (parseCron (js "0 0 1 1 *")) fun schedule =>
      (Smallest (FiresAfter schedule 0 1590969600000) 3
          (nextOccurrences (fun _ => 0) schedule 1590969600000 3) ↔
        ∃ firings : Finset ℤ, firings.card = 3 ∧ ∀ t ∈ firings,
          FiresAfter schedule 0 1590969600000 t ∧ t + 0 < horizon 1590969600000) :=
  nextOccurrences_smallest (js "0 0 1 1 *") (fun _ => 0) 0 1590969600000 3 (fun _ => rfl) (by decide)

theorem yearly_fires {wall : ℤ} (h : Fires yearly wall) :
    wall = (Calendar.yearStart (Calendar.year (calendarDay wall)) + 306 - 719468) * dayMs := by
  have hwhole := h.whole
  have hminute : (wall / minuteMs % 60).toNat = 0 := List.mem_singleton.mp h.minute
  have hhour : (wall / hourMs % 24).toNat = 0 := List.mem_singleton.mp h.hour
  obtain ⟨hmonth, hday⟩ : getUTCMonth wall + 1 = 1 ∧ getUTCDate wall = 1 := by
    have hmatch := h.day
    simp [matchesDate, matchesDay, yearly] at hmatch
    omega
  have hbounds := Calendar.month_bounds (calendarDay wall)
  have hfirst : Calendar.month (calendarDay wall) = 1 := by
    unfold getUTCMonth at hmonth
    omega
  have hdate : Calendar.dayOfMonth (calendarDay wall) = 1 := by
    unfold getUTCDate at hday
    omega
  have hoffset := Calendar.dayOfYear_newYear hfirst hdate
  unfold Calendar.dayOfYear at hoffset
  have hcalendar : calendarDay wall = wall / dayMs + 719468 := rfl
  simp only [units.1, units.2.1, units.2.2.1] at *
  omega

/-- Thirty New Years lie before the horizon of 1 June 2020, not thirty-one. -/
theorem yearly_missed : ¬ Ensures (parseCron (js "0 0 1 1 *")) fun schedule =>
    Smallest (FiresAfter schedule 0 1590969600000) 31
      (nextOccurrences (fun _ => 0) schedule 1590969600000 31) := by
  intro h
  have hs := parseCron_sound _ yearly yearly_parsed
  have hlow : -maxOffset ≤ 0 := by decide
  have hall : Smallest (FiresAfter yearly 0 1590969600000) 31
      (nextOccurrences (fun _ => 0) yearly 1590969600000 31) := h yearly yearly_parsed
  have hhorizon : horizon 1590969600000 = 2539555200000 := rfl
  rw [nextOccurrences_fixed (fun _ => rfl) hlow] at hall
  have hsub : ((instants 1590969600000 0 (walls yearly 1590969600000)).take 31).toFinset ⊆
      (Finset.Icc 2020 2049).image fun y => (Calendar.yearStart y + 306 - 719468) * dayMs := by
    intro t ht
    obtain ⟨⟨hlater, hfires⟩, hbefore⟩ :=
      (mem_instants hs hlow).mp (List.mem_of_mem_take (List.mem_toFinset.mp ht))
    rw [add_zero] at hfires hbefore
    rw [hhorizon] at hbefore
    have hwall := yearly_fires hfires
    refine Finset.mem_image.mpr ⟨Calendar.year (calendarDay t), Finset.mem_Icc.mpr ?_, hwall.symm⟩
    generalize Calendar.year (calendarDay t) = y at hwall ⊢
    unfold Calendar.yearStart at hwall
    simp only [units.2.2.1] at hwall
    omega
  have hcard := Finset.card_le_card hsub
  rw [List.toFinset_card_of_nodup (hall.increasing.imp ne_of_lt), hall.exact] at hcard
  have himage := hcard.trans Finset.card_image_le
  simp at himage

end Terminay.Cron
