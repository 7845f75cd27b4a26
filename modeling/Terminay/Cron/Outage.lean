import Terminay.Cron.Intervals
import Terminay.Cron.NextOccurrences

/-!
# What an outage missed

The firings of a gap are counted by scanning from one to the next. In a zone with a fixed offset the
scan finds them all, up to its bound, if the gap ends within the search's horizon.
-/

namespace Terminay.Cron
open Script Outcome

variable {schedule : CronSchedule} {offsetAt : ℤ → ℤ} {offset after through t : ℤ}

/-- All the firings of a gap, in order. -/
structure Missed (schedule : CronSchedule) (offset after through : ℤ) (missed : List ℤ) : Prop where
  increasing : missed.Pairwise (· < ·)
  all : ∀ t, t ∈ missed ↔ FiresAfter schedule offset after t ∧ t ≤ through

theorem Missed.least {first : ℤ} {later : List ℤ}
    (h : Missed schedule offset after through (first :: later)) :
    IsLeast {t | FiresAfter schedule offset after t} first := by
  obtain ⟨hfires, hthrough⟩ := (h.all first).mp (List.mem_cons_self ..)
  refine ⟨hfires, fun t ht => ?_⟩
  by_contra hless
  rcases List.mem_cons.mp ((h.all t).mpr ⟨ht, by omega⟩) with rfl | hlater
  · exact hless le_rfl
  · exact hless ((List.pairwise_cons.mp h.increasing).1 t hlater).le

section Fixed

variable (hs : ScheduleSound schedule) (hfixed : ∀ t, offsetAt t = offset)
  (hoffset : -maxOffset ≤ offset)
include hs hoffset

theorem instants_missed (hnear : through + offset < horizon after) :
    Missed schedule offset after through
      ((instants after offset (walls schedule after)).filter (· ≤ through)) := by
  refine ⟨(instants_increasing hs offset).filter _, fun t => ?_⟩
  rw [List.mem_filter, mem_instants hs hoffset, decide_eq_true_iff, and_assoc]
  exact and_congr_right fun _ => ⟨And.right, fun hle => ⟨by omega, hle⟩⟩

include hfixed

theorem nextOccurrence_iff : nextOccurrence offsetAt schedule after = some t ↔
    IsLeast {t | FiresAfter schedule offset after t} t ∧ t + offset < horizon after := by
  have hbound (t : ℤ) : t + offset < horizon after ↔ t ≤ horizon after - offset - 1 := by omega
  have hfound : Missed schedule offset after (horizon after - offset - 1)
      (instants after offset (walls schedule after)) :=
    ⟨instants_increasing hs offset, fun t => by rw [mem_instants hs hoffset, hbound]⟩
  rw [nextOccurrence, nextOccurrences_fixed hfixed hoffset, hbound]
  generalize instants after offset (walls schedule after) = found at hfound ⊢
  cases found with
  | nil => exact ⟨nofun, fun h => nomatch (hfound.all t).mpr ⟨h.1.1, h.2⟩⟩
  | cons next later =>
    have hnear := ((hfound.all next).mp (List.mem_cons_self ..)).2
    exact ⟨fun h => Option.some.inj h ▸ ⟨hfound.least, hnear⟩,
      fun h => congrArg some (hfound.least.unique h.1)⟩

theorem count_missed {missed : List ℤ} (h : Missed schedule offset after through missed)
    (hnear : through + offset < horizon after) (rounds : ℕ) (n : ℤ) :
    countOccurrences offsetAt (.cron schedule) through rounds ⟨n, after⟩ =
      ⟨n + (missed.take rounds).length, (missed.take rounds).getLastD after⟩ := by
  induction rounds generalizing after missed n with
  | zero => simp [countOccurrences]
  | succ rounds ih =>
    rw [countOccurrences, nextParsedOccurrence]
    cases missed with
    | nil =>
      cases hnext : nextOccurrence offsetAt schedule after with
      | none => simp
      | some next =>
        have hfires := ((nextOccurrence_iff hs hfixed hoffset).mp hnext).1.1
        simp [lt_of_not_ge fun hle => nomatch (h.all next).mpr ⟨hfires, hle⟩]
    | cons first missed =>
      obtain ⟨hbefore, hincreasing⟩ := List.pairwise_cons.mp h.increasing
      obtain ⟨⟨hafter, -⟩, hthrough⟩ := (h.all first).mp (List.mem_cons_self ..)
      have hlater : horizon after ≤ horizon first := by
        unfold horizon startDay lowestWall
        simp only [units.2.2.1]
        omega
      have hrest : Missed schedule offset first through missed := by
        refine ⟨hincreasing, fun t => ⟨fun ht => ?_, fun ⟨⟨hless, hfires⟩, hle⟩ => ?_⟩⟩
        · obtain ⟨⟨-, hfires⟩, hle⟩ := (h.all t).mp (List.mem_cons_of_mem _ ht)
          exact ⟨⟨hbefore t ht, hfires⟩, hle⟩
        · have hmem := (h.all t).mpr ⟨⟨hafter.trans hless, hfires⟩, hle⟩
          exact (List.mem_cons.mp hmem).resolve_left hless.ne'
      rw [(nextOccurrence_iff hs hfixed hoffset).mpr ⟨h.least, by omega⟩]
      dsimp only
      rw [if_neg (not_lt_of_ge hthrough), ih hrest (hnear.trans_le hlater), List.take_succ_cons,
        List.getLastD_cons, List.length_cons, Nat.cast_succ, add_assoc, add_comm 1]

end Fixed

/-- Of an outage that ends within the search's horizon, every missed firing is counted, and the
latest reported, or the first million and the last of these. -/
theorem outage_counted (expression : Str) (offsetAt : ℤ → ℤ) (offset after through : ℤ)
    (hfixed : ∀ t, offsetAt t = offset) (hoffset : |offset| ≤ maxOffset)
    (hnear : through + offset < horizon after) :
    Ensures (parseCron expression) fun schedule =>
      ∃ missed, Missed schedule offset after through missed ∧
        let counted := missed.take maxCountedOccurrences
        occurrencesBetween offsetAt (.cron schedule) after through =
          ⟨counted.length, counted.getLastD after⟩ := by
  intro schedule hparsed
  have hs := parseCron_sound expression schedule hparsed
  have hlow := (abs_le.mp hoffset).1
  have hmissed := instants_missed hs hlow hnear
  have hcount := count_missed hs hfixed hlow hmissed hnear maxCountedOccurrences 0
  rw [zero_add] at hcount
  exact ⟨_, hmissed, hcount⟩

/-- An hourly schedule on the first day of 1970. -/
theorem outage_counted_hourly : Ensures (parseCron (js "0 * * * *")) fun schedule =>
    ∃ missed, Missed schedule 0 0 86400000 missed ∧
      let counted := missed.take maxCountedOccurrences
      occurrencesBetween (fun _ => 0) (.cron schedule) 0 86400000 =
        ⟨counted.length, counted.getLastD 0⟩ :=
  outage_counted (js "0 * * * *") (fun _ => 0) 0 _ _ (fun _ => rfl) (by decide) (by decide)

end Terminay.Cron
