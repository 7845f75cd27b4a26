import Mathlib.Data.Int.ConditionallyCompleteOrder
import Mathlib.Data.Int.Interval
import Mathlib.Data.Set.Card
import Mathlib.Tactic.Ring
import Terminay.Cron.Occurrences

/-!
# Schedules that repeat after an interval

The occurrences of a cron schedule are found by scanning from one to the next. Those of an interval
are computed, however long the gap.
-/

namespace Terminay.Cron

structure IntervalSchedule where
  intervalMs : ℤ
  anchor : ℤ
  interval_pos : 0 < intervalMs

inductive ParsedSchedule where
  | cron (value : CronSchedule)
  | every (value : IntervalSchedule)
  | once (due : ℤ)

def maxCountedOccurrences : ℕ := 1000000

structure Counted where
  count : ℤ
  latest : ℤ

section

variable (offsetAt : ℤ → ℤ) (schedule : ParsedSchedule)

def nextParsedOccurrence (after : ℤ) : Option ℤ :=
  match schedule with
  | .once due => if after < due then some due else none
  | .every s => some (s.anchor + max 1 ((after - s.anchor) / s.intervalMs + 1) * s.intervalMs)
  | .cron value => nextOccurrence offsetAt value after

def countOccurrences (through : ℤ) : ℕ → Counted → Counted
  | 0, counted => counted
  | rounds + 1, counted =>
    match nextParsedOccurrence offsetAt schedule counted.latest with
    | none => counted
    | some next =>
      if through < next then counted
      else countOccurrences through rounds ⟨counted.count + 1, next⟩

def occurrencesBetween (after through : ℤ) : Counted :=
  match schedule with
  | .every s =>
    match nextParsedOccurrence offsetAt schedule after with
    | none => ⟨0, after⟩
    | some first =>
      if through < first then ⟨0, after⟩
      else
        let count := (through - first) / s.intervalMs + 1
        ⟨count, first + (count - 1) * s.intervalMs⟩
  | _ => countOccurrences offsetAt schedule through maxCountedOccurrences ⟨0, after⟩

/-- Scans for as many rounds as it is given. -/
def scanBefore (before : ℤ) : ℕ → ℤ → Option ℤ
  | 0, _ => none
  | rounds + 1, previous =>
    match nextParsedOccurrence offsetAt schedule previous with
    | none => some previous
    | some next => if before ≤ next then some previous else scanBefore before rounds next

def previousOccurrenceBefore (rounds : ℕ) (start before : ℤ) : Option ℤ :=
  match schedule with
  | .every s => some (before - s.intervalMs)
  | _ => scanBefore offsetAt schedule before rounds start

end

namespace IntervalSchedule

variable (s : IntervalSchedule) {offsetAt : ℤ → ℤ} {after through before : ℤ}

def instant (k : ℤ) : ℤ := s.anchor + k * s.intervalMs

def Occurs (t : ℤ) : Prop := ∃ k, 1 ≤ k ∧ t = s.instant k

def Gap (after through : ℤ) : Set ℤ := {t | s.Occurs t ∧ after < t ∧ t ≤ through}

def firstIndex (after : ℤ) : ℤ := max 1 ((after - s.anchor) / s.intervalMs + 1)

theorem instant_le {j k : ℤ} : s.instant j ≤ s.instant k ↔ j ≤ k := by
  rw [instant, instant, add_le_add_iff_left, mul_le_mul_iff_left₀ s.interval_pos]

theorem instant_injective : Function.Injective s.instant := by
  intro j k h
  exact le_antisymm (s.instant_le.mp h.le) (s.instant_le.mp h.ge)

theorem instant_succ (k : ℤ) : s.instant (k + 1) = s.instant k + s.intervalMs := by
  rw [instant, instant, add_one_mul]
  omega

theorem lt_instant {k : ℤ} (hk : 1 ≤ k) : after < s.instant k ↔ s.firstIndex after ≤ k := by
  have hindex : (after - s.anchor) / s.intervalMs < k ↔ after - s.anchor < k * s.intervalMs :=
    Int.ediv_lt_iff_lt_mul s.interval_pos
  rw [instant, firstIndex]
  omega

theorem instant_le_through {k : ℤ} :
    s.instant k ≤ through ↔ k ≤ (through - s.anchor) / s.intervalMs := by
  rw [Int.le_ediv_iff_mul_le s.interval_pos, instant]
  omega

theorem next_every : nextParsedOccurrence offsetAt (.every s) after =
    some (s.instant (s.firstIndex after)) := rfl

theorem one_le_firstIndex : 1 ≤ s.firstIndex after := le_max_left _ _

/-- The next occurrence is the least one after. -/
theorem next_least : IsLeast {t | s.Occurs t ∧ after < t} (s.instant (s.firstIndex after)) := by
  refine ⟨⟨⟨_, s.one_le_firstIndex, rfl⟩, (s.lt_instant s.one_le_firstIndex).mpr le_rfl⟩, ?_⟩
  rintro t ⟨⟨k, hk, rfl⟩, hafter⟩
  exact s.instant_le.mpr ((s.lt_instant hk).mp hafter)

theorem gap_eq : s.Gap after through =
    s.instant '' Set.Icc (s.firstIndex after) ((through - s.anchor) / s.intervalMs) := by
  ext t
  constructor
  · rintro ⟨⟨k, hk, rfl⟩, hafter, hthrough⟩
    exact ⟨k, ⟨(s.lt_instant hk).mp hafter, s.instant_le_through.mp hthrough⟩, rfl⟩
  · rintro ⟨k, ⟨hfirst, hlast⟩, rfl⟩
    have hk := s.one_le_firstIndex.trans hfirst
    exact ⟨⟨k, hk, rfl⟩, (s.lt_instant hk).mpr hfirst, s.instant_le_through.mpr hlast⟩

theorem gap_ncard : ((s.Gap after through).ncard : ℤ) =
    max 0 ((through - s.anchor) / s.intervalMs + 1 - s.firstIndex after) := by
  rw [gap_eq, Set.ncard_image_of_injective _ s.instant_injective, ← Finset.coe_Icc,
    Set.ncard_coe_finset, Int.card_Icc]
  omega

theorem between_every : occurrencesBetween offsetAt (.every s) after through =
    if through < s.instant (s.firstIndex after) then ⟨0, after⟩
    else
      let last := (through - s.anchor) / s.intervalMs
      ⟨last + 1 - s.firstIndex after, s.instant last⟩ := by
  have hcount : (through - s.instant (s.firstIndex after)) / s.intervalMs =
      (through - s.anchor) / s.intervalMs - s.firstIndex after := by
    rw [instant, show through - (s.anchor + s.firstIndex after * s.intervalMs) =
      through - s.anchor + -s.firstIndex after * s.intervalMs by ring,
      Int.add_mul_ediv_right _ _ s.interval_pos.ne']
    omega
  rw [occurrencesBetween, next_every]
  dsimp only
  split_ifs
  · rfl
  · rw [hcount]
    congr 1
    · omega
    · rw [instant, instant]
      ring

theorem count_exact :
    (occurrencesBetween offsetAt (.every s) after through).count = (s.Gap after through).ncard := by
  rw [between_every, gap_ncard]
  split_ifs with hnone
  · have hlast := mt s.instant_le_through.mpr (not_le_of_gt hnone)
    dsimp only
    omega
  · have hlast := s.instant_le_through.mp (le_of_not_gt hnone)
    dsimp only
    omega

theorem latest_greatest (h : (s.Gap after through).Nonempty) :
    IsGreatest (s.Gap after through)
      (occurrencesBetween offsetAt (.every s) after through).latest := by
  rw [gap_eq, Set.image_nonempty, Set.nonempty_Icc] at h
  rw [between_every, if_neg (not_lt_of_ge (s.instant_le_through.mpr h)), gap_eq]
  refine ⟨⟨_, ⟨h, le_rfl⟩, rfl⟩, ?_⟩
  rintro t ⟨k, ⟨-, hlast⟩, rfl⟩
  exact s.instant_le.mpr hlast

/-- Scanning ends at the occurrence before the given one if it has one to find, which it has already
found when it starts at one. -/
theorem scan_every {k : ℤ} (hbefore : before = s.instant k) (rounds : ℕ) (start : ℤ)
    (hstart : start < before) (hrounds : before - start ≤ rounds)
    (hearlier : s.Occurs start ∨ ∃ t, s.Occurs t ∧ start < t ∧ t < before) :
    scanBefore offsetAt (.every s) before rounds start = some (before - s.intervalMs) := by
  induction rounds generalizing start with
  | zero =>
    rw [Nat.cast_zero] at hrounds
    omega
  | succ rounds ih =>
    obtain ⟨⟨hoccurs, hafter⟩, hleast⟩ : IsLeast {t | s.Occurs t ∧ start < t} _ := s.next_least
    rw [scanBefore, next_every]
    dsimp only
    split_ifs with hover
    · -- Nothing lies between, so the scan stands at an occurrence, and the next one is `before`.
      rcases hearlier with ⟨j, hj, rfl⟩ | ⟨t, ht, hlow, hhigh⟩
      · have hnext := hleast ⟨⟨j + 1, by omega, rfl⟩, by
          rw [instant_succ]
          exact lt_add_of_pos_right _ s.interval_pos⟩
        have hjk : ¬ k ≤ j := fun h => absurd (s.instant_le.mpr h) (by omega)
        have hkj : k ≤ j + 1 := s.instant_le.mp (hbefore ▸ hover.trans hnext)
        rw [hbefore, show k = j + 1 by omega, instant_succ, add_sub_cancel_right]
      · exact absurd (hleast ⟨ht, hlow⟩) (by omega)
    · refine ih _ (lt_of_not_ge hover) ?_ (.inl hoccurs)
      push_cast at hrounds
      omega

/-- The closed forms are the definitions: the least occurrence after, the number and the last of
those in a gap, and what scanning back from an occurrence finds. -/
structure ClosedForm (offsetAt : ℤ → ℤ) : Prop where
  next : ∀ after, ∃ t, nextParsedOccurrence offsetAt (.every s) after = some t ∧
    IsLeast {t | s.Occurs t ∧ after < t} t
  count : ∀ after through, (occurrencesBetween offsetAt (.every s) after through).count =
    (s.Gap after through).ncard
  latest : ∀ after through, (s.Gap after through).Nonempty → IsGreatest (s.Gap after through)
    (occurrencesBetween offsetAt (.every s) after through).latest
  nothing : ∀ after through, s.Gap after through = ∅ →
    (occurrencesBetween offsetAt (.every s) after through).latest = after
  previous : ∀ start before, s.Occurs before → (∃ t, s.Occurs t ∧ start ≤ t ∧ t < before) →
    ∀ rounds : ℕ, before - start ≤ rounds →
      previousOccurrenceBefore offsetAt (.every s) rounds start before =
        scanBefore offsetAt (.every s) before rounds start ∧
      ∃ t, previousOccurrenceBefore offsetAt (.every s) rounds start before = some t ∧
        IsGreatest {t | s.Occurs t ∧ t < before} t

end IntervalSchedule

end Terminay.Cron
