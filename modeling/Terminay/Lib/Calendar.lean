import Mathlib.Tactic.IntervalCases

/-!
# The Gregorian calendar

Days are numbered from 1 March of the year 0.
-/

namespace Calendar

def yearStart (y : ℤ) : ℤ := 365 * y + y / 4 - y / 100 + y / 400

def year (n : ℤ) : ℤ :=
  let e := 400 * n / 146097
  if yearStart (e + 1) ≤ n then e + 1 else if n < yearStart e then e - 1 else e

def dayOfYear (n : ℤ) : ℤ := n - yearStart (year n)

def marchMonth (n : ℤ) : ℤ := (5 * dayOfYear n + 2) / 153

def monthStart (m : ℤ) : ℤ := (153 * m + 2) / 5

def month (n : ℤ) : ℤ := if marchMonth n < 10 then marchMonth n + 3 else marchMonth n - 9

def dayOfMonth (n : ℤ) : ℤ := dayOfYear n - monthStart (marchMonth n) + 1

def weekday (n : ℤ) : ℤ := (n + 3) % 7

/-! ## Years -/

theorem year_spec (n : ℤ) : yearStart (year n) ≤ n ∧ n < yearStart (year n + 1) := by
  unfold year
  dsimp only
  split_ifs with hnext hbefore
  · refine ⟨hnext, ?_⟩
    unfold yearStart
    omega
  · rw [sub_add_cancel]
    refine ⟨?_, hbefore⟩
    unfold yearStart
    omega
  · exact ⟨not_lt.mp hbefore, not_le.mp hnext⟩

theorem yearStart_mono {y z : ℤ} (h : y ≤ z) : yearStart y ≤ yearStart z := by
  unfold yearStart
  omega

theorem year_unique {n y : ℤ} (hle : yearStart y ≤ n) (hlt : n < yearStart (y + 1)) :
    year n = y := by
  obtain ⟨hle', hlt'⟩ := year_spec n
  by_contra hne
  rcases lt_or_gt_of_ne hne with h | h
  · have hmono := yearStart_mono (show year n + 1 ≤ y by omega)
    omega
  · have hmono := yearStart_mono (show y + 1 ≤ year n by omega)
    omega

theorem yearStart_succ (y : ℤ) :
    yearStart y + 365 ≤ yearStart (y + 1) ∧ yearStart (y + 1) ≤ yearStart y + 366 := by
  unfold yearStart
  omega

theorem dayOfYear_bounds (n : ℤ) : 0 ≤ dayOfYear n ∧ dayOfYear n ≤ 365 := by
  obtain ⟨hle, hlt⟩ := year_spec n
  have hsucc := yearStart_succ (year n)
  unfold dayOfYear
  omega

theorem year_add {y : ℤ} {d : ℤ} (hd : 0 ≤ d) (hd' : d ≤ 364) : year (yearStart y + d) = y := by
  have hsucc := yearStart_succ y
  exact year_unique (by omega) (by omega)

theorem dayOfYear_add {y : ℤ} {d : ℤ} (hd : 0 ≤ d) (hd' : d ≤ 364) :
    dayOfYear (yearStart y + d) = d := by
  rw [dayOfYear, year_add hd hd']
  omega

/-! ## Months -/

theorem month_bounds (n : ℤ) : 1 ≤ month n ∧ month n ≤ 12 := by
  have hbounds := dayOfYear_bounds n
  unfold month marchMonth
  split_ifs <;> omega

theorem dayOfMonth_pos (n : ℤ) : 1 ≤ dayOfMonth n := by
  have hbounds := dayOfYear_bounds n
  unfold dayOfMonth monthStart marchMonth
  omega

def longest (m : ℤ) : ℤ :=
  if m = 2 then 29 else if m = 4 ∨ m = 6 ∨ m = 9 ∨ m = 11 then 30 else 31

theorem dayOfMonth_le (n : ℤ) : dayOfMonth n ≤ longest (month n) := by
  have hbounds := dayOfYear_bounds n
  unfold dayOfMonth monthStart longest month marchMonth
  split_ifs <;> omega

/-- Every date but the leap day is the same day of each year. -/
theorem exists_dayOfYear {m d : ℤ} (hm : 1 ≤ m) (hm' : m ≤ 12) (hd : 1 ≤ d) (hd' : d ≤ longest m)
    (hleap : ¬(m = 2 ∧ d = 29)) :
    ∃ o, 0 ≤ o ∧ o ≤ 364 ∧ ∀ n, dayOfYear n = o → month n = m ∧ dayOfMonth n = d := by
  refine ⟨monthStart ((m + 9) % 12) + d - 1, ?_, ?_, fun n hn => ?_⟩
  · unfold monthStart
    omega
  · unfold monthStart
    unfold longest at hd'
    split_ifs at hd' <;> omega
  · unfold longest at hd'
    have hmonth : marchMonth n = (m + 9) % 12 := by
      unfold marchMonth
      rw [hn]
      unfold monthStart
      -- a month at a time: the divisions are by constants then
      interval_cases m <;> split_ifs at hd' <;> omega
    unfold month dayOfMonth
    rw [hn, hmonth]
    refine ⟨?_, by omega⟩
    split_ifs <;> omega

theorem dayOfYear_newYear {n : ℤ} (hm : month n = 1) (hd : dayOfMonth n = 1) :
    dayOfYear n = 306 := by
  have hbounds := dayOfYear_bounds n
  unfold month at hm
  unfold dayOfMonth monthStart at hd
  unfold marchMonth at hm hd
  split_ifs at hm <;> omega

theorem dayOfYear_leap {n : ℤ} (hm : month n = 2) (hd : dayOfMonth n = 29) :
    dayOfYear n = 365 := by
  have hbounds := dayOfYear_bounds n
  unfold month at hm
  unfold dayOfMonth monthStart at hd
  unfold marchMonth at hm hd
  split_ifs at hm <;> omega

/-! ## Weekdays -/

theorem yearStart_cycle (y c : ℤ) : yearStart (y + 400 * c) = yearStart y + 146097 * c := by
  unfold yearStart
  omega

def startResidue (y : ℕ) : ℕ := (365 * y + y / 4 + 6 * (y / 100) + y / 400) % 7

theorem yearStart_residue (y : ℕ) : yearStart y % 7 = startResidue y := by
  unfold yearStart startResidue
  omega

/-- In thirteen years a year begins on every weekday. -/
theorem startResidue_all : ((List.range 400).all fun r => (List.range 7).all fun k =>
    (List.range 13).any fun j => startResidue (r + 1 + j) == k) = true := by
  decide +kernel

theorem exists_yearStart (y k : ℤ) :
    ∃ z, y < z ∧ z ≤ y + 13 ∧ (yearStart z + k) % 7 = 0 := by
  obtain ⟨r, hr⟩ : ∃ r : ℕ, (r : ℤ) = y % 400 := ⟨(y % 400).toNat, by omega⟩
  obtain ⟨c, hc⟩ : ∃ c : ℕ, (c : ℤ) = -k % 7 := ⟨(-k % 7).toNat, by omega⟩
  have hall := List.all_eq_true.mp startResidue_all r (List.mem_range.mpr (by omega))
  have hany := List.all_eq_true.mp hall c (List.mem_range.mpr (by omega))
  obtain ⟨j, hj, hstart⟩ := List.any_eq_true.mp hany
  have hj' := List.mem_range.mp hj
  have hresidue := yearStart_residue (r + 1 + j)
  rw [beq_iff_eq.mp hstart] at hresidue
  have hcycle := yearStart_cycle (r + 1 + j) (y / 400)
  rw [show (r : ℤ) + 1 + j + 400 * (y / 400) = y + 1 + j by omega] at hcycle
  push_cast at hresidue
  exact ⟨y + 1 + j, by omega, by omega, by omega⟩

/-- Every date but the leap day falls on every weekday within fourteen years. -/
theorem exists_weekday {m d : ℤ} (hm : 1 ≤ m) (hm' : m ≤ 12) (hd : 1 ≤ d) (hd' : d ≤ longest m)
    (hleap : ¬(m = 2 ∧ d = 29)) (n : ℤ) {k : ℤ} (hk : 0 ≤ k) (hk' : k < 7) :
    ∃ x, n < x ∧ x ≤ n + 5124 ∧ month x = m ∧ dayOfMonth x = d ∧ weekday x = k := by
  obtain ⟨o, ho, ho', hdate⟩ := exists_dayOfYear hm hm' hd hd' hleap
  obtain ⟨z, hlt, hle, hweekday⟩ := exists_yearStart (year n) (o + 3 - k)
  obtain ⟨hmonth, hday⟩ := hdate _ (dayOfYear_add ho ho')
  obtain ⟨hbefore, hafter⟩ := year_spec n
  refine ⟨yearStart z + o, ?_, ?_, hmonth, hday, ?_⟩
  · have hmono := yearStart_mono (show year n + 1 ≤ z by omega)
    omega
  · have hmono := yearStart_mono (show z ≤ year n + 13 by omega)
    have hspan : yearStart (year n + 13) ≤ yearStart (year n) + 4760 := by
      unfold yearStart
      omega
    omega
  · unfold weekday
    omega

end Calendar
