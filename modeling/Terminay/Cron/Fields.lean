import Terminay.Cron.Parse
import Terminay.Lib.Outcome

/-!
# The fields of a parsed schedule

The values of a field are in order, within its range and not empty, and a field that begins with a
star has the least of them.
-/

namespace Terminay.Cron
open Script Outcome

variable {name : CronFieldName} {source text token : Str}

structure ItemSound (name : CronFieldName) (item : CronFieldItem) : Prop where
  start : (fieldSpec name).min ≤ item.start
  last : item.start ≤ item.last
  bounded : item.last ≤ (fieldSpec name).max
  step : 1 ≤ item.step

def greatest : CronFieldName → ℕ
  | .dayOfWeek => 6
  | name => (fieldSpec name).max

structure FieldSound (name : CronFieldName) (field : CronField) : Prop where
  sorted : field.values.Pairwise (· < ·)
  bounded : ∀ v ∈ field.values, (fieldSpec name).min ≤ v ∧ v ≤ greatest name
  filled : field.values ≠ []
  star : field.star = true → (fieldSpec name).min ∈ field.values

structure ScheduleSound (schedule : CronSchedule) : Prop where
  minute : FieldSound .minute schedule.minute
  hour : FieldSound .hour schedule.hour
  dayOfMonth : FieldSound .dayOfMonth schedule.dayOfMonth
  month : FieldSound .month schedule.month
  dayOfWeek : FieldSound .dayOfWeek schedule.dayOfWeek

theorem fieldSpec_le (name : CronFieldName) : (fieldSpec name).min ≤ (fieldSpec name).max := by
  cases name <;> decide

/-! ## Items -/

theorem parseValue_bounds : Ensures (parseValue name source token) fun v =>
    (fieldSpec name).min ≤ v ∧ v ≤ (fieldSpec name).max := by
  refine Ensures.bind fun v _ => ?_
  refine Ensures.ite (fun _ => Ensures.error) fun hin => Ensures.ok ?_
  omega

theorem parseStep_pos (stepText : Option Str) :
    Ensures (parseStep name source stepText) fun k => 1 ≤ k := by
  unfold parseStep
  split
  · exact Ensures.ok le_rfl
  · refine Ensures.ite (fun _ => Ensures.error) fun hnumeral =>
      Ensures.ite (fun _ => Ensures.error) fun _ => Ensures.ok ?_
    rw [not_or, not_lt] at hnumeral
    exact hnumeral.2

theorem parseRange_sound (stepped : Bool) {step : ℕ} (hstep : 1 ≤ step) :
    Ensures (parseRange name source text stepped step) (ItemSound name) := by
  unfold parseRange
  split
  · refine Ensures.ite (fun _ => Ensures.error) fun _ => Ensures.bind fun start hstart => ?_
    obtain ⟨hlow, hhigh⟩ := parseValue_bounds start hstart
    apply Ensures.ok
    cases stepped
    · exact ⟨hlow, le_rfl, hhigh, hstep⟩
    · exact ⟨hlow, hhigh, le_rfl, hstep⟩
  · refine Ensures.ite (fun _ => Ensures.error) fun _ => Ensures.bind fun start hstart =>
      Ensures.bind fun last hlast => Ensures.ite (fun _ => Ensures.error) fun hforward =>
        Ensures.ok ?_
    exact ⟨(parseValue_bounds start hstart).1, not_lt.mp hforward,
      (parseValue_bounds last hlast).2, hstep⟩
  · exact Ensures.error

theorem parseItem_sound : Ensures (parseItem name source text) (ItemSound name) := by
  unfold parseItem
  refine Ensures.ite (fun _ => Ensures.error) fun _ => Ensures.ite (fun _ => Ensures.error) fun _ =>
    Ensures.bind fun step hstep => Ensures.ite (fun _ => Ensures.ok ?_) fun _ => ?_
  · exact ⟨le_rfl, fieldSpec_le name, le_rfl, parseStep_pos _ step hstep⟩
  · exact parseRange_sound _ (parseStep_pos _ step hstep)

/-! ## Stars -/

theorem splitOn_head {u v : UInt16} (hne : u ≠ v) (rest : Str) :
    ∃ first parts, (u :: rest).splitOn v = (u :: first) :: parts := by
  have hsplit : (u :: rest).splitOn v = (rest.splitOn v).modifyHead (u :: ·) := by
    simp [List.splitOn, List.splitOnP_cons_eq_if_modifyHead, hne]
  rcases hparts : rest.splitOn v with _ | ⟨first, parts⟩
  · exact absurd hparts (List.splitOnP_ne_nil _ _)
  · exact ⟨first, parts, by rw [hsplit, hparts, List.modifyHead_cons]⟩

theorem parseValue_star (rest : Str) : ∀ v, parseValue name source (unit '*' :: rest) ≠ .ok v := by
  intro v hv
  have hnumeral : isNumeral (unit '*' :: rest) = false := by
    simp [isNumeral, show isDigit (unit '*') = false by decide]
  have hletters : (unit '*' :: rest).all isLetter = false := by
    simp [show isLetter (unit '*') = false by decide]
  simp [parseValue, tokenValue, hnumeral, hletters, bind, Except.bind] at hv

theorem parseRange_star (rest : Str) (stepped : Bool) (step : ℕ) :
    ∀ item, parseRange name source (unit '*' :: rest) stepped step ≠ .ok item := by
  intro item hitem
  obtain ⟨first, parts, hsplit⟩ := splitOn_head (show unit '*' ≠ unit '-' by decide) rest
  unfold parseRange at hitem
  rw [hsplit] at hitem
  split at hitem
  · rename_i bound hbound
    cases hbound
    rw [if_neg (List.cons_ne_nil _ _)] at hitem
    obtain ⟨start, hstart, -⟩ := bind_ok.mp hitem
    exact parseValue_star first start hstart
  · rename_i low high hbounds
    cases hbounds
    split at hitem
    · cases hitem
    obtain ⟨start, hstart, -⟩ := bind_ok.mp hitem
    exact parseValue_star first start hstart
  · cases hitem

theorem parseItem_star (hstar : text.head? = some (unit '*')) :
    Ensures (parseItem name source text) fun item => item.start = (fieldSpec name).min := by
  obtain ⟨rest, rfl⟩ : ∃ rest, text = unit '*' :: rest := by
    rcases text with _ | ⟨u, rest⟩
    · cases hstar
    · cases hstar
      exact ⟨rest, rfl⟩
  obtain ⟨first, parts, hsplit⟩ := splitOn_head (show unit '*' ≠ unit '/' by decide) rest
  unfold parseItem
  refine Ensures.ite (fun _ => Ensures.error) fun _ => Ensures.ite (fun _ => Ensures.error) fun _ =>
    Ensures.bind fun step hstep => Ensures.ite (fun _ => Ensures.ok rfl) fun _ => ?_
  rw [hsplit]
  intro item hitem
  exact absurd hitem (parseRange_star first _ step item)

/-! ## Fields -/

theorem mem_itemValues {item : CronFieldItem} {v : ℕ} : v ∈ itemValues name item ↔
    ∃ i, i < item.last + 1 - item.start ∧ i % item.step = 0 ∧
      foldSunday name (item.start + i) = v := by
  simp [itemValues, and_assoc]

theorem foldSunday_bounds {v : ℕ} (hlow : (fieldSpec name).min ≤ v)
    (hhigh : v ≤ (fieldSpec name).max) :
    (fieldSpec name).min ≤ foldSunday name v ∧ foldSunday name v ≤ greatest name := by
  unfold foldSunday
  cases name with
  | dayOfWeek =>
    simp only [fieldSpec, greatest, true_and] at hlow hhigh ⊢
    split_ifs <;> omega
  | _ => exact ⟨hlow, hhigh⟩

theorem parseItems_sound (texts : List Str) :
    Ensures (texts.mapM (parseItem name source)) fun items =>
      (∀ item ∈ items, ItemSound name item) ∧ items.length = texts.length ∧
        ((texts.head?.bind List.head?) = some (unit '*') →
          ∃ item ∈ items, item.start = (fieldSpec name).min) := by
  induction texts with
  | nil =>
    intro items hitems
    cases hitems
    exact ⟨nofun, rfl, nofun⟩
  | cons text texts ih =>
    intro items hitems
    rw [List.mapM_cons] at hitems
    obtain ⟨item, hitem, hrest⟩ := bind_ok.mp hitems
    obtain ⟨others, hothers, hall⟩ := bind_ok.mp hrest
    cases hall
    obtain ⟨hsound, hlength, -⟩ := ih others hothers
    refine ⟨?_, by rw [List.length_cons, List.length_cons, hlength], fun hstar => ?_⟩
    · intro x hx
      rcases List.mem_cons.mp hx with rfl | hx
      · exact parseItem_sound x hitem
      · exact hsound x hx
    · exact ⟨item, List.mem_cons_self, parseItem_star hstar item hitem⟩

theorem parseField_sound : Ensures (parseField name source) (FieldSound name) := by
  refine Ensures.bind fun items hitems => Ensures.ok ?_
  obtain ⟨hsound, hlength, hstar⟩ := parseItems_sound _ items hitems
  have hmem : ∀ v, v ∈ (Lists.unique (items.flatMap (itemValues name))).insertionSort (· ≤ ·) ↔
      ∃ item ∈ items, v ∈ itemValues name item := by
    intro v
    rw [List.mem_insertionSort, Lists.mem_unique, List.mem_flatMap]
  have hfirst : ∀ item ∈ items, foldSunday name item.start ∈ itemValues name item := by
    intro item hitem
    have hlast := (hsound item hitem).last
    exact mem_itemValues.mpr ⟨0, by omega, Nat.zero_mod _, rfl⟩
  refine ⟨?_, fun v hv => ?_, fun hempty => ?_, fun hhead => ?_⟩
  · have hnodup : ((Lists.unique (items.flatMap (itemValues name))).insertionSort (· ≤ ·)).Nodup :=
      (List.perm_insertionSort _ _).nodup_iff.mpr (Lists.nodup_unique _)
    have hsorted := List.pairwise_insertionSort (· ≤ ·)
      (Lists.unique (items.flatMap (itemValues name)))
    exact (hsorted.and hnodup).imp fun h => lt_of_le_of_ne h.1 h.2
  · obtain ⟨item, hitem, hv⟩ := (hmem v).mp hv
    obtain ⟨i, hi, -, rfl⟩ := mem_itemValues.mp hv
    have hitem' := hsound item hitem
    have hstart := hitem'.start
    have hbounded := hitem'.bounded
    exact foldSunday_bounds (by omega) (by omega)
  · rcases items with _ | ⟨item, items⟩
    · exact List.splitOnP_ne_nil _ _ (List.length_eq_zero_iff.mp hlength.symm)
    · have hin := (hmem _).mpr ⟨item, List.mem_cons_self, hfirst item List.mem_cons_self⟩
      rw [show (Lists.unique ((item :: items).flatMap (itemValues name))).insertionSort (· ≤ ·) = []
        from hempty] at hin
      cases hin
  · have hpiece : ((source.splitOn (unit ',')).head?.bind List.head?) = some (unit '*') := by
      rcases source with _ | ⟨u, rest⟩
      · cases hhead
      · have hu : u = unit '*' := by simpa using hhead
        subst hu
        obtain ⟨first, parts, hsplit⟩ := splitOn_head (show unit '*' ≠ unit ',' by decide) rest
        rw [hsplit]
        rfl
    obtain ⟨item, hitem, hstart⟩ := hstar hpiece
    refine (hmem _).mpr ⟨item, hitem, ?_⟩
    have hin := hfirst item hitem
    rw [hstart] at hin
    have hfold : foldSunday name (fieldSpec name).min = (fieldSpec name).min := by
      cases name <;> rfl
    rwa [hfold] at hin

theorem parseFields_sound (expression : Str) :
    Ensures (parseFields expression) ScheduleSound := by
  unfold parseFields
  refine Ensures.ite (fun _ => Ensures.error) fun _ => ?_
  split
  · refine Ensures.bind fun minute hminute => Ensures.bind fun hour hhour =>
      Ensures.bind fun dayOfMonth hdayOfMonth => Ensures.bind fun month hmonth =>
        Ensures.bind fun dayOfWeek hdayOfWeek => Ensures.ok ?_
    exact ⟨parseField_sound minute hminute, parseField_sound hour hhour,
      parseField_sound dayOfMonth hdayOfMonth, parseField_sound month hmonth,
      parseField_sound dayOfWeek hdayOfWeek⟩
  · exact Ensures.error

theorem parseCron_sound (expression : Str) : Ensures (parseCron expression) ScheduleSound := by
  refine Ensures.bind fun schedule hschedule => Ensures.ite (fun _ => Ensures.error) fun _ => ?_
  exact Ensures.ok (parseFields_sound expression schedule hschedule)

end Terminay.Cron
