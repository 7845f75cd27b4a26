import Mathlib.Data.List.Nodup

/-!
# Lists

Facts about lists that the standard library does not state in this form.
-/

namespace Lists

variable {α : Type}

theorem length_filter_le_one {l : List α} (hn : l.Nodup) {p : α → Bool} :
    (l.filter p).length ≤ 1 ↔ ∀ a ∈ l, ∀ b ∈ l, p a = true → p b = true → a = b := by
  have hs := hn.filter p
  have hall : (∀ a ∈ l, ∀ b ∈ l, p a = true → p b = true → a = b) ↔
      ∀ a ∈ l.filter p, ∀ b ∈ l.filter p, a = b := by
    simp only [List.mem_filter]
    exact ⟨fun h a ha b hb => h a ha.1 b hb.1 ha.2 hb.2,
      fun h a ha b hb hpa hpb => h a ⟨ha, hpa⟩ b ⟨hb, hpb⟩⟩
  rw [hall]
  generalize l.filter p = m at hs
  rcases m with _ | ⟨a, _ | ⟨b, m⟩⟩
  · simp
  · simp
  · have hab : a ≠ b := fun h => by simp [h] at hs
    simp [hab]

theorem get_concat {l : List α} {a b : α} {n : ℕ} :
    (l ++ [a])[n]? = some b ↔ l[n]? = some b ∨ n = l.length ∧ a = b := by
  rcases Nat.lt_trichotomy n l.length with h | h | h
  · simp [List.getElem?_append_left h, Nat.ne_of_lt h]
  · subst h
    simp
  · have hnone : l[n]? = none := List.getElem?_eq_none (Nat.le_of_lt h)
    have hend : (l ++ [a])[n]? = none := by
      apply List.getElem?_eq_none
      simp only [List.length_append, List.length_singleton]
      omega
    simp [hnone, hend, Nat.ne_of_gt h]

theorem get_set {l : List α} {i n : ℕ} {a b : α} : (l.set i a)[n]? = some b ↔
    n = i ∧ i < l.length ∧ a = b ∨ n ≠ i ∧ l[n]? = some b := by
  rw [List.getElem?_set]
  rcases eq_or_ne i n with rfl | h
  · by_cases hi : i < l.length
    · simp [hi]
    · simp [hi]
  · simp [h, h.symm]

theorem split_append_singleton {l before after : List α} {x a : α}
    (h : l ++ [x] = before ++ a :: after) :
    l = before ∧ a = x ∨ ∃ after', l = before ++ a :: after' := by
  rcases List.eq_nil_or_concat after with hnil | ⟨init, last, hlast⟩
  · rw [hnil] at h
    have hparts := List.append_inj' h rfl
    simp only [List.cons.injEq, and_true] at hparts
    exact .inl ⟨hparts.1, hparts.2.symm⟩
  · rw [hlast, List.concat_eq_append, ← List.cons_append, ← List.append_assoc] at h
    exact .inr ⟨init, (List.append_inj' h rfl).1⟩

/-- In an ordered list nothing comes above the last element. -/
theorem pairwise_concat {r : α → α → Prop} {l : List α} (hl : l.Pairwise r) {x : α}
    (htrans : ∀ a b, r a b → r b x → r a x) (hlast : ∀ b ∈ l.getLast?, r b x) :
    (l ++ [x]).Pairwise r := by
  refine List.pairwise_append.mpr ⟨hl, List.pairwise_singleton _ _, ?_⟩
  intro a ha y hy
  rw [List.mem_singleton.mp hy]
  rcases hend : l.getLast? with _ | b
  · rw [List.getLast?_eq_none_iff.mp hend] at ha
    cases ha
  · have hb := hlast b hend
    obtain ⟨init, hinit⟩ := List.getLast?_eq_some_iff.mp hend
    rw [hinit] at ha hl
    rcases List.mem_append.mp ha with ha | ha
    · have hab := (List.pairwise_append.mp hl).2.2 a ha b (List.mem_singleton_self b)
      exact htrans a b hab hb
    · rw [List.mem_singleton.mp ha]
      exact hb

/-- What is left when an element is taken out differs from it, where keys are distinct. -/
theorem ne_of_mem_eraseIdx {β : Type} {f : α → β} {l : List α} (h : (l.map f).Nodup) {i : ℕ}
    {a b : α} (ha : l[i]? = some a) (hb : b ∈ l.eraseIdx i) : f b ≠ f a := by
  induction l generalizing i with
  | nil => cases hb
  | cons x l ih =>
    obtain ⟨hfresh, hrest⟩ := List.nodup_cons.mp h
    cases i with
    | zero =>
      cases ha
      intro heq
      exact hfresh (heq ▸ List.mem_map_of_mem hb)
    | succ i =>
      rw [List.getElem?_cons_succ] at ha
      rcases List.mem_cons.mp hb with rfl | hb
      · intro heq
        exact hfresh (heq ▸ List.mem_map_of_mem (List.mem_of_getElem? ha))
      · exact ih hrest ha hb

/-- An element of a list after a `set`: the new one, or an old one with another key. -/
theorem mem_set_key {β : Type} {f : α → β} {l : List α} (h : (l.map f).Nodup) {i : ℕ} {a b x : α}
    (ha : l[i]? = some a) (hb : b ∈ l.set i x) : b = x ∨ b ∈ l ∧ f b ≠ f a := by
  obtain ⟨n, hn⟩ := List.mem_iff_getElem?.mp hb
  rcases get_set.mp hn with ⟨-, -, hx⟩ | ⟨hne, hn⟩
  · exact .inl hx.symm
  · refine .inr ⟨List.mem_of_getElem? hn, fun hsame => hne ?_⟩
    have hfn : (l.map f)[n]? = some (f b) := by rw [List.getElem?_map, hn, Option.map_some]
    have hfi : (l.map f)[i]? = some (f b) := by rw [List.getElem?_map, ha, Option.map_some, hsame]
    exact (List.getElem?_inj (List.getElem?_eq_some_iff.mp hfn).1 h).mp (hfn.trans hfi.symm)

/-- An element with another key outlives a `set`. -/
theorem mem_set_of_key {β : Type} {f : α → β} {l : List α} {i : ℕ} {a b x : α}
    (ha : l[i]? = some a) (hb : b ∈ l) (hne : f b ≠ f a) : b ∈ l.set i x := by
  obtain ⟨n, hn⟩ := List.mem_iff_getElem?.mp hb
  refine List.mem_of_getElem? (i := n) ?_
  rw [List.getElem?_set_ne, hn]
  intro hin
  rw [hin, hn] at ha
  cases ha
  exact hne rfl

/-- An element with another key outlives an `eraseIdx`. -/
theorem mem_eraseIdx_of_key {β : Type} {f : α → β} {l : List α} {i : ℕ} {a b : α}
    (ha : l[i]? = some a) (hb : b ∈ l) (hne : f b ≠ f a) : b ∈ l.eraseIdx i := by
  obtain ⟨n, hn⟩ := List.mem_iff_getElem?.mp hb
  refine List.mem_eraseIdx_iff_getElem?.mpr ⟨n, ?_, hn⟩
  intro hin
  rw [hin, ha] at hn
  cases hn
  exact hne rfl

theorem map_set_key {β : Type} {f : α → β} {l : List α} {i : ℕ} {a x : α} (ha : l[i]? = some a)
    (hx : f x = f a) : (l.set i x).map f = l.map f := by
  rw [List.map_set, hx]
  apply List.ext_getElem?
  intro n
  rw [List.getElem?_set]
  split_ifs with hin hlt
  · rw [← hin, List.getElem?_map, ha, Option.map_some]
  · rw [← hin, List.getElem?_eq_none (by omega)]
  · rfl

/-- One element that stops counting, where all others count as before. -/
theorem countP_drop_one {l : List α} (hn : l.Nodup) {x : α} (hx : x ∈ l) {p q : α → Bool}
    (hp : p x = true) (hq : q x = false) (hsame : ∀ a ∈ l, a ≠ x → q a = p a) :
    l.countP q + 1 = l.countP p := by
  induction l with
  | nil => cases hx
  | cons a l ih =>
    obtain ⟨hfresh, hrest⟩ := List.nodup_cons.mp hn
    rcases eq_or_ne a x with rfl | hne
    · have htail : l.countP q = l.countP p := by
        refine List.countP_congr fun b hb => ?_
        have hba : b ≠ a := fun he => hfresh (he ▸ hb)
        rw [hsame b (List.mem_cons_of_mem a hb) hba]
      rw [List.countP_cons_of_neg (by simp [hq]), List.countP_cons_of_pos hp, htail]
    · have hx' : x ∈ l := (List.mem_cons.mp hx).resolve_left fun he => hne he.symm
      have htail := ih hrest hx' fun b hb => hsame b (List.mem_cons_of_mem a hb)
      rw [List.countP_cons, List.countP_cons, hsame a List.mem_cons_self hne]
      omega

theorem find_or_eraseP {p : α → Bool} {l : List α} {x : α} (hx : x ∈ l) :
    l.find? p = some x ∨ x ∈ l.eraseP p := by
  induction l with
  | nil => cases hx
  | cons first rest ih =>
    by_cases hfirst : p first = true
    · rw [List.find?_cons_of_pos hfirst, List.eraseP_cons_of_pos hfirst]
      rcases List.mem_cons.mp hx with rfl | hx
      · exact .inl rfl
      · exact .inr hx
    · rw [List.find?_cons_of_neg hfirst, List.eraseP_cons_of_neg hfirst]
      rcases List.mem_cons.mp hx with rfl | hx
      · exact .inr List.mem_cons_self
      · exact (ih hx).imp_right (List.mem_cons_of_mem first)

theorem find_eraseP_perm {p : α → Bool} {l : List α} {x : α} (h : l.find? p = some x) :
    l.Perm (x :: l.eraseP p) := by
  induction l with
  | nil => cases h
  | cons first rest ih =>
    by_cases hfirst : p first = true
    · rw [List.find?_cons_of_pos hfirst, Option.some.injEq] at h
      rw [List.eraseP_cons_of_pos hfirst, h]
    · rw [List.find?_cons_of_neg hfirst] at h
      rw [List.eraseP_cons_of_neg hfirst]
      exact ((ih h).cons first).trans (List.Perm.swap x first _)

/-- A loop within a loop is one loop over all. -/
theorem foldlM_flatMap {β γ : Type} {m : Type → Type} [Monad m] [LawfulMonad m]
    (f : β → α → m β) (g : γ → List α) (l : List γ) (b : β) :
    (l.flatMap g).foldlM f b = l.foldlM (fun b c => (g c).foldlM f b) b := by
  induction l generalizing b with
  | nil => rfl
  | cons c l ih =>
    rw [List.flatMap_cons, List.foldlM_append, List.foldlM_cons]
    exact congrArg (((g c).foldlM f b) >>= ·) (funext ih)

section Unique

variable [DecidableEq α]

def unique (l : List α) : List α := l.foldl (fun seen a => if a ∈ seen then seen else seen ++ [a]) []

theorem nodup_foldl_unique (l : List α) {seen : List α} (h : seen.Nodup) :
    (l.foldl (fun seen a => if a ∈ seen then seen else seen ++ [a]) seen).Nodup := by
  induction l generalizing seen with
  | nil => exact h
  | cons a l ih =>
    rw [List.foldl_cons]
    split_ifs with hmem
    · exact ih h
    · exact ih (List.nodup_append.mpr ⟨h, List.nodup_singleton a, by
        intro b hb c hc
        rw [List.mem_singleton.mp hc]
        exact fun heq => hmem (heq ▸ hb)⟩)

theorem nodup_unique (l : List α) : (unique l).Nodup := nodup_foldl_unique l List.nodup_nil

theorem mem_foldl_unique (l : List α) {seen : List α} {b : α} :
    b ∈ l.foldl (fun seen a => if a ∈ seen then seen else seen ++ [a]) seen ↔ b ∈ seen ∨ b ∈ l := by
  induction l generalizing seen with
  | nil => simp
  | cons a l ih =>
    rw [List.foldl_cons, ih, List.mem_cons]
    split_ifs with hmem
    · constructor
      · rintro (hb | hb)
        · exact .inl hb
        · exact .inr (.inr hb)
      · rintro (hb | rfl | hb)
        · exact .inl hb
        · exact .inl hmem
        · exact .inr hb
    · rw [List.mem_append, List.mem_singleton, or_assoc]

theorem mem_unique {l : List α} {b : α} : b ∈ unique l ↔ b ∈ l := by
  rw [unique, mem_foldl_unique]
  simp

theorem foldl_unique_of_nodup {l : List α} (seen : List α) (h : (seen ++ l).Nodup) :
    l.foldl (fun seen a => if a ∈ seen then seen else seen ++ [a]) seen = seen ++ l := by
  induction l generalizing seen with
  | nil => rw [List.foldl_nil, List.append_nil]
  | cons a l ih =>
    have hnot : a ∉ seen := fun hmem =>
      (List.nodup_append.mp h).2.2 a hmem a List.mem_cons_self rfl
    rw [List.foldl_cons, if_neg hnot, ih _ (by rwa [List.append_assoc, List.singleton_append]),
      List.append_assoc, List.singleton_append]

theorem unique_of_nodup {l : List α} (h : l.Nodup) : unique l = l :=
  foldl_unique_of_nodup [] h

end Unique

section Filter

variable {q : α → Bool} {l m : List α} {i : ℕ} {e y z : α}

/-- A member that is looked at is replaced by one that is not. -/
theorem filter_set_perm (hz : l[i]? = some z) (hq : q z = true) (hy : q y = false) :
    (l.filter q).Perm (z :: (l.set i y).filter q) := by
  induction l generalizing i with
  | nil => cases hz
  | cons a l ih =>
    cases i with
    | zero =>
      cases hz
      rw [List.set_cons_zero, List.filter_cons, List.filter_cons, if_pos hq, if_neg (by simp [hy])]
    | succ i =>
      have hrest := ih (i := i) (by simpa using hz)
      rw [List.set_cons_succ, List.filter_cons, List.filter_cons]
      split_ifs
      · exact (hrest.cons a).trans (List.Perm.swap z a _)
      · exact hrest

end Filter

end Lists
