import Mathlib.Algebra.GroupWithZero.Nat
import Mathlib.Data.List.Nodup
import Mathlib.Algebra.BigOperators.Group.List.Basic

/-!
# Maps in insertion order

A map that remembers the order in which its keys were first set, as a list of entries with
distinct keys.
-/

namespace Entries

variable {κ α : Type} [DecidableEq κ]

def get (es : List (κ × α)) (k : κ) : Option α := (es.find? fun e => e.1 = k).map Prod.snd

def delete (es : List (κ × α)) (k : κ) : List (κ × α) := es.filter fun e => e.1 ≠ k

def set (es : List (κ × α)) (k : κ) (v : α) : List (κ × α) :=
  if (get es k).isSome then es.map fun e => if e.1 = k then (k, v) else e else es ++ [(k, v)]

def keys (es : List (κ × α)) : List κ := es.map Prod.fst

def total (f : α → ℕ) (es : List (κ × α)) : ℕ := (es.map fun e => f e.2).sum

theorem get_cons (e : κ × α) (es : List (κ × α)) (k : κ) :
    get (e :: es) k = if e.1 = k then some e.2 else get es k := by
  rw [get, List.find?_cons]
  by_cases h : e.1 = k
  · simp [h]
  · simp [h, get]

theorem get_none {es : List (κ × α)} {k : κ} : get es k = none ↔ k ∉ keys es := by
  induction es with
  | nil => exact iff_of_true rfl List.not_mem_nil
  | cons e es ih =>
    rw [get_cons, keys, List.map_cons, List.mem_cons, not_or]
    by_cases h : e.1 = k
    · rw [if_pos h]
      exact iff_of_false nofun fun hes => hes.1 h.symm
    · rw [if_neg h, ih]
      exact ⟨fun hes => ⟨fun he => h he.symm, hes⟩, fun hes => hes.2⟩

theorem mem_of_get {es : List (κ × α)} {k : κ} {v : α} (h : get es k = some v) : (k, v) ∈ es := by
  induction es with
  | nil => cases h
  | cons e es ih =>
    rw [get_cons] at h
    split_ifs at h with he
    · cases h
      exact List.mem_cons.mpr (.inl (Prod.ext he.symm rfl))
    · exact List.mem_cons_of_mem _ (ih h)

omit [DecidableEq κ] in
theorem mem_keys {es : List (κ × α)} {k : κ} {v : α} (h : (k, v) ∈ es) : k ∈ keys es :=
  List.mem_map.mpr ⟨(k, v), h, rfl⟩

theorem get_of_mem {es : List (κ × α)} (hn : (keys es).Nodup) {k : κ} {v : α} (h : (k, v) ∈ es) :
    get es k = some v := by
  induction es with
  | nil => cases h
  | cons e es ih =>
    obtain ⟨hfresh, hn⟩ := List.nodup_cons.mp hn
    rw [get_cons]
    rcases List.mem_cons.mp h with heq | h
    · rw [← heq, if_pos rfl]
    · have hne : e.1 ≠ k := fun he => hfresh (he ▸ mem_keys h)
      rw [if_neg hne]
      exact ih hn h

theorem get_map (f : α → α) (es : List (κ × α)) (k : κ) :
    get (es.map fun e => (e.1, f e.2)) k = (get es k).map f := by
  induction es with
  | nil => rfl
  | cons e es ih =>
    rw [List.map_cons, get_cons, get_cons, ih]
    split_ifs
    · rfl
    · rfl

theorem mem_delete {es : List (κ × α)} {k : κ} {e : κ × α} :
    e ∈ delete es k ↔ e ∈ es ∧ e.1 ≠ k := by
  simp [delete]

theorem keys_delete_nodup {es : List (κ × α)} (hn : (keys es).Nodup) (k : κ) :
    (keys (delete es k)).Nodup :=
  hn.sublist (List.filter_sublist.map Prod.fst)

theorem delete_absent {es : List (κ × α)} {k : κ} (h : get es k = none) : delete es k = es := by
  refine List.filter_eq_self.mpr fun e he => ?_
  have hne : e.1 ≠ k := fun hk => get_none.mp h (hk ▸ mem_keys (v := e.2) he)
  exact decide_eq_true hne

theorem delete_cons_self {k : κ} {v : α} {es : List (κ × α)} (hn : (keys ((k, v) :: es)).Nodup) :
    delete ((k, v) :: es) k = es := by
  have hfresh : get es k = none := get_none.mpr (List.nodup_cons.mp hn).1
  have hrest := delete_absent hfresh
  simp only [delete] at hrest ⊢
  rw [List.filter_cons_of_neg (by simp), hrest]

/-- The entries are the one that is deleted and those that stay. -/
theorem delete_perm {es : List (κ × α)} (hn : (keys es).Nodup) {k : κ} {v : α}
    (h : get es k = some v) : es.Perm ((k, v) :: delete es k) := by
  induction es with
  | nil => cases h
  | cons e es ih =>
    have hrest := (List.nodup_cons.mp hn).2
    rw [get_cons] at h
    split_ifs at h with he
    · cases h
      obtain ⟨key, value⟩ := e
      subst he
      rw [delete_cons_self hn]
    · have hkeep : delete (e :: es) k = e :: delete es k :=
        List.filter_cons_of_pos (decide_eq_true he)
      rw [hkeep]
      exact ((ih hrest h).cons e).trans (List.Perm.swap _ _ _)

theorem keys_delete_perm {es : List (κ × α)} (hn : (keys es).Nodup) {k : κ} {v : α}
    (h : get es k = some v) : (keys es).Perm (k :: keys (delete es k)) :=
  (delete_perm hn h).map Prod.fst

theorem total_delete (f : α → ℕ) {es : List (κ × α)} (hn : (keys es).Nodup) {k : κ} {v : α}
    (h : get es k = some v) : total f (delete es k) + f v = total f es := by
  have hsum := ((delete_perm hn h).map fun e => f e.2).sum_eq
  simp only [total, List.map_cons, List.sum_cons] at hsum ⊢
  omega

/-- What stands under a key, and what is left without it. -/
theorem flatMap_delete {β : Type} (f : α → List β) {es : List (κ × α)} (hn : (keys es).Nodup) (k : κ) :
    (es.flatMap fun e => f e.2).Perm
      (((get es k).elim [] f) ++ (delete es k).flatMap fun e => f e.2) := by
  rcases h : get es k with _ | v
  · rw [delete_absent h]
    exact .refl _
  · exact (delete_perm hn h).flatMap_right _

theorem get_delete_self (es : List (κ × α)) (k : κ) : get (delete es k) k = none := by
  refine get_none.mpr fun hmem => ?_
  obtain ⟨e, he, heq⟩ := List.mem_map.mp hmem
  exact (mem_delete.mp he).2 heq

theorem get_delete_other {es : List (κ × α)} (hn : (keys es).Nodup) {k a : κ} (h : a ≠ k) :
    get (delete es k) a = get es a := by
  rcases ha : get es a with _ | w
  · refine get_none.mpr fun hmem => ?_
    obtain ⟨e, he, rfl⟩ := List.mem_map.mp hmem
    exact get_none.mp ha (mem_keys (v := e.2) (mem_delete.mp he).1)
  · exact get_of_mem (keys_delete_nodup hn k) (mem_delete.mpr ⟨mem_of_get ha, h⟩)

theorem length_delete_le (es : List (κ × α)) (k : κ) : (delete es k).length ≤ es.length :=
  List.length_filter_le _ es

section Set

theorem set_absent {es : List (κ × α)} {k : κ} (h : get es k = none) (v : α) :
    set es k v = es ++ [(k, v)] := by
  rw [set, h]
  rfl

theorem set_present {es : List (κ × α)} {k : κ} {w : α} (h : get es k = some w) (v : α) :
    set es k v = es.map fun e => if e.1 = k then (k, v) else e := by
  rw [set, h]
  rfl

theorem keys_set_present {es : List (κ × α)} {k : κ} {w : α} (h : get es k = some w) (v : α) :
    keys (set es k v) = keys es := by
  rw [set_present h, keys, keys, List.map_map]
  refine List.map_congr_left fun e _ => ?_
  simp only [Function.comp_apply]
  split_ifs with he
  · exact he.symm
  · rfl

theorem keys_set_nodup {es : List (κ × α)} (hn : (keys es).Nodup) (k : κ) (v : α) :
    (keys (set es k v)).Nodup := by
  rcases h : get es k with _ | w
  · rw [set_absent h, keys, List.map_append]
    refine List.nodup_append.mpr ⟨hn, List.nodup_singleton _, ?_⟩
    intro a ha b hb hab
    rw [hab, List.mem_singleton.mp hb] at ha
    exact get_none.mp h ha
  · rw [keys_set_present h]
    exact hn

theorem mem_set {es : List (κ × α)} {k : κ} {v : α} {e : κ × α} :
    e ∈ set es k v ↔ e = (k, v) ∨ e ∈ es ∧ e.1 ≠ k := by
  rcases h : get es k with _ | w
  · rw [set_absent h, List.mem_append, List.mem_singleton]
    have hne : e ∈ es → e.1 ≠ k := fun he hk => get_none.mp h (hk ▸ mem_keys (v := e.2) he)
    exact ⟨fun hor => hor.elim (fun he => .inr ⟨he, hne he⟩) .inl,
      fun hor => hor.elim .inr fun he => .inl he.1⟩
  · rw [set_present h, List.mem_map]
    constructor
    · intro hex
      obtain ⟨d, hd, rfl⟩ := hex
      split_ifs with hk
      · exact .inl rfl
      · exact .inr ⟨hd, hk⟩
    · intro hor
      rcases hor with rfl | ⟨he, hk⟩
      · exact ⟨(k, w), mem_of_get h, if_pos rfl⟩
      · exact ⟨e, he, if_neg hk⟩

theorem get_set_self {es : List (κ × α)} (hn : (keys es).Nodup) (k : κ) (v : α) :
    get (set es k v) k = some v :=
  get_of_mem (keys_set_nodup hn k v) (mem_set.mpr (.inl rfl))

theorem get_set_other {es : List (κ × α)} (hn : (keys es).Nodup) {k a : κ} (h : a ≠ k) (v : α) :
    get (set es k v) a = get es a := by
  rcases ha : get es a with _ | w
  · refine get_none.mpr fun hmem => ?_
    obtain ⟨e, he, rfl⟩ := List.mem_map.mp hmem
    rcases mem_set.mp he with rfl | ⟨he, -⟩
    · exact h rfl
    · exact get_none.mp ha (mem_keys (v := e.2) he)
  · exact get_of_mem (keys_set_nodup hn k v) (mem_set.mpr (.inr ⟨mem_of_get ha, h⟩))

/-- What a set leaves at any key, also where a key stands more than once. -/
theorem get_set (es : List (κ × α)) (k a : κ) (v : α) :
    get (set es k v) a = if a = k then some v else get es a := by
  by_cases hk : (get es k).isSome
  · rw [set, if_pos hk]
    induction es with
    | nil => cases hk
    | cons e es ih =>
      rw [List.map_cons, get_cons, get_cons]
      by_cases he : e.1 = k
      · by_cases ha : a = k
        · simp [he, ha]
        · have hrest : get (es.map fun e => if e.1 = k then (k, v) else e) a = get es a := by
            by_cases hes : (get es k).isSome
            · rw [ih hes, if_neg ha]
            · have hfresh : ∀ d ∈ es, d.1 ≠ k := fun d hd hdk => by
                have hnone : get es k = none := by simpa using hes
                exact get_none.mp hnone (List.mem_map.mpr ⟨d, hd, hdk⟩)
              rw [List.map_congr_left fun d hd => if_neg (hfresh d hd)]
              simp
          simp [he, ha, Ne.symm ha, hrest]
      · have hes : (get es k).isSome := by simpa [get_cons, he] using hk
        simp only [he, if_false, ih hes]
        split_ifs with h1 h2
        · exact absurd (h1.trans h2) he
        · rfl
        · rfl
        · rfl
  · rw [set, if_neg hk]
    have hfresh : get es k = none := by simpa using hk
    induction es with
    | nil => simp [get, eq_comm]
    | cons e es ih =>
      rw [get_cons] at hfresh
      split_ifs at hfresh with he
      rw [List.cons_append, get_cons, ih (by simp [hfresh]) hfresh, get_cons]
      split_ifs with h1 h2
      · exact absurd (h1.trans h2) he
      · rfl
      · rfl
      · rfl

theorem set_set (es : List (κ × α)) (k : κ) (v w : α) : set (set es k v) k w = set es k w := by
  rcases h : get es k with _ | u
  · have hput : get (es ++ [(k, v)]) k ≠ none := fun hnone =>
      get_none.mp hnone (mem_keys (v := v) (List.mem_append_right _ (List.mem_singleton.mpr rfl)))
    obtain ⟨u, hu⟩ := Option.ne_none_iff_exists'.mp hput
    have hkeep : (es.map fun e => if e.1 = k then (k, w) else e) = es := by
      refine (List.map_congr_left fun e he => ?_).trans (List.map_id es)
      have hne : e.1 ≠ k := fun hk => get_none.mp h (hk ▸ mem_keys (v := e.2) he)
      exact if_neg hne
    rw [set_absent h, set_absent h, set_present hu, List.map_append, hkeep]
    simp
  · have hput : get (es.map fun e => if e.1 = k then (k, v) else e) k ≠ none := by
      intro hnone
      have hmem := mem_of_get h
      exact get_none.mp hnone (mem_keys (v := v) (List.mem_map.mpr ⟨_, hmem, if_pos rfl⟩))
    obtain ⟨u', hu'⟩ := Option.ne_none_iff_exists'.mp hput
    rw [set_present h, set_present h, set_present hu', List.map_map]
    refine List.map_congr_left fun e _ => ?_
    simp only [Function.comp_apply]
    split_ifs <;> simp_all

omit [DecidableEq κ] in
theorem total_append (f : α → ℕ) (es ds : List (κ × α)) :
    total f (es ++ ds) = total f es + total f ds := by
  rw [total, List.map_append, List.sum_append]
  rfl

theorem total_set_present (f : α → ℕ) {es : List (κ × α)} (hn : (keys es).Nodup) {k : κ} {w : α}
    (h : get es k = some w) (v : α) : total f (set es k v) + f w = total f es + f v := by
  rw [set_present h]
  induction es with
  | nil => cases h
  | cons e es ih =>
    obtain ⟨hfresh, hrest⟩ := List.nodup_cons.mp hn
    rw [get_cons] at h
    split_ifs at h with he
    · cases h
      have hkeep : (es.map fun d => if d.1 = k then (k, v) else d) = es := by
        refine (List.map_congr_left fun d hd => ?_).trans (List.map_id es)
        have hne : d.1 ≠ k := fun hk => hfresh (he ▸ hk ▸ mem_keys (v := d.2) hd)
        exact if_neg hne
      rw [List.map_cons, hkeep, if_pos he]
      simp only [total, List.map_cons, List.sum_cons]
      omega
    · have hless := ih hrest h
      rw [List.map_cons, if_neg he]
      simp only [total, List.map_cons, List.sum_cons] at hless ⊢
      omega

theorem delete_set (es : List (κ × α)) (k : κ) (v : α) : delete (set es k v) k = delete es k := by
  rcases h : get es k with _ | w
  · rw [set_absent h, delete, delete, List.filter_append, List.filter_cons_of_neg (by simp),
      List.filter_nil, List.append_nil]
  · rw [set_present h, delete, List.filter_map]
    have hsame : ((fun e => decide (e.1 ≠ k)) ∘ fun e => if e.1 = k then (k, v) else e) =
        fun e : κ × α => decide (e.1 ≠ k) := by
      funext e
      simp only [Function.comp_apply]
      split_ifs with he
      · simp [he]
      · rfl
    rw [hsame]
    refine (List.map_congr_left fun e he => ?_).trans (List.map_id _)
    exact if_neg (mem_delete.mp he).2

/-- A set puts a value in the place of the one that stood there. -/
theorem flatMap_set {β : Type} (f : α → List β) {es : List (κ × α)} (hn : (keys es).Nodup) (k : κ)
    (v : α) : (((get es k).elim [] f) ++ (set es k v).flatMap fun e => f e.2).Perm
      (f v ++ es.flatMap fun e => f e.2) := by
  have hset := flatMap_delete f (keys_set_nodup hn k v) k
  rw [get_set_self hn, delete_set, Option.elim_some] at hset
  have hold := flatMap_delete f hn k
  exact (hset.append_left _).trans
    ((List.perm_append_comm_assoc _ _ _).trans (hold.symm.append_left _))

theorem length_set_present {es : List (κ × α)} {k : κ} {w : α} (h : get es k = some w) (v : α) :
    (set es k v).length = es.length := by
  rw [set_present h, List.length_map]

end Set

omit [DecidableEq κ] in
theorem total_le (f : α → ℕ) {bound : ℕ} {es : List (κ × α)} (h : ∀ e ∈ es, f e.2 ≤ bound) :
    total f es ≤ es.length * bound := by
  induction es with
  | nil => exact Nat.zero_le _
  | cons e es ih =>
    have hhead := h e List.mem_cons_self
    have htail := ih fun d hd => h d (List.mem_cons_of_mem _ hd)
    simp only [total, List.map_cons, List.sum_cons, List.length_cons] at htail ⊢
    rw [Nat.add_mul]
    omega

section Building

variable {β : Type}

omit [DecidableEq κ] in
theorem keys_filterMap_sublist (f : κ → α → Option β) (es : List (κ × α)) :
    (keys (es.filterMap fun e => (f e.1 e.2).map (e.1, ·))).Sublist (keys es) := by
  induction es with
  | nil => exact .slnil
  | cons e es ih =>
    rw [List.filterMap_cons]
    rcases f e.1 e.2 with _ | v
    · exact ih.cons e.1
    · exact ih.cons_cons e.1

/-- Every entry is changed or dropped by a function of its key and value. -/
theorem get_filterMap (f : κ → α → Option β) {es : List (κ × α)} (hn : (keys es).Nodup) (k : κ) :
    get (es.filterMap fun e => (f e.1 e.2).map (e.1, ·)) k = (get es k).bind (f k) := by
  induction es with
  | nil => rfl
  | cons e es ih =>
    obtain ⟨hnot, hrest⟩ := List.nodup_cons.mp hn
    rw [List.filterMap_cons, get_cons]
    by_cases hk : e.1 = k
    · subst hk
      rw [if_pos rfl, Option.bind_some]
      rcases hf : f e.1 e.2 with _ | v
      · have habsent : get es e.1 = none := get_none.mpr hnot
        simp only [Option.map_none]
        rw [ih hrest, habsent]
        rfl
      · simp only [Option.map_some]
        rw [get_cons, if_pos rfl]
    · rw [if_neg hk, ← ih hrest]
      rcases f e.1 e.2 with _ | v
      · rfl
      · simp only [Option.map_some]
        rw [get_cons, if_neg hk]

def ofList (es : List (κ × α)) : List (κ × α) := es.foldl (fun m e => set m e.1 e.2) []

theorem keys_foldl_set_nodup (es : List (κ × α)) {m : List (κ × α)} (hm : (keys m).Nodup) :
    (keys (es.foldl (fun m e => set m e.1 e.2) m)).Nodup := by
  induction es generalizing m with
  | nil => exact hm
  | cons e es ih => exact ih (keys_set_nodup hm e.1 e.2)

theorem keys_ofList_nodup (es : List (κ × α)) : (keys (ofList es)).Nodup :=
  keys_foldl_set_nodup es List.nodup_nil

theorem mem_foldl_set {es m : List (κ × α)} {e : κ × α}
    (h : e ∈ es.foldl (fun m e => set m e.1 e.2) m) : e ∈ m ∨ e ∈ es := by
  induction es generalizing m with
  | nil => exact .inl h
  | cons d es ih =>
    rcases ih h with hset | hrest
    · rcases mem_set.mp hset with hnew | hold
      · exact .inr (List.mem_cons.mpr (.inl hnew))
      · exact .inl hold.1
    · exact .inr (List.mem_cons_of_mem _ hrest)

theorem mem_of_mem_ofList {es : List (κ × α)} {e : κ × α} (h : e ∈ ofList es) : e ∈ es := by
  rcases mem_foldl_set h with hnil | hmem
  · cases hnil
  · exact hmem

theorem foldl_set_of_nodup {es m : List (κ × α)} (hn : (keys (m ++ es)).Nodup) :
    es.foldl (fun m e => set m e.1 e.2) m = m ++ es := by
  induction es generalizing m with
  | nil => rw [List.foldl_nil, List.append_nil]
  | cons e es ih =>
    have hnot : e.1 ∉ keys m := by
      rw [keys, List.map_append] at hn
      exact fun hmem => (List.nodup_append.mp hn).2.2 e.1 hmem e.1 (by simp) rfl
    have hsplit : m ++ e :: es = (m ++ [e]) ++ es := by simp
    rw [List.foldl_cons, set_absent (get_none.mpr hnot), hsplit]
    exact ih (hsplit ▸ hn)

theorem ofList_of_nodup {es : List (κ × α)} (hn : (keys es).Nodup) : ofList es = es :=
  foldl_set_of_nodup (m := []) hn

/-- Lookups do not depend on the order of the entries. -/
theorem get_perm {es ds : List (κ × α)} (h : es.Perm ds) (hn : (keys es).Nodup) (k : κ) :
    get es k = get ds k := by
  have hds : (keys ds).Nodup := (h.map Prod.fst).nodup_iff.mp hn
  rcases hk : get es k with _ | v
  · rw [get_none] at hk
    symm
    rw [get_none]
    exact fun hmem => hk ((h.map Prod.fst).mem_iff.mpr hmem)
  · exact (get_of_mem hds (h.mem_iff.mp (mem_of_get hk))).symm

end Building

end Entries
