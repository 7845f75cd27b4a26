import Std.Data.ExtTreeMap
import Mathlib.Data.List.Basic

/-!
# Finite tables with canonical entries

A table is a finite map whose equality is pointwise: two tables with the same lookups are equal.
-/

namespace Table

variable {κ α β : Type} [Ord κ] [Std.TransOrd κ] [Std.LawfulEqOrd κ]

abbrev Of (κ α : Type) [Ord κ] := Std.ExtTreeMap κ α compare

theorem ext {s t : Of κ α} (h : ∀ k : κ, s[k]? = t[k]?) : s = t :=
  Std.ExtTreeMap.ext_getElem? fun {k} => h k

theorem mem_entries {t : Of κ α} {k : κ} {v : α} : (k, v) ∈ t.toList ↔ t[k]? = some v :=
  Std.ExtTreeMap.mem_toList_iff_getElem?_eq_some

theorem nodup_entries (t : Of κ α) : t.toList.Nodup :=
  Std.ExtTreeMap.distinct_keys_toList.imp fun h he => h (by rw [he]; exact Std.compare_self)

theorem nodup_keys (t : Of κ α) : (t.toList.map (·.1)).Nodup :=
  List.pairwise_map.mpr (Std.ExtTreeMap.distinct_keys_toList.imp fun h he =>
    h (by rw [he]; exact Std.compare_self))

theorem mem_keys {t : Of κ α} {k : κ} : k ∈ t.keys ↔ t[k]? ≠ none := by
  rw [Std.ExtTreeMap.mem_keys, Std.ExtTreeMap.mem_iff_isSome_getElem?, Option.ne_none_iff_isSome]

variable [DecidableEq κ]

theorem get_insert (t : Of κ α) (k a : κ) (v : α) :
    (t.insert k v)[a]? = if k = a then some v else t[a]? := by
  simp only [Std.ExtTreeMap.getElem?_insert, Std.compare_eq_iff_eq]

theorem get_erase (t : Of κ α) (k a : κ) :
    (t.erase k)[a]? = if k = a then none else t[a]? := by
  simp only [Std.ExtTreeMap.getElem?_erase, Std.compare_eq_iff_eq]

theorem get_insert_of_ne (t : Of κ α) {k a : κ} (v : α) (h : k ≠ a) :
    (t.insert k v)[a]? = t[a]? := by
  simp [get_insert, h]

theorem get_erase_of_ne (t : Of κ α) {k a : κ} (h : k ≠ a) : (t.erase k)[a]? = t[a]? := by
  simp [get_erase, h]

def eraseAll (t : Of κ α) (ks : List κ) : Of κ α := ks.foldl (fun t k => t.erase k) t

theorem get_eraseAll (t : Of κ α) (ks : List κ) (a : κ) :
    (eraseAll t ks)[a]? = if a ∈ ks then none else t[a]? := by
  induction ks generalizing t with
  | nil => simp [eraseAll]
  | cons k ks ih =>
    have h := ih (t.erase k)
    simp only [eraseAll, List.foldl_cons] at h ⊢
    rw [h, get_erase]
    by_cases hk : k = a
    · simp [hk]
    · simp [hk, Ne.symm hk]

def update (t : Of κ α) (k : κ) (f : α → α) : Of κ α :=
  match t[k]? with
  | some v => t.insert k (f v)
  | none => t

theorem get_update (t : Of κ α) (k : κ) (f : α → α) (a : κ) :
    (update t k f)[a]? = if k = a then t[a]?.map f else t[a]? := by
  unfold update
  by_cases h : k = a
  · subst h
    cases hk : t[k]? <;> simp [hk]
  · cases hk : t[k]? <;> simp [h, get_insert]

def updateAll (t : Of κ α) (ks : List κ) (f : α → α) : Of κ α :=
  ks.foldl (fun t k => update t k f) t

theorem get_updateAll (t : Of κ α) {ks : List κ} (hks : ks.Nodup) (f : α → α) (a : κ) :
    (updateAll t ks f)[a]? = if a ∈ ks then t[a]?.map f else t[a]? := by
  induction ks generalizing t with
  | nil => simp [updateAll]
  | cons k ks ih =>
    obtain ⟨hk, hks⟩ := List.nodup_cons.mp hks
    have h := ih (update t k f) hks
    simp only [updateAll, List.foldl_cons] at h ⊢
    rw [h, get_update]
    by_cases hka : k = a
    · subst hka
      simp [hk]
    · simp [hka, Ne.symm hka]

def ofEntries (es : List (κ × α)) : Of κ α := es.foldl (fun t e => t.insert e.1 e.2) ∅

theorem get_foldl_insert (es : List (κ × α)) (t : Of κ α) (k : κ)
    (h : ∀ v, (k, v) ∉ es) : (es.foldl (fun t e => t.insert e.1 e.2) t)[k]? = t[k]? := by
  induction es generalizing t with
  | nil => rfl
  | cons e es ih =>
    have hne : e.1 ≠ k := fun he => h e.2 (by simp [← he])
    rw [List.foldl_cons, ih _ fun v hv => h v (List.mem_cons_of_mem _ hv), get_insert_of_ne _ _ hne]

theorem get_foldl_insert_mem (es : List (κ × α)) (t : Of κ α) (k : κ) (v : α)
    (hv : (k, v) ∈ es) (huniq : ∀ w, (k, w) ∈ es → w = v) :
    (es.foldl (fun t e => t.insert e.1 e.2) t)[k]? = some v := by
  induction es generalizing t with
  | nil => cases hv
  | cons e es ih =>
    rw [List.foldl_cons]
    by_cases htail : (k, v) ∈ es
    · exact ih _ htail fun w hw => huniq w (List.mem_cons_of_mem _ hw)
    · have he : e = (k, v) := (List.mem_cons.mp hv).resolve_right htail |>.symm
      subst he
      rw [get_foldl_insert _ _ _ fun w hw => ?_, Std.ExtTreeMap.getElem?_insert_self]
      have hw' := huniq w (List.mem_cons_of_mem _ hw)
      exact htail (hw' ▸ hw)

/-- Entries whose values are a function of their keys are looked up directly. -/
theorem get_ofEntries (es : List (κ × α)) (f : κ → Option α)
    (hf : ∀ k v, (k, v) ∈ es → f k = some v)
    (hall : ∀ k v, f k = some v → (k, v) ∈ es) (k : κ) : (ofEntries es)[k]? = f k := by
  cases hk : f k with
  | some v =>
    exact get_foldl_insert_mem es ∅ k v (hall k v hk) fun w hw =>
      Option.some.inj ((hf k w hw).symm.trans hk)
  | none =>
    have hnone : ∀ v, (k, v) ∉ es := fun v hv => by
      have := hf k v hv
      simp [hk] at this
    rw [ofEntries, get_foldl_insert es ∅ k hnone, Std.ExtTreeMap.getElem?_empty]

def merge (s t : Of κ α) : Of κ α := t.toList.foldl (fun s e => s.insert e.1 e.2) s

theorem get_merge (s t : Of κ α) (k : κ) : (merge s t)[k]? = t[k]?.or s[k]? := by
  rcases hk : t[k]? with _ | v
  · exact get_foldl_insert _ _ _ fun v hv => by simp [mem_entries.mp hv] at hk
  · refine get_foldl_insert_mem _ _ _ v (mem_entries.mpr hk) fun w hw => ?_
    rw [mem_entries.mp hw] at hk
    exact Option.some.inj hk

def select (p : κ → α → Bool) (t : Of κ α) : Of κ α := ofEntries (t.toList.filter fun e => p e.1 e.2)

theorem get_select (p : κ → α → Bool) (t : Of κ α) (k : κ) :
    (select p t)[k]? = t[k]?.filter (p k) := by
  apply get_ofEntries
  · intro k v h
    obtain ⟨hm, hp⟩ := List.mem_filter.mp h
    simp [mem_entries.mp hm, hp]
  · intro k v h
    rw [Option.filter_eq_some_iff] at h
    exact List.mem_filter.mpr ⟨mem_entries.mpr h.1, h.2⟩

def mapValues (f : κ → α → β) (t : Of κ α) : Of κ β :=
  ofEntries (t.toList.map fun e => (e.1, f e.1 e.2))

theorem get_mapValues (f : κ → α → β) (t : Of κ α) (k : κ) :
    (mapValues f t)[k]? = t[k]?.map (f k) := by
  apply get_ofEntries
  · intro k v h
    obtain ⟨⟨k', v'⟩, hm, he⟩ := List.mem_map.mp h
    cases he
    simp [mem_entries.mp hm]
  · intro k v h
    obtain ⟨w, hw, rfl⟩ := Option.map_eq_some_iff.mp h
    exact List.mem_map.mpr ⟨(k, w), mem_entries.mpr hw, rfl⟩

def Agree (g : α → β) (s t : Of κ α) : Prop := ∀ k : κ, s[k]?.map g = t[k]?.map g

namespace Agree

variable {g : α → β} {s t u : Of κ α}

section

omit [Std.LawfulEqOrd κ] [DecidableEq κ]

theorem refl (g : α → β) (s : Of κ α) : Agree g s s := fun _ => rfl

theorem trans (h : Agree g s t) (h' : Agree g t u) : Agree g s u := fun k => (h k).trans (h' k)

theorem symm (h : Agree g s t) : Agree g t s := fun k => (h k).symm

theorem get (h : Agree g s t) {k : κ} {b : α} (hb : t[k]? = some b) :
    ∃ a, s[k]? = some a ∧ g a = g b := by
  have hk := h k
  rw [hb, Option.map_some, Option.map_eq_some_iff] at hk
  exact hk

theorem comp {γ : Type} (f : β → γ) (h : Agree g s t) : Agree (f ∘ g) s t := by
  intro k
  rw [← Option.map_map, h k, Option.map_map]

end

theorem insert {k : κ} {old new : α} (hold : s[k]? = some old) (hg : g new = g old) :
    Agree g s (s.insert k new) := by
  intro a
  rw [get_insert]
  by_cases h : k = a
  · subst h
    simp [hold, hg]
  · simp [h]

theorem mapValues {f : κ → α → α} (hf : ∀ k a, g (f k a) = g a) (s : Of κ α) :
    Agree g s (Table.mapValues f s) := by
  intro k
  rw [get_mapValues, Option.map_map]
  exact congrArg (fun r => Option.map r s[k]?) (funext fun a => (hf k a).symm)

theorem update {f : α → α} (hf : ∀ a, g (f a) = g a) (s : Of κ α) (k : κ) :
    Agree g s (Table.update s k f) := by
  intro a
  rw [get_update]
  by_cases h : k = a
  · simp only [h, if_true, Option.map_map]
    exact congrArg (fun r => Option.map r s[a]?) (funext fun a => (hf a).symm)
  · simp [h]

theorem updateAll {f : α → α} (hf : ∀ a, g (f a) = g a) (s : Of κ α) (ks : List κ) :
    Agree g s (Table.updateAll s ks f) := by
  induction ks generalizing s with
  | nil => exact refl g s
  | cons k ks ih => exact (update hf s k).trans (ih _)

end Agree

def pick (t : Of κ α) (ks : List κ) : Of κ α :=
  ofEntries (ks.filterMap fun k => t[k]?.map fun v => (k, v))

theorem get_pick (t : Of κ α) (ks : List κ) (k : κ) :
    (pick t ks)[k]? = if k ∈ ks then t[k]? else none := by
  apply get_ofEntries (f := fun k => if k ∈ ks then t[k]? else none)
  · intro k v h
    obtain ⟨k', hk, hv⟩ := List.mem_filterMap.mp h
    obtain ⟨w, hw, heq⟩ := Option.map_eq_some_iff.mp hv
    cases heq
    exact (if_pos hk).trans hw
  · intro k v h
    split_ifs at h with hk
    exact List.mem_filterMap.mpr ⟨k, hk, by rw [h]; rfl⟩

end Table
