import Terminay.Lib.Entries

/-!
# Maps that keep their order

Entries in the order in which their keys were first set, each key once.
-/

structure OrderedMap (κ α : Type) where
  entries : List (κ × α)
  nodup : (Entries.keys entries).Nodup

namespace OrderedMap

variable {κ α β : Type}

def empty : OrderedMap κ α := ⟨[], List.nodup_nil⟩

def values (m : OrderedMap κ α) : List α := m.entries.map Prod.snd

def size (m : OrderedMap κ α) : ℕ := m.entries.length

def map (f : α → β) (m : OrderedMap κ α) : OrderedMap κ β :=
  ⟨m.entries.map fun e => (e.1, f e.2), by
    have hkeys : Entries.keys (m.entries.map fun e => (e.1, f e.2)) = Entries.keys m.entries := by
      simp [Entries.keys, Function.comp_def]
    rw [hkeys]
    exact m.nodup⟩

def filter (p : α → Bool) (m : OrderedMap κ α) : OrderedMap κ α :=
  ⟨m.entries.filter fun e => p e.2, m.nodup.sublist (List.filter_sublist.map Prod.fst)⟩

variable [DecidableEq κ]

def get (m : OrderedMap κ α) (k : κ) : Option α := Entries.get m.entries k

def set (m : OrderedMap κ α) (k : κ) (v : α) : OrderedMap κ α :=
  ⟨Entries.set m.entries k v, Entries.keys_set_nodup m.nodup k v⟩

def delete (m : OrderedMap κ α) (k : κ) : OrderedMap κ α :=
  ⟨Entries.delete m.entries k, Entries.keys_delete_nodup m.nodup k⟩

def filterMap (f : κ → α → Option β) (m : OrderedMap κ α) : OrderedMap κ β :=
  ⟨m.entries.filterMap fun e => (f e.1 e.2).map (e.1, ·),
    (Entries.keys_filterMap_sublist f m.entries).nodup m.nodup⟩

def ofList (es : List (κ × α)) : OrderedMap κ α :=
  ⟨Entries.ofList es, Entries.keys_ofList_nodup es⟩

variable {m : OrderedMap κ α} {k a : κ} {v : α}

@[simp] theorem get_empty (k : κ) : (empty : OrderedMap κ α).get k = none := rfl

theorem get_eq_some : m.get k = some v ↔ (k, v) ∈ m.entries :=
  ⟨Entries.mem_of_get, Entries.get_of_mem m.nodup⟩

theorem get_set_self (m : OrderedMap κ α) (k : κ) (v : α) : (m.set k v).get k = some v :=
  Entries.get_set_self m.nodup k v

theorem get_set_of_ne (m : OrderedMap κ α) (v : α) (h : a ≠ k) : (m.set k v).get a = m.get a :=
  Entries.get_set_other m.nodup h v

theorem get_set (m : OrderedMap κ α) (k a : κ) (v : α) :
    (m.set k v).get a = if a = k then some v else m.get a := by
  split_ifs with h
  · rw [h, get_set_self]
  · exact get_set_of_ne m v h

theorem get_delete (m : OrderedMap κ α) (k a : κ) :
    (m.delete k).get a = if a = k then none else m.get a := by
  split_ifs with h
  · rw [h]
    exact Entries.get_delete_self m.entries k
  · exact Entries.get_delete_other m.nodup h

theorem delete_absent (h : m.get k = none) : m.delete k = m := by
  obtain ⟨entries, nodup⟩ := m
  simp only [delete, mk.injEq]
  exact Entries.delete_absent h

theorem get_filterMap (f : κ → α → Option β) (m : OrderedMap κ α) (k : κ) :
    (m.filterMap f).get k = (m.get k).bind (f k) := Entries.get_filterMap f m.nodup k

theorem get_map (f : α → β) (m : OrderedMap κ α) (k : κ) : (m.map f).get k = (m.get k).map f := by
  obtain ⟨entries, nodup⟩ := m
  induction entries with
  | nil => rfl
  | cons e entries ih =>
    have hrest := ih (List.nodup_cons.mp nodup).2
    simp only [get, map, List.map_cons, Entries.get_cons] at hrest ⊢
    split_ifs
    · rfl
    · exact hrest

theorem get_filter {p : α → Bool} : (m.filter p).get k = some v ↔ m.get k = some v ∧ p v = true := by
  rw [get_eq_some, get_eq_some, filter, List.mem_filter]

theorem mem_values : v ∈ m.values ↔ ∃ k, m.get k = some v := by
  simp only [get_eq_some, values, List.mem_map, Prod.exists, exists_eq_right]

section

omit [DecidableEq κ]

theorem eq_empty (h : m.size = 0) : m = empty := by
  obtain ⟨entries, nodup⟩ := m
  obtain rfl := List.length_eq_zero_iff.mp h
  rfl

theorem size_values (m : OrderedMap κ α) : m.values.length = m.size := List.length_map _

theorem map_eq_self {f : α → α} (h : ∀ v ∈ m.values, f v = v) : m.map f = m := by
  obtain ⟨entries, nodup⟩ := m
  simp only [map, mk.injEq]
  refine (List.map_congr_left fun e he => ?_).trans (List.map_id entries)
  exact Prod.ext rfl (h e.2 (List.mem_map.mpr ⟨e, he, rfl⟩))

theorem filter_eq_self {p : α → Bool} (h : ∀ v ∈ m.values, p v = true) : m.filter p = m := by
  obtain ⟨entries, nodup⟩ := m
  simp only [filter, mk.injEq]
  exact List.filter_eq_self.mpr fun e he => h e.2 (List.mem_map.mpr ⟨e, he, rfl⟩)

@[simp] theorem size_map (f : α → β) (m : OrderedMap κ α) : (m.map f).size = m.size :=
  List.length_map _

theorem size_filter_le (p : α → Bool) (m : OrderedMap κ α) : (m.filter p).size ≤ m.size :=
  List.length_filter_le _ _

end

theorem size_set_absent (h : m.get k = none) (v : α) : (m.set k v).size = m.size + 1 := by
  simp only [size, set, Entries.set_absent h v, List.length_append, List.length_singleton]

theorem size_set_present {w : α} (h : m.get k = some w) (v : α) : (m.set k v).size = m.size :=
  Entries.length_set_present h v

theorem size_delete {v : α} (h : m.get k = some v) : (m.delete k).size + 1 = m.size := by
  have hperm := (Entries.delete_perm m.nodup h).length_eq
  simpa [size, delete] using hperm.symm

theorem get_ofList {es : List (κ × α)} (h : (Entries.keys es).Nodup) (k : κ) :
    (ofList es).get k = Entries.get es k :=
  congrArg (Entries.get · k) (Entries.ofList_of_nodup h)

theorem mem_of_get_ofList {es : List (κ × α)} (h : (ofList es).get k = some v) : (k, v) ∈ es :=
  Entries.mem_of_mem_ofList (get_eq_some.mp h)

end OrderedMap
