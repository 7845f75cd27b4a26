import Mathlib.Data.List.Sort
import Terminay.Lib.Table

/-!
# Sorting entries by key

The order is the keys' `compare`.
-/

namespace Lists

variable {κ α β : Type} [Ord κ]

def KeyLE (a b : κ × α) : Prop := (compare a.1 b.1).isLE = true

instance : DecidableRel (KeyLE : κ × α → κ × α → Prop) := fun a b =>
  inferInstanceAs (Decidable ((compare a.1 b.1).isLE = true))

def sortByKey (es : List (κ × α)) : List (κ × α) := es.insertionSort KeyLE

theorem sortByKey_perm (es : List (κ × α)) : (sortByKey es).Perm es := List.perm_insertionSort KeyLE es

theorem mem_sortByKey {es : List (κ × α)} {e : κ × α} : e ∈ sortByKey es ↔ e ∈ es :=
  (sortByKey_perm es).mem_iff

theorem sortByKey_map (f : α → β) (es : List (κ × α)) :
    sortByKey (es.map fun e => (e.1, f e.2)) = (sortByKey es).map fun e => (e.1, f e.2) := by
  symm
  apply List.map_insertionSort
  intro a ha b hb
  rfl

variable [Std.TransOrd κ]

instance : IsTrans (κ × α) KeyLE where
  trans _ _ _ hab hbc := Std.TransCmp.isLE_trans hab hbc

instance : Std.Total (KeyLE : κ × α → κ × α → Prop) where
  total a b := by
    unfold KeyLE
    have hswap : compare b.1 a.1 = (compare a.1 b.1).swap := Std.OrientedCmp.eq_swap
    rw [hswap]
    cases compare a.1 b.1 <;> simp

theorem sortByKey_sorted (es : List (κ × α)) : (sortByKey es).Pairwise KeyLE :=
  List.pairwise_insertionSort KeyLE es

end Lists
