import Mathlib.Data.List.Range

/-!
# Numbered journals that keep their last entries

The entries of a history carry consecutive numbers.
-/

namespace Journal

variable {α : Type}

def keep (max : ℕ) (entries : List α) : List α := entries.drop (entries.length - max)

def record (max : ℕ) (kept : List α) (entry : α) : List α := keep max (kept ++ [entry])

inductive Replay (α : Type) where
  | resync
  | events (entries : List α)
  deriving DecidableEq

def replay (number : α → ℕ) (kept : List α) (after : ℕ) : Replay α :=
  match kept.head? with
  | some oldest =>
    if after + 1 < number oldest then .resync
    else .events (kept.filter fun entry => after < number entry)
  | none => .events (kept.filter fun entry => after < number entry)

def Numbered (number : α → ℕ) (first : ℕ) (history : List α) : Prop :=
  ∀ (i : ℕ) (entry : α), history[i]? = some entry → number entry = first + 1 + i

variable {number : α → ℕ} {first : ℕ}

theorem record_keep (max : ℕ) (history : List α) (entry : α) :
    record max (keep max history) entry = keep max (history ++ [entry]) := by
  simp only [record, keep, List.length_append, List.length_drop, List.length_singleton]
  rw [← List.drop_append_of_le_length (Nat.sub_le _ _), List.drop_drop]
  congr 1
  omega

theorem numbered_nil : Numbered number first [] := fun i entry h => by cases h

theorem Numbered.concat {history : List α} (h : Numbered number first history) {entry : α}
    (hentry : number entry = first + history.length + 1) :
    Numbered number first (history ++ [entry]) := by
  intro i found hi
  rcases Nat.lt_or_ge i history.length with hlt | hge
  · rw [List.getElem?_append_left hlt] at hi
    exact h i found hi
  · rw [List.getElem?_append_right hge] at hi
    have heq : i - history.length = 0 := by
      have hlt := (List.getElem?_eq_some_iff.mp hi).1
      rw [List.length_singleton] at hlt
      omega
    rw [heq] at hi
    cases hi
    omega

theorem Numbered.bounds {history : List α} (h : Numbered number first history) {entry : α}
    (hentry : entry ∈ history) :
    first < number entry ∧ number entry ≤ first + history.length := by
  obtain ⟨i, hi⟩ := List.mem_iff_getElem?.mp hentry
  have hlt := (List.getElem?_eq_some_iff.mp hi).1
  have hnumber := h i entry hi
  omega

theorem Numbered.increasing {history : List α} (h : Numbered number first history) :
    history.Pairwise fun a b => number a < number b := by
  rw [List.pairwise_iff_getElem]
  intro i k hi hk hlt
  have hearlier := h i _ (List.getElem?_eq_getElem hi)
  have hlater := h k _ (List.getElem?_eq_getElem hk)
  omega

/-- A number stands for one entry. -/
theorem Numbered.unique {history : List α} (h : Numbered number first history) {a b : α}
    (ha : a ∈ history) (hb : b ∈ history) (hsame : number a = number b) : a = b := by
  obtain ⟨i, hi⟩ := List.mem_iff_getElem?.mp ha
  obtain ⟨k, hk⟩ := List.mem_iff_getElem?.mp hb
  have hearlier := h i a hi
  have hlater := h k b hk
  have hindex : i = k := by omega
  rw [hindex, hk] at hi
  exact (Option.some.inj hi).symm

theorem Numbered.split {earlier later : List α} (h : Numbered number first (earlier ++ later)) :
    Numbered number first earlier ∧ Numbered number (first + earlier.length) later := by
  constructor
  · intro i entry hi
    have hlt := (List.getElem?_eq_some_iff.mp hi).1
    exact h i entry ((List.getElem?_append_left hlt).trans hi)
  · intro i entry hi
    have hat : (earlier ++ later)[earlier.length + i]? = some entry := by
      rw [List.getElem?_append_right (Nat.le_add_right _ _), Nat.add_sub_cancel_left]
      exact hi
    have hnumber := h _ entry hat
    omega

/-- The entries after the number that a history ended with are those added since. -/
theorem Numbered.since {earlier later : List α} (h : Numbered number first (earlier ++ later)) :
    (earlier ++ later).filter (fun entry => first + earlier.length < number entry) = later := by
  obtain ⟨hearlier, hlater⟩ := h.split
  rw [List.filter_append]
  have hnone : earlier.filter (fun entry => first + earlier.length < number entry) = [] := by
    refine List.filter_eq_nil_iff.mpr fun entry hentry => ?_
    have hbounds := hearlier.bounds hentry
    rw [decide_eq_true_eq]
    omega
  have hall : later.filter (fun entry => first + earlier.length < number entry) = later := by
    refine List.filter_eq_self.mpr fun entry hentry => ?_
    have hbounds := hlater.bounds hentry
    rw [decide_eq_true_eq]
    omega
  rw [hnone, hall, List.nil_append]

/-- What a journal replays is all that its history has after the number. -/
theorem replay_events {max after : ℕ} (hmax : 0 < max) {history entries : List α}
    (h : Numbered number first history)
    (hreplay : replay number (keep max history) after = .events entries) :
    entries = history.filter fun entry => after < number entry := by
  have hsplit := List.take_append_drop (history.length - max) history
  have hdropped : (history.take (history.length - max)).filter
      (fun entry => after < number entry) = [] := by
    refine List.filter_eq_nil_iff.mpr fun entry hentry => ?_
    rw [decide_eq_true_eq]
    rcases hhead : (keep max history).head? with _ | oldest
    · rw [List.head?_eq_none_iff, keep, List.drop_eq_nil_iff] at hhead
      have hlength := List.length_pos_of_mem hentry
      rw [List.length_take] at hlength
      omega
    · rw [keep, List.head?_drop] at hhead
      have holdest := h _ oldest hhead
      rw [← hsplit] at h
      have hbounds := h.split.1.bounds hentry
      rw [List.length_take] at hbounds
      rw [replay, keep, List.head?_drop, hhead] at hreplay
      dsimp only at hreplay
      split_ifs at hreplay with hgap
      omega
  have hkept : entries = (keep max history).filter fun entry => after < number entry := by
    rw [replay] at hreplay
    split at hreplay
    · split_ifs at hreplay
      cases hreplay
      rfl
    · cases hreplay
      rfl
  have hfiltered := congrArg (List.filter fun entry => decide (after < number entry)) hsplit
  rw [List.filter_append, hdropped, List.nil_append] at hfiltered
  exact hkept.trans hfiltered

end Journal
