import Mathlib.Tactic.Common

/-!
# Runs of a step function

A run feeds a list of inputs to a step function.
-/

namespace Runs

variable {σ ι : Type}

def after (step : σ → ι → σ) (s : σ) (inputs : List ι) : σ := inputs.foldl step s

def Meets (step : σ → ι → σ) (P : σ → ι → Prop) : σ → List ι → Prop
  | _, [] => True
  | s, i :: inputs => P s i ∧ Meets step P (step s i) inputs

instance {step : σ → ι → σ} {P : σ → ι → Prop} [∀ s i, Decidable (P s i)] :
    (s : σ) → (inputs : List ι) → Decidable (Meets step P s inputs)
  | _, [] => .isTrue trivial
  | s, i :: inputs =>
    have : Decidable (Meets step P (step s i) inputs) := instDecidableMeets (step s i) inputs
    inferInstanceAs (Decidable (P s i ∧ Meets step P (step s i) inputs))

theorem after_append (step : σ → ι → σ) (s : σ) (xs ys : List ι) :
    after step s (xs ++ ys) = after step (after step s xs) ys :=
  List.foldl_append

theorem invariant {step : σ → ι → σ} {I : σ → Prop} (hstep : ∀ s i, I s → I (step s i)) {s : σ}
    (hs : I s) (inputs : List ι) : I (after step s inputs) := by
  induction inputs generalizing s with
  | nil => exact hs
  | cons i inputs ih => exact ih (hstep s i hs)

theorem invariant_of_meets {step : σ → ι → σ} {P : σ → ι → Prop} {I : σ → Prop}
    (hstep : ∀ s i, I s → P s i → I (step s i)) {s : σ} (hs : I s) {inputs : List ι}
    (h : Meets step P s inputs) : I (after step s inputs) := by
  induction inputs generalizing s with
  | nil => exact hs
  | cons i inputs ih => exact ih (hstep s i hs h.1) h.2

theorem meets_append {step : σ → ι → σ} {P : σ → ι → Prop} {s : σ} {xs ys : List ι} :
    Meets step P s (xs ++ ys) ↔ Meets step P s xs ∧ Meets step P (after step s xs) ys := by
  induction xs generalizing s with
  | nil => exact ⟨fun h => ⟨trivial, h⟩, fun h => h.2⟩
  | cons x xs ih =>
    rw [List.cons_append, Meets, Meets, ih, and_assoc]
    rfl

/-- A property that a step keeps exactly under a condition holds all along a run exactly when every
step meets the condition. -/
theorem holds_iff_meets {step : σ → ι → σ} {P : σ → ι → Prop} {I : σ → Prop}
    (hstep : ∀ s i, I s → (I (step s i) ↔ P s i)) {s : σ} (hs : I s) (inputs : List ι) :
    (∀ before rest, inputs = before ++ rest → I (after step s before)) ↔ Meets step P s inputs := by
  induction inputs generalizing s with
  | nil =>
    refine ⟨fun _ => trivial, fun _ before rest heq => ?_⟩
    rw [(List.append_eq_nil_iff.mp heq.symm).1]
    exact hs
  | cons i inputs ih =>
    constructor
    · intro h
      have hnext : I (step s i) := h [i] inputs rfl
      refine ⟨(hstep s i hs).mp hnext, (ih hnext).mp fun before rest heq => ?_⟩
      exact h (i :: before) rest (congrArg (i :: ·) heq)
    · rintro ⟨hP, hmeets⟩ before rest heq
      cases before with
      | nil => exact hs
      | cons j before =>
        obtain ⟨rfl, hlater⟩ := List.cons.inj heq
        exact (ih ((hstep s i hs).mpr hP)).mpr hmeets before rest hlater

theorem meets_and {step : σ → ι → σ} {P Q : σ → ι → Prop} {s : σ} {inputs : List ι}
    (hP : Meets step P s inputs) (hQ : Meets step Q s inputs) :
    Meets step (fun s i => P s i ∧ Q s i) s inputs := by
  induction inputs generalizing s with
  | nil => trivial
  | cons i inputs ih => exact ⟨⟨hP.1, hQ.1⟩, ih hP.2 hQ.2⟩

def trace {β : Type} (step : σ → ι → σ) (emit : σ → ι → List β) : σ → List ι → List β
  | _, [] => []
  | s, i :: inputs => emit s i ++ trace step emit (step s i) inputs

end Runs
