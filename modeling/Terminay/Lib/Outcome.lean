import Mathlib.Tactic.Common

/-!
# Fallible computations that accept or refuse

A refusal carries its reason.
-/

namespace Outcome

variable {ε α β : Type}

def refuseIf (c : Prop) [Decidable c] (e : ε) : Except ε Unit :=
  if c then .error e else .ok ()

def demand (o : Option α) (e : ε) : Except ε α :=
  match o with
  | some a => .ok a
  | none => .error e

def each (f : α → Except ε Unit) : List α → Except ε Unit
  | [] => .ok ()
  | a :: l => do
    f a
    each f l

def isOk : Except ε α → Bool
  | .ok _ => true
  | .error _ => false

theorem bind_ok {x : Except ε α} {f : α → Except ε β} {b : β} :
    (x >>= f) = .ok b ↔ ∃ a, x = .ok a ∧ f a = .ok b := by
  cases x with
  | error e => simp [bind, Except.bind]
  | ok a => simp [bind, Except.bind]

theorem pure_ok {a b : α} : (pure a : Except ε α) = .ok b ↔ a = b := by
  simp [pure, Except.pure]

@[simp] theorem refuseIf_ok {c : Prop} [Decidable c] {e : ε} {u : Unit} :
    refuseIf c e = .ok u ↔ ¬ c := by
  by_cases h : c <;> simp [refuseIf, h]

@[simp] theorem demand_ok {o : Option α} {e : ε} {a : α} : demand o e = .ok a ↔ o = some a := by
  cases o <;> simp [demand]

theorem each_ok {f : α → Except ε Unit} {l : List α} {u : Unit} :
    each f l = .ok u ↔ ∀ a ∈ l, f a = .ok () := by
  induction l with
  | nil => simp [each]
  | cons a l ih =>
    simp only [each, bind_ok, ih, List.forall_mem_cons]
    exact ⟨fun ⟨_, ha, hl⟩ => ⟨ha, hl⟩, fun ⟨ha, hl⟩ => ⟨(), ha, hl⟩⟩

theorem mem_mapM {f : α → Except ε β} {as : List α} {bs : List β} (h : as.mapM f = .ok bs) {b : β}
    (hb : b ∈ bs) : ∃ a ∈ as, f a = .ok b := by
  induction as generalizing bs with
  | nil =>
    cases h
    cases hb
  | cons a as ih =>
    simp only [List.mapM_cons, bind_ok, pure_ok] at h
    obtain ⟨first, hfirst, rest, hrest, rfl⟩ := h
    rcases List.mem_cons.mp hb with rfl | hmem
    · exact ⟨a, List.mem_cons_self, hfirst⟩
    · obtain ⟨a', ha', hf⟩ := ih hrest hmem
      exact ⟨a', List.mem_cons_of_mem a ha', hf⟩

theorem isOk_iff {x : Except ε α} : isOk x = true ↔ ∃ a, x = .ok a := by
  cases x <;> simp [isOk]

def Ensures (x : Except ε α) (P : α → Prop) : Prop := ∀ a, x = .ok a → P a

namespace Ensures

variable {P : β → Prop}

theorem bind {x : Except ε α} {f : α → Except ε β} (h : ∀ a, x = .ok a → Ensures (f a) P) :
    Ensures (x >>= f) P := by
  intro b hb
  obtain ⟨a, hx, hf⟩ := bind_ok.mp hb
  exact h a hx b hf

theorem ok {b : β} (h : P b) : Ensures (.ok b : Except ε β) P := by
  intro a ha
  cases ha
  exact h

theorem error {e : ε} : Ensures (.error e : Except ε β) P := by
  intro a ha
  cases ha

theorem ite {c : Prop} [Decidable c] {x y : Except ε β} (hx : c → Ensures x P)
    (hy : ¬ c → Ensures y P) : Ensures (if c then x else y) P := by
  by_cases h : c
  · rw [if_pos h]
    exact hx h
  · rw [if_neg h]
    exact hy h

instance [DecidablePred P] : (x : Except ε β) → Decidable (Ensures x P)
  | .ok b => decidable_of_iff (P b) ⟨fun h => ok h, fun h => h b rfl⟩
  | .error _ => .isTrue error

end Ensures

end Outcome
