import Mathlib.Tactic.Common

/-!
# Actions that change a state and may refuse

A refusal keeps what was changed before it.
-/

def Fallible (σ ε α : Type) : Type := σ → Except ε α × σ

namespace Fallible

variable {σ ε α β : Type}

instance : Monad (Fallible σ ε) where
  pure a := fun s => (.ok a, s)
  bind x f := fun s =>
    match x s with
    | (.ok a, t) => f a t
    | (.error e, t) => (.error e, t)

def get : Fallible σ ε σ := fun s => (.ok s, s)

def modify (f : σ → σ) : Fallible σ ε Unit := fun s => (.ok (), f s)

def fail (e : ε) : Fallible σ ε α := fun s => (.error e, s)

def rescue (x : Fallible σ ε α) (handler : ε → Fallible σ ε α) : Fallible σ ε α := fun s =>
  match x s with
  | (.ok a, t) => (.ok a, t)
  | (.error e, t) => handler e t

def check (x : Except ε α) : Fallible σ ε α := fun s => (x, s)

def Ends (x : Fallible σ ε α) (s : σ) (Q : α → σ → Prop) (E : σ → Prop) : Prop :=
  match x s with
  | (.ok a, t) => Q a t
  | (.error _, t) => E t

variable {s : σ} {Q Q' : α → σ → Prop} {R : β → σ → Prop} {E E' : σ → Prop}

@[simp] theorem ends_pure {a : α} : Ends (pure a : Fallible σ ε α) s Q E ↔ Q a s := Iff.rfl

@[simp] theorem ends_get {Q : σ → σ → Prop} : Ends (get : Fallible σ ε σ) s Q E ↔ Q s s := Iff.rfl

@[simp] theorem ends_modify {f : σ → σ} {Q : Unit → σ → Prop} :
    Ends (modify f : Fallible σ ε Unit) s Q E ↔ Q () (f s) := Iff.rfl

@[simp] theorem ends_fail {e : ε} : Ends (fail e : Fallible σ ε α) s Q E ↔ E s := Iff.rfl

theorem ends_bind {x : Fallible σ ε α} {f : α → Fallible σ ε β} :
    Ends (x >>= f) s R E ↔ Ends x s (fun a t => Ends (f a) t R E) E := by
  simp only [Ends, bind]
  rcases x s with ⟨e | a, t⟩
  · exact Iff.rfl
  · exact Iff.rfl

theorem ends_check {x : Except ε α} :
    Ends (check x : Fallible σ ε α) s Q E ↔ (∀ a, x = .ok a → Q a s) ∧ ((∃ e, x = .error e) → E s) := by
  rcases x with e | a
  · simp [Ends, check]
  · simp [Ends, check]

theorem ends_ite {c : Prop} [Decidable c] {x y : Fallible σ ε α} :
    Ends (if c then x else y) s Q E ↔ (c → Ends x s Q E) ∧ (¬ c → Ends y s Q E) := by
  by_cases h : c
  · simp [h]
  · simp [h]

theorem Ends.mono {x : Fallible σ ε α} (h : Ends x s Q E) (hQ : ∀ a t, Q a t → Q' a t)
    (hE : ∀ t, E t → E' t) : Ends x s Q' E' := by
  unfold Ends at *
  rcases hx : x s with ⟨e | a, t⟩
  · simp only [hx] at h
    exact hE t h
  · simp only [hx] at h
    exact hQ a t h

theorem Ends.bind {x : Fallible σ ε α} {f : α → Fallible σ ε β} (h : Ends x s Q E')
    (hE : ∀ t, E' t → E t) (hf : ∀ a t, Q a t → Ends (f a) t R E) : Ends (x >>= f) s R E :=
  ends_bind.mpr (h.mono hf hE)

theorem Ends.rescue {x : Fallible σ ε α} {handler : ε → Fallible σ ε α} (h : Ends x s Q E')
    (hhandler : ∀ e t, E' t → Ends (handler e) t Q E) : Ends (rescue x handler) s Q E := by
  unfold Ends at h
  unfold Ends Fallible.rescue
  rcases hx : x s with ⟨e | a, t⟩
  · rw [hx] at h
    exact hhandler e t h
  · rw [hx] at h
    exact h

/-- Where the action leaves the state, whatever it answers. -/
theorem Ends.state {x : Fallible σ ε α} (h : Ends x s (fun _ => E) E) : E (x s).2 := by
  unfold Ends at h
  rcases hx : x s with ⟨e | a, t⟩
  · rwa [hx] at h
  · rwa [hx] at h

/-- What holds of an answer that was given. -/
theorem Ends.answer {x : Fallible σ ε α} (h : Ends x s Q E) {a : α} (ha : (x s).1 = .ok a) :
    Q a (x s).2 := by
  unfold Ends at h
  rcases hx : x s with ⟨e | b, t⟩
  · rw [hx] at ha
    cases ha
  · rw [hx] at h ha
    cases ha
    exact h

/-- Without a refusal there is an answer. -/
theorem Ends.answers {x : Fallible σ ε α} (h : Ends x s Q fun _ => False) :
    ∃ a, (x s).1 = .ok a ∧ Q a (x s).2 := by
  unfold Ends at h
  rcases hx : x s with ⟨e | a, t⟩
  · rw [hx] at h
    exact h.elim
  · rw [hx] at h
    exact ⟨a, rfl, h⟩

/-! ## Actions along a relation -/

def Along (R : σ → σ → Prop) (x : Fallible σ ε α) : Prop := ∀ s, Ends x s (fun _ => R s) (R s)

section Along

variable {R : σ → σ → Prop} {x : Fallible σ ε α}

theorem Along.pure (hrefl : ∀ s, R s s) (a : α) : Along R (pure a : Fallible σ ε α) :=
  fun s => ends_pure.mpr (hrefl s)

theorem Along.get (hrefl : ∀ s, R s s) : Along R (get : Fallible σ ε σ) :=
  fun s => ends_get.mpr (hrefl s)

theorem Along.modify {f : σ → σ} (h : ∀ s, R s (f s)) : Along R (modify f : Fallible σ ε Unit) :=
  fun s => ends_modify.mpr (h s)

theorem Along.bind (htrans : ∀ s t u, R s t → R t u → R s u) {f : α → Fallible σ ε β}
    (hx : Along R x) (hf : ∀ a, Along R (f a)) : Along R (x >>= f) := by
  intro s
  refine (hx s).bind (fun t ht => ht) fun a t ht => ?_
  exact (hf a t).mono (fun b u hu => htrans s t u ht hu) fun u hu => htrans s t u ht hu

end Along

end Fallible
