import Mathlib.Data.List.Basic
import Terminay.Lib.Outcome

/-!
# Frames read from a stream in chunks

A reader takes the first frame from what has arrived of a stream, waits for more, or refuses.
-/

namespace Framing

variable {α β ε : Type}

structure Reader (α β ε : Type) where
  read : List α → Except ε (Option (β × List α))
  idle : read [] = .ok none
  shorter : ∀ s f rest, read s = .ok (some (f, rest)) → rest.length < s.length
  extends_frame : ∀ s f rest t, read s = .ok (some (f, rest)) →
    read (s ++ t) = .ok (some (f, rest ++ t))
  extends_refusal : ∀ s e t, read s = .error e → read (s ++ t) = .error e

variable (r : Reader α β ε)

def Reader.drain (s : List α) : Except ε (List β × List α) :=
  match _h : r.read s with
  | .error e => .error e
  | .ok none => .ok ([], s)
  | .ok (some (f, rest)) => (drain rest).map fun p => (f :: p.1, p.2)
termination_by s.length
decreasing_by exact r.shorter s f rest _h

def Reader.feed (left : List α) : List (List α) → Except ε (List β × List α)
  | [] => .ok ([], left)
  | chunk :: chunks =>
    match r.drain (left ++ chunk) with
    | .error e => .error e
    | .ok p => (feed p.2 chunks).map fun q => (p.1 ++ q.1, q.2)

variable {r} {s t rest : List α} {f : β} {e : ε} {frames : List β}

theorem Reader.drain_waits (h : r.read s = .ok none) : r.drain s = .ok ([], s) := by
  rw [drain]
  split <;> simp_all

theorem Reader.drain_refuses (h : r.read s = .error e) : r.drain s = .error e := by
  rw [drain]
  split <;> simp_all

theorem Reader.drain_frame (h : r.read s = .ok (some (f, rest))) :
    r.drain s = (r.drain rest).map fun p => (f :: p.1, p.2) := by
  rw [drain]
  split <;> simp_all

theorem map_pairs (x : Except ε (List β × List α)) (front : List β) (f : β) :
    (x.map fun p => (front ++ p.1, p.2)).map (fun p => (f :: p.1, p.2)) =
      x.map fun p => (f :: front ++ p.1, p.2) := by
  cases x <;> rfl

theorem map_nil (x : Except ε (List β × List α)) : x.map (fun p => ([] ++ p.1, p.2)) = x := by
  cases x <;> rfl

theorem map_ok {γ δ : Type} {x : Except ε γ} {g : γ → δ} {d : δ} :
    x.map g = .ok d ↔ ∃ c, x = .ok c ∧ g c = d := by
  cases x <;> simp [Except.map]

theorem map_error {γ δ : Type} {x : Except ε γ} {g : γ → δ} : x.map g = .error e ↔ x = .error e := by
  cases x <;> simp [Except.map]

/-- What is left after a drain waits for more. -/
theorem Reader.drain_left (h : r.drain s = .ok (frames, rest)) : r.read rest = .ok none := by
  induction s using Reader.drain.induct r generalizing frames with
  | case1 s e hread =>
    rw [drain_refuses hread] at h
    cases h
  | case2 s hread =>
    rw [drain_waits hread] at h
    cases h
    exact hread
  | case3 s f left hread ih =>
    rw [drain_frame hread, map_ok] at h
    obtain ⟨p, hp, hpair⟩ := h
    cases hpair
    exact ih hp

theorem Reader.drain_append (h : r.drain s = .ok (frames, rest)) (t : List α) :
    r.drain (s ++ t) = (r.drain (rest ++ t)).map fun p => (frames ++ p.1, p.2) := by
  induction s using Reader.drain.induct r generalizing frames with
  | case1 s e hread =>
    rw [drain_refuses hread] at h
    cases h
  | case2 s hread =>
    rw [drain_waits hread] at h
    cases h
    exact (map_nil _).symm
  | case3 s f left hread ih =>
    rw [drain_frame hread, map_ok] at h
    obtain ⟨p, hp, hpair⟩ := h
    cases hpair
    rw [drain_frame (r.extends_frame s f left t hread), ih hp, map_pairs]

theorem Reader.drain_error (h : r.drain s = .error e) (t : List α) :
    r.drain (s ++ t) = .error e := by
  induction s using Reader.drain.induct r with
  | case1 s e' hread =>
    rw [drain_refuses hread] at h
    cases h
    exact drain_refuses (r.extends_refusal s e t hread)
  | case2 s hread =>
    rw [drain_waits hread] at h
    cases h
  | case3 s f left hread ih =>
    rw [drain_frame hread, map_error] at h
    rw [drain_frame (r.extends_frame s f left t hread), map_error]
    exact ih h

/-- The frames of a stream do not depend on how it is cut into chunks. -/
theorem Reader.feed_flatten (chunks : List (List α)) {left : List α}
    (hleft : r.read left = .ok none) : r.feed left chunks = r.drain (left ++ chunks.flatten) := by
  induction chunks generalizing left with
  | nil => rw [List.flatten_nil, List.append_nil, drain_waits hleft, feed]
  | cons chunk chunks ih =>
    rw [feed, List.flatten_cons, ← List.append_assoc]
    cases hdrain : r.drain (left ++ chunk) with
    | error e => rw [drain_error hdrain]
    | ok p => rw [drain_append hdrain, ← ih (drain_left hdrain)]

/-! ## Streams of coded frames -/

/-- The code of a frame: the reader takes it as soon as it is there, and waits for it until then. -/
structure Reader.Codes (r : Reader α β ε) (f : β) (code : List α) : Prop where
  taken : ∀ t, r.read (code ++ t) = .ok (some (f, t))
  awaited : ∀ s, s <+: code → s ≠ code → r.read s = .ok none

def arrived : List (β × List α) → List α → List β × List α
  | [], s => ([], s)
  | (f, code) :: sent, s =>
    if code.length ≤ s.length then
      let more := arrived sent (s.drop code.length)
      (f :: more.1, more.2)
    else ([], s)

theorem Reader.drain_coded {sent : List (β × List α)} (hcodes : ∀ e ∈ sent, r.Codes e.1 e.2)
    (hs : s <+: (sent.map (·.2)).flatten) : r.drain s = .ok (arrived sent s) := by
  induction sent generalizing s with
  | nil =>
    have hnil : s = [] := List.prefix_nil.mp hs
    rw [hnil, drain_waits r.idle]
    rfl
  | cons e sent ih =>
    obtain ⟨f, code⟩ := e
    have hcode := hcodes (f, code) List.mem_cons_self
    have hfirst : code <+: (((f, code) :: sent).map (·.2)).flatten := List.prefix_append _ _
    unfold arrived
    split_ifs with hlength
    · obtain ⟨more, rfl⟩ := List.prefix_of_prefix_length_le hfirst hs hlength
      have hmore : more <+: (sent.map (·.2)).flatten :=
        (List.prefix_append_right_inj code).mp hs
      rw [drain_frame (hcode.taken more),
        ih (fun e he => hcodes e (List.mem_cons_of_mem _ he)) hmore, List.drop_left]
      rfl
    · have hpart := List.prefix_of_prefix_length_le hs hfirst (by omega)
      refine drain_waits (hcode.awaited s hpart ?_)
      rintro rfl
      omega

theorem arrived_all (sent : List (β × List α)) :
    arrived sent (sent.map (·.2)).flatten = (sent.map (·.1), []) := by
  induction sent with
  | nil => rfl
  | cons e sent ih =>
    obtain ⟨f, code⟩ := e
    rw [arrived, List.map_cons, List.flatten_cons, List.drop_left, ih, if_pos (by simp)]
    rfl

end Framing
