import Mathlib.Data.List.Basic

/-!
# Chunks of a stream

A chunk is a run of a stream with its position.
-/

namespace Chunks

variable {α : Type}

structure Chunk (α : Type) where
  position : ℕ
  bytes : List α
  deriving DecidableEq

def Chunk.stop (c : Chunk α) : ℕ := c.position + c.bytes.length

def LaidOut (start : ℕ) : List (Chunk α) → ℕ → Prop
  | [], stop => start = stop
  | c :: cs, stop => c.position = start ∧ LaidOut (start + c.bytes.length) cs stop

def content (cs : List (Chunk α)) : List α := cs.flatMap Chunk.bytes

def Chunk.after (start : ℕ) (c : Chunk α) : Chunk α :=
  ⟨max start c.position, c.bytes.drop (start - c.position)⟩

def cut (start : ℕ) (cs : List (Chunk α)) : List (Chunk α) :=
  (cs.filter fun c => start < c.stop).map (Chunk.after start)

variable {start stop : ℕ} {cs ds : List (Chunk α)}

theorem content_append (cs ds : List (Chunk α)) : content (cs ++ ds) = content cs ++ content ds :=
  List.flatMap_append

theorem content_cons (c : Chunk α) (cs : List (Chunk α)) :
    content (c :: cs) = c.bytes ++ content cs := List.flatMap_cons

theorem content_singleton (c : Chunk α) : content [c] = c.bytes := List.append_nil _

theorem LaidOut.length (h : LaidOut start cs stop) : stop = start + (content cs).length := by
  induction cs generalizing start with
  | nil => exact h.symm
  | cons c cs ih =>
    have hrest := ih h.2
    rw [content_cons, List.length_append]
    omega

theorem LaidOut.append {middle : ℕ} (h : LaidOut start cs middle) (h' : LaidOut middle ds stop) :
    LaidOut start (cs ++ ds) stop := by
  induction cs generalizing start with
  | nil =>
    rw [show start = middle from h]
    exact h'
  | cons c cs ih => exact ⟨h.1, ih h.2⟩

theorem LaidOut.concat (h : LaidOut start cs stop) {c : Chunk α} (hc : c.position = stop) :
    LaidOut start (cs ++ [c]) c.stop := by
  refine h.append ⟨hc, ?_⟩
  rw [← hc]
  rfl

/-- The chunks that remain when the oldest ones are gone. -/
theorem LaidOut.drop (h : LaidOut start cs stop) (n : ℕ) : ∃ first, start ≤ first ∧ first ≤ stop ∧
    LaidOut first (cs.drop n) stop ∧ content (cs.drop n) = (content cs).drop (first - start) ∧
    (∀ c ∈ (cs.drop n).head?, c.position = first) := by
  induction n generalizing start cs with
  | zero =>
    have hlength := h.length
    refine ⟨start, Nat.le_refl _, by omega, h, by simp, fun c hc => ?_⟩
    cases cs with
    | nil => cases hc
    | cons d ds =>
      cases hc
      exact h.1
  | succ n ih =>
    cases cs with
    | nil =>
      refine ⟨start, Nat.le_refl _, Nat.le_of_eq h, h, by simp, fun c hc => ?_⟩
      cases hc
    | cons d ds =>
      obtain ⟨first, hle, hstop, hlaid, hcontent, hhead⟩ := ih h.2
      refine ⟨first, by omega, hstop, hlaid, ?_, hhead⟩
      rw [List.drop_succ_cons, hcontent, content_cons,
        show first - start = d.bytes.length + (first - (start + d.bytes.length)) by omega,
        List.drop_append]
      simp

theorem cut_cons (start : ℕ) (c : Chunk α) (cs : List (Chunk α)) :
    cut start (c :: cs) = if start < c.stop then c.after start :: cut start cs else cut start cs := by
  rw [cut, List.filter_cons]
  split_ifs with h h' h'
  · rfl
  · exact absurd (of_decide_eq_true h) h'
  · exact absurd (decide_eq_true h') h
  · rfl

theorem after_early (c : Chunk α) (h : start ≤ c.position) : c.after start = c := by
  rw [Chunk.after, Nat.max_eq_right h, Nat.sub_eq_zero_of_le h]
  rfl

/-- Chunks that lie after the position are all kept whole. -/
theorem LaidOut.cut_early {first : ℕ} (h : LaidOut first cs stop) (hstart : start < first) :
    cut start cs = cs := by
  induction cs generalizing first with
  | nil => rfl
  | cons c cs ih =>
    have hkeep : start < c.stop := by
      rw [Chunk.stop, h.1]
      omega
    rw [cut_cons, if_pos hkeep, ih h.2 (by omega), after_early c (by rw [h.1]; omega)]

/-- Cut at a position they hold, chunks are laid out from it and join to the rest. -/
theorem LaidOut.cut {first : ℕ} (h : LaidOut first cs stop) (hfirst : first ≤ start)
    (hstop : start ≤ stop) : LaidOut start (Chunks.cut start cs) stop ∧
      content (Chunks.cut start cs) = (content cs).drop (start - first) := by
  induction cs generalizing first with
  | nil =>
    have heq : start = stop := by
      rw [LaidOut] at h
      omega
    exact ⟨heq, by simp [Chunks.cut, content]⟩
  | cons c cs ih =>
    have hposition := h.1
    rw [cut_cons]
    split_ifs with hkeep
    · have hlater : LaidOut (first + c.bytes.length) cs stop := h.2
      rw [Chunk.stop, hposition] at hkeep
      rw [hlater.cut_early hkeep]
      have hafter : c.after start = ⟨start, c.bytes.drop (start - first)⟩ := by
        rw [Chunk.after, hposition, Nat.max_eq_left hfirst]
      rw [hafter]
      refine ⟨⟨rfl, ?_⟩, ?_⟩
      · rw [show start + (c.bytes.drop (start - first)).length = first + c.bytes.length by
          rw [List.length_drop]; omega]
        exact hlater
      · rw [content_cons, content_cons, List.drop_append_of_le_length (by omega)]
    · rw [Chunk.stop, hposition, Nat.not_lt] at hkeep
      obtain ⟨hlaid, hcontent⟩ := ih h.2 hkeep
      refine ⟨hlaid, ?_⟩
      rw [hcontent, content_cons,
        show start - first = c.bytes.length + (start - (first + c.bytes.length)) by omega,
        List.drop_append]
      simp

def slice (base : ℕ) (stream : List α) (first last : ℕ) : List α :=
  (stream.drop (first - base)).take (last - first)

theorem slice_length {base first last : ℕ} {stream : List α} (hbase : base ≤ first)
    (hlast : last ≤ base + stream.length) : (slice base stream first last).length = last - first := by
  rw [slice, List.length_take, List.length_drop]
  omega

end Chunks
