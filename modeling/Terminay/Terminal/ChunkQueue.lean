import Terminay.Lib.Chunks
import Terminay.Script.Unicode

/-!
# The byte-bounded chunk queue

A queue drops its oldest chunks by a rule of retention. Its backing array is a
number of dropped slots followed by the chunks it still holds; the dropped slots
are reclaimed once they are most of the array.
-/

namespace Terminay.Terminal
open Script Chunks

inductive BoundedChunkRetention where | withinBound | withinBoundKeepLast | coverBound
  deriving DecidableEq

def minCompactionEntries : ℕ := 32

/-- `head` dropped slots, then the live chunks; the total is maintained, never recomputed. -/
structure BoundedChunkQueue where
  maxBytes : ℕ
  retention : BoundedChunkRetention
  head : ℕ
  live : List (Chunk UInt8)
  total : ℕ
  maxBytes_pos : 0 < maxBytes
  total_eq : total = (content live).length

namespace BoundedChunkQueue

def create (maxBytes : ℕ) (retention : BoundedChunkRetention) (h : 0 < maxBytes) :
    BoundedChunkQueue :=
  ⟨maxBytes, retention, 0, [], 0, h, rfl⟩

def first (q : BoundedChunkQueue) : Option (Chunk UInt8) := q.live.head?

theorem total_concat {q : BoundedChunkQueue} {chunk : Chunk UInt8} :
    q.total + chunk.bytes.length = (content (q.live ++ [chunk])).length := by
  rw [q.total_eq, content_append, List.length_append, content_singleton]

theorem total_tail {total : ℕ} {chunk : Chunk UInt8} {rest : List (Chunk UInt8)}
    (h : total = (content (chunk :: rest)).length) :
    total - chunk.bytes.length = (content rest).length := by
  rw [h, content_cons, List.length_append]
  omega

def enter (q : BoundedChunkQueue) (chunk : Chunk UInt8) : BoundedChunkQueue :=
  { q with
    live := q.live ++ [chunk]
    total := q.total + chunk.bytes.length
    total_eq := total_concat }

def evictions (maxBytes : ℕ) (retention : BoundedChunkRetention) :
    List (Chunk UInt8) → ℕ → ℕ
  | [], _ => 0
  | oldest :: rest, total =>
    let leaves : Bool :=
      match retention with
      | .withinBound => maxBytes < total
      | .withinBoundKeepLast => maxBytes < total ∧ rest ≠ []
      | .coverBound => maxBytes ≤ total - oldest.bytes.length
    if leaves then evictions maxBytes retention rest (total - oldest.bytes.length) + 1 else 0

theorem total_drop (q : BoundedChunkQueue) (n : ℕ) :
    q.total - (content (q.live.take n)).length = (content (q.live.drop n)).length := by
  have hsplit := congrArg (fun cs => (content cs).length) (List.take_append_drop n q.live)
  simp only [content_append, List.length_append] at hsplit
  rw [q.total_eq]
  omega

def evict (q : BoundedChunkQueue) (n : ℕ) : BoundedChunkQueue :=
  { q with
    head := q.head + n
    live := q.live.drop n
    total := q.total - (content (q.live.take n)).length
    total_eq := total_drop q n }

def compact (q : BoundedChunkQueue) : BoundedChunkQueue :=
  if minCompactionEntries ≤ q.head ∧ q.head + q.live.length ≤ q.head * 2 then { q with head := 0 }
  else q

def push (q : BoundedChunkQueue) (chunk : Chunk UInt8) : BoundedChunkQueue :=
  let entered := q.enter chunk
  (entered.evict (evictions q.maxBytes q.retention entered.live entered.total)).compact

def readTail (q : BoundedChunkQueue) (max : ℕ) : Bytes :=
  fill q.live.reverse (min max q.total)
where
  fill : List (Chunk UInt8) → ℕ → Bytes
    | [], _ => []
    | chunk :: older, left =>
      let take := min left chunk.bytes.length
      fill older (left - take) ++ chunk.bytes.drop (chunk.bytes.length - take)

end BoundedChunkQueue

section Retention

variable {q : BoundedChunkQueue}

theorem compact_live (q : BoundedChunkQueue) : q.compact.live = q.live ∧
    q.compact.maxBytes = q.maxBytes ∧ q.compact.retention = q.retention := by
  rw [BoundedChunkQueue.compact]
  split_ifs <;> exact ⟨rfl, rfl, rfl⟩

theorem push_live (q : BoundedChunkQueue) (chunk : Chunk UInt8) :
    (q.push chunk).live = (q.live ++ [chunk]).drop
        (BoundedChunkQueue.evictions q.maxBytes q.retention (q.live ++ [chunk])
          (content (q.live ++ [chunk])).length) ∧
      (q.push chunk).maxBytes = q.maxBytes ∧ (q.push chunk).retention = q.retention := by
  obtain ⟨hlive, hmax, hretention⟩ := compact_live ((q.enter chunk).evict
    (BoundedChunkQueue.evictions q.maxBytes q.retention (q.enter chunk).live (q.enter chunk).total))
  refine ⟨?_, hmax, hretention⟩
  refine hlive.trans ?_
  simp only [BoundedChunkQueue.evict, BoundedChunkQueue.enter, BoundedChunkQueue.total_concat]

/-- `within-bound` never holds more than the bound. -/
theorem evictions_within (maxBytes : ℕ) (cs : List (Chunk UInt8)) :
    (content (cs.drop (BoundedChunkQueue.evictions maxBytes .withinBound cs
      (content cs).length))).length ≤ maxBytes := by
  induction cs with
  | nil => exact Nat.zero_le _
  | cons c cs ih =>
    rw [BoundedChunkQueue.evictions, BoundedChunkQueue.total_tail rfl]
    split_ifs with hover
    · exact ih
    · exact Nat.le_of_not_lt (fun h => hover (decide_eq_true h))

/-- `cover-bound` always holds the most recent bytes up to the bound. -/
theorem evictions_cover {maxBytes : ℕ} (cs : List (Chunk UInt8)) :
    min maxBytes (content cs).length ≤
      (content (cs.drop (BoundedChunkQueue.evictions maxBytes .coverBound cs
        (content cs).length))).length := by
  induction cs with
  | nil => simp
  | cons c cs ih =>
    rw [BoundedChunkQueue.evictions, BoundedChunkQueue.total_tail rfl]
    split_ifs with hcovered
    · have hle : maxBytes ≤ (content cs).length := of_decide_eq_true hcovered
      rw [Nat.min_eq_left hle] at ih
      exact (Nat.min_le_left _ _).trans ih
    · exact Nat.min_le_right _ _

theorem fill_eq (newest : List (Chunk UInt8)) (left : ℕ)
    (h : left ≤ (content newest.reverse).length) :
    BoundedChunkQueue.readTail.fill newest left =
      (content newest.reverse).drop ((content newest.reverse).length - left) := by
  induction newest generalizing left with
  | nil => simp [BoundedChunkQueue.readTail.fill, content]
  | cons chunk older ih =>
    rw [List.reverse_cons, content_append, content_singleton, List.length_append] at h ⊢
    rw [BoundedChunkQueue.readTail.fill, ih _ (by omega)]
    rcases Nat.le_total left chunk.bytes.length with hle | hge
    · have hnone : (content older.reverse).drop
          ((content older.reverse).length + chunk.bytes.length - left) = [] :=
        List.drop_eq_nil_of_le (by omega)
      rw [Nat.min_eq_left hle, Nat.sub_self, Nat.sub_zero, List.drop_length, List.nil_append,
        List.drop_append, hnone, List.nil_append]
      congr 1
      omega
    · rw [Nat.min_eq_right hge, Nat.sub_self, List.drop_zero,
        List.drop_append_of_le_length (by omega)]
      congr 2
      omega

/-- `readTail` returns the most recent of the retained bytes. -/
theorem readTail_eq (q : BoundedChunkQueue) (max : ℕ) :
    q.readTail max = (content q.live).drop ((content q.live).length - min max q.total) := by
  have hreverse := q.live.reverse_reverse
  have hle : min max q.total ≤ (content q.live.reverse.reverse).length := by
    rw [hreverse, q.total_eq]
    exact Nat.min_le_right _ _
  rw [BoundedChunkQueue.readTail, fill_eq _ _ hle, hreverse]

end Retention

end Terminay.Terminal
