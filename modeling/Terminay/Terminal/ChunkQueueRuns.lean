import Terminay.Terminal.ChunkQueue

/-!
# What a chunk queue retains

The queue keeps its chunks in an array: slots that were evicted hold nothing and lie before the
head. It is the queue of live chunks, and what it retains is a function of the chunks pushed.
-/

namespace Terminay.Terminal
open Script Chunks

structure BackingArray where
  maxBytes : ℕ
  retention : BoundedChunkRetention
  chunks : List (Option (Chunk UInt8))
  head : ℕ
  total : ℕ

namespace BackingArray

def create (maxBytes : ℕ) (retention : BoundedChunkRetention) : BackingArray :=
  ⟨maxBytes, retention, [], 0, 0⟩

def evict (a : BackingArray) (oldest : Chunk UInt8) : BackingArray :=
  { a with
    chunks := a.chunks.set a.head none
    head := a.head + 1
    total := a.total - oldest.bytes.length }

def leaves (a : BackingArray) (oldest : Chunk UInt8) : Bool :=
  match a.retention with
  | .withinBound => a.maxBytes < a.total ∧ a.head < a.chunks.length
  | .withinBoundKeepLast => a.maxBytes < a.total ∧ a.head < a.chunks.length - 1
  | .coverBound => a.maxBytes ≤ a.total - oldest.bytes.length

def evictAll : ℕ → BackingArray → BackingArray
  | 0, a => a
  | rounds + 1, a =>
    match a.chunks[a.head]? with
    | some (some oldest) => if a.leaves oldest then evictAll rounds (a.evict oldest) else a
    | _ => a

def compact (a : BackingArray) : BackingArray :=
  if minCompactionEntries ≤ a.head ∧ a.chunks.length ≤ a.head * 2 then
    { a with chunks := a.chunks.drop a.head, head := 0 }
  else a

def push (a : BackingArray) (chunk : Chunk UInt8) : BackingArray :=
  let entered :=
    { a with chunks := a.chunks ++ [some chunk], total := a.total + chunk.bytes.length }
  (evictAll entered.chunks.length entered).compact

/-- What the iterator yields: a slot that was evicted would be yielded as nothing. -/
def iterate (a : BackingArray) : List (Option (Chunk UInt8)) := a.chunks.drop a.head

def readTail (a : BackingArray) (max : ℕ) : Bytes :=
  BoundedChunkQueue.readTail.fill (a.iterate.filterMap id).reverse (min max a.total)

end BackingArray

variable {maxBytes : ℕ} {retention : BoundedChunkRetention}

/-- Whether the oldest chunk leaves when `live` come after it. -/
def leaving (maxBytes : ℕ) (retention : BoundedChunkRetention) (oldest : Chunk UInt8)
    (live : List (Chunk UInt8)) (total : ℕ) : Bool :=
  match retention with
  | .withinBound => maxBytes < total
  | .withinBoundKeepLast => maxBytes < total ∧ live ≠ []
  | .coverBound => maxBytes ≤ total - oldest.bytes.length

theorem evictions_cons (c : Chunk UInt8) (live : List (Chunk UInt8)) (total : ℕ) :
    BoundedChunkQueue.evictions maxBytes retention (c :: live) total =
      if leaving maxBytes retention c live total then
        BoundedChunkQueue.evictions maxBytes retention live (total - c.bytes.length) + 1
      else 0 := by
  cases retention <;> rfl

def laid (maxBytes : ℕ) (retention : BoundedChunkRetention) (head : ℕ) (live : List (Chunk UInt8))
    (total : ℕ) : BackingArray :=
  ⟨maxBytes, retention, List.replicate head none ++ live.map some, head, total⟩

/-- The array of a queue of live chunks. -/
def BoundedChunkQueue.array (q : BoundedChunkQueue) : BackingArray :=
  laid q.maxBytes q.retention q.head q.live q.total

theorem laid_iterate (head : ℕ) (live : List (Chunk UInt8)) (total : ℕ) :
    (laid maxBytes retention head live total).iterate = live.map some := by
  rw [BackingArray.iterate, laid, List.drop_left' (List.length_replicate ..)]

theorem laid_evict (head : ℕ) (c : Chunk UInt8) (live : List (Chunk UInt8)) (total : ℕ) :
    (laid maxBytes retention head (c :: live) total).evict c =
      laid maxBytes retention (head + 1) live (total - c.bytes.length) := by
  have hset : (List.replicate head none ++ (c :: live).map some).set head none =
      List.replicate (head + 1) none ++ live.map some := by
    rw [List.set_append_right _ _ (List.length_replicate ..).le, List.length_replicate,
      Nat.sub_self, List.replicate_succ', List.append_assoc]
    rfl
  rw [BackingArray.evict, laid, laid, hset]

theorem evictAll_laid (live : List (Chunk UInt8)) (head total rounds : ℕ)
    (hrounds : live.length ≤ rounds) :
    let left := BoundedChunkQueue.evictions maxBytes retention live total
    BackingArray.evictAll rounds (laid maxBytes retention head live total) =
      laid maxBytes retention (head + left) (live.drop left)
        (total - (content (live.take left)).length) := by
  induction live generalizing head total rounds with
  | nil =>
    cases rounds with
    | zero => rfl
    | succ rounds =>
      have hslot : (laid maxBytes retention head [] total).chunks[head]? = none := by simp [laid]
      rw [BackingArray.evictAll, show (laid maxBytes retention head [] total).head = head from rfl,
        hslot]
      rfl
  | cons c live ih =>
    obtain ⟨rounds, rfl⟩ : ∃ n, rounds = n + 1 := ⟨rounds - 1, by
      rw [List.length_cons] at hrounds
      omega⟩
    have hslot : (laid maxBytes retention head (c :: live) total).chunks[head]? =
        some (some c) := by simp [laid]
    have hleaves : (laid maxBytes retention head (c :: live) total).leaves c =
        leaving maxBytes retention c live total := by
      cases retention <;> simp [BackingArray.leaves, laid, leaving, List.length_pos_iff]
    dsimp only
    rw [evictions_cons, BackingArray.evictAll,
      show (laid maxBytes retention head (c :: live) total).head = head from rfl, hslot]
    dsimp only
    rw [hleaves]
    split_ifs with hover
    · rw [laid_evict, ih _ _ _ (Nat.le_of_succ_le_succ hrounds), List.drop_succ_cons,
        List.take_succ_cons, content_cons, List.length_append, Nat.sub_sub, Nat.add_right_comm,
        Nat.add_assoc]
    · rfl

theorem array_compact (q : BoundedChunkQueue) : q.array.compact = q.compact.array := by
  have hlength : q.array.chunks.length = q.head + q.live.length := by
    simp [BoundedChunkQueue.array, laid]
  rw [BackingArray.compact, BoundedChunkQueue.compact, hlength,
    show q.array.head = q.head from rfl]
  split_ifs with hcompact
  · have hlive : q.array.chunks.drop q.head = q.live.map some := laid_iterate ..
    rw [hlive]
    rfl
  · rfl

/-- A push on the array of a queue leaves the array of the queue after the push. -/
theorem array_push (q : BoundedChunkQueue) (c : Chunk UInt8) :
    q.array.push c = (q.push c).array := by
  have hentered : ({ q.array with
      chunks := q.array.chunks ++ [some c], total := q.array.total + c.bytes.length } :
      BackingArray) = (q.enter c).array := by
    simp [BoundedChunkQueue.array, BoundedChunkQueue.enter, laid]
  have hrounds : (q.enter c).live.length ≤ (q.array.chunks ++ [some c]).length := by
    simp [BoundedChunkQueue.array, BoundedChunkQueue.enter, laid]
  have hevicted : BackingArray.evictAll _ (q.enter c).array = ((q.enter c).evict
      (BoundedChunkQueue.evictions q.maxBytes q.retention (q.enter c).live
        (q.enter c).total)).array := evictAll_laid _ _ _ _ hrounds
  rw [BackingArray.push]
  dsimp only
  rw [hentered, hevicted, array_compact]
  rfl

/-- Evicting as the chunks arrive leaves what evicting from all of them at once would leave. -/
theorem evictions_concat (pushed : List (Chunk UInt8)) (c : Chunk UInt8) :
    let kept := pushed.drop
      (BoundedChunkQueue.evictions maxBytes retention pushed (content pushed).length)
    (kept ++ [c]).drop (BoundedChunkQueue.evictions maxBytes retention (kept ++ [c])
        (content (kept ++ [c])).length) =
      (pushed ++ [c]).drop (BoundedChunkQueue.evictions maxBytes retention (pushed ++ [c])
        (content (pushed ++ [c])).length) := by
  induction pushed with
  | nil => rfl
  | cons oldest pushed ih =>
    dsimp only at ih ⊢
    rw [evictions_cons, BoundedChunkQueue.total_tail rfl]
    split_ifs with hleaves
    · have hstill : leaving maxBytes retention oldest (pushed ++ [c])
          (content (oldest :: (pushed ++ [c]))).length = true := by
        cases retention <;>
          simp only [leaving, decide_eq_true_eq, content_cons, content_append,
            List.length_append] at hleaves ⊢
        case withinBound => omega
        case withinBoundKeepLast => exact ⟨by omega, List.append_ne_nil_of_right_ne_nil _ nofun⟩
        case coverBound => omega
      rw [List.drop_succ_cons, ih, List.cons_append, evictions_cons oldest,
        BoundedChunkQueue.total_tail rfl, if_pos hstill, List.drop_succ_cons]
    · rfl

/-- The live chunks are what one eviction from all that was pushed leaves. -/
theorem pushed_live (q : BoundedChunkQueue) (hempty : q.live = []) (pushed : List (Chunk UInt8)) :
    (pushed.foldl BoundedChunkQueue.push q).live = pushed.drop
        (BoundedChunkQueue.evictions q.maxBytes q.retention pushed (content pushed).length) ∧
      (pushed.foldl BoundedChunkQueue.push q).maxBytes = q.maxBytes ∧
      (pushed.foldl BoundedChunkQueue.push q).retention = q.retention ∧
      (pushed.foldl BackingArray.push q.array) = (pushed.foldl BoundedChunkQueue.push q).array := by
  induction pushed using List.reverseRecOn with
  | nil => exact ⟨hempty, rfl, rfl, rfl⟩
  | append_singleton pushed c ih =>
    obtain ⟨hlive, hmax, hretention, harray⟩ := ih
    obtain ⟨hlive', hmax', hretention'⟩ := push_live (pushed.foldl BoundedChunkQueue.push q) c
    rw [List.foldl_concat, List.foldl_concat, harray, array_push, hmax', hretention', hlive', hlive,
      hmax, hretention]
    exact ⟨evictions_concat pushed c, rfl, rfl, rfl⟩

/-- The longest suffix that is within the bound. -/
def Longest (maxBytes : ℕ) (pushed kept : List (Chunk UInt8)) : Prop :=
  kept <:+ pushed ∧ (content kept).length ≤ maxBytes ∧
    ∀ other, other <:+ pushed → (content other).length ≤ maxBytes → other <:+ kept

/-- The shortest suffix that covers the bound. -/
def Shortest (reached : ℕ) (pushed kept : List (Chunk UInt8)) : Prop :=
  kept <:+ pushed ∧ reached ≤ (content kept).length ∧
    ∀ other, other <:+ pushed → reached ≤ (content other).length → kept <:+ other

def Retained (maxBytes : ℕ) (pushed kept : List (Chunk UInt8)) : BoundedChunkRetention → Prop
  | .withinBound => Longest maxBytes pushed kept
  | .withinBoundKeepLast => ∃ longest, Longest maxBytes pushed longest ∧
      kept = if longest = [] then pushed.getLast?.toList else longest
  | .coverBound => if maxBytes ≤ (content pushed).length then Shortest maxBytes pushed kept
      else kept = pushed

def retained (maxBytes : ℕ) (retention : BoundedChunkRetention) (pushed : List (Chunk UInt8)) :
    List (Chunk UInt8) :=
  pushed.drop (BoundedChunkQueue.evictions maxBytes retention pushed (content pushed).length)

theorem retained_cons (c : Chunk UInt8) (pushed : List (Chunk UInt8)) :
    retained maxBytes retention (c :: pushed) =
      if leaving maxBytes retention c pushed (content (c :: pushed)).length then
        retained maxBytes retention pushed
      else c :: pushed := by
  rw [retained, evictions_cons, BoundedChunkQueue.total_tail rfl]
  split_ifs
  · rfl
  · rfl

theorem content_suffix {kept pushed : List (Chunk UInt8)} (h : kept <:+ pushed) :
    (content kept).length ≤ (content pushed).length := by
  obtain ⟨dropped, rfl⟩ := h
  rw [content_append, List.length_append]
  omega

theorem retained_longest (pushed : List (Chunk UInt8)) :
    Longest maxBytes pushed (retained maxBytes .withinBound pushed) := by
  refine ⟨List.drop_suffix .., evictions_within .., ?_⟩
  induction pushed with
  | nil => exact fun other hother _ => hother
  | cons c pushed ih =>
    intro other hother hfits
    rw [retained_cons]
    split_ifs with hleaves
    · rcases List.suffix_cons_iff.mp hother with rfl | hsuffix
      · exact absurd hfits (Nat.not_le_of_lt (of_decide_eq_true hleaves))
      · exact ih other hsuffix hfits
    · exact hother

theorem retained_keepLast (pushed : List (Chunk UInt8)) :
    retained maxBytes .withinBoundKeepLast pushed =
      if retained maxBytes .withinBound pushed = [] then pushed.getLast?.toList
      else retained maxBytes .withinBound pushed := by
  induction pushed with
  | nil => rfl
  | cons c pushed ih =>
    simp only [retained_cons, leaving, decide_eq_true_eq]
    by_cases hover : maxBytes < (content (c :: pushed)).length
    · by_cases hlast : pushed = []
      · subst hlast
        simp [hover, retained]
      · have hnewest : (c :: pushed).getLast? = pushed.getLast? := by
          cases pushed with
          | nil => exact absurd rfl hlast
          | cons d pushed => exact List.getLast?_cons_cons
        rw [if_pos ⟨hover, hlast⟩, if_pos hover, ih, hnewest]
    · rw [if_neg hover, if_neg (fun h => hover h.1), if_neg (List.cons_ne_nil _ _)]

theorem retained_shortest (pushed : List (Chunk UInt8))
    (hreach : maxBytes ≤ (content pushed).length) :
    Shortest maxBytes pushed (retained maxBytes .coverBound pushed) := by
  have hcover : min maxBytes _ ≤ _ := evictions_cover pushed
  rw [Nat.min_eq_left hreach] at hcover
  refine ⟨List.drop_suffix .., hcover, ?_⟩
  clear hcover hreach
  induction pushed with
  | nil => exact fun other _ _ => List.nil_suffix
  | cons c pushed ih =>
    intro other hother hreaches
    rw [retained_cons, leaving, BoundedChunkQueue.total_tail rfl]
    split_ifs with hleaves
    · rcases List.suffix_cons_iff.mp hother with rfl | hsuffix
      · exact (List.drop_suffix ..).trans (List.suffix_cons ..)
      · exact ih other hsuffix hreaches
    · rcases List.suffix_cons_iff.mp hother with rfl | hsuffix
      · exact List.suffix_refl _
      · have hle := content_suffix hsuffix
        exact absurd (decide_eq_true (hreaches.trans hle)) hleaves

theorem retained_all (pushed : List (Chunk UInt8)) (hshort : (content pushed).length < maxBytes) :
    retained maxBytes .coverBound pushed = pushed := by
  cases pushed with
  | nil => rfl
  | cons c pushed =>
    have hle := content_suffix (List.suffix_cons c pushed)
    rw [retained_cons, leaving, BoundedChunkQueue.total_tail rfl,
      if_neg (fun h => by
        have := of_decide_eq_true h
        omega)]

/-- Whatever is pushed, the queue iterates what its rule retains, its total is exact, and its tail
is the newest of all the bytes pushed. -/
theorem chunk_queue_retains (maxBytes : ℕ) (hbound : 0 < maxBytes)
    (retention : BoundedChunkRetention) (pushed : List (Chunk UInt8)) :
    let a := pushed.foldl BackingArray.push (BackingArray.create maxBytes retention)
    ∃ kept, kept <:+ pushed ∧ a.iterate = kept.map some ∧ a.total = (content kept).length ∧
      Retained maxBytes pushed kept retention ∧
      ∀ n, a.readTail n = (content pushed).drop ((content pushed).length - min n a.total) := by
  obtain ⟨hlive, hmax, hretention, harray⟩ :=
    pushed_live (BoundedChunkQueue.create maxBytes retention hbound) rfl pushed
  change pushed.foldl BackingArray.push (BackingArray.create maxBytes retention) = _ at harray
  generalize pushed.foldl BoundedChunkQueue.push
    (BoundedChunkQueue.create maxBytes retention hbound) = q at hlive hmax hretention harray
  change q.live = retained maxBytes retention pushed at hlive
  have hsuffix : q.live <:+ pushed := by
    rw [hlive]
    exact List.drop_suffix ..
  have hiterate : q.array.iterate = q.live.map some := laid_iterate ..
  rw [harray]
  refine ⟨q.live, hsuffix, hiterate, q.total_eq, ?_, fun n => ?_⟩
  · rw [hlive]
    cases retention with
    | withinBound => exact retained_longest pushed
    | withinBoundKeepLast => exact ⟨_, retained_longest pushed, retained_keepLast pushed⟩
    | coverBound =>
      rw [Retained]
      split_ifs with hreach
      · exact retained_shortest pushed hreach
      · exact retained_all pushed (Nat.lt_of_not_le hreach)
  · have hread : q.array.readTail n = q.readTail n := by
      have hlive : (q.live.map some).filterMap id = q.live := by simp [List.filterMap_map]
      rw [BackingArray.readTail, hiterate, hlive]
      rfl
    obtain ⟨dropped, hdropped⟩ := hsuffix
    have hwhole : content pushed = content dropped ++ content q.live := by
      rw [← hdropped, content_append]
    have hnewest : (content pushed).length - min n q.total = (content dropped).length +
        ((content q.live).length - min n q.total) := by
      rw [hwhole, List.length_append, q.total_eq]
      omega
    rw [hread, readTail_eq, show q.array.total = q.total from rfl, hnewest, hwhole,
      List.drop_length_add_append]

theorem chunk_queue_retains_one :
    let a := [(⟨0, [104, 105]⟩ : Chunk UInt8)].foldl BackingArray.push
      (BackingArray.create 1 .withinBoundKeepLast)
    ∃ kept, kept <:+ [(⟨0, [104, 105]⟩ : Chunk UInt8)] ∧ a.iterate = kept.map some ∧
      a.total = (content kept).length ∧
      Retained 1 [⟨0, [104, 105]⟩] kept .withinBoundKeepLast ∧
      ∀ n, a.readTail n = (content [⟨0, [104, 105]⟩]).drop
        ((content [(⟨0, [104, 105]⟩ : Chunk UInt8)]).length - min n a.total) :=
  chunk_queue_retains 1 Nat.one_pos .withinBoundKeepLast _

/-- Below its bound the covering queue keeps an empty chunk that covers nothing. -/
theorem empty_chunk_stays :
    let pushed : List (Chunk UInt8) := [⟨0, []⟩, ⟨0, [104]⟩]
    let a := pushed.foldl BackingArray.push (BackingArray.create 2 .coverBound)
    ¬ ∃ kept, a.iterate = kept.map some ∧
      Shortest (min 2 (content pushed).length) pushed kept := by
  dsimp only
  rintro ⟨kept, hkept, _, _, hshortest⟩
  have hall : kept = [⟨0, []⟩, ⟨0, [104]⟩] :=
    List.map_injective_iff.mpr (Option.some_injective _) (hkept.symm.trans rfl)
  have hsuffix := (hshortest [⟨0, [104]⟩] (List.suffix_cons ..) (by decide)).length_le
  rw [hall] at hsuffix
  exact absurd hsuffix (by decide)

end Terminay.Terminal
