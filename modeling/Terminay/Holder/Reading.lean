import Mathlib.Data.List.TakeWhile
import Terminay.Holder.Sending

/-!
# Reading the frames of a session

A reader of the frames sent to one socket for one session knows at which position the next data
must start: an answer to an attach or a spawn opens the session at a position, data moves it, the
exit closes it.
-/

namespace Terminay.Holder
open Script Chunks

/-- Not opened, open at a position, or closed by the exit. -/
inductive Reading where | idle | upTo (position : ℕ) | closed
  deriving DecidableEq

def Frame.opens (f : Frame) : Option ℕ :=
  match f.message with
  | .result _ (.attached _ start _) => some start
  | .result _ (.spawned record) => some record.outputPosition
  | _ => none

def Frame.chunk (f : Frame) : Option (Chunk UInt8) :=
  match f.message with
  | .data _ position payload => some ⟨position, payload⟩
  | _ => none

def Frame.endsAt (f : Frame) : Option ℕ :=
  match f.message with
  | .exit _ outputPosition _ => some outputPosition
  | _ => none

/-- An attach is answered from the position asked for or the first one kept, the later of both. -/
def Frame.clamped (f : Frame) : Prop :=
  match f.message with
  | .result _ (.attached record start _) => start = max f.requested record.bufferedFrom
  | _ => True

instance (f : Frame) : Decidable f.clamped := by
  unfold Frame.clamped
  split <;> infer_instance

def advance (strict : Bool) (stream : Bytes) (r : Reading) (f : Frame) : Option Reading :=
  match f.opens, f.chunk, f.endsAt with
  | some start, _, _ => if f.clamped then some (.upTo start) else none
  | none, some c, _ =>
    match r with
    | .idle => if strict then none else some .idle
    | .upTo n =>
      if c.position = n ∧ c.bytes <+: stream.drop n then some (.upTo (n + c.bytes.length)) else none
    | .closed => none
  | none, none, some stop =>
    match r with
    | .idle => if strict then none else some .idle
    | .upTo n => if stop = n then some .closed else none
    | .closed => none
  | none, none, none => some r

def read (strict : Bool) (stream : Bytes) (r : Reading) (frames : List Frame) : Option Reading :=
  frames.foldlM (advance strict stream) r

section Reader

variable {strict : Bool} {stream : Bytes} {r r' : Reading} {frames : List Frame}

theorem read_append (frames more : List Frame) :
    read strict stream r (frames ++ more) =
      (read strict stream r frames).bind fun r => read strict stream r more :=
  List.foldlM_append

theorem read_cons (f : Frame) (frames : List Frame) :
    read strict stream r (f :: frames) =
      (advance strict stream r f).bind fun r => read strict stream r frames :=
  List.foldlM_cons

theorem read_nil : read strict stream r [] = some r := rfl

theorem advance_grows {f : Frame} (more : Bytes) (h : advance strict stream r f = some r') :
    advance strict (stream ++ more) r f = some r' := by
  rw [advance] at h ⊢
  rcases hopens : f.opens with _ | start
  · rcases hchunk : f.chunk with _ | c
    · rcases hend : f.endsAt with _ | stop
      · rw [hopens, hchunk, hend] at h
        exact h
      · rw [hopens, hchunk, hend] at h
        exact h
    · cases r with
      | upTo n =>
        simp only [hopens, hchunk] at h ⊢
        split_ifs at h with hnext
        have hlonger : stream.drop n <+: (stream ++ more).drop n := by
          rw [List.drop_append]
          exact List.prefix_append _ _
        rw [if_pos ⟨hnext.1, hnext.2.trans hlonger⟩]
        exact h
      | _ =>
        rw [hopens, hchunk] at h
        exact h
  · rw [hopens] at h
    exact h

theorem read_grows (more : Bytes) (h : read strict stream r frames = some r') :
    read strict (stream ++ more) r frames = some r' := by
  induction frames generalizing r with
  | nil => exact h
  | cons f frames ih =>
    rw [read_cons] at h ⊢
    obtain ⟨r₁, hfirst, hrest⟩ := Option.bind_eq_some_iff.mp h
    rw [advance_grows more hfirst]
    exact ih hrest

theorem advance_lenient {f : Frame} (h : advance true stream r f = some r') :
    advance false stream r f = some r' := by
  rw [advance] at h ⊢
  rcases hopens : f.opens with _ | start
  · rw [hopens] at h
    rcases hchunk : f.chunk with _ | c
    · rw [hchunk] at h
      rcases hend : f.endsAt with _ | stop
      · rw [hend] at h
        exact h
      · rw [hend] at h
        cases r with
        | idle => cases h
        | _ => exact h
    · rw [hchunk] at h
      cases r with
      | idle => cases h
      | _ => exact h
  · rw [hopens] at h
    exact h

theorem read_lenient (h : read true stream r frames = some r') :
    read false stream r frames = some r' := by
  induction frames generalizing r with
  | nil => exact h
  | cons f frames ih =>
    rw [read_cons] at h ⊢
    obtain ⟨r₁, hfirst, hrest⟩ := Option.bind_eq_some_iff.mp h
    rw [advance_lenient hfirst]
    exact ih hrest

theorem read_weaken {strict' : Bool} (hle : strict' = true → strict = true)
    (h : read strict stream r frames = some r') : read strict' stream r frames = some r' := by
  cases strict' with
  | true =>
    rw [hle rfl] at h
    exact h
  | false =>
    cases strict with
    | true => exact read_lenient h
    | false => exact h

theorem read_closed (hopens : ∀ f ∈ frames, f.opens = none)
    (h : read strict stream .closed frames = some r') :
    frames.filterMap Frame.chunk = [] ∧ frames.filterMap Frame.endsAt = [] := by
  induction frames with
  | nil => exact ⟨rfl, rfl⟩
  | cons f frames ih =>
    obtain ⟨hf, hframes⟩ := List.forall_mem_cons.mp hopens
    rw [read_cons] at h
    obtain ⟨r₁, hfirst, hrest⟩ := Option.bind_eq_some_iff.mp h
    rw [advance, hf] at hfirst
    rcases hchunk : f.chunk with _ | c
    · rcases hend : f.endsAt with _ | stop
      · simp only [hchunk, hend, Option.some.injEq] at hfirst
        subst hfirst
        obtain ⟨hchunks, hends⟩ := ih hframes hrest
        rw [List.filterMap_cons, List.filterMap_cons, hchunk, hend]
        exact ⟨hchunks, hends⟩
      · simp only [hchunk, hend] at hfirst
        cases hfirst
    · simp only [hchunk] at hfirst
      cases hfirst

theorem read_segment {n : ℕ} (hopens : ∀ f ∈ frames, f.opens = none)
    (h : read strict stream (.upTo n) frames = some r') :
    ∃ stop, LaidOut n (frames.filterMap Frame.chunk) stop ∧
      content (frames.filterMap Frame.chunk) <+: stream.drop n ∧
      ∀ p ∈ frames.filterMap Frame.endsAt, p = stop := by
  induction frames generalizing n with
  | nil => exact ⟨n, rfl, List.nil_prefix, fun p hp => (by cases hp)⟩
  | cons f frames ih =>
    obtain ⟨hf, hframes⟩ := List.forall_mem_cons.mp hopens
    rw [read_cons] at h
    obtain ⟨r₁, hfirst, hrest⟩ := Option.bind_eq_some_iff.mp h
    rw [advance, hf] at hfirst
    rcases hchunk : f.chunk with _ | c
    · rcases hend : f.endsAt with _ | stop
      · simp only [hchunk, hend, Option.some.injEq] at hfirst
        subst hfirst
        rw [List.filterMap_cons, List.filterMap_cons, hchunk, hend]
        exact ih hframes hrest
      · simp only [hchunk, hend] at hfirst
        split_ifs at hfirst with hstop
        cases hfirst
        obtain ⟨hchunks, hends⟩ := read_closed hframes hrest
        rw [List.filterMap_cons, List.filterMap_cons, hchunk, hend]
        dsimp only
        rw [hchunks, hends]
        exact ⟨n, rfl, List.nil_prefix, fun p hp => (List.mem_singleton.mp hp).trans hstop⟩
    · simp only [hchunk] at hfirst
      split_ifs at hfirst with hnext
      cases hfirst
      obtain ⟨hposition, hbytes⟩ := hnext
      obtain ⟨stop, hlaid, hcontent, hends⟩ := ih hframes hrest
      have hnone : f.endsAt = none := by
        rw [Frame.chunk] at hchunk
        split at hchunk
        next hmessage =>
          rw [Frame.endsAt, hmessage]
        · cases hchunk
      rw [List.filterMap_cons, List.filterMap_cons, hchunk, hnone]
      refine ⟨stop, ⟨hposition, hlaid⟩, ?_, hends⟩
      rw [content_cons]
      obtain ⟨rest, hrest⟩ := hbytes
      rw [← hrest]
      refine (List.prefix_append_right_inj _).mpr ?_
      rw [← List.drop_drop, ← hrest, List.drop_left] at hcontent
      exact hcontent

theorem read_unopened (hopens : ∀ f ∈ frames, f.opens = none)
    (h : read true stream .idle frames = some r') : frames.filterMap Frame.chunk = [] := by
  induction frames with
  | nil => rfl
  | cons f frames ih =>
    obtain ⟨hf, hframes⟩ := List.forall_mem_cons.mp hopens
    rw [read_cons] at h
    obtain ⟨r₁, hfirst, hrest⟩ := Option.bind_eq_some_iff.mp h
    rw [advance, hf] at hfirst
    rcases hchunk : f.chunk with _ | c
    · rcases hend : f.endsAt with _ | stop
      · simp only [hchunk, hend, Option.some.injEq] at hfirst
        subst hfirst
        rw [List.filterMap_cons, hchunk]
        exact ih hframes hrest
      · simp only [hchunk, hend] at hfirst
        cases hfirst
    · simp only [hchunk] at hfirst
      cases hfirst

def upToNext (frames : List Frame) : List Frame := frames.takeWhile fun f => f.opens.isNone

theorem upToNext_opens (frames : List Frame) : ∀ f ∈ upToNext frames, f.opens = none :=
  fun f hf => Option.isNone_iff_eq_none.mp
    (List.mem_takeWhile_imp (p := fun f : Frame => f.opens.isNone) hf)

theorem upToNext_read (h : read strict stream r frames = some r') :
    ∃ r₁, read strict stream r (upToNext frames) = some r₁ := by
  rw [← List.takeWhile_append_dropWhile (p := fun f => f.opens.isNone) (l := frames),
    read_append] at h
  obtain ⟨r₁, hfirst, -⟩ := Option.bind_eq_some_iff.mp h
  exact ⟨r₁, hfirst⟩

theorem read_answer {before after : List Frame} {answer : Frame} {start : ℕ}
    (h : read strict stream r (before ++ answer :: after) = some r')
    (hopens : answer.opens = some start) :
    answer.clamped ∧ ∃ stop, LaidOut start ((upToNext after).filterMap Frame.chunk) stop ∧
      content ((upToNext after).filterMap Frame.chunk) = slice 0 stream start stop ∧
      ∀ p ∈ (upToNext after).filterMap Frame.endsAt, p = stop := by
  rw [read_append] at h
  obtain ⟨r₁, -, hrest⟩ := Option.bind_eq_some_iff.mp h
  rw [read_cons] at hrest
  obtain ⟨r₂, hanswer, hafter⟩ := Option.bind_eq_some_iff.mp hrest
  simp only [advance, hopens] at hanswer
  split_ifs at hanswer with hclamped
  cases hanswer
  obtain ⟨r₃, hsegment⟩ := upToNext_read hafter
  obtain ⟨stop, hlaid, hcontent, hends⟩ := read_segment (upToNext_opens after) hsegment
  refine ⟨hclamped, stop, hlaid, ?_, hends⟩
  rw [slice, Nat.sub_zero, hlaid.length, Nat.add_sub_cancel_left]
  exact List.prefix_iff_eq_take.mp hcontent

theorem read_chunks (o : ℕ) (socket : ℕ) (sessionId : Str) {chunks : List (Chunk UInt8)}
    {n stop : ℕ} (hlaid : LaidOut n chunks stop) (hcontent : content chunks <+: stream.drop n) :
    read strict stream (.upTo n) ((dataOf o sessionId chunks).map (Outgoing.frame socket)) =
      some (.upTo stop) := by
  induction chunks generalizing n with
  | nil =>
    rw [show n = stop from hlaid]
    rfl
  | cons c chunks ih =>
    rw [content_cons] at hcontent
    have hbytes : c.bytes <+: stream.drop n := (List.prefix_append _ _).trans hcontent
    have hfirst : advance strict stream (.upTo n) (Outgoing.frame socket
        ⟨some o, 0, .data sessionId c.position c.bytes⟩) = some (.upTo (n + c.bytes.length)) :=
      if_pos ⟨hlaid.1, hbytes⟩
    rw [dataOf, List.map_cons, List.map_cons, read_cons, hfirst]
    refine ih hlaid.2 ?_
    obtain ⟨rest, hrest⟩ := hbytes
    rw [← List.drop_drop, ← hrest, List.drop_left]
    rw [← hrest] at hcontent
    exact (List.prefix_append_right_inj _).mp hcontent

theorem read_presentation (o : ℕ) (socket : ℕ) (sessionId : Str) (total offset : ℕ)
    (parts : List Bytes) :
    read strict stream r ((presentationOf o sessionId total offset parts).map
      (Outgoing.frame socket)) = some r := by
  induction parts generalizing offset with
  | nil => rfl
  | cons part parts ih =>
    rw [presentationOf, List.map_cons, read_cons]
    exact ih _

end Reader

end Terminay.Holder
