import Terminay.Lib.Lists
import Terminay.Protocol.Inbound

/-!
# The queue of an open connection

The queue, its index and its byte count describe the same requests, and a request waits only while
as many are handled as may be.
-/

namespace Terminay.Protocol.Inbound
open Workspace Lists

variable {s : State}

def State.tracked (s : State) (n : ℕ) : Prop := ∃ p, s.progress[n]? = some p ∧ p.phase.tracked = true

/-- What holds of an open connection, inside a step too: `x` is the request that has arrived or
left the queue and is neither answered, queued nor handled yet. -/
structure Core (s : State) (x : Option ℕ) : Prop where
  lengths : s.progress.length = s.arrivals.length
  queued : ∀ (n : ℕ) p, s.progress[n]? = some p → (p.phase = .queued ↔ n ∈ s.pendingFeatures)
  arrived : ∀ (n : ℕ) p, s.progress[n]? = some p → (p.phase = .arrived ↔ x = some n)
  listed : ∀ n ∈ s.pendingFeatures, n < s.arrivals.length
  order : s.pendingFeatures.Pairwise (· < ·)
  idKeys : (Entries.keys s.pendingFeatureIds).Nodup
  ids : ∀ c n, (c, n) ∈ s.pendingFeatureIds ↔ n ∈ s.pendingFeatures ∧ s.correlation n = some c
  bytes : s.pendingFeatureBytes = (s.pendingFeatures.map s.bytes).sum
  flightKeys : (Entries.keys s.inFlightRequests).Nodup
  flight : ∀ c n, (c, n) ∈ s.inFlightRequests ↔ s.correlation n = some c ∧ s.tracked n
  apart : ∀ n ∈ s.pendingFeatures, ∀ c, s.correlation n = some c →
    Entries.get s.inFlightRequests c = none
  active : s.activeFeatures = s.progress.countP fun p => p.phase.active
  limit : s.activeFeatures ≤ maxInFlightFeatures
  startOrder : s.starts.Pairwise (· < ·)
  started : ∀ a ∈ s.starts, a < s.arrivals.length ∧ ∀ b ∈ s.pendingFeatures, a < b
  expelled : ∀ n ∈ s.expelled, n < s.arrivals.length ∧ n ∉ s.starts ∧ n ∉ s.pendingFeatures

/-- Between two steps a request waits only for a place. -/
structure Sound (s : State) : Prop extends Core s none where
  full : s.pendingFeatures ≠ [] → s.activeFeatures = maxInFlightFeatures

theorem opened_sound : Sound opened where
  lengths := rfl
  queued n p h := by cases h
  arrived n p h := by cases h
  listed n h := by cases h
  order := List.Pairwise.nil
  idKeys := List.nodup_nil
  ids c n := ⟨fun h => (List.not_mem_nil h).elim, fun h => (List.not_mem_nil h.1).elim⟩
  bytes := rfl
  flightKeys := List.nodup_nil
  flight c n := ⟨fun h => (List.not_mem_nil h).elim, fun ⟨h, _⟩ => by cases h⟩
  apart n h := by cases h
  active := rfl
  limit := Nat.zero_le _
  startOrder := List.Pairwise.nil
  started a h := by cases h
  expelled n h := by cases h
  full h := absurd rfl h

section Phases

variable {x : Option ℕ} {n : ℕ} {p p' : Progress}

def State.put (s : State) (n : ℕ) (p : Progress) : State :=
  { s with progress := s.progress.set n p }

theorem enter_put (hp : s.progress[n]? = some p) (phase : Phase) :
    s.enter n phase = s.put n { p with phase := phase } := by
  rw [State.enter, hp]
  rfl

theorem answer_put (hp : s.progress[n]? = some p) (reply : Reply) :
    s.answer n reply = s.put n { p with answers := p.answers ++ [reply] } := by
  rw [State.answer, hp]
  rfl

theorem put_get (hp : s.progress[n]? = some p) (p' : Progress) :
    (s.put n p').progress[n]? = some p' :=
  get_set.mpr (.inl ⟨rfl, (List.getElem?_eq_some_iff.mp hp).1, rfl⟩)

theorem put_put (s : State) (n : ℕ) (p p' : Progress) : (s.put n p).put n p' = s.put n p' := by
  simp [State.put, List.set_set]

theorem put_self (hp : s.progress[n]? = some p) : s.put n p = s := by
  obtain ⟨hlt, rfl⟩ := List.getElem?_eq_some_iff.mp hp
  rw [State.put, List.set_getElem_self]

theorem tracked_put (hp : s.progress[n]? = some p) (p' : Progress) (m : ℕ) :
    (s.put n p').tracked m ↔ if m = n then p'.phase.tracked = true else s.tracked m := by
  have hlt := (List.getElem?_eq_some_iff.mp hp).1
  constructor
  · rintro ⟨q, hq, htracked⟩
    rcases get_set.mp hq with ⟨rfl, -, rfl⟩ | ⟨hne, hold⟩
    · rw [if_pos rfl]
      exact htracked
    · rw [if_neg hne]
      exact ⟨q, hold, htracked⟩
  · split_ifs with heq
    · exact fun htracked => ⟨p', get_set.mpr (.inl ⟨heq, hlt, rfl⟩), htracked⟩
    · exact fun ⟨q, hq, htracked⟩ => ⟨q, get_set.mpr (.inr ⟨heq, hq⟩), htracked⟩

theorem untracked_put (hp : s.progress[n]? = some p) (hphase : p.phase.tracked = false)
    (p' : Progress) (hphase' : p'.phase.tracked = false) :
    (s.put n p').tracked m ↔ s.tracked m := by
  rw [tracked_put hp]
  split_ifs with heq
  · subst heq
    rw [hphase']
    refine ⟨nofun, fun ⟨q, hq, htracked⟩ => ?_⟩
    rw [hp, Option.some.injEq] at hq
    rw [← hq, hphase] at htracked
    cases htracked
  · rfl

theorem active_put (hp : s.progress[n]? = some p) (p' : Progress) :
    (s.put n p').progress.countP (fun q => q.phase.active) + (if p.phase.active then 1 else 0) =
      s.progress.countP (fun q => q.phase.active) + (if p'.phase.active then 1 else 0) := by
  have hlt := (List.getElem?_eq_some_iff.mp hp).1
  have hget : s.progress[n] = p := (List.getElem?_eq_some_iff.mp hp).2
  have hpos : p.phase.active = true → 0 < s.progress.countP fun q => q.phase.active :=
    fun hactive => List.countP_pos_iff.mpr ⟨p, List.mem_of_getElem? hp, hactive⟩
  rw [State.put, List.countP_set hlt, hget]
  split_ifs with h h' h'
  · have := hpos h
    omega
  · have := hpos h
    omega
  · omega
  · omega

theorem Core.shift {y : Option ℕ} (h : Core s x) (hp : s.progress[n]? = some p)
    (hqueued : p.phase ≠ .queued) (hqueued' : p'.phase ≠ .queued)
    (htracked : p'.phase.tracked = p.phase.tracked) (hactive : p'.phase.active = p.phase.active)
    (hy : ∀ m, y = some m ↔ if m = n then p'.phase = .arrived else x = some m) :
    Core (s.put n p') y where
  lengths := by rw [State.put, List.length_set]; exact h.lengths
  queued m q hm := by
    rcases get_set.mp hm with ⟨rfl, -, rfl⟩ | ⟨-, hold⟩
    · exact ⟨fun heq => absurd heq hqueued', fun hmem => absurd ((h.queued m p hp).mpr hmem) hqueued⟩
    · exact h.queued m q hold
  arrived m q hm := by
    rcases get_set.mp hm with ⟨rfl, -, rfl⟩ | ⟨hne, hold⟩
    · rw [hy, if_pos rfl]
    · rw [hy, if_neg hne]
      exact h.arrived m q hold
  listed := h.listed
  order := h.order
  idKeys := h.idKeys
  ids := h.ids
  bytes := h.bytes
  flightKeys := h.flightKeys
  flight c m := by
    rw [tracked_put hp]
    have hflight := h.flight c m
    split_ifs with heq
    · subst heq
      have hsame : s.tracked m ↔ p'.phase.tracked = true := by
        rw [htracked]
        exact ⟨fun ⟨q, hq, ht⟩ => by rw [hp, Option.some.injEq] at hq; rw [hq]; exact ht,
          fun ht => ⟨p, hp, ht⟩⟩
      rw [← hsame]
      exact hflight
    · exact hflight
  apart := h.apart
  active := by
    have hcount := active_put hp p'
    rw [hactive] at hcount
    exact h.active.trans (Nat.add_right_cancel hcount).symm
  limit := h.limit
  startOrder := h.startOrder
  started := h.started
  expelled := h.expelled

end Phases

section Moves

variable {n : ℕ} {p : Progress} {f : Feature} {now : ℤ}

theorem Core.phase_of {x : Option ℕ} (h : Core s x) (hn : n < s.arrivals.length) :
    ∃ p, s.progress[n]? = some p := by
  rw [← h.lengths] at hn
  exact ⟨_, List.getElem?_eq_getElem hn⟩

theorem arrive_correlation {m : ℕ} (hm : m < s.arrivals.length) :
    (s.arrive f now).correlation m = s.correlation m := by
  rw [State.correlation, State.correlation, State.arrive, List.getElem?_append_left hm]

theorem arrived_correlation (s : State) (f : Feature) (now : ℤ) :
    (s.arrive f now).correlation s.arrivals.length = some f.correlation := by
  rw [State.correlation, State.arrive, get_concat.mpr (.inr ⟨rfl, rfl⟩)]
  rfl

theorem arrived_bytes (s : State) (f : Feature) (now : ℤ) :
    (s.arrive f now).bytes s.arrivals.length = f.bytes := by
  rw [State.bytes, State.arrive, get_concat.mpr (.inr ⟨rfl, rfl⟩)]
  rfl

theorem Core.arrive (h : Core s none) (f : Feature) (now : ℤ) :
    Core (s.arrive f now) (some s.arrivals.length) where
  lengths := by
    simp only [State.arrive, List.length_append, List.length_singleton, h.lengths]
  queued m q hm := by
    rcases get_concat.mp hm with hold | ⟨rfl, rfl⟩
    · exact h.queued m q hold
    · refine ⟨nofun, fun hmem => ?_⟩
      have hlt := h.listed _ hmem
      rw [h.lengths] at hlt
      exact absurd hlt (lt_irrefl _)
  arrived m q hm := by
    rcases get_concat.mp hm with hold | ⟨rfl, rfl⟩
    · have hlt := (List.getElem?_eq_some_iff.mp hold).1
      rw [h.lengths] at hlt
      rw [h.arrived m q hold]
      exact ⟨nofun, fun heq => by cases heq; exact absurd hlt (lt_irrefl _)⟩
    · rw [h.lengths]
      exact ⟨fun _ => rfl, fun _ => rfl⟩
  listed m hm := by
    simp only [State.arrive, List.length_append, List.length_singleton]
    exact Nat.lt_succ_of_lt (h.listed m hm)
  order := h.order
  idKeys := h.idKeys
  ids c m := by
    rw [show (c, m) ∈ (s.arrive f now).pendingFeatureIds ↔ _ from h.ids c m]
    refine and_congr_right fun hm => ?_
    rw [arrive_correlation (h.listed m hm)]
  bytes := by
    refine h.bytes.trans (congrArg List.sum (List.map_congr_left fun m hm => ?_))
    rw [State.bytes, State.bytes, State.arrive, List.getElem?_append_left (h.listed m hm)]
  flightKeys := h.flightKeys
  flight c m := by
    rw [show (c, m) ∈ (s.arrive f now).inFlightRequests ↔ _ from h.flight c m]
    constructor
    · rintro ⟨hc, q, hq, htracked⟩
      have hlt := (List.getElem?_eq_some_iff.mp hq).1
      rw [h.lengths] at hlt
      exact ⟨by rw [arrive_correlation hlt]; exact hc, q, get_concat.mpr (.inl hq), htracked⟩
    · rintro ⟨hc, q, hq, htracked⟩
      rcases get_concat.mp hq with hold | ⟨rfl, rfl⟩
      · have hlt := (List.getElem?_eq_some_iff.mp hold).1
        rw [h.lengths] at hlt
        exact ⟨by rw [← arrive_correlation hlt]; exact hc, q, hold, htracked⟩
      · cases htracked
  apart m hm c hc := by
    rw [arrive_correlation (h.listed m hm)] at hc
    exact h.apart m hm c hc
  active := by
    refine h.active.trans ?_
    rw [State.arrive, List.countP_append]
    rfl
  limit := h.limit
  startOrder := h.startOrder
  started a ha := by
    obtain ⟨hlt, hbefore⟩ := h.started a ha
    refine ⟨?_, hbefore⟩
    simp only [State.arrive, List.length_append, List.length_singleton]
    exact Nat.lt_succ_of_lt hlt
  expelled a ha := by
    obtain ⟨hlt, hrest⟩ := h.expelled a ha
    refine ⟨?_, hrest⟩
    simp only [State.arrive, List.length_append, List.length_singleton]
    exact Nat.lt_succ_of_lt hlt

theorem Core.nodup {x : Option ℕ} (h : Core s x) : s.pendingFeatures.Nodup :=
  h.order.imp fun hlt => Nat.ne_of_lt hlt

theorem Core.distinct {x : Option ℕ} (h : Core s x) {a b : ℕ} (ha : a ∈ s.pendingFeatures)
    (hb : b ∈ s.pendingFeatures) {c : ProtocolId} (hac : s.correlation a = some c)
    (hbc : s.correlation b = some c) : a = b := by
  have hina := Entries.get_of_mem h.idKeys ((h.ids c a).mpr ⟨ha, hac⟩)
  have hinb := Entries.get_of_mem h.idKeys ((h.ids c b).mpr ⟨hb, hbc⟩)
  rw [hina, Option.some.injEq] at hinb
  exact hinb

theorem take_eq (hn : n ∈ s.pendingFeatures) (hp : s.progress[n]? = some p) {c : ProtocolId}
    (hc : s.correlation n = some c) : s.removePendingFeature n =
      { s.put n { p with phase := .arrived } with
        pendingFeatures := s.pendingFeatures.erase n
        pendingFeatureBytes := s.pendingFeatureBytes - s.bytes n
        pendingFeatureIds := Entries.delete s.pendingFeatureIds c } := by
  rw [State.removePendingFeature, if_pos hn, enter_put hp, hc]

theorem Core.take (h : Core s none) (hn : n ∈ s.pendingFeatures) :
    Core (s.removePendingFeature n) (some n) := by
  obtain ⟨p, hp⟩ := h.phase_of (h.listed n hn)
  obtain ⟨c, hc⟩ : ∃ c, s.correlation n = some c := by
    rw [State.correlation, List.getElem?_eq_getElem (h.listed n hn)]
    exact ⟨_, rfl⟩
  have hqueued : p.phase = .queued := (h.queued n p hp).mpr hn
  rw [take_eq hn hp hc]
  have hmem : ∀ m, m ∈ s.pendingFeatures.erase n ↔ m ≠ n ∧ m ∈ s.pendingFeatures :=
    fun m => h.nodup.mem_erase_iff
  refine ⟨by rw [State.put, List.length_set]; exact h.lengths, fun m q hm => ?_, fun m q hm => ?_,
    fun m hm => h.listed m ((hmem m).mp hm).2, h.order.sublist List.erase_sublist,
    Entries.keys_delete_nodup h.idKeys c, fun d m => ?_, ?_, h.flightKeys, fun d m => ?_,
    fun m hm => h.apart m ((hmem m).mp hm).2, ?_, h.limit, h.startOrder, fun a ha => ?_,
    fun a ha => ?_⟩
  · rw [hmem]
    rcases get_set.mp hm with ⟨rfl, -, rfl⟩ | ⟨hne, hold⟩
    · exact ⟨nofun, fun hno => absurd rfl hno.1⟩
    · rw [h.queued m q hold]
      exact ⟨fun hin => ⟨hne, hin⟩, fun hin => hin.2⟩
  · rcases get_set.mp hm with ⟨rfl, -, rfl⟩ | ⟨hne, hold⟩
    · exact ⟨fun _ => rfl, fun _ => rfl⟩
    · rw [h.arrived m q hold]
      exact ⟨nofun, fun heq => by cases heq; exact absurd rfl hne⟩
  · rw [Entries.mem_delete, h.ids d m, hmem]
    constructor
    · rintro ⟨⟨hin, hd⟩, hne⟩
      refine ⟨⟨fun heq => hne ?_, hin⟩, hd⟩
      rw [heq, hc, Option.some.injEq] at hd
      exact hd.symm
    · rintro ⟨⟨hne, hin⟩, hd⟩
      refine ⟨⟨hin, hd⟩, fun heq => hne ?_⟩
      dsimp only at heq
      rw [heq] at hd
      exact h.distinct hin hn hd hc
  · have hperm := (List.perm_cons_erase hn).map s.bytes
    have hsum := hperm.sum_eq
    rw [List.map_cons, List.sum_cons] at hsum
    have htotal := h.bytes
    change s.pendingFeatureBytes - s.bytes n = ((s.pendingFeatures.erase n).map s.bytes).sum
    omega
  · exact (h.flight d m).trans (and_congr_right fun _ =>
      (untracked_put hp (by rw [hqueued]; rfl) { p with phase := .arrived } rfl).symm)
  · have hcount := active_put hp { p with phase := .arrived }
    rw [hqueued] at hcount
    exact h.active.trans (Nat.add_right_cancel hcount).symm
  · obtain ⟨hlt, hbefore⟩ := h.started a ha
    exact ⟨hlt, fun b hb => hbefore b ((hmem b).mp hb).2⟩
  · obtain ⟨hlt, hstarts, hout⟩ := h.expelled a ha
    exact ⟨hlt, hstarts, fun hin => hout ((hmem a).mp hin).2⟩

theorem Core.answering (h : Core s (some n)) (hn : n < s.arrivals.length) (reply : Reply) :
    Core (s.enter n (.answering reply false)) none := by
  obtain ⟨p, hp⟩ := h.phase_of hn
  have hphase : p.phase = .arrived := (h.arrived n p hp).mpr rfl
  rw [enter_put hp]
  refine h.shift hp (by rw [hphase]; exact nofun) nofun (by rw [hphase]; rfl)
    (by rw [hphase]; rfl) fun m => ?_
  split_ifs with heq
  · exact ⟨nofun, nofun⟩
  · exact ⟨nofun, fun hsome => by cases hsome; exact absurd rfl heq⟩

theorem take_arrivals (s : State) (n : ℕ) : (s.removePendingFeature n).arrivals = s.arrivals := by
  rw [State.removePendingFeature]
  split_ifs
  · rw [State.enter]
    split
    · rfl
    · rfl
  · rfl

theorem enter_rest (s : State) (n : ℕ) (phase : Phase) :
    ∃ progress, s.enter n phase = { s with progress := progress } := by
  rw [State.enter]
  split
  · exact ⟨_, rfl⟩
  · exact ⟨s.progress, rfl⟩

theorem Core.expel (h : Core s none) (hn : n ∈ s.pendingFeatures) (reply : Reply) :
    Core (s.expel n reply) none := by
  have htaken := h.take hn
  have hlt : n < (s.removePendingFeature n).arrivals.length := by
    rw [take_arrivals]
    exact h.listed n hn
  have hleft := htaken.answering hlt reply
  obtain ⟨p, hp⟩ := h.phase_of (h.listed n hn)
  obtain ⟨c, hc⟩ : ∃ c, s.correlation n = some c := by
    rw [State.correlation, List.getElem?_eq_getElem (h.listed n hn)]
    exact ⟨_, rfl⟩
  obtain ⟨progress, hrest⟩ := enter_rest (s.removePendingFeature n) n (.answering reply false)
  have hpending : ((s.removePendingFeature n).enter n (.answering reply false)).pendingFeatures =
      s.pendingFeatures.erase n := by
    rw [hrest, take_eq hn hp hc]
  have hsame : ((s.removePendingFeature n).enter n (.answering reply false)).expelled = s.expelled ∧
      ((s.removePendingFeature n).enter n (.answering reply false)).starts = s.starts ∧
      ((s.removePendingFeature n).enter n (.answering reply false)).arrivals = s.arrivals := by
    rw [hrest, take_eq hn hp hc]
    exact ⟨rfl, rfl, rfl⟩
  rw [State.expel]
  refine ⟨hleft.lengths, hleft.queued, hleft.arrived, hleft.listed, hleft.order, hleft.idKeys,
    hleft.ids, hleft.bytes, hleft.flightKeys, hleft.flight, hleft.apart, hleft.active, hleft.limit,
    hleft.startOrder, hleft.started, fun a ha => ?_⟩
  rcases List.mem_append.mp ha with hold | hnew
  · exact hleft.expelled a (by rw [hsame.1]; exact hold)
  · rw [List.mem_singleton.mp hnew]
    dsimp only
    rw [hsame.2.1, hsame.2.2, hpending]
    refine ⟨h.listed n hn, fun hstart => ?_, fun hin => ?_⟩
    · exact absurd ((h.started n hstart).2 n hn) (lt_irrefl _)
    · exact (h.nodup.mem_erase_iff.mp hin).1 rfl

theorem Core.dispatch (h : Core s (some n)) (hn : n < s.arrivals.length)
    (hplace : s.activeFeatures < maxInFlightFeatures)
    (hflight : ∀ c, s.correlation n = some c → Entries.get s.inFlightRequests c = none)
    (hfree : ∀ m ∈ s.pendingFeatures, s.correlation m ≠ s.correlation n)
    (hstarts : ∀ a ∈ s.starts, a < n) (hnext : ∀ b ∈ s.pendingFeatures, n < b)
    (hexpelled : n ∉ s.expelled) : Core (s.dispatchFeature n) none := by
  obtain ⟨p, hp⟩ := h.phase_of hn
  have hphase : p.phase = .arrived := (h.arrived n p hp).mpr rfl
  obtain ⟨c, hc⟩ : ∃ c, s.correlation n = some c := by
    rw [State.correlation, List.getElem?_eq_getElem hn]
    exact ⟨_, rfl⟩
  have hnone := hflight c hc
  have heq : s.dispatchFeature n = { s.put n { p with phase := .handling } with
      activeFeatures := s.activeFeatures + 1
      inFlightRequests := Entries.set s.inFlightRequests c n
      starts := s.starts ++ [n] } := by
    rw [State.dispatchFeature, hc]
    dsimp only
    rw [hnone]
    dsimp only
    rw [State.enter]
    dsimp only
    rw [hp]
    rfl
  rw [heq]
  have hout : n ∉ s.pendingFeatures := fun hin => absurd (hnext n hin) (lt_irrefl _)
  refine ⟨by rw [State.put, List.length_set]; exact h.lengths, fun m q hm => ?_, fun m q hm => ?_,
    h.listed, h.order, h.idKeys, h.ids, h.bytes, Entries.keys_set_nodup h.flightKeys c n,
    fun d m => ?_, fun m hm d hd => ?_, ?_, hplace, ?_, fun a ha => ?_, fun a ha => ?_⟩
  · rcases get_set.mp hm with ⟨rfl, -, rfl⟩ | ⟨-, hold⟩
    · exact ⟨nofun, fun hin => absurd hin hout⟩
    · exact h.queued m q hold
  · rcases get_set.mp hm with ⟨rfl, -, rfl⟩ | ⟨hne, hold⟩
    · exact ⟨nofun, nofun⟩
    · rw [h.arrived m q hold]
      exact ⟨fun hsome => by cases hsome; exact absurd rfl hne, nofun⟩
  · have htracked := tracked_put hp { p with phase := .handling } m
    change (d, m) ∈ Entries.set s.inFlightRequests c n ↔ s.correlation m = some d ∧
      State.tracked (s.put n { p with phase := .handling }) m
    rw [htracked, Entries.mem_set, h.flight d m]
    split_ifs with hm
    · subst hm
      constructor
      · rintro (hpair | ⟨⟨-, q, hq, ht⟩, -⟩)
        · cases hpair
          exact ⟨hc, rfl⟩
        · rw [hp, Option.some.injEq] at hq
          rw [← hq, hphase] at ht
          cases ht
      · rintro ⟨hd, -⟩
        rw [hc, Option.some.injEq] at hd
        exact .inl (by rw [hd])
    · constructor
      · rintro (hpair | ⟨hold, -⟩)
        · cases hpair
          exact absurd rfl hm
        · exact hold
      · intro hold
        refine .inr ⟨hold, fun hd => ?_⟩
        dsimp only at hd
        exact Entries.get_none.mp hnone (hd ▸ Entries.mem_keys ((h.flight d m).mpr hold))
  · have hne : d ≠ c := by
      rintro rfl
      exact hfree m hm (hd.trans hc.symm)
    rw [Entries.get_set_other h.flightKeys hne]
    exact h.apart m hm d hd
  · have hcount := active_put hp { p with phase := .handling }
    rw [hphase] at hcount
    have hactive := h.active
    change s.activeFeatures + 1 = _
    rw [hactive]
    exact hcount.symm
  · refine List.pairwise_append.mpr ⟨h.startOrder, List.pairwise_singleton _ _, ?_⟩
    intro a ha b hb
    rw [List.mem_singleton.mp hb]
    exact hstarts a ha
  · rcases List.mem_append.mp ha with hold | hnew
    · exact h.started a hold
    · rw [List.mem_singleton.mp hnew]
      exact ⟨hn, hnext⟩
  · obtain ⟨hlt, hold, hpending⟩ := h.expelled a ha
    refine ⟨hlt, fun hin => ?_, hpending⟩
    rcases List.mem_append.mp hin with hold' | hnew
    · exact hold hold'
    · exact hexpelled (List.mem_singleton.mp hnew ▸ ha)

theorem Core.enqueue (h : Core s (some n)) {f : Feature} (hn : n < s.arrivals.length)
    (hcorrelation : s.correlation n = some f.correlation) (hbytes : s.bytes n = f.bytes)
    (hid : Entries.get s.pendingFeatureIds f.correlation = none)
    (hflight : Entries.get s.inFlightRequests f.correlation = none)
    (hstarts : ∀ a ∈ s.starts, a < n) (hlast : ∀ b ∈ s.pendingFeatures, b < n)
    (hexpelled : n ∉ s.expelled) : Core (s.queue n f) none := by
  obtain ⟨p, hp⟩ := h.phase_of hn
  have hphase : p.phase = .arrived := (h.arrived n p hp).mpr rfl
  have hout : n ∉ s.pendingFeatures := fun hin => absurd (hlast n hin) (lt_irrefl _)
  rw [State.queue, enter_put hp]
  have hmem : ∀ m, m ∈ s.pendingFeatures ++ [n] ↔ m ∈ s.pendingFeatures ∨ m = n := fun m => by
    rw [List.mem_append, List.mem_singleton]
  refine ⟨by rw [State.put, List.length_set]; exact h.lengths, fun m q hm => ?_, fun m q hm => ?_,
    fun m hm => ?_, ?_, Entries.keys_set_nodup h.idKeys _ _, fun d m => ?_, ?_, h.flightKeys,
    fun d m => ?_, fun m hm d hd => ?_, ?_, h.limit, h.startOrder, fun a ha => ?_, fun a ha => ?_⟩
  · rw [hmem]
    rcases get_set.mp hm with ⟨rfl, -, rfl⟩ | ⟨hne, hold⟩
    · exact ⟨fun _ => .inr rfl, fun _ => rfl⟩
    · rw [h.queued m q hold]
      exact ⟨.inl, fun hor => hor.resolve_right hne⟩
  · rcases get_set.mp hm with ⟨rfl, -, rfl⟩ | ⟨hne, hold⟩
    · exact ⟨nofun, nofun⟩
    · rw [h.arrived m q hold]
      exact ⟨fun hsome => by cases hsome; exact absurd rfl hne, nofun⟩
  · rcases (hmem m).mp hm with hold | rfl
    · exact h.listed m hold
    · exact hn
  · refine List.pairwise_append.mpr ⟨h.order, List.pairwise_singleton _ _, ?_⟩
    intro a ha b hb
    rw [List.mem_singleton.mp hb]
    exact hlast a ha
  · rw [Entries.mem_set, h.ids d m, hmem]
    constructor
    · rintro (hpair | ⟨⟨hin, hd⟩, -⟩)
      · cases hpair
        exact ⟨.inr rfl, hcorrelation⟩
      · exact ⟨.inl hin, hd⟩
    · rintro ⟨hin | rfl, hd⟩
      · refine .inr ⟨⟨hin, hd⟩, fun heq => ?_⟩
        dsimp only at heq
        exact Entries.get_none.mp hid (heq ▸ Entries.mem_keys ((h.ids d m).mpr ⟨hin, hd⟩))
      · have hd' : s.correlation m = some d := hd
        rw [hcorrelation, Option.some.injEq] at hd'
        exact .inl (by rw [hd'])
  · change s.pendingFeatureBytes + f.bytes = ((s.pendingFeatures ++ [n]).map s.bytes).sum
    rw [List.map_append, List.sum_append, h.bytes, List.map_singleton, List.sum_singleton, hbytes]
  · exact (h.flight d m).trans (and_congr_right fun _ =>
      (untracked_put hp (by rw [hphase]; rfl) { p with phase := .queued } rfl).symm)
  · rcases (hmem m).mp hm with hold | rfl
    · exact h.apart m hold d hd
    · have hd' : s.correlation m = some d := hd
      rw [hcorrelation, Option.some.injEq] at hd'
      rw [← hd']
      exact hflight
  · have hcount := active_put hp { p with phase := .queued }
    rw [hphase] at hcount
    exact h.active.trans (Nat.add_right_cancel hcount).symm
  · obtain ⟨hlt, hbefore⟩ := h.started a ha
    refine ⟨hlt, fun b hb => ?_⟩
    rcases (hmem b).mp hb with hold | rfl
    · exact hbefore b hold
    · exact hstarts a ha
  · obtain ⟨hlt, hold, hpending⟩ := h.expelled a ha
    refine ⟨hlt, hold, fun hin => ?_⟩
    rcases (hmem a).mp hin with hin | rfl
    · exact hpending hin
    · exact hexpelled ha

end Moves

section Endings

variable {n : ℕ} {p : Progress} {now : ℤ}

theorem Core.finish (h : Core s none) (hp : s.progress[n]? = some p)
    (htracked : p.phase.tracked = true) (answers : List Reply) :
    ∃ c, s.correlation n = some c ∧ Entries.get s.inFlightRequests c = some n ∧
      Core { s.put n ⟨.settling, answers⟩ with
        inFlightRequests := Entries.delete s.inFlightRequests c } none := by
  have hlt := (List.getElem?_eq_some_iff.mp hp).1
  rw [h.lengths] at hlt
  obtain ⟨c, hc⟩ : ∃ c, s.correlation n = some c := by
    rw [State.correlation, List.getElem?_eq_getElem hlt]
    exact ⟨_, rfl⟩
  have hin := (h.flight c n).mpr ⟨hc, p, hp, htracked⟩
  have hqueued : p.phase ≠ .queued := fun heq => by rw [heq] at htracked; cases htracked
  have harrived : p.phase ≠ .arrived := fun heq => by rw [heq] at htracked; cases htracked
  have hactive : p.phase.active = true := by
    cases hphase : p.phase <;> rw [hphase] at htracked <;> first | rfl | cases htracked
  refine ⟨c, hc, Entries.get_of_mem h.flightKeys hin,
    by rw [State.put, List.length_set]; exact h.lengths, fun m q hm => ?_, fun m q hm => ?_,
    h.listed, h.order, h.idKeys, h.ids, h.bytes, Entries.keys_delete_nodup h.flightKeys c,
    fun d m => ?_, fun m hm d hd => ?_, ?_, h.limit, h.startOrder, h.started, h.expelled⟩
  · rcases get_set.mp hm with ⟨rfl, -, rfl⟩ | ⟨-, hold⟩
    · exact ⟨nofun, fun hmem => absurd ((h.queued m p hp).mpr hmem) hqueued⟩
    · exact h.queued m q hold
  · rcases get_set.mp hm with ⟨rfl, -, rfl⟩ | ⟨-, hold⟩
    · exact ⟨nofun, nofun⟩
    · exact h.arrived m q hold
  · have htrack := tracked_put hp ⟨.settling, answers⟩ m
    change (d, m) ∈ Entries.delete s.inFlightRequests c ↔ s.correlation m = some d ∧
      State.tracked (s.put n ⟨.settling, answers⟩) m
    rw [htrack, Entries.mem_delete, h.flight d m]
    split_ifs with heq
    · subst heq
      constructor
      · rintro ⟨⟨hd, -⟩, hne⟩
        rw [hc, Option.some.injEq] at hd
        exact absurd hd.symm hne
      · rintro ⟨-, hsettling⟩
        cases hsettling
    · constructor
      · exact fun hboth => hboth.1
      · refine fun hold => ⟨hold, fun hd => heq ?_⟩
        dsimp only at hd
        have hget := Entries.get_of_mem h.flightKeys ((h.flight d m).mpr hold)
        rw [hd, Entries.get_of_mem h.flightKeys hin, Option.some.injEq] at hget
        exact hget.symm
  · refine Entries.get_none.mpr fun hkey => Entries.get_none.mp (h.apart m hm d hd) ?_
    obtain ⟨e, he, hsame⟩ := List.mem_map.mp hkey
    exact List.mem_map.mpr ⟨e, (Entries.mem_delete.mp he).1, hsame⟩
  · have hcount := active_put hp ⟨.settling, answers⟩
    rw [hactive] at hcount
    exact h.active.trans (Nat.add_right_cancel hcount).symm

theorem finishRequest_eq {answers : List Reply} {q : Progress} {c : ProtocolId}
    (hp : s.progress[n]? = some p) (hc : s.correlation n = some c)
    (hin : Entries.get s.inFlightRequests c = some n) (hq : q.answers = answers) :
    (s.put n q).finishRequest n = { s.put n ⟨.settling, answers⟩ with
      inFlightRequests := Entries.delete s.inFlightRequests c } := by
  have hc' : (s.put n q).correlation n = some c := hc
  have hin' : Entries.get (s.put n q).inFlightRequests c = some n := hin
  rw [State.finishRequest, hc']
  dsimp only
  rw [if_pos hin', enter_put (put_get hp q), put_put, hq]
  rfl

theorem Core.settle (h : Core s none) (hp : s.progress[n]? = some p) (hphase : p.phase = .settling) :
    Core { s.enter n .done with activeFeatures := s.activeFeatures - 1 } none := by
  rw [enter_put hp]
  have hshift := active_put hp { p with phase := .done }
  rw [hphase] at hshift
  have hcount : s.progress.countP (fun q => q.phase.active) =
      (s.put n { p with phase := .done }).progress.countP (fun q => q.phase.active) + 1 :=
    hshift.symm
  have hactive := h.active
  have hlimit := h.limit
  refine ⟨by rw [State.put, List.length_set]; exact h.lengths, fun m q hm => ?_, fun m q hm => ?_,
    h.listed, h.order, h.idKeys, h.ids, h.bytes, h.flightKeys, fun d m => ?_, h.apart, ?_, ?_,
    h.startOrder, h.started, h.expelled⟩
  · rcases get_set.mp hm with ⟨rfl, -, rfl⟩ | ⟨-, hold⟩
    · refine ⟨nofun, fun hmem => ?_⟩
      have hqueued := (h.queued m p hp).mpr hmem
      rw [hphase] at hqueued
      cases hqueued
    · exact h.queued m q hold
  · rcases get_set.mp hm with ⟨rfl, -, rfl⟩ | ⟨-, hold⟩
    · exact ⟨nofun, nofun⟩
    · exact h.arrived m q hold
  · exact (h.flight d m).trans (and_congr_right fun _ =>
      (untracked_put hp (by rw [hphase]; rfl) { p with phase := .done } rfl).symm)
  · change s.activeFeatures - 1 =
      (s.put n { p with phase := .done }).progress.countP fun q => q.phase.active
    rw [hactive, hcount, Nat.add_sub_cancel]
  · change s.activeFeatures - 1 ≤ maxInFlightFeatures
    omega

end Endings

section Draining

variable {n : ℕ} {now : ℤ}

/-- What taking a request off the queue leaves. -/
structure Took (s s' : State) (n : ℕ) : Prop where
  open_ : s'.isOpen = s.isOpen
  pending : s'.pendingFeatures = s.pendingFeatures.erase n

theorem remove_took (hn : n ∈ s.pendingFeatures) : Took s (s.removePendingFeature n) n := by
  obtain ⟨progress, hrest⟩ := enter_rest s n .arrived
  rw [State.removePendingFeature, if_pos hn, hrest]
  exact ⟨rfl, rfl⟩

theorem expel_took (hn : n ∈ s.pendingFeatures) (reply : Reply) : Took s (s.expel n reply) n := by
  obtain ⟨progress, hrest⟩ := enter_rest (s.removePendingFeature n) n (.answering reply false)
  have htook := remove_took hn
  rw [State.expel, hrest]
  exact ⟨htook.open_, htook.pending⟩

theorem dispatch_rest (s : State) (n : ℕ) : (s.dispatchFeature n).isOpen = s.isOpen ∧
    (s.dispatchFeature n).pendingFeatures = s.pendingFeatures := by
  rw [State.dispatchFeature]
  split
  · exact ⟨rfl, rfl⟩
  · dsimp only
    split
    · obtain ⟨progress, hrest⟩ := enter_rest { s with activeFeatures := s.activeFeatures + 1 } n
        (.answering .duplicate true)
      rw [hrest]
      exact ⟨rfl, rfl⟩
    · obtain ⟨progress, hrest⟩ := enter_rest { s with activeFeatures := s.activeFeatures + 1 } n
        .handling
      rw [hrest]
      exact ⟨rfl, rfl⟩

theorem drainOne_took (hn : n ∈ s.pendingFeatures) (now : ℤ) : Took s (s.drainOne now n) n := by
  rw [State.drainOne]
  split
  · exact expel_took hn _
  · have htook := remove_took hn
    obtain ⟨hopen, hpending⟩ := dispatch_rest (s.removePendingFeature n) n
    exact ⟨hopen.trans htook.open_, hpending.trans htook.pending⟩

theorem Core.drainOne (h : Core s none) {rest : List ℕ} (hqueue : s.pendingFeatures = n :: rest)
    (hplace : s.activeFeatures < maxInFlightFeatures) : Core (s.drainOne now n) none := by
  have hn : n ∈ s.pendingFeatures := by
    rw [hqueue]
    exact List.mem_cons_self
  rw [State.drainOne]
  split
  · exact h.expel hn _
  · obtain ⟨p, hp⟩ := h.phase_of (h.listed n hn)
    obtain ⟨c, hc⟩ : ∃ c, s.correlation n = some c := by
      rw [State.correlation, List.getElem?_eq_getElem (h.listed n hn)]
      exact ⟨_, rfl⟩
    have htaken := h.take hn
    have htake := take_eq hn hp hc
    have hmem : ∀ m ∈ s.pendingFeatures.erase n, m ≠ n ∧ m ∈ s.pendingFeatures :=
      fun m hm => h.nodup.mem_erase_iff.mp hm
    refine htaken.dispatch ?_ ?_ ?_ ?_ ?_ ?_ ?_
    · rw [take_arrivals]
      exact h.listed n hn
    · rw [htake]
      exact hplace
    · rw [htake]
      exact fun d hd => h.apart n hn d hd
    · rw [htake]
      intro m hm heq
      obtain ⟨hne, hin⟩ := hmem m hm
      exact hne (h.distinct hin hn (heq.trans hc) hc)
    · rw [htake]
      exact fun a ha => (h.started a ha).2 n hn
    · rw [htake]
      intro b hb
      have horder := h.order
      rw [hqueue, List.pairwise_cons] at horder
      refine horder.1 b ?_
      have hb' : b ∈ s.pendingFeatures.erase n := hb
      rwa [hqueue, List.erase_cons_head] at hb'
    · rw [htake]
      exact fun ha => (h.expelled n ha).2.2 hn

theorem drain_core (rounds : ℕ) (h : Core s none) : Core (State.drain now rounds s) none := by
  induction rounds generalizing s with
  | zero => exact h
  | succ rounds ih =>
    rw [State.drain]
    split_ifs with hgo
    · rcases hqueue : s.pendingFeatures with _ | ⟨n, rest⟩
      · exact h
      · exact ih (h.drainOne hqueue hgo.2)
    · exact h

theorem drain_full {rounds : ℕ} (h : Core s none) (hrounds : s.pendingFeatures.length ≤ rounds)
    (hopen : s.isOpen = true) (hwaits : (State.drain now rounds s).pendingFeatures ≠ []) :
    (State.drain now rounds s).activeFeatures = maxInFlightFeatures := by
  induction rounds generalizing s with
  | zero => exact absurd (List.length_eq_zero_iff.mp (Nat.le_zero.mp hrounds)) hwaits
  | succ rounds ih =>
    rw [State.drain] at hwaits ⊢
    by_cases hgo : s.isOpen = true ∧ s.activeFeatures < maxInFlightFeatures
    · rw [if_pos hgo] at hwaits ⊢
      rcases hqueue : s.pendingFeatures with _ | ⟨n, rest⟩
      · rw [hqueue] at hwaits
        exact absurd hqueue hwaits
      · rw [hqueue] at hwaits
        dsimp only at hwaits ⊢
        have hn : n ∈ s.pendingFeatures := by
          rw [hqueue]
          exact List.mem_cons_self
        have htook := drainOne_took hn now
        refine ih (h.drainOne hqueue hgo.2) ?_ (htook.open_.trans hopen) hwaits
        rw [htook.pending, hqueue, List.erase_cons_head]
        rw [hqueue, List.length_cons] at hrounds
        omega
    · rw [if_neg hgo] at hwaits ⊢
      rw [not_and] at hgo
      have hlimit := h.limit
      have hmany := hgo hopen
      omega

theorem Core.drained (h : Core s none) (hopen : s.isOpen = true) : Sound (s.drainFeatures now) :=
  { drain_core _ h with full := drain_full h le_rfl hopen }

end Draining

section Steps

variable {n : ℕ} {p : Progress} {now : ℤ} {maxBytes : ℕ}

@[simp] theorem enter_isOpen (s : State) (n : ℕ) (phase : Phase) :
    (s.enter n phase).isOpen = s.isOpen := by
  obtain ⟨progress, hrest⟩ := enter_rest s n phase
  rw [hrest]

@[simp] theorem answer_isOpen (s : State) (n : ℕ) (reply : Reply) :
    (s.answer n reply).isOpen = s.isOpen := by
  rw [State.answer]
  split
  · rfl
  · rfl

@[simp] theorem finishRequest_isOpen (s : State) (n : ℕ) :
    (s.finishRequest n).isOpen = s.isOpen := by
  rw [State.finishRequest]
  split
  · rfl
  · split_ifs
    · simp
    · simp

@[simp] theorem removePendingFeature_isOpen (s : State) (n : ℕ) :
    (s.removePendingFeature n).isOpen = s.isOpen := by
  rw [State.removePendingFeature]
  split_ifs
  · simp
  · rfl

@[simp] theorem expel_isOpen (s : State) (n : ℕ) (reply : Reply) :
    (s.expel n reply).isOpen = s.isOpen := by
  simp [State.expel]

theorem drain_isOpen (rounds : ℕ) (s : State) : (State.drain now rounds s).isOpen = s.isOpen := by
  induction rounds generalizing s with
  | zero => rfl
  | succ rounds ih =>
    rw [State.drain]
    split_ifs
    · split
      · rw [ih, State.drainOne]
        split_ifs
        · simp
        · rw [(dispatch_rest _ _).1]
          simp
      · rfl
    · rfl

theorem step_isOpen (s : State) (input : Input) (hopen : (step maxBytes s input).isOpen = true) :
    s.isOpen = true := by
  cases input with
  | feature f now =>
    rw [step, State.processEnvelope] at hopen
    split_ifs at hopen with h
    · exact h
    · exact h
    · exact absurd hopen h
  | cancel correlation =>
    rw [step] at hopen
    split_ifs at hopen with h
    · exact h
    · exact hopen
  | handled n outcome =>
    rw [step, State.handled.eq_def] at hopen
    split at hopen
    · split at hopen
      · simpa using hopen
      · simpa using hopen
    · exact hopen
  | sent n accepted =>
    rw [step, State.sent] at hopen
    split at hopen
    · split_ifs at hopen
      · simpa using hopen
      · simpa using hopen
      · simpa using hopen
    · split_ifs at hopen
      · simpa using hopen
      · simpa using hopen
    · dsimp only at hopen
      split_ifs at hopen
      · simpa using hopen
      · simpa using hopen
      · simpa using hopen
      · simpa using hopen
    · exact hopen
  | activated n succeeded =>
    rw [step, State.activated] at hopen
    split at hopen
    · split_ifs at hopen
      · simpa using hopen
      · simpa using hopen
    · exact hopen
  | settled n now =>
    rw [step, State.settled] at hopen
    split at hopen
    · rw [State.drainFeatures, drain_isOpen] at hopen
      simpa using hopen
    · exact hopen
  | timer n now =>
    rw [step, State.timer] at hopen
    split at hopen
    · split_ifs at hopen
      · simpa using hopen
      · exact hopen
    · exact hopen
  | close => cases hopen

theorem Sound.keep (h : Sound s) {s' : State} (hcore : Core s' none)
    (hpending : s'.pendingFeatures = s.pendingFeatures)
    (hactive : s'.activeFeatures = s.activeFeatures) : Sound s' :=
  { hcore with full := fun hwaits => by rw [hactive]; exact h.full (by rwa [hpending] at hwaits) }

theorem Sound.shift (h : Sound s) (hp : s.progress[n]? = some p) {q : Progress}
    (hqueued : p.phase ≠ .queued) (harrived : q.phase ≠ .arrived) (hqueued' : q.phase ≠ .queued)
    (htracked : q.phase.tracked = p.phase.tracked) (hactive : q.phase.active = p.phase.active) :
    Sound (s.put n q) := by
  refine h.keep (h.toCore.shift hp hqueued hqueued' htracked hactive fun m => ?_) rfl rfl
  split_ifs with heq
  · exact ⟨nofun, fun hno => absurd hno harrived⟩
  · rfl

theorem Sound.finish (h : Sound s) (hp : s.progress[n]? = some p)
    (htracked : p.phase.tracked = true) {q : Progress} : Sound ((s.put n q).finishRequest n) := by
  obtain ⟨c, hc, hin, hcore⟩ := h.toCore.finish hp htracked q.answers
  rw [finishRequest_eq hp hc hin rfl]
  exact h.keep hcore rfl rfl

theorem Sound.expel (h : Sound s) (hn : n ∈ s.pendingFeatures) (reply : Reply) :
    Sound (s.expel n reply) := by
  have htook := expel_took hn reply
  obtain ⟨p, hp⟩ := h.phase_of (h.listed n hn)
  obtain ⟨progress, hrest⟩ := enter_rest (s.removePendingFeature n) n (.answering reply false)
  obtain ⟨progress', hrest'⟩ := enter_rest s n .arrived
  have hactive : (s.expel n reply).activeFeatures = s.activeFeatures := by
    rw [State.expel, hrest, State.removePendingFeature, if_pos hn, hrest']
  refine { h.toCore.expel hn reply with full := fun _ => ?_ }
  rw [hactive]
  exact h.full (List.ne_nil_of_mem hn)

theorem Sound.processEnvelope (h : Sound s) (f : Feature)
    (hopen : (s.processEnvelope maxBytes f now).isOpen = true) :
    Sound (s.processEnvelope maxBytes f now) := by
  rw [State.processEnvelope] at hopen ⊢
  split_ifs at hopen ⊢ with hs hping
  · obtain ⟨progress, hrest⟩ := enter_rest (s.arrive f now) s.arrivals.length (.answering .result false)
    have hcore := (h.toCore.arrive f now).answering (by simp [State.arrive]) .result
    exact h.keep hcore (by rw [hrest]; rfl) (by rw [hrest]; rfl)
  · have harrive := h.toCore.arrive f now
    have hn : s.arrivals.length < (s.arrive f now).arrivals.length := by simp [State.arrive]
    have hc := arrived_correlation s f now
    have hstarts : ∀ a ∈ s.starts, a < s.arrivals.length := fun a ha => (h.started a ha).1
    have hexpelled : s.arrivals.length ∉ s.expelled :=
      fun hin => absurd (h.expelled _ hin).1 (lt_irrefl _)
    rw [State.admitFeature] at hopen ⊢
    split_ifs at hopen ⊢ with hdup hfree hover
    · obtain ⟨progress, hrest⟩ :=
        enter_rest (s.arrive f now) s.arrivals.length (.answering .duplicate false)
      have hcore := harrive.answering hn .duplicate
      exact h.keep hcore (by rw [hrest]; rfl) (by rw [hrest]; rfl)
    · rw [Bool.or_eq_true, not_or, Option.not_isSome_iff_eq_none, Option.not_isSome_iff_eq_none] at hdup
      have hnone : s.pendingFeatures = [] := hfree.2
      have hcore := harrive.dispatch hn hfree.1
        (fun d hd => by
          rw [hc, Option.some.injEq] at hd
          rw [← hd]
          exact hdup.2)
        (fun m hm => by
          have hm' : m ∈ s.pendingFeatures := hm
          rw [hnone] at hm'
          cases hm')
        hstarts
        (fun b hb => by
          have hb' : b ∈ s.pendingFeatures := hb
          rw [hnone] at hb'
          cases hb')
        hexpelled
      refine { hcore with full := fun hwaits => absurd ?_ hwaits }
      rw [(dispatch_rest _ _).2]
      exact hnone
    · cases hopen
    · rw [Bool.or_eq_true, not_or, Option.not_isSome_iff_eq_none, Option.not_isSome_iff_eq_none] at hdup
      have hcore := harrive.enqueue hn hc (arrived_bytes s f now) hdup.1 hdup.2 hstarts h.listed
        hexpelled
      have hlimit := h.limit
      obtain ⟨progress, hrest⟩ := enter_rest (s.arrive f now) s.arrivals.length .queued
      have hactive : ((s.arrive f now).queue s.arrivals.length f).activeFeatures =
          s.activeFeatures := by
        rw [State.queue, hrest]
        rfl
      refine { hcore with full := fun _ => ?_ }
      rw [hactive]
      by_cases hqueue : s.pendingFeatures = []
      · have hmany : ¬ s.activeFeatures < maxInFlightFeatures := fun hlt => hfree ⟨hlt, hqueue⟩
        omega
      · exact h.full hqueue
  · exact h

theorem phase_get {phase : Phase} (h : (s.progress[n]?).map Progress.phase = some phase) :
    ∃ answers, s.progress[n]? = some ⟨phase, answers⟩ := by
  rw [Option.map_eq_some_iff] at h
  obtain ⟨p, hp, rfl⟩ := h
  exact ⟨p.answers, hp⟩

theorem Sound.sent (h : Sound s) (n : ℕ) (accepted : Bool) : Sound (s.sent n accepted) := by
  rw [State.sent]
  split
  · rename_i ok hphase
    obtain ⟨answers, hp⟩ := phase_get hphase
    have hanswer := answer_put hp .result
    split_ifs
    · rw [hanswer, enter_put (put_get hp _), put_put]
      exact h.shift hp nofun nofun nofun rfl rfl
    · rw [hanswer]
      exact h.finish hp rfl
    · rw [enter_put hp]
      exact h.shift hp nofun nofun nofun rfl rfl
  · rename_i hphase
    obtain ⟨answers, hp⟩ := phase_get hphase
    split_ifs
    · rw [answer_put hp]
      exact h.finish hp rfl
    · rw [← put_self hp]
      exact h.finish hp rfl
  · rename_i reply dispatched hphase
    obtain ⟨answers, hp⟩ := phase_get hphase
    have hanswer := answer_put hp reply
    dsimp only
    cases dispatched with
    | true =>
      rw [if_pos rfl]
      split_ifs
      · rw [hanswer, enter_put (put_get hp _), put_put]
        exact h.shift hp nofun nofun nofun rfl rfl
      · rw [enter_put hp]
        exact h.shift hp nofun nofun nofun rfl rfl
    | false =>
      rw [if_neg Bool.false_ne_true]
      split_ifs
      · rw [hanswer, enter_put (put_get hp _), put_put]
        exact h.shift hp nofun nofun nofun rfl rfl
      · rw [enter_put hp]
        exact h.shift hp nofun nofun nofun rfl rfl
  · exact h

theorem step_sound {input : Input} (h : Sound s) (hopen : (step maxBytes s input).isOpen = true) :
    Sound (step maxBytes s input) := by
  have hs := step_isOpen s input hopen
  cases input with
  | feature f now => exact h.processEnvelope f hopen
  | cancel correlation =>
    rw [step, if_pos hs, State.cancelRequest]
    rcases hget : Entries.get s.pendingFeatureIds correlation with _ | n
    · exact h
    · exact h.expel ((h.ids correlation n).mp (Entries.mem_of_get hget)).1 .cancelled
  | handled n outcome =>
    rw [step, State.handled.eq_def]
    split
    · rename_i hphase
      obtain ⟨answers, hp⟩ := phase_get hphase
      rcases outcome with _ | ok
      · dsimp only
        rw [enter_put hp]
        exact h.shift hp nofun nofun nofun rfl rfl
      · dsimp only
        rw [enter_put hp]
        exact h.shift hp nofun nofun nofun rfl rfl
    · exact h
  | sent n accepted => exact h.sent n accepted
  | activated n succeeded =>
    rw [step, State.activated]
    split
    · rename_i hphase
      obtain ⟨answers, hp⟩ := phase_get hphase
      split_ifs
      · rw [← put_self hp]
        exact h.finish hp rfl
      · rw [enter_put hp]
        exact h.shift hp nofun nofun nofun rfl rfl
    · exact h
  | settled n now =>
    rw [step, State.settled]
    split
    · rename_i hphase
      obtain ⟨answers, hp⟩ := phase_get hphase
      exact (h.toCore.settle hp rfl).drained (by simpa using hs)
    · exact h
  | timer n now =>
    rw [step, State.timer]
    split
    · split_ifs with hfires
      · exact h.expel hfires.1 .deadline
      · exact h
    · exact h
  | close => cases hopen

end Steps

end Terminay.Protocol.Inbound
