import Terminay.Terminal.Checkpoint

/-!
# A pin and its tail are the terminal

A display that is restored from a pin and its tail is where the emulator is after every event
admitted so far, as long as the serialized state of a safe boundary restores it.
-/

namespace Terminay.Terminal
open Script

variable {ε : Type}

section Events

def Tiles : ℕ → List TailEvent → ℕ → Prop
  | position, [], stop => position = stop
  | position, .output start next bytes :: events, stop =>
    start = position ∧ next = position + bytes.length ∧ Tiles next events stop
  | position, .resize start _ :: events, stop => start = position ∧ Tiles position events stop

def number : ℕ → List TailEvent → List TailRecord
  | _, [] => []
  | k, event :: events => ⟨k + 1, event⟩ :: number (k + 1) events

def scan (events : List TailEvent) : SafeBoundaryScanner :=
  events.foldl (fun s event => match event with
    | .output _ _ bytes => s.ingest bytes
    | .resize _ _ => s) .initial

def Emulator.take (E : Emulator ε) (e : ε) : TailEvent → ε
  | .output _ _ bytes => E.write e bytes
  | .resize _ dimensions => E.resize e dimensions

def Emulator.replay (E : Emulator ε) (e : ε) (events : List TailEvent) : ε := events.foldl E.take e

def Emulator.Start (E : Emulator ε) (e : ε) : Prop :=
  ∃ dimensions, e = E.blank dimensions ∨ ∃ state, e = E.restore dimensions state

/-- Writing keeps the grid, resizing sets it, and what is serialized where no sequence is pending
restores the emulator. -/
structure Emulator.Faithful (E : Emulator ε) : Prop where
  grid_blank : ∀ dimensions, E.grid (E.blank dimensions) = dimensions
  grid_write : ∀ e bytes, E.grid (E.write e bytes) = E.grid e
  grid_resize : ∀ e dimensions, E.grid (E.resize e dimensions) = dimensions
  grid_restore : ∀ dimensions state, E.grid (E.restore dimensions state) = dimensions
  restores : ∀ e events, E.Start e → (scan events).safe = true →
    E.restore (E.grid (E.replay e events)) (E.serialize (E.replay e events)) = E.replay e events

variable {k p q r : ℕ} {xs ys : List TailEvent} {event : TailEvent}

theorem Tiles.append (h : Tiles p xs q) (h' : Tiles q ys r) : Tiles p (xs ++ ys) r := by
  induction xs generalizing p with
  | nil =>
    rw [show p = q from h]
    exact h'
  | cons event xs ih =>
    cases event with
    | output start next bytes => exact ⟨h.1, h.2.1, ih h.2.2⟩
    | resize start dimensions => exact ⟨h.1, ih h.2⟩

theorem Tiles.split (h : Tiles p (xs ++ ys) r) : ∃ q, Tiles p xs q ∧ Tiles q ys r := by
  induction xs generalizing p with
  | nil => exact ⟨p, rfl, h⟩
  | cons event xs ih =>
    cases event with
    | output start next bytes =>
      obtain ⟨q, hxs, hys⟩ := ih h.2.2
      exact ⟨q, ⟨h.1, h.2.1, hxs⟩, hys⟩
    | resize start dimensions =>
      obtain ⟨q, hxs, hys⟩ := ih h.2
      exact ⟨q, ⟨h.1, hxs⟩, hys⟩

theorem Tiles.unique (h : Tiles p xs q) (h' : Tiles p xs r) : q = r := by
  induction xs generalizing p with
  | nil => exact h.symm.trans h'
  | cons event xs ih =>
    cases event with
    | output start next bytes => exact ih h.2.2 h'.2.2
    | resize start dimensions => exact ih h.2 h'.2

theorem Tiles.drop (h : Tiles p xs r) (k : ℕ) (hk : Tiles p (xs.take k) q) :
    Tiles q (xs.drop k) r := by
  rw [← List.take_append_drop k xs] at h
  obtain ⟨q', htake, hdrop⟩ := h.split
  rw [hk.unique htake]
  exact hdrop

theorem number_append : number k (xs ++ [event]) = number k xs ++ [⟨k + xs.length + 1, event⟩] := by
  induction xs generalizing k with
  | nil => rfl
  | cons x xs ih =>
    rw [List.cons_append, number, ih, number, List.cons_append, List.length_cons]
    simp only [Nat.add_assoc, Nat.add_comm 1]

theorem number_events : (number k xs).map TailRecord.event = xs := by
  induction xs generalizing k with
  | nil => rfl
  | cons x xs ih => rw [number, List.map_cons, ih]

theorem number_above {record : TailRecord} (h : record ∈ number k xs) : k < record.sequence := by
  induction xs generalizing k with
  | nil => cases h
  | cons x xs ih =>
    rcases List.mem_cons.mp h with rfl | h
    · exact Nat.lt_succ_self k
    · have := ih h
      omega

theorem number_filter {m : ℕ} (h : k ≤ m) :
    ((number k xs).filter fun record => m < record.sequence) = number m (xs.drop (m - k)) := by
  induction xs generalizing k with
  | nil =>
    rw [List.drop_nil]
    rfl
  | cons x xs ih =>
    rcases h.eq_or_lt with rfl | hlt
    · rw [Nat.sub_self, List.drop_zero]
      exact List.filter_eq_self.mpr fun record hrecord => decide_eq_true (number_above hrecord)
    · have hdrop : (x :: xs).drop (m - k) = xs.drop (m - (k + 1)) := by
        rw [show m - k = m - (k + 1) + 1 by omega, List.drop_succ_cons]
      rw [number, List.filter_cons_of_neg (by simp only [decide_eq_true_eq]; omega), ih hlt, hdrop]

theorem replay_append (E : Emulator ε) (e : ε) (xs ys : List TailEvent) :
    E.replay e (xs ++ ys) = E.replay (E.replay e xs) ys :=
  List.foldl_append

theorem scan_concat_output (position next : ℕ) (bytes : Bytes) :
    scan (xs ++ [.output position next bytes]) = (scan xs).ingest bytes :=
  List.foldl_append

theorem scan_concat_resize (position : ℕ) (dimensions : TerminalDimensions) :
    scan (xs ++ [.resize position dimensions]) = scan xs :=
  List.foldl_append

def queuedDimensions (queue : List TailRecord) : Option TerminalDimensions :=
  (queue.filterMap fun record => match record.event with
    | .resize _ dimensions => some dimensions
    | .output _ _ _ => none).getLast?

theorem grid_replay {E : Emulator ε} (hE : E.Faithful) (e : ε) :
    E.grid (E.replay e xs) = (queuedDimensions (number k xs)).getD (E.grid e) := by
  induction xs generalizing k e with
  | nil => rfl
  | cons x xs ih =>
    have hrest := ih (k := k + 1) (E.take e x)
    have hreplay : E.replay e (x :: xs) = E.replay (E.take e x) xs := rfl
    rw [hreplay, hrest]
    cases x with
    | output position next bytes =>
      rw [Emulator.take, hE.grid_write]
      rfl
    | resize position dimensions =>
      rw [Emulator.take, hE.grid_resize, queuedDimensions, queuedDimensions, number]
      simp only [List.filterMap_cons]
      rw [List.getLast?_cons]
      rfl

end Events

/-- A pin of the events admitted so far: its tail tiles the way from the pin to the head with
those events that its state does not have, dropped ones are in the state, and the two restore the
emulator with the grid that the pin names. -/
structure CheckpointPin.Restores (E : Emulator ε) (s : CheckpointSession ε) (pin : CheckpointPin) :
    Prop where
  through : pin.through ≤ s.admitted.length
  tail : pin.tail = (s.admitted.take pin.through).drop pin.sequence
  tiles : Tiles pin.position pin.tail pin.headPosition
  dropped : ∀ d ∈ s.dropped, d ≤ pin.through → d ≤ pin.sequence
  emulator : E.replay (E.restore pin.checkpointDimensions pin.state) pin.tail =
    E.replay s.base (s.admitted.take pin.through)
  grid : E.grid (E.replay (E.restore pin.checkpointDimensions pin.state) pin.tail) = pin.dimensions

def CheckpointSession.Settled (s : CheckpointSession ε) : CheckpointInput → Prop
  | .resume n _ => ∀ admitted ∈ s.waiting[n]?, s.restoring = none → admitted ≤ s.finished →
      (queuedDimensions s.queue).getD s.dimensions = s.dimensions
  | _ => True

instance (s : CheckpointSession ε) : (input : CheckpointInput) → Decidable (s.Settled input)
  | .resume n _ => inferInstanceAs (Decidable (∀ admitted ∈ s.waiting[n]?, s.restoring = none →
      admitted ≤ s.finished → (queuedDimensions s.queue).getD s.dimensions = s.dimensions))
  | .ingestOutput _ _ | .ingestResize _ | .parsed _ _ | .prepare _ | .release _ | .invalidate =>
    .isTrue trivial

section Invariant
variable {E : Emulator ε} {limits : CheckpointLimits} {start : ℕ} {s t : CheckpointSession ε}

namespace CheckpointSession

structure Follows (E : Emulator ε) (limits : CheckpointLimits) (start : ℕ)
    (s : CheckpointSession ε) : Prop where
  counted : s.nextTailSequence = s.admitted.length
  bounded : s.finished ≤ s.admitted.length
  queue : s.queue = number s.finished (s.admitted.drop s.finished)
  processed : s.processedTailSequence = s.finished
  output : Tiles start s.admitted s.outputPosition
  position : Tiles start (s.admitted.take s.finished) s.processedPosition
  covered : s.sequence ≤ s.finished
  checkpointed : Tiles start (s.admitted.take s.sequence) s.checkpointPosition
  scanner : s.safeScanner = scan (s.admitted.take s.finished)
  grid : s.dimensions = E.grid s.emulator
  base : E.Start s.base
  emulator : s.restoring = none → s.emulator = E.replay s.base (s.admitted.take s.finished)
  restored : s.restoring = none → E.restore s.checkpointDimensions s.checkpointState =
    E.replay s.base (s.admitted.take s.sequence)
  restoring : ∀ state ∈ s.restoring, s.finished = 0 ∧ s.dimensions = s.checkpointDimensions ∧
    s.base = E.restore s.checkpointDimensions state
  retained : s.tailOverflowed = false → s.unretainedThroughSequence = 0 ∧
    s.tail = number s.sequence (s.admitted.drop s.sequence) ∧ ∀ d ∈ s.dropped, d ≤ s.sequence
  overflowed : s.tailOverflowed = true → s.unretainedThroughSequence = s.admitted.length
  below : ∀ record ∈ s.tail, record.sequence ≤ s.admitted.length
  dropped : ∀ d ∈ s.dropped, d ≤ s.admitted.length
  tailBytes : s.tailBytes = (s.tail.map fun record => record.event.byteLength).sum
  tailFits : s.tailBytes ≤ limits.maxTailBytes ∧ s.tail.length ≤ limits.maxTailEvents

theorem create_follows (hE : E.Faithful) {dimensions : TerminalDimensions} {now : ℤ}
    {recovered : Option Bytes} (h : create E limits dimensions start now recovered = some s) :
    Follows E limits start s ∧ s.prepared = [] := by
  rw [create.eq_def] at h
  split_ifs at h
  cases h
  have hgrid := (hE.grid_blank dimensions).symm
  refine ⟨⟨rfl, le_rfl, rfl, rfl, rfl, rfl, le_rfl, rfl, rfl, hgrid, ?_, fun hnone => ?_, fun hnone => ?_,
    fun state hstate => ?_, fun _ => ⟨rfl, rfl, nofun⟩, nofun, nofun, nofun, rfl, Nat.zero_le _,
    Nat.zero_le _⟩, rfl⟩
  · rcases recovered with _ | state
    · exact ⟨dimensions, .inl rfl⟩
    · exact ⟨dimensions, .inr ⟨state, rfl⟩⟩
  · have hnone' : recovered = none := hnone
    subst hnone'
    rfl
  · have hnone' : recovered = none := hnone
    subst hnone'
    have hblank := hE.restores (E.blank dimensions) [] ⟨dimensions, .inl rfl⟩ rfl
    have hsame : E.restore (E.grid (E.blank dimensions)) (E.serialize (E.blank dimensions)) =
      E.blank dimensions := hblank
    rw [hE.grid_blank] at hsame
    exact hsame
  · have hstate' : recovered = some state := hstate
    subst hstate'
    exact ⟨rfl, rfl, rfl⟩

theorem take_concat_le {α : Type} {l : List α} {a : α} {k : ℕ} (h : k ≤ l.length) :
    (l ++ [a]).take k = l.take k :=
  List.take_append_of_le_length h

theorem drop_concat_le {α : Type} {l : List α} {a : α} {k : ℕ} (h : k ≤ l.length) :
    (l ++ [a]).drop k = l.drop k ++ [a] :=
  List.drop_append_of_le_length h

theorem number_drop_concat {l : List TailEvent} {event : TailEvent} {k : ℕ} (h : k ≤ l.length) :
    number k ((l ++ [event]).drop k) = number k (l.drop k) ++ [⟨l.length + 1, event⟩] := by
  rw [drop_concat_le h, number_append, List.length_drop, Nat.add_sub_cancel' h]

theorem Follows.appendTail (h : Follows E limits start s) (queued : ℕ) {event : TailEvent} {stop : ℕ}
    (hevent : Tiles s.outputPosition [event] stop) :
    Follows E limits start (appendTail { s with outputPosition := stop, queuedBytes := queued }
      limits event) := by
  have hcovered := h.covered.trans h.bounded
  have hqueue : s.queue ++ [⟨s.nextTailSequence + 1, event⟩] =
      number s.finished ((s.admitted ++ [event]).drop s.finished) := by
    rw [number_drop_concat h.bounded, h.queue, h.counted]
  have hlength : (s.admitted ++ [event]).length = s.admitted.length + 1 := List.length_append
  have hcounted : s.nextTailSequence + 1 = (s.admitted ++ [event]).length := by
    rw [hlength, h.counted]
  have hbounded : s.finished ≤ (s.admitted ++ [event]).length := by
    have := h.bounded
    omega
  have hposition := h.position
  have hcheckpointed := h.checkpointed
  have hscanner := h.scanner
  have hemulator := h.emulator
  have hrestored := h.restored
  rw [← take_concat_le (a := event) h.bounded] at hposition hscanner hemulator
  rw [← take_concat_le (a := event) hcovered] at hcheckpointed hrestored
  rw [CheckpointSession.appendTail]
  dsimp only
  split_ifs with hfits
  · obtain ⟨hopen, hfew, hbytes⟩ := hfits
    obtain ⟨hunretained, htail, hdropped⟩ := h.retained hopen
    refine ⟨hcounted, hbounded, hqueue, h.processed, h.output.append hevent, hposition, h.covered,
      hcheckpointed, hscanner, h.grid, h.base, hemulator, hrestored, h.restoring,
      fun _ => ⟨hunretained, ?_, hdropped⟩, fun hover => ?_, fun record hrecord => ?_, fun d hd => ?_,
      ?_, hbytes, ?_⟩
    · dsimp only
      rw [number_drop_concat hcovered, htail, h.counted]
    · have hover' : s.tailOverflowed = true := hover
      rw [hopen] at hover'
      cases hover'
    · dsimp only
      rcases List.mem_append.mp hrecord with hold | hnew
      · have := h.below record hold
        omega
      · rw [List.mem_singleton.mp hnew]
        exact hcounted.le
    · have := h.dropped d hd
      dsimp only
      omega
    · dsimp only
      rw [h.tailBytes, List.map_append, List.sum_append]
      rfl
    · dsimp only
      rw [List.length_append, List.length_singleton]
      exact hfew
  · refine ⟨hcounted, hbounded, hqueue, h.processed, h.output.append hevent, hposition, h.covered,
      hcheckpointed, hscanner, h.grid, h.base, hemulator, hrestored, h.restoring, nofun,
      fun _ => hcounted, fun record hrecord => ?_, fun d hd => ?_, h.tailBytes, h.tailFits⟩
    · have := h.below record hrecord
      dsimp only
      omega
    · dsimp only
      rcases List.mem_append.mp hd with hold | hnew
      · have := h.dropped d hold
        omega
      · rw [List.mem_singleton.mp hnew]
        exact hcounted.le

theorem filter_sum_le (p : TailRecord → Bool) (tail : List TailRecord) :
    ((tail.filter p).map fun record => record.event.byteLength).sum ≤
      (tail.map fun record => record.event.byteLength).sum := by
  induction tail with
  | nil => exact le_rfl
  | cons record tail ih =>
    rw [List.map_cons, List.sum_cons, List.filter_cons]
    split_ifs
    · rw [List.map_cons, List.sum_cons]
      omega
    · omega

theorem Follows.snapshot (hE : E.Faithful) (h : Follows E limits start s) (hdone : s.restoring = none)
    {now : ℤ} (ht : snapshot E s limits s.finished now = some t) : Follows E limits start t := by
  rw [CheckpointSession.snapshot] at ht
  dsimp only at ht
  by_cases hsafe : s.safeScanner.safe = false
  · rw [if_pos hsafe] at ht
    cases ht
    exact h
  rw [if_neg hsafe] at ht
  by_cases hlarge : limits.maxSnapshotBytes < (E.serialize s.emulator).length
  · rw [if_pos hlarge] at ht
    cases ht
  rw [if_neg hlarge] at ht
  cases ht
  obtain ⟨hbytes, hfew⟩ := h.tailFits
  have hbytes' : ((s.tail.filter fun record => decide (s.finished < record.sequence)).map
      fun record => record.event.byteLength).sum ≤ limits.maxTailBytes := by
    refine (filter_sum_le _ _).trans ?_
    rw [← h.tailBytes]
    exact hbytes
  have hfew' : (s.tail.filter fun record => decide (s.finished < record.sequence)).length ≤
      limits.maxTailEvents := (List.length_filter_le _ _).trans hfew
  have hemulator := h.emulator hdone
  have hrestores : E.restore s.dimensions (E.serialize s.emulator) =
      E.replay s.base (s.admitted.take s.finished) := by
    rw [Bool.not_eq_false, h.scanner] at hsafe
    rw [h.grid, hemulator]
    exact hE.restores _ _ h.base hsafe
  have hover : (decide (s.finished < if s.unretainedThroughSequence ≤ s.finished then 0
        else s.unretainedThroughSequence) ||
      decide (limits.maxTailBytes < ((s.tail.filter fun record =>
        decide (s.finished < record.sequence)).map fun record => record.event.byteLength).sum) ||
      decide (limits.maxTailEvents < (s.tail.filter fun record =>
        decide (s.finished < record.sequence)).length)) =
      decide (s.finished < s.unretainedThroughSequence) := by
    rw [decide_eq_false (not_lt.mpr hbytes'), decide_eq_false (not_lt.mpr hfew'), Bool.or_false,
      Bool.or_false]
    split_ifs with hle
    · rw [decide_eq_false (Nat.not_lt_zero _), decide_eq_false (not_lt.mpr hle)]
    · rfl
  refine ⟨h.counted, h.bounded, h.queue, h.processed, h.output, h.position, le_rfl, h.position,
    h.scanner, h.grid, h.base, h.emulator, fun _ => hrestores, ?_, fun hopen => ?_, fun hstill => ?_,
    fun record hrecord => h.below record (List.mem_filter.mp hrecord).1, h.dropped, rfl, hbytes', hfew'⟩
  · intro state hstate
    have hstate' : s.restoring = some state := hstate
    rw [hdone] at hstate'
    cases hstate'
  · rw [hover, decide_eq_false_iff_not, not_lt] at hopen
    refine ⟨if_pos hopen, ?_, fun d hd => ?_⟩
    · dsimp only
      rcases hwas : s.tailOverflowed with _ | _
      · rw [(h.retained hwas).2.1, number_filter h.covered, List.drop_drop,
          Nat.add_sub_cancel' h.covered]
      · have hall := h.overflowed hwas
        rw [hall] at hopen
        rw [List.drop_eq_nil_of_le hopen]
        apply List.filter_eq_nil_iff.mpr
        intro record hrecord
        have := h.below record hrecord
        simp only [decide_eq_true_eq]
        omega
    · rcases hwas : s.tailOverflowed with _ | _
      · exact ((h.retained hwas).2.2 d hd).trans h.covered
      · rw [h.overflowed hwas] at hopen
        exact (h.dropped d hd).trans hopen
  · rw [hover, decide_eq_true_eq] at hstill
    dsimp only
    rw [if_neg (not_le.mpr hstill)]
    rcases hwas : s.tailOverflowed with _ | _
    · rw [(h.retained hwas).1] at hstill
      cases hstill
    · exact h.overflowed hwas

theorem Follows.head (h : Follows E limits start s) {record : TailRecord} {rest : List TailRecord}
    (hqueue : s.queue = record :: rest) : record.sequence = s.finished + 1 ∧
      s.finished + 1 ≤ s.admitted.length ∧
        rest = number (s.finished + 1) (s.admitted.drop (s.finished + 1)) ∧
          s.admitted.take (s.finished + 1) = s.admitted.take s.finished ++ [record.event] ∧
            ∃ stop, Tiles s.processedPosition [record.event] stop ∧
              Tiles start (s.admitted.take (s.finished + 1)) stop := by
  have hnumber := h.queue
  rw [hqueue] at hnumber
  rcases hdrop : s.admitted.drop s.finished with _ | ⟨event, events⟩
  · rw [hdrop] at hnumber
    cases hnumber
  rw [hdrop, number] at hnumber
  obtain ⟨rfl, rfl⟩ := List.cons.inj hnumber
  have hlt : s.finished < s.admitted.length := by
    have hlength := congrArg List.length hdrop
    rw [List.length_drop, List.length_cons] at hlength
    omega
  have hget : s.admitted[s.finished]? = some event := by
    rw [← List.head?_drop, hdrop]
    rfl
  have htake : s.admitted.take (s.finished + 1) = s.admitted.take s.finished ++ [event] := by
    rw [List.take_add_one, hget]
    rfl
  have hrest : s.admitted.drop (s.finished + 1) = events := by
    rw [← List.tail_drop, hdrop]
    rfl
  have htail := h.output.drop s.finished h.position
  rw [hdrop, ← List.singleton_append] at htail
  obtain ⟨stop, hevent, -⟩ := htail.split
  refine ⟨rfl, hlt, by rw [hrest], htake, stop, hevent, ?_⟩
  rw [htake]
  exact h.position.append hevent

theorem Follows.parse (hE : E.Faithful) (h : Follows E limits start s) (hdone : s.restoring = none)
    {record : TailRecord} {rest : List TailRecord} (hqueue : s.queue = record :: rest) {ok : Bool}
    (hok : (CheckpointSession.parse E { s with queue := rest, finished := s.finished + 1 } record
      ok).unavailable = false) :
    Follows E limits start (CheckpointSession.parse E
      { s with queue := rest, finished := s.finished + 1 } record ok) := by
  obtain ⟨hsequence, hlt, hrest, htake, stop, hevent, hstop⟩ := h.head hqueue
  have hemulator := h.emulator hdone
  have hcovered : s.sequence ≤ s.finished + 1 := h.covered.trans (Nat.le_succ _)
  have hreplay : E.take s.emulator record.event =
      E.replay s.base (s.admitted.take (s.finished + 1)) := by
    rw [htake, replay_append, ← hemulator]
    rfl
  have hnothing : ∀ state, state ∉ s.restoring := by
    intro state hstate
    rw [hdone] at hstate
    cases hstate
  rw [CheckpointSession.parse] at hok ⊢
  rcases hrecord : record.event with ⟨position, next, bytes⟩ | ⟨position, dimensions⟩
  · simp only [hrecord] at hok ⊢
    rw [hrecord] at hevent hreplay htake
    obtain ⟨-, -, rfl⟩ := hevent
    rcases ok with _ | _
    · cases hok
    · have hscanner : s.safeScanner.ingest bytes = scan (s.admitted.take (s.finished + 1)) := by
        rw [htake, scan_concat_output, h.scanner]
      have hgrid : s.dimensions = E.grid (E.write s.emulator bytes) := by
        rw [hE.grid_write]
        exact h.grid
      exact ⟨h.counted, hlt, hrest, hsequence, h.output, hstop, hcovered, h.checkpointed, hscanner,
        hgrid, h.base, fun _ => hreplay, h.restored,
        fun state hstate => absurd hstate (hnothing state), h.retained, h.overflowed, h.below,
        h.dropped, h.tailBytes, h.tailFits⟩
  · simp only [hrecord] at hok ⊢
    rw [hrecord] at hevent hreplay htake
    obtain ⟨-, rfl⟩ := hevent
    have hscanner : s.safeScanner = scan (s.admitted.take (s.finished + 1)) := by
      rw [htake, scan_concat_resize, h.scanner]
    exact ⟨h.counted, hlt, hrest, hsequence, h.output, hstop, hcovered, h.checkpointed, hscanner,
      (hE.grid_resize _ _).symm, h.base, fun _ => hreplay, h.restored,
      fun state hstate => absurd hstate (hnothing state), h.retained, h.overflowed, h.below,
      h.dropped, h.tailBytes, h.tailFits⟩

theorem Follows.checkpoint (hE : E.Faithful) (h : s.unavailable = false → Follows E limits start s)
    (hdone : s.restoring = none) {sequence : ℕ} (hsequence : s.unavailable = false →
      sequence = s.finished) (now : ℤ)
    (hok : (s.checkpoint E limits sequence now).unavailable = false) :
    Follows E limits start (s.checkpoint E limits sequence now) := by
  rw [CheckpointSession.checkpoint] at hok ⊢
  split_ifs at hok ⊢ with hdue
  · obtain ⟨hup, -, -⟩ := hdue
    rw [hsequence hup] at hok ⊢
    rcases hsnapshot : CheckpointSession.snapshot E s limits s.finished now with _ | t
    · rw [hsnapshot] at hok
      cases hok
    · exact (h hup).snapshot hE hdone hsnapshot
  · exact h hok

theorem Follows.write (hE : E.Faithful) (h : Follows E limits start s) {state : Bytes}
    (hstate : s.restoring = some state) :
    Follows E limits start { s with
      restoring := none
      emulator := E.restore s.checkpointDimensions state
      checkpointState := state } := by
  obtain ⟨hfinished, hdimensions, hbase⟩ := h.restoring state hstate
  have hcovered := h.covered
  have hsequence : s.sequence = 0 := by omega
  have hgrid : s.dimensions = E.grid (E.restore s.checkpointDimensions state) := by
    rw [hE.grid_restore]
    exact hdimensions
  refine ⟨h.counted, h.bounded, h.queue, h.processed, h.output, h.position, h.covered,
    h.checkpointed, h.scanner, hgrid, h.base, fun _ => ?_, fun _ => ?_, nofun, h.retained,
    h.overflowed, h.below, h.dropped, h.tailBytes, h.tailFits⟩
  · dsimp only
    rw [hfinished, ← hbase]
    rfl
  · dsimp only
    rw [hsequence, ← hbase]
    rfl

def history (s : CheckpointSession ε) : ε × List TailEvent × List ℕ × List CheckpointPin :=
  (s.base, s.admitted, s.dropped, s.prepared)

theorem snapshot_history {throughSequence : ℕ} {now : ℤ}
    (h : snapshot E s limits throughSequence now = some t) : t.history = s.history := by
  rw [snapshot] at h
  dsimp only at h
  by_cases hsafe : s.safeScanner.safe = false
  · rw [if_pos hsafe] at h
    cases h
    rfl
  · rw [if_neg hsafe] at h
    split at h
    · cases h
    · cases h
      rfl

theorem parse_history (s : CheckpointSession ε) (record : TailRecord) (ok : Bool) :
    (s.parse E record ok).history = s.history := by
  rw [parse]
  split
  · split_ifs
    · rfl
    · rfl
  · rfl

theorem checkpoint_history (s : CheckpointSession ε) (sequence : ℕ) (now : ℤ) :
    (s.checkpoint E limits sequence now).history = s.history := by
  rw [CheckpointSession.checkpoint]
  split_ifs
  · rcases hsnapshot : snapshot E s limits sequence now with _ | t
    · rfl
    · exact snapshot_history hsnapshot
  · rfl

theorem restored_history (s : CheckpointSession ε) (state : Bytes) (ok : Bool) :
    (s.restored E limits state ok).history = s.history := by
  rw [CheckpointSession.restored]
  split_ifs
  · rfl
  · rfl
  · rfl

theorem parsed_history (s : CheckpointSession ε) (now : ℤ) (ok : Bool) :
    (s.parsed E limits now ok).history = s.history := by
  rw [parsed]
  split
  · exact restored_history s _ ok
  · rfl
  · split_ifs
    · rfl
    · exact (checkpoint_history _ _ now).trans (parse_history _ _ ok)

theorem parse_place (s : CheckpointSession ε) (record : TailRecord) (ok : Bool) :
    (s.parse E record ok).restoring = s.restoring ∧ (s.parse E record ok).finished = s.finished := by
  rw [parse]
  split
  · split_ifs
    · exact ⟨rfl, rfl⟩
    · exact ⟨rfl, rfl⟩
  · exact ⟨rfl, rfl⟩

theorem parsed_next (hdone : s.restoring = none) {record : TailRecord} {rest : List TailRecord}
    (hqueue : s.queue = record :: rest) (now : ℤ) (ok : Bool) :
    s.parsed E limits now ok =
      if s.unavailable = true then { s with queue := rest, finished := s.finished + 1 }
      else (parse E { s with queue := rest, finished := s.finished + 1 } record ok).checkpoint E
        limits record.sequence now := by
  rw [parsed]
  split
  next _ _ _ hstate =>
    rw [hdone] at hstate
    cases hstate
  next _ hnone =>
    rw [hqueue] at hnone
    cases hnone
  next _ hnext =>
    rw [hqueue] at hnext
    cases hnext
    rfl

theorem parsed_follows (hE : E.Faithful) (h : s.unavailable = false → Follows E limits start s)
    {now : ℤ} {ok : Bool} (hok : (s.parsed E limits now ok).unavailable = false) :
    Follows E limits start (s.parsed E limits now ok) := by
  rcases hrestoring : s.restoring with _ | state
  · rcases hqueue : s.queue with _ | ⟨record, rest⟩
    · rw [parsed] at hok ⊢
      simp only [hrestoring, hqueue] at hok ⊢
      exact h hok
    · rw [parsed_next hrestoring hqueue] at hok ⊢
      split_ifs at hok ⊢ with hdown
      · rw [hdown] at hok
        cases hok
      · rw [Bool.not_eq_true] at hdown
        obtain ⟨hplace, hfinished⟩ :=
          parse_place (E := E) { s with queue := rest, finished := s.finished + 1 } record ok
        refine Follows.checkpoint hE (fun hparsed => (h hdown).parse hE hrestoring hqueue hparsed)
          (hplace.trans hrestoring) (fun _ => ?_) now hok
        exact ((h hdown).head hqueue).1.trans hfinished.symm
  · rw [parsed] at hok ⊢
    simp only [hrestoring] at hok ⊢
    rw [CheckpointSession.restored] at hok ⊢
    split_ifs at hok ⊢ with hdown hrefused
    · rw [hdown] at hok
      cases hok
    · cases hok
    · exact (h hok).write hE hrestoring

theorem Follows.pin (hE : E.Faithful) (h : Follows E limits start s) (hdone : s.restoring = none)
    (hopen : s.tailOverflowed = false)
    (hgrid : (queuedDimensions s.queue).getD s.dimensions = s.dimensions) (now : ℤ) :
    (s.pin limits now).Restores E s := by
  obtain ⟨-, htail, hdropped⟩ := h.retained hopen
  have hall : s.admitted.take s.nextTailSequence = s.admitted := by
    rw [h.counted]
    exact List.take_length
  have hevents : (s.pin limits now).tail = s.admitted.drop s.sequence := by
    rw [CheckpointSession.pin]
    dsimp only
    rw [htail, number_events]
  have hreplay : E.replay (E.restore s.checkpointDimensions s.checkpointState)
      (s.admitted.drop s.sequence) = E.replay s.base s.admitted := by
    rw [h.restored hdone, ← replay_append, List.take_append_drop]
  refine ⟨h.counted.le, ?_, ?_, fun d hd _ => hdropped d hd, ?_, ?_⟩
  · rw [hevents]
    exact (congrArg (List.drop s.sequence) hall).symm
  · rw [hevents]
    exact h.output.drop s.sequence h.checkpointed
  · rw [hevents]
    exact hreplay.trans (congrArg (E.replay s.base) hall).symm
  · rw [hevents]
    refine (congrArg E.grid hreplay).trans ?_
    have hlater : E.replay s.base s.admitted =
        E.replay s.emulator (s.admitted.drop s.finished) := by
      rw [h.emulator hdone, ← replay_append, List.take_append_drop]
    rw [hlater, grid_replay hE s.emulator (k := s.finished), ← h.queue, ← h.grid]
    exact hgrid

theorem Restores.same {pin : CheckpointPin} (h : pin.Restores E s) (hbase : t.base = s.base)
    (hadmitted : t.admitted = s.admitted) (hdropped : t.dropped = s.dropped) :
    pin.Restores E t := by
  obtain ⟨hthrough, htail, htiles, hcovered, hemulator, hgrid⟩ := h
  rw [← hadmitted] at hthrough htail hemulator
  rw [← hbase] at hemulator
  rw [← hdropped] at hcovered
  exact ⟨hthrough, htail, htiles, hcovered, hemulator, hgrid⟩

theorem Restores.later {pin : CheckpointPin} (h : pin.Restores E s) {event : TailEvent}
    (hbase : t.base = s.base) (hadmitted : t.admitted = s.admitted ++ [event])
    (hdropped : ∀ d ∈ t.dropped, d ∈ s.dropped ∨ d = s.admitted.length + 1) : pin.Restores E t := by
  have htake : t.admitted.take pin.through = s.admitted.take pin.through := by
    rw [hadmitted, take_concat_le h.through]
  refine ⟨?_, ?_, h.tiles, fun d hd hle => ?_, ?_, h.grid⟩
  · rw [hadmitted, List.length_append]
    exact h.through.trans (Nat.le_add_right _ _)
  · rw [htake]
    exact h.tail
  · rcases hdropped d hd with hold | rfl
    · exact h.dropped d hold hle
    · have := h.through
      omega
  · rw [htake, hbase]
    exact h.emulator

structure Good (E : Emulator ε) (limits : CheckpointLimits) (start : ℕ)
    (s : CheckpointSession ε) : Prop where
  follows : s.unavailable = false → Follows E limits start s
  pins : ∀ pin ∈ s.prepared, pin.Restores E s

theorem Good.same (h : Good E limits start s) (hhistory : t.history = s.history)
    (hfollows : t.unavailable = false → Follows E limits start t) : Good E limits start t := by
  simp only [history, Prod.mk.injEq] at hhistory
  obtain ⟨hbase, hadmitted, hdropped, hprepared⟩ := hhistory
  refine ⟨hfollows, fun pin hpin => ?_⟩
  rw [hprepared] at hpin
  exact Restores.same (h.pins pin hpin) hbase hadmitted hdropped

theorem Good.fail (h : Good E limits start s) : Good E limits start s.fail :=
  h.same rfl nofun

theorem Good.appendTail (h : Good E limits start s) (queued : ℕ) {event : TailEvent} {stop : ℕ}
    (hup : s.unavailable = false) (hevent : Tiles s.outputPosition [event] stop) :
    Good E limits start (appendTail { s with outputPosition := stop, queuedBytes := queued } limits
      event) := by
  have hfollows := (h.follows hup).appendTail queued hevent
  refine ⟨fun _ => hfollows, fun pin hpin => ?_⟩
  have hcounted := (h.follows hup).counted
  rw [CheckpointSession.appendTail] at hpin ⊢
  dsimp only at hpin ⊢
  split_ifs at hpin ⊢
  · exact Restores.later (h.pins pin hpin) rfl rfl fun d hd => .inl hd
  · refine Restores.later (h.pins pin hpin) rfl rfl fun d hd => ?_
    rcases List.mem_append.mp hd with hold | hnew
    · exact .inl hold
    · exact .inr (by rw [List.mem_singleton.mp hnew, hcounted])

theorem Good.ingestOutput (h : Good E limits start s) (position : ℕ) (bytes : Bytes) :
    Good E limits start (s.ingestOutput limits position bytes) := by
  rw [CheckpointSession.ingestOutput]
  split_ifs with _ _ hdown hposition
  · exact h
  · exact h.fail
  · exact h
  · exact h.fail
  · exact h.fail
  · exact h
  · rw [not_not] at hposition
    exact h.appendTail _ (by simpa using hdown) ⟨hposition, by rw [hposition], rfl⟩

theorem Good.ingestResize (h : Good E limits start s) (dimensions : TerminalDimensions) :
    Good E limits start (s.ingestResize limits dimensions) := by
  rw [CheckpointSession.ingestResize]
  split_ifs with _ hdown
  · exact h
  · exact h
  · exact h.appendTail s.queuedBytes (by simpa using hdown) ⟨rfl, rfl⟩

theorem Follows.other (h : Follows E limits start s) (pins prepared : List CheckpointPin)
    (pinnedBytes : ℕ) (waiting : List ℕ) :
    Follows E limits start { s with
      pins := pins
      prepared := prepared
      pinnedBytes := pinnedBytes
      waiting := waiting } :=
  ⟨h.counted, h.bounded, h.queue, h.processed, h.output, h.position, h.covered, h.checkpointed,
    h.scanner, h.grid, h.base, h.emulator, h.restored, h.restoring, h.retained, h.overflowed,
    h.below, h.dropped, h.tailBytes, h.tailFits⟩

theorem Good.prepare (h : Good E limits start s) (now : ℤ) :
    Good E limits start (s.prepare limits now) := by
  rw [CheckpointSession.prepare]
  split_ifs
  · exact h.same rfl fun hup => (h.follows hup).other _ s.prepared _ s.waiting
  · exact h.same rfl fun hup => (h.follows hup).other _ s.prepared _ _

theorem Good.release (h : Good E limits start s) (checkpointId : ℕ) :
    Good E limits start (s.release checkpointId) := by
  rw [CheckpointSession.release]
  split
  · exact h.same rfl fun hup => (h.follows hup).other _ s.prepared _ s.waiting
  · exact h

theorem snapshot_place {throughSequence : ℕ} {now : ℤ}
    (h : CheckpointSession.snapshot E s limits throughSequence now = some t) :
    t.restoring = s.restoring ∧ t.queue = s.queue ∧ t.dimensions = s.dimensions ∧
      t.unavailable = s.unavailable := by
  rw [CheckpointSession.snapshot] at h
  dsimp only at h
  by_cases hsafe : s.safeScanner.safe = false
  · rw [if_pos hsafe] at h
    cases h
    exact ⟨rfl, rfl, rfl, rfl⟩
  · rw [if_neg hsafe] at h
    split at h
    · cases h
    · cases h
      exact ⟨rfl, rfl, rfl, rfl⟩

theorem Good.resume (hE : E.Faithful) (h : Good E limits start s) (hdone : s.restoring = none)
    (hgrid : (queuedDimensions s.queue).getD s.dimensions = s.dimensions) (now : ℤ) :
    Good E limits start (s.resume E limits now) := by
  rw [CheckpointSession.resume]
  by_cases hdown : s.unavailable = true
  · rw [if_pos hdown]
    exact h
  rw [if_neg hdown]
  rw [Bool.not_eq_true] at hdown
  have hfollows := h.follows hdown
  rcases hcurrent : (if s.safeScanner.safe = true then
    CheckpointSession.snapshot E s limits s.processedTailSequence now else some s) with _ | current
  · exact h
  · have htaken : Good E limits start current ∧ current.restoring = none ∧
        current.queue = s.queue ∧ current.dimensions = s.dimensions ∧
          current.unavailable = false := by
      split_ifs at hcurrent
      · rw [hfollows.processed] at hcurrent
        obtain ⟨hrestoring, hqueue, hdimensions, hup⟩ := snapshot_place hcurrent
        exact ⟨h.same (snapshot_history hcurrent) fun _ => hfollows.snapshot hE hdone hcurrent,
          hrestoring.trans hdone, hqueue, hdimensions, hup.trans hdown⟩
      · cases hcurrent
        exact ⟨h, hdone, rfl, rfl, hdown⟩
    obtain ⟨hgood, hrestoring, hqueue, hdimensions, hup⟩ := htaken
    dsimp only
    split_ifs with hover
    · exact hgood
    · exact hgood
    · exact hgood
    · exact hgood
    · rw [Bool.not_eq_true] at hover
      rw [← hqueue, ← hdimensions] at hgrid
      refine ⟨fun _ => (hgood.follows hup).other _ _ _ current.waiting, fun pin hpin => ?_⟩
      have hsound : pin.Restores E current := by
        rcases List.mem_append.mp hpin with hold | hnew
        · exact hgood.pins pin hold
        · rw [List.mem_singleton.mp hnew]
          exact (hgood.follows hup).pin hE hrestoring hover hgrid now
      exact Restores.same hsound rfl rfl rfl

theorem step_good (hE : E.Faithful) (h : Good E limits start s) {input : CheckpointInput}
    (hsettled : s.Settled input) : Good E limits start (s.step E limits input) := by
  cases input with
  | ingestOutput position bytes => exact h.ingestOutput position bytes
  | ingestResize dimensions => exact h.ingestResize dimensions
  | parsed now ok =>
    exact h.same (parsed_history s now ok) fun hup => parsed_follows hE h.follows hup
  | prepare now => exact h.prepare now
  | resume n now =>
    rw [step]
    split
    next admitted hn =>
      split_ifs with hready
      · have hleft : Good E limits start { s with waiting := s.waiting.eraseIdx n } :=
          h.same rfl fun hup => (h.follows hup).other s.pins s.prepared s.pinnedBytes _
        exact hleft.resume hE hready.1 (hsettled admitted hn hready.1 hready.2) now
      · exact h
    next => exact h
  | release checkpointId => exact h.release checkpointId
  | invalidate => exact h.fail

end CheckpointSession

end Invariant

section Runs
open CheckpointSession

theorem checkpoint_runs (E : Emulator ε) (hE : E.Faithful) (limits : CheckpointLimits)
    (dimensions : TerminalDimensions) (start : ℕ) (now : ℤ) (recovered : Option Bytes)
    {s : CheckpointSession ε} (hs : create E limits dimensions start now recovered = some s)
    (inputs : List CheckpointInput) (h : Runs.Meets (step E limits) Settled s inputs) :
    ∀ pin ∈ (Runs.after (step E limits) s inputs).prepared,
      pin.Restores E (Runs.after (step E limits) s inputs) := by
  obtain ⟨hfollows, hnone⟩ := create_follows hE hs
  have hgood : Good E limits start s := ⟨fun _ => hfollows, by rw [hnone]; nofun⟩
  have hstep : ∀ (t : CheckpointSession ε) input, Good E limits start t → t.Settled input →
      Good E limits start (t.step E limits input) := fun t input ht hsettled =>
    step_good hE ht hsettled
  exact (Runs.invariant_of_meets hstep hgood h).pins

def plainText : Emulator (TerminalDimensions × Bytes) where
  blank dimensions := (dimensions, [])
  write e bytes := (e.1, e.2 ++ bytes)
  resize e dimensions := (dimensions, e.2)
  grid := Prod.fst
  serialize := Prod.snd
  restore dimensions state := (dimensions, state)

theorem plainText_faithful : plainText.Faithful where
  grid_blank _ := rfl
  grid_write _ _ := rfl
  grid_resize _ _ := rfl
  grid_restore _ _ := rfl
  restores _ _ _ _ := rfl

def defaultLimits : CheckpointLimits :=
  ⟨1000, 1000, 64 * 1024, 1024 * 1024, 2 * 1024 * 1024, 1024 * 1024, 4096, 64 * 1024, 5000, 8,
    8 * 1024 * 1024, 60000⟩

def plainSession : CheckpointSession (TerminalDimensions × Bytes) :=
  (create plainText defaultLimits ⟨80, 24⟩ 0 0 none).get (by decide)

theorem plainSession_created :
    create plainText defaultLimits ⟨80, 24⟩ 0 0 none = some plainSession :=
  (Option.some_get _).symm

def withinEscape : List CheckpointInput :=
  [.ingestResize ⟨100, 30⟩, .ingestOutput 0 [0x61, 0x1b], .prepare 1, .parsed 2 true, .parsed 2 true,
    .ingestOutput 2 [0x63], .resume 0 3]

theorem checkpoint_runs_escape :
    (Runs.after (step plainText defaultLimits) plainSession withinEscape).prepared.length = 1 ∧
    ∀ pin ∈ (Runs.after (step plainText defaultLimits) plainSession withinEscape).prepared,
      pin.Restores plainText (Runs.after (step plainText defaultLimits) plainSession withinEscape) :=
  ⟨by decide +kernel, checkpoint_runs plainText plainText_faithful defaultLimits ⟨80, 24⟩ 0 0 none
    plainSession_created withinEscape (by decide +kernel)⟩

def resized : List CheckpointInput := [.prepare 0, .ingestResize ⟨100, 30⟩, .resume 0 0]

theorem resized_pin :
    ((Runs.after (step plainText defaultLimits) plainSession resized).prepared.map fun pin =>
      (pin.dimensions, plainText.grid
        (plainText.replay (plainText.restore pin.checkpointDimensions pin.state) pin.tail))) =
      [(⟨80, 24⟩, ⟨100, 30⟩)] := by
  decide +kernel

theorem grid_missed : ¬ ∀ (E : Emulator (TerminalDimensions × Bytes)), E.Faithful →
    ∀ limits dimensions start now recovered s,
      create E limits dimensions start now recovered = some s → ∀ inputs,
        ∀ pin ∈ (Runs.after (step E limits) s inputs).prepared,
          pin.Restores E (Runs.after (step E limits) s inputs) := by
  intro h
  have hpins := h plainText plainText_faithful defaultLimits ⟨80, 24⟩ 0 0 none plainSession
    plainSession_created resized
  have hfound := resized_pin
  rcases hprepared : (Runs.after (step plainText defaultLimits) plainSession resized).prepared with
    _ | ⟨pin, rest⟩
  · rw [hprepared] at hfound
    cases hfound
  · rw [hprepared, List.map_cons] at hfound
    obtain ⟨hdimensions, hgrid⟩ := Prod.mk.inj (List.cons.inj hfound).1
    have hsame := (hpins pin (by rw [hprepared]; exact List.mem_cons_self)).grid
    rw [hdimensions, hgrid] at hsame
    exact absurd hsame (by decide)

end Runs

end Terminay.Terminal
