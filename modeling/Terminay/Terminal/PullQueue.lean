import Terminay.Terminal.OutputRuns

/-!
# The queue of a pull subscription

A subscription without a listener queues its events until they are drained.
-/

namespace Terminay.Terminal
open Chunks

def EventsFrom : ℕ → List TerminalEvent → ℕ → Prop
  | start, [], stop => start = stop
  | start, .output position nextPosition bytes _ :: rest, stop =>
    position = start ∧ nextPosition = start + bytes.length ∧ EventsFrom nextPosition rest stop
  | start, .exit _ :: rest, stop => EventsFrom start rest stop
  | _, .skip _ _ :: _, _ => False

section Events
variable {start middle stop : ℕ} {events more : List TerminalEvent}

theorem EventsFrom.append (h : EventsFrom start events middle) (hmore : EventsFrom middle more stop) :
    EventsFrom start (events ++ more) stop := by
  induction events generalizing start with
  | nil =>
    rw [EventsFrom] at h
    rw [h]
    exact hmore
  | cons event events ih =>
    cases event with
    | output position nextPosition bytes replay => exact ⟨h.1, h.2.1, ih h.2.2⟩
    | exit reason => exact ih h
    | skip fromPosition toPosition => exact h.elim

theorem EventsFrom.split (h : EventsFrom start (events ++ more) stop) :
    ∃ middle, EventsFrom start events middle ∧ EventsFrom middle more stop := by
  induction events generalizing start with
  | nil => exact ⟨start, rfl, h⟩
  | cons event events ih =>
    cases event with
    | output position nextPosition bytes replay =>
      obtain ⟨middle, hfirst, hrest⟩ := ih h.2.2
      exact ⟨middle, ⟨h.1, h.2.1, hfirst⟩, hrest⟩
    | exit reason => exact ih h
    | skip fromPosition toPosition => exact h.elim

theorem EventsFrom.exit (h : EventsFrom start (events ++ more) stop) (reason : TerminalExitReason) :
    EventsFrom start (events ++ .exit reason :: more) stop := by
  obtain ⟨middle, hfirst, hrest⟩ := h.split
  exact hfirst.append hrest

def endsBy (position : ℕ) (event : TerminalEvent) : Bool :=
  (TerminalSubscription.outputEnd event).any fun nextPosition => nextPosition ≤ position

theorem EventsFrom.late (h : EventsFrom start events stop) {position : ℕ} (hlate : position < start) :
    events.filter (endsBy position) = [] := by
  induction events generalizing start with
  | nil => rfl
  | cons event events ih =>
    cases event with
    | output first nextPosition bytes replay =>
      have hnext := h.2.1
      rw [List.filter_cons_of_neg, ih h.2.2 (by omega)]
      simp only [endsBy, TerminalSubscription.outputEnd, Option.any_some, decide_eq_true_eq]
      omega
    | exit reason =>
      rw [List.filter_cons_of_neg (by simp [endsBy, TerminalSubscription.outputEnd])]
      exact ih h hlate
    | skip fromPosition toPosition => exact h.elim

theorem EventsFrom.parted (h : EventsFrom start events stop) (position : ℕ) :
    EventsFrom start (events.filter (endsBy position) ++
      events.filter fun event => !endsBy position event) stop := by
  induction events generalizing start with
  | nil => exact h
  | cons event events ih =>
    cases event with
    | output first nextPosition bytes replay =>
      by_cases hends : nextPosition ≤ position
      · have hby : endsBy position (.output first nextPosition bytes replay) = true :=
          decide_eq_true hends
        rw [List.filter_cons_of_pos hby, List.filter_cons_of_neg (by simp [hby])]
        exact ⟨h.1, h.2.1, ih h.2.2⟩
      · have hby : endsBy position (.output first nextPosition bytes replay) = false :=
          decide_eq_false hends
        have hrest := ih h.2.2
        have hnone := h.2.2.late (not_le.mp hends)
        rw [hnone, List.nil_append] at hrest
        rw [List.filter_cons_of_neg (by simp [hby]), List.filter_cons_of_pos (by simp [hby]), hnone]
        exact ⟨h.1, h.2.1, hrest⟩
    | exit reason =>
      have hby : endsBy position (.exit reason) = false := rfl
      rw [List.filter_cons_of_neg (by simp [hby]), List.filter_cons_of_pos (by simp [hby])]
      exact (ih h).exit reason
    | skip fromPosition toPosition => exact h.elim

theorem events_initial {cs : List (Chunk UInt8)} {first fromPosition : ℕ}
    (h : LaidOut first cs stop) (hstop : fromPosition ≤ stop) :
    EventsFrom (max fromPosition first) ((cs.filter fun chunk => fromPosition < chunk.stop).map
      fun chunk => outputEvent chunk (max fromPosition chunk.position) true) stop := by
  induction cs generalizing first with
  | nil =>
    have heq : first = stop := h
    exact (Nat.max_eq_right (heq ▸ hstop)).trans heq
  | cons c cs ih =>
    have hposition := h.1
    have hrest := ih h.2
    by_cases hkeep : fromPosition < c.stop
    · rw [List.filter_cons, if_pos (decide_eq_true hkeep), List.map_cons, outputEvent, Chunk.after]
      rw [Chunk.stop] at hkeep
      have hat : max (max fromPosition c.position) c.position = max fromPosition first := by omega
      refine ⟨hat, ?_, ?_⟩
      · dsimp only
        rw [Chunk.stop, List.length_drop]
        omega
      · rw [Chunk.stop, hposition]
        rw [Nat.max_eq_right (by omega)] at hrest
        exact hrest
    · rw [List.filter_cons_of_neg (by simpa using hkeep)]
      rw [Chunk.stop] at hkeep
      rw [Nat.max_eq_left (by omega)] at hrest ⊢
      exact hrest

end Events

/-! ## The constructor -/

section Begin
variable {o : ℕ} {sub : TerminalSubscription}

def Refused (maxQueuedBytes : ℚ) (queuedBytes : ℕ) (event : TerminalEvent) : Prop :=
  0 < eventBytes event ∧ maxQueuedBytes < queuedBytes + eventBytes event

instance (maxQueuedBytes : ℚ) (queuedBytes : ℕ) (event : TerminalEvent) :
    Decidable (Refused maxQueuedBytes queuedBytes event) :=
  inferInstanceAs (Decidable (_ ∧ _))

def afterOverflow (maxQueuedBytes : ℚ) : ℕ → List TerminalEvent → Option (List TerminalEvent)
  | _, [] => none
  | queuedBytes, event :: rest =>
    if Refused maxQueuedBytes queuedBytes event then some rest
    else afterOverflow maxQueuedBytes (queuedBytes + eventBytes event) rest

theorem enqueue_refused {event : TerminalEvent}
    (h : Refused sub.maxQueuedBytes sub.queuedBytes event) :
    sub.enqueue event o = sub.closeForOverflow o := if_pos h

def queued (sub : TerminalSubscription) (event : TerminalEvent) : TerminalSubscription :=
  { sub with
    queue := sub.queue ++ [event]
    queuedBytes := sub.queuedBytes + eventBytes event }

theorem queued_queue (sub : TerminalSubscription) (event : TerminalEvent)
    (events : List TerminalEvent) : (queued sub event).queue ++ events = sub.queue ++ event :: events :=
  (List.append_cons _ _ _).symm

theorem enqueue_room {event : TerminalEvent}
    (h : ¬Refused sub.maxQueuedBytes sub.queuedBytes event) :
    sub.enqueue event o = queued sub event := if_neg h

theorem begin_pull (hpull : sub.listener = false) (event : TerminalEvent) :
    TerminalSubscription.begin o sub event = sub.enqueue event o := by
  rw [TerminalSubscription.begin, hpull]
  rfl

theorem begin_room {events : List TerminalEvent} (hpull : sub.listener = false)
    (h : afterOverflow sub.maxQueuedBytes sub.queuedBytes events = none) :
    ∃ queuedBytes, events.foldl (TerminalSubscription.begin o) sub =
      { sub with
        queue := sub.queue ++ events
        queuedBytes := queuedBytes } := by
  induction events generalizing sub with
  | nil => exact ⟨sub.queuedBytes, by rw [List.append_nil]; rfl⟩
  | cons event events ih =>
    rw [afterOverflow] at h
    split_ifs at h with hroom
    have hpull' : (queued sub event).listener = false := hpull
    obtain ⟨queuedBytes, heq⟩ := ih hpull' h
    refine ⟨queuedBytes, ?_⟩
    rw [List.foldl_cons, begin_pull hpull, enqueue_room hroom, heq, queued_queue]
    rfl

theorem begin_full {events rest : List TerminalEvent} (hpull : sub.listener = false)
    (hopen : sub.closed = none)
    (h : afterOverflow sub.maxQueuedBytes sub.queuedBytes events = some rest) :
    events.foldl (TerminalSubscription.begin o) sub =
      rest.foldl (TerminalSubscription.begin o) { sub with
        closed := some .skip
        queue := [.skip sub.cursor o]
        queuedBytes := 0 } := by
  induction events generalizing sub with
  | nil => cases h
  | cons event events ih =>
    rw [afterOverflow] at h
    rw [List.foldl_cons, begin_pull hpull]
    split_ifs at h with hroom
    · cases h
      rw [enqueue_refused hroom, TerminalSubscription.closeForOverflow,
        if_neg (by rw [hopen]; exact Bool.false_ne_true)]
    · have hpull' : (queued sub event).listener = false := hpull
      rw [enqueue_room hroom]
      exact ih hpull' hopen h

theorem begin_behind (events : List TerminalEvent) (hpull : sub.listener = false)
    {reason : TerminalCloseReason} (hclosed : sub.closed = some reason) :
    ∃ tail queuedBytes, tail ⊆ events ∧ events.foldl (TerminalSubscription.begin o) sub =
      { sub with
        queue := sub.queue ++ tail
        queuedBytes := queuedBytes } := by
  induction events generalizing sub with
  | nil => exact ⟨[], sub.queuedBytes, List.nil_subset _, by rw [List.append_nil]; rfl⟩
  | cons event events ih =>
    rw [List.foldl_cons, begin_pull hpull]
    by_cases hroom : Refused sub.maxQueuedBytes sub.queuedBytes event
    · rw [enqueue_refused hroom, TerminalSubscription.closeForOverflow,
        if_pos (by rw [hclosed]; rfl)]
      obtain ⟨tail, queuedBytes, hsub, heq⟩ := ih hpull hclosed
      exact ⟨tail, queuedBytes, List.subset_cons_of_subset _ hsub, heq⟩
    · have hpull' : (queued sub event).listener = false := hpull
      rw [enqueue_room hroom]
      obtain ⟨tail, queuedBytes, hsub, heq⟩ := ih hpull' hclosed
      refine ⟨event :: tail, queuedBytes, List.cons_subset_cons _ hsub, ?_⟩
      rw [heq, queued_queue]
      rfl

/-- Behind the skip there is nothing of a kind exactly when all of that kind is too large on its
own. -/
theorem begin_tail {P : TerminalEvent → Prop} (hother : ∀ event, ¬P event → eventBytes event = 0)
    (events : List TerminalEvent) (hpull : sub.listener = false) (hzero : sub.queuedBytes = 0)
    {reason : TerminalCloseReason} (hclosed : sub.closed = some reason) :
    ∃ tail queuedBytes, tail ⊆ events ∧ events.foldl (TerminalSubscription.begin o) sub =
        { sub with
          queue := sub.queue ++ tail
          queuedBytes := queuedBytes } ∧
      ((∀ event ∈ tail, ¬P event) ↔ ∀ event ∈ events, P event → Refused sub.maxQueuedBytes 0 event) := by
  induction events generalizing sub with
  | nil => exact ⟨[], sub.queuedBytes, List.nil_subset _, by rw [List.append_nil]; rfl, by simp⟩
  | cons event events ih =>
    rw [List.foldl_cons, begin_pull hpull]
    by_cases hroom : Refused sub.maxQueuedBytes sub.queuedBytes event
    · rw [enqueue_refused hroom, TerminalSubscription.closeForOverflow,
        if_pos (by rw [hclosed]; rfl)]
      obtain ⟨tail, queuedBytes, hsub, heq, hiff⟩ := ih hpull hzero hclosed
      refine ⟨tail, queuedBytes, List.subset_cons_of_subset _ hsub, heq, ?_⟩
      rw [hzero] at hroom
      rw [hiff, List.forall_mem_cons]
      exact ⟨fun h => ⟨fun _ => hroom, h⟩, fun h => h.2⟩
    · have hpull' : (queued sub event).listener = false := hpull
      rw [enqueue_room hroom]
      by_cases hkind : P event
      · obtain ⟨tail, queuedBytes, hsub, heq⟩ := begin_behind (o := o) events hpull' hclosed
        refine ⟨event :: tail, queuedBytes, List.cons_subset_cons _ hsub, ?_, ?_⟩
        · rw [heq, queued_queue]
          rfl
        · rw [hzero] at hroom
          exact ⟨fun h => absurd hkind (h event List.mem_cons_self),
            fun h => absurd (h event List.mem_cons_self hkind) hroom⟩
      · have hbytes := hother event hkind
        have hzero' : (queued sub event).queuedBytes = 0 := by
          rw [queued, hbytes]
          exact hzero
        obtain ⟨tail, queuedBytes, hsub, heq, hiff⟩ := ih hpull' hzero' hclosed
        refine ⟨event :: tail, queuedBytes, List.cons_subset_cons _ hsub, ?_, ?_⟩
        · rw [heq, queued_queue]
          rfl
        · rw [List.forall_mem_cons, List.forall_mem_cons, hiff]
          exact ⟨fun h => ⟨fun hp => absurd hp hkind, h.2⟩, fun h => ⟨hkind, h.2⟩⟩

end Begin

end Terminay.Terminal
