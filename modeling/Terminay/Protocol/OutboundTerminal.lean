import Terminay.Protocol.OutboundSound

/-!
# Terminal lanes

What the transport is handed of a terminal lane is a run of outputs that follow each other, and
after them at most one skip, which starts where they end.
-/

namespace Terminay.Protocol
open Script

variable {φ : Type}

/-! ## Runs of outputs -/

def Contiguous : ℕ → List (PendingDelivery φ) → ℕ → Prop
  | position, [], stop => position = stop
  | position, pending :: rest, stop => ∃ laneId next,
    pending.traffic = .terminal laneId position next ∧ position < next ∧ Contiguous next rest stop

theorem Contiguous.append {xs ys : List (PendingDelivery φ)} {start stop : ℕ} :
    Contiguous start (xs ++ ys) stop ↔
      ∃ middle, Contiguous start xs middle ∧ Contiguous middle ys stop := by
  induction xs generalizing start with
  | nil => simp [Contiguous]
  | cons pending xs ih =>
    simp only [List.cons_append, Contiguous, ih]
    constructor
    · rintro ⟨laneId, next, htraffic, hlt, middle, hxs, hys⟩
      exact ⟨middle, ⟨laneId, next, htraffic, hlt, hxs⟩, hys⟩
    · rintro ⟨middle, ⟨laneId, next, htraffic, hlt, hxs⟩, hys⟩
      exact ⟨laneId, next, htraffic, hlt, middle, hxs, hys⟩

theorem Contiguous.unique {frames : List (PendingDelivery φ)} {start stop other : ℕ}
    (h : Contiguous start frames stop) (h' : Contiguous start frames other) : stop = other := by
  induction frames generalizing start with
  | nil => exact h.symm.trans h'
  | cons pending frames ih =>
    obtain ⟨laneId, next, htraffic, _, hrest⟩ := h
    obtain ⟨laneId', next', htraffic', _, hrest'⟩ := h'
    rw [htraffic] at htraffic'
    cases htraffic'
    exact ih hrest hrest'

/-- Outputs from a position on, and at most one skip after them, from where they end up to the
largest admitted position. -/
def Marked (start highest : ℕ) (frames : List (PendingDelivery φ)) : Prop :=
  ∃ outputs stop, Contiguous start outputs stop ∧ (frames = outputs ∨
    ∃ skip laneId, frames = outputs ++ [skip] ∧ skip.traffic = .terminalSkip laneId stop highest)

theorem Marked.initial {start highest : ℕ} {xs ys : List (PendingDelivery φ)}
    (h : Marked start highest (xs ++ ys)) : Marked start highest xs := by
  obtain ⟨outputs, stop, houtputs, heq | ⟨skip, laneId, heq, hskip⟩⟩ := h
  · rw [← heq] at houtputs
    obtain ⟨middle, hxs, _⟩ := Contiguous.append.mp houtputs
    exact ⟨xs, middle, hxs, .inl rfl⟩
  · rcases List.eq_nil_or_concat ys with rfl | ⟨front, last, rfl⟩
    · rw [List.append_nil] at heq
      exact ⟨outputs, stop, houtputs, .inr ⟨skip, laneId, heq, hskip⟩⟩
    · rw [List.concat_eq_append, ← List.append_assoc] at heq
      obtain ⟨hfront, _⟩ := List.append_inj' heq rfl
      rw [← hfront] at houtputs
      obtain ⟨middle, hxs, _⟩ := Contiguous.append.mp houtputs
      exact ⟨xs, middle, hxs, .inl rfl⟩

namespace OutboundDeliveryPump

variable {s t : OutboundDeliveryPump φ}

/-! ## One lane -/

def reached (s : OutboundDeliveryPump φ) (laneId : Str) (lane : TerminalLane φ) : ℕ :=
  max lane.sentPosition
    (((s.retainedTerminal laneId).bind fun pending => pending.traffic.nextPosition).getD
      lane.sentPosition)

structure Flowing (s : OutboundDeliveryPump φ) (laneId : Str) (lane : TerminalLane φ) : Prop where
  queue : Contiguous lane.start (s.laneHanded laneId lane.since ++
    waiting (s.retainedTerminal laneId) lane.queue) lane.headPosition
  highest : lane.highest = lane.headPosition
  reached : Contiguous lane.start (s.laneHanded laneId lane.since) (s.reached laneId lane)

structure Flow (s : OutboundDeliveryPump φ) (laneId : Str) (lane : TerminalLane φ) : Prop where
  since : lane.since ≤ s.handed.length
  marked : Marked lane.start lane.highest (s.laneHanded laneId lane.since ++
    waiting (s.retainedTerminal laneId) lane.queue)
  flowing : lane.suppressed = false → lane.releasePending = false → s.Flowing laneId lane

structure Flows (s : OutboundDeliveryPump φ) : Prop where
  lanes : ∀ e ∈ s.terminalLanes, s.Flow e.1 e.2
  retired : ∀ r ∈ s.retired, Marked r.lane.start r.lane.highest r.handed
  failed : s.terminalError = true → s.terminalLanes = []

theorem Flow.congr {laneId : Str} {lane : TerminalLane φ} (h : s.Flow laneId lane)
    (hhanded : t.handed = s.handed)
    (hretained : t.retainedTerminal laneId = s.retainedTerminal laneId) : t.Flow laneId lane := by
  have hlane : t.laneHanded laneId lane.since = s.laneHanded laneId lane.since := by
    rw [laneHanded, laneHanded, hhanded]
  refine ⟨by rw [hhanded]; exact h.since, by rw [hlane, hretained]; exact h.marked, fun hopen hkept => ?_⟩
  obtain ⟨hqueue, hhighest, hreached⟩ := h.flowing hopen hkept
  refine ⟨by rw [hlane, hretained]; exact hqueue, hhighest, ?_⟩
  rw [hlane, OutboundDeliveryPump.reached, hretained]
  exact hreached

theorem retainedTerminal_congr (hactive : t.activeDelivery = s.activeDelivery) (laneId : Str) :
    t.retainedTerminal laneId = s.retainedTerminal laneId := by
  rw [retainedTerminal, retainedTerminal, hactive]

theorem Flows.congr (h : s.Flows) (hlanes : t.terminalLanes = s.terminalLanes)
    (hhanded : t.handed = s.handed) (hactive : t.activeDelivery = s.activeDelivery)
    (hretired : t.retired = s.retired) (herror : t.terminalError = s.terminalError) : t.Flows := by
  refine ⟨fun e he => ?_, hretired ▸ h.retired, hlanes ▸ herror ▸ h.failed⟩
  rw [hlanes] at he
  exact (h.lanes e he).congr hhanded (retainedTerminal_congr hactive e.1)

theorem Flows.set (h : s.Flows) {laneId : Str} {lane : TerminalLane φ}
    (hlanes : t.terminalLanes = Entries.set s.terminalLanes laneId lane)
    (hhanded : t.handed = s.handed) (hactive : t.activeDelivery = s.activeDelivery)
    (hretired : t.retired = s.retired) (hok : t.terminalError = false)
    (hlane : s.Flow laneId lane) : t.Flows := by
  refine ⟨fun e he => ?_, hretired ▸ h.retired, fun herror => ?_⟩
  · rw [hlanes] at he
    rcases Entries.mem_set.mp he with rfl | ⟨he, _⟩
    · exact hlane.congr hhanded (retainedTerminal_congr hactive laneId)
    · exact (h.lanes e he).congr hhanded (retainedTerminal_congr hactive e.1)
  · rw [hok] at herror
    cases herror

theorem Flows.retire (h : s.Flows) {laneId : Str} {lane : TerminalLane φ}
    (hlane : Marked lane.start lane.highest (s.laneHanded laneId lane.since)) :
    (s.retire laneId lane).Flows := by
  refine ⟨fun e he => ?_, fun r hr => ?_, fun herror => ?_⟩
  · exact (h.lanes e (Entries.mem_delete.mp he).1).congr rfl rfl
  · rcases List.mem_append.mp hr with hold | hnew
    · exact h.retired r hold
    · rw [List.mem_singleton.mp hnew]
      exact hlane
  · have hempty := h.failed herror
    simp [OutboundDeliveryPump.retire, hempty, Entries.delete]

theorem Flows.fail (h : s.Flows) : s.fail.Flows := by
  rw [OutboundDeliveryPump.fail]
  split_ifs
  · exact h
  · exact ⟨(by simp), h.retired, fun _ => rfl⟩

/-! ## Turns of the loop -/

theorem laneHanded_handing {laneId : Str} {since : ℕ} (hsince : since ≤ s.handed.length)
    (pending : PendingDelivery φ) (a b c : ℕ) :
    (s.handing pending a b c).laneHanded laneId since = s.laneHanded laneId since ++
      [pending].filter fun p => p.traffic.terminalLaneId = some laneId := by
  rw [laneHanded, handing, List.drop_append_of_le_length hsince, List.filter_append]
  rfl

theorem retained_none (hnone : s.activeDelivery = none) (laneId : Str) :
    s.retainedTerminal laneId = none := by
  rw [retainedTerminal, hnone]
  rfl

theorem reached_none (hnone : s.activeDelivery = none) (laneId : Str) (lane : TerminalLane φ) :
    s.reached laneId lane = lane.sentPosition := by
  rw [reached, retained_none hnone]
  exact max_self _

theorem Flow.hand {laneId : Str} {lane : TerminalLane φ} (h : s.Flow laneId lane)
    (hnone : s.activeDelivery = none) {pending : PendingDelivery φ}
    (hlane : pending.traffic.terminalLaneId = some laneId)
    (hhead : lane.queue.head? = some pending) (a b c : ℕ) :
    (s.handing pending a b c).Flow laneId lane := by
  have hretained : (s.handing pending a b c).retainedTerminal laneId = some pending :=
    retainedTerminal_eq.mpr ⟨rfl, hlane⟩
  have hhanded : (s.handing pending a b c).laneHanded laneId lane.since =
      s.laneHanded laneId lane.since ++ [pending] := by
    rw [laneHanded_handing h.since]
    simp [hlane]
  obtain ⟨rest, hqueue⟩ : ∃ rest, lane.queue = pending :: rest := by
    cases hq : lane.queue with
    | nil =>
      rw [hq] at hhead
      cases hhead
    | cons first rest =>
      rw [hq] at hhead
      exact ⟨rest, by rw [Option.some.inj hhead]⟩
  have hall : (s.handing pending a b c).laneHanded laneId lane.since ++
      waiting ((s.handing pending a b c).retainedTerminal laneId) lane.queue =
        s.laneHanded laneId lane.since ++ waiting (s.retainedTerminal laneId) lane.queue := by
    rw [hhanded, hretained, retained_none hnone, hqueue, List.append_assoc]
    rfl
  refine ⟨?_, by rw [hall]; exact h.marked, fun hopen hkept => ?_⟩
  · have hlength : (s.handing pending a b c).handed.length = s.handed.length + 1 := by
      simp [handing]
    have hsince := h.since
    omega
  · obtain ⟨hflow, hhighest, hreached⟩ := h.flowing hopen hkept
    refine ⟨by rw [hall]; exact hflow, hhighest, ?_⟩
    rw [reached_none hnone] at hreached
    rw [retained_none hnone, hqueue] at hflow
    obtain ⟨middle, hbefore, laneId', next, htraffic, hlt, hrest⟩ := Contiguous.append.mp hflow
    obtain rfl := hreached.unique hbefore
    have hnext : (s.handing pending a b c).reached laneId lane = next := by
      rw [OutboundDeliveryPump.reached, hretained, Option.bind_some, htraffic]
      exact max_eq_right hlt.le
    rw [hnext, hhanded]
    exact Contiguous.append.mpr ⟨_, hreached, laneId', next, htraffic, hlt, rfl⟩

theorem Flows.drain (h : s.Flows) (hlaid : s.Laid) (hnone : s.activeDelivery = none) :
    s.drain.Flows := by
  rcases drain_cases hlaid with ⟨pending, a, b, c, hheads, hdrain⟩ | ⟨_, hdrain⟩
  · rw [hdrain]
    refine ⟨fun e he => ?_, h.retired, h.failed⟩
    have he : e ∈ s.terminalLanes := he
    by_cases hlane : pending.traffic.terminalLaneId = some e.1
    · obtain ⟨lane, hget, hhead⟩ := (heads_terminal hlane).mp hheads
      rw [Entries.get_of_mem hlaid.terminalKeys he] at hget
      obtain rfl := Option.some.inj hget
      exact (h.lanes e he).hand hnone hlane hhead a b c
    · have hother : (s.handing pending a b c).retainedTerminal e.1 = none := by
        rw [retainedTerminal, handing, Option.filter_some, if_neg (by simpa using hlane)]
      have hold := h.lanes e he
      have hhanded : (s.handing pending a b c).laneHanded e.1 e.2.since =
          s.laneHanded e.1 e.2.since := by
        rw [laneHanded_handing hold.since]
        simp [hlane]
      have hsame : (s.handing pending a b c).retainedTerminal e.1 = s.retainedTerminal e.1 := by
        rw [hother, retained_none hnone]
      refine ⟨?_, by rw [hhanded, hsame]; exact hold.marked, fun hopen hkept => ?_⟩
      · have hlength : (s.handing pending a b c).handed.length = s.handed.length + 1 := by
          simp [handing]
        have hsince := hold.since
        omega
      · obtain ⟨hflow, hhighest, hreached⟩ := hold.flowing hopen hkept
        refine ⟨by rw [hhanded, hsame]; exact hflow, hhighest, ?_⟩
        rw [hhanded, OutboundDeliveryPump.reached, hsame]
        exact hreached
  · rw [hdrain]
    exact h.congr rfl rfl hnone.symm rfl rfl

theorem Flows.start (h : s.Flows) (hready : s.Ready) : s.start.Flows := by
  rw [OutboundDeliveryPump.start]
  split_ifs with hbusy
  · exact h
  · obtain ⟨hnone, hlaid⟩ := hready.unstarted fun hrunning => hbusy (.inl hrunning)
    have hflows : Flows { s with running := true } := h.congr rfl rfl rfl rfl rfl
    exact hflows.drain hlaid hnone

/-! ## Changes of a lane -/

theorem opened_flow {laneId : Str} (hnone : s.retainedTerminal laneId = none) (position : ℕ) :
    s.Flow laneId (openedLane position s.handed.length) := by
  have hhanded : s.laneHanded laneId s.handed.length = [] := by
    rw [laneHanded, List.drop_length]
    rfl
  have hreached : s.reached laneId (openedLane position s.handed.length) = position := by
    rw [reached, hnone]
    exact max_self _
  refine ⟨le_rfl, ?_, fun _ _ => ⟨?_, rfl, ?_⟩⟩
  · rw [openedLane, hhanded, hnone]
    exact ⟨[], position, rfl, .inl rfl⟩
  · rw [openedLane, hhanded, hnone]
    rfl
  · rw [hreached, openedLane, hhanded]
    rfl

theorem Flows.terminalLane (h : s.Flows) (hready : s.Ready) (hok : s.terminalError = false)
    (laneId : Str) (position : ℕ) : s.Flow laneId (s.terminalLane laneId position) := by
  rw [OutboundDeliveryPump.terminalLane]
  cases hlane : Entries.get s.terminalLanes laneId with
  | some lane => exact h.lanes _ (Entries.mem_of_get hlane)
  | none =>
    apply opened_flow
    cases hretained : s.retainedTerminal laneId with
    | none => rfl
    | some pending =>
      obtain ⟨lane, hget, _⟩ := hready.retained_terminal hok hretained
      rw [hlane] at hget
      cases hget

theorem waiting_append {retained : Option (PendingDelivery φ)} {queue : List (PendingDelivery φ)}
    (hhead : ∀ pending, retained = some pending → queue.head? = some pending)
    (pending : PendingDelivery φ) :
    waiting retained (queue ++ [pending]) = waiting retained queue ++ [pending] := by
  cases retained with
  | none => rfl
  | some active =>
    cases queue with
    | nil => cases hhead active rfl
    | cons first rest => rfl

section Frames
variable (size : φ → ℕ) (limits : OutboundDeliveryLimits)

theorem Flow.queue {laneId : Str} {lane : TerminalLane φ} (h : s.Flow laneId lane)
    (hhead : ∀ pending, s.retainedTerminal laneId = some pending → lane.queue.head? = some pending)
    (hopen : lane.suppressed = false) (hkept : lane.releasePending = false) {nextPosition : ℕ}
    (hlt : lane.headPosition < nextPosition) (now bytes : ℤ) (number : ℕ) (frame : φ) :
    s.Flow laneId { (lane.counted nextPosition).advanced nextPosition now with
      queue := lane.queue ++ [⟨number, frame, .terminal laneId lane.headPosition nextPosition⟩]
      queuedBytes := bytes } := by
  obtain ⟨hqueue, hhighest, hreached⟩ := h.flowing hopen hkept
  have hnext : max lane.highest nextPosition = nextPosition := by
    rw [hhighest]
    exact max_eq_right hlt.le
  have hone : Contiguous lane.headPosition
      [(⟨number, frame, .terminal laneId lane.headPosition nextPosition⟩ : PendingDelivery φ)]
      nextPosition := ⟨laneId, nextPosition, rfl, hlt, rfl⟩
  have hmore := Contiguous.append.mpr ⟨lane.headPosition, hqueue, hone⟩
  rw [List.append_assoc, ← waiting_append hhead] at hmore
  exact ⟨h.since, ⟨_, _, hmore, .inl rfl⟩, fun _ _ => ⟨hmore, hnext, hreached⟩⟩

theorem Flow.congest {laneId : Str} {lane : TerminalLane φ} {head : ℕ}
    (hsince : lane.since ≤ s.handed.length)
    (hreached : Contiguous lane.start (s.laneHanded laneId lane.since) (s.reached laneId lane))
    (hhighest : lane.highest = head) (bytes : ℤ) (number : ℕ) (frame : φ) :
    s.Flow laneId { lane with
      queue := (s.retainedTerminal laneId).toList ++
        [PendingDelivery.mk number frame (.terminalSkip laneId (s.reached laneId lane) head)]
      queuedBytes := bytes
      headPosition := head
      suppressed := true } := by
  refine ⟨hsince, ⟨s.laneHanded laneId lane.since, _, hreached, .inr
    ⟨⟨number, frame, .terminalSkip laneId (s.reached laneId lane) head⟩, laneId, ?_, ?_⟩⟩, nofun⟩
  · dsimp only
    cases s.retainedTerminal laneId with
    | none => rfl
    | some pending => rfl
  · rw [← hhighest]

theorem Flow.release {laneId : Str} {lane : TerminalLane φ} (h : s.Flow laneId lane) :
    s.Flow laneId (lane.released size (s.retainedTerminal laneId)) := by
  refine ⟨h.since, ?_, nofun⟩
  have hwaiting : waiting (s.retainedTerminal laneId)
      (lane.released size (s.retainedTerminal laneId)).queue = [] := by
    rw [TerminalLane.released]
    cases s.retainedTerminal laneId with
    | none => rfl
    | some pending => rfl
  rw [hwaiting, List.append_nil]
  exact h.marked.initial

theorem Flow.sent {laneId : Str} {lane : TerminalLane φ} (h : s.Flow laneId lane)
    {pending : PendingDelivery φ} (hactive : s.retainedTerminal laneId = some pending)
    (hhanded : t.handed = s.handed) (hnone : t.activeDelivery = none) :
    t.Flow laneId (lane.sent size pending) := by
  have hlane : t.laneHanded laneId lane.since = s.laneHanded laneId lane.since := by
    rw [laneHanded, laneHanded, hhanded]
  have hwaiting : waiting (t.retainedTerminal laneId) (lane.sent size pending).queue =
      waiting (s.retainedTerminal laneId) lane.queue := by
    rw [retained_none hnone, hactive]
    rfl
  refine ⟨by rw [hhanded]; exact h.since, ?_, fun hopen hkept => ?_⟩
  · rw [hwaiting]
    exact hlane ▸ h.marked
  · obtain ⟨hqueue, hhighest, hreached⟩ := h.flowing hopen hkept
    refine ⟨?_, hhighest, ?_⟩
    · rw [hwaiting]
      exact hlane ▸ hqueue
    · rw [reached_none hnone]
      have hsame : (lane.sent size pending).sentPosition = s.reached laneId lane := by
        rw [OutboundDeliveryPump.reached, hactive]
        rfl
      rw [hsame]
      exact hlane ▸ hreached

/-! ## Operations -/

theorem Flows.congestTerminal (h : s.Flows) (hok : s.terminalError = false) {laneId : Str}
    (lane : TerminalLane φ) (hsince : lane.since ≤ s.handed.length)
    (hreached : Contiguous lane.start (s.laneHanded laneId lane.since) (s.reached laneId lane))
    {nextPosition : ℕ} (hhighest : lane.highest = max lane.headPosition nextPosition)
    (createSkipFrame : ℕ → ℕ → φ) :
    (s.congestTerminalLane size limits laneId lane nextPosition createSkipFrame).Flows := by
  rw [congestTerminalLane]
  split_ifs
  · exact h.fail
  · exact h.set rfl rfl rfl rfl hok (Flow.congest hsince hreached hhighest _ _ _)

theorem Flows.admitTerminal (h : s.Flows) (hready : s.Ready) (hok : s.terminalError = false)
    (frame : φ) {laneId : Str} {lane : TerminalLane φ} (hflow : s.Flow laneId lane)
    (hlane : lane.queue = (s.terminalLane laneId 0).queue) (hopen : lane.suppressed = false)
    (hkept : lane.releasePending = false) (position nextPosition : ℕ)
    (createSkipFrame : ℕ → ℕ → φ) (now later : ℤ) :
    (s.admitTerminal size limits frame laneId lane position nextPosition createSkipFrame now
      later).Flows := by
  obtain ⟨hqueue, hhighest, hreached⟩ := hflow.flowing hopen hkept
  rw [OutboundDeliveryPump.admitTerminal]
  split_ifs with hduplicate hgap hover
  · have hsame : lane.counted nextPosition = lane := by
      rw [TerminalLane.counted, max_eq_left (hhighest ▸ hduplicate)]
    rw [hsame]
    exact h.set rfl rfl rfl rfl hok hflow
  · apply Flows.start
    · apply h.congestTerminal size limits hok (lane.counted nextPosition) hflow.since hreached
      rw [TerminalLane.counted, hhighest]
    · exact hready.congestTerminal size limits hok _ _ _ _
  · apply Flows.start
    · apply h.congestTerminal size limits hok ((lane.counted nextPosition).advanced nextPosition now)
        hflow.since hreached
      rw [TerminalLane.counted, TerminalLane.advanced, hhighest, max_self]
      exact max_eq_right (not_le.mp hduplicate).le
    · exact hready.congestTerminal size limits hok _ _ _ _
  · have hsame : ((lane.counted nextPosition).advanced nextPosition now).queue =
        (s.terminalLane laneId 0).queue := hlane
    have hhead : ∀ pending, s.retainedTerminal laneId = some pending →
        lane.queue.head? = some pending := by
      intro pending hretained
      rw [hlane]
      exact hready.head_terminal hok 0 hretained
    apply Flows.start
    · rw [not_not] at hgap
      rw [hgap]
      exact h.set rfl rfl rfl rfl hok
        (hflow.queue hhead hopen hkept (not_le.mp hduplicate) now _ s.admissions frame)
    · exact hready.queueTerminal size hok hsame position nextPosition frame

theorem Flows.sendTerminal (h : s.Flows) (hready : s.Ready) (frame : φ)
    (a : TerminalDeliveryAdmission φ) (now later : ℤ) :
    (s.sendTerminal size limits frame a now later).Flows := by
  rw [OutboundDeliveryPump.sendTerminal]
  split_ifs with herror _ _ hclosed
  · exact h
  · exact h
  · exact h
  · exact h
  · have hok : s.terminalError = false := by simpa using herror
    obtain ⟨hkept, hopen⟩ := not_or.mp hclosed
    exact h.admitTerminal size limits hready hok frame (h.terminalLane hready hok a.laneId _)
      (terminalLane_queue s a.laneId _ 0) (by simpa using hopen) (by simpa using hkept) _ _ _ now later

theorem Flows.acknowledgeTerminal (h : s.Flows) (hok : s.terminalError = false) (laneId : Str)
    (position now : ℤ) : (s.acknowledgeTerminal laneId position now).Flows := by
  rw [OutboundDeliveryPump.acknowledgeTerminal]
  cases hlane : Entries.get s.terminalLanes laneId with
  | none => exact h
  | some lane =>
    have hflow := h.lanes _ (Entries.mem_of_get hlane)
    dsimp only
    split_ifs
    · exact h
    · refine h.set rfl rfl rfl rfl hok ⟨hflow.since, hflow.marked, fun hopen hkept => ?_⟩
      obtain ⟨hqueue, hhighest, hreached⟩ := hflow.flowing hopen hkept
      exact ⟨hqueue, hhighest, hreached⟩

theorem Flows.releaseTerminal (h : s.Flows) (hok : s.terminalError = false) (laneId : Str) :
    (s.releaseTerminal size laneId).Flows := by
  rw [OutboundDeliveryPump.releaseTerminal]
  cases hlane : Entries.get s.terminalLanes laneId with
  | none => exact h
  | some lane =>
    have hflow := h.lanes _ (Entries.mem_of_get hlane)
    dsimp only
    split_ifs
    · exact h.set rfl rfl rfl rfl hok (hflow.release size)
    · apply Flows.retire
      · exact h.congr rfl rfl rfl rfl rfl
      · exact hflow.marked.initial

theorem completeDelivery_handed (pending : PendingDelivery φ) :
    (s.completeDelivery size pending).handed = s.handed ∧
      (s.completeDelivery size pending).terminalError = s.terminalError := by
  obtain ⟨_, _, _, _, _, _, _, hframe⟩ := completeDelivery_frame size (s := s) pending
  rw [hframe]
  exact ⟨rfl, rfl⟩

theorem completeDelivery_other {pending : PendingDelivery φ}
    (hlane : pending.traffic.terminalLaneId = none) :
    (s.completeDelivery size pending).terminalLanes = s.terminalLanes ∧
      (s.completeDelivery size pending).retired = s.retired := by
  rw [OutboundDeliveryPump.completeDelivery]
  cases htraffic : pending.traffic with
  | control =>
    dsimp only
    rw [completeControl]
    split_ifs <;> exact ⟨rfl, rfl⟩
  | state laneId key | stateResync laneId =>
    dsimp only
    rw [completeState]
    split
    · exact ⟨rfl, rfl⟩
    · split_ifs <;> exact ⟨rfl, rfl⟩
  | terminal laneId position nextPosition | terminalSkip laneId fromPosition toPosition =>
    rw [htraffic] at hlane
    cases hlane

theorem isFirst_head {queue : List (PendingDelivery φ)} {pending : PendingDelivery φ}
    (hhead : queue.head? = some pending) : isFirst queue pending = true := by
  rw [isFirst, hhead]
  exact decide_eq_true rfl

theorem completeDelivery_terminal {laneId : Str} {lane : TerminalLane φ} {pending : PendingDelivery φ}
    (hlane : pending.traffic.terminalLaneId = some laneId)
    (hget : Entries.get s.terminalLanes laneId = some lane) (hhead : lane.queue.head? = some pending) :
    let counted := { s with
      terminalQueuedByteCount := s.terminalQueuedByteCount - size pending.frame }
    s.completeDelivery size pending =
      if lane.queue.tail = [] ∧ lane.releasePending = true then
        counted.retire laneId (lane.sent size pending)
      else
        { counted with
          terminalLanes := Entries.set s.terminalLanes laneId (lane.sent size pending) } := by
  have hcomplete : s.completeDelivery size pending = s.completeTerminal size laneId pending := by
    rw [OutboundDeliveryPump.completeDelivery]
    cases htraffic : pending.traffic <;> rw [htraffic] at hlane <;> cases hlane <;> rfl
  rw [hcomplete, completeTerminal, hget]
  exact if_pos (isFirst_head hhead)

theorem Flows.completeDelivery (h : s.Flows) (hready : s.Ready) (hok : s.terminalError = false)
    {pending : PendingDelivery φ} (hactive : s.activeDelivery = some pending)
    (hhanded : t.handed = s.handed) (hnone : t.activeDelivery = none)
    (herror : t.terminalError = false)
    (hlanes : t.terminalLanes = (s.completeDelivery size pending).terminalLanes)
    (hretired : t.retired = (s.completeDelivery size pending).retired) : t.Flows := by
  have hothers : ∀ e ∈ s.terminalLanes, pending.traffic.terminalLaneId ≠ some e.1 → t.Flow e.1 e.2 := by
    intro e he hother
    refine (h.lanes e he).congr hhanded ?_
    rw [retained_none hnone, retainedTerminal, hactive, Option.filter_some,
      if_neg (by simpa using hother)]
  cases hlane : pending.traffic.terminalLaneId with
  | none =>
    obtain ⟨hsame, hgone⟩ := completeDelivery_other (s := s) size hlane
    rw [hsame] at hlanes
    rw [hgone] at hretired
    refine ⟨fun e he => ?_, hretired ▸ h.retired, fun hfail => ?_⟩
    · rw [hlanes] at he
      exact hothers e he (by rw [hlane]; exact (by simp))
    · rw [herror] at hfail
      cases hfail
  | some laneId =>
    obtain ⟨lane, hget, hhead⟩ := (heads_terminal hlane).mp (hready.active pending hactive hok)
    have hflow := h.lanes _ (Entries.mem_of_get hget)
    have hsent := hflow.sent size (retainedTerminal_eq.mpr ⟨hactive, hlane⟩) hhanded hnone
    have hcomplete := completeDelivery_terminal (s := s) size hlane hget hhead
    dsimp only at hcomplete
    rw [hcomplete] at hlanes hretired
    have hfailed : t.terminalError = true → t.terminalLanes = [] := by
      intro hfail
      rw [herror] at hfail
      cases hfail
    split_ifs at hlanes hretired
    · refine ⟨fun e he => ?_, fun r hr => ?_, hfailed⟩
      · rw [hlanes] at he
        obtain ⟨he, hne⟩ := Entries.mem_delete.mp he
        exact hothers e he (by rw [hlane]; exact fun heq => hne (Option.some.inj heq).symm)
      · rw [hretired] at hr
        rcases List.mem_append.mp hr with hold | hnew
        · exact h.retired r hold
        · rw [List.mem_singleton.mp hnew]
          exact hflow.marked.initial
    · refine ⟨fun e he => ?_, hretired ▸ h.retired, hfailed⟩
      rw [hlanes] at he
      rcases Entries.mem_set.mp he with rfl | ⟨he, hne⟩
      · exact hsent
      · exact hothers e he (by rw [hlane]; exact fun heq => hne (Option.some.inj heq).symm)

/-- Once the active delivery has ended, the pump takes the next one. -/
theorem Flows.complete (h : s.Flows) (hs : s.Scheduled) {pending : PendingDelivery φ}
    (hactive : s.activeDelivery = some pending) (hok : s.terminalError = false)
    (completed : List (PendingDelivery φ)) : ({ s.completeDelivery size pending with
      activeDelivery := none, completed := completed } : OutboundDeliveryPump φ).drain.Flows := by
  obtain ⟨hhanded, hsame⟩ := completeDelivery_handed (s := s) size pending
  apply Flows.drain
  · exact h.completeDelivery size hs.toReady hok hactive hhanded rfl (hsame.trans hok) rfl rfl
  · exact hs.toLaid.completed size pending completed
  · rfl

theorem Flows.stopped (h : s.Flows) (herror : s.terminalError = true) :
    ({ s with activeDelivery := none, running := false } : OutboundDeliveryPump φ).Flows := by
  refine ⟨fun e he => ?_, h.retired, h.failed⟩
  rw [show s.terminalLanes = [] from h.failed herror] at he
  cases he

theorem Flows.delivered (h : s.Flows) (hs : s.Scheduled) : (s.delivered size).Flows := by
  rw [OutboundDeliveryPump.delivered]
  cases hactive : s.activeDelivery with
  | none => exact h
  | some pending =>
    dsimp only
    split_ifs with herror
    · exact h.stopped herror
    · exact h.complete size hs hactive (Bool.eq_false_iff.mpr herror) _

theorem Flows.rejected (h : s.Flows) (hs : s.Scheduled) (isOpen : Bool) :
    (s.rejected size isOpen).Flows := by
  rw [OutboundDeliveryPump.rejected]
  cases hactive : s.activeDelivery with
  | none => exact h
  | some pending =>
    dsimp only
    split_ifs with herror
    · exact h.stopped herror
    · exact h.complete size hs hactive (Bool.eq_false_iff.mpr herror) _
    · rw [OutboundDeliveryPump.fail, if_neg herror]
      exact ⟨(by simp), h.retired, fun _ => rfl⟩

theorem Flows.send (h : s.Flows) (hready : s.Ready) (frame : φ) : (s.send size limits frame).Flows := by
  rw [OutboundDeliveryPump.send]
  split_ifs
  · exact h
  · exact h.fail
  · apply Flows.start
    · exact h.congr rfl rfl rfl rfl rfl
    · exact hready.queueControl size frame

theorem Flows.sendState (h : s.Flows) (hready : s.Ready) (frame : φ) (a : StateDeliveryAdmission φ) :
    (s.sendState size limits frame a).Flows := by
  rw [OutboundDeliveryPump.sendState]
  split_ifs with herror
  · exact h
  · exact h
  · exact h.congr rfl rfl rfl rfl rfl
  · have hok : s.terminalError = false := by simpa using herror
    rw [admitState]
    split_ifs
    · apply Flows.start
      · rw [congestState, congestStateLane]
        split_ifs
        · exact h.congr rfl rfl rfl rfl rfl
        · exact h.congr rfl rfl rfl rfl rfl
      · exact hready.congestState size limits hok a _ _
    · apply Flows.start
      · exact h.congr rfl rfl rfl rfl rfl
      · exact hready.queueState size hok rfl _ frame

theorem Flows.step (h : s.Flows) (hs : s.Scheduled) (input : OutboundInput φ) :
    (s.step size limits input).Flows := by
  cases input with
  | send frame => exact h.send size limits hs.toReady frame
  | sendState frame admission => exact h.sendState size limits hs.toReady frame admission
  | sendTerminal frame admission now later =>
    exact h.sendTerminal size limits hs.toReady frame admission now later
  | acknowledgeTerminal laneId position now =>
    cases hok : s.terminalError with
    | false => exact h.acknowledgeTerminal hok laneId position now
    | true =>
      rw [OutboundDeliveryPump.step, OutboundDeliveryPump.acknowledgeTerminal, h.failed hok]
      exact h
  | releaseTerminal laneId =>
    cases hok : s.terminalError with
    | false => exact h.releaseTerminal size hok laneId
    | true =>
      rw [OutboundDeliveryPump.step, OutboundDeliveryPump.releaseTerminal, h.failed hok]
      exact h
  | delivered => exact h.delivered size hs
  | rejected isOpen => exact h.rejected size hs isOpen
  | close => exact h.fail

theorem created_scheduled : (created : OutboundDeliveryPump φ).Scheduled :=
  ⟨⟨⟨.nil, .nil, nofun, nofun, nofun⟩, rfl, nofun⟩, fun _ _ => ⟨rfl, nofun, nofun⟩⟩

theorem created_flows : (created : OutboundDeliveryPump φ).Flows := ⟨nofun, nofun, fun _ => rfl⟩

end Frames

end OutboundDeliveryPump

section Runs
open OutboundDeliveryPump
variable (size : φ → ℕ) (limits : OutboundDeliveryLimits)

/-- In a run that has not failed, and after a failure for the lanes that were gone before it. -/
theorem outbound_terminal_runs (inputs : List (OutboundInput φ)) :
    let s := Runs.after (step size limits) created inputs
    (∀ e ∈ s.terminalLanes, Marked e.2.start e.2.highest (s.laneHanded e.1 e.2.since)) ∧
      ∀ r ∈ s.retired, Marked r.lane.start r.lane.highest r.handed := by
  have hstep : ∀ (s : OutboundDeliveryPump φ) (input : OutboundInput φ), s.Scheduled ∧ s.Flows →
      (s.step size limits input).Scheduled ∧ (s.step size limits input).Flows := fun s input hs =>
    ⟨hs.1.step size limits hs.2.failed input, hs.2.step size limits hs.1 input⟩
  obtain ⟨_, hflows⟩ := Runs.invariant hstep ⟨created_scheduled, created_flows⟩ inputs
  exact ⟨fun e he => (hflows.lanes e he).marked.initial, hflows.retired⟩

end Runs

end Terminay.Protocol
