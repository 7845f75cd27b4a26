import Terminay.Protocol.Outbound

/-!
# The schedule of outbound delivery

The frame in flight is the first of its queue, and a pump runs as long as one is.
-/

namespace Terminay.Protocol
open Script

namespace OutboundDeliveryPump

variable {φ : Type} {s : OutboundDeliveryPump φ}

/-! ## Queues -/

structure Queued (laneOf : Traffic → Option Str) (laneId : Str) (admissions : ℕ)
    (queue : List (PendingDelivery φ)) : Prop where
  lane : ∀ pending ∈ queue, laneOf pending.traffic = some laneId
  order : (queue.map PendingDelivery.number).Pairwise (· < ·)
  fresh : ∀ pending ∈ queue, pending.number < admissions

namespace Queued

variable {laneOf : Traffic → Option Str} {laneId : Str} {admissions : ℕ}
  {queue : List (PendingDelivery φ)}

theorem nil : Queued laneOf laneId admissions ([] : List (PendingDelivery φ)) :=
  ⟨nofun, .nil, nofun⟩

theorem sublist {shorter : List (PendingDelivery φ)} (h : Queued laneOf laneId admissions queue)
    (hsub : shorter.Sublist queue) : Queued laneOf laneId admissions shorter :=
  ⟨fun pending hp => h.lane pending (hsub.subset hp), h.order.sublist (hsub.map _),
    fun pending hp => h.fresh pending (hsub.subset hp)⟩

theorem later (h : Queued laneOf laneId admissions queue) {later : ℕ} (hle : admissions ≤ later) :
    Queued laneOf laneId later queue :=
  ⟨h.lane, h.order, fun pending hp => (h.fresh pending hp).trans_le hle⟩

theorem concat (h : Queued laneOf laneId admissions queue) (pending : PendingDelivery φ)
    (hlane : laneOf pending.traffic = some laneId) (hnumber : admissions ≤ pending.number) :
    Queued laneOf laneId (pending.number + 1) (queue ++ [pending]) := by
  refine ⟨?_, ?_, ?_⟩
  · intro q hq
    rcases List.mem_append.mp hq with hold | hnew
    · exact h.lane q hold
    · rw [List.mem_singleton.mp hnew]
      exact hlane
  · rw [List.map_append, List.pairwise_append]
    refine ⟨h.order, List.pairwise_singleton _ _, ?_⟩
    intro n hn m hm
    obtain ⟨q, hq, rfl⟩ := List.mem_map.mp hn
    rw [List.map_singleton, List.mem_singleton] at hm
    rw [hm]
    exact (h.fresh q hq).trans_le hnumber
  · intro q hq
    rcases List.mem_append.mp hq with hold | hnew
    · have hfresh := h.fresh q hold
      omega
    · rw [List.mem_singleton.mp hnew]
      exact Nat.lt_succ_self _

theorem droppable_head (h : Queued laneOf laneId admissions queue) {active : PendingDelivery φ}
    (hhead : queue.head? = some active) : droppable (some active) queue = queue.tail := by
  cases queue with
  | nil => cases hhead
  | cons first rest =>
    obtain rfl := Option.some.inj hhead
    have horder := h.order
    rw [List.map_cons, List.pairwise_cons] at horder
    rw [droppable, List.filter_cons_of_neg (by simp), List.tail_cons]
    refine List.filter_eq_self.mpr fun pending hp => ?_
    have hlt := horder.1 pending.number (List.mem_map_of_mem hp)
    simp only [Option.any_some, Bool.not_eq_true', decide_eq_false_iff_not]
    omega

end Queued

theorem droppable_none (queue : List (PendingDelivery φ)) : droppable none queue = queue :=
  List.filter_eq_self.mpr fun _ _ => rfl

/-! ## The frame in flight -/

def Heads (s : OutboundDeliveryPump φ) (pending : PendingDelivery φ) : Prop :=
  match pending.traffic with
  | .control => s.controlQueue.head? = some pending
  | .state laneId _ | .stateResync laneId =>
    ∃ lane, Entries.get s.stateLanes laneId = some lane ∧ lane.queue.head? = some pending
  | .terminal laneId _ _ | .terminalSkip laneId _ _ =>
    ∃ lane, Entries.get s.terminalLanes laneId = some lane ∧ lane.queue.head? = some pending

theorem heads_state {pending : PendingDelivery φ} {laneId : Str}
    (hlane : pending.traffic.stateLaneId = some laneId) : s.Heads pending ↔
      ∃ lane, Entries.get s.stateLanes laneId = some lane ∧ lane.queue.head? = some pending := by
  rw [Heads]
  cases htraffic : pending.traffic <;> rw [htraffic] at hlane <;> cases hlane <;> rfl

theorem heads_terminal {pending : PendingDelivery φ} {laneId : Str}
    (hlane : pending.traffic.terminalLaneId = some laneId) : s.Heads pending ↔
      ∃ lane, Entries.get s.terminalLanes laneId = some lane ∧ lane.queue.head? = some pending := by
  rw [Heads]
  cases htraffic : pending.traffic <;> rw [htraffic] at hlane <;> cases hlane <;> rfl

structure Laid (s : OutboundDeliveryPump φ) : Prop where
  stateKeys : (Entries.keys s.stateLanes).Nodup
  terminalKeys : (Entries.keys s.terminalLanes).Nodup
  control : ∀ pending ∈ s.controlQueue, pending.traffic = .control
  state : ∀ e ∈ s.stateLanes, Queued Traffic.stateLaneId e.1 s.admissions e.2.queue
  terminal : ∀ e ∈ s.terminalLanes, Queued Traffic.terminalLaneId e.1 s.admissions e.2.queue

structure Ready (s : OutboundDeliveryPump φ) : Prop extends Laid s where
  running : s.running = s.activeDelivery.isSome
  active : ∀ pending ∈ s.activeDelivery, s.terminalError = false → s.Heads pending

structure Idle (s : OutboundDeliveryPump φ) : Prop where
  control : s.controlQueue = []
  state : ∀ e ∈ s.stateLanes, e.2.queue = []
  terminal : ∀ e ∈ s.terminalLanes, e.2.queue = []

structure Scheduled (s : OutboundDeliveryPump φ) : Prop extends Ready s where
  idle : s.terminalError = false → s.activeDelivery = none → s.Idle

/-! ## Turns of the loop -/

theorem pick_mem {queues : List (List (PendingDelivery φ))} (hne : queues ≠ [])
    (hqueues : ∀ queue ∈ queues, queue ≠ []) (cursor : ℕ) :
    ∃ queue ∈ queues, ∃ pending, pick queues cursor = some pending ∧ queue.head? = some pending := by
  have hlt : cursor % queues.length < queues.length :=
    Nat.mod_lt _ (List.length_pos_iff.mpr hne)
  obtain ⟨pending, rest, hqueue⟩ :=
    List.exists_cons_of_ne_nil (hqueues _ (List.getElem_mem hlt))
  refine ⟨queues[cursor % queues.length], List.getElem_mem hlt, pending, ?_, by rw [hqueue]; rfl⟩
  rw [pick, List.getElem?_eq_getElem hlt, Option.bind_some, hqueue]
  rfl

theorem busyState_mem {queue : List (PendingDelivery φ)} :
    queue ∈ s.busyStateLanes ↔ queue ≠ [] ∧ ∃ e ∈ s.stateLanes, e.2.queue = queue := by
  simp [busyStateLanes, and_comm]

theorem busyTerminal_mem {queue : List (PendingDelivery φ)} :
    queue ∈ s.busyTerminalLanes ↔ queue ≠ [] ∧ ∃ e ∈ s.terminalLanes, e.2.queue = queue := by
  simp [busyTerminalLanes, and_comm]

theorem idle_state (hstate : s.busyStateLanes = []) : ∀ e ∈ s.stateLanes, e.2.queue = [] := by
  intro e he
  by_contra hne
  have hmem := busyState_mem.mpr ⟨hne, e, he, rfl⟩
  rw [hstate] at hmem
  cases hmem

theorem idle_of_empty (hcontrol : s.controlQueue = []) (hstate : s.busyStateLanes = [])
    (hterminal : s.busyTerminalLanes = []) : s.Idle := by
  refine ⟨hcontrol, idle_state hstate, fun e he => ?_⟩
  by_contra hne
  have hmem := busyTerminal_mem.mpr ⟨hne, e, he, rfl⟩
  rw [hterminal] at hmem
  cases hmem

def handing (s : OutboundDeliveryPump φ) (pending : PendingDelivery φ)
    (terminalCursor stateCursor consecutive : ℕ) : OutboundDeliveryPump φ :=
  { s with
    activeDelivery := some pending
    handed := s.handed ++ [pending]
    terminalLaneCursor := terminalCursor
    stateLaneCursor := stateCursor
    consecutiveControlDeliveries := consecutive }

theorem lane_not_control {pending : PendingDelivery φ} {laneOf : Traffic → Option Str} {laneId : Str}
    (hlane : laneOf pending.traffic = some laneId) (hnone : laneOf .control = none) :
    pending.traffic ≠ .control := by
  intro hcontrol
  rw [hcontrol, hnone] at hlane
  cases hlane

/-- A control frame passes a waiting lane only in a short run, and terminal output waits for
every state lane. -/
structure Picked (s : OutboundDeliveryPump φ) (pending : PendingDelivery φ) (consecutive : ℕ) :
    Prop where
  heads : s.Heads pending
  counter : consecutive =
    if pending.traffic = .control then s.consecutiveControlDeliveries + 1 else 0
  short : pending.traffic = .control → (s.busyTerminalLanes = [] ∧ s.busyStateLanes = []) ∨
    s.consecutiveControlDeliveries < maxConsecutiveControlDeliveries
  last : ∀ laneId, pending.traffic.terminalLaneId = some laneId → s.busyStateLanes = []

theorem drain_picks (h : s.Laid) :
    (∃ pending a b c, s.Picked pending c ∧ s.drain = s.handing pending a b c) ∨
      s.Idle ∧ s.drain = { s with activeDelivery := none, running := false } := by
  rw [drain, nextDelivery]
  split_ifs with hfirst hbusy hidle
  · obtain ⟨pending, rest, hqueue⟩ := List.exists_cons_of_ne_nil hfirst.1
    have hcontrol := h.control pending (by rw [hqueue]; exact List.mem_cons_self)
    rw [hqueue]
    refine .inl ⟨pending, _, _, _, ⟨?_, (if_pos hcontrol).symm, fun _ => hfirst.2, ?_⟩,
      by rw [handing, hqueue]; rfl⟩
    · rw [Heads, hcontrol]
      simp only [hqueue, List.head?_cons]
    · rw [hcontrol]
      nofun
  · obtain ⟨queue, hmem, pending, hpick, hhead⟩ :=
      pick_mem hbusy (fun queue hq => (busyState_mem.mp hq).1) s.stateLaneCursor
    rw [hpick]
    obtain ⟨_, e, he, rfl⟩ := busyState_mem.mp hmem
    have hlane := (h.state e he).lane pending (List.mem_of_head? hhead)
    have hcontrol := lane_not_control hlane rfl
    refine .inl ⟨pending, _, _, _, ⟨(heads_state hlane).mpr
      ⟨e.2, Entries.get_of_mem h.stateKeys he, hhead⟩, (if_neg hcontrol).symm,
      fun hc => absurd hc hcontrol, fun laneId hterminal => ?_⟩, rfl⟩
    cases htraffic : pending.traffic <;> rw [htraffic] at hlane hterminal <;> cases hlane <;>
      cases hterminal
  · rw [not_not] at hbusy
    rw [hidle, hbusy] at hfirst
    refine .inr ⟨idle_of_empty ?_ hbusy hidle, rfl⟩
    by_contra hne
    exact hfirst ⟨hne, .inl ⟨rfl, rfl⟩⟩
  · obtain ⟨queue, hmem, pending, hpick, hhead⟩ :=
      pick_mem hidle (fun queue hq => (busyTerminal_mem.mp hq).1) s.terminalLaneCursor
    rw [hpick]
    obtain ⟨_, e, he, rfl⟩ := busyTerminal_mem.mp hmem
    have hlane := (h.terminal e he).lane pending (List.mem_of_head? hhead)
    have hcontrol := lane_not_control hlane rfl
    exact .inl ⟨pending, _, _, _, ⟨(heads_terminal hlane).mpr
      ⟨e.2, Entries.get_of_mem h.terminalKeys he, hhead⟩, (if_neg hcontrol).symm,
      fun hc => absurd hc hcontrol, fun _ _ => not_not.mp hbusy⟩, rfl⟩

theorem drain_cases (h : s.Laid) :
    (∃ pending a b c, s.Heads pending ∧ s.drain = s.handing pending a b c) ∨
      s.Idle ∧ s.drain = { s with activeDelivery := none, running := false } := by
  rcases drain_picks h with ⟨pending, a, b, c, hpicked, hdrain⟩ | hidle
  · exact .inl ⟨pending, a, b, c, hpicked.heads, hdrain⟩
  · exact .inr hidle

theorem heads_congr {t : OutboundDeliveryPump φ} (hcontrol : t.controlQueue = s.controlQueue)
    (hstate : t.stateLanes = s.stateLanes) (hterminal : t.terminalLanes = s.terminalLanes)
    (pending : PendingDelivery φ) : t.Heads pending ↔ s.Heads pending := by
  rw [Heads, Heads, hcontrol, hstate, hterminal]

theorem Laid.drain (h : s.Laid) (hrunning : s.running = true) : s.drain.Scheduled := by
  rcases drain_cases h with ⟨pending, a, b, c, hheads, hdrain⟩ | ⟨hidle, hdrain⟩
  · rw [hdrain]
    refine ⟨⟨⟨h.stateKeys, h.terminalKeys, h.control, h.state, h.terminal⟩, hrunning, ?_⟩, nofun⟩
    intro p hp _
    obtain rfl := Option.some.inj hp
    exact (heads_congr rfl rfl rfl pending).mpr hheads
  · rw [hdrain]
    exact ⟨⟨⟨h.stateKeys, h.terminalKeys, h.control, h.state, h.terminal⟩, rfl, nofun⟩,
      fun _ _ => ⟨hidle.control, hidle.state, hidle.terminal⟩⟩

/-- A pump that does not run has nothing in flight, and starting it moves nothing. -/
theorem Ready.unstarted (h : s.Ready) (hidle : ¬ s.running = true) :
    s.activeDelivery = none ∧ Laid { s with running := true } := by
  rw [h.running, Option.not_isSome_iff_eq_none] at hidle
  exact ⟨hidle, h.stateKeys, h.terminalKeys, h.control, h.state, h.terminal⟩

theorem Ready.start (h : s.Ready) : s.start.Scheduled := by
  rw [OutboundDeliveryPump.start]
  split_ifs with hbusy
  · refine ⟨h, fun hok hnone => ?_⟩
    rcases hbusy with hrunning | herror
    · rw [h.running, hnone] at hrunning
      cases hrunning
    · rw [hok] at herror
      cases herror
  · have hlaid : Laid { s with running := true } :=
      ⟨h.stateKeys, h.terminalKeys, h.control, h.state, h.terminal⟩
    exact hlaid.drain rfl

theorem Ready.fail (h : s.Ready) : s.fail.Scheduled := by
  rw [OutboundDeliveryPump.fail]
  split_ifs with herror
  · refine ⟨h, fun hok => ?_⟩
    rw [hok] at herror
    cases herror
  · exact ⟨⟨⟨.nil, .nil, nofun, nofun, nofun⟩, h.running, nofun⟩, nofun⟩

/-! ## Lanes -/

theorem retainedState_eq {laneId : Str} {pending : PendingDelivery φ} :
    s.retainedState laneId = some pending ↔
      s.activeDelivery = some pending ∧ pending.traffic.stateLaneId = some laneId := by
  simp [retainedState, Option.filter_eq_some_iff]

theorem retainedTerminal_eq {laneId : Str} {pending : PendingDelivery φ} :
    s.retainedTerminal laneId = some pending ↔
      s.activeDelivery = some pending ∧ pending.traffic.terminalLaneId = some laneId := by
  simp [retainedTerminal, Option.filter_eq_some_iff]

theorem Ready.setState (h : s.Ready) (hok : s.terminalError = false)
    {t : OutboundDeliveryPump φ} {laneId : Str} {lane : StateLane φ}
    (hlanes : t.stateLanes = Entries.set s.stateLanes laneId lane)
    (hcontrol : t.controlQueue = s.controlQueue) (hterminal : t.terminalLanes = s.terminalLanes)
    (hrunning : t.running = s.running) (hactive : t.activeDelivery = s.activeDelivery)
    (hadmissions : s.admissions ≤ t.admissions)
    (hqueue : Queued Traffic.stateLaneId laneId t.admissions lane.queue)
    (hkeep : ∀ pending, s.retainedState laneId = some pending → lane.queue.head? = some pending) :
    t.Ready where
  stateKeys := by
    rw [hlanes]
    exact Entries.keys_set_nodup h.stateKeys laneId lane
  terminalKeys := by
    rw [hterminal]
    exact h.terminalKeys
  control := by
    rw [hcontrol]
    exact h.control
  state := by
    intro e he
    rw [hlanes] at he
    rcases Entries.mem_set.mp he with rfl | ⟨he, _⟩
    · exact hqueue
    · exact (h.state e he).later hadmissions
  terminal := by
    rw [hterminal]
    exact fun e he => (h.terminal e he).later hadmissions
  running := by rw [hrunning, hactive, h.running]
  active := by
    intro pending hpending _
    rw [hactive] at hpending
    have hheads := h.active pending hpending hok
    by_cases hlane : pending.traffic.stateLaneId = some laneId
    · refine (heads_state hlane).mpr ⟨lane, ?_, hkeep pending (retainedState_eq.mpr ⟨hpending, hlane⟩)⟩
      rw [hlanes]
      exact Entries.get_set_self h.stateKeys laneId lane
    · rw [Heads, hcontrol, hterminal, hlanes]
      rw [Heads] at hheads
      cases htraffic : pending.traffic with
      | state other key | stateResync other =>
        rw [htraffic] at hheads hlane
        have hne : other ≠ laneId := fun heq => hlane (by rw [heq]; rfl)
        simp only [Entries.get_set_other h.stateKeys hne]
        exact hheads
      | _ =>
        rw [htraffic] at hheads
        exact hheads

theorem Ready.setTerminal (h : s.Ready) (hok : s.terminalError = false)
    {t : OutboundDeliveryPump φ} {laneId : Str} {lane : TerminalLane φ}
    (hlanes : t.terminalLanes = Entries.set s.terminalLanes laneId lane)
    (hcontrol : t.controlQueue = s.controlQueue) (hstate : t.stateLanes = s.stateLanes)
    (hrunning : t.running = s.running) (hactive : t.activeDelivery = s.activeDelivery)
    (hadmissions : s.admissions ≤ t.admissions)
    (hqueue : Queued Traffic.terminalLaneId laneId t.admissions lane.queue)
    (hkeep : ∀ pending, s.retainedTerminal laneId = some pending →
      lane.queue.head? = some pending) :
    t.Ready where
  stateKeys := by
    rw [hstate]
    exact h.stateKeys
  terminalKeys := by
    rw [hlanes]
    exact Entries.keys_set_nodup h.terminalKeys laneId lane
  control := by
    rw [hcontrol]
    exact h.control
  state := by
    rw [hstate]
    exact fun e he => (h.state e he).later hadmissions
  terminal := by
    intro e he
    rw [hlanes] at he
    rcases Entries.mem_set.mp he with rfl | ⟨he, _⟩
    · exact hqueue
    · exact (h.terminal e he).later hadmissions
  running := by rw [hrunning, hactive, h.running]
  active := by
    intro pending hpending _
    rw [hactive] at hpending
    have hheads := h.active pending hpending hok
    by_cases hlane : pending.traffic.terminalLaneId = some laneId
    · refine (heads_terminal hlane).mpr
        ⟨lane, ?_, hkeep pending (retainedTerminal_eq.mpr ⟨hpending, hlane⟩)⟩
      rw [hlanes]
      exact Entries.get_set_self h.terminalKeys laneId lane
    · rw [Heads, hcontrol, hstate, hlanes]
      rw [Heads] at hheads
      cases htraffic : pending.traffic with
      | terminal other position nextPosition | terminalSkip other fromPosition toPosition =>
        rw [htraffic] at hheads hlane
        have hne : other ≠ laneId := fun heq => hlane (by rw [heq]; rfl)
        simp only [Entries.get_set_other h.terminalKeys hne]
        exact hheads
      | _ =>
        rw [htraffic] at hheads
        exact hheads

theorem Ready.retained_state (h : s.Ready) (hok : s.terminalError = false) {laneId : Str}
    {pending : PendingDelivery φ} (hretained : s.retainedState laneId = some pending) :
    ∃ lane, Entries.get s.stateLanes laneId = some lane ∧ lane.queue.head? = some pending := by
  obtain ⟨hactive, hlane⟩ := retainedState_eq.mp hretained
  exact (heads_state hlane).mp (h.active pending hactive hok)

theorem Ready.retained_terminal (h : s.Ready) (hok : s.terminalError = false) {laneId : Str}
    {pending : PendingDelivery φ} (hretained : s.retainedTerminal laneId = some pending) :
    ∃ lane, Entries.get s.terminalLanes laneId = some lane ∧ lane.queue.head? = some pending := by
  obtain ⟨hactive, hlane⟩ := retainedTerminal_eq.mp hretained
  exact (heads_terminal hlane).mp (h.active pending hactive hok)

theorem Ready.head_state (h : s.Ready) (hok : s.terminalError = false) {laneId : Str}
    {pending : PendingDelivery φ} (hretained : s.retainedState laneId = some pending) :
    (s.stateLane laneId).queue.head? = some pending := by
  obtain ⟨lane, hlane, hhead⟩ := h.retained_state hok hretained
  rw [stateLane, hlane]
  exact hhead

theorem Ready.head_terminal (h : s.Ready) (hok : s.terminalError = false) {laneId : Str}
    (position : ℕ) {pending : PendingDelivery φ} (hretained : s.retainedTerminal laneId = some pending) :
    (s.terminalLane laneId position).queue.head? = some pending := by
  obtain ⟨lane, hlane, hhead⟩ := h.retained_terminal hok hretained
  rw [terminalLane, hlane]
  exact hhead

theorem Laid.stateLane (h : s.Laid) (laneId : Str) :
    Queued Traffic.stateLaneId laneId s.admissions (s.stateLane laneId).queue := by
  rw [OutboundDeliveryPump.stateLane]
  cases hlane : Entries.get s.stateLanes laneId with
  | none => exact .nil
  | some lane => exact h.state _ (Entries.mem_of_get hlane)

theorem Laid.terminalLane (h : s.Laid) (laneId : Str) (position : ℕ) :
    Queued Traffic.terminalLaneId laneId s.admissions (s.terminalLane laneId position).queue := by
  rw [OutboundDeliveryPump.terminalLane]
  cases hlane : Entries.get s.terminalLanes laneId with
  | none => exact .nil
  | some lane => exact h.terminal _ (Entries.mem_of_get hlane)

def waiting (retained : Option (PendingDelivery φ)) (queue : List (PendingDelivery φ)) :
    List (PendingDelivery φ) :=
  if retained.isSome = true then queue.tail else queue

theorem retained_append {queue : List (PendingDelivery φ)}
    {retained : Option (PendingDelivery φ)}
    (hhead : ∀ pending, retained = some pending → queue.head? = some pending) :
    retained.toList ++ waiting retained queue = queue := by
  cases retained with
  | none => rfl
  | some pending =>
    cases queue with
    | nil => cases hhead pending rfl
    | cons first rest =>
      obtain rfl := Option.some.inj (hhead pending rfl)
      rfl

theorem Queued.droppable_eq {laneOf : Traffic → Option Str} {laneId : Str} {admissions : ℕ}
    {queue : List (PendingDelivery φ)} (h : Queued laneOf laneId admissions queue)
    {retained : Option (PendingDelivery φ)}
    (hhead : ∀ pending, retained = some pending → queue.head? = some pending) :
    droppable retained queue = waiting retained queue := by
  cases retained with
  | none => exact droppable_none queue
  | some pending => exact h.droppable_head (hhead pending rfl)

theorem Queued.give {laneOf : Traffic → Option Str} {laneId : Str} {admissions : ℕ}
    {queue : List (PendingDelivery φ)} (h : Queued laneOf laneId admissions queue)
    {retained : Option (PendingDelivery φ)}
    (hhead : ∀ pending, retained = some pending → queue.head? = some pending) :
    Queued laneOf laneId admissions retained.toList := by
  cases retained with
  | none => exact .nil
  | some pending =>
    cases queue with
    | nil => cases hhead pending rfl
    | cons first rest =>
      obtain rfl := Option.some.inj (hhead pending rfl)
      exact h.sublist (by simp)

theorem head_append {retained : Option (PendingDelivery φ)} {queue : List (PendingDelivery φ)}
    {pending : PendingDelivery φ} (h : retained = some pending) :
    (retained.toList ++ queue).head? = some pending := by
  rw [h]
  rfl

/-! ## Operations -/

section Frames
variable (size : φ → ℕ) (limits : OutboundDeliveryLimits)

theorem Ready.queueControl (h : s.Ready) (frame : φ) : (s.queueControl size frame).Ready where
  stateKeys := h.stateKeys
  terminalKeys := h.terminalKeys
  control := by
    intro pending hp
    rcases List.mem_append.mp hp with hold | hnew
    · exact h.control pending hold
    · rw [List.mem_singleton.mp hnew]
  state e he := (h.state e he).later (Nat.le_succ _)
  terminal e he := (h.terminal e he).later (Nat.le_succ _)
  running := h.running
  active := by
    intro pending hp hok
    have hheads := h.active pending hp hok
    rw [Heads] at hheads ⊢
    cases htraffic : pending.traffic with
    | control =>
      rw [htraffic] at hheads
      rw [OutboundDeliveryPump.queueControl, List.head?_append, hheads]
      rfl
    | _ =>
      rw [htraffic] at hheads
      exact hheads

theorem Scheduled.send (h : s.Scheduled) (frame : φ) : (s.send size limits frame).Scheduled := by
  rw [OutboundDeliveryPump.send]
  split_ifs
  · exact h
  · exact h.toReady.fail
  · exact (h.toReady.queueControl size frame).start

theorem Laid.setState (h : s.Laid) {t : OutboundDeliveryPump φ} {laneId : Str} {lane : StateLane φ}
    (hlanes : t.stateLanes = Entries.set s.stateLanes laneId lane)
    (hcontrol : t.controlQueue = s.controlQueue) (hterminal : t.terminalLanes = s.terminalLanes)
    (hadmissions : t.admissions = s.admissions)
    (hqueue : Queued Traffic.stateLaneId laneId s.admissions lane.queue) : t.Laid := by
  refine ⟨?_, hterminal ▸ h.terminalKeys, hcontrol ▸ h.control, ?_, ?_⟩
  · rw [hlanes]
    exact Entries.keys_set_nodup h.stateKeys laneId lane
  · intro e he
    rw [hlanes] at he
    rw [hadmissions]
    rcases Entries.mem_set.mp he with rfl | ⟨he, _⟩
    · exact hqueue
    · exact h.state e he
  · rw [hterminal, hadmissions]
    exact h.terminal

theorem Laid.completeControl (h : s.Laid) (pending : PendingDelivery φ) :
    (s.completeControl size pending).Laid := by
  rw [OutboundDeliveryPump.completeControl]
  split_ifs
  · exact ⟨h.stateKeys, h.terminalKeys, fun p hp => h.control p (List.mem_of_mem_tail hp), h.state,
      h.terminal⟩
  · exact h

theorem Laid.completeState (h : s.Laid) (laneId : Str) (pending : PendingDelivery φ) :
    (s.completeState size laneId pending).Laid := by
  rw [OutboundDeliveryPump.completeState]
  cases hlane : Entries.get s.stateLanes laneId with
  | none => exact h
  | some lane =>
    have hqueued := h.state _ (Entries.mem_of_get hlane)
    dsimp only
    by_cases hfirst : isFirst lane.queue pending = true
    · rw [if_pos hfirst]
      by_cases hlast : lane.queue.tail = []
      · rw [if_pos hlast]
        exact ⟨Entries.keys_delete_nodup h.stateKeys laneId, h.terminalKeys, h.control,
          fun e he => h.state e (Entries.mem_delete.mp he).1, h.terminal⟩
      · rw [if_neg hlast]
        exact h.setState rfl rfl rfl rfl (hqueued.sublist (List.tail_sublist _))
    · rw [if_neg hfirst]
      exact h

theorem Laid.retire (h : s.Laid) (laneId : Str) (lane : TerminalLane φ) : (s.retire laneId lane).Laid :=
  ⟨h.stateKeys, Entries.keys_delete_nodup h.terminalKeys laneId, h.control, h.state,
    fun e he => h.terminal e (Entries.mem_delete.mp he).1⟩

theorem Laid.completeTerminal (h : s.Laid) (laneId : Str) (pending : PendingDelivery φ) :
    (s.completeTerminal size laneId pending).Laid := by
  rw [OutboundDeliveryPump.completeTerminal]
  cases hlane : Entries.get s.terminalLanes laneId with
  | none => exact h
  | some lane =>
    have hqueued := h.terminal _ (Entries.mem_of_get hlane)
    dsimp only
    split_ifs
    · apply Laid.retire
      exact ⟨h.stateKeys, h.terminalKeys, h.control, h.state, h.terminal⟩
    · refine ⟨h.stateKeys, Entries.keys_set_nodup h.terminalKeys laneId _, h.control, h.state, ?_⟩
      intro e he
      rcases Entries.mem_set.mp he with rfl | ⟨he, _⟩
      · exact hqueued.sublist (List.tail_sublist _)
      · exact h.terminal e he
    · exact h

theorem Laid.completeDelivery (h : s.Laid) (pending : PendingDelivery φ) :
    (s.completeDelivery size pending).Laid := by
  rw [OutboundDeliveryPump.completeDelivery]
  split
  · exact h.completeControl size pending
  · exact h.completeState size _ pending
  · exact h.completeState size _ pending
  · exact h.completeTerminal size _ pending
  · exact h.completeTerminal size _ pending

/-! What the end of a delivery leaves alone. -/

theorem completeControl_frame (pending : PendingDelivery φ) : ∃ queue count,
    s.completeControl size pending =
      { s with controlQueue := queue, controlQueuedByteCount := count } := by
  rw [OutboundDeliveryPump.completeControl]
  split_ifs <;> exact ⟨_, _, rfl⟩

theorem completeState_frame (laneId : Str) (pending : PendingDelivery φ) : ∃ lanes count,
    s.completeState size laneId pending =
      { s with stateLanes := lanes, stateQueuedByteCount := count } := by
  rw [OutboundDeliveryPump.completeState]
  split
  · exact ⟨_, _, rfl⟩
  · split_ifs <;> exact ⟨_, _, rfl⟩

theorem completeTerminal_frame (laneId : Str) (pending : PendingDelivery φ) :
    ∃ lanes count retired, s.completeTerminal size laneId pending =
      { s with terminalLanes := lanes, terminalQueuedByteCount := count, retired := retired } := by
  rw [OutboundDeliveryPump.completeTerminal]
  split
  · exact ⟨_, _, _, rfl⟩
  · split_ifs <;> exact ⟨_, _, _, rfl⟩

theorem completeDelivery_frame (pending : PendingDelivery φ) :
    ∃ queue count stateLanes stateCount terminalLanes terminalCount retired,
      s.completeDelivery size pending =
        { s with
          controlQueue := queue, controlQueuedByteCount := count
          stateLanes := stateLanes, stateQueuedByteCount := stateCount
          terminalLanes := terminalLanes, terminalQueuedByteCount := terminalCount
          retired := retired } := by
  rw [OutboundDeliveryPump.completeDelivery]
  split
  · obtain ⟨_, _, hframe⟩ := completeControl_frame size (s := s) pending
    exact ⟨_, _, _, _, _, _, _, hframe⟩
  iterate 2
    · obtain ⟨_, _, hframe⟩ := completeState_frame size (s := s) _ pending
      exact ⟨_, _, _, _, _, _, _, hframe⟩
  all_goals
    obtain ⟨_, _, _, hframe⟩ := completeTerminal_frame size (s := s) _ pending
    exact ⟨_, _, _, _, _, _, _, hframe⟩

theorem Laid.stopped (h : s.Laid) : Ready { s with activeDelivery := none, running := false } :=
  ⟨⟨h.stateKeys, h.terminalKeys, h.control, h.state, h.terminal⟩, rfl, nofun⟩

theorem Laid.stopped_failed (h : s.Laid) (herror : s.terminalError = true) :
    Scheduled { s with activeDelivery := none, running := false } := by
  refine ⟨h.stopped, fun hok => ?_⟩
  have hok : s.terminalError = false := hok
  rw [hok] at herror
  cases herror

theorem Laid.completed (h : s.Laid) (pending : PendingDelivery φ)
    (completed : List (PendingDelivery φ)) : Laid { s.completeDelivery size pending with
      activeDelivery := none, completed := completed } := by
  have hlaid := h.completeDelivery size pending
  exact ⟨hlaid.stateKeys, hlaid.terminalKeys, hlaid.control, hlaid.state, hlaid.terminal⟩

theorem Scheduled.complete (h : s.Scheduled) {pending : PendingDelivery φ}
    (hactive : s.activeDelivery = some pending) (completed : List (PendingDelivery φ)) :
    ({ s.completeDelivery size pending with
      activeDelivery := none, completed := completed } : OutboundDeliveryPump φ).drain.Scheduled := by
  obtain ⟨_, _, _, _, _, _, _, hframe⟩ := completeDelivery_frame size (s := s) pending
  exact (h.toLaid.completed size pending completed).drain (by rw [hframe, h.running, hactive]; rfl)

theorem Scheduled.delivered (h : s.Scheduled) : (s.delivered size).Scheduled := by
  rw [OutboundDeliveryPump.delivered]
  cases hactive : s.activeDelivery with
  | none => exact h
  | some pending =>
    dsimp only
    split_ifs with herror
    · exact h.toLaid.stopped_failed herror
    · exact h.complete size hactive _

theorem Scheduled.rejected (h : s.Scheduled) (isOpen : Bool) : (s.rejected size isOpen).Scheduled := by
  rw [OutboundDeliveryPump.rejected]
  cases hactive : s.activeDelivery with
  | none => exact h
  | some pending =>
    dsimp only
    split_ifs with herror
    · exact h.toLaid.stopped_failed herror
    · exact h.complete size hactive _
    · exact h.toLaid.stopped.fail

/-! ## State lanes -/

theorem Scheduled.remember (h : s.Scheduled) {t : OutboundDeliveryPump φ}
    (hcontrol : t.controlQueue = s.controlQueue) (hstate : t.stateLanes = s.stateLanes)
    (hterminal : t.terminalLanes = s.terminalLanes) (hrunning : t.running = s.running)
    (hactive : t.activeDelivery = s.activeDelivery) (herror : t.terminalError = s.terminalError)
    (hadmissions : s.admissions ≤ t.admissions) : t.Scheduled := by
  refine ⟨⟨⟨hstate ▸ h.stateKeys, hterminal ▸ h.terminalKeys, hcontrol ▸ h.control, ?_, ?_⟩, ?_, ?_⟩, ?_⟩
  · rw [hstate]
    exact fun e he => (h.state e he).later hadmissions
  · rw [hterminal]
    exact fun e he => (h.terminal e he).later hadmissions
  · rw [hrunning, hactive, h.running]
  · rw [hactive, herror]
    exact fun pending hp hok =>
      (heads_congr hcontrol hstate hterminal pending).mpr (h.active pending hp hok)
  · intro hok hnone
    have hidle := h.idle (herror ▸ hok) (hactive ▸ hnone)
    exact ⟨hcontrol ▸ hidle.control, hstate ▸ hidle.state, hterminal ▸ hidle.terminal⟩

theorem superseding_queue (lane : StateLane φ) (key : Str) :
    (s.superseding size lane key).queue = lane.queue.eraseP (s.replaceable key) := by
  rw [superseding]
  cases hfind : lane.queue.find? (s.replaceable key) with
  | none => exact (List.eraseP_of_forall_not (List.find?_eq_none.mp hfind)).symm
  | some replaced => rfl

theorem eraseP_head (key : Str) {queue : List (PendingDelivery φ)} {pending : PendingDelivery φ}
    (hactive : s.activeDelivery = some pending) (hhead : queue.head? = some pending) :
    (queue.eraseP (s.replaceable key)).head? = some pending := by
  cases queue with
  | nil => cases hhead
  | cons first rest =>
    obtain rfl := Option.some.inj hhead
    rw [List.eraseP_cons_of_neg (by simp [replaceable, isActive, hactive])]
    rfl

theorem Ready.queueState (h : s.Ready) (hok : s.terminalError = false) {a : StateDeliveryAdmission φ}
    {lane : StateLane φ} (hlane : lane.queue = (s.stateLane a.laneId).queue)
    (replaced : Option (PendingDelivery φ)) (frame : φ) :
    ((s.numbered size a replaced).queueState size a.laneId a.key (s.superseding size lane a.key)
      s.admissions frame).Ready := by
  have hqueued := (h.stateLane a.laneId).sublist (List.eraseP_sublist (p := s.replaceable a.key))
  rw [← hlane, ← superseding_queue size] at hqueued
  refine h.setState hok rfl rfl rfl rfl rfl (Nat.le_succ _) ?_ ?_
  · exact hqueued.concat ⟨s.admissions, frame, .state a.laneId a.key⟩ rfl le_rfl
  · intro pending hretained
    have hhead := h.head_state hok hretained
    rw [← hlane] at hhead
    have hkept := eraseP_head a.key (retainedState_eq.mp hretained).1 hhead
    rw [← superseding_queue size] at hkept
    rw [List.head?_append, hkept]
    rfl

theorem Ready.congestState (h : s.Ready) (hok : s.terminalError = false) (a : StateDeliveryAdmission φ)
    (lane : StateLane φ) (replaced : Option (PendingDelivery φ)) :
    ((s.numbered size a replaced).congestState size limits a.laneId lane s.admissions
      a.resyncFrame).Ready := by
  have hgiven : Queued Traffic.stateLaneId a.laneId (s.admissions + 1)
      (s.retainedState a.laneId).toList :=
    ((h.stateLane a.laneId).give fun pending hp => h.head_state hok hp).later (Nat.le_succ _)
  rw [OutboundDeliveryPump.congestState, congestStateLane]
  split_ifs
  · refine h.setState hok rfl rfl rfl rfl rfl (Nat.le_succ _) hgiven ?_
    intro pending hretained
    rw [show (s.numbered size a replaced).retainedState a.laneId = some pending from hretained]
    rfl
  · refine h.setState hok rfl rfl rfl rfl rfl ((Nat.le_succ _).trans (Nat.le_succ _)) ?_ ?_
    · exact hgiven.concat ⟨s.admissions + 1, a.resyncFrame, .stateResync a.laneId⟩ rfl le_rfl
    · intro pending hretained
      exact head_append hretained

theorem Scheduled.sendState (h : s.Scheduled) (frame : φ) (a : StateDeliveryAdmission φ) :
    (s.sendState size limits frame a).Scheduled := by
  rw [OutboundDeliveryPump.sendState]
  split_ifs with herror hinvalid hpending
  · exact h
  · exact h
  · exact h.remember rfl rfl rfl rfl rfl rfl (Nat.le_succ _)
  · have hok : s.terminalError = false := by simpa using herror
    rw [admitState]
    split_ifs
    · exact (h.toReady.congestState size limits hok a _ _).start
    · exact (h.toReady.queueState size hok rfl _ frame).start

/-! ## Terminal lanes -/

theorem Idle.terminalLane (h : s.Idle) (laneId : Str) (position : ℕ) :
    (s.terminalLane laneId position).queue = [] := by
  rw [OutboundDeliveryPump.terminalLane]
  cases hlane : Entries.get s.terminalLanes laneId with
  | none => rfl
  | some lane => exact h.terminal _ (Entries.mem_of_get hlane)

theorem Scheduled.setTerminal (h : s.Scheduled) (hok : s.terminalError = false)
    {t : OutboundDeliveryPump φ} {laneId : Str} {lane : TerminalLane φ}
    (hlanes : t.terminalLanes = Entries.set s.terminalLanes laneId lane)
    (hcontrol : t.controlQueue = s.controlQueue) (hstate : t.stateLanes = s.stateLanes)
    (hrunning : t.running = s.running) (hactive : t.activeDelivery = s.activeDelivery)
    (hadmissions : t.admissions = s.admissions)
    (hqueue : lane.queue.Sublist (s.terminalLane laneId 0).queue)
    (hkeep : ∀ pending, s.retainedTerminal laneId = some pending →
      lane.queue.head? = some pending) : t.Scheduled := by
  have hqueued : Queued Traffic.terminalLaneId laneId t.admissions lane.queue := by
    rw [hadmissions]
    exact (h.terminalLane laneId 0).sublist hqueue
  refine ⟨h.toReady.setTerminal hok hlanes hcontrol hstate hrunning hactive hadmissions.ge hqueued
    hkeep, fun _ hnone => ?_⟩
  have hidle := h.idle hok (hactive ▸ hnone)
  refine ⟨hcontrol ▸ hidle.control, hstate ▸ hidle.state, fun e he => ?_⟩
  rw [hlanes] at he
  rcases Entries.mem_set.mp he with rfl | ⟨he, _⟩
  · rw [hidle.terminalLane laneId 0] at hqueue
    exact List.sublist_nil.mp hqueue
  · exact hidle.terminal e he

theorem terminalLane_queue (s : OutboundDeliveryPump φ) (laneId : Str) (a b : ℕ) :
    (s.terminalLane laneId a).queue = (s.terminalLane laneId b).queue := by
  rw [terminalLane, terminalLane]
  cases Entries.get s.terminalLanes laneId with
  | none => rfl
  | some lane => rfl

theorem Ready.queueTerminal (h : s.Ready) (hok : s.terminalError = false) {laneId : Str}
    {lane : TerminalLane φ} (hlane : lane.queue = (s.terminalLane laneId 0).queue)
    (position nextPosition : ℕ) (frame : φ) :
    (s.queueTerminal size laneId lane position nextPosition frame).Ready := by
  have hqueued := h.terminalLane laneId 0
  rw [← hlane] at hqueued
  refine h.setTerminal hok rfl rfl rfl rfl rfl (Nat.le_succ _) ?_ ?_
  · exact hqueued.concat ⟨s.admissions, frame, .terminal laneId position nextPosition⟩ rfl le_rfl
  · intro pending hretained
    have hhead := h.head_terminal hok 0 hretained
    rw [← hlane] at hhead
    rw [List.head?_append, hhead]
    rfl

theorem Ready.congestTerminal (h : s.Ready) (hok : s.terminalError = false) (laneId : Str)
    (lane : TerminalLane φ) (nextPosition : ℕ) (createSkipFrame : ℕ → ℕ → φ) :
    (s.congestTerminalLane size limits laneId lane nextPosition createSkipFrame).Ready := by
  have hgiven := (h.terminalLane laneId 0).give fun pending hp => h.head_terminal hok 0 hp
  rw [congestTerminalLane]
  split_ifs
  · exact h.fail.toReady
  · refine h.setTerminal hok rfl rfl rfl rfl rfl (Nat.le_succ _) ?_ ?_
    · exact hgiven.concat ⟨s.admissions, _, .terminalSkip laneId _ _⟩ rfl le_rfl
    · intro pending hretained
      exact head_append hretained

theorem Scheduled.admitTerminal (h : s.Scheduled) (hok : s.terminalError = false) (frame : φ)
    {laneId : Str} {lane : TerminalLane φ} (hlane : lane.queue = (s.terminalLane laneId 0).queue)
    (position nextPosition : ℕ) (createSkipFrame : ℕ → ℕ → φ) (now later : ℤ) :
    (s.admitTerminal size limits frame laneId lane position nextPosition createSkipFrame now
      later).Scheduled := by
  rw [OutboundDeliveryPump.admitTerminal]
  split_ifs
  · refine h.setTerminal hok rfl rfl rfl rfl rfl rfl (by rw [TerminalLane.counted, hlane]) fun pending hretained => ?_
    have hhead := h.head_terminal hok 0 hretained
    rw [← hlane] at hhead
    exact hhead
  · exact (h.toReady.congestTerminal size limits hok _ _ _ _).start
  · exact (h.toReady.congestTerminal size limits hok _ _ _ _).start
  · have hqueue : ((lane.counted nextPosition).advanced nextPosition now).queue =
        (s.terminalLane laneId 0).queue := hlane
    exact (h.toReady.queueTerminal size hok hqueue position nextPosition frame).start

theorem Scheduled.sendTerminal (h : s.Scheduled) (frame : φ) (a : TerminalDeliveryAdmission φ)
    (now later : ℤ) : (s.sendTerminal size limits frame a now later).Scheduled := by
  rw [OutboundDeliveryPump.sendTerminal]
  split_ifs with herror
  · exact h
  · exact h
  · exact h
  · exact h
  · exact h.admitTerminal size limits (by simpa using herror) frame
      (terminalLane_queue s a.laneId _ 0) _ _ _ now later

theorem terminalLane_get {laneId : Str} {lane : TerminalLane φ}
    (hlane : Entries.get s.terminalLanes laneId = some lane) (position : ℕ) :
    s.terminalLane laneId position = lane := by
  rw [terminalLane, hlane]
  rfl

theorem Scheduled.acknowledgeTerminal (h : s.Scheduled) (laneId : Str) (position now : ℤ)
    (hok : s.terminalError = false) : (s.acknowledgeTerminal laneId position now).Scheduled := by
  rw [OutboundDeliveryPump.acknowledgeTerminal]
  cases hlane : Entries.get s.terminalLanes laneId with
  | none => exact h
  | some lane =>
    have hqueue : lane.queue = (s.terminalLane laneId 0).queue := by rw [terminalLane_get hlane]
    dsimp only
    split_ifs
    · exact h
    · refine h.setTerminal hok rfl rfl rfl rfl rfl rfl (by rw [TerminalLane.confirmed, hqueue]) fun pending hretained => ?_
      have hhead := h.head_terminal hok 0 hretained
      rw [← hqueue] at hhead
      exact hhead

theorem Scheduled.retire (h : s.Scheduled) (hok : s.terminalError = false) {laneId : Str}
    (hnone : s.retainedTerminal laneId = none) (lane : TerminalLane φ) :
    (s.retire laneId lane).Scheduled := by
  refine ⟨⟨h.toLaid.retire laneId lane, h.running, fun pending hp _ => ?_⟩, fun _ hidle => ?_⟩
  · have hheads := h.active pending hp hok
    rw [Heads] at hheads ⊢
    cases htraffic : pending.traffic with
    | terminal other position nextPosition | terminalSkip other fromPosition toPosition =>
      rw [htraffic] at hheads
      have hne : other ≠ laneId := by
        rintro rfl
        have hretained : s.retainedTerminal other = some pending :=
          retainedTerminal_eq.mpr ⟨hp, by rw [htraffic]; rfl⟩
        rw [hnone] at hretained
        cases hretained
      simp only [OutboundDeliveryPump.retire, Entries.get_delete_other h.terminalKeys hne]
      exact hheads
    | _ =>
      rw [htraffic] at hheads
      exact hheads
  · have hold := h.idle hok hidle
    exact ⟨hold.control, hold.state, fun e he => hold.terminal e (Entries.mem_delete.mp he).1⟩

theorem Scheduled.releaseTerminal (h : s.Scheduled) (laneId : Str) (hok : s.terminalError = false) :
    (s.releaseTerminal size laneId).Scheduled := by
  rw [OutboundDeliveryPump.releaseTerminal]
  cases hlane : Entries.get s.terminalLanes laneId with
  | none => exact h
  | some lane =>
    dsimp only
    cases hretained : s.retainedTerminal laneId with
    | none =>
      rw [if_neg (by simp)]
      have hcounted : Scheduled { s with
          terminalQueuedByteCount :=
            s.terminalQueuedByteCount - totalBytes size (droppable none lane.queue) } :=
        h.remember rfl rfl rfl rfl rfl rfl le_rfl
      exact hcounted.retire hok hretained _
    | some pending =>
      rw [if_pos Option.isSome_some]
      refine h.setTerminal hok rfl rfl rfl rfl rfl rfl ?_ fun p hp => ?_
      · have hhead := h.head_terminal hok 0 hretained
        exact List.singleton_sublist.mpr (List.mem_of_head? hhead)
      · rw [hretained] at hp
        exact hp ▸ rfl

theorem Scheduled.step (h : s.Scheduled) (hfailed : s.terminalError = true → s.terminalLanes = [])
    (input : OutboundInput φ) : (s.step size limits input).Scheduled := by
  cases input with
  | send frame => exact h.send size limits frame
  | sendState frame admission => exact h.sendState size limits frame admission
  | sendTerminal frame admission now later => exact h.sendTerminal size limits frame admission now later
  | acknowledgeTerminal laneId position now =>
    cases hok : s.terminalError with
    | false => exact h.acknowledgeTerminal laneId position now hok
    | true =>
      rw [OutboundDeliveryPump.step, OutboundDeliveryPump.acknowledgeTerminal, hfailed hok]
      exact h
  | releaseTerminal laneId =>
    cases hok : s.terminalError with
    | false => exact h.releaseTerminal size laneId hok
    | true =>
      rw [OutboundDeliveryPump.step, OutboundDeliveryPump.releaseTerminal, hfailed hok]
      exact h
  | delivered => exact h.delivered size
  | rejected isOpen => exact h.rejected size isOpen
  | close => exact h.toReady.fail

end Frames

end OutboundDeliveryPump

end Terminay.Protocol
