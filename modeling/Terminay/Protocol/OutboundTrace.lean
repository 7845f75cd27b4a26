import Terminay.Protocol.OutboundState

/-!
# The trace of a stream over outbound delivery

A stream puts its frames in one state lane and one terminal lane.
-/

namespace Terminay.Protocol
open Script

variable {φ : Type}

namespace OutboundDeliveryPump

variable {s t : OutboundDeliveryPump φ}

section Stream
variable (numbers : φ → List ℕ) (stateId terminalId : Str)

def carried (frames : List (PendingDelivery φ)) : List ℕ :=
  frames.flatMap fun pending => numbers pending.frame

def waitingState (s : OutboundDeliveryPump φ) (laneId : Str) : List (PendingDelivery φ) :=
  waiting (s.retainedState laneId) (s.stateLane laneId).queue

def waitingTerminal (s : OutboundDeliveryPump φ) (laneId : Str) : List (PendingDelivery φ) :=
  waiting (s.retainedTerminal laneId) (s.terminalLane laneId 0).queue

def due (s : OutboundDeliveryPump φ) : List ℕ :=
  carried numbers s.handed ++ carried numbers (s.waitingState stateId) ++
    carried numbers (s.waitingTerminal terminalId)

structure Elsewhere (s : OutboundDeliveryPump φ) : Prop where
  control : ∀ pending ∈ s.controlQueue, numbers pending.frame = []
  state : ∀ laneId, laneId ≠ stateId → ∀ pending ∈ (s.stateLane laneId).queue,
    numbers pending.frame = []
  terminal : ∀ laneId, laneId ≠ terminalId → ∀ pending ∈ (s.terminalLane laneId 0).queue,
    numbers pending.frame = []
  failed : s.terminalError = true → s.stateLanes = [] ∧ s.terminalLanes = []

variable {numbers stateId terminalId}

theorem carried_append (xs ys : List (PendingDelivery φ)) (numbers : φ → List ℕ) :
    carried numbers (xs ++ ys) = carried numbers xs ++ carried numbers ys :=
  List.flatMap_append

theorem carried_sublist {xs ys : List (PendingDelivery φ)} (h : xs.Sublist ys) :
    (carried numbers xs).Sublist (carried numbers ys) := by
  induction h with
  | slnil => exact List.Sublist.refl _
  | cons p _ ih => exact ih.trans (List.sublist_append_right _ _)
  | cons_cons p _ ih => exact ih.append_left _

theorem carried_nil {frames : List (PendingDelivery φ)}
    (h : ∀ pending ∈ frames, numbers pending.frame = []) : carried numbers frames = [] :=
  List.flatMap_eq_nil_iff.mpr h

theorem carried_singleton (pending : PendingDelivery φ) :
    carried numbers [pending] = numbers pending.frame := List.append_nil _

/-! ## Turns of the loop -/

theorem waitingState_none (hnone : s.activeDelivery = none) (laneId : Str) :
    s.waitingState laneId = (s.stateLane laneId).queue := by
  rw [waitingState, retainedState_none hnone]
  rfl

theorem waitingTerminal_none (hnone : s.activeDelivery = none) (laneId : Str) :
    s.waitingTerminal laneId = (s.terminalLane laneId 0).queue := by
  rw [waitingTerminal, retained_none hnone]
  rfl

theorem waitingState_other {pending : PendingDelivery φ} (hactive : t.activeDelivery = some pending)
    {laneId : Str} (hlane : pending.traffic.stateLaneId ≠ some laneId) :
    t.waitingState laneId = (t.stateLane laneId).queue := by
  rw [waitingState, retainedState, hactive, Option.filter_some, if_neg (by simpa using hlane)]
  rfl

theorem waitingTerminal_other {pending : PendingDelivery φ}
    (hactive : t.activeDelivery = some pending) {laneId : Str}
    (hlane : pending.traffic.terminalLaneId ≠ some laneId) :
    t.waitingTerminal laneId = (t.terminalLane laneId 0).queue := by
  rw [waitingTerminal, retainedTerminal, hactive, Option.filter_some, if_neg (by simpa using hlane)]
  rfl

theorem empty_state (h : ∀ e ∈ s.stateLanes, e.2.queue = []) (laneId : Str) :
    (s.stateLane laneId).queue = [] := by
  rw [stateLane]
  cases hlane : Entries.get s.stateLanes laneId with
  | none => rfl
  | some lane => exact h _ (Entries.mem_of_get hlane)

theorem terminalLane_congr (h : t.terminalLanes = s.terminalLanes) (laneId : Str) :
    (t.terminalLane laneId 0).queue = (s.terminalLane laneId 0).queue := by
  rw [terminalLane, terminalLane, h]
  cases Entries.get s.terminalLanes laneId with
  | none => rfl
  | some lane => rfl

theorem stateLane_congr (h : t.stateLanes = s.stateLanes) (laneId : Str) :
    t.stateLane laneId = s.stateLane laneId := by
  rw [stateLane, stateLane, h]

theorem Elsewhere.congr (h : s.Elsewhere numbers stateId terminalId)
    (hcontrol : t.controlQueue = s.controlQueue) (hstate : t.stateLanes = s.stateLanes)
    (hterminal : t.terminalLanes = s.terminalLanes) (herror : t.terminalError = s.terminalError) :
    t.Elsewhere numbers stateId terminalId := by
  refine ⟨hcontrol ▸ h.control, fun laneId hne => ?_, fun laneId hne => ?_, ?_⟩
  · rw [stateLane_congr hstate]
    exact h.state laneId hne
  · rw [terminalLane_congr hterminal]
    exact h.terminal laneId hne
  · rw [herror, hstate, hterminal]
    exact h.failed

theorem Elsewhere.drain (h : s.Elsewhere numbers stateId terminalId) (hlaid : s.Laid) :
    s.drain.Elsewhere numbers stateId terminalId := by
  rcases drain_cases hlaid with ⟨pending, a, b, c, _, hdrain⟩ | ⟨_, hdrain⟩
  · rw [hdrain]
    exact h.congr rfl rfl rfl rfl
  · rw [hdrain]
    exact h.congr rfl rfl rfl rfl

theorem due_drain (h : s.Elsewhere numbers stateId terminalId) (hlaid : s.Laid)
    (hnone : s.activeDelivery = none) :
    s.drain.due numbers stateId terminalId = s.due numbers stateId terminalId := by
  rcases drain_picks hlaid with ⟨pending, a, b, c, hpicked, hdrain⟩ | ⟨_, hdrain⟩
  · have hheads := hpicked.heads
    rw [hdrain]
    set t := s.handing pending a b c with ht
    have hactive : t.activeDelivery = some pending := rfl
    have hhanded : carried numbers t.handed = carried numbers s.handed ++ numbers pending.frame := by
      have happend := carried_append s.handed [pending] numbers
      rw [carried_singleton] at happend
      exact happend
    have hstate : ∀ laneId, (t.stateLane laneId).queue = (s.stateLane laneId).queue := fun _ => rfl
    have hterm : ∀ laneId, (t.terminalLane laneId 0).queue = (s.terminalLane laneId 0).queue :=
      terminalLane_congr rfl
    rw [due, due, hhanded, waitingState_none hnone, waitingTerminal_none hnone]
    by_cases hmine : pending.traffic.stateLaneId = some stateId
    · -- the first frame of the state lane
      obtain ⟨lane, hget, hhead⟩ := (heads_state hmine).mp hheads
      obtain ⟨rest, hqueue⟩ := List.head?_eq_some_iff.mp hhead
      have hsq : (s.stateLane stateId).queue = pending :: rest := by
        rw [stateLane, hget]
        exact hqueue
      have hretained : t.retainedState stateId = some pending := retainedState_eq.mpr ⟨hactive, hmine⟩
      have hnot : pending.traffic.terminalLaneId ≠ some terminalId := by
        cases htraffic : pending.traffic <;> rw [htraffic] at hmine <;> cases hmine <;>
          simp [Traffic.terminalLaneId]
      rw [waitingTerminal_other hactive hnot, hterm, waitingState, hretained, hstate, hsq]
      simp [carried, waiting]
    · rw [waitingState_other hactive hmine, hstate]
      by_cases htmine : pending.traffic.terminalLaneId = some terminalId
      · -- the first frame of the terminal lane, with no state lane before it
        obtain ⟨lane, hget, hhead⟩ := (heads_terminal htmine).mp hheads
        obtain ⟨rest, hqueue⟩ := List.head?_eq_some_iff.mp hhead
        have htq : (s.terminalLane terminalId 0).queue = pending :: rest := by
          rw [terminalLane, hget]
          exact hqueue
        have hretained : t.retainedTerminal terminalId = some pending :=
          retainedTerminal_eq.mpr ⟨hactive, htmine⟩
        rw [empty_state (idle_state (hpicked.last _ htmine)), waitingTerminal, hretained, hterm, htq]
        simp [carried, waiting]
      · -- a frame of another queue
        have hsilent : numbers pending.frame = [] := by
          cases htraffic : pending.traffic with
          | control =>
            rw [Heads, htraffic] at hheads
            exact h.control pending (List.mem_of_head? hheads)
          | state laneId key | stateResync laneId =>
            have hlane : pending.traffic.stateLaneId = some laneId := by rw [htraffic]; rfl
            obtain ⟨lane, hget, hhead⟩ := (heads_state hlane).mp hheads
            have hne : laneId ≠ stateId := fun heq => hmine (heq ▸ hlane)
            apply h.state laneId hne
            rw [stateLane, hget]
            exact List.mem_of_head? hhead
          | terminal laneId position nextPosition | terminalSkip laneId position nextPosition =>
            have hlane : pending.traffic.terminalLaneId = some laneId := by rw [htraffic]; rfl
            obtain ⟨lane, hget, hhead⟩ := (heads_terminal hlane).mp hheads
            have hne : laneId ≠ terminalId := fun heq => htmine (heq ▸ hlane)
            apply h.terminal laneId hne
            rw [terminalLane, hget]
            exact List.mem_of_head? hhead
        rw [waitingTerminal_other hactive htmine, hterm, hsilent, List.append_nil]
  · rw [hdrain, due, due, waitingState_none rfl, waitingTerminal_none rfl, waitingState_none hnone,
      waitingTerminal_none hnone]
    rfl

theorem due_start (h : s.Elsewhere numbers stateId terminalId) (hready : s.Ready) :
    s.start.Elsewhere numbers stateId terminalId ∧
      s.start.due numbers stateId terminalId = s.due numbers stateId terminalId := by
  rw [start]
  split_ifs with hbusy
  · exact ⟨h, rfl⟩
  · obtain ⟨hnone, hlaid⟩ := hready.unstarted fun hrunning => hbusy (.inl hrunning)
    have helse : Elsewhere numbers stateId terminalId { s with running := true } :=
      h.congr rfl rfl rfl rfl
    exact ⟨helse.drain hlaid, due_drain helse hlaid hnone⟩

/-! ## Deliveries -/

section Frames
variable (size : φ → ℕ) (limits : OutboundDeliveryLimits)

theorem completeDelivery_waitingTerminal (hready : s.Ready) (hok : s.terminalError = false)
    {pending : PendingDelivery φ} (hactive : s.activeDelivery = some pending) (laneId : Str) :
    ((s.completeDelivery size pending).terminalLane laneId 0).queue = s.waitingTerminal laneId := by
  have hheads := hready.active pending hactive hok
  have hterminal : ∀ mine, pending.traffic.terminalLaneId = some mine →
      ((s.completeTerminal size mine pending).terminalLane laneId 0).queue =
        s.waitingTerminal laneId := by
    intro mine hmine
    obtain ⟨lane, hget, hhead⟩ := (heads_terminal hmine).mp hheads
    rw [terminalLane_elim, (completeTerminal_popped size hget hhead).waiting hready.terminalKeys,
      waitingTerminal, terminalLane_elim, retainedTerminal, hactive, Option.filter_some, hmine]
    simp
  have hsame : ∀ {t : OutboundDeliveryPump φ}, t.terminalLanes = s.terminalLanes →
      pending.traffic.terminalLaneId = none →
        (t.terminalLane laneId 0).queue = s.waitingTerminal laneId := by
    intro t hlanes hnone
    rw [waitingTerminal_other hactive (by simp [hnone]), terminalLane_congr hlanes]
  rw [completeDelivery]
  split
  · rename_i htraffic
    refine hsame ?_ (by rw [htraffic]; rfl)
    rw [completeControl]
    split_ifs <;> rfl
  iterate 2
    · rename_i htraffic
      obtain ⟨_, _, hframe⟩ := completeState_frame size (s := s) _ pending
      exact hsame (by rw [hframe]) (by rw [htraffic]; rfl)
  all_goals
    rename_i htraffic
    exact hterminal _ (by rw [htraffic]; rfl)

theorem completeDelivery_control (pending : PendingDelivery φ) :
    (s.completeDelivery size pending).controlQueue ⊆ s.controlQueue := by
  rw [completeDelivery]
  split
  · rw [completeControl]
    split_ifs
    · exact List.tail_subset _
    · exact fun _ h => h
  all_goals first
    | rw [completeState]
      split
      · exact fun _ h => h
      · split_ifs <;> exact fun _ h => h
    | rw [completeTerminal]
      split
      · exact fun _ h => h
      · split_ifs <;> exact fun _ h => h

theorem waiting_subset (retained : Option (PendingDelivery φ)) (queue : List (PendingDelivery φ)) :
    waiting retained queue ⊆ queue := by
  rw [waiting]
  split_ifs
  · exact List.tail_subset _
  · exact fun _ h => h

theorem waiting_nil {retained : Option (PendingDelivery φ)} {queue : List (PendingDelivery φ)}
    (h : queue = []) : waiting retained queue = [] := by
  rw [h, waiting]
  split_ifs <;> rfl

/-- The frame in flight is gone, delivered or refused, and nothing of what is due changes. -/
theorem due_complete (h : s.Elsewhere numbers stateId terminalId) (hready : s.Ready)
    (hok : s.terminalError = false) {pending : PendingDelivery φ}
    (hactive : s.activeDelivery = some pending)
    (hcontrol : t.controlQueue = (s.completeDelivery size pending).controlQueue)
    (hstate : t.stateLanes = (s.completeDelivery size pending).stateLanes)
    (hterminal : t.terminalLanes = (s.completeDelivery size pending).terminalLanes)
    (hnone : t.activeDelivery = none) (hhanded : t.handed = s.handed)
    (herror : t.terminalError = false) :
    t.Elsewhere numbers stateId terminalId ∧
      t.due numbers stateId terminalId = s.due numbers stateId terminalId := by
  have hs : ∀ laneId, (t.stateLane laneId).queue = s.waitingState laneId := fun laneId => by
    rw [stateLane_congr hstate]
    exact completeDelivery_waiting size hready hok hactive laneId
  have ht : ∀ laneId, (t.terminalLane laneId 0).queue = s.waitingTerminal laneId := fun laneId => by
    rw [terminalLane_congr hterminal]
    exact completeDelivery_waitingTerminal size hready hok hactive laneId
  refine ⟨⟨fun p hp => ?_, fun laneId hne p hp => ?_, fun laneId hne p hp => ?_, ?_⟩, ?_⟩
  · rw [hcontrol] at hp
    exact h.control p (completeDelivery_control size pending hp)
  · rw [hs] at hp
    exact h.state laneId hne p (waiting_subset _ _ hp)
  · rw [ht] at hp
    exact h.terminal laneId hne p (waiting_subset _ _ hp)
  · rw [herror]
    nofun
  · rw [due, due, hhanded, waitingState_none hnone, waitingTerminal_none hnone, hs, ht]

theorem due_empty (hstate : s.stateLanes = []) (hterminal : s.terminalLanes = []) :
    s.due numbers stateId terminalId = carried numbers s.handed := by
  have hs : s.waitingState stateId = [] := waiting_nil (empty_state (by rw [hstate]; nofun) stateId)
  have ht : s.waitingTerminal terminalId = [] := by
    apply waiting_nil
    rw [terminalLane, hterminal]
    rfl
  rw [due, hs, ht]
  simp [carried]

theorem due_failed (h : s.Elsewhere numbers stateId terminalId) (herror : s.terminalError = true)
    (hcontrol : t.controlQueue = s.controlQueue) (hstate : t.stateLanes = s.stateLanes)
    (hterminal : t.terminalLanes = s.terminalLanes) (hhanded : t.handed = s.handed)
    (herror' : t.terminalError = s.terminalError) :
    t.Elsewhere numbers stateId terminalId ∧
      t.due numbers stateId terminalId = s.due numbers stateId terminalId := by
  obtain ⟨hs, ht⟩ := h.failed herror
  refine ⟨h.congr hcontrol hstate hterminal herror', ?_⟩
  rw [due_empty (hstate.trans hs) (hterminal.trans ht), due_empty hs ht, hhanded]

theorem due_fail (h : s.Elsewhere numbers stateId terminalId) :
    s.fail.Elsewhere numbers stateId terminalId ∧
      (s.fail.due numbers stateId terminalId).Sublist (s.due numbers stateId terminalId) := by
  rw [fail]
  split_ifs
  · exact ⟨h, List.Sublist.refl _⟩
  · refine ⟨⟨(fun _ h => by cases h), fun _ _ => (fun _ h => by cases h), fun _ _ => (fun _ h => by cases h), fun _ => ⟨rfl, rfl⟩⟩, ?_⟩
    rw [due_empty rfl rfl, due, List.append_assoc]
    exact List.sublist_append_left _ _

theorem due_delivered (h : s.Elsewhere numbers stateId terminalId) (hs : s.Scheduled) :
    (s.delivered size).Elsewhere numbers stateId terminalId ∧
      (s.delivered size).due numbers stateId terminalId = s.due numbers stateId terminalId := by
  rw [delivered]
  cases hactive : s.activeDelivery with
  | none => exact ⟨h, rfl⟩
  | some pending =>
    have hnext := hs.toLaid.completed size pending
    dsimp only
    split_ifs with herror
    · exact due_failed h herror rfl rfl rfl rfl rfl
    · have hok : s.terminalError = false := by simpa using herror
      obtain ⟨hhanded, hsame⟩ := completeDelivery_handed (s := s) size pending
      have hgone := due_complete size (t := { s.completeDelivery size pending with
          activeDelivery := none
          completed := s.completed ++ [pending] }) h hs.toReady hok hactive rfl rfl rfl rfl hhanded
        (hsame.trans hok)
      exact ⟨hgone.1.drain (hnext _), (due_drain hgone.1 (hnext _) rfl).trans hgone.2⟩

theorem due_rejected (h : s.Elsewhere numbers stateId terminalId) (hs : s.Scheduled)
    (isOpen : Bool) : (s.rejected size isOpen).Elsewhere numbers stateId terminalId ∧
      ((s.rejected size isOpen).due numbers stateId terminalId).Sublist
        (s.due numbers stateId terminalId) := by
  rw [rejected]
  cases hactive : s.activeDelivery with
  | none => exact ⟨h, List.Sublist.refl _⟩
  | some pending =>
    have hnext := hs.toLaid.completed size pending
    dsimp only
    split_ifs with herror
    · have hsame := due_failed h herror (t := { s with activeDelivery := none, running := false })
        rfl rfl rfl rfl rfl
      exact ⟨hsame.1, hsame.2 ▸ List.Sublist.refl _⟩
    · have hok : s.terminalError = false := by simpa using herror
      obtain ⟨hhanded, hsame⟩ := completeDelivery_handed (s := s) size pending
      have hgone := due_complete size (t := { s.completeDelivery size pending with
          activeDelivery := none }) h hs.toReady hok hactive rfl rfl rfl rfl hhanded
        (hsame.trans hok)
      refine ⟨hgone.1.drain (hnext _), ?_⟩
      rw [due_drain hgone.1 (hnext _) rfl, hgone.2]
    · rw [fail, if_neg herror]
      refine ⟨⟨(fun _ h => by cases h), fun _ _ => (fun _ h => by cases h), fun _ _ => (fun _ h => by cases h), fun _ => ⟨rfl, rfl⟩⟩, ?_⟩
      rw [due_empty rfl rfl, due, List.append_assoc]
      exact List.sublist_append_left _ _

/-! ## Admissions -/

def Fitting (s : OutboundDeliveryPump φ) (numbers : φ → List ℕ) (stateId terminalId : Str)
    (laneId : Str) (frame : φ) : Prop :=
  numbers frame = [] ∨
    laneId = stateId ∧ carried numbers (s.waitingTerminal terminalId) = []

structure Adds (numbers : φ → List ℕ) (stateId terminalId : Str) (s t : OutboundDeliveryPump φ)
    (new : List ℕ) : Prop where
  elsewhere : t.Elsewhere numbers stateId terminalId
  due : (t.due numbers stateId terminalId).Sublist (s.due numbers stateId terminalId ++ new)

theorem Adds.nothing (h : s.Elsewhere numbers stateId terminalId) (new : List ℕ) :
    Adds numbers stateId terminalId s s new := ⟨h, List.sublist_append_left _ _⟩

theorem Adds.setState (h : s.Elsewhere numbers stateId terminalId) (hs : s.Scheduled)
    (hok : s.terminalError = false) {laneId : Str} {lane : StateLane φ} {frame : φ}
    (hfits : s.Fitting numbers stateId terminalId laneId frame)
    (hlanes : t.stateLanes = Entries.set s.stateLanes laneId lane)
    (hcontrol : t.controlQueue = s.controlQueue) (hterminal : t.terminalLanes = s.terminalLanes)
    (hactive : t.activeDelivery = s.activeDelivery) (hhanded : t.handed = s.handed)
    (herror : t.terminalError = s.terminalError)
    (hqueue : ∀ pending ∈ lane.queue, pending ∈ (s.stateLane laneId).queue ∨
      numbers pending.frame = [] ∨ pending.frame = frame)
    (hwaiting : (carried numbers (waiting (s.retainedState laneId) lane.queue)).Sublist
      (carried numbers (s.waitingState laneId) ++ numbers frame)) :
    Adds numbers stateId terminalId s t (numbers frame) := by
  have hretained : ∀ other, t.retainedState other = s.retainedState other := fun other => by
    rw [retainedState, hactive, retainedState]
  have hother : ∀ other, other ≠ laneId → t.waitingState other = s.waitingState other := by
    intro other hne
    rw [waitingState, waitingState, hretained, stateLane_set_other hs.stateKeys hlanes hne]
  have hterm : t.waitingTerminal terminalId = s.waitingTerminal terminalId := by
    rw [waitingTerminal, waitingTerminal, terminalLane_congr hterminal, retainedTerminal, hactive,
      retainedTerminal]
  refine ⟨⟨hcontrol ▸ h.control, fun other hne p hp => ?_, fun other hne => ?_, ?_⟩, ?_⟩
  · by_cases hcase : other = laneId
    · rw [hcase, stateLane_set hs.stateKeys hlanes] at hp
      rcases hqueue p hp with hold | hsilent | rfl
      · exact h.state laneId (hcase ▸ hne) p hold
      · exact hsilent
      · rcases hfits with hsilent | ⟨hmine, _⟩
        · exact hsilent
        · exact absurd (hcase.trans hmine) hne
    · rw [stateLane_set_other hs.stateKeys hlanes hcase] at hp
      exact h.state other hne p hp
  · rw [terminalLane_congr hterminal]
    exact h.terminal other hne
  · rw [herror, hok]
    simp
  · rw [OutboundDeliveryPump.due, OutboundDeliveryPump.due, hhanded, hterm]
    by_cases hcase : stateId = laneId
    · have hmine : t.waitingState stateId = waiting (s.retainedState laneId) lane.queue := by
        rw [waitingState, hretained, hcase, stateLane_set hs.stateKeys hlanes]
      rw [hmine]
      rw [← hcase] at hwaiting
      rcases hfits with hsilent | ⟨_, hclear⟩
      · rw [hsilent, List.append_nil] at hwaiting ⊢
        rw [← hcase]
        exact (hwaiting.append_left _).append (List.Sublist.refl _)
      · rw [hclear, List.append_nil, List.append_nil, ← hcase, List.append_assoc]
        exact hwaiting.append_left _
    · rw [hother stateId hcase]
      exact List.sublist_append_left _ _

theorem Adds.moveTerminal (h : s.Elsewhere numbers stateId terminalId) (hok : s.terminalError = false)
    {laneId : Str} {q : List (PendingDelivery φ)} {new : List ℕ}
    (hset : (t.terminalLane laneId 0).queue = q)
    (hkept : ∀ other, other ≠ laneId →
      (t.terminalLane other 0).queue = (s.terminalLane other 0).queue)
    (hcontrol : t.controlQueue = s.controlQueue) (hstate : t.stateLanes = s.stateLanes)
    (hactive : t.activeDelivery = s.activeDelivery) (hhanded : t.handed = s.handed)
    (herror : t.terminalError = s.terminalError)
    (hqueue : ∀ pending ∈ q, pending ∈ (s.terminalLane laneId 0).queue ∨
      numbers pending.frame = [] ∨ laneId = terminalId)
    (hwaiting : (carried numbers (waiting (s.retainedTerminal laneId) q)).Sublist
      (carried numbers (s.waitingTerminal laneId) ++ new)) : Adds numbers stateId terminalId s t new := by
  have hretained := retainedTerminal_congr hactive
  have hst : t.waitingState stateId = s.waitingState stateId := by
    rw [waitingState, waitingState, stateLane_congr hstate, retainedState, hactive, retainedState]
  refine ⟨⟨hcontrol ▸ h.control, fun other hne => ?_, fun other hne p hp => ?_, ?_⟩, ?_⟩
  · rw [stateLane_congr hstate]
    exact h.state other hne
  · by_cases hcase : other = laneId
    · rw [hcase, hset] at hp
      rcases hqueue p hp with hold | hsilent | hmine
      · exact h.terminal laneId (hcase ▸ hne) p hold
      · exact hsilent
      · exact absurd (hcase.trans hmine) hne
    · rw [hkept other hcase] at hp
      exact h.terminal other hne p hp
  · rw [herror, hok]
    simp
  · rw [OutboundDeliveryPump.due, OutboundDeliveryPump.due, hhanded, hst]
    by_cases hcase : terminalId = laneId
    · have hmine : t.waitingTerminal terminalId = waiting (s.retainedTerminal laneId) q := by
        rw [waitingTerminal, hretained, hcase, hset]
      rw [hmine, List.append_assoc _ _ new, hcase]
      exact hwaiting.append_left _
    · have hmine : t.waitingTerminal terminalId = s.waitingTerminal terminalId := by
        rw [waitingTerminal, waitingTerminal, hretained, hkept terminalId hcase]
      rw [hmine]
      exact List.sublist_append_left _ _

theorem Adds.setTerminal (h : s.Elsewhere numbers stateId terminalId) (hs : s.Scheduled)
    (hok : s.terminalError = false) {laneId : Str} {lane : TerminalLane φ} {new : List ℕ}
    (hlanes : t.terminalLanes = Entries.set s.terminalLanes laneId lane)
    (hcontrol : t.controlQueue = s.controlQueue) (hstate : t.stateLanes = s.stateLanes)
    (hactive : t.activeDelivery = s.activeDelivery) (hhanded : t.handed = s.handed)
    (herror : t.terminalError = s.terminalError)
    (hqueue : ∀ pending ∈ lane.queue, pending ∈ (s.terminalLane laneId 0).queue ∨
      numbers pending.frame = [] ∨ laneId = terminalId)
    (hwaiting : (carried numbers (waiting (s.retainedTerminal laneId) lane.queue)).Sublist
      (carried numbers (s.waitingTerminal laneId) ++ new)) :
    Adds numbers stateId terminalId s t new := by
  refine .moveTerminal h hok ?_ (fun other hne => ?_) hcontrol hstate hactive hhanded herror hqueue
    hwaiting
  · rw [terminalLane_elim, hlanes, Entries.get_set_self hs.terminalKeys]
    rfl
  · rw [terminalLane_elim, hlanes, Entries.get_set_other hs.terminalKeys hne, terminalLane_elim]

theorem Adds.retire (h : s.Elsewhere numbers stateId terminalId) (hs : s.Scheduled)
    (hok : s.terminalError = false) {laneId : Str}
    (hlanes : t.terminalLanes = Entries.delete s.terminalLanes laneId)
    (hcontrol : t.controlQueue = s.controlQueue) (hstate : t.stateLanes = s.stateLanes)
    (hactive : t.activeDelivery = s.activeDelivery) (hhanded : t.handed = s.handed)
    (herror : t.terminalError = s.terminalError) : Adds numbers stateId terminalId s t [] := by
  refine .moveTerminal h hok (q := []) ?_ (fun other (hne : other ≠ laneId) => ?_) hcontrol hstate
    hactive hhanded herror (by simp) ?_
  · rw [terminalLane_elim, hlanes, Entries.get_delete_self]
    rfl
  · rw [terminalLane_elim, hlanes, Entries.get_delete_other hs.terminalKeys hne, terminalLane_elim]
  · rw [waiting_nil rfl]
    exact List.nil_sublist _

theorem Adds.start {new : List ℕ} (h : Adds numbers stateId terminalId s t new) (hready : t.Ready) :
    Adds numbers stateId terminalId s t.start new := by
  obtain ⟨helse, hsame⟩ := due_start h.elsewhere hready
  exact ⟨helse, hsame ▸ h.due⟩

theorem Adds.fail (h : s.Elsewhere numbers stateId terminalId) (new : List ℕ) :
    Adds numbers stateId terminalId s s.fail new :=
  ⟨(due_fail h).1, (due_fail h).2.trans (List.sublist_append_left _ _)⟩

theorem Adds.send (h : s.Elsewhere numbers stateId terminalId) (hs : s.Scheduled) {frame : φ}
    (hsilent : numbers frame = []) :
    Adds numbers stateId terminalId s (s.send size limits frame) [] := by
  rw [OutboundDeliveryPump.send]
  split_ifs
  · exact .nothing h _
  · exact .fail h _
  · refine Adds.start ⟨⟨fun p hp => ?_, h.state, h.terminal, h.failed⟩, ?_⟩
      (hs.toReady.queueControl size frame)
    · rcases List.mem_append.mp hp with hp | hp
      · exact h.control p hp
      · rw [List.mem_singleton.mp hp]
        exact hsilent
    · exact List.sublist_append_left _ _

theorem Adds.congestState (h : s.Elsewhere numbers stateId terminalId) (hs : s.Scheduled)
    (hok : s.terminalError = false) {frame : φ} {a : StateDeliveryAdmission φ}
    (hfits : s.Fitting numbers stateId terminalId a.laneId frame) (lane : StateLane φ)
    (replaced : Option (PendingDelivery φ)) (hresync : numbers a.resyncFrame = []) :
    Adds numbers stateId terminalId s ((s.numbered size a replaced).congestState size limits a.laneId
      lane s.admissions a.resyncFrame) (numbers frame) := by
  have hretained : (s.numbered size a replaced).retainedState a.laneId = s.retainedState a.laneId :=
    rfl
  have hkept : ∀ pending ∈ (s.retainedState a.laneId).toList,
      pending ∈ (s.stateLane a.laneId).queue := fun pending hp =>
    List.mem_of_head? (hs.head_state hok (Option.mem_toList.mp hp))
  have hall : ∀ more : List (PendingDelivery φ), (∀ pending ∈ more, numbers pending.frame = []) →
      (∀ pending ∈ (s.retainedState a.laneId).toList ++ more,
        pending ∈ (s.stateLane a.laneId).queue ∨ numbers pending.frame = [] ∨
          pending.frame = frame) ∧
      (carried numbers (waiting (s.retainedState a.laneId)
        ((s.retainedState a.laneId).toList ++ more))).Sublist
          (carried numbers (s.waitingState a.laneId) ++ numbers frame) := by
    intro more hmore
    refine ⟨fun pending hp => ?_, ?_⟩
    · rcases List.mem_append.mp hp with hp | hp
      · exact .inl (hkept pending hp)
      · exact .inr (.inl (hmore pending hp))
    · rw [waiting_retained, carried_nil hmore]
      exact List.nil_sublist _
  rw [OutboundDeliveryPump.congestState, congestStateLane]
  split_ifs
  · obtain ⟨hqueue, hwaiting⟩ := hall [] (by simp)
    rw [List.append_nil] at hqueue hwaiting
    exact .setState h hs hok hfits rfl rfl rfl rfl rfl rfl hqueue hwaiting
  · obtain ⟨hqueue, hwaiting⟩ := hall
      [PendingDelivery.mk (s.admissions + 1) a.resyncFrame (.stateResync a.laneId)]
      (fun p hp => by rw [List.mem_singleton.mp hp]; exact hresync)
    exact .setState h hs hok hfits rfl rfl rfl rfl rfl rfl hqueue hwaiting

theorem Adds.sendState (h : s.Elsewhere numbers stateId terminalId) (hs : s.Scheduled) (frame : φ)
    {a : StateDeliveryAdmission φ} (hfits : s.Fitting numbers stateId terminalId a.laneId frame)
    (hresync : numbers a.resyncFrame = []) :
    Adds numbers stateId terminalId s (s.sendState size limits frame a) (numbers frame) := by
  rw [OutboundDeliveryPump.sendState]
  split_ifs with herror
  · exact .nothing h _
  · exact .nothing h _
  · exact ⟨h.congr rfl rfl rfl rfl, List.sublist_append_left _ _⟩
  · have hok : s.terminalError = false := by simpa using herror
    have hhead : ∀ pending, s.retainedState a.laneId = some pending →
        (s.stateLane a.laneId).queue.head? = some pending := fun _ hp => hs.head_state hok hp
    rw [admitState]
    split_ifs
    · exact (Adds.congestState size limits h hs hok hfits _ _ hresync).start
        (hs.toReady.congestState size limits hok a _ _)
    · apply Adds.start _ (hs.toReady.queueState size hok rfl _ frame)
      refine .setState h hs hok hfits rfl rfl rfl rfl rfl rfl ?_ ?_
      · intro p hp
        dsimp only at hp
        rw [superseding_queue] at hp
        rcases List.mem_append.mp hp with hp | hp
        · exact .inl (List.mem_of_mem_eraseP hp)
        · rw [List.mem_singleton.mp hp]
          exact .inr (.inr rfl)
      · dsimp only
        rw [superseding_queue, waiting_append fun pending hretained =>
          eraseP_head a.key (retainedState_eq.mp hretained).1 (hhead pending hretained),
          carried_append, carried_singleton]
        exact (carried_sublist (waiting_eraseP a.key hhead)).append (List.Sublist.refl _)

theorem Adds.congestTerminal (h : s.Elsewhere numbers stateId terminalId) (hs : s.Scheduled)
    (hok : s.terminalError = false) {laneId : Str} (lane : TerminalLane φ) (nextPosition : ℕ)
    {createSkipFrame : ℕ → ℕ → φ} (hskip : ∀ a b, numbers (createSkipFrame a b) = []) (new : List ℕ) :
    Adds numbers stateId terminalId s
      (s.congestTerminalLane size limits laneId lane nextPosition createSkipFrame).start new := by
  apply Adds.start _ (hs.toReady.congestTerminal size limits hok laneId lane nextPosition
    createSkipFrame)
  rw [congestTerminalLane]
  split_ifs
  · exact .fail h _
  · refine .setTerminal h hs hok rfl rfl rfl rfl rfl rfl (fun p hp => ?_) ?_
    · rcases List.mem_append.mp hp with hp | hp
      · exact .inl (List.mem_of_head? (hs.head_terminal hok 0 (Option.mem_toList.mp hp)))
      · rw [List.mem_singleton.mp hp]
        exact .inr (.inl (hskip _ _))
    · dsimp only
      rw [waiting_retained, carried_singleton, hskip]
      exact List.nil_sublist _

theorem Adds.sendTerminal (h : s.Elsewhere numbers stateId terminalId) (hs : s.Scheduled) {frame : φ}
    {a : TerminalDeliveryAdmission φ} (hfits : numbers frame = [] ∨ a.laneId = terminalId)
    (hskip : ∀ x y, numbers (a.createSkipFrame x y) = []) (now later : ℤ) :
    Adds numbers stateId terminalId s (s.sendTerminal size limits frame a now later)
      (numbers frame) := by
  rw [OutboundDeliveryPump.sendTerminal]
  split_ifs with herror
  · exact .nothing h _
  · exact .nothing h _
  · exact .nothing h _
  · exact .nothing h _
  · have hok : s.terminalError = false := by simpa using herror
    have hsame := terminalLane_queue s a.laneId a.position.toNat 0
    have hhead : ∀ pending, s.retainedTerminal a.laneId = some pending →
        (s.terminalLane a.laneId a.position.toNat).queue.head? = some pending := fun _ hp =>
      hs.head_terminal hok _ hp
    rw [admitTerminal]
    split_ifs
    · refine .setTerminal h hs hok rfl rfl rfl rfl rfl rfl (fun p hp => .inl ?_) ?_
      · exact hsame ▸ hp
      · rw [TerminalLane.counted, hsame]
        exact List.sublist_append_left _ _
    · exact .congestTerminal size limits h hs hok _ _ hskip _
    · exact .congestTerminal size limits h hs hok _ _ hskip _
    · have hqueue : (((s.terminalLane a.laneId a.position.toNat).counted
          a.nextPosition.toNat).advanced a.nextPosition.toNat now).queue =
            (s.terminalLane a.laneId 0).queue := hsame
      apply Adds.start _ (hs.toReady.queueTerminal size hok hqueue _ _ frame)
      refine .setTerminal h hs hok rfl rfl rfl rfl rfl rfl (fun p hp => ?_) ?_
      · rcases List.mem_append.mp hp with hp | hp
        · exact .inl (hsame ▸ hp)
        · rw [List.mem_singleton.mp hp]
          exact .inr hfits
      · dsimp only [TerminalLane.advanced, TerminalLane.counted]
        rw [waiting_append hhead, carried_append, carried_singleton, hsame]
        exact List.Sublist.refl _

theorem Adds.acknowledgeTerminal (h : s.Elsewhere numbers stateId terminalId) (hs : s.Scheduled)
    (laneId : Str) (position now : ℤ) :
    Adds numbers stateId terminalId s (s.acknowledgeTerminal laneId position now) [] := by
  rw [OutboundDeliveryPump.acknowledgeTerminal]
  cases hlane : Entries.get s.terminalLanes laneId with
  | none => exact .nothing h _
  | some lane =>
    dsimp only
    split_ifs
    · exact .nothing h _
    · have hsame : (s.terminalLane laneId 0).queue = lane.queue := by rw [terminalLane_get hlane]
      rcases Bool.eq_false_or_eq_true s.terminalError with herror | hok
      · rw [(h.failed herror).2] at hlane
        cases hlane
      · refine .setTerminal h hs hok rfl rfl rfl rfl rfl rfl (fun p hp => .inl (hsame ▸ hp)) ?_
        rw [List.append_nil, waitingTerminal, hsame]
        exact List.Sublist.refl _

theorem Adds.releaseTerminal (h : s.Elsewhere numbers stateId terminalId) (hs : s.Scheduled)
    (laneId : Str) : Adds numbers stateId terminalId s (s.releaseTerminal size laneId) [] := by
  rw [OutboundDeliveryPump.releaseTerminal]
  cases hlane : Entries.get s.terminalLanes laneId with
  | none => exact .nothing h _
  | some lane =>
    have hsame : (s.terminalLane laneId 0).queue = lane.queue := by rw [terminalLane_get hlane]
    have hok : s.terminalError = false := by
      by_contra herror
      rw [(h.failed (by simpa using herror)).2] at hlane
      cases hlane
    dsimp only
    cases hretained : s.retainedTerminal laneId with
    | some active =>
      rw [if_pos Option.isSome_some]
      refine .setTerminal h hs hok rfl rfl rfl rfl rfl rfl (fun p hp => ?_) ?_
      · rw [TerminalLane.released, Option.toList_some] at hp
        rw [List.mem_singleton.mp hp]
        exact .inl (List.mem_of_head? (hs.head_terminal hok 0 hretained))
      · rw [hretained]
        exact List.nil_sublist _
    | none =>
      rw [if_neg (by simp)]
      exact .retire h hs hok rfl rfl rfl rfl rfl rfl

def Silent (numbers : φ → List ℕ) : OutboundInput φ → Prop
  | .send frame => numbers frame = []
  | .sendState frame admission => numbers frame = [] ∧ numbers admission.resyncFrame = []
  | .sendTerminal frame admission _ _ =>
    numbers frame = [] ∧ ∀ a b, numbers (admission.createSkipFrame a b) = []
  | _ => True

theorem Adds.step (h : s.Elsewhere numbers stateId terminalId) (hs : s.Scheduled)
    {input : OutboundInput φ} (hsilent : Silent numbers input) :
    Adds numbers stateId terminalId s (s.step size limits input) [] := by
  cases input with
  | send frame => exact .send size limits h hs hsilent
  | sendState frame admission =>
    have hfits : s.Fitting numbers stateId terminalId admission.laneId frame := .inl hsilent.1
    have hadds := Adds.sendState size limits h hs frame hfits hsilent.2
    rwa [hsilent.1] at hadds
  | sendTerminal frame admission now later =>
    have hadds := Adds.sendTerminal size limits h hs (.inl hsilent.1) hsilent.2 now later
    rwa [hsilent.1] at hadds
  | acknowledgeTerminal laneId position now => exact .acknowledgeTerminal h hs laneId position now
  | releaseTerminal laneId => exact .releaseTerminal size h hs laneId
  | delivered =>
    obtain ⟨helse, hsame⟩ := due_delivered size h hs
    exact ⟨helse, hsame ▸ List.sublist_append_left _ _⟩
  | rejected isOpen =>
    obtain ⟨helse, hdue⟩ := due_rejected size h hs isOpen
    exact ⟨helse, hdue.trans (List.sublist_append_left _ _)⟩
  | close => exact .fail h _

theorem drain_single (hlaid : s.Laid) {laneId : Str} (hcontrol : s.controlQueue = [])
    (hstate : ∀ e ∈ s.stateLanes, e.2.queue = [])
    (hother : ∀ e ∈ s.terminalLanes, e.1 ≠ laneId → e.2.queue = [])
    (hone : (s.terminalLane laneId 0).queue.length ≤ 1) : s.drain.waitingTerminal laneId = [] := by
  rcases drain_cases hlaid with ⟨pending, a, b, c, hheads, hdrain⟩ | ⟨hidle, hdrain⟩
  · rw [hdrain]
    have hmine : pending.traffic.terminalLaneId = some laneId ∧
        (s.terminalLane laneId 0).queue.head? = some pending := by
      cases htraffic : pending.traffic with
      | control =>
        rw [Heads, htraffic] at hheads
        simp [hcontrol] at hheads
      | state other key | stateResync other =>
        have hlane : pending.traffic.stateLaneId = some other := by rw [htraffic]; rfl
        obtain ⟨lane, hget, hhead⟩ := (heads_state hlane).mp hheads
        have hempty := hstate _ (Entries.mem_of_get hget)
        dsimp only at hempty
        rw [hempty] at hhead
        cases hhead
      | terminal other position nextPosition | terminalSkip other position nextPosition =>
        have hlane : pending.traffic.terminalLaneId = some other := by rw [htraffic]; rfl
        obtain ⟨lane, hget, hhead⟩ := (heads_terminal hlane).mp hheads
        have hsame : other = laneId := by
          by_contra hne
          have hempty := hother _ (Entries.mem_of_get hget) hne
          dsimp only at hempty
          rw [hempty] at hhead
          cases hhead
        rw [← hsame, terminalLane_get hget]
        exact ⟨rfl, hhead⟩
    obtain ⟨rest, hqueue⟩ := List.head?_eq_some_iff.mp hmine.2
    have hretained : (s.handing pending a b c).retainedTerminal laneId = some pending :=
      retainedTerminal_eq.mpr ⟨rfl, hmine.1⟩
    have hsame : ((s.handing pending a b c).terminalLane laneId 0).queue =
        (s.terminalLane laneId 0).queue :=
      terminalLane_congr (s := s) (t := s.handing pending a b c) rfl laneId
    rw [hqueue, List.length_cons] at hone
    rw [waitingTerminal, hretained, hsame, hqueue]
    exact List.length_eq_zero_iff.mp (by omega : rest.length = 0)
  · rw [hdrain]
    apply waiting_nil
    rw [terminalLane]
    cases hget : Entries.get s.terminalLanes laneId with
    | none => rfl
    | some lane => exact hidle.terminal _ (Entries.mem_of_get hget)

theorem sendTerminal_idle (h : s.Elsewhere numbers stateId terminalId) (hs : s.Scheduled)
    (hnone : s.activeDelivery = none) (frame : φ) (a : TerminalDeliveryAdmission φ) (now later : ℤ) :
    (s.sendTerminal size limits frame a now later).waitingTerminal a.laneId = [] := by
  have hempty : (s.terminalLane a.laneId 0).queue = [] := by
    rw [terminalLane]
    cases hget : Entries.get s.terminalLanes a.laneId with
    | none => rfl
    | some lane =>
      cases hok : s.terminalError with
      | false => exact (hs.idle hok hnone).terminal _ (Entries.mem_of_get hget)
      | true =>
        rw [(h.failed hok).2] at hget
        cases hget
  have hsame := (terminalLane_queue s a.laneId a.position.toNat 0).trans hempty
  rw [sendTerminal]
  split_ifs with herror
  · exact waiting_nil hempty
  · exact waiting_nil hempty
  · exact waiting_nil hempty
  · exact waiting_nil hempty
  have hok : s.terminalError = false := by simpa using herror
  have hidle := hs.idle hok hnone
  have hstart : ∀ {t : OutboundDeliveryPump φ} {lane : TerminalLane φ}, t.Ready →
      t.controlQueue = s.controlQueue → t.stateLanes = s.stateLanes →
      t.terminalLanes = Entries.set s.terminalLanes a.laneId lane → t.terminalError = false →
      t.activeDelivery = none → lane.queue.length ≤ 1 → t.start.waitingTerminal a.laneId = [] := by
    intro t lane hready hcontrol hstate hlanes hokt hnonet hone
    have hrunning := hready.running
    rw [hnonet] at hrunning
    rw [start, if_neg (by simp [hrunning, hokt])]
    have hlaid : Laid { t with running := true } :=
      ⟨hready.stateKeys, hready.terminalKeys, hready.control, hready.state, hready.terminal⟩
    refine drain_single hlaid (hcontrol.trans hidle.control) (hstate ▸ hidle.state) ?_ ?_
    · intro e he hne
      have he : e ∈ Entries.set s.terminalLanes a.laneId lane := hlanes ▸ he
      rcases Entries.mem_set.mp he with rfl | ⟨he, _⟩
      · exact absurd rfl hne
      · exact hidle.terminal e he
    · have hget : Entries.get t.terminalLanes a.laneId = some lane := by
        rw [hlanes, Entries.get_set_self hs.terminalKeys]
      have hlane : (Entries.get { t with running := true }.terminalLanes a.laneId) = some lane := hget
      rw [terminalLane_get hlane]
      exact hone
  have hretained : s.retainedTerminal a.laneId = none := retained_none hnone _
  have hcongest : ∀ lane : TerminalLane φ,
      (s.congestTerminalLane size limits a.laneId lane a.nextPosition.toNat
        a.createSkipFrame).start.waitingTerminal a.laneId = [] := by
    intro lane
    have hready := hs.toReady.congestTerminal size limits hok a.laneId lane a.nextPosition.toNat
      a.createSkipFrame
    rw [congestTerminalLane] at hready ⊢
    split_ifs at hready ⊢
    · rw [start_failed (fail_error s)]
      apply waiting_nil
      rw [fail, if_neg herror]
      rfl
    · refine hstart hready rfl rfl rfl hok hnone ?_
      rw [hretained]
      exact le_rfl
  rw [admitTerminal]
  split_ifs
  · apply waiting_nil
    rw [terminalLane, Entries.get_set_self hs.terminalKeys]
    exact hsame
  · exact hcongest _
  · exact hcongest _
  · have hqueue : (((s.terminalLane a.laneId a.position.toNat).counted
        a.nextPosition.toNat).advanced a.nextPosition.toNat now).queue =
          (s.terminalLane a.laneId 0).queue := terminalLane_queue s a.laneId _ 0
    refine hstart (hs.toReady.queueTerminal size hok hqueue _ _ frame) rfl rfl rfl hok hnone ?_
    rw [hqueue, hempty]
    exact le_rfl

end Frames

end Stream

end OutboundDeliveryPump

end Terminay.Protocol
