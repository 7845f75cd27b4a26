import Terminay.Lib.Lists
import Terminay.Protocol.OutboundPromises

/-!
# State lanes

Every admitted state update goes to the transport, gives way to a later one of its key, or is
given up for a notice of its lane that is delivered afterwards.
-/

namespace Terminay.Protocol
open Script

variable {φ : Type}

def ResyncFits (size : φ → ℕ) (limits : OutboundDeliveryLimits) (_ : OutboundDeliveryPump φ) :
    OutboundInput φ → Prop
  | .sendState _ admission => size admission.resyncFrame ≤ limits.maxStateQueuedBytes
  | _ => True

namespace OutboundDeliveryPump

variable {s t : OutboundDeliveryPump φ}

/-! ## What becomes of an update -/

def Handed (s : OutboundDeliveryPump φ) (u : StateUpdate) : Prop :=
  ∃ pending ∈ s.handed, pending.number = u.number ∧ pending.traffic = .state u.laneId u.key

def Superseded (s : OutboundDeliveryPump φ) (u : StateUpdate) : Prop :=
  ∃ v ∈ s.updates, (u.number, v.number) ∈ s.superseded ∧ u.number < v.number ∧
    v.laneId = u.laneId ∧ v.key = u.key

/-- The update was given up for a notice among some frames, which may depend on when it was. -/
def GivenUp (s : OutboundDeliveryPump φ) (u : StateUpdate)
    (notices : Displaced → List (PendingDelivery φ)) : Prop :=
  ∃ d ∈ s.displaced, d.number = u.number ∧ ∃ pending ∈ notices d,
    pending.number = d.notice ∧ pending.traffic = .stateResync u.laneId

/-- The update was given up for a notice that was delivered afterwards. -/
def Announced (s : OutboundDeliveryPump φ) (u : StateUpdate) : Prop :=
  s.GivenUp u fun d => s.completed.drop d.completed

def Settled (s : OutboundDeliveryPump φ) (u : StateUpdate) : Prop :=
  s.Handed u ∨ s.Superseded u ∨ s.Announced u

def Waits (s : OutboundDeliveryPump φ) (u : StateUpdate) : Prop :=
  (∃ pending ∈ (s.stateLane u.laneId).queue,
    pending.number = u.number ∧ pending.traffic = .state u.laneId u.key) ∨
  s.GivenUp u fun _ => (s.stateLane u.laneId).queue

structure Grown (s t : OutboundDeliveryPump φ) : Prop where
  handed : s.handed ⊆ t.handed
  updates : s.updates ⊆ t.updates
  superseded : s.superseded ⊆ t.superseded
  displaced : s.displaced ⊆ t.displaced
  completed : s.completed <+: t.completed

theorem Grown.settled (h : Grown s t) {u : StateUpdate} (hu : s.Settled u) : t.Settled u := by
  rcases hu with ⟨pending, hp, hfacts⟩ | ⟨v, hv, hsuperseded, hfacts⟩ |
    ⟨d, hd, hnumber, pending, hp, hfacts⟩
  · exact .inl ⟨pending, h.handed hp, hfacts⟩
  · exact .inr (.inl ⟨v, h.updates hv, h.superseded hsuperseded, hfacts⟩)
  · obtain ⟨more, hmore⟩ := h.completed
    refine .inr (.inr ⟨d, h.displaced hd, hnumber, pending, ?_, hfacts⟩)
    dsimp only
    rw [← hmore, List.drop_append]
    exact List.mem_append_left _ hp

structure Latched (lane : StateLane φ) : Prop where
  pending : lane.resyncPending = true →
    ∃ pending, lane.queue.getLast? = some pending ∧ pending.traffic.stateKey = none
  clear : lane.resyncPending = false → ∀ pending ∈ lane.queue, pending.traffic.stateKey ≠ none

structure Fates (s : OutboundDeliveryPump φ) : Prop where
  latched : ∀ e ∈ s.stateLanes, Latched e.2
  active : ∀ pending ∈ s.activeDelivery, pending ∈ s.handed
  displaced : ∀ d ∈ s.displaced, d.completed ≤ s.completed.length
  fates : ∀ u ∈ s.updates, s.Settled u ∨ s.Waits u

theorem Grown.waits (h : Grown s t) (hlanes : t.stateLanes = s.stateLanes) {u : StateUpdate}
    (hu : s.Waits u) : t.Waits u := by
  have hqueue : t.stateLane u.laneId = s.stateLane u.laneId := by
    rw [stateLane, stateLane, hlanes]
  rw [Waits, GivenUp, hqueue]
  rcases hu with hqueued | ⟨d, hd, hfacts⟩
  · exact .inl hqueued
  · exact .inr ⟨d, h.displaced hd, hfacts⟩

theorem Grown.of_logs (hhanded : t.handed = s.handed) (hupdates : t.updates = s.updates)
    (hsuperseded : t.superseded = s.superseded) (hdisplaced : t.displaced = s.displaced)
    (hcompleted : s.completed <+: t.completed) : Grown s t :=
  ⟨hhanded ▸ List.Subset.refl _, hupdates ▸ List.Subset.refl _, hsuperseded ▸ List.Subset.refl _,
    hdisplaced ▸ List.Subset.refl _, hcompleted⟩

theorem Fates.congr (h : s.Fates) (hlanes : t.stateLanes = s.stateLanes)
    (hactive : ∀ pending ∈ t.activeDelivery, pending ∈ s.activeDelivery)
    (hhanded : t.handed = s.handed) (hcompleted : s.completed <+: t.completed)
    (hupdates : t.updates = s.updates) (hsuperseded : t.superseded = s.superseded)
    (hdisplaced : t.displaced = s.displaced) : t.Fates := by
  have hgrown := Grown.of_logs hhanded hupdates hsuperseded hdisplaced hcompleted
  refine ⟨hlanes ▸ h.latched, ?_, ?_, ?_⟩
  · rw [hhanded]
    exact fun pending hp => h.active pending (hactive pending hp)
  · rw [hdisplaced]
    exact fun d hd => (h.displaced d hd).trans hcompleted.length_le
  · rw [hupdates]
    intro u hu
    rcases h.fates u hu with hsettled | hwaits
    · exact .inl (hgrown.settled hsettled)
    · exact .inr (hgrown.waits hlanes hwaits)

theorem Fates.drain (h : s.Fates) (hlaid : s.Laid) : s.drain.Fates := by
  rcases drain_cases hlaid with ⟨pending, a, b, c, _, hdrain⟩ | ⟨_, hdrain⟩
  · have hgrown : Grown s (s.handing pending a b c) :=
      ⟨List.subset_append_left _ _, fun _ h => h, fun _ h => h, fun _ h => h, List.prefix_rfl⟩
    rw [hdrain]
    refine ⟨h.latched, ?_, h.displaced, fun u hu => ?_⟩
    · intro p hp
      obtain rfl := Option.some.inj hp
      exact List.mem_append_right _ List.mem_cons_self
    · rcases h.fates u hu with hsettled | hwaits
      · exact .inl (hgrown.settled hsettled)
      · exact .inr (hgrown.waits rfl hwaits)
  · rw [hdrain]
    exact h.congr rfl (by simp) rfl List.prefix_rfl rfl rfl rfl

theorem Fates.start (h : s.Fates) (hready : s.Ready) : s.start.Fates := by
  rw [OutboundDeliveryPump.start]
  split_ifs
  · exact h
  · have hfates : Fates { s with running := true } :=
      h.congr rfl (fun _ hp => hp) rfl List.prefix_rfl rfl rfl rfl
    exact hfates.drain ⟨hready.stateKeys, hready.terminalKeys, hready.control, hready.state,
      hready.terminal⟩

/-! ## A lane changes -/

theorem stateLane_set (hkeys : (Entries.keys s.stateLanes).Nodup) {laneId : Str}
    {lane : StateLane φ} (hlanes : t.stateLanes = Entries.set s.stateLanes laneId lane) :
    t.stateLane laneId = lane := by
  rw [stateLane, hlanes, Entries.get_set_self hkeys]
  rfl

theorem stateLane_set_other (hkeys : (Entries.keys s.stateLanes).Nodup) {laneId other : Str}
    {lane : StateLane φ} (hlanes : t.stateLanes = Entries.set s.stateLanes laneId lane)
    (hne : other ≠ laneId) : t.stateLane other = s.stateLane other := by
  rw [stateLane, hlanes, Entries.get_set_other hkeys hne, stateLane]

theorem Grown.fate (h : Grown s t) {u : StateUpdate} (hu : s.Settled u ∨ s.Waits u)
    (hbefore : ∀ d ∈ s.displaced, d.completed ≤ s.completed.length)
    (hupdate : ∀ pending ∈ (s.stateLane u.laneId).queue, pending.number = u.number →
      pending.traffic = .state u.laneId u.key → t.Settled u ∨ t.Waits u)
    (hnotice : ∀ pending ∈ (s.stateLane u.laneId).queue,
      pending.traffic = .stateResync u.laneId → pending ∈ (t.stateLane u.laneId).queue ∨
        pending ∈ t.completed.drop s.completed.length) : t.Settled u ∨ t.Waits u := by
  rcases hu with hsettled | ⟨pending, hp, hnumber, htraffic⟩ |
    ⟨d, hd, hdnumber, pending, hp, hnumber, htraffic⟩
  · exact .inl (h.settled hsettled)
  · exact hupdate pending hp hnumber htraffic
  · rcases hnotice pending hp htraffic with hqueued | hcompleted
    · exact .inr (.inr ⟨d, h.displaced hd, hdnumber, pending, hqueued, hnumber, htraffic⟩)
    · have hsub := List.drop_subset_drop_left t.completed (hbefore d hd)
      exact .inl (.inr (.inr
        ⟨d, h.displaced hd, hdnumber, pending, hsub hcompleted, hnumber, htraffic⟩))

theorem Fates.stateLane (h : s.Fates) (laneId : Str) : Latched (s.stateLane laneId) := by
  rw [OutboundDeliveryPump.stateLane]
  cases hlane : Entries.get s.stateLanes laneId with
  | none => exact ⟨(by simp), (by simp)⟩
  | some lane => exact h.latched _ (Entries.mem_of_get hlane)

section Frames
variable (size : φ → ℕ) (limits : OutboundDeliveryLimits)

theorem Latched.sent {lane : StateLane φ} (h : Latched lane) {pending : PendingDelivery φ}
    (hmore : lane.queue.tail ≠ []) : Latched (lane.sent size pending) := by
  refine ⟨fun hpending => ?_, fun hclear p hp => h.clear hclear p (List.mem_of_mem_tail hp)⟩
  obtain ⟨notice, hlast, hnotice⟩ := h.pending hpending
  refine ⟨notice, ?_, hnotice⟩
  rw [StateLane.sent]
  cases hqueue : lane.queue with
  | nil =>
    rw [hqueue] at hmore
    exact absurd rfl hmore
  | cons first rest =>
    rw [hqueue] at hmore hlast
    obtain ⟨second, rest, rfl⟩ := List.exists_cons_of_ne_nil hmore
    rwa [List.getLast?_cons_cons] at hlast

theorem completeState_latched (h : s.Fates) (laneId : Str) (pending : PendingDelivery φ) :
    ∀ e ∈ (s.completeState size laneId pending).stateLanes, Latched e.2 := by
  rw [completeState]
  cases hlane : Entries.get s.stateLanes laneId with
  | none => exact h.latched
  | some lane =>
    have hlatched := h.latched _ (Entries.mem_of_get hlane)
    dsimp only
    split_ifs with hfirst hlast
    · exact fun e he => h.latched e (Entries.mem_delete.mp he).1
    · intro e he
      rcases Entries.mem_set.mp he with rfl | ⟨he, _⟩
      · exact hlatched.sent size hlast
      · exact h.latched e he
    · exact h.latched

/-! ## Operations -/

theorem completeState_kept (hkeys : (Entries.keys s.stateLanes).Nodup) {laneId : Str}
    {lane : StateLane φ} {pending : PendingDelivery φ}
    (hget : Entries.get s.stateLanes laneId = some lane) (hhead : lane.queue.head? = some pending)
    (other : Str) : ∀ p ∈ (s.stateLane other).queue,
      p = pending ∨ p ∈ ((s.completeState size laneId pending).stateLane other).queue := by
  intro p hp
  rw [stateLane_queue, (completeState_popped size hget hhead).waiting hkeys, ← stateLane_queue]
  by_cases hcase : laneId = other
  · obtain ⟨rest, hqueue⟩ := List.head?_eq_some_iff.mp hhead
    rw [stateLane_queue, ← hcase, hget, Option.elim_some, hqueue] at hp
    rw [if_pos hcase, stateLane_queue, ← hcase, hget, Option.elim_some, hqueue]
    exact List.mem_cons.mp hp
  · rw [if_neg hcase]
    exact .inr hp

theorem Fates.complete (h : s.Fates) {pending : PendingDelivery φ}
    (hactive : s.activeDelivery = some pending) (hnone : t.activeDelivery = none)
    (hlatched : ∀ e ∈ t.stateLanes, Latched e.2)
    (hkept : ∀ laneId, ∀ p ∈ (s.stateLane laneId).queue,
      p = pending ∨ p ∈ (t.stateLane laneId).queue)
    (hcompleted : t.completed = s.completed ++ [pending]) (hhanded : t.handed = s.handed)
    (hupdates : t.updates = s.updates) (hsuperseded : t.superseded = s.superseded)
    (hdisplaced : t.displaced = s.displaced) : t.Fates := by
  have hgrown := Grown.of_logs hhanded hupdates hsuperseded hdisplaced
    (hcompleted ▸ List.prefix_append _ _)
  refine ⟨hlatched, ?_, ?_, fun u hu => ?_⟩
  · rw [hnone]
    nofun
  · rw [hdisplaced]
    exact fun d hd => (h.displaced d hd).trans hgrown.completed.length_le
  rw [hupdates] at hu
  refine hgrown.fate (h.fates u hu) h.displaced ?_ ?_
  · intro p hp hnumber htraffic
    rcases hkept u.laneId p hp with rfl | hp
    · exact .inl (hgrown.settled (.inl ⟨p, h.active p hactive, hnumber, htraffic⟩))
    · exact .inr (.inl ⟨p, hp, hnumber, htraffic⟩)
  · intro p hp _
    rcases hkept u.laneId p hp with rfl | hp
    · exact .inr (by simp [hcompleted])
    · exact .inl hp

theorem fail_error (s : OutboundDeliveryPump φ) : s.fail.terminalError = true := by
  rw [fail]
  split_ifs with herror
  · exact herror
  · rfl

theorem start_failed (herror : s.terminalError = true) : s.start = s :=
  if_pos (.inr herror)

/-! ## What a step does -/

/-- The state lanes, the frame in flight and the logs stay. -/
structure Aside (s t : OutboundDeliveryPump φ) : Prop where
  lanes : t.stateLanes = s.stateLanes
  active : t.activeDelivery = s.activeDelivery
  handed : t.handed = s.handed
  completed : t.completed = s.completed
  updates : t.updates = s.updates
  superseded : t.superseded = s.superseded
  displaced : t.displaced = s.displaced
  admissions : s.admissions ≤ t.admissions

theorem Aside.refl (s : OutboundDeliveryPump φ) : Aside s s := ⟨rfl, rfl, rfl, rfl, rfl, rfl, rfl, le_rfl⟩

def queuedState (s : OutboundDeliveryPump φ) (frame : φ) (a : StateDeliveryAdmission φ) :
    OutboundDeliveryPump φ :=
  (s.numbered size a ((s.stateLane a.laneId).queue.find? (s.replaceable a.key))).queueState size
    a.laneId a.key (s.superseding size (s.stateLane a.laneId) a.key) s.admissions frame

def congestedState (s : OutboundDeliveryPump φ) (a : StateDeliveryAdmission φ) :
    OutboundDeliveryPump φ :=
  (s.numbered size a ((s.stateLane a.laneId).queue.find? (s.replaceable a.key))).congestState size
    limits a.laneId (s.superseding size (s.stateLane a.laneId) a.key) s.admissions a.resyncFrame

/-- A step ends the frame in flight: the transport took it, or refused a control frame. -/
def Ends (s : OutboundDeliveryPump φ) (pending : PendingDelivery φ)
    (completed : List (PendingDelivery φ)) : Prop :=
  completed = s.completed ++ [pending] ∨ pending.traffic = .control ∧ completed = s.completed

/-- What a step makes of a pump that it does not fail. -/
inductive Stepped (s : OutboundDeliveryPump φ) :
    OutboundInput φ → OutboundDeliveryPump φ → Prop where
  | aside {input t} : Aside s t → s.Stepped input t
  | started {input t} : t.Ready → Aside s t → s.Stepped input t.start
  | discarded (frame a) : (s.stateLane a.laneId).resyncPending = true →
    s.Stepped (.sendState frame a) (s.discardState size a (s.stateLane a.laneId))
  | queued (frame a) : (s.stateLane a.laneId).resyncPending = false →
    (s.queuedState size frame a).Ready → s.Stepped (.sendState frame a) (s.queuedState size frame a).start
  | congested (frame a) : (s.stateLane a.laneId).resyncPending = false →
    (s.congestedState size limits a).Ready →
    s.Stepped (.sendState frame a) (s.congestedState size limits a).start
  | completed {input pending} (completed) : s.activeDelivery = some pending →
    s.Ends pending completed →
    s.Stepped input ({ s.completeDelivery size pending with
      activeDelivery := none, completed := completed } : OutboundDeliveryPump φ).drain

theorem congestTerminal_stepped (hs : s.Scheduled) (hok : s.terminalError = false) (laneId : Str)
    (lane : TerminalLane φ) (nextPosition : ℕ) (createSkipFrame : ℕ → ℕ → φ) (input : OutboundInput φ)
    (hleft : (s.congestTerminalLane size limits laneId lane nextPosition
      createSkipFrame).start.terminalError = false) : s.Stepped size limits input
        (s.congestTerminalLane size limits laneId lane nextPosition createSkipFrame).start := by
  have hready := hs.toReady.congestTerminal size limits hok laneId lane nextPosition createSkipFrame
  rw [congestTerminalLane] at hleft hready ⊢
  split_ifs at hleft hready ⊢
  · rw [start_failed (fail_error s), fail_error] at hleft
    cases hleft
  · exact .started hready ⟨rfl, rfl, rfl, rfl, rfl, rfl, rfl, Nat.le_succ _⟩

theorem sendTerminal_stepped (hs : s.Scheduled) (frame : φ) (a : TerminalDeliveryAdmission φ)
    (now later : ℤ) (input : OutboundInput φ)
    (hleft : (s.sendTerminal size limits frame a now later).terminalError = false) :
    s.Stepped size limits input (s.sendTerminal size limits frame a now later) := by
  rw [sendTerminal] at hleft ⊢
  split_ifs at hleft ⊢ with herror
  iterate 4
    · exact .aside (.refl s)
  have hok : s.terminalError = false := by simpa using herror
  rw [admitTerminal] at hleft ⊢
  split_ifs at hleft ⊢
  · exact .aside ⟨rfl, rfl, rfl, rfl, rfl, rfl, rfl, le_rfl⟩
  · exact congestTerminal_stepped size limits hs hok _ _ _ _ _ hleft
  · exact congestTerminal_stepped size limits hs hok _ _ _ _ _ hleft
  · have hqueue : (((s.terminalLane a.laneId a.position.toNat).counted
        a.nextPosition.toNat).advanced a.nextPosition.toNat now).queue =
          (s.terminalLane a.laneId 0).queue := terminalLane_queue s a.laneId _ 0
    exact .started (hs.toReady.queueTerminal size hok hqueue _ _ frame)
      ⟨rfl, rfl, rfl, rfl, rfl, rfl, rfl, Nat.le_succ _⟩

theorem sendState_stepped (hs : s.Scheduled) (frame : φ) (a : StateDeliveryAdmission φ) :
    s.Stepped size limits (.sendState frame a) (s.sendState size limits frame a) := by
  rw [sendState]
  split_ifs with herror hinvalid hpending
  · exact .aside (.refl s)
  · exact .aside (.refl s)
  · exact .discarded frame a hpending
  · have hok : s.terminalError = false := by simpa using herror
    have hclear : (s.stateLane a.laneId).resyncPending = false := by simpa using hpending
    rw [admitState]
    split_ifs
    · exact .congested frame a hclear (hs.toReady.congestState size limits hok a _ _)
    · exact .queued frame a hclear (hs.toReady.queueState size hok rfl _ frame)

theorem step_stepped (hs : s.Scheduled) (hok : s.terminalError = false) (input : OutboundInput φ)
    (hleft : (s.step size limits input).terminalError = false) :
    s.Stepped size limits input (s.step size limits input) := by
  cases input with
  | send frame =>
    rw [step, send] at hleft ⊢
    split_ifs at hleft ⊢
    · exact .aside (.refl s)
    · rw [fail_error] at hleft
      cases hleft
    · exact .started (hs.toReady.queueControl size frame)
        ⟨rfl, rfl, rfl, rfl, rfl, rfl, rfl, Nat.le_succ _⟩
  | sendState frame a => exact sendState_stepped size limits hs frame a
  | sendTerminal frame a now later => exact sendTerminal_stepped size limits hs frame a now later _ hleft
  | acknowledgeTerminal laneId position now =>
    rw [step, acknowledgeTerminal]
    split
    · exact .aside (.refl s)
    · split_ifs
      · exact .aside (.refl s)
      · exact .aside ⟨rfl, rfl, rfl, rfl, rfl, rfl, rfl, le_rfl⟩
  | releaseTerminal laneId =>
    rw [step, releaseTerminal]
    split
    · exact .aside (.refl s)
    · dsimp only
      split_ifs <;> exact .aside ⟨rfl, rfl, rfl, rfl, rfl, rfl, rfl, le_rfl⟩
  | delivered =>
    rw [step, delivered]
    cases hactive : s.activeDelivery with
    | none => exact .aside (.refl s)
    | some pending =>
      dsimp only
      rw [if_neg (by simp [hok])]
      exact .completed _ hactive (.inl rfl)
  | rejected isOpen =>
    rw [step, rejected] at hleft ⊢
    cases hactive : s.activeDelivery with
    | none => exact .aside (.refl s)
    | some pending =>
      rw [hactive] at hleft
      dsimp only at hleft ⊢
      rw [if_neg (by simp [hok])] at hleft ⊢
      split_ifs at hleft ⊢ with hcontrol
      · have hsame : (s.completeDelivery size pending).completed = s.completed := by
          obtain ⟨_, _, _, _, _, _, _, hframe⟩ := completeDelivery_frame size (s := s) pending
          rw [hframe]
        exact .completed _ hactive (.inr ⟨hcontrol.2, hsame⟩)
      · rw [fail_error] at hleft
        cases hleft
  | close =>
    rw [step, fail_error] at hleft
    cases hleft

/-! ## Operations -/

theorem Fates.completeDelivery (h : s.Fates) (hready : s.Ready) (hok : s.terminalError = false)
    {pending : PendingDelivery φ} (hactive : s.activeDelivery = some pending)
    {completed : List (PendingDelivery φ)} (hends : s.Ends pending completed) :
    Fates { s.completeDelivery size pending with
      activeDelivery := none, completed := completed } := by
  have hprefix : s.completed <+: completed := by
    rcases hends with rfl | ⟨_, rfl⟩
    · exact List.prefix_append _ _
    · exact List.prefix_rfl
  have hheads := hready.active pending hactive hok
  have hstate : ∀ laneId, pending.traffic.stateLaneId = some laneId →
      Fates { s.completeState size laneId pending with
        activeDelivery := none
        completed := completed } := by
    intro laneId hlane
    obtain ⟨lane, hget, hhead⟩ := (heads_state hlane).mp hheads
    have hdone : completed = s.completed ++ [pending] := by
      rcases hends with hdone | ⟨hcontrol, _⟩
      · exact hdone
      · rw [hcontrol] at hlane
        cases hlane
    obtain ⟨_, _, hframe⟩ := completeState_frame size (s := s) laneId pending
    exact h.complete hactive rfl (completeState_latched size h laneId pending)
      (completeState_kept size hready.stateKeys hget hhead) hdone (by rw [hframe]) (by rw [hframe])
      (by rw [hframe]) (by rw [hframe])
  rw [OutboundDeliveryPump.completeDelivery]
  split
  · obtain ⟨_, _, hframe⟩ := completeControl_frame size (s := s) pending
    rw [hframe]
    exact h.congr rfl (by simp) rfl hprefix rfl rfl rfl
  · rename_i laneId key htraffic
    exact hstate laneId (by rw [htraffic]; rfl)
  · rename_i laneId htraffic
    exact hstate laneId (by rw [htraffic]; rfl)
  all_goals
    rename_i laneId _ _ _
    obtain ⟨_, _, _, hframe⟩ := completeTerminal_frame size (s := s) laneId pending
    rw [hframe]
    exact h.congr rfl (by simp) rfl hprefix rfl rfl rfl

theorem Fates.admit (h : s.Fates) (hs : s.Scheduled) {a : StateDeliveryAdmission φ}
    {lane : StateLane φ} (hclear : (s.stateLane a.laneId).resyncPending = false)
    (hgrown : Grown s t) (hlanes : t.stateLanes = Entries.set s.stateLanes a.laneId lane)
    (hlatched : Latched lane) (hactive : t.activeDelivery = s.activeDelivery)
    (hdisplaced : ∀ d ∈ t.displaced, d ∈ s.displaced ∨ d.completed = s.completed.length)
    (hupdates : t.updates = s.updates ++ [.mk s.admissions a.laneId a.key])
    (hsuperseded : ∀ replaced,
      (s.stateLane a.laneId).queue.find? (s.replaceable a.key) = some replaced →
        (replaced.number, s.admissions) ∈ t.superseded)
    (hkept : ∀ u : StateUpdate, u.laneId = a.laneId →
      ∀ pending ∈ (s.stateLane a.laneId).queue.eraseP (s.replaceable a.key),
        pending.number = u.number → pending.traffic = .state u.laneId u.key →
          t.Settled u ∨ t.Waits u)
    (hnew : t.Settled (.mk s.admissions a.laneId a.key) ∨
      t.Waits (.mk s.admissions a.laneId a.key)) : t.Fates := by
  have hqueued := hs.toLaid.stateLane a.laneId
  refine ⟨fun e he => ?_, ?_, fun d hd => ?_, fun u hu => ?_⟩
  · rw [hlanes] at he
    rcases Entries.mem_set.mp he with rfl | ⟨he, _⟩
    · exact hlatched
    · exact h.latched e he
  · rw [hactive]
    exact fun pending hp => hgrown.handed (h.active pending hp)
  · have hlength := hgrown.completed.length_le
    rcases hdisplaced d hd with hold | hnow
    · exact (h.displaced d hold).trans hlength
    · exact hnow.le.trans hlength
  rw [hupdates] at hu
  rcases List.mem_append.mp hu with hu | hu
  · refine hgrown.fate (h.fates u hu) h.displaced ?_ ?_
    · intro p hp hnumber htraffic
      by_cases hcase : u.laneId = a.laneId
      · rw [hcase] at hp
        rcases Lists.find_or_eraseP (p := s.replaceable a.key) hp with hfind | hp
        · have hkey := List.find?_some hfind
          have hfresh := hqueued.fresh p hp
          simp only [replaceable, htraffic, Traffic.stateKey, Bool.and_eq_true, decide_eq_true_eq,
            Option.some.injEq] at hkey
          refine .inl (.inr (.inl ⟨.mk s.admissions a.laneId a.key, ?_, ?_, ?_, ?_, ?_⟩))
          · rw [hupdates]
            exact List.mem_append_right _ List.mem_cons_self
          · exact hnumber ▸ hsuperseded p hfind
          · exact hnumber ▸ hfresh
          · exact hcase.symm
          · exact hkey.2.symm
        · exact hkept u hcase p hp hnumber htraffic
      · have hsame := stateLane_set_other hs.stateKeys hlanes hcase
        rw [← hsame] at hp
        exact .inr (.inl ⟨p, hp, hnumber, htraffic⟩)
    · intro p hp htraffic
      by_cases hcase : u.laneId = a.laneId
      · rw [hcase] at hp
        have hno := (h.stateLane a.laneId).clear hclear p hp
        rw [htraffic] at hno
        exact absurd rfl hno
      · have hsame := stateLane_set_other hs.stateKeys hlanes hcase
        rw [← hsame] at hp
        exact .inl hp
  · rw [List.mem_singleton.mp hu]
    exact hnew

theorem Fates.queueState (h : s.Fates) (hs : s.Scheduled) (a : StateDeliveryAdmission φ)
    (hclear : (s.stateLane a.laneId).resyncPending = false) (frame : φ) :
    (s.queuedState size frame a).Fates := by
  set t := s.queuedState size frame a with ht
  have hgrown : Grown s t :=
    ⟨fun _ h => h, List.subset_append_left _ _, List.subset_append_left _ _, fun _ h => h,
      List.prefix_rfl⟩
  have hlane := stateLane_set (t := t) hs.stateKeys rfl
  have hqueue := congrArg StateLane.queue hlane
  dsimp only at hqueue
  rw [superseding_queue] at hqueue
  refine h.admit hs hclear hgrown rfl ?_ rfl (fun d hd => .inl hd) rfl ?_ ?_ ?_
  · have hold := (h.stateLane a.laneId).clear hclear
    have hsame : (s.superseding size (s.stateLane a.laneId) a.key).resyncPending = false := by
      rw [superseding]
      split
      · exact hclear
      · exact hclear
    refine ⟨fun hpending => ?_, fun _ p hp => ?_⟩
    · rw [hsame] at hpending
      cases hpending
    · rcases List.mem_append.mp hp with hp | hp
      · rw [superseding_queue] at hp
        exact hold p (List.mem_of_mem_eraseP hp)
      · rw [List.mem_singleton.mp hp]
        intro hrefused
        cases hrefused
  · intro replaced hfind
    refine List.mem_append_right _ ?_
    rw [hfind]
    exact List.mem_cons_self
  · intro u hcase p hp hnumber htraffic
    refine .inr (.inl ⟨p, ?_, hnumber, htraffic⟩)
    rw [hcase, hqueue]
    exact List.mem_append_left _ hp
  · refine .inr (.inl ⟨.mk s.admissions frame (.state a.laneId a.key), ?_, rfl, rfl⟩)
    rw [hqueue]
    exact List.mem_append_right _ List.mem_cons_self

theorem Fates.congestState (h : s.Fates) (hs : s.Scheduled) (hok : s.terminalError = false)
    (a : StateDeliveryAdmission φ) (hclear : (s.stateLane a.laneId).resyncPending = false)
    (hfits : size a.resyncFrame ≤ limits.maxStateQueuedBytes) :
    (s.congestedState size limits a).Fates := by
  set less := s.numbered size a ((s.stateLane a.laneId).queue.find? (s.replaceable a.key)) with hless
  set lane := s.superseding size (s.stateLane a.laneId) a.key with hlane
  have hqueue : lane.queue = (s.stateLane a.laneId).queue.eraseP (s.replaceable a.key) :=
    superseding_queue size _ _
  have hretained : less.retainedState a.laneId = s.retainedState a.laneId := rfl
  have hhead : ∀ pending, s.retainedState a.laneId = some pending →
      lane.queue.head? = some pending := by
    intro pending hp
    rw [hqueue]
    exact eraseP_head a.key (retainedState_eq.mp hp).1 (hs.head_state hok hp)
  have hqueued : Queued Traffic.stateLaneId a.laneId s.admissions lane.queue := by
    rw [hqueue]
    exact (hs.toLaid.stateLane a.laneId).sublist List.eraseP_sublist
  set t := s.congestedState size limits a with ht
  rw [congestedState, OutboundDeliveryPump.congestState, congestStateLane,
    if_neg (not_lt.mpr hfits)] at ht
  have hlanes : t.stateLanes = Entries.set s.stateLanes a.laneId
      (.mk ((s.retainedState a.laneId).toList ++
        [PendingDelivery.mk less.admissions a.resyncFrame (.stateResync a.laneId)])
        (lane.queuedBytes - totalBytes size (droppable (s.retainedState a.laneId) lane.queue) +
          size a.resyncFrame) true) := by
    rw [ht]
    rfl
  have hnotice : PendingDelivery.mk less.admissions a.resyncFrame (.stateResync a.laneId) ∈
      (t.stateLane a.laneId).queue := by
    rw [stateLane_set hs.stateKeys hlanes]
    exact List.mem_append_right _ List.mem_cons_self
  have hdisplaced : t.displaced = s.displaced ++
      (droppable (s.retainedState a.laneId) lane.queue).map (fun pending =>
        Displaced.mk pending.number less.admissions s.completed.length) ++
      [.mk s.admissions less.admissions s.completed.length] := by
    rw [ht]
    rfl
  have hgrown : Grown s t := by
    refine ⟨?_, ?_, ?_, ?_, ?_⟩
    · rw [ht]
      exact fun _ h => h
    · rw [ht]
      exact List.subset_append_left _ _
    · rw [ht]
      exact List.subset_append_left _ _
    · rw [hdisplaced, List.append_assoc]
      exact List.subset_append_left _ _
    · rw [ht]
      exact List.prefix_rfl
  refine h.admit hs hclear hgrown hlanes ⟨fun _ => ⟨_, List.getLast?_concat, rfl⟩, (by simp)⟩
    (by rw [ht]; rfl) ?_
    (by rw [ht]; rfl) ?_ ?_ ?_
  · intro d hd
    rw [hdisplaced] at hd
    rcases List.mem_append.mp hd with hd | hd
    · rcases List.mem_append.mp hd with hd | hd
      · exact .inl hd
      · obtain ⟨pending, _, rfl⟩ := List.mem_map.mp hd
        exact .inr rfl
    · rw [List.mem_singleton.mp hd]
      exact .inr rfl
  · intro replaced hfind
    have hlog : t.superseded = less.superseded := by rw [ht]
    rw [hlog, hless, hfind]
    exact List.mem_append_right _ List.mem_cons_self
  · intro u hcase p hp hnumber htraffic
    rw [← hqueue, ← retained_append hhead] at hp
    rcases List.mem_append.mp hp with hp | hp
    · have hretain := (retainedState_eq.mp (Option.mem_toList.mp hp)).1
      exact .inl (.inl ⟨p, hgrown.handed (h.active p hretain), hnumber, htraffic⟩)
    · rw [← hqueued.droppable_eq hhead] at hp
      refine .inr (.inr ⟨.mk p.number less.admissions s.completed.length, ?_, hnumber, _,
        hcase ▸ hnotice, rfl, by rw [hcase]⟩)
      rw [hdisplaced]
      exact List.mem_append_left _ (List.mem_append_right _ (List.mem_map_of_mem hp))
  · refine .inr (.inr ⟨.mk s.admissions less.admissions s.completed.length, ?_, rfl, _, hnotice,
      rfl, rfl⟩)
    rw [hdisplaced]
    exact List.mem_append_right _ List.mem_cons_self

theorem Fates.discardState (h : s.Fates) (hs : s.Scheduled) (a : StateDeliveryAdmission φ)
    (hpending : (s.stateLane a.laneId).resyncPending = true) :
    (s.discardState size a (s.stateLane a.laneId)).Fates := by
  obtain ⟨last, hlast, hkey⟩ := (h.stateLane a.laneId).pending hpending
  have hmem := List.mem_of_getLast? hlast
  obtain ⟨found, hfound⟩ : ∃ found, notice (s.stateLane a.laneId) = some found := by
    refine Option.isSome_iff_exists.mp ?_
    rw [notice, List.find?_isSome]
    exact ⟨last, hmem, by simp [hkey]⟩
  have hqueued := List.mem_of_find?_eq_some hfound
  have htraffic : found.traffic = .stateResync a.laneId := by
    have hlane := (hs.toLaid.stateLane a.laneId).lane found hqueued
    have hnone := List.find?_some hfound
    cases hcase : found.traffic <;> rw [hcase] at hlane hnone <;> cases hlane
    · simp [Traffic.stateKey] at hnone
    · rfl
  have hdisplaced : (s.discardState size a (s.stateLane a.laneId)).displaced =
      s.displaced ++ [.mk s.admissions found.number s.completed.length] := by
    rw [OutboundDeliveryPump.discardState, hfound]
    rfl
  have hgrown : Grown s (s.discardState size a (s.stateLane a.laneId)) := by
    refine ⟨fun _ h => h, List.subset_append_left _ _, List.subset_append_left _ _, ?_,
      List.prefix_rfl⟩
    rw [hdisplaced]
    exact List.subset_append_left _ _
  refine ⟨h.latched, h.active, fun d hd => ?_, fun u hu => ?_⟩
  · rw [hdisplaced] at hd
    rcases List.mem_append.mp hd with hd | hd
    · exact h.displaced d hd
    · rw [List.mem_singleton.mp hd]
      exact le_rfl
  · rcases List.mem_append.mp hu with hu | hu
    · rcases h.fates u hu with hsettled | hwaits
      · exact .inl (hgrown.settled hsettled)
      · exact .inr (hgrown.waits rfl hwaits)
    · rw [List.mem_singleton.mp hu]
      refine .inr (.inr ⟨.mk s.admissions found.number s.completed.length, ?_, rfl, found, hqueued,
        rfl, htraffic⟩)
      rw [hdisplaced]
      exact List.mem_append_right _ List.mem_cons_self

theorem Fates.stepped (h : s.Fates) (hs : s.Scheduled) (hok : s.terminalError = false)
    {input : OutboundInput φ} (hfits : ResyncFits size limits s input)
    (ht : s.Stepped size limits input t) : t.Fates := by
  have hsame : ∀ {t}, Aside s t → Fates t := fun ha => h.congr ha.lanes
    (fun p hp => ha.active ▸ hp) ha.handed (ha.completed ▸ List.prefix_rfl) ha.updates ha.superseded ha.displaced
  cases ht with
  | aside ha => exact hsame ha
  | started hready ha => exact (hsame ha).start hready
  | discarded frame a hpending => exact h.discardState size hs a hpending
  | queued frame a hclear hready => exact (h.queueState size hs a hclear frame).start hready
  | congested frame a hclear hready =>
    exact (h.congestState size limits hs hok a hclear hfits).start hready
  | completed completed hactive hends =>
    exact (h.completeDelivery size hs.toReady hok hactive hends).drain (hs.toLaid.completed size _ _)

theorem nextDelivery_frame (s : OutboundDeliveryPump φ) : ∃ a b c, s.nextDelivery.2 =
    { s with
      terminalLaneCursor := a
      stateLaneCursor := b
      consecutiveControlDeliveries := c } := by
  rw [nextDelivery]
  split_ifs <;> exact ⟨_, _, _, rfl⟩

theorem drain_frame (s : OutboundDeliveryPump φ) : s.drain.terminalError = s.terminalError ∧
    s.drain.queuedFrames = s.queuedFrames ∧ s.drain.updates = s.updates := by
  obtain ⟨a, b, c, hframe⟩ := nextDelivery_frame s
  rw [drain]
  split
  · rename_i pending t hnext
    rw [hnext] at hframe
    dsimp only at hframe
    rw [hframe]
    exact ⟨rfl, rfl, rfl⟩
  · rename_i t hnext
    rw [hnext] at hframe
    dsimp only at hframe
    rw [hframe]
    exact ⟨rfl, rfl, rfl⟩

theorem start_error (s : OutboundDeliveryPump φ) : s.start.terminalError = s.terminalError := by
  rw [start]
  split_ifs
  · rfl
  · exact (drain_frame _).1

theorem delivered_error : (s.delivered size).terminalError = s.terminalError := by
  rw [delivered]
  cases s.activeDelivery with
  | none => rfl
  | some pending =>
    dsimp only
    split_ifs
    · rfl
    · rw [(drain_frame _).1]
      exact (completeDelivery_handed size pending).2

theorem failed_step (herror : s.terminalError = true) (input : OutboundInput φ) :
    (s.step size limits input).terminalError = true := by
  cases input with
  | send frame =>
    rw [step, send, if_pos herror]
    exact herror
  | sendState frame admission =>
    rw [step, sendState, if_pos herror]
    exact herror
  | sendTerminal frame admission now later =>
    rw [step, sendTerminal, if_pos herror]
    exact herror
  | acknowledgeTerminal laneId position now =>
    rw [step, acknowledgeTerminal]
    cases Entries.get s.terminalLanes laneId with
    | none => exact herror
    | some lane =>
      dsimp only
      split_ifs <;> exact herror
  | releaseTerminal laneId =>
    rw [step, releaseTerminal]
    cases Entries.get s.terminalLanes laneId with
    | none => exact herror
    | some lane =>
      dsimp only
      split_ifs <;> exact herror
  | delivered => rw [step, delivered_error, herror]
  | rejected isOpen =>
    rw [step, rejected]
    cases s.activeDelivery with
    | none => exact herror
    | some pending =>
      dsimp only
      rw [if_pos herror]
      exact herror
  | close => exact fail_error s

/-! ## What is queued is delivered -/

theorem queued_state {laneId : Str} {pending : PendingDelivery φ}
    (hp : pending ∈ (s.stateLane laneId).queue) : 0 < s.queuedFrames := by
  rw [queuedFrames_eq]
  refine List.length_pos_of_mem (a := pending) ?_
  rw [stateLane_queue] at hp
  cases hlane : Entries.get s.stateLanes laneId with
  | none =>
    rw [hlane] at hp
    cases hp
  | some lane =>
    rw [hlane] at hp
    exact List.mem_append_left _ (List.mem_append_right _
      (List.mem_flatMap.mpr ⟨_, Entries.mem_of_get hlane, hp⟩))

theorem idle_queued (h : s.Idle) : s.queuedFrames = 0 := by
  rw [queuedFrames_eq, allQueued, h.control, stateQueued, terminalQueued,
    List.flatMap_eq_nil_iff.mpr h.state, List.flatMap_eq_nil_iff.mpr h.terminal]
  rfl

theorem delivered_queued (hs : s.Scheduled) (hok : s.terminalError = false) :
    (s.delivered size).queuedFrames = s.queuedFrames - 1 := by
  rw [delivered]
  cases hactive : s.activeDelivery with
  | none => rw [idle_queued (hs.idle hok hactive)]
  | some pending =>
    have hless := (completeDelivery_perm size hs.toLaid (hs.active pending hactive hok)).length_eq
    rw [← queuedFrames_eq, List.length_cons, ← queuedFrames_eq] at hless
    dsimp only
    rw [if_neg (by simp [hok]), (drain_frame _).2.1]
    exact Nat.eq_sub_of_add_eq hless

theorem delivered_updates : (s.delivered size).updates = s.updates := by
  rw [delivered]
  cases s.activeDelivery with
  | none => rfl
  | some pending =>
    obtain ⟨_, _, _, _, _, _, _, hframe⟩ := completeDelivery_frame size (s := s) pending
    dsimp only
    split_ifs
    · rfl
    · rw [(drain_frame _).2.2, hframe]

theorem drained (n : ℕ) (hs : s.Scheduled) (hok : s.terminalError = false)
    (hn : s.queuedFrames ≤ n) :
    let t := Runs.after (step size limits) s (List.replicate n .delivered)
    t.queuedFrames = 0 ∧ t.terminalError = false ∧ t.updates = s.updates := by
  induction n generalizing s with
  | zero => exact ⟨Nat.le_zero.mp hn, hok, rfl⟩
  | succ n ih =>
    have hless := delivered_queued size hs hok
    have hmore := ih (s := s.delivered size) (hs.delivered size)
      ((delivered_error size).trans hok) (by omega)
    rw [delivered_updates] at hmore
    exact hmore

end Frames

/-! ## The order of delivery -/

def ofLane (laneId : Str) (frames : List (PendingDelivery φ)) : List (PendingDelivery φ) :=
  frames.filter fun pending => pending.traffic.stateLaneId = some laneId

structure Ordered (s : OutboundDeliveryPump φ) : Prop where
  handed : ∀ laneId, ((ofLane laneId s.handed).map PendingDelivery.number).Pairwise (· < ·)
  fresh : ∀ laneId, ∀ pending ∈ ofLane laneId s.handed, pending.number < s.admissions
  later : ∀ laneId, ∀ pending ∈ waiting (s.retainedState laneId) (s.stateLane laneId).queue,
    ∀ before ∈ ofLane laneId s.handed, before.number < pending.number
  sent : (s.completed ++ s.activeDelivery.toList).Sublist s.handed

theorem retainedState_none (hnone : s.activeDelivery = none) (laneId : Str) :
    s.retainedState laneId = none := by
  rw [retainedState, hnone]
  rfl

theorem Ordered.keep (h : s.Ordered) (hhanded : t.handed = s.handed)
    (hadmissions : s.admissions ≤ t.admissions)
    (hsent : (t.completed ++ t.activeDelivery.toList).Sublist s.handed)
    (hwaiting : ∀ laneId, ∀ pending ∈ waiting (t.retainedState laneId) (t.stateLane laneId).queue,
      s.admissions ≤ pending.number ∨
        pending ∈ waiting (s.retainedState laneId) (s.stateLane laneId).queue) : t.Ordered := by
  refine ⟨hhanded ▸ h.handed, fun laneId p hp => ?_, fun laneId p hp q hq => ?_, hhanded ▸ hsent⟩
  · rw [hhanded] at hp
    exact (h.fresh laneId p hp).trans_le hadmissions
  · rw [hhanded] at hq
    rcases hwaiting laneId p hp with hnew | hold
    · exact (h.fresh laneId q hq).trans_le hnew
    · exact h.later laneId p hold q hq

theorem Ordered.congr (h : s.Ordered) (hlanes : t.stateLanes = s.stateLanes)
    (hactive : t.activeDelivery = s.activeDelivery) (hhanded : t.handed = s.handed)
    (hcompleted : t.completed = s.completed) (hadmissions : s.admissions ≤ t.admissions) :
    t.Ordered := by
  refine h.keep hhanded hadmissions (by rw [hcompleted, hactive]; exact h.sent) ?_
  intro laneId p hp
  rw [retainedState, hactive, stateLane, hlanes] at hp
  exact .inr hp

theorem Ordered.drain (h : s.Ordered) (hlaid : s.Laid) (hnone : s.activeDelivery = none) :
    s.drain.Ordered := by
  have hall : ∀ laneId, waiting (s.retainedState laneId) (s.stateLane laneId).queue =
      (s.stateLane laneId).queue := fun laneId => by rw [retainedState_none hnone]; rfl
  rcases drain_cases hlaid with ⟨pending, a, b, c, hheads, hdrain⟩ | ⟨_, hdrain⟩
  · rw [hdrain]
    have hhanded : ∀ laneId, ofLane laneId (s.handing pending a b c).handed =
        ofLane laneId s.handed ++ ofLane laneId [pending] := fun laneId => List.filter_append _ _
    have hfirst : ∀ laneId, pending ∈ ofLane laneId [pending] →
        (s.stateLane laneId).queue.head? = some pending := by
      intro laneId hmine
      have hlane := (List.mem_filter.mp hmine).2
      obtain ⟨lane, hget, hhead⟩ := (heads_state (by simpa using hlane)).mp hheads
      rw [stateLane, hget]
      exact hhead
    have hmine : ∀ laneId, ∀ p ∈ ofLane laneId [pending],
        p = pending ∧ (s.stateLane laneId).queue.head? = some pending := by
      intro laneId p hp
      have heq := List.mem_singleton.mp (List.mem_filter.mp hp).1
      rw [heq] at hp
      exact ⟨heq, hfirst laneId hp⟩
    refine ⟨fun laneId => ?_, fun laneId p hp => ?_, fun laneId p hp q hq => ?_, ?_⟩
    · rw [hhanded, List.map_append, List.pairwise_append]
      refine ⟨h.handed laneId, ?_, ?_⟩
      · have hone : (ofLane laneId [pending]).Sublist [pending] := List.filter_sublist
        exact (List.pairwise_singleton _ pending.number).sublist (hone.map _)
      · intro n hn m hm
        obtain ⟨q, hq, rfl⟩ := List.mem_map.mp hn
        obtain ⟨p, hp, rfl⟩ := List.mem_map.mp hm
        obtain ⟨rfl, hhead⟩ := hmine laneId p hp
        have hwaits := List.mem_of_head? hhead
        rw [← hall] at hwaits
        exact h.later laneId p hwaits q hq
    · rw [hhanded] at hp
      rcases List.mem_append.mp hp with hp | hp
      · exact h.fresh laneId p hp
      · obtain ⟨rfl, hhead⟩ := hmine laneId p hp
        exact (hlaid.stateLane laneId).fresh p (List.mem_of_head? hhead)
    · have hp : p ∈ waiting ((s.handing pending a b c).retainedState laneId)
          (s.stateLane laneId).queue := hp
      have hmem : p ∈ (s.stateLane laneId).queue := by
        rw [waiting] at hp
        split_ifs at hp
        · exact List.mem_of_mem_tail hp
        · exact hp
      rw [hhanded] at hq
      rcases List.mem_append.mp hq with hq | hq
      · rw [← hall] at hmem
        exact h.later laneId p hmem q hq
      · have hlane := (List.mem_filter.mp hq).2
        obtain ⟨rfl, hhead⟩ := hmine laneId q hq
        have hretained : (s.handing q a b c).retainedState laneId = some q :=
          retainedState_eq.mpr ⟨rfl, by simpa using hlane⟩
        obtain ⟨rest, hqueue⟩ := List.head?_eq_some_iff.mp hhead
        have horder := (hlaid.stateLane laneId).order
        rw [hqueue, List.map_cons, List.pairwise_cons] at horder
        rw [hretained, hqueue] at hp
        exact horder.1 p.number (List.mem_map_of_mem hp)
    · have hsent := h.sent
      rw [hnone, Option.toList_none, List.append_nil] at hsent
      exact hsent.append (List.Sublist.refl [pending])
  · rw [hdrain]
    exact h.congr rfl hnone.symm rfl rfl le_rfl

section Frames
variable (size : φ → ℕ) (limits : OutboundDeliveryLimits)

theorem Ordered.start (h : s.Ordered) (hready : s.Ready) : s.start.Ordered := by
  rw [OutboundDeliveryPump.start]
  split_ifs with hbusy
  · exact h
  · obtain ⟨hnone, hlaid⟩ := hready.unstarted fun hrunning => hbusy (.inl hrunning)
    have hordered : Ordered { s with running := true } := h.congr rfl rfl rfl rfl le_rfl
    exact hordered.drain hlaid hnone

/-- The frame in flight leaves its queue, so the same frames wait. -/
theorem completeDelivery_waiting (hready : s.Ready) (hok : s.terminalError = false)
    {pending : PendingDelivery φ} (hactive : s.activeDelivery = some pending) (laneId : Str) :
    ((s.completeDelivery size pending).stateLane laneId).queue =
      waiting (s.retainedState laneId) (s.stateLane laneId).queue := by
  have hheads := hready.active pending hactive hok
  have hstate : ∀ mine, pending.traffic.stateLaneId = some mine →
      ((s.completeState size mine pending).stateLane laneId).queue =
        waiting (s.retainedState laneId) (s.stateLane laneId).queue := by
    intro mine hmine
    obtain ⟨lane, hget, hhead⟩ := (heads_state hmine).mp hheads
    rw [stateLane_queue, (completeState_popped size hget hhead).waiting hready.stateKeys,
      stateLane_queue, retainedState, hactive, Option.filter_some, hmine]
    simp
  have hsame : ∀ {t : OutboundDeliveryPump φ}, t.stateLanes = s.stateLanes →
      pending.traffic.stateLaneId = none →
        (t.stateLane laneId).queue = waiting (s.retainedState laneId) (s.stateLane laneId).queue := by
    intro t hlanes hnone
    rw [retainedState, hactive, Option.filter_some, hnone, stateLane, hlanes]
    rfl
  rw [completeDelivery]
  split
  · rename_i htraffic
    obtain ⟨_, _, hframe⟩ := completeControl_frame size (s := s) pending
    exact hsame (by rw [hframe]) (by rw [htraffic]; rfl)
  · rename_i htraffic
    exact hstate _ (by rw [htraffic]; rfl)
  · rename_i htraffic
    exact hstate _ (by rw [htraffic]; rfl)
  all_goals
    rename_i htraffic
    obtain ⟨_, _, _, hframe⟩ := completeTerminal_frame size (s := s) _ pending
    exact hsame (by rw [hframe]) (by rw [htraffic]; rfl)

theorem Ordered.completeDelivery (h : s.Ordered) (hready : s.Ready) (hok : s.terminalError = false)
    {pending : PendingDelivery φ} (hactive : s.activeDelivery = some pending)
    {completed : List (PendingDelivery φ)} (hends : s.Ends pending completed) :
    Ordered { s.completeDelivery size pending with
      activeDelivery := none, completed := completed } := by
  have hwaiting := completeDelivery_waiting size hready hok hactive
  obtain ⟨_, _, _, _, _, _, _, hframe⟩ := completeDelivery_frame size (s := s) pending
  refine h.keep (by rw [hframe]) (by rw [hframe]) ?_ fun laneId p hp => ?_
  · have hsent := h.sent
    rw [hactive, Option.toList_some] at hsent
    rw [Option.toList_none, List.append_nil]
    rcases hends with rfl | ⟨_, rfl⟩
    · exact hsent
    · exact (List.sublist_append_left _ _).trans hsent
  · rw [retainedState_none rfl] at hp
    exact .inr (hwaiting laneId ▸ hp)

theorem waiting_eraseP (key : Str) {laneId : Str} {queue : List (PendingDelivery φ)}
    (hhead : ∀ pending, s.retainedState laneId = some pending → queue.head? = some pending) :
    (waiting (s.retainedState laneId) (queue.eraseP (s.replaceable key))).Sublist
      (waiting (s.retainedState laneId) queue) := by
  cases hretained : s.retainedState laneId with
  | none => exact List.eraseP_sublist
  | some active =>
    obtain ⟨rest, hqueue⟩ := List.head?_eq_some_iff.mp (hhead active hretained)
    have hactive := (retainedState_eq.mp hretained).1
    rw [hqueue, List.eraseP_cons_of_neg (by simp [replaceable, isActive, hactive])]
    exact List.eraseP_sublist

theorem Ordered.setState (h : s.Ordered) (hs : s.Scheduled) {laneId : Str} {lane : StateLane φ}
    (hlanes : t.stateLanes = Entries.set s.stateLanes laneId lane)
    (hactive : t.activeDelivery = s.activeDelivery) (hhanded : t.handed = s.handed)
    (hcompleted : t.completed = s.completed) (hadmissions : s.admissions ≤ t.admissions)
    (hwaiting : ∀ pending ∈ waiting (s.retainedState laneId) lane.queue,
      s.admissions ≤ pending.number ∨
        pending ∈ waiting (s.retainedState laneId) (s.stateLane laneId).queue) : t.Ordered := by
  refine h.keep hhanded hadmissions (by rw [hcompleted, hactive]; exact h.sent) ?_
  intro other p hp
  have hretained : t.retainedState other = s.retainedState other := by
    rw [retainedState, hactive, retainedState]
  rw [hretained] at hp
  by_cases hcase : other = laneId
  · rw [hcase] at hp ⊢
    rw [stateLane_set hs.stateKeys hlanes] at hp
    exact hwaiting p hp
  · rw [stateLane_set_other hs.stateKeys hlanes hcase] at hp
    exact .inr hp

theorem waiting_retained (retained : Option (PendingDelivery φ)) (more : List (PendingDelivery φ)) :
    waiting retained (retained.toList ++ more) = more := by
  cases retained with
  | none => rfl
  | some active => rfl

theorem Ordered.queueState (h : s.Ordered) (hs : s.Scheduled) (hok : s.terminalError = false)
    (a : StateDeliveryAdmission φ) (frame : φ) : (s.queuedState size frame a).Ordered := by
  have hhead : ∀ pending, s.retainedState a.laneId = some pending →
      (s.stateLane a.laneId).queue.head? = some pending := fun _ hp => hs.head_state hok hp
  refine h.setState hs rfl rfl rfl rfl (Nat.le_succ _) fun p hp => ?_
  dsimp only at hp
  rw [superseding_queue, waiting_append fun pending hretained =>
    eraseP_head a.key (retainedState_eq.mp hretained).1 (hhead pending hretained)] at hp
  rcases List.mem_append.mp hp with hp | hp
  · exact .inr ((waiting_eraseP a.key hhead).subset hp)
  · rw [List.mem_singleton.mp hp]
    exact .inl le_rfl

theorem Ordered.congestState (h : s.Ordered) (hs : s.Scheduled) (a : StateDeliveryAdmission φ)
    (hfits : size a.resyncFrame ≤ limits.maxStateQueuedBytes) :
    (s.congestedState size limits a).Ordered := by
  rw [congestedState, OutboundDeliveryPump.congestState, congestStateLane,
    if_neg (not_lt.mpr hfits)]
  refine h.setState hs rfl rfl rfl rfl ((Nat.le_succ _).trans (Nat.le_succ _)) fun p hp => ?_
  have hp : p ∈ waiting (s.retainedState a.laneId) ((s.retainedState a.laneId).toList ++
      [PendingDelivery.mk (s.admissions + 1) a.resyncFrame (.stateResync a.laneId)]) := hp
  rw [waiting_retained] at hp
  rw [List.mem_singleton.mp hp]
  exact .inl (Nat.le_succ _)

theorem Ordered.stepped (h : s.Ordered) (hs : s.Scheduled) (hok : s.terminalError = false)
    {input : OutboundInput φ} (hfits : ResyncFits size limits s input)
    (ht : s.Stepped size limits input t) : t.Ordered := by
  have hsame : ∀ {t}, Aside s t → Ordered t := fun ha =>
    h.congr ha.lanes ha.active ha.handed ha.completed ha.admissions
  cases ht with
  | aside ha => exact hsame ha
  | started hready ha => exact (hsame ha).start hready
  | discarded frame a hpending => exact h.congr rfl rfl rfl rfl (Nat.le_succ _)
  | queued frame a hclear hready => exact (h.queueState size hs hok a frame).start hready
  | congested frame a hclear hready => exact (h.congestState size limits hs a hfits).start hready
  | completed completed hactive hends =>
    exact (h.completeDelivery size hs.toReady hok hactive hends).drain
      (hs.toLaid.completed size _ _) rfl

end Frames

theorem created_fates : (created : OutboundDeliveryPump φ).Fates := ⟨nofun, nofun, nofun, nofun⟩

theorem created_ordered : (created : OutboundDeliveryPump φ).Ordered :=
  ⟨fun _ => .nil, nofun, nofun, List.Sublist.refl _⟩

end OutboundDeliveryPump

section Runs
open OutboundDeliveryPump
variable (size : φ → ℕ) (limits : OutboundDeliveryLimits)

instance decidableResyncFits (s : OutboundDeliveryPump φ) :
    (input : OutboundInput φ) → Decidable (ResyncFits size limits s input)
  | .sendState _ admission =>
    inferInstanceAs (Decidable (size admission.resyncFrame ≤ limits.maxStateQueuedBytes))
  | .send _ | .sendTerminal _ _ _ _ | .acknowledgeTerminal _ _ _ | .releaseTerminal _ | .delivered
  | .rejected _ | .close => .isTrue trivial

structure Kept (s : OutboundDeliveryPump φ) : Prop where
  scheduled : s.Scheduled
  flows : s.Flows
  state : s.terminalError = false → s.Fates ∧ s.Ordered

theorem Kept.step {s : OutboundDeliveryPump φ} (h : Kept s) (input : OutboundInput φ)
    (hfits : ResyncFits size limits s input) : Kept (s.step size limits input) := by
  refine ⟨h.scheduled.step size limits h.flows.failed input, h.flows.step size limits h.scheduled input,
    fun hleft => ?_⟩
  have hok : s.terminalError = false := by
    by_contra herror
    rw [failed_step size limits (by simpa using herror) input] at hleft
    cases hleft
  obtain ⟨hfates, hordered⟩ := h.state hok
  have hstepped := step_stepped size limits h.scheduled hok input hleft
  exact ⟨hfates.stepped size limits h.scheduled hok hfits hstepped,
    hordered.stepped size limits h.scheduled hok hfits hstepped⟩

/-- Once everything that is queued is delivered, nothing waits any more. -/
theorem outbound_state_runs (inputs : List (OutboundInput φ))
    (hfits : Runs.Meets (step size limits) (ResyncFits size limits) created inputs) :
    let s := Runs.after (step size limits) created inputs
    s.terminalError = false →
      (∀ u ∈ s.updates, s.Settled u ∨ s.Waits u) ∧
      (∀ laneId, ((ofLane laneId s.completed).map PendingDelivery.number).Pairwise (· < ·)) ∧
      let t := Runs.after (step size limits) s (List.replicate s.queuedFrames .delivered)
      t.terminalError = false ∧ ∀ u ∈ s.updates, t.Settled u := by
  intro s hok
  have hstep : ∀ (s : OutboundDeliveryPump φ) (input : OutboundInput φ), Kept s →
      ResyncFits size limits s input → Kept (s.step size limits input) := fun s input hs hinput =>
    hs.step size limits input hinput
  have hkept : Kept s := Runs.invariant_of_meets hstep
    ⟨created_scheduled, created_flows, fun _ => ⟨created_fates, created_ordered⟩⟩ hfits
  obtain ⟨hfates, hordered⟩ := hkept.state hok
  refine ⟨hfates.fates, fun laneId => ?_, ?_⟩
  · have hsent := (List.sublist_append_left _ _).trans hordered.sent
    exact (hordered.handed laneId).sublist ((hsent.filter _).map _)
  intro t
  have hdeliveries : ∀ n, ∀ s : OutboundDeliveryPump φ,
      Runs.Meets (step size limits) (ResyncFits size limits) s (List.replicate n .delivered) := by
    intro n
    induction n with
    | zero => exact fun _ => trivial
    | succ n ih => exact fun s => ⟨trivial, ih _⟩
  have hlater : Kept t := Runs.invariant_of_meets hstep hkept (hdeliveries _ s)
  obtain ⟨hempty, hleft, hupdates⟩ := drained size limits s.queuedFrames hkept.scheduled hok le_rfl
  refine ⟨hleft, fun u hu => ?_⟩
  rcases (hlater.state hleft).1.fates u (hupdates ▸ hu) with hsettled | hwaits
  · exact hsettled
  · have hnone : ∀ pending, pending ∉ (t.stateLane u.laneId).queue := fun pending hp =>
      absurd hempty (queued_state hp).ne'
    rcases hwaits with ⟨pending, hp, _⟩ | ⟨_, _, _, pending, hp, _⟩
    · exact absurd hp (hnone pending)
    · exact absurd hp (hnone pending)

end Runs

section Congested
open OutboundDeliveryPump

def twoFrames : OutboundDeliveryLimits where
  maxQueuedBytes := 100
  maxQueuedFrames := 100
  maxTerminalQueuedBytes := 100
  maxTerminalQueuedFrames := 100
  maxTerminalUnconfirmedBytes := 100
  maxTerminalUnconfirmedAgeMs := 100
  maxStateQueuedBytes := 100
  maxStateQueuedFrames := 2

def oneByte (key : Char) : OutboundInput ℕ :=
  .sendState 1 ⟨[.ofNat 108], [.ofNat key.toNat], 1⟩

def burst : List (OutboundInput ℕ) :=
  [oneByte 'a', oneByte 'b', oneByte 'b', oneByte 'c', oneByte 'd', .delivered]

/-- The first update goes out, the second gives way, the others are given up for a notice. -/
theorem outbound_state_runs_burst :
    let s := Runs.after (step id twoFrames) created burst
    s.superseded = [(1, 2)] ∧ s.displaced.map Displaced.number = [2, 3, 5] ∧
      let t := Runs.after (step id twoFrames) s (List.replicate s.queuedFrames .delivered)
      t.terminalError = false ∧ ∀ u ∈ s.updates, t.Settled u :=
  ⟨by decide +kernel, by decide +kernel,
    (outbound_state_runs id twoFrames burst (by decide +kernel) (by decide +kernel)).2.2⟩

end Congested

end Terminay.Protocol
