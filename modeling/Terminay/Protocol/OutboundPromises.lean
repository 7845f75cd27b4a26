import Terminay.Protocol.OutboundTerminal

/-!
# Admissions and promises

A frame that leaves its queue settles its promise in the same step, so the numbers that
are settled and those that are queued make up the admissions. The byte counts follow the
queues in the same way, whichever of them a step changes.
-/

namespace Terminay.Protocol
open Script

def numbersOf {φ : Type} (queue : List (PendingDelivery φ)) : List ℕ :=
  queue.map PendingDelivery.number

namespace OutboundDeliveryPump
variable {φ : Type} {s t : OutboundDeliveryPump φ}

def stateQueued (s : OutboundDeliveryPump φ) : List (PendingDelivery φ) :=
  s.stateLanes.flatMap fun e => e.2.queue

def terminalQueued (s : OutboundDeliveryPump φ) : List (PendingDelivery φ) :=
  s.terminalLanes.flatMap fun e => e.2.queue

def allQueued (s : OutboundDeliveryPump φ) : List (PendingDelivery φ) :=
  s.controlQueue ++ s.stateQueued ++ s.terminalQueued

/-! ## What a call settles -/

section Settles
variable (size : φ → ℕ) (limits : OutboundDeliveryLimits)

def failSettles (s : OutboundDeliveryPump φ) : List ℕ :=
  if s.terminalError = true then [] else numbersOf s.allQueued

def sendSettles (s : OutboundDeliveryPump φ) (frame : φ) : List ℕ :=
  if s.terminalError = true then []
  else if limits.maxQueuedFrames ≤ s.controlQueue.length ∨
      limits.maxQueuedBytes < s.controlQueuedByteCount + size frame then s.failSettles
  else []

def admitStateSettles (s : OutboundDeliveryPump φ) (frame : φ) (a : StateDeliveryAdmission φ)
    (lane : StateLane φ) : List ℕ :=
  let replaced := lane.queue.find? (s.replaceable a.key)
  let less := s.numbered size a replaced
  let lane := s.superseding size lane a.key
  if limits.maxStateQueuedFrames ≤ lane.queue.length ∨
      limits.maxStateQueuedBytes < lane.queuedBytes + size frame ∨
      limits.maxStateQueuedBytes < less.stateQueuedByteCount + size frame then
    numbersOf (replaced.toList ++ droppable (s.retainedState a.laneId) lane.queue) ++ [s.admissions]
  else numbersOf replaced.toList

def sendStateSettles (s : OutboundDeliveryPump φ) (frame : φ) (a : StateDeliveryAdmission φ) :
    List ℕ :=
  if s.terminalError = true then []
  else if a.laneId = [] ∨ a.key = [] then []
  else if (s.stateLane a.laneId).resyncPending = true then [s.admissions]
  else s.admitStateSettles size limits frame a (s.stateLane a.laneId)

def congestTerminalSettles (s : OutboundDeliveryPump φ) (laneId : Str) (lane : TerminalLane φ)
    (nextPosition : ℕ) (createSkipFrame : ℕ → ℕ → φ) : List ℕ :=
  let retained := s.retainedTerminal laneId
  let dropped := droppable retained lane.queue
  let head := max lane.headPosition nextPosition
  let first := max lane.sentPosition
    ((retained.bind fun pending => pending.traffic.nextPosition).getD lane.sentPosition)
  let count : ℤ := s.terminalQueuedByteCount - totalBytes size dropped
  if limits.maxQueuedBytes < count + size (createSkipFrame first head) then
    numbersOf dropped ++
      numbersOf (s.allQueued.filter fun pending => pending.number ∉ numbersOf dropped)
  else numbersOf dropped

def admitTerminalSettles (s : OutboundDeliveryPump φ) (frame : φ) (laneId : Str)
    (lane : TerminalLane φ) (position nextPosition : ℕ) (createSkipFrame : ℕ → ℕ → φ)
    (now later : ℤ) : List ℕ :=
  if nextPosition ≤ lane.headPosition then []
  else if position ≠ lane.headPosition then
    s.congestTerminalSettles size limits laneId (lane.counted nextPosition) nextPosition
      createSkipFrame
  else if s.overLimit size limits lane frame nextPosition (lane.unconfirmedSince.getD now) later =
      true then
    s.congestTerminalSettles size limits laneId ((lane.counted nextPosition).advanced nextPosition now)
      nextPosition createSkipFrame
  else []

def sendTerminalSettles (s : OutboundDeliveryPump φ) (frame : φ) (a : TerminalDeliveryAdmission φ)
    (now later : ℤ) : List ℕ :=
  if s.terminalError = true then []
  else if a.laneId = [] then []
  else if maxSafeInteger < a.position.natAbs ∨ maxSafeInteger < a.nextPosition.natAbs ∨
      a.position < 0 ∨ a.nextPosition ≤ a.position then []
  else if (s.terminalLane a.laneId a.position.toNat).releasePending = true ∨
      (s.terminalLane a.laneId a.position.toNat).suppressed = true then []
  else
    s.admitTerminalSettles size limits frame a.laneId (s.terminalLane a.laneId a.position.toNat)
      a.position.toNat a.nextPosition.toNat a.createSkipFrame now later

def releaseSettles (s : OutboundDeliveryPump φ) (laneId : Str) : List ℕ :=
  match Entries.get s.terminalLanes laneId with
  | none => []
  | some lane => numbersOf (droppable (s.retainedTerminal laneId) lane.queue)

def deliveredSettles (s : OutboundDeliveryPump φ) : List ℕ := numbersOf s.activeDelivery.toList

def rejectedSettles (s : OutboundDeliveryPump φ) (isOpen : Bool) : List ℕ :=
  match s.activeDelivery with
  | none => []
  | some pending =>
    if isOpen = true ∧ pending.traffic = .control then [pending.number] else s.failSettles

/-- The frames whose promises an operation resolves or rejects, by number. A notice and a skip
have a number and callbacks that do nothing. -/
def settles (s : OutboundDeliveryPump φ) : OutboundInput φ → List ℕ
  | .send frame => s.sendSettles size limits frame
  | .sendState frame admission => s.sendStateSettles size limits frame admission
  | .sendTerminal frame admission now later =>
    s.sendTerminalSettles size limits frame admission now later
  | .acknowledgeTerminal _ _ _ => []
  | .releaseTerminal laneId => s.releaseSettles laneId
  | .delivered => s.deliveredSettles
  | .rejected isOpen => s.rejectedSettles isOpen
  | .close => s.failSettles

end Settles

/-! ## Queues as a whole -/

theorem eraseP_perm (q : PendingDelivery φ → Bool) (queue : List (PendingDelivery φ)) :
    ((queue.find? q).toList ++ queue.eraseP q).Perm queue := by
  induction queue with
  | nil => exact .nil
  | cons first rest ih =>
    cases hq : q first with
    | true =>
      rw [List.find?_cons_of_pos hq, List.eraseP_cons_of_pos hq]
      exact .refl _
    | false =>
      rw [List.find?_cons_of_neg (by simp [hq]), List.eraseP_cons_of_neg (by simp [hq])]
      exact List.perm_middle.trans (ih.cons first)

theorem queuedFrames_eq (s : OutboundDeliveryPump φ) : s.queuedFrames = s.allQueued.length := by
  have hlength : ∀ {κ α : Type} (f : α → List (PendingDelivery φ)) (lanes : List (κ × α)),
      Entries.total (fun lane => (f lane).length) lanes = (lanes.flatMap fun e => f e.2).length := by
    intro κ α f lanes
    rw [List.length_flatMap]
    rfl
  rw [queuedFrames, allQueued, List.length_append, List.length_append, hlength StateLane.queue,
    hlength TerminalLane.queue]
  rfl

theorem stateLane_queue (s : OutboundDeliveryPump φ) (laneId : Str) :
    (s.stateLane laneId).queue = (Entries.get s.stateLanes laneId).elim [] StateLane.queue := by
  rw [stateLane]
  cases Entries.get s.stateLanes laneId <;> rfl

theorem terminalLane_elim (s : OutboundDeliveryPump φ) (laneId : Str) (position : ℕ) :
    (s.terminalLane laneId position).queue =
      (Entries.get s.terminalLanes laneId).elim [] TerminalLane.queue := by
  rw [terminalLane]
  cases Entries.get s.terminalLanes laneId <;> rfl

theorem stateQueued_set (hlaid : s.Laid) {laneId : Str} {lane : StateLane φ}
    (hlanes : t.stateLanes = Entries.set s.stateLanes laneId lane) :
    ((s.stateLane laneId).queue ++ t.stateQueued).Perm (lane.queue ++ s.stateQueued) := by
  rw [stateLane_queue, stateQueued, hlanes]
  exact Entries.flatMap_set StateLane.queue hlaid.stateKeys laneId lane

theorem terminalQueued_set (hlaid : s.Laid) {laneId : Str} {lane : TerminalLane φ}
    (hlanes : t.terminalLanes = Entries.set s.terminalLanes laneId lane) :
    ((s.terminalLane laneId 0).queue ++ t.terminalQueued).Perm (lane.queue ++ s.terminalQueued) := by
  rw [terminalLane_elim, terminalQueued, hlanes]
  exact Entries.flatMap_set TerminalLane.queue hlaid.terminalKeys laneId lane

theorem terminalQueued_delete (hlaid : s.Laid) {laneId : Str}
    (hlanes : t.terminalLanes = Entries.delete s.terminalLanes laneId) :
    ((s.terminalLane laneId 0).queue ++ t.terminalQueued).Perm s.terminalQueued := by
  rw [terminalLane_elim, terminalQueued, hlanes]
  exact (Entries.flatMap_delete TerminalLane.queue hlaid.terminalKeys laneId).symm

/-! ## A lane gives up its first frame -/

/-- The lane is gone if that was its last. -/
def Popped {α : Type} (queueOf : α → List (PendingDelivery φ)) (lanes left : List (Str × α))
    (laneId : Str) (pending : PendingDelivery φ) : Prop :=
  ∃ lane rest, Entries.get lanes laneId = some lane ∧ queueOf lane = pending :: rest ∧
    (rest = [] ∧ left = Entries.delete lanes laneId ∨
      ∃ shorter, queueOf shorter = rest ∧ left = Entries.set lanes laneId shorter)

section Popped
variable {α : Type} {queueOf : α → List (PendingDelivery φ)} {lanes left : List (Str × α)}
  {laneId : Str} {pending : PendingDelivery φ}

theorem Popped.perm (h : Popped queueOf lanes left laneId pending)
    (hkeys : (Entries.keys lanes).Nodup) :
    (pending :: left.flatMap fun e => queueOf e.2).Perm (lanes.flatMap fun e => queueOf e.2) := by
  obtain ⟨lane, rest, hget, hqueue, ⟨rfl, rfl⟩ | ⟨shorter, rfl, rfl⟩⟩ := h
  · have hold := Entries.flatMap_delete queueOf hkeys laneId
    rw [hget, Option.elim_some, hqueue] at hold
    exact hold.symm
  · have hset := Entries.flatMap_set queueOf hkeys laneId shorter
    rw [hget, Option.elim_some, hqueue] at hset
    exact (List.perm_append_left_iff (queueOf shorter)).mp (List.perm_middle.trans hset)

/-- With the frame in flight, the same frames wait before and after. -/
theorem Popped.waiting (h : Popped queueOf lanes left laneId pending)
    (hkeys : (Entries.keys lanes).Nodup) (other : Str) :
    (Entries.get left other).elim [] queueOf =
      waiting (if laneId = other then some pending else none)
        ((Entries.get lanes other).elim [] queueOf) := by
  obtain ⟨lane, rest, hget, hqueue, hleft⟩ := h
  by_cases hcase : laneId = other
  · rw [if_pos hcase, ← hcase, hget, Option.elim_some, hqueue]
    rcases hleft with ⟨rfl, rfl⟩ | ⟨shorter, rfl, rfl⟩
    · rw [Entries.get_delete_self]
      rfl
    · rw [Entries.get_set_self hkeys]
      rfl
  · rw [if_neg hcase]
    rcases hleft with ⟨_, rfl⟩ | ⟨shorter, _, rfl⟩
    · rw [Entries.get_delete_other hkeys (Ne.symm hcase)]
      rfl
    · rw [Entries.get_set_other hkeys (Ne.symm hcase)]
      rfl

end Popped

theorem completeState_popped (size : φ → ℕ) {laneId : Str} {lane : StateLane φ}
    {pending : PendingDelivery φ} (hget : Entries.get s.stateLanes laneId = some lane)
    (hhead : lane.queue.head? = some pending) :
    Popped StateLane.queue s.stateLanes (s.completeState size laneId pending).stateLanes laneId
      pending := by
  obtain ⟨rest, hqueue⟩ := List.head?_eq_some_iff.mp hhead
  refine ⟨lane, rest, hget, hqueue, ?_⟩
  rw [completeState, hget]
  dsimp only
  rw [if_pos (isFirst_head hhead), hqueue, List.tail_cons]
  dsimp only
  split_ifs with hlast
  · exact .inl ⟨hlast, rfl⟩
  · exact .inr ⟨_, by rw [StateLane.sent, hqueue]; rfl, rfl⟩

theorem completeTerminal_popped (size : φ → ℕ) {laneId : Str} {lane : TerminalLane φ}
    {pending : PendingDelivery φ} (hget : Entries.get s.terminalLanes laneId = some lane)
    (hhead : lane.queue.head? = some pending) :
    Popped TerminalLane.queue s.terminalLanes (s.completeTerminal size laneId pending).terminalLanes
      laneId pending := by
  obtain ⟨rest, hqueue⟩ := List.head?_eq_some_iff.mp hhead
  refine ⟨lane, rest, hget, hqueue, ?_⟩
  rw [completeTerminal, hget]
  dsimp only
  rw [if_pos (isFirst_head hhead), hqueue, List.tail_cons]
  split_ifs with hlast
  · exact .inl ⟨hlast.1, rfl⟩
  · exact .inr ⟨_, by rw [TerminalLane.sent, hqueue]; rfl, rfl⟩

/-- The frame in flight leaves its queue, and nothing else does. -/
theorem completeDelivery_perm (size : φ → ℕ) (h : s.Laid) {pending : PendingDelivery φ}
    (hheads : s.Heads pending) :
    (pending :: (s.completeDelivery size pending).allQueued).Perm s.allQueued := by
  rw [Heads] at hheads
  rw [completeDelivery]
  cases htraffic : pending.traffic with
  | control =>
    rw [htraffic] at hheads
    obtain ⟨rest, hqueue⟩ := List.head?_eq_some_iff.mp hheads
    dsimp only
    rw [completeControl, if_pos (isFirst_head hheads), allQueued, allQueued, hqueue]
    exact .refl _
  | state laneId key | stateResync laneId =>
    rw [htraffic] at hheads
    obtain ⟨lane, hget, hhead⟩ := hheads
    have hpopped := (completeState_popped size hget hhead).perm h.stateKeys
    obtain ⟨_, _, hframe⟩ := completeState_frame size (s := s) laneId pending
    rw [hframe] at hpopped
    dsimp only
    rw [hframe]
    exact (List.perm_middle.symm.append_right _).trans ((hpopped.append_left _).append_right _)
  | terminal laneId position nextPosition | terminalSkip laneId fromPosition toPosition =>
    rw [htraffic] at hheads
    obtain ⟨lane, hget, hhead⟩ := hheads
    have hpopped := (completeTerminal_popped size hget hhead).perm h.terminalKeys
    obtain ⟨_, _, _, hframe⟩ := completeTerminal_frame size (s := s) laneId pending
    rw [hframe] at hpopped
    dsimp only
    rw [hframe]
    exact List.perm_middle.symm.trans (hpopped.append_left _)

theorem Queued.split {laneOf : Traffic → Option Str} {laneId : Str} {admissions : ℕ}
    {queue : List (PendingDelivery φ)} (h : Queued laneOf laneId admissions queue)
    {retained : Option (PendingDelivery φ)}
    (hhead : ∀ pending, retained = some pending → queue.head? = some pending) :
    retained.toList ++ droppable retained queue = queue := by
  rw [h.droppable_eq hhead]
  exact retained_append hhead

/-! ## Bytes -/

section Bytes
variable (size : φ → ℕ) (limits : OutboundDeliveryLimits)

theorem totalBytes_append (queue rest : List (PendingDelivery φ)) :
    totalBytes size (queue ++ rest) = totalBytes size queue + totalBytes size rest := by
  simp [totalBytes]

theorem totalBytes_perm {queue other : List (PendingDelivery φ)} (h : queue.Perm other) :
    totalBytes size queue = totalBytes size other :=
  (h.map _).sum_eq

structure Counted (s : OutboundDeliveryPump φ) : Prop where
  control : s.controlQueuedByteCount = totalBytes size s.controlQueue
  state : s.stateQueuedByteCount = totalBytes size s.stateQueued
  terminal : s.terminalQueuedByteCount = totalBytes size s.terminalQueued
  stateLanes : ∀ e ∈ s.stateLanes, e.2.queuedBytes = totalBytes size e.2.queue
  terminalLanes : ∀ e ∈ s.terminalLanes, e.2.queuedBytes = totalBytes size e.2.queue
  frames : s.controlQueue.length ≤ limits.maxQueuedFrames
  bytes : s.controlQueuedByteCount ≤ limits.maxQueuedBytes

variable {size limits}

theorem Counted.congr (h : s.Counted size limits) (hcontrol : t.controlQueue = s.controlQueue)
    (hstate : t.stateLanes = s.stateLanes) (hterminal : t.terminalLanes = s.terminalLanes)
    (hcontrolCount : t.controlQueuedByteCount = s.controlQueuedByteCount)
    (hstateCount : t.stateQueuedByteCount = s.stateQueuedByteCount)
    (hterminalCount : t.terminalQueuedByteCount = s.terminalQueuedByteCount) :
    t.Counted size limits where
  control := by rw [hcontrolCount, hcontrol, h.control]
  state := by rw [hstateCount, stateQueued, hstate, h.state, stateQueued]
  terminal := by rw [hterminalCount, terminalQueued, hterminal, h.terminal, terminalQueued]
  stateLanes := hstate ▸ h.stateLanes
  terminalLanes := hterminal ▸ h.terminalLanes
  frames := hcontrol ▸ h.frames
  bytes := hcontrolCount ▸ h.bytes

theorem Counted.stateLane (h : s.Counted size limits) (laneId : Str) :
    (s.stateLane laneId).queuedBytes = totalBytes size (s.stateLane laneId).queue := by
  rw [OutboundDeliveryPump.stateLane]
  cases hget : Entries.get s.stateLanes laneId with
  | none => rfl
  | some lane => exact h.stateLanes _ (Entries.mem_of_get hget)

theorem Counted.terminalLane (h : s.Counted size limits) (laneId : Str) (position : ℕ) :
    (s.terminalLane laneId position).queuedBytes =
      totalBytes size (s.terminalLane laneId position).queue := by
  rw [OutboundDeliveryPump.terminalLane]
  cases hget : Entries.get s.terminalLanes laneId with
  | none => rfl
  | some lane => exact h.terminalLanes _ (Entries.mem_of_get hget)

theorem Counted.stateChange (h : s.Counted size limits) {left entered : List (PendingDelivery φ)}
    (hqueued : (left ++ t.stateQueued).Perm (entered ++ s.stateQueued))
    (hlanes : ∀ e ∈ t.stateLanes, e.2.queuedBytes = totalBytes size e.2.queue)
    (hcontrol : t.controlQueue = s.controlQueue) (hterminal : t.terminalLanes = s.terminalLanes)
    (hcontrolCount : t.controlQueuedByteCount = s.controlQueuedByteCount)
    (hterminalCount : t.terminalQueuedByteCount = s.terminalQueuedByteCount)
    (hcount : t.stateQueuedByteCount + totalBytes size left =
      s.stateQueuedByteCount + totalBytes size entered) : t.Counted size limits where
  control := by rw [hcontrolCount, hcontrol, h.control]
  state := by
    have hbytes := totalBytes_perm size hqueued
    rw [totalBytes_append, totalBytes_append] at hbytes
    have hold := h.state
    omega
  terminal := by rw [hterminalCount, terminalQueued, hterminal, h.terminal, terminalQueued]
  stateLanes := hlanes
  terminalLanes := hterminal ▸ h.terminalLanes
  frames := hcontrol ▸ h.frames
  bytes := hcontrolCount ▸ h.bytes

theorem Counted.terminalChange (h : s.Counted size limits) {left entered : List (PendingDelivery φ)}
    (hqueued : (left ++ t.terminalQueued).Perm (entered ++ s.terminalQueued))
    (hlanes : ∀ e ∈ t.terminalLanes, e.2.queuedBytes = totalBytes size e.2.queue)
    (hcontrol : t.controlQueue = s.controlQueue) (hstate : t.stateLanes = s.stateLanes)
    (hcontrolCount : t.controlQueuedByteCount = s.controlQueuedByteCount)
    (hstateCount : t.stateQueuedByteCount = s.stateQueuedByteCount)
    (hcount : t.terminalQueuedByteCount + totalBytes size left =
      s.terminalQueuedByteCount + totalBytes size entered) : t.Counted size limits where
  control := by rw [hcontrolCount, hcontrol, h.control]
  state := by rw [hstateCount, stateQueued, hstate, h.state, stateQueued]
  terminal := by
    have hbytes := totalBytes_perm size hqueued
    rw [totalBytes_append, totalBytes_append] at hbytes
    have hold := h.terminal
    omega
  stateLanes := hstate ▸ h.stateLanes
  terminalLanes := hlanes
  frames := hcontrol ▸ h.frames
  bytes := hcontrolCount ▸ h.bytes

end Bytes

/-! ## Numbers -/

def Conserved (s t : OutboundDeliveryPump φ) (out : List ℕ) : Prop :=
  ∃ k, t.admissions = s.admissions + k ∧
    (numbersOf t.allQueued ++ out).Perm (numbersOf s.allQueued ++ List.range' s.admissions k)

theorem Conserved.promises {settled out : List ℕ} (h : Conserved s t out)
    (hpromises : (settled ++ numbersOf s.allQueued).Perm (List.range s.admissions)) :
    ((settled ++ out) ++ numbersOf t.allQueued).Perm (List.range t.admissions) := by
  obtain ⟨k, hadmissions, hperm⟩ := h
  rw [hadmissions, List.range_eq_range', ← List.range'_append_1, ← List.range_eq_range', Nat.zero_add]
  refine List.perm_iff_count.mpr fun n => ?_
  have hcount := hperm.count_eq n
  have hold := hpromises.count_eq n
  simp only [List.count_append] at hcount hold ⊢
  omega

theorem Conserved.stateChange {left entered : List (PendingDelivery φ)} {out : List ℕ} {k : ℕ}
    (hqueued : (left ++ t.stateQueued).Perm (entered ++ s.stateQueued))
    (hcontrol : t.controlQueue = s.controlQueue) (hterminal : t.terminalLanes = s.terminalLanes)
    (hadmissions : t.admissions = s.admissions + k)
    (hout : (numbersOf entered ++ out).Perm (numbersOf left ++ List.range' s.admissions k)) :
    Conserved s t out := by
  refine ⟨k, hadmissions, List.perm_iff_count.mpr fun n => ?_⟩
  have hmoved := (hqueued.map PendingDelivery.number).count_eq n
  have hcount := hout.count_eq n
  simp only [numbersOf, allQueued, terminalQueued, hcontrol, hterminal, List.map_append,
    List.count_append] at hmoved hcount ⊢
  omega

theorem Conserved.terminalChange {left entered : List (PendingDelivery φ)} {out : List ℕ} {k : ℕ}
    (hqueued : (left ++ t.terminalQueued).Perm (entered ++ s.terminalQueued))
    (hcontrol : t.controlQueue = s.controlQueue) (hstate : t.stateLanes = s.stateLanes)
    (hadmissions : t.admissions = s.admissions + k)
    (hout : (numbersOf entered ++ out).Perm (numbersOf left ++ List.range' s.admissions k)) :
    Conserved s t out := by
  refine ⟨k, hadmissions, List.perm_iff_count.mpr fun n => ?_⟩
  have hmoved := (hqueued.map PendingDelivery.number).count_eq n
  have hcount := hout.count_eq n
  simp only [numbersOf, allQueued, stateQueued, hcontrol, hstate, List.map_append,
    List.count_append] at hmoved hcount ⊢
  omega

end OutboundDeliveryPump

end Terminay.Protocol
