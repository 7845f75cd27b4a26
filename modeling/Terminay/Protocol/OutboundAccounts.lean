import Terminay.Protocol.OutboundState

/-!
# The accounts of a pump

Over a whole run the byte counts are the sizes of what is queued, no frame is handed over twice
and every promise settles once.
-/

namespace Terminay.Protocol
open Script

def controlRun {φ : Type} (handed : List (PendingDelivery φ)) : ℕ :=
  (handed.reverse.takeWhile fun pending => pending.traffic = .control).length

namespace OutboundDeliveryPump
variable {φ : Type} {s t : OutboundDeliveryPump φ}

theorem controlRun_concat (handed : List (PendingDelivery φ)) (pending : PendingDelivery φ) :
    controlRun (handed ++ [pending]) =
      if pending.traffic = .control then controlRun handed + 1 else 0 := by
  rw [controlRun, List.reverse_append, List.reverse_singleton, List.singleton_append,
    List.takeWhile_cons]
  by_cases hcontrol : pending.traffic = .control <;> simp [hcontrol, controlRun]

def LanesWait (s : OutboundDeliveryPump φ) : Prop := s.stateQueued ++ s.terminalQueued ≠ []

/-- A step hands a control frame past a waiting lane only while the run is short. -/
def Fair (s t : OutboundDeliveryPump φ) : Prop :=
  ∀ pending, t.handed = s.handed ++ [pending] → pending.traffic = .control → t.LanesWait →
    controlRun t.handed ≤ maxConsecutiveControlDeliveries

theorem Fair.idle (hhanded : t.handed = s.handed) : Fair s t := by
  intro pending hnext
  rw [hhanded] at hnext
  have hlength := congrArg List.length hnext
  rw [List.length_append, List.length_singleton] at hlength
  omega

theorem Fair.after {m : OutboundDeliveryPump φ} (h : Fair m t) (hhanded : m.handed = s.handed) :
    Fair s t := by
  intro pending hnext
  rw [← hhanded] at hnext
  exact h pending hnext

/-! ## Turns -/

theorem lanes_idle (hstate : s.busyStateLanes = []) (hterminal : s.busyTerminalLanes = []) :
    ¬s.LanesWait := by
  refine fun hwait => hwait (List.eq_nil_iff_forall_not_mem.mpr fun pending hp => ?_)
  rcases List.mem_append.mp hp with hp | hp
  · obtain ⟨e, he, hqueue⟩ := List.mem_flatMap.mp hp
    have hmem := busyState_mem.mpr ⟨List.ne_nil_of_mem hqueue, e, he, rfl⟩
    rw [hstate] at hmem
    cases hmem
  · obtain ⟨e, he, hqueue⟩ := List.mem_flatMap.mp hp
    have hmem := busyTerminal_mem.mpr ⟨List.ne_nil_of_mem hqueue, e, he, rfl⟩
    rw [hterminal] at hmem
    cases hmem

structure Turn (s : OutboundDeliveryPump φ) (pending : PendingDelivery φ) : Prop where
  heads : s.Heads pending
  handed : s.drain.handed = s.handed ++ [pending]
  active : s.drain.activeDelivery = some pending
  counter : s.drain.consecutiveControlDeliveries =
    if pending.traffic = .control then s.consecutiveControlDeliveries + 1 else 0
  short : pending.traffic = .control → s.LanesWait →
    s.consecutiveControlDeliveries < maxConsecutiveControlDeliveries

theorem drain_turn (h : s.Laid) : (∃ pending, s.Turn pending) ∨
    s.drain = { s with activeDelivery := none, running := false } := by
  rcases drain_picks h with ⟨pending, a, b, c, hpicked, hdrain⟩ | ⟨_, hdrain⟩
  · refine .inl ⟨pending, hpicked.heads, by rw [hdrain]; rfl, by rw [hdrain]; rfl, ?_, ?_⟩
    · rw [hdrain]
      exact hpicked.counter
    · intro hcontrol hwait
      rcases hpicked.short hcontrol with hnone | hshort
      · exact absurd hwait (lanes_idle hnone.2 hnone.1)
      · exact hshort
  · exact .inr hdrain

/-! ## Accounts -/

section Accounts
variable (size : φ → ℕ) (limits : OutboundDeliveryLimits)

/-- The numbers in `settled` and those that are queued are the admissions. A frame is handed over
once, and what was handed over is settled or in flight. -/
structure Account (s : OutboundDeliveryPump φ) (settled : List ℕ) : Prop
    extends Counted size limits s where
  promises : (settled ++ numbersOf s.allQueued).Perm (List.range s.admissions)
  once : (numbersOf s.handed).Nodup
  taken : ∀ pending ∈ s.handed, pending.number ∈ settled ∨ s.activeDelivery = some pending
  turns : s.consecutiveControlDeliveries = controlRun s.handed

variable {size limits} {settled out : List ℕ}

theorem Account.move (h : s.Account size limits settled) (hcounted : t.Counted size limits)
    (hconserved : Conserved s t out) (hhanded : t.handed = s.handed)
    (hturns : t.consecutiveControlDeliveries = s.consecutiveControlDeliveries)
    (hactive : ∀ pending, s.activeDelivery = some pending →
      t.activeDelivery = some pending ∨ pending.number ∈ out) :
    t.Account size limits (settled ++ out) where
  toCounted := hcounted
  promises := hconserved.promises h.promises
  once := hhanded ▸ h.once
  taken pending hp := by
    rw [hhanded] at hp
    rcases h.taken pending hp with hsettled | hflight
    · exact .inl (List.mem_append_left _ hsettled)
    · rcases hactive pending hflight with hsame | hout
      · exact .inr hsame
      · exact .inl (List.mem_append_right _ hout)
  turns := by rw [hturns, hhanded, h.turns]

theorem heads_queued {pending : PendingDelivery φ} (h : s.Heads pending) : pending ∈ s.allQueued := by
  rw [Heads] at h
  rw [allQueued, List.append_assoc, List.mem_append, List.mem_append]
  cases htraffic : pending.traffic with
  | control =>
    rw [htraffic] at h
    exact .inl (List.mem_of_head? h)
  | state laneId key | stateResync laneId =>
    rw [htraffic] at h
    obtain ⟨lane, hget, hhead⟩ := h
    exact .inr (.inl (List.mem_flatMap.mpr ⟨_, Entries.mem_of_get hget, List.mem_of_head? hhead⟩))
  | terminal laneId position nextPosition | terminalSkip laneId fromPosition toPosition =>
    rw [htraffic] at h
    obtain ⟨lane, hget, hhead⟩ := h
    exact .inr (.inr (List.mem_flatMap.mpr ⟨_, Entries.mem_of_get hget, List.mem_of_head? hhead⟩))

theorem Account.drain (h : s.Account size limits settled) (hlaid : s.Laid)
    (hnone : s.activeDelivery = none) : s.drain.Account size limits settled ∧ Fair s s.drain := by
  obtain ⟨a, b, c, hframe⟩ := nextDelivery_frame s
  have hqueues : s.drain.controlQueue = s.controlQueue ∧ s.drain.stateLanes = s.stateLanes ∧
      s.drain.terminalLanes = s.terminalLanes ∧
      s.drain.controlQueuedByteCount = s.controlQueuedByteCount ∧
      s.drain.stateQueuedByteCount = s.stateQueuedByteCount ∧
      s.drain.terminalQueuedByteCount = s.terminalQueuedByteCount ∧
      s.drain.admissions = s.admissions := by
    rw [OutboundDeliveryPump.drain]
    split <;> rename_i hnext <;> rw [hnext] at hframe <;> dsimp only at hframe <;> rw [hframe] <;>
      exact ⟨rfl, rfl, rfl, rfl, rfl, rfl, rfl⟩
  obtain ⟨hcontrol, hstate, hterminal, hcontrolCount, hstateCount, hterminalCount, hadmissions⟩ :=
    hqueues
  have hcounted : s.drain.Counted size limits :=
    h.toCounted.congr hcontrol hstate hterminal hcontrolCount hstateCount hterminalCount
  have hqueued : s.drain.allQueued = s.allQueued := by
    rw [allQueued, allQueued, stateQueued, stateQueued, terminalQueued, terminalQueued, hcontrol,
      hstate, hterminal]
  have hpromises : (settled ++ numbersOf s.drain.allQueued).Perm (List.range s.drain.admissions) := by
    rw [hqueued, hadmissions]
    exact h.promises
  rcases drain_turn hlaid with ⟨pending, hturn⟩ | hidle
  · have hfresh : pending.number ∉ numbersOf s.handed := by
      intro hmem
      obtain ⟨p, hp, heq⟩ := List.mem_map.mp hmem
      rcases h.taken p hp with hsettled | hflight
      · have hnodup := h.promises.nodup_iff.mpr List.nodup_range
        have hqueue := List.mem_map_of_mem (f := PendingDelivery.number) (heads_queued hturn.heads)
        exact (List.nodup_append.mp hnodup).2.2 _ hsettled _ hqueue heq
      · rw [hnone] at hflight
        cases hflight
    refine ⟨⟨hcounted, hpromises, ?_, fun p hp => ?_, ?_⟩, fun p hnext hc hwait => ?_⟩
    · rw [hturn.handed, numbersOf, List.map_append, List.map_singleton]
      exact List.nodup_append.mpr ⟨h.once, List.nodup_singleton _, fun n hn m hm heq =>
        hfresh (by rw [List.mem_singleton.mp hm] at heq; exact heq ▸ hn)⟩
    · rw [hturn.handed] at hp
      rcases List.mem_append.mp hp with hold | hnew
      · rcases h.taken p hold with hsettled | hflight
        · exact .inl hsettled
        · rw [hnone] at hflight
          cases hflight
      · rw [List.mem_singleton.mp hnew]
        exact .inr hturn.active
    · rw [hturn.counter, hturn.handed, controlRun_concat, h.turns]
    · rw [hturn.handed] at hnext ⊢
      obtain rfl := List.singleton_injective (List.append_cancel_left hnext)
      have hwait' : s.LanesWait := by
        rw [LanesWait, stateQueued, terminalQueued, hstate, hterminal] at hwait
        exact hwait
      have hshort := hturn.short hc hwait'
      rw [h.turns] at hshort
      rw [controlRun_concat, if_pos hc]
      omega
  · rw [hidle] at hcounted hpromises ⊢
    refine ⟨⟨hcounted, hpromises, h.once, fun p hp => ?_, h.turns⟩, .idle rfl⟩
    rcases h.taken p hp with hsettled | hflight
    · exact .inl hsettled
    · rw [hnone] at hflight
      cases hflight

theorem Account.start (h : s.Account size limits settled) (hready : s.Ready) :
    s.start.Account size limits settled ∧ Fair s s.start := by
  rw [OutboundDeliveryPump.start]
  split_ifs with hbusy
  · exact ⟨h, .idle rfl⟩
  · obtain ⟨hnone, hlaid⟩ := hready.unstarted fun hrunning => hbusy (.inl hrunning)
    have hrunning : Account size limits { s with running := true } settled :=
      ⟨h.toCounted.congr rfl rfl rfl rfl rfl rfl, h.promises, h.once, h.taken, h.turns⟩
    obtain ⟨haccount, hfair⟩ := hrunning.drain hlaid hnone
    exact ⟨haccount, hfair.after rfl⟩

theorem Account.moveStart {m : OutboundDeliveryPump φ} (h : m.Account size limits settled)
    (hready : m.Ready) (hhanded : m.handed = s.handed) :
    m.start.Account size limits settled ∧ Fair s m.start := by
  obtain ⟨haccount, hfair⟩ := h.start hready
  exact ⟨haccount, hfair.after hhanded⟩

theorem Account.stay (h : s.Account size limits settled) :
    s.Account size limits (settled ++ []) ∧ Fair s s := by
  rw [List.append_nil]
  exact ⟨h, .idle rfl⟩

theorem failed_left (hleft : s.fail.terminalError = false) : False := by
  rw [fail_error] at hleft
  cases hleft

/-! ## Control frames -/

theorem Account.send (h : s.Account size limits settled) (hs : s.Scheduled) (frame : φ)
    (hleft : (s.send size limits frame).terminalError = false) :
    (s.send size limits frame).Account size limits (settled ++ s.sendSettles size limits frame) ∧
      Fair s (s.send size limits frame) := by
  rw [OutboundDeliveryPump.send] at hleft ⊢
  rw [sendSettles]
  split_ifs at hleft ⊢ with herror hfull
  · exact h.stay
  · exact (failed_left hleft).elim
  · rw [not_or, not_le, not_lt] at hfull
    have hcounted : (s.queueControl size frame).Counted size limits := by
      refine ⟨?_, h.state, h.terminal, h.stateLanes, h.terminalLanes, ?_, hfull.2⟩
      · have hold := h.control
        simp only [queueControl, totalBytes_append]
        simp only [totalBytes, List.map_singleton, List.sum_singleton] at hold ⊢
        omega
      · simp only [queueControl, List.length_append, List.length_singleton]
        omega
    have hconserved : Conserved s (s.queueControl size frame) [] := by
      refine ⟨1, rfl, List.perm_iff_count.mpr fun n => ?_⟩
      simp only [allQueued, stateQueued, terminalQueued, queueControl, numbersOf, List.map_append,
        List.count_append, List.map_singleton, List.range'_one, List.count_nil]
      omega
    have hmoved := h.move hcounted hconserved rfl rfl fun _ => .inl
    exact hmoved.moveStart (hs.toReady.queueControl size frame) rfl

/-! ## State frames -/

theorem superseding_bytes (lane : StateLane φ) (key : Str) :
    (s.superseding size lane key).queuedBytes =
      lane.queuedBytes - totalBytes size (lane.queue.find? (s.replaceable key)).toList := by
  rw [superseding]
  cases lane.queue.find? (s.replaceable key) with
  | none => simp [totalBytes]
  | some replaced => simp [totalBytes]

theorem Account.setState (h : s.Account size limits settled) (hlaid : s.Laid) {laneId : Str}
    {lane : StateLane φ} {k : ℕ} (hlanes : t.stateLanes = Entries.set s.stateLanes laneId lane)
    (hcontrol : t.controlQueue = s.controlQueue) (hterminal : t.terminalLanes = s.terminalLanes)
    (hcontrolCount : t.controlQueuedByteCount = s.controlQueuedByteCount)
    (hterminalCount : t.terminalQueuedByteCount = s.terminalQueuedByteCount)
    (hhanded : t.handed = s.handed) (hactive : t.activeDelivery = s.activeDelivery)
    (hturns : t.consecutiveControlDeliveries = s.consecutiveControlDeliveries)
    (hadmissions : t.admissions = s.admissions + k)
    (hbytes : lane.queuedBytes = totalBytes size lane.queue)
    (hcount : t.stateQueuedByteCount + totalBytes size (s.stateLane laneId).queue =
      s.stateQueuedByteCount + totalBytes size lane.queue)
    (hout : (numbersOf lane.queue ++ out).Perm
      (numbersOf (s.stateLane laneId).queue ++ List.range' s.admissions k)) :
    t.Account size limits (settled ++ out) := by
  have hqueued := stateQueued_set hlaid hlanes
  have hlaneBytes : ∀ e ∈ t.stateLanes, e.2.queuedBytes = totalBytes size e.2.queue := by
    rw [hlanes]
    intro e he
    rcases Entries.mem_set.mp he with rfl | ⟨he, _⟩
    · exact hbytes
    · exact h.stateLanes e he
  exact h.move
    (h.toCounted.stateChange hqueued hlaneBytes hcontrol hterminal hcontrolCount hterminalCount hcount)
    (.stateChange hqueued hcontrol hterminal hadmissions hout) hhanded hturns
    fun pending hp => .inl (hactive ▸ hp)

theorem totalBytes_singleton (pending : PendingDelivery φ) :
    totalBytes size [pending] = size pending.frame := by simp [totalBytes]

theorem Account.queueState (h : s.Account size limits settled) (hs : s.Scheduled) (frame : φ)
    (a : StateDeliveryAdmission φ) {replaced : Option (PendingDelivery φ)} {lane : StateLane φ}
    (hperm : (replaced.toList ++ lane.queue).Perm (s.stateLane a.laneId).queue)
    (hbytes : lane.queuedBytes = totalBytes size lane.queue) :
    ((s.numbered size a replaced).queueState size a.laneId a.key lane s.admissions frame).Account
      size limits (settled ++ numbersOf replaced.toList) := by
  have htotal := totalBytes_perm size hperm
  rw [totalBytes_append] at htotal
  refine h.setState hs.toLaid (k := 1) rfl rfl rfl rfl rfl rfl rfl rfl rfl ?_ ?_ ?_
  · rw [totalBytes_append, totalBytes_singleton]
    exact congrArg (· + (size frame : ℤ)) hbytes
  · rw [totalBytes_append, totalBytes_singleton]
    simp only [OutboundDeliveryPump.queueState, numbered]
    omega
  · refine List.perm_iff_count.mpr fun n => ?_
    have hcount := (hperm.map PendingDelivery.number).count_eq n
    simp only [numbersOf, List.map_append, List.count_append, List.map_singleton,
      List.range'_one] at hcount ⊢
    omega

theorem Account.congestState (h : s.Account size limits settled) (hs : s.Scheduled)
    (a : StateDeliveryAdmission φ) {replaced : Option (PendingDelivery φ)} {lane : StateLane φ}
    (hperm : (replaced.toList ++ lane.queue).Perm (s.stateLane a.laneId).queue)
    (hbytes : lane.queuedBytes = totalBytes size lane.queue)
    (hsplit : (s.retainedState a.laneId).toList ++ droppable (s.retainedState a.laneId) lane.queue =
      lane.queue) :
    ((s.numbered size a replaced).congestState size limits a.laneId lane s.admissions
      a.resyncFrame).Account size limits (settled ++ (numbersOf (replaced.toList ++
        droppable (s.retainedState a.laneId) lane.queue) ++ [s.admissions])) := by
  have htotal := totalBytes_perm size hperm
  rw [totalBytes_append] at htotal
  have hlane := congrArg (totalBytes size) hsplit
  rw [totalBytes_append] at hlane
  have hnumbers : ∀ n, (numbersOf (s.stateLane a.laneId).queue).count n =
      (numbersOf (s.retainedState a.laneId).toList).count n + (numbersOf (replaced.toList ++
        droppable (s.retainedState a.laneId) lane.queue)).count n := by
    intro n
    have hcount := (hperm.map PendingDelivery.number).count_eq n
    rw [← hsplit] at hcount
    simp only [numbersOf, List.map_append, List.count_append] at hcount ⊢
    omega
  have hretained : (s.numbered size a replaced).retainedState a.laneId = s.retainedState a.laneId := rfl
  rw [OutboundDeliveryPump.congestState, congestStateLane, hretained]
  split_ifs
  · refine h.setState hs.toLaid (k := 1) rfl rfl rfl rfl rfl rfl rfl rfl rfl ?_ ?_ ?_
    · dsimp only
      omega
    · simp only [numbered]
      omega
    · refine List.perm_iff_count.mpr fun n => ?_
      have hcount := hnumbers n
      simp only [List.count_append, List.range'_one] at hcount ⊢
      omega
  · refine h.setState hs.toLaid (k := 2) rfl rfl rfl rfl rfl rfl rfl rfl rfl ?_ ?_ ?_
    · rw [totalBytes_append, totalBytes_singleton]
      dsimp only
      omega
    · rw [totalBytes_append, totalBytes_singleton]
      simp only [numbered]
      omega
    · refine List.perm_iff_count.mpr fun n => ?_
      have hcount := hnumbers n
      have hrange : List.range' s.admissions 2 = [s.admissions] ++ [s.admissions + 1] := rfl
      rw [hrange]
      simp only [numbersOf, List.map_append, List.count_append, List.map_singleton,
        numbered] at hcount ⊢
      omega

theorem Account.discardState (h : s.Account size limits settled) (a : StateDeliveryAdmission φ)
    (lane : StateLane φ) :
    (s.discardState size a lane).Account size limits (settled ++ [s.admissions]) := by
  have hzero : s.stateQueuedByteCount - totalBytes size (none : Option (PendingDelivery φ)).toList =
      s.stateQueuedByteCount := by simp [totalBytes]
  refine h.move (h.toCounted.congr rfl rfl rfl rfl hzero rfl) ⟨1, rfl, .refl _⟩ rfl rfl fun _ => .inl

theorem Account.sendState (h : s.Account size limits settled) (hs : s.Scheduled) (frame : φ)
    (a : StateDeliveryAdmission φ) : (s.sendState size limits frame a).Account size limits
        (settled ++ s.sendStateSettles size limits frame a) ∧
      Fair s (s.sendState size limits frame a) := by
  rw [OutboundDeliveryPump.sendState, sendStateSettles]
  split_ifs with herror hinvalid hpending
  · exact h.stay
  · exact h.stay
  · exact ⟨h.discardState a _, .idle rfl⟩
  · have hok : s.terminalError = false := by simpa using herror
    have hperm := eraseP_perm (s.replaceable a.key) (s.stateLane a.laneId).queue
    have htotal := totalBytes_perm size hperm
    rw [totalBytes_append] at htotal
    rw [← superseding_queue size] at hperm htotal
    have hbytes : (s.superseding size (s.stateLane a.laneId) a.key).queuedBytes =
        totalBytes size (s.superseding size (s.stateLane a.laneId) a.key).queue := by
      rw [superseding_bytes, h.stateLane a.laneId]
      omega
    have hqueued := (hs.toLaid.stateLane a.laneId).sublist
      (List.eraseP_sublist (p := s.replaceable a.key))
    rw [← superseding_queue size] at hqueued
    have hsplit := hqueued.split fun pending hp => by
      rw [superseding_queue]
      exact eraseP_head a.key (retainedState_eq.mp hp).1 (hs.toReady.head_state hok hp)
    rw [admitState, admitStateSettles]
    split_ifs with hfull
    · refine (h.congestState hs a hperm hbytes hsplit).moveStart
        (hs.toReady.congestState size limits hok a _ _) ?_
      rw [OutboundDeliveryPump.congestState, congestStateLane]
      split_ifs <;> rfl
    · exact (h.queueState hs frame a hperm hbytes).moveStart
        (hs.toReady.queueState size hok rfl _ frame) rfl

/-! ## Terminal frames -/

theorem Account.setTerminal (h : s.Account size limits settled) (hlaid : s.Laid) {laneId : Str}
    {lane : TerminalLane φ} {k : ℕ}
    (hlanes : t.terminalLanes = Entries.set s.terminalLanes laneId lane)
    (hcontrol : t.controlQueue = s.controlQueue) (hstate : t.stateLanes = s.stateLanes)
    (hcontrolCount : t.controlQueuedByteCount = s.controlQueuedByteCount)
    (hstateCount : t.stateQueuedByteCount = s.stateQueuedByteCount)
    (hhanded : t.handed = s.handed) (hactive : t.activeDelivery = s.activeDelivery)
    (hturns : t.consecutiveControlDeliveries = s.consecutiveControlDeliveries)
    (hadmissions : t.admissions = s.admissions + k)
    (hbytes : lane.queuedBytes = totalBytes size lane.queue)
    (hcount : t.terminalQueuedByteCount + totalBytes size (s.terminalLane laneId 0).queue =
      s.terminalQueuedByteCount + totalBytes size lane.queue)
    (hout : (numbersOf lane.queue ++ out).Perm
      (numbersOf (s.terminalLane laneId 0).queue ++ List.range' s.admissions k)) :
    t.Account size limits (settled ++ out) := by
  have hqueued := terminalQueued_set hlaid hlanes
  have hlaneBytes : ∀ e ∈ t.terminalLanes, e.2.queuedBytes = totalBytes size e.2.queue := by
    rw [hlanes]
    intro e he
    rcases Entries.mem_set.mp he with rfl | ⟨he, _⟩
    · exact hbytes
    · exact h.terminalLanes e he
  exact h.move
    (h.toCounted.terminalChange hqueued hlaneBytes hcontrol hstate hcontrolCount hstateCount hcount)
    (.terminalChange hqueued hcontrol hstate hadmissions hout) hhanded hturns
    fun pending hp => .inl (hactive ▸ hp)

theorem Account.touchTerminal (h : s.Account size limits settled) (hlaid : s.Laid) {laneId : Str}
    {lane : TerminalLane φ} (hqueue : lane.queue = (s.terminalLane laneId 0).queue)
    (hbytes : lane.queuedBytes = totalBytes size lane.queue) :
    Account size limits { s with terminalLanes := Entries.set s.terminalLanes laneId lane }
      (settled ++ []) := by
  refine h.setTerminal hlaid (k := 0) rfl rfl rfl rfl rfl rfl rfl rfl rfl hbytes ?_ ?_
  · rw [hqueue]
  · rw [hqueue, List.append_nil, List.range'_zero, List.append_nil]

theorem Account.queueTerminal (h : s.Account size limits settled) (hs : s.Scheduled) {laneId : Str}
    {lane : TerminalLane φ} (hqueue : lane.queue = (s.terminalLane laneId 0).queue)
    (hbytes : lane.queuedBytes = totalBytes size lane.queue) (position nextPosition : ℕ) (frame : φ) :
    (s.queueTerminal size laneId lane position nextPosition frame).Account size limits
      (settled ++ []) := by
  refine h.setTerminal hs.toLaid (k := 1) rfl rfl rfl rfl rfl rfl rfl rfl rfl ?_ ?_ ?_
  · rw [totalBytes_append, totalBytes_singleton]
    exact congrArg (· + (size frame : ℤ)) hbytes
  · rw [totalBytes_append, totalBytes_singleton, hqueue]
    simp only [OutboundDeliveryPump.queueTerminal]
    omega
  · rw [hqueue, numbersOf, List.map_append, List.append_nil]
    exact .refl _

theorem Account.congestTerminal (h : s.Account size limits settled) (hs : s.Scheduled)
    (hok : s.terminalError = false) {laneId : Str} {lane : TerminalLane φ}
    (hqueue : lane.queue = (s.terminalLane laneId 0).queue)
    (hbytes : lane.queuedBytes = totalBytes size lane.queue) (nextPosition : ℕ)
    (createSkipFrame : ℕ → ℕ → φ)
    (hleft : (s.congestTerminalLane size limits laneId lane nextPosition
      createSkipFrame).terminalError = false) :
    (s.congestTerminalLane size limits laneId lane nextPosition createSkipFrame).Account size limits
      (settled ++ s.congestTerminalSettles size limits laneId lane nextPosition createSkipFrame) := by
  have hsplit := (hs.toLaid.terminalLane laneId 0).split fun pending hp =>
    hs.toReady.head_terminal hok 0 hp
  rw [← hqueue] at hsplit
  have htotal := congrArg (totalBytes size) hsplit
  rw [totalBytes_append] at htotal
  rw [congestTerminalLane] at hleft ⊢
  rw [congestTerminalSettles]
  split_ifs at hleft ⊢
  · exact (failed_left hleft).elim
  · refine h.setTerminal hs.toLaid (k := 1) rfl rfl rfl rfl rfl rfl rfl rfl rfl ?_ ?_ ?_
    · rw [totalBytes_append, totalBytes_singleton]
      dsimp only
      omega
    · rw [totalBytes_append, totalBytes_singleton, ← hqueue]
      dsimp only
      omega
    · refine List.perm_iff_count.mpr fun n => ?_
      have hcount := congrArg (fun queue => (numbersOf queue).count n) hsplit
      rw [← hqueue]
      simp only [numbersOf, List.map_append, List.count_append, List.map_singleton,
        List.range'_one] at hcount ⊢
      omega

theorem congestTerminal_handed (laneId : Str) (lane : TerminalLane φ) (nextPosition : ℕ)
    (createSkipFrame : ℕ → ℕ → φ) :
    (s.congestTerminalLane size limits laneId lane nextPosition createSkipFrame).handed = s.handed := by
  rw [congestTerminalLane]
  split_ifs
  · rw [fail]
    split_ifs <;> rfl
  · rfl

theorem Account.admitTerminal (h : s.Account size limits settled) (hs : s.Scheduled)
    (hok : s.terminalError = false) (frame : φ) {laneId : Str} {lane : TerminalLane φ}
    (hqueue : lane.queue = (s.terminalLane laneId 0).queue)
    (hbytes : lane.queuedBytes = totalBytes size lane.queue) (position nextPosition : ℕ)
    (createSkipFrame : ℕ → ℕ → φ) (now later : ℤ)
    (hleft : (s.admitTerminal size limits frame laneId lane position nextPosition createSkipFrame now
      later).terminalError = false) :
    (s.admitTerminal size limits frame laneId lane position nextPosition createSkipFrame now
        later).Account size limits (settled ++ s.admitTerminalSettles size limits frame laneId lane
          position nextPosition createSkipFrame now later) ∧
      Fair s (s.admitTerminal size limits frame laneId lane position nextPosition createSkipFrame now
        later) := by
  have hcounted : (lane.counted nextPosition).queue = (s.terminalLane laneId 0).queue := hqueue
  have hadvanced : ((lane.counted nextPosition).advanced nextPosition now).queue =
    (s.terminalLane laneId 0).queue := hqueue
  rw [OutboundDeliveryPump.admitTerminal] at hleft ⊢
  rw [admitTerminalSettles]
  split_ifs at hleft ⊢ with hold hgap hfull
  · exact ⟨h.touchTerminal hs.toLaid hcounted hbytes, .idle rfl⟩
  · rw [start_error] at hleft
    have hmoved := h.congestTerminal hs hok hcounted hbytes nextPosition createSkipFrame hleft
    exact hmoved.moveStart (hs.toReady.congestTerminal size limits hok _ _ _ _)
      (congestTerminal_handed ..)
  · rw [start_error] at hleft
    have hmoved := h.congestTerminal hs hok hadvanced hbytes nextPosition createSkipFrame hleft
    exact hmoved.moveStart (hs.toReady.congestTerminal size limits hok _ _ _ _)
      (congestTerminal_handed ..)
  · have hmoved := h.queueTerminal hs hadvanced hbytes position nextPosition frame
    exact hmoved.moveStart (hs.toReady.queueTerminal size hok hadvanced position nextPosition frame) rfl

theorem Account.sendTerminal (h : s.Account size limits settled) (hs : s.Scheduled) (frame : φ)
    (a : TerminalDeliveryAdmission φ) (now later : ℤ)
    (hleft : (s.sendTerminal size limits frame a now later).terminalError = false) :
    (s.sendTerminal size limits frame a now later).Account size limits
        (settled ++ s.sendTerminalSettles size limits frame a now later) ∧
      Fair s (s.sendTerminal size limits frame a now later) := by
  rw [OutboundDeliveryPump.sendTerminal] at hleft ⊢
  rw [sendTerminalSettles]
  split_ifs at hleft ⊢ with herror
  · exact h.stay
  · exact h.stay
  · exact h.stay
  · exact h.stay
  · exact h.admitTerminal hs (by simpa using herror) frame (terminalLane_queue s a.laneId _ 0)
      (h.terminalLane a.laneId _) _ _ _ now later hleft

theorem Account.acknowledgeTerminal (h : s.Account size limits settled) (hs : s.Scheduled)
    (laneId : Str) (position now : ℤ) :
    (s.acknowledgeTerminal laneId position now).Account size limits (settled ++ []) ∧
      Fair s (s.acknowledgeTerminal laneId position now) := by
  rw [OutboundDeliveryPump.acknowledgeTerminal]
  cases hlane : Entries.get s.terminalLanes laneId with
  | none => exact h.stay
  | some lane =>
    dsimp only
    split_ifs
    · exact h.stay
    · have hqueue : (lane.confirmed position now).queue = (s.terminalLane laneId 0).queue := by
        rw [terminalLane_get hlane]
        rfl
      exact ⟨h.touchTerminal hs.toLaid hqueue (h.terminalLanes _ (Entries.mem_of_get hlane)), .idle rfl⟩

theorem Account.deleteTerminal (h : s.Account size limits settled) (hlaid : s.Laid) {laneId : Str}
    (hlanes : t.terminalLanes = Entries.delete s.terminalLanes laneId)
    (hcontrol : t.controlQueue = s.controlQueue) (hstate : t.stateLanes = s.stateLanes)
    (hcontrolCount : t.controlQueuedByteCount = s.controlQueuedByteCount)
    (hstateCount : t.stateQueuedByteCount = s.stateQueuedByteCount)
    (hhanded : t.handed = s.handed) (hactive : t.activeDelivery = s.activeDelivery)
    (hturns : t.consecutiveControlDeliveries = s.consecutiveControlDeliveries)
    (hadmissions : t.admissions = s.admissions)
    (hcount : t.terminalQueuedByteCount + totalBytes size (s.terminalLane laneId 0).queue =
      s.terminalQueuedByteCount) :
    t.Account size limits (settled ++ numbersOf (s.terminalLane laneId 0).queue) := by
  have hqueued : ((s.terminalLane laneId 0).queue ++ t.terminalQueued).Perm ([] ++ s.terminalQueued) :=
    terminalQueued_delete hlaid hlanes
  have hlaneBytes : ∀ e ∈ t.terminalLanes, e.2.queuedBytes = totalBytes size e.2.queue := by
    rw [hlanes]
    exact fun e he => h.terminalLanes e (Entries.mem_delete.mp he).1
  have hzero : totalBytes size ([] : List (PendingDelivery φ)) = 0 := rfl
  refine h.move (h.toCounted.terminalChange hqueued hlaneBytes hcontrol hstate hcontrolCount
    hstateCount (by rw [hzero, hcount, add_zero])) (.terminalChange hqueued hcontrol hstate (k := 0)
      hadmissions ?_) hhanded hturns fun pending hp => .inl (hactive ▸ hp)
  rw [List.range'_zero, List.append_nil]
  exact .refl _

theorem Account.releaseTerminal (h : s.Account size limits settled) (hs : s.Scheduled)
    (hok : s.terminalError = false) (laneId : Str) :
    (s.releaseTerminal size laneId).Account size limits (settled ++ s.releaseSettles laneId) ∧
      Fair s (s.releaseTerminal size laneId) := by
  rw [OutboundDeliveryPump.releaseTerminal, releaseSettles]
  cases hlane : Entries.get s.terminalLanes laneId with
  | none => exact h.stay
  | some lane =>
    have hget := terminalLane_get hlane 0
    have hsplit := (hs.toLaid.terminalLane laneId 0).split fun pending hp =>
      hs.toReady.head_terminal hok 0 hp
    have hbytes := h.terminalLanes _ (Entries.mem_of_get hlane)
    have htotal := congrArg (totalBytes size) hsplit
    rw [hget] at hsplit
    rw [hget, totalBytes_append] at htotal
    dsimp only at hbytes ⊢
    cases hretained : s.retainedTerminal laneId with
    | none =>
      rw [hretained] at hsplit htotal
      rw [if_neg (by simp)]
      have hdropped : droppable none lane.queue = lane.queue := droppable_none _
      have hmoved := h.deleteTerminal (t := ({ s with
          terminalQueuedByteCount :=
            s.terminalQueuedByteCount - totalBytes size (droppable none lane.queue) } :
          OutboundDeliveryPump φ).retire laneId (lane.released size none)) hs.toLaid rfl rfl rfl rfl rfl
        rfl rfl rfl rfl (by rw [hget, hdropped]; exact Int.sub_add_cancel _ _)
      rw [hget] at hmoved
      rw [hdropped]
      rw [hdropped] at hmoved
      exact ⟨hmoved, .idle rfl⟩
    | some pending =>
      rw [hretained] at hsplit htotal
      rw [if_pos Option.isSome_some]
      refine ⟨h.setTerminal hs.toLaid (k := 0) rfl rfl rfl rfl rfl rfl rfl rfl rfl ?_ ?_ ?_, .idle rfl⟩
      · rw [TerminalLane.released]
        dsimp only
        omega
      · rw [hget, TerminalLane.released]
        dsimp only
        omega
      · rw [hget, TerminalLane.released, List.range'_zero, List.append_nil]
        dsimp only
        rw [numbersOf, numbersOf, ← List.map_append, hsplit]
        exact .refl _

/-! ## Deliveries -/

structure Left (size : φ → ℕ) (limits : OutboundDeliveryLimits) (s t : OutboundDeliveryPump φ)
    (pending : PendingDelivery φ) : Prop where
  counted : t.Counted size limits
  conserved : Conserved s t [pending.number]
  handed : t.handed = s.handed
  turns : t.consecutiveControlDeliveries = s.consecutiveControlDeliveries

theorem tail_bytes {queue : List (PendingDelivery φ)} {pending : PendingDelivery φ}
    (hhead : queue.head? = some pending) :
    totalBytes size queue = size pending.frame + totalBytes size queue.tail := by
  obtain ⟨rest, rfl⟩ := List.head?_eq_some_iff.mp hhead
  rw [List.tail_cons, ← List.singleton_append, totalBytes_append, totalBytes_singleton]

theorem completeControl_counted (h : s.Counted size limits) {pending : PendingDelivery φ}
    (hhead : s.controlQueue.head? = some pending) :
    (s.completeControl size pending).Counted size limits := by
  have hold := h.control
  have hbytes := h.bytes
  rw [tail_bytes hhead] at hold
  rw [completeControl, if_pos (isFirst_head hhead)]
  refine ⟨?_, h.state, h.terminal, h.stateLanes, h.terminalLanes, ?_, ?_⟩
  · dsimp only
    omega
  · exact (List.length_tail ▸ Nat.sub_le _ _).trans h.frames
  · dsimp only
    omega

theorem completeState_counted (h : s.Counted size limits) (hlaid : s.Laid) {laneId : Str}
    {lane : StateLane φ} {pending : PendingDelivery φ}
    (hget : Entries.get s.stateLanes laneId = some lane) (hhead : lane.queue.head? = some pending) :
    (s.completeState size laneId pending).Counted size limits := by
  have hpopped := (completeState_popped size hget hhead).perm hlaid.stateKeys
  have hbytes : lane.queuedBytes = totalBytes size lane.queue := h.stateLanes _ (Entries.mem_of_get hget)
  rw [tail_bytes hhead] at hbytes
  rw [completeState, hget] at hpopped ⊢
  dsimp only at hpopped ⊢
  rw [if_pos (isFirst_head hhead)] at hpopped ⊢
  refine h.stateChange (show ([pending] ++ _).Perm ([] ++ _) from hpopped) ?_ rfl rfl rfl rfl ?_
  · dsimp only
    split_ifs
    · exact fun e he => h.stateLanes e (Entries.mem_delete.mp he).1
    · intro e he
      rcases Entries.mem_set.mp he with rfl | ⟨he, _⟩
      · rw [StateLane.sent]
        dsimp only
        omega
      · exact h.stateLanes e he
  · rw [totalBytes_singleton]
    exact (Int.sub_add_cancel _ _).trans (add_zero _).symm

theorem completeTerminal_counted (h : s.Counted size limits) (hlaid : s.Laid) {laneId : Str}
    {lane : TerminalLane φ} {pending : PendingDelivery φ}
    (hget : Entries.get s.terminalLanes laneId = some lane) (hhead : lane.queue.head? = some pending) :
    (s.completeTerminal size laneId pending).Counted size limits := by
  have hpopped := (completeTerminal_popped size hget hhead).perm hlaid.terminalKeys
  have hbytes : lane.queuedBytes = totalBytes size lane.queue := h.terminalLanes _ (Entries.mem_of_get hget)
  rw [tail_bytes hhead] at hbytes
  rw [completeTerminal, hget] at hpopped ⊢
  dsimp only at hpopped ⊢
  rw [if_pos (isFirst_head hhead)] at hpopped ⊢
  split_ifs at hpopped ⊢
  · refine h.terminalChange (show ([pending] ++ _).Perm ([] ++ _) from hpopped)
      (fun e he => h.terminalLanes e (Entries.mem_delete.mp he).1) rfl rfl rfl rfl ?_
    rw [totalBytes_singleton]
    exact (Int.sub_add_cancel _ _).trans (add_zero _).symm
  · refine h.terminalChange (show ([pending] ++ _).Perm ([] ++ _) from hpopped)
      (fun e he => ?_) rfl rfl rfl rfl ?_
    · rcases Entries.mem_set.mp he with rfl | ⟨he, _⟩
      · rw [TerminalLane.sent]
        dsimp only
        omega
      · exact h.terminalLanes e he
    · rw [totalBytes_singleton]
      exact (Int.sub_add_cancel _ _).trans (add_zero _).symm

theorem completeDelivery_left (h : s.Counted size limits) (hlaid : s.Laid)
    {pending : PendingDelivery φ} (hheads : s.Heads pending) :
    Left size limits s (s.completeDelivery size pending) pending := by
  have hperm := (completeDelivery_perm size hlaid hheads).map PendingDelivery.number
  obtain ⟨_, _, _, _, _, _, _, hframe⟩ := completeDelivery_frame size (s := s) pending
  refine ⟨?_, ⟨0, by rw [hframe]; rfl, ?_⟩, by rw [hframe], by rw [hframe]⟩
  · rw [Heads] at hheads
    rw [completeDelivery]
    cases htraffic : pending.traffic with
    | control =>
      rw [htraffic] at hheads
      exact completeControl_counted h hheads
    | state laneId key | stateResync laneId =>
      rw [htraffic] at hheads
      obtain ⟨lane, hget, hhead⟩ := hheads
      exact completeState_counted h hlaid hget hhead
    | terminal laneId position nextPosition | terminalSkip laneId fromPosition toPosition =>
      rw [htraffic] at hheads
      obtain ⟨lane, hget, hhead⟩ := hheads
      exact completeTerminal_counted h hlaid hget hhead
  · rw [List.range'_zero, List.append_nil]
    exact List.perm_append_comm.trans hperm

theorem Account.next (h : s.Account size limits settled) (hs : s.Scheduled)
    (hok : s.terminalError = false) {pending : PendingDelivery φ}
    (hactive : s.activeDelivery = some pending) (completed : List (PendingDelivery φ)) :
    let t := { s.completeDelivery size pending with
      activeDelivery := none
      completed := completed }
    t.drain.Account size limits (settled ++ [pending.number]) ∧ Fair s t.drain := by
  intro t
  have hleft := completeDelivery_left h.toCounted hs.toLaid (hs.active pending hactive hok)
  have hmoved : t.Account size limits (settled ++ [pending.number]) :=
    h.move (hleft.counted.congr rfl rfl rfl rfl rfl rfl) hleft.conserved hleft.handed hleft.turns
      fun p hp => .inr (by rw [hactive] at hp; cases hp; exact List.mem_singleton.mpr rfl)
  obtain ⟨haccount, hfair⟩ := hmoved.drain (hs.toLaid.completed size pending completed) rfl
  exact ⟨haccount, hfair.after hleft.handed⟩

theorem Account.delivered (h : s.Account size limits settled) (hs : s.Scheduled)
    (hok : s.terminalError = false) :
    (s.delivered size).Account size limits (settled ++ s.deliveredSettles) ∧
      Fair s (s.delivered size) := by
  rw [OutboundDeliveryPump.delivered, deliveredSettles]
  cases hactive : s.activeDelivery with
  | none => exact h.stay
  | some pending =>
    dsimp only
    rw [if_neg (by rw [hok]; simp)]
    exact h.next hs hok hactive _

theorem Account.rejected (h : s.Account size limits settled) (hs : s.Scheduled)
    (hok : s.terminalError = false) (isOpen : Bool)
    (hleft : (s.rejected size isOpen).terminalError = false) :
    (s.rejected size isOpen).Account size limits (settled ++ s.rejectedSettles isOpen) ∧
      Fair s (s.rejected size isOpen) := by
  rw [OutboundDeliveryPump.rejected] at hleft ⊢
  rw [rejectedSettles]
  cases hactive : s.activeDelivery with
  | none => exact h.stay
  | some pending =>
    rw [hactive] at hleft
    dsimp only at hleft ⊢
    rw [if_neg (by rw [hok]; simp)] at hleft ⊢
    split_ifs at hleft ⊢
    · exact h.next hs hok hactive _
    · exact (failed_left hleft).elim

theorem Account.step (h : s.Account size limits settled) (hs : s.Scheduled)
    (hok : s.terminalError = false) (input : OutboundInput φ)
    (hleft : (s.step size limits input).terminalError = false) :
    (s.step size limits input).Account size limits (settled ++ s.settles size limits input) ∧
      Fair s (s.step size limits input) := by
  cases input with
  | send frame => exact h.send hs frame hleft
  | sendState frame admission => exact h.sendState hs frame admission
  | sendTerminal frame admission now later => exact h.sendTerminal hs frame admission now later hleft
  | acknowledgeTerminal laneId position now => exact h.acknowledgeTerminal hs laneId position now
  | releaseTerminal laneId => exact h.releaseTerminal hs hok laneId
  | delivered => exact h.delivered hs hok
  | rejected isOpen => exact h.rejected hs hok isOpen hleft
  | close => exact (failed_left hleft).elim

/-! ## Failure -/

theorem fail_settled (hpromises : (settled ++ numbersOf s.allQueued).Perm (List.range s.admissions))
    (hok : s.terminalError = false) :
    (settled ++ s.failSettles).Perm (List.range s.fail.admissions) := by
  rw [failSettles, fail, if_neg (by rw [hok]; simp), if_neg (by rw [hok]; simp)]
  exact hpromises

theorem Account.congestTerminal_failed (h : s.Account size limits settled) (hs : s.Scheduled)
    (hok : s.terminalError = false) {laneId : Str} {lane : TerminalLane φ}
    (hqueue : lane.queue = (s.terminalLane laneId 0).queue) (nextPosition : ℕ)
    (createSkipFrame : ℕ → ℕ → φ)
    (hfailed : (s.congestTerminalLane size limits laneId lane nextPosition
      createSkipFrame).terminalError = true) :
    (settled ++ s.congestTerminalSettles size limits laneId lane nextPosition createSkipFrame).Perm
      (List.range (s.congestTerminalLane size limits laneId lane nextPosition
        createSkipFrame).admissions) := by
  rw [congestTerminalLane] at hfailed ⊢
  rw [congestTerminalSettles]
  split_ifs at hfailed ⊢
  · have hadmissions : s.fail.admissions = s.admissions := by
      rw [fail]
      split_ifs <;> rfl
    rw [hadmissions]
    refine .trans (.append_left _ ?_) h.promises
    have hnodup : (numbersOf s.allQueued).Nodup :=
      (List.nodup_append.mp (h.promises.nodup_iff.mpr List.nodup_range)).2.1
    have hdropped : droppable (s.retainedTerminal laneId) lane.queue ⊆ s.allQueued := by
      intro pending hp
      have hmem := List.mem_of_mem_filter hp
      rw [hqueue, OutboundDeliveryPump.terminalLane] at hmem
      rw [allQueued, List.mem_append]
      cases hget : Entries.get s.terminalLanes laneId with
      | none =>
        rw [hget] at hmem
        cases hmem
      | some held =>
        rw [hget] at hmem
        exact .inr (List.mem_flatMap.mpr ⟨_, Entries.mem_of_get hget, hmem⟩)
    have hlane := (hs.toLaid.terminalLane laneId 0).order
    rw [← hqueue] at hlane
    have hsub : (droppable (s.retainedTerminal laneId) lane.queue).Sublist lane.queue :=
      List.filter_sublist
    refine (List.perm_ext_iff_of_nodup ?_ hnodup).mpr fun n => ?_
    · refine List.nodup_append.mpr ⟨(hlane.sublist (hsub.map _)).imp fun hlt => Nat.ne_of_lt hlt,
        hnodup.sublist (List.filter_sublist.map _), fun n hn m hm heq => ?_⟩
      obtain ⟨pending, hp, rfl⟩ := List.mem_map.mp hm
      exact (of_decide_eq_true (List.mem_filter.mp hp).2) (heq ▸ hn)
    · constructor
      · intro hn
        rcases List.mem_append.mp hn with hd | hrest
        · obtain ⟨pending, hp, rfl⟩ := List.mem_map.mp hd
          exact List.mem_map_of_mem (hdropped hp)
        · obtain ⟨pending, hp, rfl⟩ := List.mem_map.mp hrest
          exact List.mem_map_of_mem (List.mem_of_mem_filter hp)
      · intro hn
        obtain ⟨pending, hp, rfl⟩ := List.mem_map.mp hn
        by_cases hd : pending.number ∈ numbersOf (droppable (s.retainedTerminal laneId) lane.queue)
        · exact List.mem_append_left _ hd
        · exact List.mem_append_right _
            (List.mem_map_of_mem (List.mem_filter.mpr ⟨hp, decide_eq_true hd⟩))
  · rw [hok] at hfailed
    cases hfailed

theorem started {m : OutboundDeliveryPump φ} (hfailed : m.start.terminalError = true)
    (hm : m.terminalError = false) : False := by
  rw [start_error, hm] at hfailed
  cases hfailed

theorem Account.admitTerminal_failed (h : s.Account size limits settled) (hs : s.Scheduled)
    (hok : s.terminalError = false) (frame : φ) {laneId : Str} {lane : TerminalLane φ}
    (hqueue : lane.queue = (s.terminalLane laneId 0).queue) (position nextPosition : ℕ)
    (createSkipFrame : ℕ → ℕ → φ) (now later : ℤ)
    (hfailed : (s.admitTerminal size limits frame laneId lane position nextPosition createSkipFrame now
      later).terminalError = true) :
    (settled ++ s.admitTerminalSettles size limits frame laneId lane position nextPosition
      createSkipFrame now later).Perm (List.range (s.admitTerminal size limits frame laneId lane position
        nextPosition createSkipFrame now later).admissions) := by
  have hcounted : (lane.counted nextPosition).queue = (s.terminalLane laneId 0).queue := hqueue
  have hadvanced : ((lane.counted nextPosition).advanced nextPosition now).queue =
    (s.terminalLane laneId 0).queue := hqueue
  rw [OutboundDeliveryPump.admitTerminal] at hfailed ⊢
  rw [admitTerminalSettles]
  split_ifs at hfailed ⊢
  · rw [hok] at hfailed
    cases hfailed
  · rw [start_error] at hfailed
    rw [start_failed hfailed]
    exact h.congestTerminal_failed hs hok hcounted _ _ hfailed
  · rw [start_error] at hfailed
    rw [start_failed hfailed]
    exact h.congestTerminal_failed hs hok hadvanced _ _ hfailed
  · exact (started hfailed hok).elim

theorem Account.sendTerminal_failed (h : s.Account size limits settled) (hs : s.Scheduled)
    (hok : s.terminalError = false) (frame : φ) (a : TerminalDeliveryAdmission φ) (now later : ℤ)
    (hfailed : (s.sendTerminal size limits frame a now later).terminalError = true) :
    (settled ++ s.sendTerminalSettles size limits frame a now later).Perm
      (List.range (s.sendTerminal size limits frame a now later).admissions) := by
  have hclear : ¬s.terminalError = true := by rw [hok]; simp
  rw [OutboundDeliveryPump.sendTerminal, if_neg hclear] at hfailed ⊢
  rw [sendTerminalSettles, if_neg hclear]
  split_ifs at hfailed ⊢
  · exact (hclear hfailed).elim
  · exact (hclear hfailed).elim
  · exact (hclear hfailed).elim
  · exact h.admitTerminal_failed hs hok frame (terminalLane_queue s a.laneId _ 0) _ _ _ now later hfailed

theorem Account.step_failed (h : s.Account size limits settled) (hs : s.Scheduled)
    (hok : s.terminalError = false) (input : OutboundInput φ)
    (hfailed : (s.step size limits input).terminalError = true) :
    (settled ++ s.settles size limits input).Perm
      (List.range (s.step size limits input).admissions) := by
  have hclear : ¬s.terminalError = true := by rw [hok]; simp
  cases input with
  | send frame =>
    rw [OutboundDeliveryPump.step, OutboundDeliveryPump.send, if_neg hclear] at hfailed ⊢
    rw [settles, sendSettles, if_neg hclear]
    split_ifs at hfailed ⊢
    · exact fail_settled h.promises hok
    · exact (started hfailed hok).elim
  | sendState frame admission =>
    rw [OutboundDeliveryPump.step, OutboundDeliveryPump.sendState, if_neg hclear] at hfailed
    split_ifs at hfailed
    · exact (hclear hfailed).elim
    · exact (hclear hfailed).elim
    · rw [admitState] at hfailed
      split_ifs at hfailed
      · refine (started hfailed ?_).elim
        rw [OutboundDeliveryPump.congestState, congestStateLane]
        split_ifs <;> exact hok
      · exact (started hfailed hok).elim
  | sendTerminal frame admission now later =>
    exact h.sendTerminal_failed hs hok frame admission now later hfailed
  | acknowledgeTerminal laneId position now =>
    rw [OutboundDeliveryPump.step, OutboundDeliveryPump.acknowledgeTerminal] at hfailed
    cases hlane : Entries.get s.terminalLanes laneId with
    | none =>
      rw [hlane] at hfailed
      exact (hclear hfailed).elim
    | some lane =>
      rw [hlane] at hfailed
      dsimp only at hfailed
      split_ifs at hfailed <;> exact (hclear hfailed).elim
  | releaseTerminal laneId =>
    rw [OutboundDeliveryPump.step, OutboundDeliveryPump.releaseTerminal] at hfailed
    cases hlane : Entries.get s.terminalLanes laneId with
    | none =>
      rw [hlane] at hfailed
      exact (hclear hfailed).elim
    | some lane =>
      rw [hlane] at hfailed
      dsimp only at hfailed
      split_ifs at hfailed <;> exact (hclear hfailed).elim
  | delivered =>
    rw [OutboundDeliveryPump.step, delivered_error] at hfailed
    exact (hclear hfailed).elim
  | rejected isOpen =>
    rw [OutboundDeliveryPump.step, OutboundDeliveryPump.rejected] at hfailed ⊢
    rw [settles, rejectedSettles]
    cases hactive : s.activeDelivery with
    | none =>
      rw [hactive] at hfailed
      exact (hclear hfailed).elim
    | some pending =>
      rw [hactive] at hfailed
      dsimp only at hfailed ⊢
      rw [if_neg hclear] at hfailed ⊢
      split_ifs at hfailed ⊢
      · rw [(drain_frame _).1] at hfailed
        dsimp only at hfailed
        rw [(completeDelivery_handed size pending).2] at hfailed
        exact (hclear hfailed).elim
      · rw [failSettles, if_neg hclear, fail]
        dsimp only
        rw [if_neg hclear]
        exact h.promises
  | close => exact fail_settled h.promises hok

end Accounts

end OutboundDeliveryPump

/-! ## Runs -/

structure PumpLedger (φ : Type) where
  pump : OutboundDeliveryPump φ
  settled : List ℕ

namespace PumpLedger
open OutboundDeliveryPump

def created {φ : Type} : PumpLedger φ := ⟨OutboundDeliveryPump.created, []⟩

section Runs
variable {φ : Type} (size : φ → ℕ) (limits : OutboundDeliveryLimits)

def step (l : PumpLedger φ) (input : OutboundInput φ) : PumpLedger φ :=
  ⟨l.pump.step size limits input, l.settled ++ l.pump.settles size limits input⟩

structure Sound (l : PumpLedger φ) : Prop where
  scheduled : l.pump.Scheduled
  flows : l.pump.Flows
  account : l.pump.terminalError = false → l.pump.Account size limits l.settled

theorem Sound.step {l : PumpLedger φ} (h : l.Sound size limits) (input : OutboundInput φ) :
    (l.step size limits input).Sound size limits := by
  refine ⟨h.scheduled.step size limits h.flows.failed input, h.flows.step size limits h.scheduled input,
    fun hleft => ?_⟩
  have hok : l.pump.terminalError = false := by
    by_contra herror
    have hfailed := failed_step size limits (by simpa using herror) input
    have hleft : (l.pump.step size limits input).terminalError = false := hleft
    rw [hfailed] at hleft
    cases hleft
  exact ((h.account hok).step h.scheduled hok input hleft).1

theorem created_sound : (created : PumpLedger φ).Sound size limits :=
  ⟨created_scheduled, created_flows, fun _ =>
    ⟨⟨rfl, rfl, rfl, nofun, nofun, Nat.zero_le _, Int.natCast_nonneg _⟩, .nil, .nil, nofun, rfl⟩⟩

theorem after_pump (l : PumpLedger φ) (inputs : List (OutboundInput φ)) :
    (Runs.after (step size limits) l inputs).pump =
      Runs.after (OutboundDeliveryPump.step size limits) l.pump inputs := by
  induction inputs generalizing l with
  | nil => rfl
  | cons input inputs ih => exact ih (l.step size limits input)

/-- The accounts of every run: what the counts are, which promises are settled, and what the next
step hands over or, when it fails the pump, settles. -/
theorem outbound_accounts_runs (inputs : List (OutboundInput φ)) :
    let l := Runs.after (step size limits) created inputs
    l.pump.terminalError = false →
      l.pump.Counted size limits ∧
      (∀ pending, l.pump.activeDelivery = some pending → l.pump.Heads pending) ∧
      (numbersOf l.pump.handed).Nodup ∧
      (l.settled ++ numbersOf l.pump.allQueued).Perm (List.range l.pump.admissions) ∧
      (∀ input, let next := l.step size limits input
        if next.pump.terminalError = true then next.settled.Perm (List.range next.pump.admissions)
        else Fair l.pump next.pump) ∧
      let drained := Runs.after (step size limits) l (List.replicate l.pump.queuedFrames .delivered)
      drained.settled.Perm (List.range drained.pump.admissions) := by
  intro l hok
  have hstep : ∀ (l : PumpLedger φ) (input : OutboundInput φ), l.Sound size limits →
      (l.step size limits input).Sound size limits := fun l input hl => hl.step size limits input
  have hsound : l.Sound size limits := Runs.invariant hstep (created_sound size limits) inputs
  have haccount := hsound.account hok
  refine ⟨haccount.toCounted, fun pending hp => hsound.scheduled.active pending hp hok, haccount.once,
    haccount.promises, fun input => ?_, ?_⟩
  · intro next
    split_ifs with hfailed
    · exact haccount.step_failed hsound.scheduled hok input hfailed
    · have hleft : (l.pump.step size limits input).terminalError = false :=
        Bool.eq_false_iff.mpr hfailed
      exact (haccount.step hsound.scheduled hok input hleft).2
  · intro drained
    have hdrained : drained.Sound size limits := Runs.invariant hstep hsound _
    have hpump := after_pump size limits l (List.replicate l.pump.queuedFrames .delivered)
    obtain ⟨hempty, hleft, _⟩ := OutboundDeliveryPump.drained size limits l.pump.queuedFrames
      hsound.scheduled hok le_rfl
    rw [← hpump] at hempty hleft
    have hpromises := (hdrained.account hleft).promises
    rw [queuedFrames_eq, List.length_eq_zero_iff] at hempty
    rw [hempty] at hpromises
    simpa [numbersOf] using hpromises

end Runs

def mixed : List (OutboundInput ℕ) :=
  [.send 3, oneByte 'a', oneByte 'a', .send 2, .delivered, .rejected true, oneByte 'b', .delivered]

/-- The second update settles the first, and the frame that was refused settles alone. -/
theorem outbound_accounts_runs_mixed :
    let l := Runs.after (step id twoFrames) created mixed
    l.settled = [1, 0, 3, 2] ∧ numbersOf l.pump.handed = [0, 3, 2, 4] ∧
      (l.settled ++ numbersOf l.pump.allQueued).Perm (List.range l.pump.admissions) :=
  ⟨by decide +kernel, by decide +kernel,
    (outbound_accounts_runs id twoFrames mixed (by decide +kernel)).2.2.2.1⟩

end PumpLedger

end Terminay.Protocol
