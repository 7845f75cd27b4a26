import Terminay.Protocol.InboundSound

/-!
# Requests answered once

On an open connection requests start in the order of their arrival, a bounded number at a time,
and the queue's index and byte count describe the queue.
-/

namespace Terminay.Protocol.Inbound
open Script Lists

variable {s : State}

/-- How the requests of an open connection are served. -/
structure Served (s : State) : Prop where
  listed : s.progress.length = s.arrivals.length
  handlers : s.progress.countP (fun p => p.phase = .handling) ≤ maxInFlightFeatures
  startOrder : s.starts.Pairwise (· < ·)
  queueOrder : s.pendingFeatures.Pairwise (· < ·)
  waiting : ∀ a ∈ s.starts, ∀ b ∈ s.pendingFeatures, a < b
  expelled : ∀ n ∈ s.expelled, n ∉ s.starts
  queued : ∀ (n : ℕ) p, s.progress[n]? = some p → (p.phase = .queued ↔ n ∈ s.pendingFeatures)
  idKeys : (Entries.keys s.pendingFeatureIds).Nodup
  ids : ∀ c n, (c, n) ∈ s.pendingFeatureIds ↔ n ∈ s.pendingFeatures ∧ s.correlation n = some c
  bytes : s.pendingFeatureBytes = (s.pendingFeatures.map s.bytes).sum

def State.quiet (s : State) : Prop := ∀ p ∈ s.progress, p.phase = .queued ∨ p.phase = .done

/-- Every request has at most one result frame, an ended one exactly one, and with nothing under
way every request has ended. -/
structure AnsweredOnce (s : State) : Prop where
  once : ∀ (n : ℕ) p, s.progress[n]? = some p → p.answers.length ≤ 1
  ended : ∀ (n : ℕ) p, s.progress[n]? = some p → p.phase = .done → p.answers.length = 1
  quiet : s.quiet → ∀ n < s.arrivals.length, ∃ p, s.progress[n]? = some p ∧ p.answers.length = 1

/-- No replay fails after the result of its subscription, and no error result is refused. -/
def Delivers (s : State) : Input → Prop
  | .sent n accepted =>
    match (s.progress[n]?).map Progress.phase with
    | some .failing | some (.answering _ _) => accepted = true
    | _ => True
  | .activated n succeeded =>
    (s.progress[n]?).map Progress.phase = some .activating → succeeded = true
  | _ => True

section Answers

variable {n : ℕ} {p : Progress} {now : ℤ} {maxBytes : ℕ}

def Phase.Owes : Phase → List Reply → Prop
  | .activating, answers | .settling, answers | .done, answers => answers.length = 1
  | _, answers => answers = []

def Owed (s : State) : Prop := ∀ (n : ℕ) p, s.progress[n]? = some p → p.phase.Owes p.answers

theorem Owed.put (h : Owed s) {q : Progress} (hq : q.phase.Owes q.answers) : Owed (s.put n q) := by
  intro m r hm
  rcases get_set.mp hm with ⟨-, -, rfl⟩ | ⟨-, hold⟩
  · exact hq
  · exact h m r hold

theorem Owed.enter (h : Owed s) {phase : Phase}
    (hphase : ∀ p, s.progress[n]? = some p → phase.Owes p.answers) : Owed (s.enter n phase) := by
  rcases hp : s.progress[n]? with _ | p
  · rw [State.enter, hp]
    exact h
  · rw [enter_put hp]
    exact h.put (hphase p hp)

theorem Owed.finish (h : Owed s) (hcore : Core s none) (hp : s.progress[n]? = some p) {q : Progress}
    (hone : q.answers.length = 1) : Owed ((s.put n q).finishRequest n) := by
  have hlt := (List.getElem?_eq_some_iff.mp hp).1
  rw [hcore.lengths] at hlt
  have hc : (s.put n q).correlation n = some s.arrivals[n].feature.correlation := by
    rw [State.correlation, State.put, List.getElem?_eq_getElem hlt]
    rfl
  have hsettling : Owed ((s.put n q).enter n .settling) := by
    rw [enter_put (put_get hp q), put_put]
    exact h.put hone
  rw [State.finishRequest, hc]
  dsimp only
  split_ifs
  · exact hsettling
  · exact hsettling

theorem Owed.arrive (h : Owed s) (f : Feature) (now : ℤ) : Owed (s.arrive f now) := by
  intro m q hm
  rcases get_concat.mp hm with hold | ⟨-, rfl⟩
  · exact h m q hold
  · rfl

theorem Owed.blank (h : Owed s) (hcore : Core s (some n)) (p : Progress)
    (hp : s.progress[n]? = some p) : p.answers = [] := by
  have howes := h n p hp
  rw [(hcore.arrived n p hp).mpr rfl] at howes
  exact howes

theorem Owed.take (h : Owed s) (hcore : Core s none) (hn : n ∈ s.pendingFeatures) :
    Owed (s.removePendingFeature n) := by
  have henter : Owed (s.enter n .arrived) := by
    apply h.enter
    intro p hp
    have howes := h n p hp
    rw [(hcore.queued n p hp).mpr hn] at howes
    exact howes
  rw [State.removePendingFeature, if_pos hn]
  exact henter

theorem Owed.expel (h : Owed s) (hcore : Core s none) (hn : n ∈ s.pendingFeatures) (reply : Reply) :
    Owed (s.expel n reply) := by
  have htaken := h.take hcore hn
  have hleft : Owed ((s.removePendingFeature n).enter n (.answering reply false)) :=
    htaken.enter (htaken.blank (hcore.take hn))
  exact hleft

theorem Owed.dispatch (h : Owed s) (hblank : ∀ p, s.progress[n]? = some p → p.answers = []) :
    Owed (s.dispatchFeature n) := by
  have hcounted : Owed { s with activeFeatures := s.activeFeatures + 1 } := h
  rw [State.dispatchFeature]
  split
  · exact h
  · dsimp only
    split
    · exact hcounted.enter hblank
    · have hleft : Owed ({ s with activeFeatures := s.activeFeatures + 1 }.enter n .handling) :=
        hcounted.enter hblank
      exact hleft

theorem Owed.drainOne (h : Owed s) (hcore : Core s none) (hn : n ∈ s.pendingFeatures) :
    Owed (s.drainOne now n) := by
  rw [State.drainOne]
  split_ifs
  · exact h.expel hcore hn .deadline
  · have htaken := h.take hcore hn
    exact htaken.dispatch (htaken.blank (hcore.take hn))

theorem Owed.drain (rounds : ℕ) (h : Owed s) (hcore : Core s none) :
    Owed (State.drain now rounds s) := by
  induction rounds generalizing s with
  | zero => exact h
  | succ rounds ih =>
    rw [State.drain]
    split_ifs with hgo
    · rcases hqueue : s.pendingFeatures with _ | ⟨n, rest⟩
      · exact h
      · have hn : n ∈ s.pendingFeatures := by
          rw [hqueue]
          exact List.mem_cons_self
        exact ih (h.drainOne hcore hn) (hcore.drainOne hqueue hgo.2)
    · exact h

theorem Owed.processEnvelope (h : Owed s) (hcore : Core s none) (f : Feature) :
    Owed (s.processEnvelope maxBytes f now) := by
  have harrive := h.arrive f now
  have hblank := harrive.blank (hcore.arrive f now)
  rw [State.processEnvelope]
  split_ifs
  · exact harrive.enter hblank
  · rw [State.admitFeature]
    split_ifs
    · exact harrive.enter hblank
    · exact harrive.dispatch hblank
    · exact harrive
    · have hqueued : Owed ((s.arrive f now).enter s.arrivals.length .queued) := harrive.enter hblank
      exact hqueued
  · exact h

theorem Owed.sent (h : Owed s) (hcore : Core s none) {accepted : Bool}
    (hdelivers : Delivers s (.sent n accepted)) : Owed (s.sent n accepted) := by
  rw [State.sent]
  rw [Delivers] at hdelivers
  split
  · rename_i ok hphase
    obtain ⟨answers, hp⟩ := phase_get hphase
    have howes : answers = [] := h n _ hp
    have hone : (answers ++ [Reply.result]).length = 1 := by rw [howes]; rfl
    split_ifs
    · rw [answer_put hp, enter_put (put_get hp _), put_put]
      exact h.put hone
    · rw [answer_put hp]
      exact h.finish hcore hp hone
    · rw [enter_put hp]
      exact h.put howes
  · rename_i hphase
    obtain ⟨answers, hp⟩ := phase_get hphase
    have howes : answers = [] := h n _ hp
    have hone : (answers ++ [Reply.failure]).length = 1 := by rw [howes]; rfl
    rw [hphase] at hdelivers
    rw [if_pos hdelivers, answer_put hp]
    exact h.finish hcore hp hone
  · rename_i reply dispatched hphase
    obtain ⟨answers, hp⟩ := phase_get hphase
    have howes : answers = [] := h n _ hp
    have hone : (answers ++ [reply]).length = 1 := by rw [howes]; rfl
    rw [hphase] at hdelivers
    dsimp only
    rw [if_pos hdelivers, answer_put hp, enter_put (put_get hp _), put_put]
    apply h.put
    split_ifs
    · exact hone
    · exact hone
  · exact h

theorem step_owed {input : Input} (h : Owed s) (hsound : Sound s) (hopen : s.isOpen = true)
    (hdelivers : Delivers s input) : Owed (step maxBytes s input) := by
  cases input with
  | feature f now => exact h.processEnvelope hsound.toCore f
  | cancel correlation =>
    rw [step, if_pos hopen, State.cancelRequest]
    rcases hget : Entries.get s.pendingFeatureIds correlation with _ | n
    · exact h
    · exact h.expel hsound.toCore ((hsound.ids correlation n).mp (Entries.mem_of_get hget)).1 .cancelled
  | handled n outcome =>
    rw [step, State.handled.eq_def]
    split
    · rename_i hphase
      obtain ⟨answers, hp⟩ := phase_get hphase
      have howes : answers = [] := h n _ hp
      rcases outcome with _ | ok
      · dsimp only
        rw [enter_put hp]
        exact h.put howes
      · dsimp only
        rw [enter_put hp]
        exact h.put howes
    · exact h
  | sent n accepted => exact h.sent hsound.toCore hdelivers
  | activated n succeeded =>
    rw [step, State.activated]
    split
    · rename_i hphase
      obtain ⟨answers, hp⟩ := phase_get hphase
      have howes : answers.length = 1 := h n _ hp
      rw [if_pos (hdelivers hphase), ← put_self hp]
      exact h.finish hsound.toCore hp howes
    · exact h
  | settled n now =>
    rw [step, State.settled]
    split
    · rename_i hphase
      obtain ⟨answers, hp⟩ := phase_get hphase
      have howes : answers.length = 1 := h n _ hp
      have hdone : Owed (s.enter n .done) := by
        rw [enter_put hp]
        exact h.put howes
      have hleft : Owed { s.enter n .done with activeFeatures := s.activeFeatures - 1 } := hdone
      exact hleft.drain _ (hsound.toCore.settle hp rfl)
    · exact h
  | timer n now =>
    rw [step, State.timer]
    split
    · split_ifs with hfires
      · exact h.expel hsound.toCore hfires.1 .deadline
      · exact h
    · exact h
  | close => exact h

end Answers

section Conclusion

variable {maxBytes : ℕ}

theorem Sound.served (h : Sound s) : Served s where
  listed := h.lengths
  handlers := by
    refine le_trans (List.countP_mono_left fun p _ hp => ?_) (h.active ▸ h.limit)
    rw [of_decide_eq_true hp]
    rfl
  startOrder := h.startOrder
  queueOrder := h.order
  waiting a ha b hb := (h.started a ha).2 b hb
  expelled n hn := (h.expelled n hn).2.1
  queued := h.queued
  idKeys := h.idKeys
  ids := h.ids
  bytes := h.bytes

theorem Phase.Owes.once {phase : Phase} {answers : List Reply} (h : phase.Owes answers) :
    answers.length ≤ 1 := by
  cases phase with
  | activating => exact le_of_eq h
  | settling => exact le_of_eq h
  | done => exact le_of_eq h
  | _ => exact (congrArg List.length h).le.trans (Nat.zero_le 1)

theorem Sound.quiet_done (h : Sound s) (hquiet : s.quiet) {p : Progress} (hp : p ∈ s.progress) :
    p.phase = .done := by
  refine (hquiet p hp).resolve_left fun hqueued => ?_
  obtain ⟨n, hn⟩ := List.mem_iff_getElem?.mp hp
  have hwaits := (h.queued n p hn).mp hqueued
  have hfull := h.full (List.ne_nil_of_mem hwaits)
  have hnone : s.progress.countP (fun q => q.phase.active) = 0 := by
    apply List.countP_eq_zero.mpr
    intro q hq
    rcases hquiet q hq with hphase | hphase
    · rw [hphase]
      exact Bool.false_ne_true
    · rw [hphase]
      exact Bool.false_ne_true
  rw [h.active, hnone] at hfull
  cases hfull

theorem Owed.answeredOnce (h : Owed s) (hsound : Sound s) : AnsweredOnce s where
  once n p hp := (h n p hp).once
  ended n p hp hphase := by
    have howes := h n p hp
    rw [hphase] at howes
    exact howes
  quiet hquiet n hn := by
    obtain ⟨p, hp⟩ := hsound.phase_of hn
    have howes := h n p hp
    rw [hsound.quiet_done hquiet (List.mem_of_getElem? hp)] at howes
    exact ⟨p, hp, howes⟩

theorem run_sound (inputs : List Input)
    (hopen : (Runs.after (step maxBytes) opened inputs).isOpen = true) :
    Sound (Runs.after (step maxBytes) opened inputs) := by
  have hstep : ∀ s input, (s.isOpen = true → Sound s) →
      (step maxBytes s input).isOpen = true → Sound (step maxBytes s input) :=
    fun s input h hopen => step_sound (h (step_isOpen s input hopen)) hopen
  have hrun := Runs.invariant (I := fun s : State => s.isOpen = true → Sound s) hstep
    (fun _ => opened_sound) inputs
  exact hrun hopen

theorem run_owed (inputs : List Input) (hdelivers : Runs.Meets (step maxBytes) Delivers opened inputs)
    (hopen : (Runs.after (step maxBytes) opened inputs).isOpen = true) :
    Owed (Runs.after (step maxBytes) opened inputs) := by
  have hstep : ∀ s input, (s.isOpen = true → Sound s ∧ Owed s) → Delivers s input →
      (step maxBytes s input).isOpen = true →
        Sound (step maxBytes s input) ∧ Owed (step maxBytes s input) := by
    intro s input h hmeets hopen
    have hs := step_isOpen s input hopen
    obtain ⟨hsound, howed⟩ := h hs
    exact ⟨step_sound hsound hopen, step_owed howed hsound hs hmeets⟩
  have hrun := Runs.invariant_of_meets (I := fun s : State => s.isOpen = true → Sound s ∧ Owed s)
    hstep (fun _ => ⟨opened_sound, fun n p hp => by cases hp⟩) hdelivers
  exact (hrun hopen).2

def subscription : Feature := ⟨.command, js "subscribe-1", eventsSubscribe, none, 64⟩

def subscribed : List Input :=
  [.feature subscription 0, .handled 0 (some true), .sent 0 true, .activated 0 true, .settled 0 5]

def failedReplay : List Input :=
  [.feature subscription 0, .handled 0 (some true), .sent 0 true, .activated 0 false, .sent 0 true]

theorem failed_replay_answers : ((Runs.after (step 1024) opened failedReplay).progress[0]?).map
    Progress.answers = some [.result, .failure] := by
  decide +kernel

end Conclusion

end Terminay.Protocol.Inbound
