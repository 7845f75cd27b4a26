import Terminay.Protocol.Subscription

/-!
# What a subscription delivers after a replay

The queue of an activation is what it has sent and what it still has to send.
-/

namespace Terminay.Protocol
open Script Workspace Outcome

variable {ν : Type} [Engine ν]

section Replaying

variable (c : Connection ν) (s : Subscription ν) (j : OrderedEventJournal ν)

def OnStage (a : Activation ν) : Prop :=
  match a.phase with
  | .starting (.ok (.events _)) | .replaying _ =>
    a.replaying = true ∧ ∀ r ∈ a.replayedRevisions, ∃ q ∈ a.admitted, q.revision = r
  | .draining _ | .returned => a.replaying = false
  | _ => False

structure Replaying (a : Activation ν) : Prop where
  stage : OnStage a
  queued : Queued c s j a.journal (a.admitted ++ a.waiting c s)
  framed : ∀ p ∈ a.waiting c s, c.Framed s p

def unsent (a : Activation ν) : List (OrderedEvent ν) :=
  match a.phase with
  | .draining rest => rest
  | _ => []

/-- Every event heard can be framed, and none is appended while buffered events are unsent. -/
def Undisturbed (a : Activation ν) : Activation.Input ν → Prop
  | .append event payload => ∀ appended ∈ (a.journal.append event payload).toOption,
      ∀ p ∈ c.heard s appended.1, c.Framed s p ∧ (unsent a).isEmpty = true
  | _ => True

instance (a : Activation ν) : (i : Activation.Input ν) → Decidable (Undisturbed c s a i)
  | .append event payload => inferInstanceAs (Decidable
      (∀ appended ∈ (a.journal.append event payload).toOption,
        ∀ p ∈ c.heard s appended.1, c.Framed s p ∧ (unsent a).isEmpty = true))
  | .handOff => .isTrue trivial
  | .settle => .isTrue trivial

variable {c} {s} {j} {a : Activation ν}

theorem drain_replaying {rest : List (OrderedEvent ν)} (hoff : a.replaying = false)
    (hqueued : Queued c s j a.journal (a.admitted ++ rest)) (hframed : ∀ p ∈ rest, c.Framed s p) :
    Replaying c s j (a.drain c s rest) := by
  obtain ⟨hphase, hqueue, hflag, hjournal, -, hwaiting⟩ := drain_framed (a := a) hframed
  refine ⟨?_, ?_, fun p hp => hframed p (hwaiting p hp)⟩
  · rw [OnStage]
    rcases hphase with h | ⟨later, h⟩ <;>
    · rw [h]
      exact hflag.trans hoff
  · rw [hqueue, hjournal]
    exact hqueued

theorem replayLoop_replaying {rest : List (OrderedEvent ν)} (hon : a.replaying = true)
    (hsent : ∀ r ∈ a.replayedRevisions, ∃ q ∈ a.admitted, q.revision = r)
    (hqueued : Queued c s j a.journal (a.admitted ++ (rest.filterMap (c.replayed s) ++ a.pending)))
    (hframed : ∀ p ∈ rest.filterMap (c.replayed s) ++ a.pending, c.Framed s p) :
    Replaying c s j (a.replayLoop c s rest) := by
  induction rest with
  | nil =>
    rw [Activation.replayLoop]
    refine drain_replaying rfl (hqueued.unreplayed hsent) fun p hp => ?_
    exact hframed p (List.mem_of_mem_filter hp)
  | cons value rest ih =>
    rw [Activation.replayLoop]
    rcases hvalue : c.replayed s value with _ | projected
    · rw [List.filterMap_cons_none hvalue] at hqueued hframed
      exact ih hqueued hframed
    · rw [List.filterMap_cons_some hvalue] at hqueued hframed
      dsimp only
      rw [sendEvent_framed (hframed projected List.mem_cons_self)]
      refine ⟨⟨hon, fun r hr => ?_⟩, ?_, fun p hp => hframed p (List.mem_cons_of_mem _ hp)⟩
      · rcases List.mem_cons.mp hr with rfl | hold
        · exact ⟨projected, List.mem_append_right _ List.mem_cons_self, rfl⟩
        · obtain ⟨q, hq, heq⟩ := hsent r hold
          exact ⟨q, List.mem_append_left _ hq, heq⟩
      · change Queued c s j a.journal
          ((a.admitted ++ [projected]) ++ (rest.filterMap (c.replayed s) ++ a.pending))
        rw [List.append_assoc]
        exact hqueued

theorem settle_replaying (h : Replaying c s j a) : Replaying c s j (a.settle c s) := by
  obtain ⟨hstage, hqueued, hframed⟩ := h
  rw [OnStage] at hstage
  rw [Activation.waiting] at hqueued hframed
  rw [Activation.settle]
  rcases hphase : a.phase with (error | events | snapshot) | _ | rest | rest | _ | _ <;>
    rw [hphase] at hstage hqueued hframed <;> dsimp only at hstage hqueued hframed ⊢
  · exact replayLoop_replaying hstage.1 hstage.2 hqueued hframed
  · exact replayLoop_replaying hstage.1 hstage.2 hqueued hframed
  · exact drain_replaying hstage hqueued hframed
  · refine ⟨?_, ?_, ?_⟩
    · rw [OnStage, hphase]
      exact hstage
    · rw [Activation.waiting, hphase]
      exact hqueued
    · rw [Activation.waiting, hphase]
      exact hframed

theorem handOff_replaying (h : Replaying c s j a) : a.handOff = a := by
  obtain ⟨hstage, -, -⟩ := h
  rw [OnStage] at hstage
  rw [Activation.handOff]
  rcases hphase : a.phase with (error | events | snapshot) | _ | rest | rest | _ | _ <;>
    rw [hphase] at hstage
  · exact hstage.elim

theorem waiting_buffered (journal : OrderedEventJournal ν) (p : OrderedEvent ν)
    (hstage : OnStage a) (hon : a.replaying = true) :
    Activation.waiting c s { a with journal := journal, pending := a.pending ++ [p] } =
      a.waiting c s ++ [p] := by
  rw [OnStage] at hstage
  rw [Activation.waiting, Activation.waiting]
  dsimp only
  rcases hphase : a.phase with (error | events | snapshot) | _ | rest | rest | _ | _ <;>
    rw [hphase] at hstage <;> dsimp only at hstage ⊢
  · exact (List.append_assoc _ _ _).symm
  · exact (List.append_assoc _ _ _).symm
  · rw [hon] at hstage
    cases hstage
  · rw [hon] at hstage
    cases hstage

theorem listener_replaying (h : Replaying c s j a) {event : Str} {payload : Json ν}
    {e : OrderedEvent ν} {next : OrderedEventJournal ν}
    (happend : a.journal.append event payload = .ok (e, next))
    (hquiet : ∀ p ∈ c.heard s e, c.Framed s p ∧ (unsent a).isEmpty = true) :
    Replaying c s j (Activation.listener c s { a with journal := next } e) := by
  obtain ⟨hstage, hqueued, hframed⟩ := h
  rw [Activation.listener]
  rcases hheard : c.heard s e with _ | p
  · exact ⟨hstage, hqueued.unheard happend hheard, hframed⟩
  · have hnext := hqueued.heard happend hheard
    obtain ⟨hp, hunsent⟩ := hquiet p hheard
    dsimp only
    by_cases hon : a.replaying = true
    · rw [if_pos hon]
      have hwaiting := waiting_buffered (c := c) (s := s) next p hstage hon
      refine ⟨?_, ?_, fun q hq => ?_⟩
      · rw [OnStage] at hstage ⊢
        exact hstage
      · rw [hwaiting, ← List.append_assoc]
        exact hnext
      · rw [hwaiting, List.mem_append, List.mem_singleton] at hq
        rcases hq with hold | rfl
        · exact hframed q hold
        · exact hp
    · obtain ⟨frame, hframe⟩ := isOk_iff.mp hp
      rw [if_neg hon, hframe]
      dsimp only
      have hempty : a.waiting c s = [] := by
        rw [OnStage] at hstage
        rw [unsent] at hunsent
        rw [Activation.waiting]
        rcases hphase : a.phase with (error | events | snapshot) | _ | rest | rest | _ | _ <;>
          rw [hphase] at hstage hunsent <;> dsimp only at hstage hunsent ⊢
        · exact (hon hstage.1).elim
        · exact (hon hstage.1).elim
        · exact List.isEmpty_iff.mp hunsent
      rw [hempty, List.append_nil] at hnext
      refine ⟨?_, ?_, hframed⟩
      · rw [OnStage] at hstage ⊢
        dsimp only
        rcases hphase : a.phase with (error | events | snapshot) | _ | rest | rest | _ | _ <;>
          rw [hphase] at hstage <;> dsimp only at hstage ⊢
        · exact (hon hstage.1).elim
        · exact (hon hstage.1).elim
        · exact hstage
        · exact hstage
      change Queued c s j next ((a.admitted ++ [p]) ++ a.waiting c s)
      rw [hempty, List.append_nil]
      exact hnext

theorem step_replaying (h : Replaying c s j a) {i : Activation.Input ν}
    (hquiet : Undisturbed c s a i) : Replaying c s j (a.step c s i) := by
  cases i with
  | append event payload =>
    rw [Activation.step]
    rcases happend : a.journal.append event payload with error | ⟨e, next⟩
    · exact h
    · exact listener_replaying h happend (hquiet (e, next) (by rw [happend]; rfl))
  | handOff =>
    rw [Activation.step, handOff_replaying h]
    exact h
  | settle => exact settle_replaying h

theorem run_replaying (h : Replaying c s j a) {inputs : List (Activation.Input ν)}
    (hquiet : Runs.Meets (Activation.step c s) (Undisturbed c s) a inputs) :
    Replaying c s j (a.run c s inputs) := by
  have hstep : ∀ (a : Activation ν) (i : Activation.Input ν), Replaying c s j a →
      Undisturbed c s a i → Replaying c s j (a.step c s i) :=
    fun _ _ ha hi => step_replaying ha hi
  exact Runs.invariant_of_meets (I := Replaying c s j) hstep h hquiet

theorem start_replaying (hj : j.Recorded) {provided : Checked ResyncSnapshot}
    {events : List (OrderedEvent ν)}
    (hreplay : j.replay provided s.fromRevision = .ok (.events events))
    (hframed : ∀ e ∈ events, ∀ p, c.replayed s e = some p → c.Framed s p) :
    Replaying c s j (Activation.start s j provided) := by
  have hevents := replay_answered hreplay
  have hwaiting : (Activation.start s j provided).waiting c s = events.filterMap (c.replayed s) := by
    rw [Activation.waiting, Activation.start, hreplay]
    exact List.append_nil _
  obtain ⟨gone, hgone⟩ := hj.held
  have hnumbered := hj.numbered
  have hcurrent := hj.current
  have hincreasing : events.Pairwise fun p q => p.revision < q.revision := by
    rw [hgone] at hnumbered
    rw [hevents]
    exact hnumbered.split.2.increasing.filter _
  have hbounded : ∀ e ∈ j.appended, e.revision ≤ j.nextRevision := by
    intro e he
    have hbounds := hnumbered.bounds he
    omega
  refine ⟨?_, ?_, ?_⟩
  · rw [OnStage, Activation.start, hreplay]
    exact ⟨rfl, fun r hr => by cases hr⟩
  · rw [hwaiting]
    refine ⟨pairwise_filterMap (fun e p => Connection.replayed_revision) hincreasing,
      fun p hp => ?_, fun e hdue hfrom p hp => ?_⟩
    · obtain ⟨e, he, hsome⟩ := List.mem_filterMap.mp hp
      rw [Connection.replayed_revision hsome]
      rw [hevents] at he
      refine hbounded e ?_
      rw [hgone]
      exact List.mem_append_right _ (List.mem_of_mem_filter he)
    · refine List.mem_filterMap.mpr ⟨e, ?_, Connection.heard_replayed hp⟩
      rcases hdue with hheld | ⟨hmem, hlt⟩
      · rw [hevents]
        exact List.mem_filter.mpr ⟨hheld, decide_eq_true hfrom⟩
      · have hle := hbounded e hmem
        exact absurd hlt (Nat.not_lt.mpr hle)
  · intro p hp
    rw [hwaiting] at hp
    obtain ⟨e, he, hsome⟩ := List.mem_filterMap.mp hp
    exact hframed e he p hsome

theorem replaying_returns (h : Replaying c s j a) : Returns c s a := by
  obtain ⟨hstage, -, hframed⟩ := h
  refine returns_step (i := .settle) trivial ?_
  rw [OnStage] at hstage
  rw [Activation.waiting] at hframed
  rw [Activation.step, Activation.settle]
  rcases hphase : a.phase with (error | events | snapshot) | _ | rest | rest | _ | _ <;>
    rw [hphase] at hstage hframed <;> dsimp only at hstage hframed ⊢
  · exact replayLoop_returns hframed
  · exact replayLoop_returns hframed
  · exact drain_returns hframed
  · exact ⟨[], (fun i hi => by cases hi), hphase⟩

variable (c s j) in
/-- The frames of a subscription go out in the order of their revisions, and once the activation
has returned each event owed to it went out once. -/
structure Delivers (a : Activation ν) : Prop where
  increasing : a.admitted.Pairwise fun p q => p.revision < q.revision
  once : a.phase = .returned → ∀ e, Due j a.journal e → s.fromRevision < e.revision →
    ∀ p, c.heard s e = some p → a.admitted.filter (fun q => q.revision = e.revision) = [p]

theorem replaying_delivers (h : Replaying c s j a) : Delivers c s j a := by
  obtain ⟨-, hqueued, -⟩ := h
  refine ⟨(List.pairwise_append.mp hqueued.increasing).1, fun hphase e hdue hfrom p hp => ?_⟩
  rw [Activation.waiting, hphase] at hqueued
  dsimp only at hqueued
  rw [List.append_nil] at hqueued
  exact hqueued.once hdue hfrom hp

/-- A subscription whose replay is at hand delivers every event once and in order, and its
activation returns, in every run in which nothing is appended for it between the switch to live
events and the last of the buffered ones. -/
theorem subscription_runs {j₀ : OrderedEventJournal ν} {maxEvents initialRevision : ℤ}
    {initialCursor : Option Str} {snapshot : Bool}
    (hcreate : OrderedEventJournal.create maxEvents initialRevision initialCursor snapshot = .ok j₀)
    (earlier : List (OrderedEventJournal.Input ν)) {provided : Checked ResyncSnapshot}
    {events : List (OrderedEvent ν)}
    (hreplay : (j₀.run earlier).replay provided s.fromRevision = .ok (.events events))
    (hframed : ∀ e ∈ events, ∀ p, c.replayed s e = some p → c.Framed s p)
    (inputs : List (Activation.Input ν))
    (hquiet : Runs.Meets (Activation.step c s) (Undisturbed c s)
      (Activation.start s (j₀.run earlier) provided) inputs) :
    Delivers c s (j₀.run earlier)
        ((Activation.start s (j₀.run earlier) provided).run c s inputs) ∧
      Returns c s ((Activation.start s (j₀.run earlier) provided).run c s inputs) := by
  have hj := run_recorded (create_recorded hcreate) earlier
  have hrun := run_replaying (start_replaying hj hreplay hframed) hquiet
  exact ⟨replaying_delivers hrun, replaying_returns hrun⟩

def openJournal : OrderedEventJournal ℤ :=
  { maxEvents := 1
    maxEvents_pos := by decide
    hasSnapshot := false
    events := []
    nextRevision := 0
    currentCursor := js "0"
    firstRevision := 0
    appended := [] }

def openConnection : Connection ℤ :=
  { limits := noLimits
    connectionId := js "connection"
    clientId := none
    readsNothing := false
    canReadBotEvents := true
    clientCapabilities := [js "events.resync"]
    projectEvent := some
    keepsRevision := fun e p h => by cases h; rfl }

def everyEvent : Subscription ℤ := ⟨js "all", none, none, 0⟩

def changed : Activation.Input ℤ := .append (js "changed") .null

def providedNone : Checked ResyncSnapshot := .error (js "no snapshot")

theorem subscription_runs_buffered :
    Delivers openConnection everyEvent openJournal
      ((Activation.start everyEvent openJournal providedNone).run openConnection everyEvent
        [changed, .settle, .settle, changed, .settle]) := by
  have hcreate : OrderedEventJournal.create 1 0 none false = .ok openJournal := rfl
  have hreplay : (openJournal.run []).replay providedNone everyEvent.fromRevision =
      .ok (.events []) := rfl
  exact (subscription_runs hcreate [] hreplay (fun e he => by cases he)
    [changed, .settle, .settle, changed, .settle] (by decide +kernel)).1

/-- The third event goes out while the second one still waits in the buffer. -/
theorem buffered_overtaken : ¬ Delivers openConnection everyEvent openJournal
    ((Activation.start everyEvent openJournal providedNone).run openConnection everyEvent
      [changed, changed, .settle, changed, .settle, .settle]) := by
  have hrevisions : ((Activation.start everyEvent openJournal providedNone).run openConnection
      everyEvent [changed, changed, .settle, changed, .settle, .settle]).admitted.map
      (fun p => p.revision) = [1, 3, 2] := by decide +kernel
  intro h
  have hincreasing := List.pairwise_map.mpr h.increasing
  rw [hrevisions] at hincreasing
  revert hincreasing
  decide

end Replaying

end Terminay.Protocol
