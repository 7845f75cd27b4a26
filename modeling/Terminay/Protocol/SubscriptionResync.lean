import Terminay.Protocol.SubscriptionReplay

/-!
# What a subscription is told where it has to resynchronize

A client that reads the marker refreshes from a state that has everything appended before the
transport took the marker.
-/

namespace Terminay.Protocol
open Script Workspace Outcome

variable {ν : Type} [Engine ν]

section Resyncing

variable (c : Connection ν) (s : Subscription ν) (j : OrderedEventJournal ν)

def Unmarked (a : Activation ν) : Prop :=
  match a.phase with
  | .starting _ | .marking => a.handedAt = none
  | _ => False

/-- An event appended since is sent or about to be, or the marker comes after it. -/
def Told (a : Activation ν) : Prop :=
  ∀ e ∈ a.journal.appended, j.nextRevision < e.revision → ∀ p, c.heard s e = some p →
    p ∈ a.admitted ∨ p ∈ a.waiting c s ∨ Unmarked a ∨ ∃ r ∈ a.handedAt, e.revision ≤ r

def OnResync (a : Activation ν) : Prop :=
  match a.phase with
  | .starting (.ok (.resync snapshot)) =>
    a.replaying = true ∧ a.handedAt = none ∧ isOk (c.resyncFrame s snapshot) = true
  | .marking => a.replaying = true
  | .draining _ | .returned => a.replaying = false
  | _ => False

structure Resyncing (a : Activation ν) : Prop where
  stage : OnResync c s a
  recorded : a.journal.Recorded
  told : Told c s j a
  framed : ∀ p ∈ a.waiting c s, c.Framed s p

def marked (a : Activation ν) : Bool :=
  match a.phase with
  | .marking => a.handedAt.isSome
  | _ => false

/-- Every event heard can be framed, and between the marker's hand-off and its completion only
terminal output is appended. -/
def Unbroken (a : Activation ν) : Activation.Input ν → Prop
  | .append event payload => ∀ appended ∈ (a.journal.append event payload).toOption,
      ∀ p ∈ c.heard s appended.1, c.Framed s p ∧ (marked a = true → isTerminalOutput p = true)
  | _ => True

instance (a : Activation ν) : (i : Activation.Input ν) → Decidable (Unbroken c s a i)
  | .append event payload => inferInstanceAs (Decidable
      (∀ appended ∈ (a.journal.append event payload).toOption,
        ∀ p ∈ c.heard s appended.1,
          c.Framed s p ∧ (marked a = true → isTerminalOutput p = true)))
  | .handOff => .isTrue trivial
  | .settle => .isTrue trivial

variable {c} {s} {j} {a : Activation ν}

theorem drain_resyncing {rest : List (OrderedEvent ν)} (hoff : a.replaying = false)
    (hj : a.journal.Recorded) (hframed : ∀ p ∈ rest, c.Framed s p)
    (htold : ∀ e ∈ a.journal.appended, j.nextRevision < e.revision → ∀ p, c.heard s e = some p →
      p ∈ a.admitted ++ rest ∨ ∃ r ∈ a.handedAt, e.revision ≤ r) :
    Resyncing c s j (a.drain c s rest) := by
  obtain ⟨hphase, hqueue, hflag, hjournal, hhanded, hwaiting⟩ := drain_framed (a := a) hframed
  refine ⟨?_, ?_, ?_, fun p hp => hframed p (hwaiting p hp)⟩
  · rw [OnResync]
    rcases hphase with h | ⟨later, h⟩ <;>
    · rw [h]
      exact hflag.trans hoff
  · rw [hjournal]
    exact hj
  · intro e he hlater p hp
    rw [hjournal] at he
    rw [hhanded]
    rcases htold e he hlater p hp with hmem | hbefore
    · rw [← hqueue, List.mem_append] at hmem
      rcases hmem with hsent | hwaits
      · exact .inl hsent
      · exact .inr (.inl hwaits)
    · exact .inr (.inr (.inr hbefore))

theorem settle_resyncing (hhas : c.has "events.resync" = true) (h : Resyncing c s j a) :
    Resyncing c s j (a.settle c s) := by
  obtain ⟨hstage, hj, htold, hframed⟩ := h
  rw [OnResync] at hstage
  rw [Told, Activation.waiting, Unmarked] at htold
  rw [Activation.waiting] at hframed
  rw [Activation.settle]
  rcases hphase : a.phase with (error | events | snapshot) | _ | rest | rest | _ | _ <;>
    rw [hphase] at hstage htold hframed <;> dsimp only at hstage htold hframed ⊢
  · obtain ⟨frame, hframe⟩ := isOk_iff.mp hstage.2.2
    rw [if_pos hhas, hframe]
    exact ⟨hstage.1, hj, htold, hframed⟩
  · by_cases hhanded : a.handedAt.isSome = true
    · rw [if_pos hhanded]
      refine drain_resyncing rfl hj hframed fun e he hlater p hp => ?_
      rcases htold e he hlater p hp with hsent | hwaits | hnone | hbefore
      · exact .inl (List.mem_append_left _ hsent)
      · exact .inl (List.mem_append_right _ hwaits)
      · rw [hnone] at hhanded
        cases hhanded
      · exact .inr hbefore
    · rw [if_neg hhanded]
      refine ⟨?_, hj, ?_, ?_⟩
      · rw [OnResync, hphase]
        exact hstage
      · rw [Told, Activation.waiting, Unmarked, hphase]
        exact htold
      · rw [Activation.waiting, hphase]
        exact hframed
  · refine drain_resyncing hstage hj hframed fun e he hlater p hp => ?_
    rcases htold e he hlater p hp with hsent | hwaits | hnone | hbefore
    · exact .inl (List.mem_append_left _ hsent)
    · exact .inl (List.mem_append_right _ hwaits)
    · exact hnone.elim
    · exact .inr hbefore
  · refine ⟨?_, hj, ?_, ?_⟩
    · rw [OnResync, hphase]
      exact hstage
    · rw [Told, Activation.waiting, Unmarked, hphase]
      exact htold
    · rw [Activation.waiting, hphase]
      exact hframed

/-- Whatever was appended before the transport takes the marker is behind it. -/
theorem handOff_resyncing (h : Resyncing c s j a) : Resyncing c s j a.handOff := by
  rw [Activation.handOff]
  rcases hphase : a.phase with (error | events | snapshot) | _ | rest | rest | _ | _ <;> dsimp only
  case marking =>
    obtain ⟨hstage, hj, htold, hframed⟩ := h
    rw [OnResync] at hstage
    rw [Told, Activation.waiting, Unmarked] at htold
    rw [Activation.waiting] at hframed
    rw [hphase] at hstage htold hframed
    refine ⟨?_, hj, ?_, ?_⟩
    · rw [OnResync]
      exact hstage
    · intro e he hlater p hp
      rcases htold e he hlater p hp with hsent | hwaits | hnone | ⟨r, hr, hle⟩
      · exact .inl hsent
      · exact .inr (.inl hwaits)
      · have hbounds := hj.numbered.bounds he
        have hcurrent := hj.current
        refine .inr (.inr (.inr ⟨a.journal.nextRevision, ?_, by omega⟩))
        change a.handedAt.or (some a.journal.nextRevision) = some a.journal.nextRevision
        rw [hnone]
        rfl
      · refine .inr (.inr (.inr ⟨r, ?_, hle⟩))
        change a.handedAt.or (some a.journal.nextRevision) = some r
        rw [Option.mem_def.mp hr]
        rfl
    · exact hframed
  all_goals exact h

theorem listener_resyncing (h : Resyncing c s j a) {event : Str} {payload : Json ν}
    {e : OrderedEvent ν} {next : OrderedEventJournal ν}
    (happend : a.journal.append event payload = .ok (e, next))
    (hunbroken : ∀ p ∈ c.heard s e,
      c.Framed s p ∧ (marked a = true → isTerminalOutput p = true)) :
    Resyncing c s j (Activation.listener c s { a with journal := next } e) := by
  obtain ⟨hstage, hj, htold, hframed⟩ := h
  obtain ⟨-, -, hafter⟩ := append_shape happend
  have hnext := append_recorded hj happend
  rw [Activation.listener]
  rcases hheard : c.heard s e with _ | p
  · refine ⟨hstage, hnext, fun d hd hlater q hq => ?_, hframed⟩
    change d ∈ next.appended at hd
    rw [hafter, List.mem_append, List.mem_singleton] at hd
    rcases hd with hold | rfl
    · exact htold d hold hlater q hq
    · rw [hheard] at hq
      cases hq
  · obtain ⟨hp, hterminal⟩ := hunbroken p hheard
    obtain ⟨frame, hframe⟩ := isOk_iff.mp hp
    rw [OnResync] at hstage
    rw [Told, Activation.waiting, Unmarked] at htold
    rw [Activation.waiting] at hframed
    rw [marked] at hterminal
    dsimp only
    rcases hphase : a.phase with (error | events | snapshot) | _ | rest | rest | _ | _ <;>
      rw [hphase] at hstage htold hframed hterminal <;>
      dsimp only at hstage htold hframed hterminal
    case starting.ok.resync =>
      rw [if_pos hstage.1]
      refine ⟨?_, hnext, ?_, ?_⟩
      · rw [OnResync]
        exact hstage
      · exact fun _ _ _ _ _ => .inr (.inr (.inl hstage.2.1))
      · intro q hq
        rcases List.mem_append.mp (List.mem_of_mem_filter hq) with hold | hnew
        · exact hframed q (List.mem_filter.mpr ⟨hold, List.of_mem_filter hq⟩)
        · rw [List.mem_singleton.mp hnew]
          exact hp
    case marking =>
      rw [if_pos hstage]
      refine ⟨?_, hnext, fun d hd hlater q hq => ?_, ?_⟩
      · rw [OnResync]
        exact hstage
      · change d ∈ next.appended at hd
        rw [hafter, List.mem_append, List.mem_singleton] at hd
        rcases hd with hold | rfl
        · rcases htold d hold hlater q hq with hsent | hwaits | hnone | hbefore
          · exact .inl hsent
          · obtain ⟨hbuffered, hout⟩ := List.mem_filter.mp hwaits
            exact .inr (.inl (List.mem_filter.mpr ⟨List.mem_append_left _ hbuffered, hout⟩))
          · exact .inr (.inr (.inl hnone))
          · exact .inr (.inr (.inr hbefore))
        · rw [hheard] at hq
          cases hq
          rcases hhanded : a.handedAt with _ | r
          · exact .inr (.inr (.inl rfl))
          · have hout := hterminal (by rw [hhanded]; rfl)
            exact .inr (.inl (List.mem_filter.mpr
              ⟨List.mem_append_right _ List.mem_cons_self, hout⟩))
      · intro q hq
        rcases List.mem_append.mp (List.mem_of_mem_filter hq) with hold | hnew
        · exact hframed q (List.mem_filter.mpr ⟨hold, List.of_mem_filter hq⟩)
        · rw [List.mem_singleton.mp hnew]
          exact hp
    all_goals
      rw [if_neg (by rw [hstage]; exact Bool.false_ne_true), hframe]
      refine ⟨?_, hnext, fun d hd hlater q hq => ?_, ?_⟩
      · rw [OnResync]
        exact hstage
      · change d ∈ next.appended at hd
        rw [hafter, List.mem_append, List.mem_singleton] at hd
        rcases hd with hold | rfl
        · rcases htold d hold hlater q hq with hsent | hwaits | hnone | hbefore
          · exact .inl (List.mem_append_left _ hsent)
          · exact .inr (.inl hwaits)
          · exact hnone.elim
          · exact .inr (.inr (.inr hbefore))
        · rw [hheard] at hq
          cases hq
          exact .inl (List.mem_append_right _ List.mem_cons_self)
      · exact hframed

theorem step_resyncing (hhas : c.has "events.resync" = true) (h : Resyncing c s j a)
    {i : Activation.Input ν} (hunbroken : Unbroken c s a i) : Resyncing c s j (a.step c s i) := by
  cases i with
  | append event payload =>
    rw [Activation.step]
    rcases happend : a.journal.append event payload with error | ⟨e, next⟩
    · exact h
    · exact listener_resyncing h happend (hunbroken (e, next) (by rw [happend]; rfl))
  | handOff => exact handOff_resyncing h
  | settle => exact settle_resyncing hhas h

theorem start_resyncing (hj : j.Recorded) {provided : Checked ResyncSnapshot}
    {snapshot : Option ResyncSnapshot}
    (hreplay : j.replay provided s.fromRevision = .ok (.resync snapshot))
    (hmarker : isOk (c.resyncFrame s snapshot) = true) :
    Resyncing c s j (Activation.start s j provided) := by
  refine ⟨?_, hj, fun e he hlater p hp => ?_, fun p hp => ?_⟩
  · rw [OnResync, Activation.start, hreplay]
    exact ⟨rfl, rfl, hmarker⟩
  · have hbounds := hj.numbered.bounds he
    have hcurrent := hj.current
    omega
  · rw [Activation.waiting, Activation.start, hreplay] at hp
    cases hp

theorem resyncing_returns (hhas : c.has "events.resync" = true) (h : Resyncing c s j a) :
    Returns c s a := by
  have hmarking : ∀ {b : Activation ν}, Resyncing c s j b → b.phase = .marking →
      Returns c s b := by
    intro b hb hphase
    have hhanded := handOff_resyncing hb
    have hsome : b.handOff.handedAt.isSome = true := by
      rw [Activation.handOff, hphase]
      cases hat : b.handedAt <;> rfl
    have hstill : b.handOff.phase = .marking := by
      rw [Activation.handOff, hphase]
    refine returns_step (i := .handOff) trivial (returns_step (i := .settle) trivial ?_)
    rw [Activation.step, Activation.step, Activation.settle, hstill]
    dsimp only
    rw [if_pos hsome]
    refine drain_returns fun p hp => hhanded.framed p ?_
    rw [Activation.waiting, hstill]
    exact hp
  have hsettled := settle_resyncing hhas h
  have hstage := h.stage
  have hframed := h.framed
  rw [OnResync] at hstage
  rw [Activation.waiting] at hframed
  rcases hphase : a.phase with (error | events | snapshot) | _ | rest | rest | _ | _ <;>
    rw [hphase] at hstage hframed <;> dsimp only at hstage hframed
  · refine returns_step (i := .settle) trivial (hmarking hsettled ?_)
    obtain ⟨frame, hframe⟩ := isOk_iff.mp hstage.2.2
    rw [Activation.step, Activation.settle, hphase]
    dsimp only
    rw [if_pos hhas, hframe]
  · exact hmarking h hphase
  · refine returns_step (i := .settle) trivial ?_
    rw [Activation.step, Activation.settle, hphase]
    exact drain_returns hframed
  · exact ⟨[], (fun i hi => by cases hi), hphase⟩

/-- A subscription that has to resynchronize is told of every event appended since, or the marker
comes after it, in every run in which only terminal output is appended for it while the marker is
on its way. -/
theorem resync_runs {command : Json ν} (hsubscribed : c.validateEventSubscription command = .ok s)
    {j₀ : OrderedEventJournal ν} {maxEvents initialRevision : ℤ} {initialCursor : Option Str}
    {provides : Bool}
    (hcreate : OrderedEventJournal.create maxEvents initialRevision initialCursor provides = .ok j₀)
    (earlier : List (OrderedEventJournal.Input ν)) {provided : Checked ResyncSnapshot}
    {snapshot : Option ResyncSnapshot}
    (hreplay : (j₀.run earlier).replay provided s.fromRevision = .ok (.resync snapshot))
    (hmarker : isOk (c.resyncFrame s snapshot) = true) (inputs : List (Activation.Input ν))
    (hunbroken : Runs.Meets (Activation.step c s) (Unbroken c s)
      (Activation.start s (j₀.run earlier) provided) inputs) :
    Told c s (j₀.run earlier) ((Activation.start s (j₀.run earlier) provided).run c s inputs) ∧
      Returns c s ((Activation.start s (j₀.run earlier) provided).run c s inputs) := by
  have hhas := Connection.subscribed_has hsubscribed
  have hj := run_recorded (create_recorded hcreate) earlier
  have hstep : ∀ (a : Activation ν) (i : Activation.Input ν), Resyncing c s (j₀.run earlier) a →
      Unbroken c s a i → Resyncing c s (j₀.run earlier) (a.step c s i) :=
    fun _ _ ha hi => step_resyncing hhas ha hi
  have hrun := Runs.invariant_of_meets (I := Resyncing c s (j₀.run earlier)) hstep
    (start_resyncing hj hreplay hmarker) hunbroken
  exact ⟨hrun.told, resyncing_returns hhas hrun⟩

def subscribeCommand : Json ℤ := .obj [(js "subscriptionId", .str (js "all"))]

def changedTwice : List (OrderedEventJournal.Input ℤ) :=
  [.append (js "changed") .null, .append (js "changed") .null]

theorem resync_runs_marked :
    Told openConnection everyEvent (openJournal.run changedTwice)
      ((Activation.start everyEvent (openJournal.run changedTwice) providedNone).run openConnection
        everyEvent [.settle, changed, .handOff, .settle, changed]) := by
  have hsubscribed : openConnection.validateEventSubscription subscribeCommand = .ok everyEvent :=
    rfl
  have hcreate : OrderedEventJournal.create 1 0 none false = .ok openJournal := rfl
  have hreplay : (openJournal.run changedTwice).replay providedNone everyEvent.fromRevision =
      .ok (.resync none) := rfl
  exact (resync_runs hsubscribed hcreate changedTwice hreplay (by decide +kernel)
    [.settle, changed, .handOff, .settle, changed] (by decide +kernel)).1

def markedRun : Activation ℤ :=
  (Activation.start everyEvent (openJournal.run changedTwice) providedNone).run openConnection
    everyEvent [.settle, .handOff, changed, .settle]

/-- The transport has the marker when the event is appended, and the buffer is thrown away. -/
theorem marked_dropped :
    ¬ Told openConnection everyEvent (openJournal.run changedTwice) markedRun := by
  intro h
  have hlate : (markedRun.journal.appended.any fun e =>
      (openJournal.run changedTwice).nextRevision < e.revision ∧ 2 < e.revision ∧
        (openConnection.heard everyEvent e).isSome = true) = true := by decide +kernel
  obtain ⟨e, he, hwhen⟩ := List.any_eq_true.mp hlate
  obtain ⟨hlater, htwo, hsome⟩ := of_decide_eq_true hwhen
  obtain ⟨p, hp⟩ := Option.isSome_iff_exists.mp hsome
  have hempty : markedRun.admitted.isEmpty = true ∧
      (markedRun.waiting openConnection everyEvent).isEmpty = true ∧
      markedRun.handedAt = some 2 := by decide +kernel
  have hreturned : markedRun.phase = .returned := rfl
  rcases h e he hlater p hp with hsent | hwaits | hunmarked | ⟨r, hr, hle⟩
  · rw [List.isEmpty_iff.mp hempty.1] at hsent
    cases hsent
  · rw [List.isEmpty_iff.mp hempty.2.1] at hwaits
    cases hwaits
  · rw [Unmarked, hreturned] at hunmarked
    exact hunmarked
  · rw [hempty.2.2] at hr
    cases hr
    omega

end Resyncing

end Terminay.Protocol
