import Terminay.Protocol.EventDelivery

/-!
# The activation of an event subscription

Three producers feed a subscription: the loop over the replay, the loop over
what the listener buffered meanwhile, and the listener itself, once `replaying`
is off. Each loop waits for the pump between two frames; the flag goes off before
the buffered events have been sent. Where the journal asks for a resynchronization
its marker is sent first, and of what was buffered only terminal output follows.
-/

namespace Terminay.Protocol
open Script Workspace Outcome

variable {ν : Type} [Engine ν]

/-- Where `activateEventSubscription` waits. -/
inductive Phase (ν : Type) where
  | starting (replay : Checked (EventReplay ν))
  | marking
  | replaying (rest : List (OrderedEvent ν))
  | draining (rest : List (OrderedEvent ν))
  | returned
  | failed

structure Activation (ν : Type) where
  journal : OrderedEventJournal ν
  phase : Phase ν
  replaying : Bool
  pending : List (OrderedEvent ν)
  replayedRevisions : List ℕ
  admitted : List (OrderedEvent ν)
  handedAt : Option ℕ

namespace Activation

variable (c : Connection ν) (s : Subscription ν)

def start (journal : OrderedEventJournal ν) (provided : Checked ResyncSnapshot) :
    Activation ν :=
  { journal := journal
    phase := .starting (journal.replay provided s.fromRevision)
    replaying := true
    pending := []
    replayedRevisions := []
    admitted := []
    handedAt := none }

def sendEvent (a : Activation ν) (event : OrderedEvent ν) (next : Phase ν) : Activation ν :=
  match c.eventFrame s event with
  | .ok _ => { a with admitted := a.admitted ++ [event], phase := next }
  | .error _ => { a with phase := .failed }

def drain (a : Activation ν) : List (OrderedEvent ν) → Activation ν
  | [] => { a with phase := .returned }
  | value :: rest => sendEvent c s a value (.draining rest)

def unreplayed (a : Activation ν) : List (OrderedEvent ν) :=
  a.pending.filter fun value =>
    isTerminalOutput value ||
      (decide (s.fromRevision < value.revision) && !a.replayedRevisions.contains value.revision)

def replayLoop (a : Activation ν) : List (OrderedEvent ν) → Activation ν
  | [] => drain c s { a with replaying := false } (unreplayed s a)
  | value :: rest =>
    match c.replayed s value with
    | none => replayLoop a rest
    | some projected =>
      sendEvent c s { a with replayedRevisions := projected.revision :: a.replayedRevisions }
        projected (.replaying rest)

def afterMarker (a : Activation ν) : Activation ν :=
  drain c s { a with replaying := false } (a.pending.filter isTerminalOutput)

def settle (a : Activation ν) : Activation ν :=
  match a.phase with
  | .starting (.error _) => { a with phase := .failed }
  | .starting (.ok (.events events)) => replayLoop c s a events
  | .starting (.ok (.resync snapshot)) =>
    if c.has "events.resync" = true then
      match c.resyncFrame s snapshot with
      | .ok _ => { a with phase := .marking }
      | .error _ => { a with phase := .failed }
    else afterMarker c s a
  | .marking => if a.handedAt.isSome then afterMarker c s a else a
  | .replaying rest => replayLoop c s a rest
  | .draining rest => drain c s a rest
  | .returned => a
  | .failed => a

def handOff (a : Activation ν) : Activation ν :=
  match a.phase with
  | .marking => { a with handedAt := a.handedAt.or (some a.journal.nextRevision) }
  | _ => a

def listener (a : Activation ν) (value : OrderedEvent ν) : Activation ν :=
  match c.heard s value with
  | none => a
  | some projected =>
    if a.replaying = true then { a with pending := a.pending ++ [projected] }
    else
      match c.eventFrame s projected with
      | .ok _ => { a with admitted := a.admitted ++ [projected] }
      | .error _ => a

inductive Input (ν : Type) where
  | append (event : Str) (payload : Json ν)
  | handOff
  | settle

def step (a : Activation ν) : Input ν → Activation ν
  | .append event payload =>
    match a.journal.append event payload with
    | .ok (e, journal) => listener c s { a with journal := journal } e
    | .error _ => a
  | .handOff => handOff a
  | .settle => settle c s a

def run (a : Activation ν) (inputs : List (Input ν)) : Activation ν :=
  Runs.after (step c s) a inputs

def waiting (a : Activation ν) : List (OrderedEvent ν) :=
  match a.phase with
  | .starting (.ok (.events events)) => events.filterMap (c.replayed s) ++ a.pending
  | .starting _ => a.pending.filter isTerminalOutput
  | .marking => a.pending.filter isTerminalOutput
  | .replaying rest => rest.filterMap (c.replayed s) ++ a.pending
  | .draining rest => rest
  | .returned => []
  | .failed => []

end Activation

section Frames

variable (c : Connection ν) (s : Subscription ν)

def Connection.Framed (event : OrderedEvent ν) : Prop := isOk (c.eventFrame s event) = true

instance (event : OrderedEvent ν) : Decidable (c.Framed s event) :=
  inferInstanceAs (Decidable (_ = true))

variable {c} {s} {a : Activation ν}

theorem sendEvent_framed {event : OrderedEvent ν} (h : c.Framed s event) (next : Phase ν) :
    Activation.sendEvent c s a event next =
      { a with admitted := a.admitted ++ [event], phase := next } := by
  obtain ⟨frame, hframe⟩ := isOk_iff.mp h
  rw [Activation.sendEvent, hframe]

theorem drain_framed {rest : List (OrderedEvent ν)} (h : ∀ p ∈ rest, c.Framed s p) :
    ((a.drain c s rest).phase = .returned ∨ ∃ later, (a.drain c s rest).phase = .draining later) ∧
      (a.drain c s rest).admitted ++ (a.drain c s rest).waiting c s = a.admitted ++ rest ∧
      (a.drain c s rest).replaying = a.replaying ∧ (a.drain c s rest).journal = a.journal ∧
      (a.drain c s rest).handedAt = a.handedAt ∧
      ∀ p ∈ (a.drain c s rest).waiting c s, p ∈ rest := by
  cases rest with
  | nil => exact ⟨.inl rfl, rfl, rfl, rfl, rfl, fun p hp => hp⟩
  | cons value rest =>
    rw [Activation.drain, sendEvent_framed (h value List.mem_cons_self)]
    refine ⟨.inr ⟨rest, rfl⟩, ?_, rfl, rfl, rfl, fun p hp => List.mem_cons_of_mem _ hp⟩
    exact List.append_assoc _ _ _

end Frames

section Queue

variable (c : Connection ν) (s : Subscription ν) (j : OrderedEventJournal ν)

def Due (journal : OrderedEventJournal ν) (e : OrderedEvent ν) : Prop :=
  e ∈ j.events ∨ e ∈ journal.appended ∧ j.nextRevision < e.revision

structure Queued (journal : OrderedEventJournal ν) (queue : List (OrderedEvent ν)) : Prop where
  increasing : queue.Pairwise fun p q => p.revision < q.revision
  bounded : ∀ p ∈ queue, p.revision ≤ journal.nextRevision
  covered : ∀ e, Due j journal e → s.fromRevision < e.revision →
    ∀ p, c.heard s e = some p → p ∈ queue

variable {c} {s} {j} {journal next : OrderedEventJournal ν} {queue : List (OrderedEvent ν)}
variable {e p : OrderedEvent ν}

section

omit [Engine ν]

theorem pairwise_filterMap {events : List (OrderedEvent ν)}
    {f : OrderedEvent ν → Option (OrderedEvent ν)}
    (hf : ∀ e p, f e = some p → p.revision = e.revision)
    (h : events.Pairwise fun p q => p.revision < q.revision) :
    (events.filterMap f).Pairwise fun p q => p.revision < q.revision := by
  rw [List.pairwise_filterMap]
  refine h.imp fun hlt p hp q hq => ?_
  rw [hf _ _ hp, hf _ _ hq]
  exact hlt

theorem append_shape {event : Str} {payload : Json ν}
    (h : journal.append event payload = .ok (e, next)) :
    e.revision = journal.nextRevision + 1 ∧ next.nextRevision = e.revision ∧
      next.appended = journal.appended ++ [e] := by
  simp only [OrderedEventJournal.append, bind_ok, pure_ok] at h
  obtain ⟨-, -, -, -, heq⟩ := h
  cases heq
  exact ⟨rfl, rfl, rfl⟩

theorem due_append (hafter : next.appended = journal.appended ++ [e]) {d : OrderedEvent ν}
    (h : Due j next d) : Due j journal d ∨ d = e := by
  rcases h with hheld | ⟨hmem, hlt⟩
  · exact .inl (.inl hheld)
  · rw [hafter, List.mem_append, List.mem_singleton] at hmem
    rcases hmem with hold | rfl
    · exact .inl (.inr ⟨hold, hlt⟩)
    · exact .inr rfl

end

theorem Queued.unheard (h : Queued c s j journal queue) {event : Str} {payload : Json ν}
    (happend : journal.append event payload = .ok (e, next)) (hheard : c.heard s e = none) :
    Queued c s j next queue := by
  obtain ⟨hrevision, hnext, hafter⟩ := append_shape happend
  refine ⟨h.increasing, fun p hp => ?_, fun d hdue hfrom p hp => ?_⟩
  · have hle := h.bounded p hp
    omega
  · rcases due_append hafter hdue with hold | rfl
    · exact h.covered d hold hfrom p hp
    · rw [hheard] at hp
      cases hp

theorem Queued.heard (h : Queued c s j journal queue) {event : Str} {payload : Json ν}
    (happend : journal.append event payload = .ok (e, next)) (hheard : c.heard s e = some p) :
    Queued c s j next (queue ++ [p]) := by
  obtain ⟨hrevision, hnext, hafter⟩ := append_shape happend
  have hp : p.revision = e.revision := Connection.replayed_revision (Connection.heard_replayed hheard)
  refine ⟨?_, fun q hq => ?_, fun d hdue hfrom q hq => ?_⟩
  · rw [List.pairwise_append]
    refine ⟨h.increasing, List.pairwise_singleton _ _, fun a ha b hb => ?_⟩
    rw [List.mem_singleton] at hb
    have hle := h.bounded a ha
    rw [hb]
    omega
  · rcases List.mem_append.mp hq with hold | hnew
    · have hle := h.bounded q hold
      omega
    · rw [List.mem_singleton] at hnew
      rw [hnew]
      omega
  · rcases due_append hafter hdue with hold | rfl
    · exact List.mem_append_left _ (h.covered d hold hfrom q hq)
    · rw [hheard] at hq
      cases hq
      exact List.mem_append_right _ List.mem_cons_self

theorem Queued.unreplayed {a : Activation ν}
    (h : Queued c s j journal (a.admitted ++ a.pending))
    (hsent : ∀ r ∈ a.replayedRevisions, ∃ q ∈ a.admitted, q.revision = r) :
    Queued c s j journal (a.admitted ++ a.unreplayed s) := by
  have hsub : (a.admitted ++ a.unreplayed s).Sublist (a.admitted ++ a.pending) :=
    List.Sublist.append_left List.filter_sublist _
  refine ⟨h.increasing.sublist hsub, fun p hp => h.bounded p (hsub.subset hp),
    fun d hdue hfrom p hp => ?_⟩
  rcases List.mem_append.mp (h.covered d hdue hfrom p hp) with hsent' | hpending
  · exact List.mem_append_left _ hsent'
  · refine List.mem_append_right _ (List.mem_filter.mpr ⟨hpending, ?_⟩)
    have hrevision := Connection.replayed_revision (Connection.heard_replayed hp)
    have hnot : p.revision ∉ a.replayedRevisions := by
      intro hmem
      obtain ⟨q, hq, heq⟩ := hsent _ hmem
      have hlt := (List.pairwise_append.mp h.increasing).2.2 q hq p hpending
      omega
    have hasked : s.fromRevision < p.revision := by omega
    simp only [hasked, decide_true, Bool.true_and, List.contains_eq_mem, hnot, decide_false,
      Bool.not_false, Bool.or_true]

theorem Queued.once (h : Queued c s j journal queue) (hdue : Due j journal e)
    (hfrom : s.fromRevision < e.revision) (hheard : c.heard s e = some p) :
    queue.filter (fun q => q.revision = e.revision) = [p] := by
  have hmem := h.covered e hdue hfrom p hheard
  have hp := Connection.replayed_revision (Connection.heard_replayed hheard)
  obtain ⟨before, after, rfl⟩ := List.append_of_mem hmem
  obtain ⟨-, hlater, hearlier⟩ := List.pairwise_append.mp h.increasing
  have hbefore : before.filter (fun q => decide (q.revision = e.revision)) = [] := by
    refine List.filter_eq_nil_iff.mpr fun q hq => ?_
    have hlt := hearlier q hq p List.mem_cons_self
    rw [decide_eq_true_eq]
    omega
  have hafter : after.filter (fun q => decide (q.revision = e.revision)) = [] := by
    refine List.filter_eq_nil_iff.mpr fun q hq => ?_
    have hlt := (List.pairwise_cons.mp hlater).1 q hq
    rw [decide_eq_true_eq]
    omega
  rw [List.filter_append, hbefore, List.filter_cons, hafter, if_pos (decide_eq_true hp)]
  rfl

end Queue

section Returning

variable (c : Connection ν) (s : Subscription ν)

def Activation.Input.Completes : Activation.Input ν → Prop
  | .append _ _ => False
  | .handOff | .settle => True

def Returns (a : Activation ν) : Prop :=
  ∃ inputs : List (Activation.Input ν), (∀ i ∈ inputs, i.Completes) ∧
    (a.run c s inputs).phase = .returned

variable {c} {s} {a : Activation ν}

theorem returns_step {i : Activation.Input ν} (hi : i.Completes) (h : Returns c s (a.step c s i)) :
    Returns c s a := by
  obtain ⟨inputs, hinputs, hphase⟩ := h
  refine ⟨i :: inputs, fun k hk => ?_, hphase⟩
  rcases List.mem_cons.mp hk with rfl | hrest
  · exact hi
  · exact hinputs k hrest

theorem drain_returns {rest : List (OrderedEvent ν)} (hframed : ∀ p ∈ rest, c.Framed s p) :
    Returns c s (a.drain c s rest) := by
  induction rest generalizing a with
  | nil => exact ⟨[], (fun i hi => by cases hi), rfl⟩
  | cons value rest ih =>
    rw [Activation.drain, sendEvent_framed (hframed value List.mem_cons_self)]
    have hlater := fun p hp => hframed p (List.mem_cons_of_mem value hp)
    exact returns_step (i := .settle) trivial (ih hlater)

theorem replayLoop_returns {rest : List (OrderedEvent ν)}
    (hframed : ∀ p ∈ rest.filterMap (c.replayed s) ++ a.pending, c.Framed s p) :
    Returns c s (a.replayLoop c s rest) := by
  induction rest generalizing a with
  | nil =>
    rw [Activation.replayLoop]
    exact drain_returns fun p hp => hframed p (List.mem_of_mem_filter hp)
  | cons value rest ih =>
    rw [Activation.replayLoop]
    rcases hvalue : c.replayed s value with _ | projected
    · rw [List.filterMap_cons_none hvalue] at hframed
      exact ih hframed
    · rw [List.filterMap_cons_some hvalue] at hframed
      dsimp only
      rw [sendEvent_framed (hframed projected List.mem_cons_self)]
      have hlater := fun p hp => hframed p (List.mem_cons_of_mem projected hp)
      exact returns_step (i := .settle) trivial (ih hlater)

end Returning

end Terminay.Protocol
