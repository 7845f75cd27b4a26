import Terminay.Protocol.SubscriptionReplay

/-!
# What a subscription lets through

The listener asks for the name, the address and the selector of an event, the replay only for its
name and its address.
-/

namespace Terminay.Protocol
open Script Workspace Outcome

variable {ν : Type} [Engine ν]

structure Audience (ν : Type) where
  activation : Activation ν
  transients : List (OrderedEvent ν)

namespace Audience

variable (c : Connection ν) (s : Subscription ν)

inductive Input (ν : Type) where
  | call (i : Activation.Input ν)
  | publishTransient (event : Str) (payload : Json ν) (body : Option Bytes)

def start (j : OrderedEventJournal ν) (provided : Checked ResyncSnapshot) : Audience ν :=
  ⟨Activation.start s j provided, []⟩

def step (a : Audience ν) : Input ν → Audience ν
  | .call i => { a with activation := a.activation.step c s i }
  | .publishTransient event payload body =>
    match a.activation.journal.publishTransient event payload body with
    | .ok value => ⟨Activation.listener c s a.activation value, a.transients ++ [value]⟩
    | .error _ => a

def run (a : Audience ν) (inputs : List (Input ν)) : Audience ν := Runs.after (step c s) a inputs

/-- Every event the subscription hears fits in a frame. -/
def Framing (a : Audience ν) : Input ν → Prop
  | .call (.append event payload) =>
    ∀ appended ∈ (a.activation.journal.append event payload).toOption,
      ∀ p ∈ c.heard s appended.1, c.Framed s p
  | .call .handOff | .call .settle => True
  | .publishTransient event payload body =>
    ∀ value ∈ (a.activation.journal.publishTransient event payload body).toOption,
      ∀ p ∈ c.heard s value, c.Framed s p

instance (a : Audience ν) : (i : Input ν) → Decidable (Framing c s a i)
  | .call (.append event payload) => inferInstanceAs (Decidable
      (∀ appended ∈ (a.activation.journal.append event payload).toOption,
        ∀ p ∈ c.heard s appended.1, c.Framed s p))
  | .call .handOff => .isTrue trivial
  | .call .settle => .isTrue trivial
  | .publishTransient event payload body => inferInstanceAs (Decidable
      (∀ value ∈ (a.activation.journal.publishTransient event payload body).toOption,
        ∀ p ∈ c.heard s value, c.Framed s p))

end Audience

namespace Activation

variable (c : Connection ν) (s : Subscription ν)

def sending (a : Activation ν) : List (OrderedEvent ν) :=
  match a.phase with
  | .starting (.ok (.events rest)) | .replaying rest => rest.filterMap (c.replayed s)
  | .draining rest => rest
  | _ => []

def buffered (a : Activation ν) : List (OrderedEvent ν) :=
  match a.phase with
  | .starting (.ok (.events _)) | .replaying _ => a.pending
  | _ => []

def Staged (a : Activation ν) : Prop :=
  match a.phase with
  | .starting (.ok (.events _)) | .replaying _ => a.replaying = true
  | .draining _ | .returned => a.replaying = false
  | _ => False

end Activation

section Sifting

variable (c : Connection ν) (s : Subscription ν) (j : OrderedEventJournal ν)
  (events : List (OrderedEvent ν))

structure Content (journal : OrderedEventJournal ν) (transients out buffered : List (OrderedEvent ν)) :
    Prop where
  reached : j.nextRevision ≤ journal.nextRevision
  kept : ∀ e ∈ j.appended, e ∈ journal.appended ++ transients
  extended : ∀ e ∈ journal.appended, e ∈ j.appended ∨ j.nextRevision < e.revision
  replays : ∀ p ∈ events.filterMap (c.replayed s), p ∈ out
  later : ∀ e ∈ journal.appended, j.nextRevision < e.revision → s.fromRevision < e.revision →
    ∀ p, c.heard s e = some p → p ∈ out ++ buffered
  origin : ∀ p ∈ out ++ buffered, p ∈ events.filterMap (c.replayed s) ∨
    ∃ e ∈ journal.appended ++ transients, c.heard s e = some p

structure Published (journal next : OrderedEventJournal ν) (transients more : List (OrderedEvent ν))
    (value : OrderedEvent ν) : Prop where
  reached : journal.nextRevision ≤ next.nextRevision
  held : ∀ e ∈ journal.appended ++ transients, e ∈ next.appended ++ more
  added : value ∈ next.appended ++ more
  fresh : ∀ e ∈ next.appended, e ∈ journal.appended ∨ e = value ∧ journal.nextRevision < e.revision

structure Sifting (a : Audience ν) : Prop where
  stage : a.activation.Staged
  framed : ∀ p ∈ a.activation.sending c s ++ a.activation.buffered, c.Framed s p
  early : a.activation.replaying = true → ∀ p ∈ a.activation.sending c s, p.revision ≤ j.nextRevision
  replayed : ∀ r ∈ a.activation.replayedRevisions, r ≤ j.nextRevision
  content : Content c s j events a.activation.journal a.transients
    (a.activation.admitted ++ a.activation.sending c s) a.activation.buffered

variable {c} {s} {j} {events} {a : Activation ν} {journal : OrderedEventJournal ν}
  {transients out buffered : List (OrderedEvent ν)}

theorem Content.unreplayed (h : Content c s j events journal transients out a.pending)
    (hreplayed : ∀ r ∈ a.replayedRevisions, r ≤ j.nextRevision) :
    Content c s j events journal transients (out ++ a.unreplayed s) [] where
  reached := h.reached
  kept := h.kept
  extended := h.extended
  replays p hp := List.mem_append_left _ (h.replays p hp)
  later e he hlater hfrom p hp := by
    rw [List.append_nil]
    rcases List.mem_append.mp (h.later e he hlater hfrom p hp) with hout | hpending
    · exact List.mem_append_left _ hout
    · have hrevision := Connection.replayed_revision (Connection.heard_replayed hp)
      have hnot : p.revision ∉ a.replayedRevisions := by
        intro hmem
        have hle := hreplayed _ hmem
        omega
      have hasked : s.fromRevision < p.revision := by omega
      refine List.mem_append_right _ (List.mem_filter.mpr ⟨hpending, ?_⟩)
      simp only [hasked, decide_true, Bool.true_and, List.contains_eq_mem, hnot, decide_false,
        Bool.not_false, Bool.or_true]
  origin p hp := by
    rw [List.append_nil] at hp
    refine h.origin p ?_
    rcases List.mem_append.mp hp with hout | hkept
    · exact List.mem_append_left _ hout
    · exact List.mem_append_right _ (List.mem_of_mem_filter hkept)

omit [Engine ν] in
theorem sending_returned (h : a.phase = .returned) : a.sending c s = [] := by
  rw [Activation.sending, h]

omit [Engine ν] in
theorem buffered_returned (h : a.phase = .returned) : a.buffered = [] := by
  rw [Activation.buffered, h]

theorem drain_sifting {rest : List (OrderedEvent ν)} (hoff : a.replaying = false)
    (hframed : ∀ p ∈ rest, c.Framed s p) (hreplayed : ∀ r ∈ a.replayedRevisions, r ≤ j.nextRevision)
    (hcontent : Content c s j events a.journal transients (a.admitted ++ rest) []) :
    Sifting c s j events ⟨a.drain c s rest, transients⟩ := by
  cases rest with
  | nil => exact ⟨hoff, nofun, fun _ => nofun, hreplayed, hcontent⟩
  | cons value rest =>
    rw [Activation.drain, sendEvent_framed (hframed value List.mem_cons_self)]
    refine ⟨hoff, fun p hp => ?_, fun hon => ?_, hreplayed, ?_⟩
    · rw [Activation.buffered, List.append_nil] at hp
      exact hframed p (List.mem_cons_of_mem _ hp)
    · rw [show a.replaying = true from hon] at hoff
      cases hoff
    · rw [List.append_cons] at hcontent
      exact hcontent

theorem replayLoop_sifting {rest : List (OrderedEvent ν)} (hon : a.replaying = true)
    (hframed : ∀ p ∈ rest.filterMap (c.replayed s) ++ a.pending, c.Framed s p)
    (hearly : ∀ p ∈ rest.filterMap (c.replayed s), p.revision ≤ j.nextRevision)
    (hreplayed : ∀ r ∈ a.replayedRevisions, r ≤ j.nextRevision)
    (hcontent : Content c s j events a.journal transients
      (a.admitted ++ rest.filterMap (c.replayed s)) a.pending) :
    Sifting c s j events ⟨a.replayLoop c s rest, transients⟩ := by
  induction rest with
  | nil =>
    rw [Activation.replayLoop]
    rw [List.filterMap_nil, List.append_nil] at hcontent
    refine drain_sifting rfl (fun p hp => ?_) hreplayed (hcontent.unreplayed hreplayed)
    exact hframed p (List.mem_of_mem_filter hp)
  | cons value rest ih =>
    rw [Activation.replayLoop]
    rcases hvalue : c.replayed s value with _ | projected
    · rw [List.filterMap_cons_none hvalue] at hframed hearly hcontent
      exact ih hframed hearly hcontent
    · rw [List.filterMap_cons_some hvalue] at hframed hearly hcontent
      dsimp only
      rw [sendEvent_framed (hframed projected List.mem_cons_self)]
      refine ⟨hon, fun p hp => hframed p (List.mem_cons_of_mem _ hp),
        fun _ p hp => hearly p (List.mem_cons_of_mem _ hp), fun r hr => ?_, ?_⟩
      · rcases List.mem_cons.mp hr with rfl | hold
        · exact hearly projected List.mem_cons_self
        · exact hreplayed r hold
      · rw [List.append_cons] at hcontent
        exact hcontent

theorem settle_sifting (h : Sifting c s j events ⟨a, transients⟩) :
    Sifting c s j events ⟨a.settle c s, transients⟩ := by
  obtain ⟨hstage, hframed, hearly, hreplayed, hcontent⟩ := h
  rw [Activation.Staged] at hstage
  rw [Activation.sending, Activation.buffered] at hframed hcontent
  rw [Activation.sending] at hearly
  rw [Activation.settle]
  rcases hphase : a.phase with (error | events | snapshot) | _ | rest | rest | _ | _ <;>
    rw [hphase] at hstage hframed hearly hcontent <;>
    dsimp only at hstage hframed hearly hcontent ⊢
  · exact replayLoop_sifting hstage hframed (hearly hstage) hreplayed hcontent
  · exact replayLoop_sifting hstage hframed (hearly hstage) hreplayed hcontent
  · rw [List.append_nil] at hframed
    exact drain_sifting hstage hframed hreplayed hcontent
  · refine ⟨?_, ?_, ?_, hreplayed, ?_⟩
    · rw [Activation.Staged, hphase]
      exact hstage
    · rw [Activation.sending, Activation.buffered, hphase]
      exact hframed
    · rw [Activation.sending, hphase]
      exact hearly
    · rw [Activation.sending, Activation.buffered, hphase]
      exact hcontent

theorem handOff_sifting (h : Sifting c s j events ⟨a, transients⟩) : a.handOff = a := by
  have hstage := h.stage
  rw [Activation.Staged] at hstage
  rw [Activation.handOff]
  rcases hphase : a.phase with (error | events | snapshot) | _ | rest | rest | _ | _ <;>
    rw [hphase] at hstage
  · exact hstage.elim

variable {next : OrderedEventJournal ν} {more out' buffered' : List (OrderedEvent ν)}
  {value p : OrderedEvent ν}

theorem Content.grow (h : Content c s j events journal transients out buffered)
    (hpublished : Published journal next transients more value)
    (hout : ∀ p ∈ out, p ∈ out') (hkept : ∀ p ∈ out ++ buffered, p ∈ out' ++ buffered')
    (hadded : ∀ p ∈ out' ++ buffered', p ∈ out ++ buffered ∨ c.heard s value = some p)
    (hheard : ∀ p, c.heard s value = some p → p ∈ out' ++ buffered') :
    Content c s j events next more out' buffered' where
  reached := h.reached.trans hpublished.reached
  kept e he := hpublished.held e (h.kept e he)
  extended e he := by
    rcases hpublished.fresh e he with hheld | ⟨-, hlater⟩
    · exact h.extended e hheld
    · exact .inr (lt_of_le_of_lt h.reached hlater)
  replays p hp := hout p (h.replays p hp)
  later e he hlater hfrom p hp := by
    rcases hpublished.fresh e he with hheld | ⟨rfl, -⟩
    · exact hkept p (h.later e hheld hlater hfrom p hp)
    · exact hheard p hp
  origin p hp := by
    rcases hadded p hp with hbefore | hnow
    · rcases h.origin p hbefore with hreplay | ⟨e, he, hsome⟩
      · exact .inl hreplay
      · exact .inr ⟨e, hpublished.held e he, hsome⟩
    · exact .inr ⟨value, hpublished.added, hnow⟩

theorem listener_on (h : Sifting c s j events ⟨a, transients⟩) (hon : a.replaying = true)
    (hpublished : Published a.journal next transients more value)
    (hheard : c.heard s value = some p) (hp : c.Framed s p) :
    Sifting c s j events ⟨{ a with journal := next, pending := a.pending ++ [p] }, more⟩ := by
  obtain ⟨hstage, hframed, hearly, hreplayed, hcontent⟩ := h
  have hsending : Activation.sending c s { a with journal := next, pending := a.pending ++ [p] } =
      a.sending c s := rfl
  have hbuffered : Activation.buffered { a with journal := next, pending := a.pending ++ [p] } =
      a.buffered ++ [p] := by
    rw [Activation.Staged] at hstage
    rw [Activation.buffered, Activation.buffered]
    dsimp only
    rcases hphase : a.phase with (error | events | snapshot) | _ | rest | rest | _ | _ <;>
      rw [hphase] at hstage <;> dsimp only at hstage ⊢
    · rw [hon] at hstage
      cases hstage
    · rw [hon] at hstage
      cases hstage
  refine ⟨hstage, fun q hq => ?_, hearly, hreplayed, ?_⟩
  · rw [hsending, hbuffered, ← List.append_assoc] at hq
    rcases List.mem_append.mp hq with hbefore | hlast
    · exact hframed q hbefore
    · rw [List.mem_singleton.mp hlast]
      exact hp
  · rw [hbuffered]
    refine hcontent.grow hpublished (fun q hq => hq) (fun q hq => ?_) (fun q hq => ?_)
      fun q hq => ?_
    · rw [← List.append_assoc]
      exact List.mem_append_left _ hq
    · rw [← List.append_assoc] at hq
      rcases List.mem_append.mp hq with hbefore | hlast
      · exact .inl hbefore
      · rw [List.mem_singleton.mp hlast]
        exact .inr hheard
    · rw [hheard] at hq
      cases hq
      rw [← List.append_assoc]
      exact List.mem_append_right _ List.mem_cons_self

theorem listener_off (h : Sifting c s j events ⟨a, transients⟩) (hoff : a.replaying = false)
    (hpublished : Published a.journal next transients more value)
    (hheard : c.heard s value = some p) :
    Sifting c s j events ⟨{ a with journal := next, admitted := a.admitted ++ [p] }, more⟩ := by
  obtain ⟨hstage, hframed, hearly, hreplayed, hcontent⟩ := h
  refine ⟨hstage, hframed, fun hon => ?_, hreplayed, ?_⟩
  · rw [show a.replaying = true from hon] at hoff
    cases hoff
  · have hmem : ∀ q, q ∈ (a.admitted ++ [p]) ++ a.sending c s ++ a.buffered ↔
        q ∈ a.admitted ++ a.sending c s ++ a.buffered ∨ q = p := by
      intro q
      simp only [List.mem_append, List.mem_singleton]
      tauto
    refine hcontent.grow hpublished (fun q hq => ?_) (fun q hq => (hmem q).mpr (.inl hq))
      (fun q hq => ?_) fun q hq => ?_
    · rcases List.mem_append.mp hq with hsent | hlater
      · exact List.mem_append_left _ (List.mem_append_left _ hsent)
      · exact List.mem_append_right _ hlater
    · rcases (hmem q).mp hq with hbefore | rfl
      · exact .inl hbefore
      · exact .inr hheard
    · rw [hheard] at hq
      cases hq
      exact (hmem p).mpr (.inr rfl)

theorem listener_sifting (h : Sifting c s j events ⟨a, transients⟩)
    (hpublished : Published a.journal next transients more value)
    (hframed : ∀ p ∈ c.heard s value, c.Framed s p) :
    Sifting c s j events ⟨Activation.listener c s { a with journal := next } value, more⟩ := by
  rw [Activation.listener]
  rcases hheard : c.heard s value with _ | p
  · refine ⟨h.stage, h.framed, h.early, h.replayed, ?_⟩
    exact h.content.grow hpublished (fun q hq => hq) (fun q hq => hq) (fun q hq => .inl hq)
      fun q hq => by rw [hheard] at hq; cases hq
  · have hp := hframed p hheard
    dsimp only
    by_cases hon : a.replaying = true
    · rw [if_pos hon]
      exact listener_on h hon hpublished hheard hp
    · obtain ⟨frame, hframe⟩ := isOk_iff.mp hp
      rw [if_neg hon, hframe]
      exact listener_off h (Bool.eq_false_iff.mpr hon) hpublished hheard

omit [Engine ν] in
theorem append_published {event : Str} {payload : Json ν}
    (h : journal.append event payload = .ok (value, next)) :
    Published journal next transients transients value := by
  obtain ⟨hrevision, hnext, hafter⟩ := append_shape h
  refine ⟨by omega, fun e he => ?_, ?_, fun e he => ?_⟩
  · rw [hafter]
    rcases List.mem_append.mp he with he | he
    · exact List.mem_append_left _ (List.mem_append_left _ he)
    · exact List.mem_append_right _ he
  · rw [hafter]
    exact List.mem_append_left _ (List.mem_append_right _ List.mem_cons_self)
  · rw [hafter, List.mem_append, List.mem_singleton] at he
    refine he.imp_right fun heq => ⟨heq, ?_⟩
    rw [heq]
    omega

omit [Engine ν] in
theorem transient_published : Published journal journal transients (transients ++ [value]) value := by
  refine ⟨le_refl _, fun e he => ?_, ?_, fun e he => .inl he⟩
  · rw [← List.append_assoc]
    exact List.mem_append_left _ he
  · rw [← List.append_assoc]
    exact List.mem_append_right _ List.mem_cons_self

theorem step_sifting {a : Audience ν} (h : Sifting c s j events a) {i : Audience.Input ν}
    (hframing : a.Framing c s i) : Sifting c s j events (a.step c s i) := by
  obtain ⟨a, transients⟩ := a
  cases i with
  | call i =>
    cases i with
    | append event payload =>
      rw [Audience.step, Activation.step]
      rcases happend : a.journal.append event payload with error | ⟨e, next⟩
      · exact h
      · have hframed := hframing (e, next) (by dsimp only; rw [happend]; rfl)
        exact listener_sifting h (append_published happend) hframed
    | handOff =>
      rw [Audience.step, Activation.step, handOff_sifting h]
      exact h
    | settle => exact settle_sifting h
  | publishTransient event payload body =>
    rw [Audience.step]
    rcases hpublish : a.journal.publishTransient event payload body with error | value
    · exact h
    · have hframed := hframing value (by dsimp only; rw [hpublish]; rfl)
      exact listener_sifting h transient_published hframed

theorem run_sifting {a : Audience ν} (h : Sifting c s j events a) {inputs : List (Audience.Input ν)}
    (hframing : Runs.Meets (Audience.step c s) (Audience.Framing c s) a inputs) :
    Sifting c s j events (a.run c s inputs) := by
  have hstep : ∀ (a : Audience ν) (i : Audience.Input ν), Sifting c s j events a →
      a.Framing c s i → Sifting c s j events (a.step c s i) := fun _ _ ha hi => step_sifting ha hi
  exact Runs.invariant_of_meets hstep h hframing

theorem start_sifting (hj : j.Recorded) {provided : Checked ResyncSnapshot}
    (hreplay : j.replay provided s.fromRevision = .ok (.events events))
    (hframed : ∀ e ∈ events, ∀ p, c.replayed s e = some p → c.Framed s p) :
    Sifting c s j events (Audience.start s j provided) := by
  have hevents := replay_answered hreplay
  have hbounded : ∀ e ∈ j.appended, e.revision ≤ j.nextRevision := by
    intro e he
    have hbounds := hj.numbered.bounds he
    have hcurrent := hj.current
    omega
  have hsending : (Activation.start s j provided).sending c s = events.filterMap (c.replayed s) := by
    rw [Activation.sending, Activation.start, hreplay]
  have hbuffered : (Activation.start s j provided).buffered = [] := by
    rw [Activation.buffered, Activation.start, hreplay]
  refine ⟨?_, fun p hp => ?_, fun _ p hp => ?_, (fun _ h => by cases h), ?_⟩
  · rw [Audience.start, Activation.Staged, Activation.start, hreplay]
  · rw [Audience.start, hsending, hbuffered, List.append_nil] at hp
    obtain ⟨e, he, hsome⟩ := List.mem_filterMap.mp hp
    exact hframed e he p hsome
  · rw [Audience.start, hsending] at hp
    obtain ⟨e, he, hsome⟩ := List.mem_filterMap.mp hp
    rw [Connection.replayed_revision hsome]
    rw [hevents] at he
    obtain ⟨gone, hgone⟩ := hj.held
    refine hbounded e ?_
    rw [hgone]
    exact List.mem_append_right _ (List.mem_of_mem_filter he)
  · rw [Audience.start, hsending, hbuffered]
    refine ⟨le_refl _, fun e he => List.mem_append_left _ he, fun e he => .inl he, fun p hp => hp,
      fun e he hlater => ?_, fun p hp => ?_⟩
    · have hle := hbounded e he
      exact absurd hlater (Nat.not_lt.mpr hle)
    · rw [List.append_nil] at hp
      exact .inl hp

variable (c s j) in
/-- What is delivered matches the name, the address and the selector of the subscription, and of
what matches everything is delivered, except what the journal no longer held. What comes after the
revision asked for does not depend on where the subscription began. -/
structure Sifts (a : Audience ν) : Prop where
  sound : ∀ p ∈ a.activation.admitted,
    ∃ e ∈ a.activation.journal.appended ++ a.transients, c.heard s e = some p
  complete : a.activation.phase = .returned → ∀ e ∈ a.activation.journal.appended,
    (e ∈ j.appended → e ∈ j.events) → s.fromRevision < e.revision →
      ∀ p, c.heard s e = some p → p ∈ a.activation.admitted
  anywhere : a.activation.phase = .returned → a.transients = [] →
    (∀ e ∈ j.appended, s.fromRevision < e.revision → e ∈ j.events) →
      ∀ p, s.fromRevision < p.revision →
        (p ∈ a.activation.admitted ↔ ∃ e ∈ a.activation.journal.appended, c.heard s e = some p)

theorem sifting_sifts {a : Audience ν} (h : Sifting c s j events a) (hj : j.Recorded)
    (hevents : events = j.events.filter fun e => s.fromRevision < e.revision)
    (hselected : ∀ e ∈ events, ∀ p, c.replayed s e = some p →
      matchesEventSelector p.payload s.selector = true) :
    Sifts c s j a := by
  have hcontent := h.content
  obtain ⟨gone, hgone⟩ := hj.held
  have sound : ∀ p ∈ a.activation.admitted,
      ∃ e ∈ a.activation.journal.appended ++ a.transients, c.heard s e = some p := by
    intro p hp
    rcases hcontent.origin p (List.mem_append_left _ (List.mem_append_left _ hp)) with hreplay | hheard
    · obtain ⟨e, he, hsome⟩ := List.mem_filterMap.mp hreplay
      refine ⟨e, hcontent.kept e ?_, ?_⟩
      · rw [hevents] at he
        rw [hgone]
        exact List.mem_append_right _ (List.mem_of_mem_filter he)
      · rw [Connection.heard, Option.filter_eq_some_iff]
        exact ⟨hsome, hselected e he p hsome⟩
    · exact hheard
  have complete : a.activation.phase = .returned → ∀ e ∈ a.activation.journal.appended,
      (e ∈ j.appended → e ∈ j.events) → s.fromRevision < e.revision →
        ∀ p, c.heard s e = some p → p ∈ a.activation.admitted := by
    intro hphase e he hheld hfrom p hp
    rw [sending_returned hphase, buffered_returned hphase, List.append_nil] at hcontent
    rcases hcontent.extended e he with hbefore | hlater
    · have hmem : e ∈ events := by
        rw [hevents]
        exact List.mem_filter.mpr ⟨hheld hbefore, decide_eq_true hfrom⟩
      have hreplay := List.mem_filterMap.mpr ⟨e, hmem, Connection.heard_replayed hp⟩
      exact hcontent.replays p hreplay
    · simpa only [List.append_nil] using hcontent.later e he hlater hfrom p hp
  refine ⟨sound, complete, fun hphase hquiet hheld p hfrom => ⟨fun hp => ?_, ?_⟩⟩
  · have hfound := sound p hp
    rwa [hquiet, List.append_nil] at hfound
  · rintro ⟨e, he, hp⟩
    have hrevision := Connection.replayed_revision (Connection.heard_replayed hp)
    have hasked : s.fromRevision < e.revision := by omega
    exact complete hphase e he (fun hbefore => hheld e hbefore hasked) hasked p hp

/-- Completions publish nothing beside the journal, and frame nothing new. -/
theorem run_completes {inputs : List (Activation.Input ν)} (h : ∀ i ∈ inputs, i.Completes)
    (a : Audience ν) :
    (a.run c s (inputs.map .call)) = ⟨a.activation.run c s inputs, a.transients⟩ ∧
      Runs.Meets (Audience.step c s) (Audience.Framing c s) a (inputs.map .call) := by
  induction inputs generalizing a with
  | nil => exact ⟨rfl, trivial⟩
  | cons i inputs ih =>
    obtain ⟨hrun, hmeets⟩ := ih (fun k hk => h k (List.mem_cons_of_mem _ hk)) (a.step c s (.call i))
    refine ⟨hrun, ?_, hmeets⟩
    have hi := h i List.mem_cons_self
    cases i with
    | append event payload => exact hi.elim
    | handOff => trivial
    | settle => trivial

/-- A subscription whose replay is at hand sifts what it delivers, over all runs, exactly when its
selector lets through everything that is replayed. -/
theorem subscription_sifts {j₀ : OrderedEventJournal ν} {maxEvents initialRevision : ℤ}
    {initialCursor : Option Str} {snapshot : Bool}
    (hcreate : OrderedEventJournal.create maxEvents initialRevision initialCursor snapshot = .ok j₀)
    (earlier : List (OrderedEventJournal.Input ν)) {provided : Checked ResyncSnapshot}
    (hreplay : (j₀.run earlier).replay provided s.fromRevision = .ok (.events events))
    (hframed : ∀ e ∈ events, ∀ p, c.replayed s e = some p → c.Framed s p) :
    (∀ inputs : List (Audience.Input ν), Runs.Meets (Audience.step c s) (Audience.Framing c s)
        (Audience.start s (j₀.run earlier) provided) inputs →
      Sifts c s (j₀.run earlier)
        ((Audience.start s (j₀.run earlier) provided).run c s inputs)) ↔
      ∀ e ∈ events, ∀ p, c.replayed s e = some p →
        matchesEventSelector p.payload s.selector = true := by
  have hj := run_recorded (create_recorded hcreate) earlier
  generalize j₀.run earlier = j at hj hreplay
  have hevents := replay_answered hreplay
  have hstart := start_sifting hj hreplay hframed
  constructor
  · intro hsifts e he p hp
    obtain ⟨inputs, hcompletes, hphase⟩ := replaying_returns (start_replaying hj hreplay hframed)
    obtain ⟨hrun, hmeets⟩ := run_completes (c := c) (s := s) hcompletes (Audience.start s j provided)
    have hsift := hsifts (inputs.map .call) hmeets
    have hcontent := (run_sifting hstart hmeets).content
    rw [hrun] at hsift hcontent
    have hreplayed := hcontent.replays p (List.mem_filterMap.mpr ⟨e, he, hp⟩)
    dsimp only at hreplayed
    rw [sending_returned (a := (Audience.start s j provided).activation.run c s inputs) hphase,
      List.append_nil] at hreplayed
    obtain ⟨d, hd, hheard⟩ := hsift.sound p hreplayed
    have hsame : d.revision = e.revision := by
      rw [← Connection.replayed_revision hp,
        Connection.replayed_revision (Connection.heard_replayed hheard)]
    obtain ⟨gone, hgone⟩ := hj.held
    have hmem : e ∈ j.appended := by
      rw [hevents] at he
      rw [hgone]
      exact List.mem_append_right _ (List.mem_of_mem_filter he)
    have hknown := hj.numbered.bounds hmem
    have hcurrent := hj.current
    -- nothing was published since, so it is the event the replay found
    have hold : d ∈ j.appended := by
      have hd' : d ∈ ((Audience.start s j provided).activation.run c s inputs).journal.appended := by
        simpa only [Audience.start, List.append_nil] using hd
      refine (hcontent.extended d hd').resolve_right fun hlater => ?_
      omega
    rw [hj.numbered.unique hold hmem hsame] at hheard
    rw [Connection.heard, Option.filter_eq_some_iff] at hheard
    exact hheard.2
  · intro hselected inputs hmeets
    exact sifting_sifts (run_sifting hstart hmeets) hj hevents hselected

def chosen : Subscription ℤ := ⟨js "chosen", none, some (.obj [(js "kind", .str (js "b"))]), 0⟩

def chosenEvent : Json ℤ := .obj [(js "kind", .str (js "b"))]

theorem subscription_sifts_chosen :
    Sifts openConnection chosen (openJournal.run [.append (js "changed") chosenEvent])
      ((Audience.start chosen (openJournal.run [.append (js "changed") chosenEvent])
          providedNone).run openConnection chosen
        [.call (.append (js "changed") .null), .call .settle,
          .publishTransient (js "changed") chosenEvent none, .call .settle, .call .settle]) := by
  have hcreate : OrderedEventJournal.create 1 0 none false = .ok openJournal := rfl
  have hreplay : (openJournal.run [.append (js "changed") chosenEvent]).replay providedNone
      chosen.fromRevision = .ok (.events [⟨1, natText 1, js "changed", chosenEvent, none⟩]) := rfl
  exact (subscription_sifts hcreate [.append (js "changed") chosenEvent] hreplay
    (by decide +kernel)).mpr (by decide +kernel) _ (by decide +kernel)

def unselected : Audience ℤ :=
  (Audience.start chosen (openJournal.run [.append (js "changed") .null]) providedNone).run
    openConnection chosen [.call .settle, .call (.append (js "changed") .null), .call .settle]

/-- The replay delivers the first of them, the listener passes over the second. -/
theorem unselected_replayed :
    ¬ Sifts openConnection chosen (openJournal.run [.append (js "changed") .null]) unselected := by
  have hadmitted : unselected.activation.admitted.map (fun p => p.revision) = [1] := by
    decide +kernel
  have hunheard : ∀ e ∈ unselected.activation.journal.appended ++ unselected.transients,
      (openConnection.heard chosen e).isNone = true := by decide +kernel
  intro hsifts
  obtain ⟨p, hp⟩ := List.exists_mem_of_length_pos (l := unselected.activation.admitted) (by
    rw [← List.length_map (fun p => p.revision), hadmitted]
    decide)
  obtain ⟨e, he, hheard⟩ := hsifts.sound p hp
  have hnone := hunheard e he
  rw [hheard] at hnone
  cases hnone

end Sifting

end Terminay.Protocol
