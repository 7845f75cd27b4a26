import Terminay.Activity.Reducer

/-!
# What a reader of the reducer has been told

Every operation is a sequence of moves: a session is rewritten where no reader sees it, published,
registered, fenced or removed.
-/

namespace Terminay.Activity
open Script

def Unseen (a b : MutableSession) : Prop := stateOf (snapshotOf a) = stateOf (snapshotOf b)

instance (a b : MutableSession) : Decidable (Unseen a b) := by
  unfold Unseen
  infer_instance

section Log

namespace Announcement

def sessionId : Announcement → Str
  | .registered snapshot => snapshot.sessionId
  | .published event => event.sessionId

def event : Announcement → Option ActivityEvent
  | .registered _ => none
  | .published event => some event

def changeOf (sessionId : Str) : Announcement → Option TerminalActivitySessionSnapshot
  | .registered _ => none
  | .published event => if event.sessionId = sessionId then event.snapshot else none

def registrationOf (sessionId : Str) : Announcement → Option TerminalActivitySessionSnapshot
  | .registered snapshot => if snapshot.sessionId = sessionId then some snapshot else none
  | .published _ => none

end Announcement

def lastSnapshot (log : List Announcement) (sessionId : Str) :
    Option TerminalActivitySessionSnapshot :=
  (log.filterMap (Announcement.changeOf sessionId)).getLast?.or
    (log.filterMap (Announcement.registrationOf sessionId)).getLast?

variable {log : List Announcement} {a : Announcement} {id : Str}

theorem changeOf_other (h : a.sessionId ≠ id) : a.changeOf id = none := by
  cases a with
  | registered snapshot => rfl
  | published event => exact if_neg h

theorem registrationOf_other (h : a.sessionId ≠ id) : a.registrationOf id = none := by
  cases a with
  | registered snapshot => exact if_neg h
  | published event => rfl

theorem lastSnapshot_other (h : a.sessionId ≠ id) :
    lastSnapshot (log ++ [a]) id = lastSnapshot log id := by
  have hchange : [a].filterMap (Announcement.changeOf id) = [] := by
    rw [List.filterMap_cons_none (changeOf_other h)]
    rfl
  have hregistration : [a].filterMap (Announcement.registrationOf id) = [] := by
    rw [List.filterMap_cons_none (registrationOf_other h)]
    rfl
  rw [lastSnapshot, List.filterMap_append, List.filterMap_append, hchange, hregistration,
    List.append_nil, List.append_nil]
  rfl

theorem lastSnapshot_changed {event : ActivityEvent} {snapshot : TerminalActivitySessionSnapshot}
    (hid : event.sessionId = id) (hsnapshot : event.snapshot = some snapshot) :
    lastSnapshot (log ++ [.published event]) id = some snapshot := by
  have hchange : [Announcement.published event].filterMap (Announcement.changeOf id) =
      [snapshot] := by
    simp [Announcement.changeOf, hid, hsnapshot]
  rw [lastSnapshot, List.filterMap_append, hchange, List.getLast?_concat]
  rfl

theorem lastSnapshot_registered {snapshot : TerminalActivitySessionSnapshot}
    (hid : snapshot.sessionId = id) (hfresh : ∀ b ∈ log, b.sessionId ≠ id) :
    lastSnapshot (log ++ [.registered snapshot]) id = some snapshot := by
  have hchange : (log ++ [Announcement.registered snapshot]).filterMap
      (Announcement.changeOf id) = [] := by
    refine List.filterMap_eq_nil_iff.mpr fun b hb => ?_
    rcases List.mem_append.mp hb with hb | hb
    · exact changeOf_other (hfresh b hb)
    · rw [List.mem_singleton.mp hb]
      rfl
  have hregistration : [Announcement.registered snapshot].filterMap
      (Announcement.registrationOf id) = [snapshot] := by
    simp [Announcement.registrationOf, hid]
  rw [lastSnapshot, hchange, List.filterMap_append, hregistration, List.getLast?_concat]
  rfl

theorem lastSnapshot_mem {snapshot : TerminalActivitySessionSnapshot}
    (h : lastSnapshot log id = some snapshot) : ∃ b ∈ log, b.sessionId = id := by
  by_contra hnone
  have hfresh : ∀ b ∈ log, b.sessionId ≠ id := fun b hb heq => hnone ⟨b, hb, heq⟩
  have hchange : log.filterMap (Announcement.changeOf id) = [] :=
    List.filterMap_eq_nil_iff.mpr fun b hb => changeOf_other (hfresh b hb)
  have hregistration : log.filterMap (Announcement.registrationOf id) = [] :=
    List.filterMap_eq_nil_iff.mpr fun b hb => registrationOf_other (hfresh b hb)
  rw [lastSnapshot, hchange, hregistration] at h
  cases h

end Log

namespace TerminalActivityReducer

def published (r : TerminalActivityReducer) : List ActivityEvent :=
  r.log.filterMap Announcement.event

end TerminalActivityReducer

/-- What an operation does to the reducer, one move at a time. -/
inductive Move (options : ReducerOptions) :
    TerminalActivityReducer → TerminalActivityReducer → Prop
  | quiet {r : TerminalActivityReducer} {id : Str} {old new : MutableSession}
      (hold : r.get id = some old) (hnew : Unseen old new) : Move options r (r.put id new)
  | publish {r : TerminalActivityReducer} {id : Str} {old new : MutableSession}
      (hold : r.get id = some old) (hnew : new.sessionId = id) :
      Move options r ((r.put id new).record options
        (TerminalActivityReducer.changed (r.currentRevision + 1) id (snapshotOf new)))
  | add {r : TerminalActivityReducer} {session : MutableSession}
      (hfree : r.get session.sessionId = none) (hlive : session.sessionId ∉ r.exited) :
      Move options r (r.add session)
  | fence {r : TerminalActivityReducer} {id : Str} (hfree : r.get id = none) :
      Move options r { r with exited := r.exited ++ [id] }
  | remove {r : TerminalActivityReducer} {id : Str} {old : MutableSession}
      (hold : r.get id = some old) :
      Move options r (({ r with
        exited := r.exited ++ [id]
        sessionsById := Entries.delete r.sessionsById id }).record options
          (TerminalActivityReducer.removed (r.currentRevision + 1) id))

def Moves (options : ReducerOptions) :
    TerminalActivityReducer → TerminalActivityReducer → Prop :=
  Relation.ReflTransGen (Move options)

/-- The last snapshot announced for a live session is the session, and the events are those of the
history, numbered one by one. -/
structure Followed (options : ReducerOptions) (r : TerminalActivityReducer) : Prop where
  distinct : (Entries.keys r.sessionsById).Nodup
  named : ∀ (id : Str) (session : MutableSession), r.get id = some session → session.sessionId = id
  gone : ∀ id ∈ r.exited, r.get id = none
  known : ∀ a ∈ r.log, r.get a.sessionId ≠ none ∨ a.sessionId ∈ r.exited
  current : ∀ (id : Str) (session : MutableSession), r.get id = some session →
    ∃ snapshot, lastSnapshot r.log id = some snapshot ∧
      stateOf snapshot = stateOf (snapshotOf session)
  kept : r.events = Journal.keep options.maxEvents r.published
  numbered : Journal.Numbered ActivityEvent.revision options.initialRevision r.published
  count : r.currentRevision = options.initialRevision + r.published.length

section Moves

variable {options : ReducerOptions} {r r' : TerminalActivityReducer} {id : Str}
  {old new : MutableSession}

theorem get_put_self (h : Followed options r) (id : Str) (new : MutableSession) :
    (r.put id new).get id = some new :=
  Entries.get_set_self h.distinct id new

theorem get_put_other (h : Followed options r) {a : Str} (hne : a ≠ id) (new : MutableSession) :
    (r.put id new).get a = r.get a :=
  Entries.get_set_other h.distinct hne new

theorem known_put (h : Followed options r) (new : MutableSession) :
    ∀ a ∈ r.log, (r.put id new).get a.sessionId ≠ none ∨ a.sessionId ∈ r.exited := by
  intro a ha
  by_cases heq : a.sessionId = id
  · rw [heq, get_put_self h]
    exact .inl (Option.some_ne_none new)
  · rw [get_put_other h heq]
    exact h.known a ha

theorem named_put (h : Followed options r) (hnew : new.sessionId = id) :
    ∀ (a : Str) (session : MutableSession), (r.put id new).get a = some session →
      session.sessionId = a := by
  intro a session ha
  by_cases heq : a = id
  · rw [heq, get_put_self h] at ha
    cases ha
    rw [hnew, heq]
  · rw [get_put_other h heq] at ha
    exact h.named a session ha

theorem gone_put (h : Followed options r) (hlive : id ∉ r.exited) (new : MutableSession) :
    ∀ a ∈ r.exited, (r.put id new).get a = none := by
  intro a ha
  have hne : a ≠ id := fun heq => hlive (heq ▸ ha)
  rw [get_put_other h hne]
  exact h.gone a ha

theorem Followed.not_exited (h : Followed options r) (hold : r.get id = some old) :
    id ∉ r.exited := by
  intro hid
  rw [h.gone id hid] at hold
  cases hold

theorem unseen_sessionId (h : Unseen old new) : new.sessionId = old.sessionId :=
  (congrArg TerminalActivitySessionSnapshot.sessionId h).symm

theorem record_published (r : TerminalActivityReducer) (event : ActivityEvent) :
    (r.record options event).published = r.published ++ [event] := by
  rw [TerminalActivityReducer.published, TerminalActivityReducer.record, List.filterMap_append]
  rfl

theorem add_published (r : TerminalActivityReducer) (session : MutableSession) :
    (r.add session).published = r.published := by
  rw [TerminalActivityReducer.published, TerminalActivityReducer.add, List.filterMap_append]
  exact List.append_nil _

theorem Followed.initial (options : ReducerOptions) : Followed options (.initial options) where
  distinct := List.nodup_nil
  named id session h := by cases h
  gone id h := by cases h
  known a h := by cases h
  current id session h := by cases h
  kept := by simp [TerminalActivityReducer.initial, TerminalActivityReducer.published, Journal.keep]
  numbered := Journal.numbered_nil
  count := rfl

theorem Followed.quiet (h : Followed options r) (hold : r.get id = some old)
    (hnew : Unseen old new) : Followed options (r.put id new) where
  distinct := Entries.keys_set_nodup h.distinct id new
  named := named_put h ((unseen_sessionId hnew).trans (h.named id old hold))
  gone := gone_put h (h.not_exited hold) new
  known := known_put h new
  current := by
    intro a session ha
    by_cases heq : a = id
    · obtain ⟨snapshot, hlast, hsame⟩ := h.current id old hold
      rw [heq, get_put_self h] at ha
      cases ha
      exact ⟨snapshot, heq ▸ hlast, hsame.trans hnew⟩
    · rw [get_put_other h heq] at ha
      exact h.current a session ha
  kept := h.kept
  numbered := h.numbered
  count := h.count

theorem Followed.record_history (h : Followed options r) (event : ActivityEvent)
    (hevent : event.revision = r.currentRevision + 1) :
    (r.record options event).events =
        Journal.keep options.maxEvents (r.record options event).published ∧
      Journal.Numbered ActivityEvent.revision options.initialRevision
        (r.record options event).published ∧
      (r.record options event).currentRevision =
        options.initialRevision + (r.record options event).published.length := by
  rw [record_published]
  refine ⟨?_, h.numbered.concat (by rw [hevent, h.count]), ?_⟩
  · rw [TerminalActivityReducer.record, h.kept]
    exact Journal.record_keep _ _ _
  · rw [List.length_append, List.length_singleton, ← Nat.add_assoc, ← h.count]
    exact hevent

theorem known_concat {get : Str → Option MutableSession} {exited : List Str}
    {log : List Announcement} {a : Announcement}
    (hlog : ∀ b ∈ log, get b.sessionId ≠ none ∨ b.sessionId ∈ exited)
    (ha : get a.sessionId ≠ none ∨ a.sessionId ∈ exited) :
    ∀ b ∈ log ++ [a], get b.sessionId ≠ none ∨ b.sessionId ∈ exited := by
  intro b hb
  rcases List.mem_append.mp hb with hb | hb
  · exact hlog b hb
  · rw [List.mem_singleton.mp hb]
    exact ha

theorem Followed.publish (h : Followed options r) (hold : r.get id = some old)
    (hnew : new.sessionId = id) :
    Followed options ((r.put id new).record options
      (TerminalActivityReducer.changed (r.currentRevision + 1) id (snapshotOf new))) := by
  have hself := get_put_self h id new
  obtain ⟨hkept, hnumbered, hcount⟩ := h.record_history
    (TerminalActivityReducer.changed (r.currentRevision + 1) id (snapshotOf new)) rfl
  constructor
  case distinct => exact Entries.keys_set_nodup h.distinct id new
  case named => exact named_put h hnew
  case gone => exact gone_put h (h.not_exited hold) new
  case known =>
    refine known_concat (known_put h new) (.inl fun hnone => ?_)
    exact Option.some_ne_none new (hself.symm.trans hnone)
  case current =>
    intro a session ha
    have hput : (r.put id new).get a = some session := ha
    by_cases heq : a = id
    · rw [heq, hself] at hput
      cases hput
      exact ⟨snapshotOf new, lastSnapshot_changed heq.symm rfl, rfl⟩
    · rw [get_put_other h heq] at hput
      obtain ⟨snapshot, hlast, hsame⟩ := h.current a session hput
      exact ⟨snapshot, (lastSnapshot_other (Ne.symm heq)).trans hlast, hsame⟩
  case kept => exact hkept
  case numbered => exact hnumbered
  case count => exact hcount

theorem Followed.fresh (h : Followed options r) (hfree : r.get id = none) (hlive : id ∉ r.exited) :
    ∀ a ∈ r.log, a.sessionId ≠ id := by
  intro a ha heq
  rcases h.known a ha with hknown | hknown
  · exact hknown (heq ▸ hfree)
  · exact hlive (heq ▸ hknown)

theorem Followed.add {session : MutableSession} (h : Followed options r)
    (hfree : r.get session.sessionId = none) (hlive : session.sessionId ∉ r.exited) :
    Followed options (r.add session) := by
  have hself := get_put_self h session.sessionId session
  constructor
  case distinct => exact Entries.keys_set_nodup h.distinct session.sessionId session
  case named => exact named_put h rfl
  case gone => exact gone_put h hlive session
  case known =>
    refine known_concat (known_put h session) (.inl fun hnone => ?_)
    exact Option.some_ne_none session (hself.symm.trans hnone)
  case current =>
    intro a found ha
    have hput : (r.put session.sessionId session).get a = some found := ha
    by_cases heq : a = session.sessionId
    · rw [heq, hself] at hput
      cases hput
      exact ⟨snapshotOf session, lastSnapshot_registered heq.symm
        (heq ▸ h.fresh hfree hlive), rfl⟩
    · rw [get_put_other h heq] at hput
      obtain ⟨snapshot, hlast, hsame⟩ := h.current a found hput
      exact ⟨snapshot, (lastSnapshot_other (Ne.symm heq)).trans hlast, hsame⟩
  case kept => rw [add_published]; exact h.kept
  case numbered => rw [add_published]; exact h.numbered
  case count => rw [add_published]; exact h.count

theorem Followed.fence (h : Followed options r) (hfree : r.get id = none) :
    Followed options { r with exited := r.exited ++ [id] } :=
  { h with
    gone := by
      intro a ha
      rcases List.mem_append.mp ha with ha | ha
      · exact h.gone a ha
      · rw [List.mem_singleton.mp ha]
        exact hfree
    known := by
      intro a ha
      rcases h.known a ha with hknown | hknown
      · exact .inl hknown
      · exact .inr (List.mem_append_left _ hknown) }

theorem Followed.remove (h : Followed options r) :
    Followed options (({ r with
      exited := r.exited ++ [id]
      sessionsById := Entries.delete r.sessionsById id }).record options
        (TerminalActivityReducer.removed (r.currentRevision + 1) id)) := by
  have hgone : Entries.get (Entries.delete r.sessionsById id) id = none :=
    Entries.get_delete_self r.sessionsById id
  have hother : ∀ a : Str, a ≠ id →
      Entries.get (Entries.delete r.sessionsById id) a = r.get a :=
    fun a hne => Entries.get_delete_other h.distinct hne
  have hlive : ∀ (a : Str) (session : MutableSession),
      Entries.get (Entries.delete r.sessionsById id) a = some session →
        a ≠ id ∧ r.get a = some session := by
    intro a session ha
    have hne : a ≠ id := fun heq => by
      rw [heq, hgone] at ha
      cases ha
    rw [hother a hne] at ha
    exact ⟨hne, ha⟩
  obtain ⟨hkept, hnumbered, hcount⟩ := h.record_history
    (TerminalActivityReducer.removed (r.currentRevision + 1) id) rfl
  constructor
  case distinct => exact Entries.keys_delete_nodup h.distinct id
  case named => exact fun a session ha => h.named a session (hlive a session ha).2
  case gone =>
    intro a ha
    by_cases heq : a = id
    · exact heq ▸ hgone
    · refine (hother a heq).trans ?_
      rcases List.mem_append.mp ha with ha | ha
      · exact h.gone a ha
      · exact absurd (List.mem_singleton.mp ha) heq
  case known =>
    refine known_concat (fun a ha => ?_) (.inr (List.mem_append_right _ (List.mem_singleton.mpr rfl)))
    by_cases heq : a.sessionId = id
    · exact .inr (List.mem_append_right _ (List.mem_singleton.mpr heq))
    · rcases h.known a ha with hknown | hknown
      · refine .inl fun hnone => hknown ?_
        exact (hother _ heq).symm.trans hnone
      · exact .inr (List.mem_append_left _ hknown)
  case current =>
    intro a session ha
    obtain ⟨hne, ha⟩ := hlive a session ha
    obtain ⟨snapshot, hlast, hsame⟩ := h.current a session ha
    exact ⟨snapshot, (lastSnapshot_other (Ne.symm hne)).trans hlast, hsame⟩
  case kept => exact hkept
  case numbered => exact hnumbered
  case count => exact hcount

theorem Followed.move (h : Followed options r) (hmove : Move options r r') :
    Followed options r' := by
  cases hmove with
  | quiet hold hnew => exact h.quiet hold hnew
  | publish hold hnew => exact h.publish hold hnew
  | add hfree hlive => exact h.add hfree hlive
  | fence hfree => exact h.fence hfree
  | remove hold => exact h.remove

theorem Followed.moves (h : Followed options r) (hmoves : Moves options r r') :
    Followed options r' := by
  induction hmoves with
  | refl => exact h
  | tail _ hmove ih => exact ih.move hmove

end Moves

section Client

def follow (sessions : Table.Of Str TerminalActivitySessionSnapshot) (event : ActivityEvent) :
    Table.Of Str TerminalActivitySessionSnapshot :=
  match event.snapshot with
  | some snapshot => sessions.insert event.sessionId snapshot
  | none => sessions.erase event.sessionId

theorem follow_other {sessions : Table.Of Str TerminalActivitySessionSnapshot}
    {event : ActivityEvent} {id : Str} (h : event.sessionId ≠ id) :
    (follow sessions event)[id]? = sessions[id]? := by
  rw [follow]
  split
  · exact Table.get_insert_of_ne _ _ h
  · exact Table.get_erase_of_ne _ h

/-- A client that took a snapshot and folded the events since shows the live sessions, except those
that came up since and about which nothing was published. -/
structure Shows (start r : TerminalActivityReducer) (since : List ActivityEvent) : Prop where
  continued : ∀ a ∈ start.log, a ∈ r.log
  history : r.published = start.published ++ since
  live : ∀ (id : Str) (session : MutableSession), r.get id = some session →
    (∃ snapshot, (since.foldl follow start.snapshot.sessions)[id]? = some snapshot ∧
      stateOf snapshot = stateOf (snapshotOf session)) ∨
    (since.foldl follow start.snapshot.sessions)[id]? = none ∧ start.get id = none ∧
      ∀ event ∈ since, event.sessionId ≠ id
  ended : ∀ id, r.get id = none → (since.foldl follow start.snapshot.sessions)[id]? = none

variable {options : ReducerOptions} {start r r' : TerminalActivityReducer}
  {since : List ActivityEvent}

theorem snapshot_get (h : Followed options r) (id : Str) :
    r.snapshot.sessions[id]? = (r.get id).map snapshotOf := by
  refine Table.get_ofEntries _ (fun a => (r.get a).map snapshotOf) ?_ ?_ id
  · intro k v hv
    obtain ⟨e, he, heq⟩ := List.mem_map.mp hv
    cases heq
    have hget : r.get e.1 = some e.2 := Entries.get_of_mem h.distinct he
    rw [hget]
    rfl
  · intro k v hv
    obtain ⟨session, hsession, rfl⟩ := Option.map_eq_some_iff.mp hv
    exact List.mem_map.mpr ⟨(k, session), Entries.mem_of_get hsession, rfl⟩

theorem Shows.refl (h : Followed options r) : Shows r r [] where
  continued a ha := ha
  history := (List.append_nil _).symm
  live id session hsession := by
    refine .inl ⟨snapshotOf session, ?_, rfl⟩
    rw [List.foldl_nil, snapshot_get h, hsession]
    rfl
  ended id hnone := by
    rw [List.foldl_nil, snapshot_get h, hnone]
    rfl

theorem Shows.unknown (hshows : Shows start r since) (hstart : Followed options start) {id : Str}
    (hfresh : ∀ a ∈ r.log, a.sessionId ≠ id) :
    start.get id = none ∧ ∀ event ∈ since, event.sessionId ≠ id := by
  constructor
  · rcases hget : start.get id with _ | session
    · rfl
    · obtain ⟨snapshot, hlast, -⟩ := hstart.current id session hget
      obtain ⟨a, ha, heq⟩ := lastSnapshot_mem hlast
      exact absurd heq (hfresh a (hshows.continued a ha))
  · intro event hevent heq
    have hpublished : event ∈ r.published := by
      rw [hshows.history]
      exact List.mem_append_right _ hevent
    obtain ⟨a, ha, hsome⟩ := List.mem_filterMap.mp hpublished
    cases a with
    | registered snapshot => cases hsome
    | published found =>
      cases hsome
      exact hfresh _ ha heq

theorem Shows.move (hshows : Shows start r since) (hstart : Followed options start)
    (h : Followed options r) (hmove : Move options r r') : ∃ more, Shows start r' (since ++ more) := by
  cases hmove with
  | @quiet id old new hold hnew =>
    refine ⟨[], ?_⟩
    rw [List.append_nil]
    constructor
    case continued => exact hshows.continued
    case history => exact hshows.history
    case live =>
      intro a session ha
      by_cases heq : a = id
      · rw [heq, get_put_self h] at ha
        cases ha
        rcases hshows.live id old hold with ⟨snapshot, hview, hsame⟩ | hunknown
        · exact .inl ⟨snapshot, heq ▸ hview, hsame.trans hnew⟩
        · exact .inr (heq ▸ hunknown)
      · rw [get_put_other h heq] at ha
        exact hshows.live a session ha
    case ended =>
      intro a ha
      have hne : a ≠ id := fun heq => by
        rw [heq, get_put_self h] at ha
        cases ha
      rw [get_put_other h hne] at ha
      exact hshows.ended a ha
  | @publish id old new hold hnew =>
    let event := TerminalActivityReducer.changed (r.currentRevision + 1) id (snapshotOf new)
    refine ⟨[event], ?_⟩
    constructor
    case continued => exact fun a ha => List.mem_append_left _ (hshows.continued a ha)
    case history =>
      rw [record_published, ← List.append_assoc, ← hshows.history]
      rfl
    case live =>
      intro a session ha
      have hput : (r.put id new).get a = some session := ha
      rw [List.foldl_append, List.foldl_cons, List.foldl_nil]
      by_cases heq : a = id
      · rw [heq, get_put_self h] at hput
        cases hput
        refine .inl ⟨snapshotOf new, ?_, rfl⟩
        rw [heq]
        exact Std.ExtTreeMap.getElem?_insert_self
      · rw [get_put_other h heq] at hput
        have hview : (follow (since.foldl follow start.snapshot.sessions) event)[a]? =
            (since.foldl follow start.snapshot.sessions)[a]? := follow_other (Ne.symm heq)
        rw [hview]
        rcases hshows.live a session hput with hshown | ⟨hnone, hfree, hsilent⟩
        · exact .inl hshown
        · refine .inr ⟨hnone, hfree, fun e he => ?_⟩
          rcases List.mem_append.mp he with he | he
          · exact hsilent e he
          · rw [List.mem_singleton.mp he]
            exact Ne.symm heq
    case ended =>
      intro a ha
      have hput : (r.put id new).get a = none := ha
      have hne : a ≠ id := fun heq => by
        rw [heq, get_put_self h] at hput
        cases hput
      rw [get_put_other h hne] at hput
      rw [List.foldl_append, List.foldl_cons, List.foldl_nil]
      exact (follow_other (Ne.symm hne)).trans (hshows.ended a hput)
  | @add session hfree hlive =>
    refine ⟨[], ?_⟩
    rw [List.append_nil]
    constructor
    case continued => exact fun a ha => List.mem_append_left _ (hshows.continued a ha)
    case history =>
      rw [add_published]
      exact hshows.history
    case live =>
      intro a found ha
      have hput : (r.put session.sessionId session).get a = some found := ha
      by_cases heq : a = session.sessionId
      · obtain ⟨hunseen, hsilent⟩ := hshows.unknown hstart (h.fresh hfree hlive)
        rw [heq]
        exact .inr ⟨hshows.ended _ hfree, hunseen, hsilent⟩
      · rw [get_put_other h heq] at hput
        exact hshows.live a found hput
    case ended =>
      intro a ha
      have hput : (r.put session.sessionId session).get a = none := ha
      have hne : a ≠ session.sessionId := fun heq => by
        rw [heq, get_put_self h] at hput
        cases hput
      rw [get_put_other h hne] at hput
      exact hshows.ended a hput
  | fence hfree =>
    refine ⟨[], ?_⟩
    rw [List.append_nil]
    exact ⟨hshows.continued, hshows.history, hshows.live, hshows.ended⟩
  | @remove id old hold =>
    let event := TerminalActivityReducer.removed (r.currentRevision + 1) id
    have hview : ∀ a : Str, a ≠ id →
        ((since ++ [event]).foldl follow start.snapshot.sessions)[a]? =
          (since.foldl follow start.snapshot.sessions)[a]? := by
      intro a hne
      rw [List.foldl_append, List.foldl_cons, List.foldl_nil]
      exact follow_other (Ne.symm hne)
    have hother : ∀ a : Str, a ≠ id →
        Entries.get (Entries.delete r.sessionsById id) a = r.get a :=
      fun a hne => Entries.get_delete_other h.distinct hne
    have hgone : Entries.get (Entries.delete r.sessionsById id) id = none :=
      Entries.get_delete_self r.sessionsById id
    refine ⟨[event], ?_⟩
    constructor
    case continued => exact fun a ha => List.mem_append_left _ (hshows.continued a ha)
    case history =>
      rw [record_published, ← List.append_assoc, ← hshows.history]
      rfl
    case live =>
      intro a session ha
      have hdeleted : Entries.get (Entries.delete r.sessionsById id) a = some session := ha
      have hne : a ≠ id := fun heq => by
        rw [heq, hgone] at hdeleted
        cases hdeleted
      rw [hother a hne] at hdeleted
      rw [hview a hne]
      rcases hshows.live a session hdeleted with hshown | ⟨hnone, hfree, hsilent⟩
      · exact .inl hshown
      · refine .inr ⟨hnone, hfree, fun e he => ?_⟩
        rcases List.mem_append.mp he with he | he
        · exact hsilent e he
        · rw [List.mem_singleton.mp he]
          exact Ne.symm hne
    case ended =>
      intro a ha
      have hdeleted : Entries.get (Entries.delete r.sessionsById id) a = none := ha
      by_cases heq : a = id
      · rw [heq, List.foldl_append, List.foldl_cons, List.foldl_nil]
        exact (Table.get_erase _ _ _).trans (if_pos rfl)
      · rw [hother a heq] at hdeleted
        exact (hview a heq).trans (hshows.ended a hdeleted)

theorem Shows.moves (hstart : Followed options start) (hmoves : Moves options start r) :
    ∃ since, Shows start r since := by
  induction hmoves with
  | refl => exact ⟨[], Shows.refl hstart⟩
  | tail hbefore hmove ih =>
    obtain ⟨since, hshows⟩ := ih
    obtain ⟨more, hmore⟩ := hshows.move hstart (hstart.moves hbefore) hmove
    exact ⟨since ++ more, hmore⟩

/-- What a client replays after its snapshot is exactly what was published since. -/
theorem replay_since (hstart : Followed options start) (h : Followed options r)
    (hhistory : r.published = start.published ++ since) {events : List ActivityEvent}
    (hreplay : r.replay start.currentRevision = .ok (.events events)) : events = since := by
  simp only [TerminalActivityReducer.replay, Outcome.bind_ok, Outcome.pure_ok] at hreplay
  obtain ⟨_, -, _, -, hevents⟩ := hreplay
  rw [h.kept] at hevents
  have hall := Journal.replay_events options.maxEvents_pos h.numbered hevents
  have hnumbered := h.numbered
  rw [hhistory] at hnumbered hall
  rw [hall, hstart.count]
  exact hnumbered.since

end Client

end Terminay.Activity
