import Terminay.Lib.Journal
import Terminay.Lib.Runs
import Terminay.Protocol.CanonicalJson
import Terminay.Script.Integers

/-!
# The ordered event journal

A journal numbers the events appended to it and keeps the last of them. A replay
answers with the events after a revision, or asks for a resynchronization when
the oldest event kept is not the next one. Whether there is a gap is read off the
oldest event kept alone, so an empty journal never sees one.
-/

namespace Terminay.Protocol
open Script Workspace Outcome

variable {ν : Type} [Engine ν]

structure OrderedEvent (ν : Type) where
  revision : ℕ
  cursor : Str
  event : Str
  payload : Json ν
  body : Option Bytes

structure ResyncSnapshot where
  revision : ℤ
  cursor : Str

inductive EventReplay (ν : Type) where
  | events (events : List (OrderedEvent ν))
  | resync (snapshot : Option ResyncSnapshot)

/-- `appended` is every event ever appended, `firstRevision` the revision before the first. -/
structure OrderedEventJournal (ν : Type) where
  maxEvents : ℕ
  maxEvents_pos : 0 < maxEvents
  hasSnapshot : Bool
  events : List (OrderedEvent ν)
  nextRevision : ℕ
  currentCursor : Str
  firstRevision : ℕ
  appended : List (OrderedEvent ν)

def validateEvent (event : Str) (payload : Json ν) : Checked Unit := do
  refuseIf (event = [] ∨ 256 < event.length) (js "event name is invalid")
  assertJsonValue payload 0

namespace OrderedEventJournal

def create (maxEvents : ℤ) (initialRevision : ℤ) (initialCursor : Option Str) (snapshot : Bool) :
    Checked (OrderedEventJournal ν) :=
  if h : 0 < maxEvents ∧ maxEvents ≤ maxSafeInteger then do
    refuseIf (initialRevision < 0 ∨ (maxSafeInteger : ℤ) < initialRevision)
      (js "initialRevision must be non-negative")
    pure
      { maxEvents := maxEvents.toNat
        maxEvents_pos := by omega
        hasSnapshot := snapshot
        events := []
        nextRevision := initialRevision.toNat
        currentCursor := initialCursor.getD (natText initialRevision.toNat)
        firstRevision := initialRevision.toNat
        appended := [] }
  else .error (js "maxEvents must be positive")

def record (j : OrderedEventJournal ν) (next : OrderedEvent ν) : OrderedEventJournal ν :=
  { j with
    nextRevision := next.revision
    currentCursor := next.cursor
    events := Journal.record j.maxEvents j.events next
    appended := j.appended ++ [next] }

def append (j : OrderedEventJournal ν) (event : Str) (payload : Json ν) :
    Checked (OrderedEvent ν × OrderedEventJournal ν) := do
  validateEvent event payload
  refuseIf (j.nextRevision = maxSafeInteger) (js "event revision exhausted")
  let nextRevision := j.nextRevision + 1
  let next : OrderedEvent ν := ⟨nextRevision, natText nextRevision, event, payload, none⟩
  pure (next, j.record next)

def publishTransient (j : OrderedEventJournal ν) (event : Str) (payload : Json ν)
    (body : Option Bytes) : Checked (OrderedEvent ν) := do
  validateEvent event payload
  pure ⟨j.nextRevision, j.currentCursor, event, payload, body⟩

def replay (j : OrderedEventJournal ν) (provided : Checked ResyncSnapshot) (afterRevision : ℤ) :
    Checked (EventReplay ν) := do
  refuseIf (afterRevision < 0 ∨ (maxSafeInteger : ℤ) < afterRevision)
    (js "afterRevision must be non-negative")
  match Journal.replay OrderedEvent.revision j.events afterRevision.toNat with
  | .resync =>
    if j.hasSnapshot = false then pure (.resync none)
    else do
      let snapshot ← provided
      refuseIf (snapshot.revision < afterRevision ∨ (maxSafeInteger : ℤ) < snapshot.revision)
        (js "snapshot revision is invalid")
      pure (.resync (some snapshot))
  | .events events => pure (.events events)

def clear (j : OrderedEventJournal ν) : OrderedEventJournal ν := { j with events := [] }

inductive Input (ν : Type) where
  | append (event : Str) (payload : Json ν)
  | publishTransient (event : Str) (payload : Json ν) (body : Option Bytes)
  | clear
  | replay (provided : Checked ResyncSnapshot) (afterRevision : ℤ)

def step (j : OrderedEventJournal ν) : Input ν → OrderedEventJournal ν
  | .append event payload =>
    match j.append event payload with
    | .ok (_, next) => next
    | .error _ => j
  | .publishTransient _ _ _ => j
  | .clear => j.clear
  | .replay _ _ => j

def run (j : OrderedEventJournal ν) (inputs : List (Input ν)) : OrderedEventJournal ν :=
  Runs.after step j inputs

end OrderedEventJournal

section Invariant

variable {j next : OrderedEventJournal ν}

/-- The events are numbered on from the first revision, and the journal holds the last of them. -/
structure OrderedEventJournal.Recorded (j : OrderedEventJournal ν) : Prop where
  numbered : Journal.Numbered OrderedEvent.revision j.firstRevision j.appended
  current : j.nextRevision = j.firstRevision + j.appended.length
  held : ∃ gone, j.appended = gone ++ j.events

section

omit [Engine ν]

theorem create_recorded {maxEvents initialRevision : ℤ} {initialCursor : Option Str}
    {snapshot : Bool}
    (h : OrderedEventJournal.create maxEvents initialRevision initialCursor snapshot = .ok j) :
    j.Recorded := by
  rw [OrderedEventJournal.create] at h
  split_ifs at h with hmax
  · simp only [bind_ok, refuseIf_ok, pure_ok] at h
    obtain ⟨-, -, rfl⟩ := h
    exact ⟨Journal.numbered_nil, rfl, [], rfl⟩

theorem record_recorded (hj : j.Recorded) {e : OrderedEvent ν}
    (he : e.revision = j.nextRevision + 1) : (j.record e).Recorded := by
  obtain ⟨gone, hgone⟩ := hj.held
  have hcurrent := hj.current
  refine ⟨hj.numbered.concat (by omega), ?_, ?_⟩
  · change e.revision = j.firstRevision + (j.appended ++ [e]).length
    rw [List.length_append, List.length_singleton]
    omega
  · refine ⟨gone ++ (j.events ++ [e]).take ((j.events ++ [e]).length - j.maxEvents), ?_⟩
    change j.appended ++ [e] = _ ++ Journal.keep j.maxEvents (j.events ++ [e])
    rw [Journal.keep, List.append_assoc, List.take_append_drop, hgone, List.append_assoc]

theorem append_recorded (hj : j.Recorded) {event : Str} {payload : Json ν} {e : OrderedEvent ν}
    (h : j.append event payload = .ok (e, next)) : next.Recorded := by
  simp only [OrderedEventJournal.append, bind_ok, pure_ok] at h
  obtain ⟨-, -, -, -, heq⟩ := h
  cases heq
  exact record_recorded hj rfl

theorem clear_recorded (hj : j.Recorded) : j.clear.Recorded :=
  ⟨hj.numbered, hj.current, j.appended, (List.append_nil _).symm⟩

end

theorem step_recorded (hj : j.Recorded) (i : OrderedEventJournal.Input ν) : (j.step i).Recorded := by
  cases i with
  | append event payload =>
    rw [OrderedEventJournal.step]
    rcases h : j.append event payload with error | ⟨e, next⟩
    · exact hj
    · exact append_recorded hj h
  | publishTransient event payload body => exact hj
  | clear => exact clear_recorded hj
  | replay provided afterRevision => exact hj

theorem run_recorded (hj : j.Recorded) (inputs : List (OrderedEventJournal.Input ν)) :
    (j.run inputs).Recorded := by
  have hstep : ∀ (j : OrderedEventJournal ν) (i : OrderedEventJournal.Input ν), j.Recorded →
      (j.step i).Recorded := fun _ i hj => step_recorded hj i
  exact Runs.invariant (I := OrderedEventJournal.Recorded) hstep hj inputs

end Invariant

section Replays

variable {j : OrderedEventJournal ν} {after : ℕ}

/-- The journal can account for what came after the revision: it was reached here, and every event
after it is still held. -/
def OrderedEventJournal.Accounts (j : OrderedEventJournal ν) (after : ℕ) : Prop :=
  j.firstRevision ≤ after ∧ after ≤ j.nextRevision ∧
    ∀ e ∈ j.appended, after < e.revision → e ∈ j.events

/-- Events answer a replay only when they are all that came after the revision; where the journal
cannot account for them, it asks for a resynchronization. -/
def OrderedEventJournal.Replays (j : OrderedEventJournal ν) (provided : Checked ResyncSnapshot)
    (after : ℕ) : Prop :=
  (∀ events, j.replay provided after = .ok (.events events) →
    events = j.appended.filter fun e => after < e.revision) ∧
  (¬ j.Accounts after → ∃ snapshot, j.replay provided after = .ok (.resync snapshot))

/-- The snapshot provider gives a snapshot that is not older than the revision, or there is none. -/
def OrderedEventJournal.Provides (j : OrderedEventJournal ν) (provided : Checked ResyncSnapshot)
    (after : ℕ) : Prop :=
  j.hasSnapshot = false ∨ ∃ snapshot, provided = .ok snapshot ∧ (after : ℤ) ≤ snapshot.revision ∧
    snapshot.revision ≤ maxSafeInteger

/-- An event before the oldest one kept is asked for. -/
def OrderedEventJournal.Behind (j : OrderedEventJournal ν) (after : ℕ) : Prop :=
  ∃ oldest ∈ j.events.head?, after + 1 < oldest.revision

section

omit [Engine ν]

theorem replay_behind (hsafe : after ≤ maxSafeInteger) (hbehind : j.Behind after)
    (provided : Checked ResyncSnapshot) :
    (∃ snapshot, j.replay provided after = .ok (.resync snapshot)) ↔ j.Provides provided after := by
  obtain ⟨oldest, holdest, hlt⟩ := hbehind
  have hgap : Journal.replay OrderedEvent.revision j.events after = .resync := by
    rw [Journal.replay, Option.mem_def.mp holdest]
    exact if_pos hlt
  have hvalid : ¬ ((after : ℤ) < 0 ∨ (maxSafeInteger : ℤ) < after) := by omega
  simp only [OrderedEventJournal.replay, bind_ok, refuseIf_ok, Int.toNat_natCast, hgap]
  constructor
  · rintro ⟨snapshot, -, -, h⟩
    split_ifs at h with hnone
    · exact .inl hnone
    · simp only [bind_ok, refuseIf_ok, pure_ok] at h
      obtain ⟨found, hfound, -, hok, -⟩ := h
      exact .inr ⟨found, hfound, by omega, by omega⟩
  · intro hprovides
    by_cases hnone : j.hasSnapshot = false
    · exact ⟨none, (), hvalid, if_pos hnone⟩
    · obtain ⟨found, hfound, hle, hmax⟩ := hprovides.resolve_left hnone
      refine ⟨some found, (), hvalid, ?_⟩
      rw [if_neg hnone]
      simp only [bind_ok, refuseIf_ok, pure_ok]
      exact ⟨found, hfound, (), by omega, rfl⟩

theorem replay_held (hsafe : after ≤ maxSafeInteger) (hbehind : ¬ j.Behind after)
    (provided : Checked ResyncSnapshot) :
    j.replay provided after = .ok (.events (j.events.filter fun e => after < e.revision)) := by
  have hheld : Journal.replay OrderedEvent.revision j.events after =
      .events (j.events.filter fun e => after < e.revision) := by
    rw [Journal.replay]
    split
    next oldest holdest => exact if_neg fun hlt => hbehind ⟨oldest, holdest, hlt⟩
    · rfl
  have hvalid : ¬ ((after : ℤ) < 0 ∨ (maxSafeInteger : ℤ) < after) := by omega
  rw [OrderedEventJournal.replay, Int.toNat_natCast, hheld]
  simp only [bind_ok, refuseIf_ok]
  exact ⟨(), hvalid, rfl⟩

theorem replay_answered {provided : Checked ResyncSnapshot} {events : List (OrderedEvent ν)}
    (h : j.replay provided after = .ok (.events events)) :
    events = j.events.filter fun e => after < e.revision := by
  have hsafe : after ≤ maxSafeInteger := by
    simp only [OrderedEventJournal.replay, bind_ok, refuseIf_ok] at h
    obtain ⟨-, hvalid, -⟩ := h
    omega
  by_cases hbehind : j.Behind after
  · obtain ⟨oldest, holdest, hlt⟩ := hbehind
    have hgap : Journal.replay OrderedEvent.revision j.events after = .resync := by
      rw [Journal.replay, Option.mem_def.mp holdest]
      exact if_pos hlt
    simp only [OrderedEventJournal.replay, bind_ok, refuseIf_ok, Int.toNat_natCast, hgap] at h
    obtain ⟨-, -, h⟩ := h
    split_ifs at h
    · cases h
    · simp only [bind_ok, refuseIf_ok, pure_ok] at h
      obtain ⟨-, -, -, -, ⟨⟩⟩ := h
  · rw [replay_held hsafe hbehind provided] at h
    cases h
    rfl

theorem OrderedEventJournal.Recorded.oldest (hj : j.Recorded) {oldest : OrderedEvent ν}
    (holdest : j.events.head? = some oldest) :
    j.firstRevision < oldest.revision ∧ oldest.revision ≤ j.nextRevision ∧
      (∀ e ∈ j.events, oldest.revision ≤ e.revision) ∧
      ∀ e ∈ j.appended, oldest.revision ≤ e.revision → e ∈ j.events := by
  obtain ⟨gone, hgone⟩ := hj.held
  have hnumbered := hj.numbered
  have hcurrent := hj.current
  have hmem : oldest ∈ j.appended := by
    rw [hgone]
    exact List.mem_append_right _ (List.mem_of_mem_head? holdest)
  have hbounds := hnumbered.bounds hmem
  rw [hgone] at hnumbered
  obtain ⟨hearlier, hlater⟩ := hnumbered.split
  have hfirst : oldest.revision = j.firstRevision + gone.length + 1 :=
    hlater 0 oldest (by rw [← List.head?_eq_getElem?]; exact holdest)
  refine ⟨hbounds.1, by omega, fun e he => ?_, fun e he hle => ?_⟩
  · have hheld := hlater.bounds he
    omega
  · rw [hgone] at he
    refine (List.mem_append.mp he).resolve_left fun hdropped => ?_
    have hbefore := hearlier.bounds hdropped
    omega

theorem behind_unaccounted (hj : j.Recorded) (hbehind : j.Behind after) : ¬ j.Accounts after := by
  intro haccounts
  obtain ⟨oldest, holdest, hlt⟩ := hbehind
  obtain ⟨-, hcurrent, hlater, -⟩ := hj.oldest holdest
  obtain ⟨hfirst, -, hheld⟩ := haccounts
  have hlength := hj.current
  have hindex : after - j.firstRevision < j.appended.length := by omega
  have hat : j.appended[after - j.firstRevision]? = some j.appended[after - j.firstRevision] :=
    List.getElem?_eq_getElem hindex
  have hrevision := hj.numbered _ _ hat
  have hmem := hheld _ (List.mem_of_getElem? hat) (by omega)
  have hle := hlater _ hmem
  omega

theorem held_accounts (hj : j.Recorded) (hbehind : ¬ j.Behind after)
    (hle : after ≤ j.nextRevision) (hheld : j.events ≠ [] ∨ after = j.nextRevision) :
    j.Accounts after := by
  have hlength := hj.current
  rcases hheld with hsome | heq
  · obtain ⟨oldest, rest, hevents⟩ := List.exists_cons_of_ne_nil hsome
    have holdest : j.events.head? = some oldest := by
      rw [hevents]
      rfl
    obtain ⟨hfirst, -, -, hmem⟩ := hj.oldest holdest
    have hreach : oldest.revision ≤ after + 1 :=
      Nat.le_of_not_lt fun hlt => hbehind ⟨oldest, holdest, hlt⟩
    exact ⟨by omega, hle, fun e he hafter => hmem e he (by omega)⟩
  · refine ⟨by omega, hle, fun e he hafter => ?_⟩
    have hbounds := hj.numbered.bounds he
    omega

theorem accounts_filter (hj : j.Recorded) (haccounts : j.Accounts after) :
    (j.events.filter fun e => after < e.revision) =
      j.appended.filter fun e => after < e.revision := by
  obtain ⟨gone, hgone⟩ := hj.held
  have hnumbered := hj.numbered
  rw [hgone] at hnumbered
  have hnone : gone.filter (fun e => decide (after < e.revision)) = [] := by
    refine List.filter_eq_nil_iff.mpr fun e he hafter => ?_
    have hmem : e ∈ j.appended := by
      rw [hgone]
      exact List.mem_append_left _ he
    have hlater := hnumbered.split.2.bounds (haccounts.2.2 e hmem (of_decide_eq_true hafter))
    have hearlier := hnumbered.split.1.bounds he
    omega
  rw [hgone, List.filter_append, hnone, List.nil_append]

theorem accounts_held (hj : j.Recorded) (haccounts : j.Accounts after) :
    after ≤ j.nextRevision ∧ (j.events ≠ [] ∨ after = j.nextRevision) := by
  obtain ⟨hfirst, hle, hheld⟩ := haccounts
  have hlength := hj.current
  refine ⟨hle, ?_⟩
  rcases Nat.lt_or_ge after j.nextRevision with hlt | hge
  · left
    intro hempty
    have hindex : after - j.firstRevision < j.appended.length := by omega
    have hat : j.appended[after - j.firstRevision]? = some j.appended[after - j.firstRevision] :=
      List.getElem?_eq_getElem hindex
    have hrevision := hj.numbered _ _ hat
    have hmem := hheld _ (List.mem_of_getElem? hat) (by omega)
    rw [hempty] at hmem
    cases hmem
  · right
    omega

end

/-- A journal that has been through any calls answers a replay as it should exactly when the
revision is not ahead of it, it holds an event unless nothing is asked for, and its snapshot
provider does its part. -/
theorem replay_runs {maxEvents initialRevision : ℤ} {initialCursor : Option Str} {snapshot : Bool}
    (hcreate : OrderedEventJournal.create maxEvents initialRevision initialCursor snapshot = .ok j)
    (inputs : List (OrderedEventJournal.Input ν)) (provided : Checked ResyncSnapshot)
    (hsafe : after ≤ maxSafeInteger) :
    (j.run inputs).Replays provided after ↔
      after ≤ (j.run inputs).nextRevision ∧
      ((j.run inputs).events ≠ [] ∨ after = (j.run inputs).nextRevision) ∧
      ((j.run inputs).Behind after → (j.run inputs).Provides provided after) := by
  have hj := run_recorded (create_recorded hcreate) inputs
  generalize j.run inputs = k at hj
  by_cases hbehind : k.Behind after
  · have hunaccounted := behind_unaccounted hj hbehind
    have hresync := replay_behind hsafe hbehind provided
    have hreach : after ≤ k.nextRevision ∧ k.events ≠ [] := by
      obtain ⟨oldest, holdest, hlt⟩ := hbehind
      have hbounds := (hj.oldest holdest).2.1
      refine ⟨by omega, fun hempty => ?_⟩
      rw [hempty] at holdest
      cases holdest
    constructor
    · intro hreplays
      exact ⟨hreach.1, .inl hreach.2, fun _ => hresync.mp (hreplays.2 hunaccounted)⟩
    · intro hwhen
      have hanswer := hresync.mpr (hwhen.2.2 hbehind)
      refine ⟨fun events hevents => ?_, fun _ => hanswer⟩
      obtain ⟨found, hfound⟩ := hanswer
      rw [hfound] at hevents
      cases hevents
  · have hanswer := replay_held hsafe hbehind provided
    constructor
    · intro hreplays
      have haccounts : k.Accounts after := by
        by_contra hnot
        obtain ⟨found, hfound⟩ := hreplays.2 hnot
        rw [hanswer] at hfound
        cases hfound
      obtain ⟨hle, hheld⟩ := accounts_held hj haccounts
      exact ⟨hle, hheld, fun hgap => absurd hgap hbehind⟩
    · intro hwhen
      have haccounts := held_accounts hj hbehind hwhen.1 hwhen.2.1
      refine ⟨fun events hevents => ?_, fun hnot => absurd haccounts hnot⟩
      rw [hanswer] at hevents
      cases hevents
      exact accounts_filter hj haccounts

def restarted : OrderedEventJournal ℤ :=
  { maxEvents := 2
    maxEvents_pos := Nat.two_pos
    hasSnapshot := false
    events := []
    nextRevision := 5
    currentCursor := natText 5
    firstRevision := 5
    appended := [] }

theorem restarted_create : OrderedEventJournal.create 2 5 none false = .ok restarted := rfl

/-- Two of three events are held, and the revision before them is asked for. -/
theorem replay_runs_evicted :
    (restarted.run [.append (js "a") .null, .append (js "b") .null, .append (js "c") .null]).Replays
      (.error []) 6 :=
  (replay_runs restarted_create [.append (js "a") .null, .append (js "b") .null,
    .append (js "c") .null] (.error []) (by decide)).mpr
      ⟨by decide, .inl (by decide), fun _ => .inl rfl⟩

/-- Asked for what came after revision 3, it answers that nothing did. -/
theorem restarted_silent : ¬ restarted.Replays (.error []) 3 := by
  intro hreplays
  have hunaccounted : ¬ restarted.Accounts 3 := fun haccounts => absurd haccounts.1 (by decide)
  obtain ⟨snapshot, hsnapshot⟩ := hreplays.2 hunaccounted
  cases hsnapshot

end Replays

end Terminay.Protocol
