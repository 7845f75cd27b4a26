import Terminay.Lib.Runs
import Terminay.Workspace.Repository
import Terminay.Workspace.Retention

/-!
# Concurrent calls on a repository

The repository's state is the loaded one under the commands of its log.
-/

namespace Terminay.Workspace.Repository
open Script Outcome Lists

variable {ν : Type} [Engine ν]

/-- The state that commands lead to, one after the other; opening a store writes its state anew. -/
inductive Replays (base : WorkspaceState ν) : List (Entry ν) → WorkspaceState ν → Prop
  | loaded : Replays base [] base
  | opened {log : List (Entry ν)} {st st' : WorkspaceState ν} (h : Replays base log st)
    (hcanonical : canonicalizeWorkspaceState st = .ok st') : Replays base log st'
  | applied {log : List (Entry ν)} {st : WorkspaceState ν} (h : Replays base log st) (e : Entry ν)
    (edited : Edited ν) (hdraft : draft st e.envelope.command e.now = .ok edited) :
    Replays base (log ++ [e]) (numbered (st.revision + 1) edited.1)

/-- Every accepted command is in the repository's state, once and under a revision of its own, and
no command of a call that threw is. -/
structure UpToDate (s : State ν) : Prop where
  replays : ∀ (k : ℕ) o, s.published = some k → s.objects[k]? = some o →
    ∃ base, s.loaded = some base ∧ Replays base o.log o.store.current
  kept : ∀ (n : ℕ) c p, s.calls[n]? = some c → c.progress = .accepted p →
    ∃ e ∈ s.log, e.envelope.commandId = c.envelope.commandId ∧
      (p.fresh = true → e.call = n ∧ e.envelope = c.envelope)
  distinct : ∀ (n m : ℕ) c d p q, s.calls[n]? = some c → s.calls[m]? = some d →
    c.progress = .accepted p → d.progress = .accepted q →
    c.envelope.commandId ≠ d.envelope.commandId → p.revision ≠ q.revision
  once : (s.log.map fun e => e.envelope.commandId).Nodup
  clean : ∀ (n : ℕ) c, s.calls[n]? = some c → c.progress = .thrown → ∀ e ∈ s.log, e.call ≠ n

def Accepts (store : WorkspaceStore ν) (envelope : WorkspaceCommandEnvelope ν) (now : ν)
    (written : Bool) : Prop :=
  ∃ revision cursor event st, (Workspace.apply store envelope now written).2 =
    .ok revision cursor event st

/-- An accepted command has a new id, or the store still remembers the outcome of its id. -/
def Fresh (log : List (Entry ν)) (store : WorkspaceStore ν) (envelope : WorkspaceCommandEnvelope ν)
    (now : ν) (written : Bool) : Prop :=
  Accepts store envelope now written → envelope.commandId ∈ log.map (fun e => e.envelope.commandId) →
    store.outcomes.get envelope.commandId ≠ none

/-- The repository is still in the state a call with a candidate of its own found. -/
def Unmoved (s : State ν) (candidate : ℕ) (before : WorkspaceState ν) : Prop :=
  ∀ (k : ℕ) o, s.published = some k → s.objects[k]? = some o → k ≠ candidate →
    o.store.current.revision = before.revision

/-- No call publishes over another's, none reuses the id of an accepted command that its store has
forgotten, and no backup fails after a synchronous commit. -/
def Serial (b : Backend) (s : State ν) : Input ν → Prop
  | .apply envelope now written =>
    ∀ (k : ℕ) o, s.published = some k → s.objects[k]? = some o →
      if b.commitSync then Fresh o.log o.store envelope now (written || !o.hooked)
      else ∀ candidate, State.newObject o.store.current false o.log = .ok candidate →
        Fresh o.log candidate.store envelope now true
  | .resumed n now _ =>
    ∀ c st o, s.calls[n]? = some c → c.progress = .loading → s.loaded = some st →
      State.newObject st false [] = .ok o → b.commitSync = true → b.backup = false →
      Accepts o.store c.envelope now true → Unmoved s s.objects.length o.store.current
  | .backedUp n succeeded =>
    ∀ c p, s.calls[n]? = some c → c.progress = .backingUp p →
      if succeeded then b.commitSync = true → Unmoved s p.candidate p.before
      else p.shared = false ∨ p.fresh = false
  | .committed n succeeded =>
    ∀ c p, s.calls[n]? = some c → c.progress = .committing p → succeeded = true →
      Unmoved s p.candidate p.before
  | _ => True

section Replaying

variable {base st st' : WorkspaceState ν} {log : List (Entry ν)}

theorem canonicalize_revision (h : canonicalizeWorkspaceState st = .ok st') :
    st'.revision = st.revision := by
  rw [← (canonicalize_ok.mp h).2.2]
  rfl

theorem Replays.revision (h : Replays base log st) : st.revision = base.revision + log.length := by
  induction h with
  | loaded => rfl
  | opened h hcanonical ih => exact (canonicalize_revision hcanonical).trans ih
  | applied h e edited hdraft ih =>
    rw [List.length_append, List.length_singleton, ← Nat.add_assoc, ← ih]
    rfl

def Remembers (base : WorkspaceState ν) (log : List (Entry ν)) (outcomes : Outcomes ν) : Prop :=
  ∀ id revision cursor event, (id, WorkspaceApplyOutcome.ok revision cursor event) ∈ outcomes →
    ∃ (i : ℕ) (e : Entry ν), log[i]? = some e ∧ e.envelope.commandId = id ∧
      revision = base.revision + i + 1

section

omit [Engine ν]

theorem Remembers.snoc {outcomes : Outcomes ν} (h : Remembers base log outcomes) (e : Entry ν) :
    Remembers base (log ++ [e]) outcomes := by
  intro id revision cursor event hm
  obtain ⟨i, d, hget, hrest⟩ := h id revision cursor event hm
  exact ⟨i, d, get_concat.mpr (.inl hget), hrest⟩

theorem mem_set {outcomes : Outcomes ν} {commandId : ProtocolId} {outcome : WorkspaceApplyOutcome ν}
    {x : ProtocolId × WorkspaceApplyOutcome ν} (h : x ∈ outcomes.set commandId outcome) :
    x = (commandId, outcome) ∨ x ∈ outcomes := by
  rw [Outcomes.set] at h
  split_ifs at h
  · obtain ⟨d, hd, hx⟩ := List.mem_map.mp h
    split_ifs at hx
    · exact .inl hx.symm
    · exact .inr (hx ▸ hd)
  · rcases List.mem_append.mp h with hold | hnew
    · exact .inr hold
    · exact .inl (List.mem_singleton.mp hnew)

theorem mem_remember {s : WorkspaceStore ν} {commandId : ProtocolId}
    {outcome : WorkspaceApplyOutcome ν} {x : ProtocolId × WorkspaceApplyOutcome ν}
    (h : x ∈ (remember s commandId outcome).outcomes) :
    x = (commandId, outcome) ∨ x ∈ s.outcomes :=
  mem_set (List.mem_of_mem_drop h)

theorem mem_of_get {outcomes : Outcomes ν} {commandId : ProtocolId}
    {outcome : WorkspaceApplyOutcome ν} (h : outcomes.get commandId = some outcome) :
    (commandId, outcome) ∈ outcomes := by
  rw [Outcomes.get, Option.map_eq_some_iff] at h
  obtain ⟨x, hfind, rfl⟩ := h
  have hid := List.find?_some hfind
  rw [beq_iff_eq] at hid
  rw [← hid]
  exact List.mem_of_find?_eq_some hfind

end

/-- What a store answers, and what it becomes. -/
inductive Answers (store : WorkspaceStore ν) (envelope : WorkspaceCommandEnvelope ν) (now : ν) :
    WorkspaceStore ν × WorkspaceApplyResult ν → Prop
  | thrown (message : Str) : Answers store envelope now (store, .thrown message)
  | refused (store' : WorkspaceStore ν) (conflict : WorkspaceConflict)
    (hcurrent : store'.current = store.current)
    (houtcomes : ∀ id revision cursor event,
      (id, WorkspaceApplyOutcome.ok revision cursor event) ∈ store'.outcomes →
        (id, WorkspaceApplyOutcome.ok revision cursor event) ∈ store.outcomes) :
    Answers store envelope now (store', .refused conflict)
  | replayed (revision : ℕ) (cursor : Str) (event : WorkspaceEvent ν)
    (hprior : store.outcomes.get envelope.commandId = some (.ok revision cursor event)) :
    Answers store envelope now (store, .ok revision cursor event store.current)
  | applied (store' : WorkspaceStore ν) (edited : Edited ν) (cursor : Str) (event : WorkspaceEvent ν)
    (hnew : store.outcomes.get envelope.commandId = none)
    (hdraft : draft store.current envelope.command now = .ok edited)
    (hcurrent : store'.current = numbered (store.current.revision + 1) edited.1)
    (houtcomes : ∀ x ∈ store'.outcomes,
      x = (envelope.commandId, .ok (store.current.revision + 1) cursor event) ∨ x ∈ store.outcomes) :
    Answers store envelope now
      (store', .ok (store.current.revision + 1) cursor event store'.current)

theorem refuse_answers {store : WorkspaceStore ν} {envelope : WorkspaceCommandEnvelope ν} {now : ν}
    (message : Str) : Answers store envelope now (refuse store envelope.commandId message) := by
  refine .refused _ _ rfl fun id revision cursor event hm => ?_
  rcases mem_remember hm with hnew | hold
  · cases hnew
  · exact hold

theorem apply_answers (store : WorkspaceStore ν) (envelope : WorkspaceCommandEnvelope ν) (now : ν)
    (written : Bool) : Answers store envelope now (Workspace.apply store envelope now written) := by
  have happlied := apply_cases store envelope now written
  generalize Workspace.apply store envelope now written = answer at happlied ⊢
  cases happlied with
  | malformed hid => exact .thrown _
  | replayed prior hprior =>
    cases prior with
    | ok revision cursor event => exact .replayed revision cursor event hprior
    | refused conflict => exact .refused store conflict rfl fun _ _ _ _ hm => hm
  | stale hnew hstale => exact refuse_answers _
  | rejected hnew message hdraft => exact refuse_answers message
  | unwritten hnew hwritten => exact .thrown _
  | committed hid hnew hfresh edited hdraft hwritten =>
    refine .applied _ edited _ _ hnew hdraft rfl fun x hx => ?_
    rcases mem_remember hx with hown | hold
    · exact .inl hown
    · exact .inr ((retain_outcomes _ _ _ _ _).subset hold)

end Replaying

section Standing

variable {b : Backend} {base : WorkspaceState ν} {objects : List (StoreObject ν)} {k n : ℕ} {o : StoreObject ν}
  {c : Call ν} {s : State ν}

def Progress.own : Progress ν → Option (Pending ν)
  | .backingUp p => if p.shared then none else some p
  | .committing p => some p
  | _ => none

def Named (base : WorkspaceState ν) (log : List (Entry ν)) (n : ℕ) (c : Call ν) (p : Pending ν) :
    Prop :=
  ∃ (i : ℕ) (e : Entry ν), log[i]? = some e ∧
    e.envelope.commandId = c.envelope.commandId ∧ p.revision = base.revision + i + 1 ∧
    (p.fresh = true → e.call = n ∧ e.envelope = c.envelope)

structure Shares (b : Backend) (base : WorkspaceState ν) (k : ℕ) (o : StoreObject ν) (n : ℕ) (c : Call ν)
    (p : Pending ν) : Prop where
  sync : b.commitSync = true
  named : Named base o.log n c p
  replayed : p.fresh = false → ∀ e ∈ o.log, e.call ≠ n
  before : p.before.revision ≤ o.store.current.revision
  published : p.candidate = k ∨ p.before.revision < o.store.current.revision

structure Candidate (base : WorkspaceState ν) (o x : StoreObject ν) (n : ℕ) (c : Call ν)
    (p : Pending ν) (found : List (Entry ν)) (e : Entry ν) : Prop where
  call : e.call = n
  envelope : e.envelope = c.envelope
  log : x.log = found ++ [e]
  began : found <+: o.log
  before : p.before.revision = base.revision + found.length
  revision : p.revision = base.revision + found.length + 1
  replays : Replays base x.log x.store.current
  ids : (x.log.map fun e => e.envelope.commandId).Nodup
  remembers : Remembers base x.log x.store.outcomes

structure Owns (base : WorkspaceState ν) (objects : List (StoreObject ν)) (k : ℕ)
    (o : StoreObject ν) (n : ℕ) (c : Call ν) (p : Pending ν) : Prop where
  other : p.candidate ≠ k
  absent : ∀ e ∈ o.log, e.call ≠ n
  candidate : ∃ x found e, objects[p.candidate]? = some x ∧ Candidate base o x n c p found e

theorem Owns.call {d : Call ν} {p : Pending ν} (h : Owns base objects k o n c p)
    (heq : d.envelope = c.envelope) : Owns base objects k o n d p := by
  obtain ⟨x, found, e, hx, hcandidate⟩ := h.candidate
  exact ⟨h.other, h.absent, x, found, e, hx,
    { hcandidate with envelope := hcandidate.envelope.trans heq.symm }⟩

def Stands (b : Backend) (base : WorkspaceState ν) (objects : List (StoreObject ν)) (k : ℕ) (o : StoreObject ν)
    (n : ℕ) (c : Call ν) : Prop :=
  match c.progress with
  | .backingUp p => if p.shared then Shares b base k o n c p else Owns base objects k o n c p
  | .committing p => Owns base objects k o n c p
  | .accepted p => Named base o.log n c p
  | _ => ∀ e ∈ o.log, e.call ≠ n

structure Live (b : Backend) (s : State ν) (k : ℕ) (o : StoreObject ν) (base : WorkspaceState ν) : Prop where
  published : s.published = some k
  object : s.objects[k]? = some o
  loaded : s.loaded = some base
  replays : Replays base o.log o.store.current
  ids : (o.log.map fun e => e.envelope.commandId).Nodup
  remembers : Remembers base o.log o.store.outcomes
  numbered : ∀ e ∈ o.log, e.call < s.calls.length
  stands : ∀ (n : ℕ) c, s.calls[n]? = some c → Stands b base s.objects k o n c
  apart : ∀ (n m : ℕ) c d p q, n ≠ m → s.calls[n]? = some c → s.calls[m]? = some d →
    c.progress.own = some p → d.progress.own = some q → p.candidate ≠ q.candidate

theorem Stands.owns (h : Stands b base objects k o n c) {p : Pending ν}
    (hp : c.progress.own = some p) : Owns base objects k o n c p := by
  rw [Stands] at h
  rcases hprogress : c.progress with _ | q | q | q | _ | _
  · rw [hprogress] at hp
    cases hp
  · rw [hprogress] at h hp
    dsimp only [Progress.own] at h hp
    split_ifs at h hp with hshared
    cases hp
    exact h
  · rw [hprogress] at h hp
    cases hp
    exact h
  · rw [hprogress] at hp
    cases hp
  · rw [hprogress] at hp
    cases hp
  · rw [hprogress] at hp
    cases hp

omit [Engine ν] in
theorem Named.grow {log : List (Entry ν)} {p : Pending ν} (h : Named base log n c p)
    (extra : List (Entry ν)) : Named base (log ++ extra) n c p := by
  obtain ⟨i, e, hget, hrest⟩ := h
  have hlt := (List.getElem?_eq_some_iff.mp hget).1
  exact ⟨i, e, by rw [List.getElem?_append_left hlt]; exact hget, hrest⟩

theorem Stands.grow {objects' : List (StoreObject ν)} {k' : ℕ} {o' : StoreObject ν}
    {extra : List (Entry ν)} (h : Stands b base objects k o n c) (hlog : o'.log = o.log ++ extra)
    (hextra : ∀ e ∈ extra, e.call ≠ n)
    (hle : o.store.current.revision ≤ o'.store.current.revision)
    (hk : k' = k ∨ o.store.current.revision < o'.store.current.revision)
    (hown : ∀ p, c.progress.own = some p → p.candidate ≠ k → p.candidate ≠ k' ∧
      ∀ x, objects[p.candidate]? = some x → objects'[p.candidate]? = some x) :
    Stands b base objects' k' o' n c := by
  have habsent : (∀ e ∈ o.log, e.call ≠ n) → ∀ e ∈ o'.log, e.call ≠ n := by
    intro hold e he
    rw [hlog] at he
    rcases List.mem_append.mp he with hin | hin
    · exact hold e hin
    · exact hextra e hin
  have howns : ∀ p, c.progress.own = some p → Owns base objects' k' o' n c p := by
    intro p hp
    have howned := h.owns hp
    obtain ⟨hne, hsame⟩ := hown p hp howned.other
    obtain ⟨x, found, e, hx, hcandidate⟩ := howned.candidate
    refine ⟨hne, habsent howned.absent, x, found, e, hsame x hx, ?_⟩
    refine { hcandidate with began := ?_ }
    rw [hlog]
    exact hcandidate.began.trans (List.prefix_append _ _)
  rw [Stands] at h ⊢
  rcases hprogress : c.progress with _ | p | p | p | _ | _
  · rw [hprogress] at h
    exact habsent h
  · rw [hprogress] at h
    dsimp only at h ⊢
    split_ifs at h ⊢ with hshared
    · refine ⟨h.sync, by rw [hlog]; exact h.named.grow extra, fun hfresh => habsent (h.replayed hfresh),
        h.before.trans hle, ?_⟩
      rcases h.published with hsame | hlt
      · rcases hk with rfl | hmoved
        · exact .inl hsame
        · exact .inr (lt_of_le_of_lt h.before hmoved)
      · exact .inr (lt_of_lt_of_le hlt hle)
    · exact howns p (by rw [hprogress, Progress.own, if_neg hshared])
  · exact howns p (by rw [hprogress]; rfl)
  · rw [hprogress] at h
    dsimp only at h ⊢
    rw [hlog]
    exact h.grow extra
  · rw [hprogress] at h
    exact habsent h
  · rw [hprogress] at h
    exact habsent h

section

omit [Engine ν]

theorem enter_get {m : ℕ} {progress : Progress ν} {d : Call ν} :
    (s.enter n progress).calls[m]? = some d ↔
      (m = n ∧ ∃ c, s.calls[n]? = some c ∧ d = { c with progress := progress }) ∨
        (m ≠ n ∧ s.calls[m]? = some d) := by
  rw [State.enter]
  rcases hc : s.calls[n]? with _ | c
  · constructor
    · intro hd
      by_cases heq : m = n
      · rw [heq, hc] at hd
        cases hd
      · exact .inr ⟨heq, hd⟩
    · rintro (⟨-, c, hnone, -⟩ | ⟨-, hd⟩)
      · cases hnone
      · exact hd
  · dsimp only
    rw [get_set]
    have hlt := (List.getElem?_eq_some_iff.mp hc).1
    constructor
    · rintro (⟨heq, -, rfl⟩ | hold)
      · exact .inl ⟨heq, c, rfl, rfl⟩
      · exact .inr hold
    · rintro (⟨heq, d', hd', rfl⟩ | hold)
      · cases hd'
        exact .inl ⟨heq, hlt, rfl⟩
      · exact .inr hold

theorem enter_rest (s : State ν) (n : ℕ) (progress : Progress ν) :
    (s.enter n progress).objects = s.objects ∧ (s.enter n progress).published = s.published ∧
      (s.enter n progress).loaded = s.loaded ∧
      (s.enter n progress).calls.length = s.calls.length := by
  rw [State.enter]
  split
  · exact ⟨rfl, rfl, rfl, List.length_set⟩
  · exact ⟨rfl, rfl, rfl, rfl⟩

theorem enter_enter (s : State ν) (n : ℕ) (progress progress' : Progress ν) :
    (s.enter n progress).enter n progress' = s.enter n progress' := by
  rcases hc : s.calls[n]? with _ | c
  · have hsame : s.enter n progress = s := by rw [State.enter, hc]
    rw [hsame]
  · have hget : (s.enter n progress).calls[n]? = some { c with progress := progress } :=
      enter_get.mpr (.inl ⟨rfl, c, hc, rfl⟩)
    rw [State.enter, hget, State.enter, hc, State.enter, hc]
    simp [List.set_set]

end

end Standing

section Moves

variable {b : Backend} {base : WorkspaceState ν} {k n : ℕ} {o : StoreObject ν} {c : Call ν} {s : State ν}
  {progress : Progress ν}

theorem Live.index (h : Live b s k o base) : k < s.objects.length :=
  (List.getElem?_eq_some_iff.mp h.object).1

theorem Live.candidate_lt (h : Live b s k o base) {p : Pending ν} (hc : s.calls[n]? = some c)
    (hp : c.progress.own = some p) : p.candidate < s.objects.length := by
  obtain ⟨x, found, e, hx, -⟩ := ((h.stands n c hc).owns hp).candidate
  exact (List.getElem?_eq_some_iff.mp hx).1

theorem Live.enter (h : Live b s k o base)
    (hstands : ∀ c, s.calls[n]? = some c → Stands b base s.objects k o n { c with progress := progress })
    (hown : ∀ p, progress.own = some p → ∀ (m : ℕ) d q, m ≠ n → s.calls[m]? = some d →
      d.progress.own = some q → p.candidate ≠ q.candidate) : Live b (s.enter n progress) k o base := by
  obtain ⟨hobjects, hpublished, hloaded, hlength⟩ := enter_rest s n progress
  refine ⟨by rw [hpublished]; exact h.published, by rw [hobjects]; exact h.object,
    by rw [hloaded]; exact h.loaded, h.replays, h.ids, h.remembers,
    fun e he => by rw [hlength]; exact h.numbered e he, fun m d hd => ?_,
    fun m m' d d' p q hne hd hd' hp hq => ?_⟩
  · rw [hobjects]
    rcases enter_get.mp hd with ⟨rfl, c, hc, rfl⟩ | ⟨-, hold⟩
    · exact hstands c hc
    · exact h.stands m d hold
  · rcases enter_get.mp hd with ⟨rfl, c, hc, rfl⟩ | ⟨hm, hold⟩
    · rcases enter_get.mp hd' with ⟨heq, -⟩ | ⟨hm', hold'⟩
      · exact absurd heq.symm hne
      · exact hown p hp m' d' q hm' hold' hq
    · rcases enter_get.mp hd' with ⟨rfl, c, hc, rfl⟩ | ⟨-, hold'⟩
      · exact (hown q hq m d p hm hold hp).symm
      · exact h.apart m m' d d' p q hne hold hold' hp hq

theorem Live.leave (h : Live b s k o base) (habsent : ∀ e ∈ o.log, e.call ≠ n)
    (hprogress : (∃ r, progress = .conflict r) ∨ progress = .thrown) :
    Live b (s.enter n progress) k o base := by
  rcases hprogress with ⟨r, rfl⟩ | rfl
  · exact h.enter (fun c _ => habsent) nofun
  · exact h.enter (fun c _ => habsent) nofun

structure Spare (s : State ν) (k i : ℕ) : Prop where
  other : i ≠ k
  unowned : ∀ (n : ℕ) c p, s.calls[n]? = some c → c.progress.own = some p → p.candidate ≠ i

theorem Live.frame (h : Live b s k o base) {i : ℕ} (hspare : Spare s k i)
    {objects : List (StoreObject ν)}
    (hsame : ∀ (j : ℕ) x, j ≠ i → s.objects[j]? = some x → objects[j]? = some x) :
    Live b { s with objects := objects } k o base := by
  refine ⟨h.published, hsame k o hspare.other.symm h.object, h.loaded, h.replays, h.ids, h.remembers,
    h.numbered, fun m d hd => ?_, h.apart⟩
  have hempty : o.log = o.log ++ [] := (List.append_nil _).symm
  exact (h.stands m d hd).grow hempty nofun le_rfl (.inl rfl) fun p hp hne =>
    ⟨hne, fun x hx => hsame _ x (hspare.unowned m d p hd hp) hx⟩

theorem Live.spare (h : Live b s k o base) : Spare s k s.objects.length :=
  ⟨Nat.ne_of_gt h.index, fun _ _ _ hd hp => Nat.ne_of_lt (h.candidate_lt hd hp)⟩

theorem Live.add (h : Live b s k o base) (x : StoreObject ν) :
    Live b (s.add x) k o base ∧ (s.add x).objects[s.objects.length]? = some x ∧
      Spare (s.add x) k s.objects.length := by
  refine ⟨h.frame h.spare fun j y hj hy => ?_, get_concat.mpr (.inr ⟨rfl, rfl⟩), h.spare.other,
    h.spare.unowned⟩
  exact get_concat.mpr (.inl hy)

theorem Live.reduced (h : Live b s k o base) {o' : StoreObject ν} (extra : List (Entry ν)) (hextra : ∀ e ∈ extra, e.call = n) (hn : n < s.calls.length)
    (hlog : o'.log = o.log ++ extra) (hle : o.store.current.revision ≤ o'.store.current.revision)
    (hreplays : Replays base o'.log o'.store.current)
    (hids : (o'.log.map fun e => e.envelope.commandId).Nodup)
    (hremembers : Remembers base o'.log o'.store.outcomes)
    (hstands : ∀ c, s.calls[n]? = some c →
      Stands b base (s.objects.set k o') k o' n { c with progress := progress })
    (hown : progress.own = none) : Live b ((s.put k o').enter n progress) k o' base := by
  obtain ⟨hobjects, hpublished, hloaded, hlength⟩ := enter_rest (s.put k o') n progress
  have hget : ∀ m d, ((s.put k o').enter n progress).calls[m]? = some d →
      (m = n ∧ ∃ c, s.calls[n]? = some c ∧ d = { c with progress := progress }) ∨
        (m ≠ n ∧ s.calls[m]? = some d) := fun m d hd => (enter_get (s := s.put k o')).mp hd
  refine ⟨hpublished.trans h.published, ?_, hloaded.trans h.loaded, hreplays, hids, hremembers,
    fun e he => ?_, fun m d hd => ?_, fun m m' d d' p q hne hd hd' hp hq => ?_⟩
  · rw [hobjects]
    exact get_set.mpr (.inl ⟨rfl, h.index, rfl⟩)
  · rw [hlength]
    rw [hlog] at he
    rcases List.mem_append.mp he with hold | hnew
    · exact h.numbered e hold
    · rw [hextra e hnew]
      exact hn
  · rw [hobjects]
    rcases hget m d hd with ⟨rfl, c, hc, rfl⟩ | ⟨hm, hold⟩
    · exact hstands c hc
    · refine (h.stands m d hold).grow hlog (fun e he heq => ?_) hle (.inl rfl) fun p hp hne => ⟨hne, ?_⟩
      · exact hm (heq.symm.trans (hextra e he))
      · exact fun x hx => get_set.mpr (.inr ⟨hne, hx⟩)
  · rcases hget m d hd with ⟨rfl, c, hc, rfl⟩ | ⟨hm, hold⟩
    · rw [hown] at hp
      cases hp
    · rcases hget m' d' hd' with ⟨rfl, c, hc, rfl⟩ | ⟨hm', hold'⟩
      · rw [hown] at hq
        cases hq
      · exact h.apart m m' d d' p q hne hold hold' hp hq

theorem Live.publish (h : Live b s k o base) {p : Pending ν} (hc : s.calls[n]? = some c)
    (hp : c.progress = .backingUp p ∨ c.progress = .committing p)
    (hunmoved : Unmoved s p.candidate p.before) :
    ∃ k' o', Live b (s.publish n p) k' o' base := by
  have hstands := h.stands n c hc
  obtain ⟨hobjects, hpublished, hloaded, hlength⟩ := enter_rest s n (.accepted p)
  by_cases hown : c.progress.own = some p
  · have howns := hstands.owns hown
    obtain ⟨x, found, e, hx, hcandidate⟩ := howns.candidate
    have hrevision := hunmoved k o h.published h.object howns.other.symm
    have hfound : found = o.log := by
      have hlog := h.replays.revision
      have hbefore := hcandidate.before
      exact hcandidate.began.eq_of_length (by omega)
    have hxlog := hcandidate.log
    rw [hfound] at hxlog
    have hxrevision : o.store.current.revision < x.store.current.revision := by
      rw [hcandidate.replays.revision, h.replays.revision, hxlog, List.length_append,
        List.length_singleton]
      omega
    have hnamed : Named base x.log n c p := by
      refine ⟨o.log.length, e, by rw [hxlog]; exact get_concat.mpr (.inr ⟨rfl, rfl⟩),
        by rw [hcandidate.envelope], ?_, fun _ => ⟨hcandidate.call, hcandidate.envelope⟩⟩
      rw [hcandidate.revision, hfound]
    refine ⟨p.candidate, x, rfl, ?_, hloaded.trans h.loaded, hcandidate.replays, hcandidate.ids,
      hcandidate.remembers, fun d hd => ?_, fun m d hd => ?_,
      fun m m' d d' q q' hne hd hd' hq hq' => ?_⟩
    · exact (congrArg (fun l => l[p.candidate]?) hobjects).trans hx
    · refine lt_of_lt_of_eq ?_ hlength.symm
      rw [hxlog] at hd
      rcases List.mem_append.mp hd with hold | hnew
      · exact h.numbered d hold
      · rw [List.mem_singleton.mp hnew, hcandidate.call]
        exact (List.getElem?_eq_some_iff.mp hc).1
    · change Stands b base (s.enter n (.accepted p)).objects p.candidate x m d
      rw [hobjects]
      rcases enter_get.mp hd with ⟨rfl, c', hc', rfl⟩ | ⟨hm, hold⟩
      · rw [hc, Option.some.injEq] at hc'
        rw [← hc']
        exact hnamed
      · refine (h.stands m d hold).grow hxlog (fun e' he' heq => hm ?_) hxrevision.le (.inr hxrevision)
          fun q hq hne => ⟨?_, fun y hy => hy⟩
        · rw [List.mem_singleton.mp he', hcandidate.call] at heq
          exact heq.symm
        · exact h.apart m n d c q p hm hold hc hq hown
    · rcases enter_get.mp hd with ⟨rfl, c', hc', rfl⟩ | ⟨hm, hold⟩
      · cases hq
      · rcases enter_get.mp hd' with ⟨rfl, c', hc', rfl⟩ | ⟨hm', hold'⟩
        · cases hq'
        · exact h.apart m m' d d' q q' hne hold hold' hq hq'
  · have hshares : Shares b base k o n c p := by
      rw [Stands] at hstands
      rcases hp with hp | hp
      · rw [hp] at hstands hown
        dsimp only [Progress.own] at hstands hown
        split_ifs at hstands hown with hshared
        · exact hstands
        · exact absurd rfl hown
      · rw [hp] at hown
        exact absurd rfl hown
    have hsame : p.candidate = k := by
      by_contra hne
      have hmoved := hunmoved k o h.published h.object fun heq => hne heq.symm
      rcases hshares.published with hcandidate | hlt
      · exact hne hcandidate
      · omega
    have hentered : Live b (s.enter n (.accepted p)) k o base := by
      refine h.enter (fun c' hc' => ?_) nofun
      rw [hc, Option.some.injEq] at hc'
      rw [← hc']
      exact hshares.named
    refine ⟨k, o, ?_⟩
    have hpublish : s.publish n p = s.enter n (.accepted p) := by
      rw [State.publish, hsame, ← h.published, ← hpublished]
    rw [hpublish]
    exact hentered

end Moves

section Answering

variable {b : Backend} {base : WorkspaceState ν} {k n : ℕ} {o : StoreObject ν} {c : Call ν}
  {s : State ν} {p : Pending ν} {envelope : WorkspaceCommandEnvelope ν} {now : ν} {written : Bool}

def Settled (b : Backend) (s : State ν) (base : WorkspaceState ν) : Prop := ∃ k o, Live b s k o base

omit [Engine ν] in
theorem publish_enter (s : State ν) (n : ℕ) (p : Pending ν) (progress : Progress ν) :
    (s.enter n progress).publish n p = s.publish n p := by
  rw [State.publish, State.publish, enter_enter]

theorem Live.afterBackup (h : Live b (s.enter n (.backingUp p)) k o base)
    (hc : (s.enter n (.backingUp p)).calls[n]? = some c) (hp : c.progress = .backingUp p)
    (hasync : b.commitSync = false → p.shared = false)
    (hunmoved : b.commitSync = true → Unmoved s p.candidate p.before) :
    Settled b (s.afterBackup b n p) base := by
  rw [State.afterBackup]
  split_ifs with hsync
  · rw [← publish_enter s n p (.backingUp p)]
    refine h.publish hc (.inl hp) ?_
    obtain ⟨hobjects, hpublished, -, -⟩ := enter_rest s n (.backingUp p)
    intro k' o' hk' ho' hne
    rw [hpublished] at hk'
    rw [hobjects] at ho'
    exact hunmoved hsync k' o' hk' ho' hne
  · have hshared := hasync (Bool.not_eq_true _ ▸ hsync)
    have hown : c.progress.own = some p := by
      rw [hp, Progress.own, hshared]
      rfl
    have howns := (h.stands n c hc).owns hown
    have hentered : Live b ((s.enter n (.backingUp p)).enter n (.committing p)) k o base := by
      refine h.enter (fun c' hc' => ?_) fun q hq m d q' hm hd hq' => ?_
      · rw [hc, Option.some.injEq] at hc'
        rw [← hc']
        exact howns.call rfl
      · cases hq
        exact (h.apart m n d c q' p hm hd hc hq' hown).symm
    rw [enter_enter] at hentered
    exact ⟨k, o, hentered⟩

theorem Live.afterReduce (h : Live b (s.enter n (.backingUp p)) k o base)
    (hn : n < s.calls.length) (hasync : b.commitSync = false → p.shared = false)
    (hunmoved : b.commitSync = true → b.backup = false → Unmoved s p.candidate p.before) :
    Settled b (s.afterReduce b n p) base := by
  rw [State.afterReduce]
  split_ifs with hbackup
  · exact ⟨k, o, h⟩
  · have hget : (s.enter n (.backingUp p)).calls[n]? =
        some { s.calls[n] with progress := .backingUp p } :=
      enter_get.mpr (.inl ⟨rfl, _, List.getElem?_eq_getElem hn, rfl⟩)
    exact h.afterBackup hget rfl hasync fun hsync => hunmoved hsync (Bool.not_eq_true _ ▸ hbackup)

theorem Live.reduceOn (h : Live b s k o base) (hc : s.calls[n]? = some c)
    (henvelope : c.envelope = envelope) (habsent : ∀ e ∈ o.log, e.call ≠ n)
    (hsync : b.commitSync = true) (hfresh : Fresh o.log o.store envelope now (written || !o.hooked)) :
    Settled b (s.reduceOn b n k o true o.store.current envelope now written) base := by
  have hn := (List.getElem?_eq_some_iff.mp hc).1
  have hanswers := apply_answers o.store envelope now (written || !o.hooked)
  rw [State.reduceOn]
  rw [Fresh, Accepts] at hfresh
  generalize Workspace.apply o.store envelope now (written || !o.hooked) = answer at hanswers hfresh ⊢
  cases hanswers with
  | thrown message => exact ⟨k, o, h.leave habsent (.inr rfl)⟩
  | refused store' conflict hcurrent houtcomes =>
    refine ⟨k, { o with store := store' }, h.reduced [] ?_ hn ?_ ?_ ?_ ?_ ?_ ?_ rfl⟩
    · exact nofun
    · exact (List.append_nil _).symm
    · dsimp only
      rw [hcurrent]
    · dsimp only
      rw [hcurrent]
      exact h.replays
    · exact h.ids
    · exact fun id revision cursor event hm =>
        h.remembers id revision cursor event (houtcomes id revision cursor event hm)
    · exact fun _ _ => habsent
  | replayed revision cursor event hprior =>
    have hold : (o.store.outcomes.get envelope.commandId).isNone = false := by rw [hprior]; rfl
    have hsame : s.put k ⟨o.store, o.hooked, o.log⟩ = s.put k o := rfl
    obtain ⟨i, e, hget, hid, hrevision⟩ := h.remembers _ _ _ _ (mem_of_get hprior)
    dsimp only
    rw [hold, if_neg Bool.false_ne_true, hsame]
    refine Live.afterReduce (k := k) (o := o) (h.reduced [] ?_ hn ?_ ?_ ?_ ?_ ?_ ?_ rfl) hn ?_ ?_
    · exact nofun
    · exact (List.append_nil _).symm
    · exact le_rfl
    · exact h.replays
    · exact h.ids
    · exact h.remembers
    · intro c' hc'
      rw [hc, Option.some.injEq] at hc'
      rw [← hc']
      exact ⟨hsync, ⟨i, e, hget, hid.trans (by rw [henvelope]), hrevision, nofun⟩, fun _ => habsent, le_rfl,
        .inl rfl⟩
    · intro hno
      rw [hsync] at hno
      cases hno
    · intro _ _ k' o' hk' _ hne
      exact absurd (Option.some.inj (hk'.symm.trans h.published)) hne
  | applied store' edited cursor event hnew hdraft hcurrent houtcomes =>
    have hnone : (o.store.outcomes.get envelope.commandId).isNone = true := by rw [hnew]; rfl
    have hid : envelope.commandId ∉ o.log.map fun e => e.envelope.commandId :=
      fun hin => hfresh ⟨_, _, _, _, rfl⟩ hin hnew
    have hreplays := h.replays.applied ⟨n, envelope, now⟩ edited hdraft
    have hlength := h.replays.revision
    dsimp only
    rw [hnone, if_pos rfl]
    refine Live.afterReduce (k := k) (o := ⟨store', o.hooked, o.log ++ [⟨n, envelope, now⟩]⟩)
      (h.reduced [⟨n, envelope, now⟩] ?_ hn ?_ ?_ ?_ ?_ ?_ ?_ rfl) hn ?_ ?_
    · exact fun e he => by rw [List.mem_singleton.mp he]
    · rfl
    · dsimp only
      rw [hcurrent]
      exact Nat.le_succ _
    · dsimp only
      rw [hcurrent]
      exact hreplays
    · dsimp only
      rw [List.map_append]
      refine List.Nodup.append h.ids (List.nodup_singleton _) fun id hin hown => ?_
      rw [List.map_singleton, List.mem_singleton] at hown
      rw [hown] at hin
      exact hid hin
    · intro id revision cursor' event' hm
      rcases houtcomes _ hm with hown | hold
      · cases hown
        exact ⟨o.log.length, _, get_concat.mpr (.inr ⟨rfl, rfl⟩), rfl, by rw [hlength]⟩
      · exact h.remembers.snoc _ id revision cursor' event' hold
    · intro c' hc'
      rw [hc, Option.some.injEq] at hc'
      rw [← hc']
      refine ⟨hsync, ⟨o.log.length, _, get_concat.mpr (.inr ⟨rfl, rfl⟩), by rw [henvelope],
        by rw [hlength], fun _ => ⟨rfl, henvelope.symm⟩⟩, nofun, ?_, .inl rfl⟩
      dsimp only
      rw [hcurrent]
      exact Nat.le_succ _
    · intro hno
      rw [hsync] at hno
      cases hno
    · intro _ _ k' o' hk' _ hne
      exact absurd (Option.some.inj (hk'.symm.trans h.published)) hne

theorem Live.reduceApart (h : Live b s k o base) {i : ℕ} {x : StoreObject ν}
    (hx : s.objects[i]? = some x) (hspare : Spare s k i) (hbegan : x.log <+: o.log)
    (hreplays : Replays base x.log x.store.current) (hempty : x.store.outcomes = [])
    (hhook : x.hooked = false) (hc : s.calls[n]? = some c) (henvelope : c.envelope = envelope)
    (habsent : ∀ e ∈ o.log, e.call ≠ n)
    {before : WorkspaceState ν} (hbefore : before.revision = x.store.current.revision)
    (hfresh : Fresh x.log x.store envelope now true)
    (hunmoved : b.commitSync = true → b.backup = false → Accepts x.store envelope now true →
      Unmoved s i before) :
    Settled b (s.reduceOn b n i x false before envelope now written) base := by
  have hn := (List.getElem?_eq_some_iff.mp hc).1
  have htrue : (written || !x.hooked) = true := by rw [hhook, Bool.not_false, Bool.or_true]
  have hlength := hreplays.revision
  have hput : ∀ y : StoreObject ν, Live b (s.put i y) k o base ∧ (s.put i y).objects[i]? = some y :=
    fun y => ⟨h.frame hspare fun j z hj hz => get_set.mpr (.inr ⟨hj, hz⟩),
      get_set.mpr (.inl ⟨rfl, (List.getElem?_eq_some_iff.mp hx).1, rfl⟩)⟩
  rw [State.reduceOn, htrue]
  rw [Fresh] at hfresh
  rw [Accepts] at hfresh hunmoved
  have hanswers := apply_answers x.store envelope now true
  generalize Workspace.apply x.store envelope now true = answer at hanswers hfresh hunmoved ⊢
  cases hanswers with
  | thrown message => exact ⟨k, o, h.leave habsent (.inr rfl)⟩
  | refused store' conflict hcurrent houtcomes =>
    exact ⟨k, o, (hput { x with store := store' }).1.leave habsent (.inl ⟨_, rfl⟩)⟩
  | replayed revision cursor event hprior =>
    rw [hempty] at hprior
    cases hprior
  | applied store' edited cursor event hnew hdraft hcurrent houtcomes =>
    have hnone : (x.store.outcomes.get envelope.commandId).isNone = true := by rw [hnew]; rfl
    have hid : envelope.commandId ∉ x.log.map fun e => e.envelope.commandId :=
      fun hin => hfresh ⟨_, _, _, _, rfl⟩ hin hnew
    have hids : (x.log.map fun e => e.envelope.commandId).Nodup :=
      h.ids.sublist ((List.IsPrefix.sublist hbegan).map _)
    obtain ⟨hlive, hget⟩ := hput ⟨store', x.hooked, x.log ++ [⟨n, envelope, now⟩]⟩
    dsimp only
    rw [hnone, if_pos rfl]
    have hentered : Live b ((s.put i ⟨store', x.hooked, x.log ++ [⟨n, envelope, now⟩]⟩).enter n
        (.backingUp ⟨i, false, before, x.store.current.revision + 1, store'.current, true⟩))
        k o base := by
      refine hlive.enter (fun c' hc' => ?_) fun p hp m d q hm hd hq => ?_
      · have hsame : c' = c := Option.some.inj (hc'.symm.trans hc)
        refine ⟨hspare.other, habsent, _, x.log, ⟨n, envelope, now⟩, hget, ?_⟩
        refine ⟨rfl, by rw [hsame, henvelope], rfl, hbegan, hbefore.trans hlength,
          by rw [← hlength], ?_, ?_, ?_⟩
        · dsimp only
          rw [hcurrent]
          exact hreplays.applied ⟨n, envelope, now⟩ edited hdraft
        · dsimp only
          rw [List.map_append]
          refine List.Nodup.append hids (List.nodup_singleton _) fun id hin hown => ?_
          rw [List.map_singleton, List.mem_singleton] at hown
          rw [hown] at hin
          exact hid hin
        · intro id revision cursor' event' hm
          rcases houtcomes _ hm with hown | hold
          · cases hown
            exact ⟨x.log.length, _, get_concat.mpr (.inr ⟨rfl, rfl⟩), rfl, by rw [hlength]⟩
          · rw [hempty] at hold
            cases hold
      · cases hp
        exact (hspare.unowned m d q hd hq).symm
    refine hentered.afterReduce hn (fun _ => rfl) fun hsync hbackup k' o' hk' ho' hne => ?_
    have hobject : s.objects[k']? = some o' := by
      rcases get_set.mp ho' with ⟨heq, -⟩ | ⟨-, hold⟩
      · exact absurd heq hne
      · exact hold
    exact hunmoved hsync hbackup ⟨_, _, _, _, rfl⟩ k' o' hk' hobject hne

end Answering

section Steps

variable {b : Backend} {base : WorkspaceState ν} {k n : ℕ} {o : StoreObject ν} {c : Call ν}
  {s : State ν} {envelope : WorkspaceCommandEnvelope ν} {now : ν} {written : Bool}

theorem newObject_ok {st : WorkspaceState ν} {hooked : Bool} {log : List (Entry ν)}
    {x : StoreObject ν} (h : State.newObject st hooked log = .ok x) :
    ∃ canonical, canonicalizeWorkspaceState st = .ok canonical ∧
      x = ⟨newStore canonical defaultMaxHistory defaultMaxHistoryBytes, hooked, log⟩ := by
  rw [State.newObject] at h
  obtain ⟨canonical, hcanonical, hx⟩ := bind_ok.mp h
  cases hx
  exact ⟨canonical, hcanonical, rfl⟩

theorem Live.reduceAsync (h : Live b s k o base) {x : StoreObject ν} (hbegan : x.log <+: o.log)
    (hreplays : Replays base x.log x.store.current) (hc : s.calls[n]? = some c)
    (henvelope : c.envelope = envelope) (habsent : ∀ e ∈ o.log, e.call ≠ n)
    (hasync : b.commitSync = false)
    (hfresh : ∀ candidate, State.newObject x.store.current false x.log = .ok candidate →
      Fresh x.log candidate.store envelope now true) (i : ℕ) (shared : Bool) :
    Settled b (s.reduce b n i x shared envelope now written) base := by
  rw [State.reduce, hasync, if_neg Bool.false_ne_true]
  rcases hobject : State.newObject x.store.current false x.log with message | candidate
  · exact ⟨k, o, h.leave habsent (.inr rfl)⟩
  · obtain ⟨canonical, hcanonical, rfl⟩ := newObject_ok hobject
    obtain ⟨hadded, hget, hspare⟩ :=
      h.add ⟨newStore canonical defaultMaxHistory defaultMaxHistoryBytes, false, x.log⟩
    refine hadded.reduceApart hget hspare hbegan (hreplays.opened hcanonical) rfl rfl hc henvelope
      habsent (canonicalize_revision hcanonical).symm (hfresh _ hobject) fun hsync => ?_
    rw [hasync] at hsync
    cases hsync

structure Unloaded (s : State ν) : Prop where
  published : s.published = none
  loaded : s.loaded = none
  waiting : ∀ (n : ℕ) c, s.calls[n]? = some c → c.progress = .loading ∨ c.progress = .thrown

def Steady (b : Backend) (s : State ν) : Prop := Unloaded s ∨ ∃ base, Settled b s base

theorem Live.call (h : Live b s k o base) (envelope : WorkspaceCommandEnvelope ν) :
    Live b { s with calls := s.calls ++ [⟨envelope, .loading⟩] } k o base := by
  refine ⟨h.published, h.object, h.loaded, h.replays, h.ids, h.remembers, fun e he => ?_,
    fun m d hd => ?_, fun m m' d d' p q hne hd hd' hp hq => ?_⟩
  · rw [List.length_append]
    exact Nat.lt_add_right 1 (h.numbered e he)
  · rcases get_concat.mp hd with hold | ⟨rfl, rfl⟩
    · exact h.stands m d hold
    · exact fun e he => Nat.ne_of_lt (h.numbered e he)
  · rcases get_concat.mp hd with hold | ⟨rfl, rfl⟩
    · rcases get_concat.mp hd' with hold' | ⟨rfl, rfl⟩
      · exact h.apart m m' d d' p q hne hold hold' hp hq
      · cases hq
    · cases hp

theorem apply_published (hk : s.published = some k) (ho : s.objects[k]? = some o) :
    s.apply b envelope now written =
      State.reduce b { s with calls := s.calls ++ [⟨envelope, .loading⟩] } s.calls.length k o true
        envelope now written := by
  rw [State.apply]
  split
  · rename_i hnone
    rw [hk] at hnone
    cases hnone
  · rename_i k' hk'
    obtain rfl := Option.some.inj (hk.symm.trans hk')
    split
    · rename_i hnone
      rw [ho] at hnone
      cases hnone
    · rename_i o' ho'
      obtain rfl := Option.some.inj (ho.symm.trans ho')
      rfl

theorem apply_unpublished (hk : s.published = none) : s.apply b envelope now written =
    { s with calls := s.calls ++ [⟨envelope, .loading⟩] } := by
  rw [State.apply]
  split
  · rfl
  · rename_i k' hk'
    rw [hk] at hk'
    cases hk'

theorem Live.apply (h : Live b s k o base) (hserial : Serial b s (.apply envelope now written)) :
    Steady b (s.apply b envelope now written) := by
  have hcalled := h.call envelope
  have hget : (s.calls ++ [⟨envelope, .loading⟩])[s.calls.length]? = some ⟨envelope, .loading⟩ :=
    get_concat.mpr (.inr ⟨rfl, rfl⟩)
  have habsent : ∀ e ∈ o.log, e.call ≠ s.calls.length :=
    fun e he => Nat.ne_of_lt (h.numbered e he)
  have hfresh := hserial k o h.published h.object
  rw [apply_published h.published h.object]
  refine .inr ⟨base, ?_⟩
  by_cases hsync : b.commitSync = true
  · rw [if_pos hsync] at hfresh
    rw [State.reduce, if_pos hsync]
    exact hcalled.reduceOn hget rfl habsent hsync hfresh
  · rw [if_neg hsync] at hfresh
    exact hcalled.reduceAsync (List.prefix_refl _) h.replays hget rfl habsent
      (Bool.not_eq_true _ ▸ hsync) hfresh k true

theorem Unloaded.load (h : Unloaded s) {st : WorkspaceState ν} : Steady b (s.load b st) := by
  rw [State.load, h.published]
  dsimp only
  rcases hobject : State.newObject st b.commitSync [] with message | x
  · exact .inl h
  · obtain ⟨canonical, -, rfl⟩ := newObject_ok hobject
    refine .inr ⟨canonical, s.objects.length, _, rfl, get_concat.mpr (.inr ⟨rfl, rfl⟩), rfl, .loaded,
      List.nodup_nil, ?_, ?_, fun m d hd => ?_, fun m m' d d' p q _ hd _ hp _ => ?_⟩
    · exact fun _ _ _ _ hm => (List.not_mem_nil hm).elim
    · exact fun _ he => (List.not_mem_nil he).elim
    · rw [Stands]
      rcases h.waiting m d hd with hprogress | hprogress
      · rw [hprogress]
        exact fun _ he => (List.not_mem_nil he).elim
      · rw [hprogress]
        exact fun _ he => (List.not_mem_nil he).elim
    · rcases h.waiting m d hd with hprogress | hprogress
      · rw [hprogress] at hp
        cases hp
      · rw [hprogress] at hp
        cases hp

theorem Live.resume (h : Live b s k o base) (hserial : Serial b s (.resumed n now written)) :
    Steady b (s.resume b n now written) := by
  rw [State.resume]
  split
  · rename_i envelope st hc hloaded
    have hst : st = base := Option.some.inj (hloaded.symm.trans h.loaded)
    have habsent : ∀ e ∈ o.log, e.call ≠ n := h.stands n _ hc
    rw [hst] at hloaded ⊢
    refine .inr ⟨base, ?_⟩
    rcases hobject : State.newObject base false [] with message | x
    · exact ⟨k, o, h.leave habsent (.inr rfl)⟩
    · have hmoved := hserial _ base x hc rfl hloaded hobject
      obtain ⟨canonical, hcanonical, rfl⟩ := newObject_ok hobject
      obtain ⟨hadded, hget, hspare⟩ :=
        h.add ⟨newStore canonical defaultMaxHistory defaultMaxHistoryBytes, false, []⟩
      have hfresh : ∀ store : WorkspaceStore ν,
          Fresh [] store envelope now true := fun _ _ hin => (List.not_mem_nil hin).elim
      have hreplays : Replays base [] canonical := Replays.loaded.opened hcanonical
      by_cases hsync : b.commitSync = true
      · dsimp only
        rw [State.reduce, if_pos hsync]
        refine hadded.reduceApart hget hspare (List.nil_prefix) hreplays rfl rfl hc rfl habsent rfl
          (hfresh _) fun _ hbackup haccepts k' o' hk' ho' hne => ?_
        refine hmoved hsync hbackup haccepts k' o' hk' ?_ hne
        rcases get_concat.mp ho' with hold | ⟨hindex, -⟩
        · exact hold
        · exact absurd hindex hne
      · exact hadded.reduceAsync (List.nil_prefix) hreplays hc rfl habsent
          (Bool.not_eq_true _ ▸ hsync) (fun _ _ => hfresh _) s.objects.length false
  · exact .inr ⟨base, k, o, h⟩

omit [Engine ν] in
theorem enter_same (hc : s.calls[n]? = some c) : s.enter n c.progress = s := by
  obtain ⟨hlt, rfl⟩ := List.getElem?_eq_some_iff.mp hc
  rw [State.enter, List.getElem?_eq_getElem hlt]
  dsimp only
  rw [List.set_getElem_self]

theorem Live.backedUp (h : Live b s k o base) {succeeded : Bool}
    (hserial : Serial b s (.backedUp n succeeded)) : Steady b (s.backedUp b n succeeded) := by
  rw [State.backedUp]
  split
  · rename_i envelope p hc
    have hstands := h.stands n _ hc
    have hcondition := hserial _ p hc rfl
    refine .inr ⟨base, ?_⟩
    split_ifs at hcondition ⊢ with hsucceeded
    · have hsame := enter_same hc
      have hlive : Live b (s.enter n (.backingUp p)) k o base := by
        rw [hsame]
        exact h
      have hget : (s.enter n (.backingUp p)).calls[n]? = some ⟨envelope, .backingUp p⟩ := by
        rw [hsame]
        exact hc
      refine hlive.afterBackup hget rfl (fun hasync => ?_) hcondition
      rw [Stands] at hstands
      dsimp only at hstands
      by_contra hshared
      rw [if_pos (Bool.not_eq_false _ ▸ hshared)] at hstands
      rw [hstands.sync] at hasync
      cases hasync
    · refine ⟨k, o, h.leave ?_ (.inr rfl)⟩
      rw [Stands] at hstands
      dsimp only at hstands
      rcases hcondition with hshared | hfresh
      · rw [if_neg (by rw [hshared]; exact Bool.false_ne_true)] at hstands
        exact hstands.absent
      · split_ifs at hstands
        · exact hstands.replayed hfresh
        · exact hstands.absent
  · exact .inr ⟨base, k, o, h⟩

theorem Live.committed (h : Live b s k o base) {succeeded : Bool}
    (hserial : Serial b s (.committed n succeeded)) : Steady b (s.committed n succeeded) := by
  rw [State.committed]
  split
  · rename_i envelope p hc
    have hstands : Owns base s.objects k o n ⟨envelope, .committing p⟩ p := h.stands n _ hc
    refine .inr ⟨base, ?_⟩
    split_ifs with hsucceeded
    · exact h.publish hc (.inr rfl) (hserial _ p hc rfl hsucceeded)
    · exact ⟨k, o, h.leave hstands.absent (.inr rfl)⟩
  · exact .inr ⟨base, k, o, h⟩

omit [Engine ν] in
theorem Unloaded.enter (h : Unloaded s) (n : ℕ) : Unloaded (s.enter n .thrown) := by
  obtain ⟨-, hpublished, hloaded, -⟩ := enter_rest s n .thrown
  refine ⟨hpublished.trans h.published, hloaded.trans h.loaded, fun m d hd => ?_⟩
  rcases enter_get.mp hd with ⟨-, c, -, rfl⟩ | ⟨-, hold⟩
  · exact .inr rfl
  · exact h.waiting m d hold

theorem Unloaded.step (h : Unloaded s) (input : Input ν) : Steady b (step b s input) := by
  cases input with
  | apply envelope now written =>
    rw [Repository.step, apply_unpublished h.published]
    refine .inl ⟨h.published, h.loaded, fun m d hd => ?_⟩
    rcases get_concat.mp hd with hold | ⟨-, rfl⟩
    · exact h.waiting m d hold
    · exact .inl rfl
  | loaded st => exact h.load
  | loadFailed n =>
    rw [Repository.step, State.loadFailed]
    split
    · exact .inl (h.enter n)
    · exact .inl h
  | resumed n now written =>
    rw [Repository.step, State.resume, h.loaded]
    split
    · rename_i hnone
      cases hnone
    · exact .inl h
  | backedUp n succeeded =>
    rw [Repository.step, State.backedUp]
    split
    · rename_i envelope p hc
      rcases h.waiting n _ hc with hno | hno
      · cases hno
      · cases hno
    · exact .inl h
  | committed n succeeded =>
    rw [Repository.step, State.committed]
    split
    · rename_i envelope p hc
      rcases h.waiting n _ hc with hno | hno
      · cases hno
      · cases hno
    · exact .inl h

theorem step_steady {input : Input ν} (h : Steady b s) (hserial : Serial b s input) :
    Steady b (step b s input) := by
  rcases h with hunloaded | ⟨base, k, o, hlive⟩
  · exact hunloaded.step input
  · cases input with
    | apply envelope now written => exact hlive.apply hserial
    | loaded st =>
      rw [step, State.load, hlive.published]
      exact .inr ⟨base, k, o, hlive⟩
    | loadFailed n =>
      rw [step, State.loadFailed, hlive.loaded]
      split
      · rename_i hnone
        cases hnone
      · exact .inr ⟨base, k, o, hlive⟩
    | resumed n now written => exact hlive.resume hserial
    | backedUp n succeeded => exact hlive.backedUp hserial
    | committed n succeeded => exact hlive.committed hserial

end Steps

section Conclusion

variable {b : Backend} {base : WorkspaceState ν} {k n m : ℕ} {o : StoreObject ν} {s : State ν}

theorem Live.log (h : Live b s k o base) : s.log = o.log := by
  rw [State.log, h.published, Option.bind_some, h.object]
  rfl

omit [Engine ν] in
theorem Named.distinct {log : List (Entry ν)} {c d : Call ν} {p q : Pending ν}
    (hp : Named base log n c p) (hq : Named base log m d q)
    (hne : c.envelope.commandId ≠ d.envelope.commandId) : p.revision ≠ q.revision := by
  obtain ⟨i, e, he, hid, hrevision, -⟩ := hp
  obtain ⟨j, e', he', hid', hrevision', -⟩ := hq
  intro heq
  have hij : i = j := by omega
  rw [hij, he', Option.some.injEq] at he
  exact hne (hid.symm.trans (he ▸ hid'))

theorem Live.upToDate (h : Live b s k o base) : UpToDate s where
  replays k' o' hk' ho' := by
    obtain rfl := Option.some.inj (h.published.symm.trans hk')
    obtain rfl := Option.some.inj (h.object.symm.trans ho')
    exact ⟨base, h.loaded, h.replays⟩
  kept n c p hc hp := by
    have hstands := h.stands n c hc
    rw [Stands, hp] at hstands
    obtain ⟨i, e, he, hid, -, hfresh⟩ := hstands
    rw [h.log]
    exact ⟨e, List.mem_of_getElem? he, hid, hfresh⟩
  distinct n m c d p q hc hd hp hq := by
    have hc' := h.stands n c hc
    have hd' := h.stands m d hd
    rw [Stands, hp] at hc'
    rw [Stands, hq] at hd'
    exact hc'.distinct hd'
  once := by
    rw [h.log]
    exact h.ids
  clean n c hc hthrown := by
    have hstands := h.stands n c hc
    rw [Stands, hthrown] at hstands
    rw [h.log]
    exact hstands

theorem Unloaded.upToDate (h : Unloaded s) : UpToDate s := by
  have hnone : ∀ (n : ℕ) c p, s.calls[n]? = some c → c.progress ≠ .accepted p := by
    intro n c p hc hp
    rcases h.waiting n c hc with hno | hno
    · rw [hno] at hp
      cases hp
    · rw [hno] at hp
      cases hp
  have hlog : s.log = [] := by
    rw [State.log, h.published]
    rfl
  refine ⟨fun k o hk => ?_, fun n c p hc hp => absurd hp (hnone n c p hc),
    fun n m c d p q hc _ hp => absurd hp (hnone n c p hc), by rw [hlog]; exact List.nodup_nil,
    fun n c _ _ e he => ?_⟩
  · rw [h.published] at hk
    cases hk
  · rw [hlog] at he
    exact (List.not_mem_nil he).elim

theorem Steady.upToDate (h : Steady b s) : UpToDate s := by
  rcases h with hunloaded | ⟨base, k, o, hlive⟩
  · exact hunloaded.upToDate
  · exact hlive.upToDate

omit [Engine ν] in
theorem unloaded_unloaded : Unloaded (unloaded : State ν) :=
  ⟨rfl, rfl, fun n c hc => by cases hc⟩

theorem run_steady (inputs : List (Input ν)) (h : Runs.Meets (step b) (Serial b) unloaded inputs) :
    Steady b (Runs.after (step b) unloaded inputs) := by
  have hstep : ∀ (s : State ν) (input : Input ν), Steady b s → Serial b s input → Steady b (step b s input) :=
    fun _ _ hs hserial => step_steady hs hserial
  exact Runs.invariant_of_meets hstep (.inl unloaded_unloaded) h

omit [Engine ν] in
theorem enter_other (hne : m ≠ n) (s : State ν) (progress : Progress ν) :
    (s.enter n progress).calls[m]? = s.calls[m]? := by
  rw [State.enter]
  split
  · exact List.getElem?_set_ne hne.symm
  · rfl

omit [Engine ν] in
theorem afterReduce_other (hne : m ≠ n) (s : State ν) (p : Pending ν) :
    (s.afterBackup b n p).calls[m]? = s.calls[m]? ∧
      (s.afterReduce b n p).calls[m]? = s.calls[m]? := by
  have hbackup : (s.afterBackup b n p).calls[m]? = s.calls[m]? := by
    rw [State.afterBackup]
    split_ifs
    · exact enter_other hne s _
    · exact enter_other hne s _
  refine ⟨hbackup, ?_⟩
  rw [State.afterReduce]
  split_ifs
  · exact enter_other hne s _
  · exact hbackup

theorem reduceOn_other (hne : m ≠ n) (s : State ν) (k : ℕ) (o : StoreObject ν) (shared : Bool)
    (before : WorkspaceState ν) (envelope : WorkspaceCommandEnvelope ν) (now : ν) (written : Bool) :
    (s.reduceOn b n k o shared before envelope now written).calls[m]? = s.calls[m]? := by
  rw [State.reduceOn]
  dsimp only
  split
  · exact enter_other hne s _
  · exact enter_other hne (s.put k _) _
  · exact (afterReduce_other hne _ _).2

theorem reduce_other (hne : m ≠ n) (s : State ν) (k : ℕ) (o : StoreObject ν) (shared : Bool)
    (envelope : WorkspaceCommandEnvelope ν) (now : ν) (written : Bool) :
    (s.reduce b n k o shared envelope now written).calls[m]? = s.calls[m]? := by
  rw [State.reduce]
  split_ifs
  · exact reduceOn_other hne s k o shared _ envelope now written
  · split
    · exact enter_other hne s _
    · exact reduceOn_other hne (s.add _) _ _ _ _ envelope now written

/-- An accepted call stays accepted, with the answer it got. -/
theorem step_accepted {c : Call ν} {p : Pending ν} (hc : s.calls[n]? = some c)
    (hp : c.progress = .accepted p) (input : Input ν) : (step b s input).calls[n]? = some c := by
  have hkeep : ∀ m, (∀ d, s.calls[m]? = some d → d.progress ≠ .accepted p) → n ≠ m := by
    intro m hm heq
    rw [← heq] at hm
    exact hm c hc hp
  cases input with
  | apply envelope now written =>
    have hlt := (List.getElem?_eq_some_iff.mp hc).1
    have hcalled : (s.calls ++ [⟨envelope, .loading⟩])[n]? = some c := get_concat.mpr (.inl hc)
    rw [step, State.apply]
    split
    · exact hcalled
    · split
      · exact hcalled
      · rw [reduce_other (Nat.ne_of_lt hlt)]
        exact hcalled
  | loaded st =>
    rw [step, State.load]
    split
    · exact hc
    · split
      · exact hc
      · exact hc
  | loadFailed m =>
    rw [step, State.loadFailed]
    split
    · rename_i envelope hm _
      rw [enter_other (hkeep m fun d hd hno => ?_)]
      · exact hc
      · rw [hm, Option.some.injEq] at hd
        rw [← hd] at hno
        cases hno
    · exact hc
  | resumed m now written =>
    rw [step, State.resume]
    split
    · rename_i envelope st hm _
      have hne : n ≠ m := by
        refine hkeep m fun d hd hno => ?_
        rw [hm, Option.some.injEq] at hd
        rw [← hd] at hno
        cases hno
      split
      · rw [enter_other hne]
        exact hc
      · rw [reduce_other hne]
        exact hc
    · exact hc
  | backedUp m succeeded =>
    rw [step, State.backedUp]
    split
    · rename_i envelope q hm
      have hne : n ≠ m := by
        refine hkeep m fun d hd hno => ?_
        rw [hm, Option.some.injEq] at hd
        rw [← hd] at hno
        cases hno
      split_ifs
      · rw [(afterReduce_other hne _ _).1]
        exact hc
      · rw [enter_other hne]
        exact hc
    · exact hc
  | committed m succeeded =>
    rw [step, State.committed]
    split
    · rename_i envelope q hm
      have hne : n ≠ m := by
        refine hkeep m fun d hd hno => ?_
        rw [hm, Option.some.injEq] at hd
        rw [← hd] at hno
        cases hno
      split_ifs
      · exact (enter_other hne s _).trans hc
      · exact (enter_other hne s _).trans hc
    · exact hc

theorem run_accepted {c : Call ν} {p : Pending ν} (hc : s.calls[n]? = some c)
    (hp : c.progress = .accepted p) (inputs : List (Input ν)) :
    (Runs.after (step b) s inputs).calls[n]? = some c := by
  have hstep : ∀ (s : State ν) (input : Input ν), s.calls[n]? = some c →
      (step b s input).calls[n]? = some c := fun _ input hc => step_accepted hc hp input
  exact Runs.invariant hstep hc inputs

/-- The repository is up to date after every serial run, and what a call was told once holds of
every later state. -/
theorem repository_runs (b : Backend) (inputs rest : List (Input ν))
    (h : Runs.Meets (step b) (Serial b) unloaded (inputs ++ rest)) :
    UpToDate (Runs.after (step b) unloaded inputs) ∧
      ∀ (n : ℕ) c p, (Runs.after (step b) unloaded inputs).calls[n]? = some c →
        c.progress = .accepted p →
        ∃ e ∈ (Runs.after (step b) unloaded (inputs ++ rest)).log,
          e.envelope.commandId = c.envelope.commandId ∧
            (p.fresh = true → e.call = n ∧ e.envelope = c.envelope) := by
  refine ⟨(run_steady inputs (Runs.meets_append.mp h).1).upToDate, fun n c p hc hp => ?_⟩
  have hlater := run_accepted (b := b) hc hp rest
  rw [← Runs.after_append] at hlater
  exact (run_steady (inputs ++ rest) h).upToDate.kept n c p hlater hp

def asyncOnly : Backend := ⟨false, false⟩

def renameView (commandId name : String) : Input ℤ :=
  .apply ⟨js commandId, none, ⟨js "view.rename", Table.ofEntries
    [(js "viewId", .str (js "srv:view:default")), (js "name", .str (js name))]⟩⟩ 0 true

def waited : List (Input ℤ) :=
  [renameView "a" "First", .loaded (initialWorkspace (js "srv")), .resumed 0 0 true, .committed 0 true]

theorem waited_found : ((Runs.after (step asyncOnly) unloaded (waited.take 3)).calls.map fun c =>
    match c.progress with
    | .committing p => some p.before.revision
    | _ => none) = [some 0] ∧
      (Runs.after (step asyncOnly) unloaded (waited.take 3)).published = some 0 ∧
      ((Runs.after (step asyncOnly) unloaded (waited.take 3)).objects.map fun o =>
        o.store.current.revision)[0]? = some 0 := by
  decide +kernel

theorem repository_runs_waited : UpToDate (Runs.after (step asyncOnly) unloaded waited) := by
  refine (repository_runs asyncOnly waited [] ?_).1
  rw [List.append_nil]
  refine ⟨fun k o hk => (by cases hk), trivial, ?_, ?_, trivial⟩
  · exact fun c st o _ _ _ _ hsync => by cases hsync
  · intro c p hc hp _ k o hk ho _
    obtain ⟨hcalls, hpublished, hobjects⟩ := waited_found
    have hfound := congrArg (fun l => l[0]?) hcalls
    have hc' : (Runs.after (step asyncOnly) unloaded (waited.take 3)).calls[0]? = some c := hc
    have hk' : (Runs.after (step asyncOnly) unloaded (waited.take 3)).published = some k := hk
    have ho' : (Runs.after (step asyncOnly) unloaded (waited.take 3)).objects[k]? = some o := ho
    simp only [List.getElem?_map, hc', Option.map_some, hp] at hfound
    have hindex : k = 0 := Option.some.inj (hk'.symm.trans hpublished)
    rw [hindex] at ho'
    rw [List.getElem?_map, ho'] at hobjects
    have hbefore : p.before.revision = 0 := Option.some.inj (Option.some.inj hfound)
    rw [hbefore]
    exact Option.some.inj hobjects

def overlapping : List (Input ℤ) :=
  [.loaded (initialWorkspace (js "srv")), renameView "a" "First", renameView "b" "Second",
    .committed 0 true, .committed 1 true]

theorem overlapping_lost : ((Runs.after (step asyncOnly) unloaded overlapping).calls.map fun c =>
    match c.progress with
    | .accepted p => some p.revision
    | _ => none) = [some 1, some 1] ∧
      ((Runs.after (step asyncOnly) unloaded overlapping).log.map fun e => e.call) = [1] ∧
      ((Runs.after (step asyncOnly) unloaded overlapping).log.map fun e => e.envelope.commandId) =
        [js "b"] ∧
      ((Runs.after (step asyncOnly) unloaded overlapping).calls.map fun c => c.envelope.commandId) =
        [js "a", js "b"] := by
  decide +kernel

theorem update_lost : ¬ ∀ (b : Backend) (inputs : List (Input ℤ)),
    UpToDate (Runs.after (step b) unloaded inputs) := by
  intro h
  have hkept := (h asyncOnly overlapping).kept 0
  obtain ⟨haccepted, -, hlog, hids⟩ := overlapping_lost
  generalize Runs.after (step asyncOnly) unloaded overlapping = s at hkept haccepted hlog hids
  rcases hcalls : s.calls with _ | ⟨⟨envelope, progress⟩, rest⟩
  · rw [hcalls] at haccepted
    cases haccepted
  · rw [hcalls, List.map_cons, List.cons.injEq] at haccepted hids
    rcases progress with _ | p | p | p | r | _
    · cases haccepted.1
    · cases haccepted.1
    · cases haccepted.1
    · obtain ⟨e, he, hid, -⟩ := hkept _ p (by rw [hcalls]; rfl) rfl
      have hin : e.envelope.commandId ∈ s.log.map fun e => e.envelope.commandId :=
        List.mem_map.mpr ⟨e, he, rfl⟩
      rw [hlog, List.mem_singleton, hid, hids.1] at hin
      exact absurd hin (by decide)
    · cases haccepted.1
    · cases haccepted.1

end Conclusion

end Terminay.Workspace.Repository
