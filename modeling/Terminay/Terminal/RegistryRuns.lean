import Terminay.Lib.Lists
import Terminay.Terminal.SessionRegistry

/-!
# Runs of the session registry

The checks of a creation run before it waits and are not repeated after it.
-/

namespace Terminay.Terminal
open Script Outcome

namespace SessionService

/-- When a wait ends, what the call checked before it still holds: no other call registered the
id of a resolved launch, and a process that comes up finds room and a service not stopping. -/
def Undisturbed (limits : TerminalServiceLimits) (s : SessionService) : ServiceInput → Prop
  | .spawned index ok => ∀ c ∈ s.pending[index]?,
      (c.resolved = true → s.sessionsById[c.sessionId]? = none ∧
        (ok = true → s.sessionsById.size < limits.maxSessions)) ∧
      (ok = true → s.stopping = false)
  | _ => True

instance (limits : TerminalServiceLimits) (s : SessionService) :
    DecidablePred (Undisturbed limits s) := fun input => by
  unfold Undisturbed
  cases input <;> infer_instance

end SessionService

structure Tended (limits : TerminalServiceLimits) (s : SessionService) : Prop where
  few : s.sessionsById.size ≤ limits.maxSessions
  objects_lt : ∀ (o : ℕ) (session : MutableSession), s.objects[o]? = some session → o < s.nextObject
  ptys_lt : ∀ (p : ℕ) (pty : Pty), s.ptys[p]? = some pty → p < s.nextPty
  distinct : (s.pending.map Creation.object).Nodup
  waiting : ∀ c ∈ s.pending, ∃ session : MutableSession, s.objects[c.object]? = some session ∧
    session.identity.sessionId = c.sessionId ∧ session.process = none ∧
    (s.stopping = false → session.status = .running ∧
      (c.resolved = false → s.sessionsById[c.sessionId]? = some c.object))
  unstarted : ∀ c ∈ s.pending, ∀ (p : ℕ) (pty : Pty), s.ptys[p]? = some pty → pty.object ≠ c.object
  attached : ∀ (p : ℕ) (pty : Pty), s.ptys[p]? = some pty → ∃ session : MutableSession,
    s.objects[pty.object]? = some session ∧ (session.process = some p ∨ session.process = none)
  tended : ∀ (p : ℕ) (pty : Pty), s.ptys[p]? = some pty → pty.state = .running → s.stopping = false ∧
    s.sessionsById[pty.sessionId]? = some pty.object ∧ ∃ session : MutableSession,
      s.objects[pty.object]? = some session ∧ session.identity.sessionId = pty.sessionId ∧
      session.process = some p ∧ session.status = .running
  closed : s.closing ≠ [] → s.stopping = true

section Updates

variable {s : SessionService}

theorem finished_identity (reason : TerminalExitReason) (session : MutableSession) :
    (SessionService.finished reason session).identity = session.identity := by
  rw [SessionService.finished]
  split_ifs <;> rfl

theorem finished_process (reason : TerminalExitReason) (session : MutableSession) :
    (SessionService.finished reason session).process = session.process := by
  rw [SessionService.finished]
  split_ifs <;> rfl

theorem finish_object {o : ℕ} {session : MutableSession} (h : s.objects[o]? = some session)
    (object : ℕ) (reason : TerminalExitReason) : ∃ session' : MutableSession,
      (s.finish object reason).objects[o]? = some session' ∧
      session'.identity = session.identity ∧ session'.process = session.process ∧
      (o ≠ object → session' = session) := by
  simp only [SessionService.finish, Table.get_update, h]
  by_cases heq : object = o
  · rw [if_pos heq]
    exact ⟨_, rfl, finished_identity reason session, finished_process reason session,
      fun hne => absurd heq.symm hne⟩
  · rw [if_neg heq]
    exact ⟨session, rfl, rfl, rfl, fun _ => rfl⟩

theorem insert_object {o n : ℕ} {session fresh : MutableSession} (hlt : o < n)
    (h : s.objects[o]? = some session) : (s.objects.insert n fresh)[o]? = some session :=
  (Table.get_insert_of_ne _ _ (Nat.ne_of_gt hlt)).trans h

end Updates

namespace Tended

variable {limits : TerminalServiceLimits} {s : SessionService}

theorem initial (limits : TerminalServiceLimits) : Tended limits .initial where
  few := Nat.zero_le _
  objects_lt o session h := by simp [SessionService.initial] at h
  ptys_lt p pty h := by simp [SessionService.initial] at h
  distinct := List.nodup_nil
  waiting c hc := by cases hc
  unstarted c hc := by cases hc
  attached p pty h := by simp [SessionService.initial] at h
  tended p pty h := by simp [SessionService.initial] at h
  closed h := absurd rfl h

theorem unique (h : Tended limits s) {p q : ℕ} {P Q : Pty} (hp : s.ptys[p]? = some P)
    (hq : s.ptys[q]? = some Q) (hP : P.state = .running) (hQ : Q.state = .running)
    (hid : P.sessionId = Q.sessionId) : p = q := by
  obtain ⟨-, hregistered, session, hsession, -, hprocess, -⟩ := h.tended p P hp hP
  obtain ⟨-, hregistered', session', hsession', -, hprocess', -⟩ := h.tended q Q hq hQ
  rw [hid, hregistered', Option.some.injEq] at hregistered
  rw [← hregistered, hsession', Option.some.injEq] at hsession
  rw [← hsession, hprocess', Option.some.injEq] at hprocess
  exact hprocess.symm

theorem finish (h : Tended limits s) {object : ℕ}
    (hsafe : s.stopping = false → (∀ c ∈ s.pending, c.object ≠ object) ∧
      ∀ (p : ℕ) (pty : Pty), s.ptys[p]? = some pty → pty.state = .running → pty.object ≠ object)
    (reason : TerminalExitReason) : Tended limits (s.finish object reason) := by
  constructor
  case few => exact h.few
  case objects_lt =>
    intro o session ho
    simp only [SessionService.finish, Table.get_update] at ho
    split_ifs at ho
    · obtain ⟨old, hold, -⟩ := Option.map_eq_some_iff.mp ho
      exact h.objects_lt o old hold
    · exact h.objects_lt o session ho
  case ptys_lt => exact h.ptys_lt
  case distinct => exact h.distinct
  case waiting =>
    intro c hc
    obtain ⟨session, hsession, hid, hprocess, hregistered⟩ := h.waiting c hc
    obtain ⟨session', hsession', hsame, hkept, hother⟩ := finish_object hsession object reason
    refine ⟨session', hsession', hsame ▸ hid, hkept.trans hprocess, ?_⟩
    intro hrunning
    rw [hother ((hsafe hrunning).1 c hc)]
    exact hregistered hrunning
  case unstarted => exact h.unstarted
  case attached =>
    intro p pty hp
    obtain ⟨session, hsession, hprocess⟩ := h.attached p pty hp
    obtain ⟨session', hsession', -, hkept, -⟩ := finish_object hsession object reason
    exact ⟨session', hsession', by rw [hkept]; exact hprocess⟩
  case tended =>
    intro p pty hp hrunning
    obtain ⟨hstopping, hregistered, session, hsession, hid, hprocess, hstatus⟩ :=
      h.tended p pty hp hrunning
    obtain ⟨session', hsession', -, -, hother⟩ := finish_object hsession object reason
    rw [hother ((hsafe hstopping).2 p pty hp hrunning)] at hsession'
    exact ⟨hstopping, hregistered, session, hsession', hid, hprocess, hstatus⟩
  case closed => exact h.closed

theorem create (h : Tended limits s) {identity : TerminalIdentity}
    (hfree : s.sessionsById[identity.sessionId]? = none)
    (hroom : s.sessionsById.size < limits.maxSessions) (resolved : Bool) :
    Tended limits { s with
      objects := s.objects.insert s.nextObject (SessionService.opened identity none)
      nextObject := s.nextObject + 1
      sessionsById :=
        if resolved then s.sessionsById
        else s.sessionsById.insert identity.sessionId s.nextObject
      pending := s.pending ++ [⟨s.nextObject, identity.sessionId, resolved⟩] } := by
  have hkept : ∀ (id : Str) (o : ℕ), s.sessionsById[id]? = some o →
      (if resolved then s.sessionsById
        else s.sessionsById.insert identity.sessionId s.nextObject)[id]? = some o := by
    intro id o hid
    have hne : identity.sessionId ≠ id := fun heq => by
      rw [← heq, hfree] at hid
      cases hid
    split_ifs
    · exact hid
    · rw [Table.get_insert_of_ne _ _ hne]
      exact hid
  have hobjects : ∀ {o : ℕ} {session : MutableSession}, s.objects[o]? = some session →
      (s.objects.insert s.nextObject (SessionService.opened identity none))[o]? = some session :=
    fun ho => insert_object (h.objects_lt _ _ ho) ho
  constructor
  case few =>
    dsimp only
    split_ifs
    · exact h.few
    · exact Std.ExtTreeMap.size_insert_le.trans hroom
  case objects_lt =>
    intro o session ho
    rw [Table.get_insert] at ho
    split_ifs at ho with heq
    · exact heq ▸ Nat.lt_succ_self _
    · exact Nat.lt_succ_of_lt (h.objects_lt o session ho)
  case ptys_lt => exact h.ptys_lt
  case distinct =>
    rw [List.map_append]
    refine List.nodup_append.mpr ⟨h.distinct, List.nodup_singleton _, ?_⟩
    intro o ho o' ho' heq
    obtain ⟨c, hc, rfl⟩ := List.mem_map.mp ho
    obtain ⟨session, hsession, -⟩ := h.waiting c hc
    have hlt := h.objects_lt _ _ hsession
    rw [heq, List.mem_singleton.mp ho'] at hlt
    exact lt_irrefl _ hlt
  case waiting =>
    intro c hc
    rcases List.mem_append.mp hc with hc | hc
    · obtain ⟨session, hsession, hid, hprocess, hregistered⟩ := h.waiting c hc
      refine ⟨session, hobjects hsession, hid, hprocess, ?_⟩
      intro hrunning
      obtain ⟨hstatus, hown⟩ := hregistered hrunning
      exact ⟨hstatus, fun hplain => hkept _ _ (hown hplain)⟩
    · rw [List.mem_singleton.mp hc]
      refine ⟨_, Std.ExtTreeMap.getElem?_insert_self, rfl, rfl, ?_⟩
      refine fun _ => ⟨rfl, fun hplain => ?_⟩
      have hplain' : resolved = false := hplain
      simp [hplain']
  case unstarted =>
    intro c hc p pty hp
    rcases List.mem_append.mp hc with hc | hc
    · exact h.unstarted c hc p pty hp
    · obtain ⟨session, hsession, -⟩ := h.attached p pty hp
      rw [List.mem_singleton.mp hc]
      exact Nat.ne_of_lt (h.objects_lt _ _ hsession)
  case attached =>
    intro p pty hp
    obtain ⟨session, hsession, hprocess⟩ := h.attached p pty hp
    exact ⟨session, hobjects hsession, hprocess⟩
  case tended =>
    intro p pty hp hrunning
    obtain ⟨hstopping, hregistered, session, hsession, hrest⟩ := h.tended p pty hp hrunning
    exact ⟨hstopping, hkept _ _ hregistered, session, hobjects hsession, hrest⟩
  case closed => exact h.closed

theorem adopt (h : Tended limits s) {identity : TerminalIdentity} (hstopping : s.stopping = false)
    (hfree : s.sessionsById[identity.sessionId]? = none)
    (hroom : s.sessionsById.size < limits.maxSessions) :
    Tended limits { s with
      objects := s.objects.insert s.nextObject (SessionService.opened identity (some s.nextPty))
      nextObject := s.nextObject + 1
      sessionsById := s.sessionsById.insert identity.sessionId s.nextObject
      ptys := s.ptys.insert s.nextPty ⟨identity.sessionId, s.nextObject, .running⟩
      nextPty := s.nextPty + 1 } := by
  have hkept : ∀ (id : Str) (o : ℕ), s.sessionsById[id]? = some o →
      (s.sessionsById.insert identity.sessionId s.nextObject)[id]? = some o := by
    intro id o hid
    have hne : identity.sessionId ≠ id := fun heq => by
      rw [← heq, hfree] at hid
      cases hid
    rw [Table.get_insert_of_ne _ _ hne]
    exact hid
  have hobjects : ∀ {o : ℕ} {session : MutableSession}, s.objects[o]? = some session →
      (s.objects.insert s.nextObject
        (SessionService.opened identity (some s.nextPty)))[o]? = some session :=
    fun ho => insert_object (h.objects_lt _ _ ho) ho
  constructor
  case few => exact Std.ExtTreeMap.size_insert_le.trans hroom
  case objects_lt =>
    intro o session ho
    rw [Table.get_insert] at ho
    split_ifs at ho with heq
    · exact heq ▸ Nat.lt_succ_self _
    · exact Nat.lt_succ_of_lt (h.objects_lt o session ho)
  case ptys_lt =>
    intro p pty hp
    rw [Table.get_insert] at hp
    split_ifs at hp with heq
    · exact heq ▸ Nat.lt_succ_self _
    · exact Nat.lt_succ_of_lt (h.ptys_lt p pty hp)
  case distinct => exact h.distinct
  case waiting =>
    intro c hc
    obtain ⟨session, hsession, hid, hprocess, hregistered⟩ := h.waiting c hc
    refine ⟨session, hobjects hsession, hid, hprocess, ?_⟩
    intro hrunning
    obtain ⟨hstatus, hown⟩ := hregistered hrunning
    exact ⟨hstatus, fun hplain => hkept _ _ (hown hplain)⟩
  case unstarted =>
    intro c hc p pty hp
    rw [Table.get_insert] at hp
    split_ifs at hp
    · cases hp
      obtain ⟨session, hsession, -⟩ := h.waiting c hc
      exact Nat.ne_of_gt (h.objects_lt _ _ hsession)
    · exact h.unstarted c hc p pty hp
  case attached =>
    intro p pty hp
    rw [Table.get_insert] at hp
    split_ifs at hp with heq
    · cases hp
      exact ⟨_, Std.ExtTreeMap.getElem?_insert_self, .inl (congrArg some heq)⟩
    · obtain ⟨session, hsession, hprocess⟩ := h.attached p pty hp
      exact ⟨session, hobjects hsession, hprocess⟩
  case tended =>
    intro p pty hp hrunning
    rw [Table.get_insert] at hp
    split_ifs at hp with heq
    · cases hp
      exact ⟨hstopping, Std.ExtTreeMap.getElem?_insert_self, _,
        Std.ExtTreeMap.getElem?_insert_self, rfl, congrArg some heq, rfl⟩
    · obtain ⟨-, hregistered, session, hsession, hrest⟩ := h.tended p pty hp hrunning
      exact ⟨hstopping, hkept _ _ hregistered, session, hobjects hsession, hrest⟩
  case closed => exact h.closed

theorem settle (h : Tended limits s) (index : ℕ) :
    Tended limits { s with pending := s.pending.eraseIdx index } where
  few := h.few
  objects_lt := h.objects_lt
  ptys_lt := h.ptys_lt
  distinct := h.distinct.sublist ((List.eraseIdx_sublist _ _).map _)
  waiting c hc := h.waiting c (List.mem_of_mem_eraseIdx hc)
  unstarted c hc := h.unstarted c (List.mem_of_mem_eraseIdx hc)
  attached := h.attached
  tended := h.tended
  closed := h.closed

theorem start (h : Tended limits s) {c : Creation} (hstopping : s.stopping = false)
    {session : MutableSession} (hsession : s.objects[c.object]? = some session)
    (hid : session.identity.sessionId = c.sessionId) (hstatus : session.status = .running)
    (hother : ∀ d ∈ s.pending, d.object ≠ c.object)
    (hunstarted : ∀ (p : ℕ) (pty : Pty), s.ptys[p]? = some pty → pty.object ≠ c.object)
    (hregistered : c.resolved = false → s.sessionsById[c.sessionId]? = some c.object)
    (hfree : c.resolved = true → s.sessionsById[c.sessionId]? = none ∧
      s.sessionsById.size < limits.maxSessions) : Tended limits (s.started c) := by
  have hown : (s.started c).sessionsById[c.sessionId]? = some c.object := by
    cases hresolved : c.resolved with
    | true =>
      simp only [SessionService.started, hresolved]
      exact Std.ExtTreeMap.getElem?_insert_self
    | false =>
      simp only [SessionService.started, hresolved]
      exact hregistered hresolved
  have hkept : ∀ (id : Str) (o : ℕ), s.sessionsById[id]? = some o →
      (s.started c).sessionsById[id]? = some o := by
    intro id o ho
    simp only [SessionService.started]
    split_ifs with hresolved
    · have hne : c.sessionId ≠ id := fun heq => by
        rw [← heq, (hfree hresolved).1] at ho
        cases ho
      rw [Table.get_insert_of_ne _ _ hne]
      exact ho
    · exact ho
  have hsame : ∀ {o : ℕ}, o ≠ c.object → (s.started c).objects[o]? = s.objects[o]? := by
    intro o hne
    simp only [SessionService.started, Table.get_update]
    exact if_neg (Ne.symm hne)
  have hnew : (s.started c).objects[c.object]? =
      some { session with process := some s.nextPty } := by
    simp only [SessionService.started, Table.get_update, if_true, hsession, Option.map_some]
  constructor
  case few =>
    simp only [SessionService.started]
    split_ifs with hresolved
    · exact Std.ExtTreeMap.size_insert_le.trans (hfree hresolved).2
    · exact h.few
  case objects_lt =>
    intro o found ho
    by_cases heq : o = c.object
    · exact heq ▸ h.objects_lt _ _ hsession
    · rw [hsame heq] at ho
      exact h.objects_lt o found ho
  case ptys_lt =>
    intro p pty hp
    rw [SessionService.started, Table.get_insert] at hp
    split_ifs at hp with heq
    · exact heq ▸ Nat.lt_succ_self _
    · exact Nat.lt_succ_of_lt (h.ptys_lt p pty hp)
  case distinct => exact h.distinct
  case waiting =>
    intro d hd
    obtain ⟨found, hfound, hname, hprocess, hplain⟩ := h.waiting d hd
    refine ⟨found, (hsame (hother d hd)).trans hfound, hname, hprocess, ?_⟩
    intro hrunning
    exact ⟨(hplain hrunning).1, fun hd => hkept _ _ ((hplain hrunning).2 hd)⟩
  case unstarted =>
    intro d hd p pty hp
    rw [SessionService.started, Table.get_insert] at hp
    split_ifs at hp
    · cases hp
      exact Ne.symm (hother d hd)
    · exact h.unstarted d hd p pty hp
  case attached =>
    intro p pty hp
    rw [SessionService.started, Table.get_insert] at hp
    split_ifs at hp with heq
    · cases hp
      exact ⟨_, hnew, .inl (congrArg some heq)⟩
    · obtain ⟨found, hfound, hprocess⟩ := h.attached p pty hp
      exact ⟨found, (hsame (hunstarted p pty hp)).trans hfound, hprocess⟩
  case tended =>
    intro p pty hp hrunning
    rw [SessionService.started, Table.get_insert] at hp
    split_ifs at hp with heq
    · cases hp
      exact ⟨hstopping, hown, _, hnew, hid, congrArg some heq, hstatus⟩
    · obtain ⟨-, hregistered', found, hfound, hrest⟩ := h.tended p pty hp hrunning
      exact ⟨hstopping, hkept _ _ hregistered', found,
        (hsame (hunstarted p pty hp)).trans hfound, hrest⟩
  case closed => exact h.closed

theorem spawned (h : Tended limits s) {index : ℕ} {ok : Bool}
    (hundisturbed : s.Undisturbed limits (.spawned index ok)) :
    Tended limits (s.spawned index ok) := by
  rw [SessionService.spawned]
  rcases hindex : s.pending[index]? with _ | c
  · exact h
  · have hmem := List.mem_of_getElem? hindex
    obtain ⟨hfree, hstopping⟩ := hundisturbed c hindex
    obtain ⟨session, hsession, hid, -, hrunning⟩ := h.waiting c hmem
    have hother : ∀ d ∈ s.pending.eraseIdx index, d.object ≠ c.object :=
      fun d hd => Lists.ne_of_mem_eraseIdx h.distinct hindex hd
    cases ok with
    | true =>
      obtain ⟨hstatus, hregistered⟩ := hrunning (hstopping rfl)
      exact (h.settle index).start (hstopping rfl) hsession hid hstatus hother
        (h.unstarted c hmem) hregistered fun hresolved =>
          ⟨(hfree hresolved).1, (hfree hresolved).2 rfl⟩
    | false =>
      simp only [SessionService.failed]
      cases hresolved : c.resolved with
      | true =>
        have hsame : s.sessionsById.erase c.sessionId = s.sessionsById := by
          apply Table.ext
          intro id
          rw [Table.get_erase]
          split_ifs with heq
          · rw [← heq, (hfree hresolved).1]
          · rfl
        simp only [hsame]
        exact h.settle index
      | false =>
        refine (h.settle index).finish (fun _ => ⟨hother, ?_⟩) .spawnError
        exact fun p pty hp _ => h.unstarted c hmem p pty hp

theorem ptyExited (h : Tended limits s) (p : ℕ) : Tended limits (s.ptyExited p) := by
  rw [SessionService.ptyExited]
  rcases hp : s.ptys[p]? with _ | process
  · exact h
  · have hold : ∀ (q : ℕ) (pty : Pty), (s.ptys.insert p { process with state := .ended })[q]? =
        some pty → pty.state = .running → q ≠ p ∧ s.ptys[q]? = some pty := by
      intro q pty hq hrunning
      rw [Table.get_insert] at hq
      split_ifs at hq with heq
      · cases hq
        cases hrunning
      · exact ⟨Ne.symm heq, hq⟩
    have hsame : ∀ (q : ℕ) (pty : Pty), (s.ptys.insert p { process with state := .ended })[q]? =
        some pty → ∃ was, s.ptys[q]? = some was ∧ was.object = pty.object := by
      intro q pty hq
      rw [Table.get_insert] at hq
      split_ifs at hq with heq
      · cases hq
        exact ⟨process, heq ▸ hp, rfl⟩
      · exact ⟨pty, hq, rfl⟩
    have hended : Tended limits
        { s with ptys := s.ptys.insert p { process with state := .ended } } := by
      constructor
      case few => exact h.few
      case objects_lt => exact h.objects_lt
      case ptys_lt =>
        intro q pty hq
        obtain ⟨was, hwas, -⟩ := hsame q pty hq
        exact h.ptys_lt q was hwas
      case distinct => exact h.distinct
      case waiting => exact h.waiting
      case unstarted =>
        intro c hc q pty hq
        obtain ⟨was, hwas, hobject⟩ := hsame q pty hq
        exact hobject ▸ h.unstarted c hc q was hwas
      case attached =>
        intro q pty hq
        obtain ⟨was, hwas, hobject⟩ := hsame q pty hq
        exact hobject ▸ h.attached q was hwas
      case tended =>
        intro q pty hq hrunning
        exact h.tended q pty (hold q pty hq hrunning).2 hrunning
      case closed => exact h.closed
    dsimp only
    split_ifs
    · exact hended
    · refine hended.finish (fun _ => ⟨fun c hc => ?_, fun q pty hq hrunning => ?_⟩) _
      · exact Ne.symm (h.unstarted c hc p process hp)
      · -- Another running process has another session object.
        obtain ⟨hne, hq⟩ := hold q pty hq hrunning
        intro heq
        obtain ⟨-, -, session, hsession, -, hprocess, -⟩ := h.tended q pty hq hrunning
        obtain ⟨session', hsession', hattached⟩ := h.attached p process hp
        rw [← heq, hsession, Option.some.injEq] at hsession'
        rw [← hsession', hprocess] at hattached
        rcases hattached with hattached | hattached
        · exact hne (Option.some.inj hattached)
        · cases hattached

theorem belongs (h : Tended limits s) {p : ℕ} {pty : Pty} (hp : s.ptys[p]? = some pty)
    (hrunning : pty.state = .running) {condition : MutableSession → Bool}
    (hcondition : ∀ session, session.status = .running → condition session = true) :
    s.belongs condition p pty = true := by
  obtain ⟨-, hregistered, session, hsession, hid, hprocess, hstatus⟩ := h.tended p pty hp hrunning
  rw [SessionService.belongs, hsession, Option.any_some, SessionService.isRegistered, hid,
    hregistered, hprocess, hcondition session hstatus]
  simp

theorem stop (h : Tended limits s) {f : ℕ → MutableSession → MutableSession}
    (hidentity : ∀ o session, (f o session).identity = session.identity)
    (hprocess : ∀ o session, (f o session).process = session.process ∨
      (f o session).process = none)
    {g : ℕ → Pty → Pty} (hobject : ∀ p pty, (g p pty).object = pty.object)
    (hstopped : ∀ (p : ℕ) (pty : Pty), s.ptys[p]? = some pty → (g p pty).state ≠ .running)
    {sessionsById : Table.Of Str ℕ} (hfew : sessionsById.size ≤ limits.maxSessions)
    (closing : List (ℕ × TerminalExitReason)) :
    Tended limits { s with
      objects := Table.mapValues f s.objects
      ptys := Table.mapValues g s.ptys
      sessionsById
      stopping := true
      closing } := by
  have hptys : ∀ (p : ℕ) (pty : Pty), (Table.mapValues g s.ptys)[p]? = some pty →
      ∃ was, s.ptys[p]? = some was ∧ pty = g p was := by
    intro p pty hp
    rw [Table.get_mapValues] at hp
    obtain ⟨was, hwas, heq⟩ := Option.map_eq_some_iff.mp hp
    exact ⟨was, hwas, heq.symm⟩
  have hobjects : ∀ {o : ℕ} {session : MutableSession}, s.objects[o]? = some session →
      (Table.mapValues f s.objects)[o]? = some (f o session) := by
    intro o session ho
    rw [Table.get_mapValues, ho]
    rfl
  constructor
  case few => exact hfew
  case objects_lt =>
    intro o session ho
    rw [Table.get_mapValues] at ho
    obtain ⟨was, hwas, -⟩ := Option.map_eq_some_iff.mp ho
    exact h.objects_lt o was hwas
  case ptys_lt =>
    intro p pty hp
    obtain ⟨was, hwas, -⟩ := hptys p pty hp
    exact h.ptys_lt p was hwas
  case distinct => exact h.distinct
  case waiting =>
    intro c hc
    obtain ⟨session, hsession, hid, hnone, -⟩ := h.waiting c hc
    refine ⟨f c.object session, hobjects hsession, by rw [hidentity]; exact hid, ?_, nofun⟩
    rcases hprocess c.object session with hsame | hgone
    · rw [hsame]
      exact hnone
    · exact hgone
  case unstarted =>
    intro c hc p pty hp
    obtain ⟨was, hwas, rfl⟩ := hptys p pty hp
    rw [hobject]
    exact h.unstarted c hc p was hwas
  case attached =>
    intro p pty hp
    obtain ⟨was, hwas, rfl⟩ := hptys p pty hp
    obtain ⟨session, hsession, hor⟩ := h.attached p was hwas
    rw [hobject]
    refine ⟨_, hobjects hsession, ?_⟩
    rcases hprocess was.object session with hsame | hgone
    · rw [hsame]
      exact hor
    · exact .inr hgone
  case tended =>
    intro p pty hp hrunning
    obtain ⟨was, hwas, rfl⟩ := hptys p pty hp
    exact absurd hrunning (hstopped p was hwas)
  case closed => exact fun _ => rfl

theorem shutdown (h : Tended limits s) (detach : Bool) (reason : TerminalExitReason) :
    Tended limits (s.shutdown detach reason) := by
  rw [SessionService.shutdown]
  split_ifs
  · exact h
  · refine h.stop (fun o session => ?_) (fun o session => ?_) (fun p pty => ?_)
      (fun p pty hp => ?_) (Nat.zero_le _) s.closing
    · split_ifs <;> rfl
    · split_ifs
      · exact .inr rfl
      · exact .inl rfl
    · split_ifs <;> rfl
    · split_ifs with hkeep
      · exact PtyState.noConfusion
      · intro hrunning
        refine hkeep ⟨h.belongs hp hrunning (fun _ _ => rfl), ?_⟩
        rw [hrunning]
        exact PtyState.noConfusion
  · refine h.stop (fun o session => ?_) (fun o session => ?_) (fun p pty => ?_)
      (fun p pty hp => ?_) h.few _
    · split_ifs <;> rfl
    · split_ifs <;> exact .inl rfl
    · split_ifs <;> rfl
    · split_ifs with hkeep
      · exact PtyState.noConfusion
      · intro hrunning
        exact hkeep ⟨h.belongs hp hrunning (fun _ hstatus => decide_eq_true hstatus), hrunning⟩

theorem shutdownFinishes (h : Tended limits s) (index : ℕ) :
    Tended limits (s.shutdownFinishes index) := by
  rw [SessionService.shutdownFinishes]
  rcases hindex : s.closing[index]? with _ | entry
  · exact h
  · have hstopping : s.stopping = true :=
      h.closed (List.ne_nil_of_mem (List.mem_of_getElem? hindex))
    have herased : Tended limits { s with closing := s.closing.eraseIdx index } :=
      { h with closed := fun _ => hstopping }
    refine herased.finish (fun hrunning => ?_) entry.2
    rw [hstopping] at hrunning
    cases hrunning

end Tended

structure Admitted (limits : TerminalServiceLimits) (s : SessionService) (sessionId : Str) :
    Prop where
  running : s.stopping = false
  free : s.sessionsById[sessionId]? = none
  room : s.sessionsById.size < limits.maxSessions

section Admission

variable {serverId : Str} {limits : TerminalServiceLimits} {s : SessionService}

theorem assertRunning_ok (h : s.assertRunning = .ok ()) : s.stopping = false := by
  rw [SessionService.assertRunning, refuseIf_ok] at h
  exact Bool.eq_false_iff.mpr h

theorem assertFree_ok {sessionId : Str} (h : s.assertFree limits sessionId = .ok ()) :
    s.sessionsById[sessionId]? = none ∧ s.sessionsById.size < limits.maxSessions := by
  simp only [SessionService.assertFree, bind_ok, refuseIf_ok] at h
  obtain ⟨_, hfree, hroom⟩ := h
  exact ⟨Option.not_isSome_iff_eq_none.mp hfree, Nat.lt_of_not_le hroom⟩

theorem admitted {sessionId : Str} (hrunning : s.assertRunning = .ok ())
    (hfree : s.assertFree limits sessionId = .ok ()) : Admitted limits s sessionId :=
  ⟨assertRunning_ok hrunning, (assertFree_ok hfree).1, (assertFree_ok hfree).2⟩

theorem checkResolved_ok {launch : TerminalResolvedLaunch}
    (h : s.checkResolved serverId limits launch = .ok ()) :
    Admitted limits s launch.identity.sessionId := by
  simp only [SessionService.checkResolved, bind_ok] at h
  obtain ⟨_, hrunning, _, -, _, -, _, -, _, hfree, -⟩ := h
  exact admitted hrunning hfree

theorem checkCreate_ok {options : TerminalCreateOptions}
    (h : s.checkCreate serverId limits options = .ok ()) :
    Admitted limits s options.sessionId := by
  simp only [SessionService.checkCreate, bind_ok] at h
  obtain ⟨_, hrunning, _, -, _, -, _, -, _, hfree, -⟩ := h
  exact admitted hrunning hfree

theorem checkAdopt_ok {options : TerminalAdoptOptions}
    (h : s.checkAdopt serverId limits options = .ok ()) :
    Admitted limits s options.identity.sessionId := by
  simp only [SessionService.checkAdopt, bind_ok] at h
  obtain ⟨_, hrunning, _, -, _, -, _, -, _, hfree, -⟩ := h
  exact admitted hrunning hfree

theorem Tended.step (h : Tended limits s) {input : ServiceInput}
    (hundisturbed : s.Undisturbed limits input) : Tended limits (s.step serverId limits input) := by
  cases input with
  | createResolvedSession launch prepared =>
    rw [SessionService.step, SessionService.createResolvedSession]
    split
    · exact h
    · next hcheck =>
      obtain ⟨_, hok, -⟩ := bind_ok.mp hcheck
      exact h.create (checkResolved_ok hok).free (checkResolved_ok hok).room true
  | createSession options prepared =>
    rw [SessionService.step, SessionService.createSession]
    split
    · exact h
    · next hcheck =>
      let identity : TerminalIdentity := ⟨serverId, options.projectId, options.sessionId⟩
      obtain ⟨_, hok, -⟩ := bind_ok.mp hcheck
      have hfree : s.sessionsById[identity.sessionId]? = none := (checkCreate_ok hok).free
      exact h.create hfree (checkCreate_ok hok).room false
  | adoptSession options =>
    rw [SessionService.step, SessionService.adoptSession]
    rcases hcheck : s.checkAdopt serverId limits options with error | _
    · exact h
    · have hok := checkAdopt_ok hcheck
      exact h.adopt hok.running hok.free hok.room
  | spawned index ok => exact h.spawned hundisturbed
  | ptyExited pty => exact h.ptyExited pty
  | shutdown detach reason => exact h.shutdown detach reason
  | shutdownFinishes index => exact h.shutdownFinishes index

end Admission

theorem failed_keeps {limits : TerminalServiceLimits} {s : SessionService} {index : ℕ}
    (h : s.Undisturbed limits (.spawned index false)) {id : Str} {o : ℕ}
    (hid : s.sessionsById[id]? = some o) : (s.spawned index false).sessionsById[id]? = some o := by
  rw [SessionService.spawned]
  rcases hindex : s.pending[index]? with _ | c
  · exact hid
  · simp only [SessionService.failed]
    cases hresolved : c.resolved with
    | true =>
      have hfree := ((h c hindex).1 hresolved).1
      have hne : c.sessionId ≠ id := fun heq => by
        rw [heq, hid] at hfree
        cases hfree
      exact (Table.get_erase _ _ _).trans ((if_neg hne).trans hid)
    | false => exact hid

theorem registry_runs (serverId : Str) (limits : TerminalServiceLimits)
    (inputs : List ServiceInput)
    (h : Runs.Meets (SessionService.step serverId limits) (SessionService.Undisturbed limits)
      .initial inputs) :
    let s := Runs.after (SessionService.step serverId limits) .initial inputs
    s.sessionsById.size ≤ limits.maxSessions ∧
    (∀ (p q : ℕ) (P Q : Pty), s.ptys[p]? = some P → s.ptys[q]? = some Q →
      P.state = .running → Q.state = .running → P.sessionId = Q.sessionId → p = q) ∧
    (∀ index, s.Undisturbed limits (.spawned index false) → ∀ (id : Str) (o : ℕ),
      s.sessionsById[id]? = some o → (s.spawned index false).sessionsById[id]? = some o) ∧
    (s.stopping = true → ∀ (p : ℕ) (P : Pty), s.ptys[p]? = some P → P.state ≠ .running) := by
  have htended : Tended limits (Runs.after (SessionService.step serverId limits) .initial inputs) :=
    Runs.invariant_of_meets (fun _ _ h hundisturbed => h.step hundisturbed) (.initial limits) h
  refine ⟨htended.few, ?_, ?_, ?_⟩
  · exact fun p q P Q hp hq hP hQ hid => htended.unique hp hq hP hQ hid
  · exact fun index hundisturbed id o hid => failed_keeps hundisturbed hid
  · intro hstopping p P hp hrunning
    have hnot := (htended.tended p P hp hrunning).1
    rw [hstopping] at hnot
    cases hnot

def serviceLimits : TerminalServiceLimits := ⟨4, 500, 200⟩

def launch : TerminalResolvedLaunch :=
  ⟨⟨js "srv", js "p", js "s1"⟩, 80, 24, 0, js "/bin/sh", js "/"⟩

def resolveOnce : ServiceInput := .createResolvedSession launch (.ok ())

def oneLaunch : List ServiceInput :=
  [resolveOnce, .spawned 0 true, resolveOnce, .shutdown false .shutdown, .shutdownFinishes 0]

theorem one_launch_runs :
    let s := Runs.after (SessionService.step (js "srv") serviceLimits) .initial oneLaunch
    s.sessionsById.size ≤ 4 ∧
    (∀ (p q : ℕ) (P Q : Pty), s.ptys[p]? = some P → s.ptys[q]? = some Q →
      P.state = .running → Q.state = .running → P.sessionId = Q.sessionId → p = q) ∧
    (∀ index, s.Undisturbed serviceLimits (.spawned index false) → ∀ (id : Str) (o : ℕ),
      s.sessionsById[id]? = some o → (s.spawned index false).sessionsById[id]? = some o) ∧
    (s.stopping = true → ∀ (p : ℕ) (P : Pty), s.ptys[p]? = some P → P.state ≠ .running) :=
  registry_runs (js "srv") serviceLimits oneLaunch (by decide +kernel)

def twoLaunches : List ServiceInput :=
  [resolveOnce, resolveOnce, .spawned 0 true, .spawned 0 true]

theorem two_launches_run_twice :
    let s := Runs.after (SessionService.step (js "srv") serviceLimits) .initial twoLaunches
    ¬ ∀ (p q : ℕ) (P Q : Pty), s.ptys[p]? = some P → s.ptys[q]? = some Q →
      P.state = .running → Q.state = .running → P.sessionId = Q.sessionId → p = q := by
  intro s hunique
  have hfirst : s.ptys[0]? = some ⟨js "s1", 0, .running⟩ := by decide +kernel
  have hsecond : s.ptys[1]? = some ⟨js "s1", 1, .running⟩ := by decide +kernel
  exact absurd (hunique 0 1 _ _ hfirst hsecond rfl rfl rfl) (by decide)

end Terminay.Terminal
