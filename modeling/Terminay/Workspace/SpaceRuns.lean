import Terminay.Lib.Runs
import Terminay.Workspace.Space

/-!
# The automation space of a run

There is one space at most, and calls leave it where it stands.
-/

namespace Terminay.Workspace
open Script Outcome

variable {ν : Type} [Engine ν] {st st' : WorkspaceState ν}

section Counting

omit [Engine ν] in
theorem spaceOf_some {id : ProtocolId} {p : WorkspaceProject ν} :
    spaceOf st id = some p ↔ st.projects[id]? = some p ∧ isAutomationSpace p = true := by
  rw [spaceOf, Option.filter_eq_some_iff]

omit [Engine ν] in
theorem inSpace_iff {id : ProtocolId} :
    inSpace st id = true ↔ ∃ p, st.projects[id]? = some p ∧ isAutomationSpace p = true := by
  rw [inSpace, Option.isSome_iff_exists]
  exact exists_congr fun p => spaceOf_some

def running (st : WorkspaceState ν) : List ProtocolId :=
  (st.terminalSessions.toList.filter fun e =>
    inSpace st e.2.projectId && e.2.status == .running).map fun e => e.1

section

omit [Engine ν]

theorem mem_running {id : ProtocolId} : id ∈ running st ↔
    ∃ session, st.terminalSessions[id]? = some session ∧ inSpace st session.projectId = true ∧
      session.status = .running := by
  simp only [running, List.mem_map, List.mem_filter, Bool.and_eq_true, beq_iff_eq]
  constructor
  · rintro ⟨⟨key, session⟩, ⟨hmem, hin, hruns⟩, rfl⟩
    exact ⟨session, Table.mem_entries.mp hmem, hin, hruns⟩
  · rintro ⟨session, hs, hin, hruns⟩
    exact ⟨(id, session), ⟨Table.mem_entries.mpr hs, hin, hruns⟩, rfl⟩

theorem running_nodup (st : WorkspaceState ν) : (running st).Nodup :=
  (Table.nodup_keys st.terminalSessions).sublist (List.filter_sublist.map _)

theorem running_le (ids : List ProtocolId) (h : ∀ id ∈ running st, id ∈ ids) :
    (running st).length ≤ ids.length :=
  (List.subperm_of_subset (running_nodup st) h).length_le

end

theorem live_running (hc : Consistent st) :
    liveAutomationTerminalCount st = (running st).length := by
  rw [liveAutomationTerminalCount, running, List.length_map, ← List.countP_eq_length_filter]
  rcases hfind : findAutomationSpace st with _ | space
  · rw [findAutomationSpace, List.find?_eq_none] at hfind
    refine (List.countP_eq_zero.mpr fun e _ hruns => ?_).symm
    rw [Bool.and_eq_true, inSpace_iff] at hruns
    obtain ⟨⟨p, hp, hspace⟩, -⟩ := hruns
    exact hfind p (List.mem_map.mpr ⟨_, Table.mem_entries.mpr hp, rfl⟩) hspace
  · rw [findAutomationSpace] at hfind
    have hspace := List.find?_some hfind
    obtain ⟨⟨k, p⟩, hmem, hp⟩ := List.mem_map.mp (List.mem_of_find?_eq_some hfind)
    cases hp
    have hk := Table.mem_entries.mp hmem
    have hid := (hc.projects k p hk).identity
    refine List.countP_congr fun e _ => ?_
    rw [Bool.and_eq_true, Bool.and_eq_true, beq_iff_eq, inSpace_iff, hid]
    constructor
    · rintro ⟨hown, hruns⟩
      exact ⟨⟨p, by rw [hown]; exact hk, hspace⟩, hruns⟩
    · rintro ⟨⟨q, hq, hq'⟩, hruns⟩
      exact ⟨(hc.oneSpace k _ p q hk hq (automationSpace_iff.mp hspace)
        (automationSpace_iff.mp hq')).symm, hruns⟩

omit [Engine ν] in
theorem running_stays {β : Type} {g : WorkspaceProject ν → β} (hspace : SpaceKept g st st')
    (hsessions : SessionsStay st st') : (running st').length ≤ (running st).length := by
  refine running_le _ fun id hid => ?_
  obtain ⟨session', hs', hin, hruns⟩ := mem_running.mp hid
  obtain ⟨session, hs, hstays, hrun⟩ := hsessions id session' hs'
  rw [hspace.inSpace] at hin
  refine mem_running.mpr ⟨session, hs, ?_, hrun hruns⟩
  rcases hstays with hsame | ⟨-, hnot⟩
  · rw [← hsame]
    exact hin
  · rw [hnot] at hin
    cases hin

end Counting

section Creation

variable {c : Fields ν}

structure CreatesSession (st : WorkspaceState ν) (c : Fields ν) (st' : WorkspaceState ν) : Prop where
  session : ∃ sessionId session, st.terminalSessions[sessionId]? = none ∧
    st'.terminalSessions = st.terminalSessions.insert sessionId session ∧
    c.at "projectId" = some (.str session.projectId)
  panels : PanelsStay st st'

omit [Engine ν] in
theorem unoccupied {α : Type} {t : Table.Of ProtocolId α} {id : ProtocolId} {e : Str} {u : Unit}
    (h : refuseIf (occupied t id = true) e = .ok u) : t[id]? = none := by
  rw [refuseIf_ok, occupied, Bool.or_eq_true, not_or] at h
  simpa using h.1

theorem terminalCreate_creates (hc : Consistent st) (now : ν) :
    Ensures (terminalCreate st c now) fun r => CreatesSession st c r.1 := by
  refine .bind fun sessionId _ => .bind fun _ hfree => .bind fun project hproject => .bind fun _ _ =>
    .bind fun launch _ => .ok ⟨⟨sessionId, _, unoccupied hfree, rfl, ?_⟩, .of_eq rfl⟩
  exact (project_found hc hproject).2

theorem terminalCreatePanel_creates (hc : Consistent st) (now : ν) :
    Ensures (terminalCreatePanel st c now) fun r => CreatesSession st c r.1 := by
  refine .bind fun sessionId _ => .bind fun panelId _ => .bind fun _ hfree => .bind fun _ hpanel =>
    .bind fun project hproject => .bind fun _ _ => .bind fun folder _ => .bind fun launch _ =>
    .bind fun cwd _ => .bind fun titles _ =>
    .ok ⟨⟨sessionId, _, unoccupied hfree, syncProject_sessions, ?_⟩, ?_⟩
  · exact (project_found hc hproject).2
  · rw [refuseIf_ok, Bool.not_eq_true] at hpanel
    exact showPanel_stays rfl hpanel

theorem running_created (hspace : SpaceKept WorkspaceProject.standing st st')
    (hcreates : CreatesSession st c st') :
    (running st').length ≤ (running st).length + 1 ∧
      (reserved st (c.at "projectId") = false → (running st').length ≤ (running st).length) := by
  obtain ⟨sessionId, session, -, hsessions, hproject⟩ := hcreates.session
  have hmem : ∀ id ∈ running st', id ∈ running st ∨
      id = sessionId ∧ inSpace st session.projectId = true := by
    intro id hid
    obtain ⟨found, hfound, hin, hruns⟩ := mem_running.mp hid
    rw [hspace.inSpace] at hin
    rw [hsessions, Table.get_insert] at hfound
    split_ifs at hfound with he
    · cases hfound
      exact .inr ⟨he.symm, hin⟩
    · exact .inl (mem_running.mpr ⟨found, hfound, hin, hruns⟩)
  constructor
  · refine running_le (sessionId :: running st) fun id hid => ?_
    rcases hmem id hid with hold | ⟨rfl, -⟩
    · exact List.mem_cons_of_mem _ hold
    · exact List.mem_cons_self
  · intro hnot
    rw [hproject, ← inSpace_reserved] at hnot
    refine running_le _ fun id hid => (hmem id hid).resolve_right fun hnew => ?_
    rw [hnot] at hnew
    exact Bool.false_ne_true hnew.2

end Creation

section Steps

structure SpaceStep (st st' : WorkspaceState ν) : Prop where
  named : SpaceKept WorkspaceProject.named st st'
  panels : PanelsStay st st'
  sessions : ∀ (id : ProtocolId) (session session' : TerminalSession ν),
    st.terminalSessions[id]? = some session → st'.terminalSessions[id]? = some session' →
    Stays st session.projectId session'.projectId

omit [Engine ν] in
theorem SessionsStay.homes (h : SessionsStay st st') (id : ProtocolId)
    (session session' : TerminalSession ν) (hs : st.terminalSessions[id]? = some session)
    (hs' : st'.terminalSessions[id]? = some session') :
    Stays st session.projectId session'.projectId := by
  obtain ⟨found, hfound, hstays, -⟩ := h id session' hs'
  rw [hs] at hfound
  cases hfound
  exact hstays

omit [Engine ν] in
theorem standing_named (h : SpaceKept WorkspaceProject.standing st st') :
    SpaceKept WorkspaceProject.named st st' :=
  h.comp fun p : ProtocolId × Str × Str × ProtocolId => (p.1, p.2.1, p.2.2.1)

theorem unrefused {command : Command ν} {t : CommandType} (hkind : command.kind = some t)
    (hnone : automationSpaceRefusal st command = none) :
    (t.namesProject = true → reserved st (command.fields.at "projectId") = false) ∧
    (t = .panelMove → MovesApart st command.fields) ∧
    (t = .terminalCreate ∨ t = .terminalCreatePanel →
      reserved st (command.fields.at "projectId") = true →
      liveAutomationTerminalCount st < automationSpaceTerminalLimit) := by
  rw [automationSpaceRefusal, hkind] at hnone
  refine ⟨fun hnames => ?_, ?_, ?_⟩
  · cases t <;> try cases hnames
    all_goals
      simp only [ite_eq_right_iff, reduceCtorEq, imp_false] at hnone
      exact Bool.eq_false_iff.mpr hnone
  · rintro rfl
    simp only [ite_eq_right_iff, reduceCtorEq, imp_false, Bool.not_eq_true, Bool.or_eq_false_iff]
      at hnone
    exact hnone
  · rintro (rfl | rfl) hreserved <;>
    · simp only [ite_eq_right_iff, reduceCtorEq, imp_false, hreserved, Bool.true_and,
        decide_eq_true_eq] at hnone
      omega

theorem edit_spaceStep (hc : Consistent st) {command : Command ν} {t : CommandType}
    (hkind : command.kind = some t) (hnone : automationSpaceRefusal st command = none) (now : ν) :
    Ensures (t.edit st command.fields now) fun r => SpaceStep st r.1 ∧
      (t ≠ .viewClose → SpaceKept WorkspaceProject.standing st r.1) ∧
      ((running r.1).length ≤ automationSpaceTerminalLimit ∨
        (running r.1).length ≤ (running st).length) := by
  obtain ⟨hnames, happart, hlimit⟩ := unrefused hkind hnone
  intro r hr
  by_cases hclose : t = .viewClose
  · subst hclose
    have hstays := edit_stays hc (t := .viewClose) ⟨nofun, nofun⟩ nofun now r hr
    have hspace := viewClose_space r hr
    exact ⟨⟨hspace, hstays.1, hstays.2.homes⟩, fun h => absurd rfl h,
      .inr (running_stays hspace hstays.2)⟩
  · have hspace := edit_space hc hclose hnames now r hr
    by_cases hcreate : t = .terminalCreate ∨ t = .terminalCreatePanel
    · have hcreates : CreatesSession st command.fields r.1 := by
        rcases hcreate with rfl | rfl
        · exact terminalCreate_creates hc now r hr
        · exact terminalCreatePanel_creates hc now r hr
      obtain ⟨hmore, hsame⟩ := running_created hspace hcreates
      refine ⟨⟨standing_named hspace, hcreates.panels, ?_⟩, fun _ => hspace, ?_⟩
      · obtain ⟨sessionId, made, hfree, hsessions, -⟩ := hcreates.session
        intro id session session' hs hs'
        rw [hsessions, Table.get_insert] at hs'
        split_ifs at hs' with he
        · rw [← he, hfree] at hs
          cases hs
        · rw [hs] at hs'
          cases hs'
          exact .inl rfl
      · by_cases hreserved : reserved st (command.fields.at "projectId") = true
        · have hlt := hlimit hcreate hreserved
          rw [live_running hc] at hlt
          exact .inl (by omega)
        · exact .inr (hsame (by simpa using hreserved))
    · rw [not_or] at hcreate
      have hstays := edit_stays hc hcreate happart now r hr
      exact ⟨⟨standing_named hspace, hstays.1, hstays.2.homes⟩, fun _ => hspace,
        .inr (running_stays hspace hstays.2)⟩

def ClosesHome (command : Command ν) (p p' : WorkspaceProject ν) (st' : WorkspaceState ν) : Prop :=
  command.kind = some .viewClose ∧ p.viewId = propertyKey (command.fields.at "viewId") ∧
    st'.viewOrder.head? = some p'.viewId

def HomeStays (st : WorkspaceState ν) (command : Command ν) (st' : WorkspaceState ν) : Prop :=
  ∀ id p p', spaceOf st id = some p → spaceOf st' id = some p' →
    p'.viewId = p.viewId ∨ ClosesHome command p p' st'

omit [Engine ν] in
theorem standing_home (h : SpaceKept WorkspaceProject.standing st st') {id : ProtocolId}
    {p p' : WorkspaceProject ν} (hp : spaceOf st id = some p) (hp' : spaceOf st' id = some p') :
    p'.viewId = p.viewId := by
  have hid := h id
  rw [hp, hp', Option.map_some, Option.map_some, Option.some.injEq] at hid
  exact congrArg (fun standing => standing.2.2.2) hid

theorem viewClose_home {command : Command ν} (hkind : command.kind = some .viewClose) :
    Ensures (viewClose st command.fields) fun r => HomeStays st command r.1 := by
  refine .bind fun view _ => .bind fun _ _ => .bind fun _ _ => .ok fun id p p' hp hp' => ?_
  rw [spaceOf_some] at hp hp'
  obtain ⟨hp', -⟩ := hp'
  rw [Table.get_mapValues, hp.1, Option.map_some, Option.some.injEq] at hp'
  rw [← hp']
  dsimp only
  rcases hhome : (st.viewOrder.filter
      (· ≠ propertyKey (command.fields.at "viewId"))).head? with _ | home
  · exact .inl rfl
  · by_cases hview : p.viewId = propertyKey (command.fields.at "viewId")
    · right
      refine ⟨hkind, hview, ?_⟩
      rw [rehomed, if_pos hview]
      exact hhome
    · left
      rw [rehomed, if_neg hview]

omit [Engine ν] in
theorem SpaceStep.refl (st : WorkspaceState ν) : SpaceStep st st :=
  ⟨SpaceKept.refl _ st, .of_eq rfl, (SessionsStay.of_eq rfl).homes⟩

structure Recovers (st next : WorkspaceState ν) : Prop where
  space : SpaceKept WorkspaceProject.standing st next
  panels : PanelsStay st next
  sessions : ∀ (id : ProtocolId) (session session' : TerminalSession ν),
    st.terminalSessions[id]? = some session → next.terminalSessions[id]? = some session' →
    Stays st session.projectId session'.projectId

section

omit [Engine ν]

theorem rewritten_recovers
    {rewrite : ProtocolId → TerminalSession ν → Option (TerminalSession ν)}
    (hhome : ∀ id session session', rewrite id session = some session' →
      session'.projectId = session.projectId) : Recovers st (rewriteSessions st rewrite).1 := by
  refine ⟨.of_projects rfl, .of_eq rfl, fun id session session' hs hs' => ?_⟩
  rw [rewriteSessions, Table.get_mapValues, hs, Option.map_some, Option.some.injEq] at hs'
  rw [← hs']
  rcases hrewrite : rewrite id session with _ | found
  · exact .inl rfl
  · exact .inl (hhome id session found hrewrite)

theorem reconciled_home {live : List ProtocolId} {exited : Table.Of ProtocolId (Option (Json ν))}
    {at_ : ν} (id : ProtocolId) (session session' : TerminalSession ν)
    (h : reconciled live exited at_ id session = some session') :
    session'.projectId = session.projectId := by
  rw [reconciled] at h
  rcases hexit : exited[id]? with _ | exitCode
  · rw [hexit] at h
    dsimp only at h
    split_ifs at h
    · cases h
      rfl
    · cases h
      rfl
  · rw [hexit] at h
    dsimp only at h
    split_ifs at h
    · cases h
      rfl
    · cases h
      rfl

theorem discardFrom_recovers (stale : List ProtocolId) (st : WorkspaceState ν)
    (project : WorkspaceProject ν) :
    SpaceKept WorkspaceProject.standing st (discardFrom stale st project) ∧
      (discardFrom stale st project).panels = st.panels := by
  rw [discardFrom]
  split
  · exact ⟨SpaceKept.trans (SpaceKept.of_projects rfl) (syncProject_space _ _ _),
      syncProject_panels⟩
  · exact ⟨SpaceKept.refl _ st, rfl⟩

theorem discardAll_recovers (stale : List ProtocolId) (projects : List (WorkspaceProject ν))
    (st : WorkspaceState ν) :
    SpaceKept WorkspaceProject.standing st (projects.foldl (discardFrom stale) st) ∧
      (projects.foldl (discardFrom stale) st).panels = st.panels := by
  induction projects generalizing st with
  | nil => exact ⟨SpaceKept.refl _ st, rfl⟩
  | cons project projects ih =>
    obtain ⟨hspace, hpanels⟩ := discardFrom_recovers stale st project
    obtain ⟨hrest, hrestPanels⟩ := ih (discardFrom stale st project)
    exact ⟨hspace.trans hrest, hrestPanels.trans hpanels⟩

theorem discarded_recovers (st : WorkspaceState ν) : Recovers st (discarded st).1 := by
  obtain ⟨hspace, hpanels⟩ := discardAll_recovers (stalePanelIds st)
    (st.projects.toList.map (·.2))
    { st with panels := Table.eraseAll st.panels (stalePanelIds st) }
  refine ⟨SpaceKept.trans (SpaceKept.of_projects rfl) hspace, .of_erased fun id q hq => ?_,
    fun id session session' _ hs' => ?_⟩
  · rw [discarded] at hq
    dsimp only at hq
    rw [hpanels, Table.get_eraseAll] at hq
    split_ifs at hq
    exact hq
  · rw [discarded] at hs'
    dsimp only at hs'
    rw [Std.ExtTreeMap.getElem?_empty] at hs'
    cases hs'

end

end Steps

section Calls

structure CallKeeps (st : WorkspaceState ν) (call : StoreCall ν) (st' : WorkspaceState ν) :
    Prop where
  space : ∀ id p, spaceOf st id = some p → ∃ p', spaceOf st' id = some p' ∧ p'.named = p.named ∧
    (p'.viewId = p.viewId ∨
      ∃ envelope now, call = .apply envelope now ∧ ClosesHome envelope.command p p' st')
  made : ∀ id, inSpace st' id = true →
    inSpace st id = true ∨ ∃ root, call = .ensureAutomationSpace root
  panels : PanelsStay st st'
  sessions : ∀ (id : ProtocolId) (session session' : TerminalSession ν),
    st.terminalSessions[id]? = some session → st'.terminalSessions[id]? = some session' →
    Stays st session.projectId session'.projectId

theorem SpaceStep.keeps {call : StoreCall ν} (h : SpaceStep st st')
    (hhome : ∀ id p p', spaceOf st id = some p → spaceOf st' id = some p' → p'.viewId = p.viewId ∨
      ∃ envelope now, call = .apply envelope now ∧ ClosesHome envelope.command p p' st') :
    CallKeeps st call st' where
  space id p hp := by
    have hid := h.named id
    rw [hp, Option.map_some, Option.map_eq_some_iff] at hid
    obtain ⟨p', hp', hnamed⟩ := hid
    exact ⟨p', hp', hnamed, hhome id p p' hp hp'⟩
  made id hid := .inl (by rw [← h.named.inSpace]; exact hid)
  panels := h.panels
  sessions := h.sessions

theorem CallKeeps.refl (st : WorkspaceState ν) (call : StoreCall ν) : CallKeeps st call st := by
  refine (SpaceStep.refl st).keeps fun id p p' hp hp' => .inl ?_
  rw [hp] at hp'
  cases hp'
  rfl

theorem Recovers.keeps (h : Recovers st st') (call : StoreCall ν) (revision : ℕ) :
    CallKeeps st call (numbered revision st') :=
  SpaceStep.keeps ⟨standing_named h.space, h.panels, h.sessions⟩
    fun _ _ _ hp hp' => .inl (standing_home h.space hp hp')

/-- The count stays within the limit, or does not grow. -/
def Within (st st' : WorkspaceState ν) : Prop :=
  (running st').length ≤ automationSpaceTerminalLimit ∨ (running st').length ≤ (running st).length

omit [Engine ν] in
theorem Within.refl (st : WorkspaceState ν) : Within st st := .inr le_rfl

theorem draft_space (hc : Consistent st) {envelope : WorkspaceCommandEnvelope ν} {now : ν}
    {r : Edited ν} (hd : draft st envelope.command now = .ok r) (revision : ℕ) :
    CallKeeps st (.apply envelope now) (numbered revision r.1) ∧
      Within st (numbered revision r.1) := by
  obtain ⟨hnone, t, hkind, hedit⟩ := reduce_ok.mp (draft_ok.mp hd).1
  obtain ⟨hstep, hspace, hwithin⟩ := edit_spaceStep hc hkind hnone now r hedit
  refine ⟨SpaceStep.keeps ⟨hstep.named, hstep.panels, hstep.sessions⟩ fun id p p' hp hp' => ?_,
    hwithin⟩
  by_cases hclose : t = .viewClose
  · subst hclose
    exact (viewClose_home hkind r hedit id p p' hp hp').imp_right
      fun hcloses => ⟨envelope, now, rfl, hcloses⟩
  · exact .inl (standing_home (hspace hclose) hp hp')

theorem apply_space {s : WorkspaceStore ν} (hc : Consistent s.current)
    (envelope : WorkspaceCommandEnvelope ν) (now : ν) (written : Bool) :
    CallKeeps s.current (.apply envelope now) (apply s envelope now written).1.current ∧
      Within s.current (apply s envelope now written).1.current := by
  rcases apply_current s envelope now written with hsame | ⟨r, hd, hnew⟩
  · rw [hsame]
    exact ⟨.refl _ _, .refl _⟩
  · rw [hnew]
    exact draft_space hc hd _

theorem recover_current (s : WorkspaceStore ν) (next : WorkspaceState ν)
    (changedIds : List ProtocolId) (commandId : String) (written : Bool) :
    (recover s next changedIds commandId written).current = s.current ∨
      (recover s next changedIds commandId written).current =
        numbered (s.current.revision + 1) next := by
  unfold recover
  split_ifs
  · exact .inl rfl
  · exact .inr rfl
  · exact .inl rfl

theorem recover_space {s : WorkspaceStore ν} {next : WorkspaceState ν}
    (hnext : Recovers s.current next) (call : StoreCall ν) (changedIds : List ProtocolId)
    (commandId : String) (written : Bool) :
    CallKeeps s.current call (recover s next changedIds commandId written).current := by
  rcases recover_current s next changedIds commandId written with hsame | hnew
  · rw [hsame]
    exact .refl _ _
  · rw [hnew]
    exact hnext.keeps call _

theorem recover_within {s : WorkspaceStore ν} {next : WorkspaceState ν}
    (hnext : Within s.current next) (changedIds : List ProtocolId) (commandId : String)
    (written : Bool) :
    Within s.current (recover s next changedIds commandId written).current := by
  rcases recover_current s next changedIds commandId written with hsame | hnew
  · rw [hsame]
    exact .refl _
  · rw [hnew]
    exact hnext

omit [Engine ν] in
theorem rewritten_session {rewrite : ProtocolId → TerminalSession ν → Option (TerminalSession ν)}
    {id : ProtocolId} {session' : TerminalSession ν}
    (h : (rewriteSessions st rewrite).1.terminalSessions[id]? = some session') :
    ∃ session, st.terminalSessions[id]? = some session ∧
      session' = (rewrite id session).getD session := by
  rw [rewriteSessions, Table.get_mapValues, Option.map_eq_some_iff] at h
  obtain ⟨session, hs, rfl⟩ := h
  exact ⟨session, hs, rfl⟩

omit [Engine ν] in
theorem interrupted_stay (at_ : ν) : SessionsStay st
    (rewriteSessions st fun _ session =>
      if session.status = .running then some (interrupted at_ session) else none).1 := by
  intro id session' hs'
  obtain ⟨session, hs, rfl⟩ := rewritten_session hs'
  refine ⟨session, hs, ?_⟩
  split
  · exact ⟨.inl rfl, nofun⟩
  · exact SessionStays.refl st session

def revived (st : WorkspaceState ν) (live : List ProtocolId) : List ProtocolId :=
  (st.terminalSessions.toList.filter fun e =>
    inSpace st e.2.projectId && (e.1 ∈ live && e.2.status != .exited)).map fun e => e.1

omit [Engine ν] in
theorem reconciled_runs {live : List ProtocolId} {exited : Table.Of ProtocolId (Option (Json ν))}
    {at_ : ν} {id : ProtocolId} {session : TerminalSession ν}
    (h : ((reconciled live exited at_ id session).getD session).status = .running) :
    id ∈ live ∧ session.status ≠ .exited := by
  rw [reconciled] at h
  by_cases hlive : id ∈ live
  · rw [if_pos hlive] at h
    refine ⟨hlive, fun hexited => ?_⟩
    rw [if_neg (by rw [hexited]; exact nofun), Option.getD_none, hexited] at h
    cases h
  · rw [if_neg hlive] at h
    by_cases hexited : session.status = .exited
    · rw [if_pos hexited, Option.getD_none, hexited] at h
      cases h
    · rw [if_neg hexited] at h
      rcases hexit : exited[id]? with _ | exitCode
      · rw [hexit] at h
        dsimp only at h
        split_ifs at h with hran
        · cases h
        · exact absurd h hran
      · rw [hexit] at h
        cases h

omit [Engine ν] in
theorem running_revived (live : List ProtocolId) (exited : Table.Of ProtocolId (Option (Json ν)))
    (at_ : ν) :
    (running (rewriteSessions st (reconciled live exited at_)).1).length ≤
      (revived st live).length := by
  refine running_le _ fun id hid => ?_
  obtain ⟨session', hs', hin, hruns⟩ := mem_running.mp hid
  obtain ⟨session, hs, rfl⟩ := rewritten_session hs'
  have hmem : (id, session) ∈ st.terminalSessions.toList := Table.mem_entries.mpr hs
  refine List.mem_map.mpr ⟨(id, session), List.mem_filter.mpr ⟨hmem, ?_⟩, rfl⟩
  have hhome : ((reconciled live exited at_ id session).getD session).projectId =
      session.projectId := by
    rcases hrewrite : reconciled live exited at_ id session with _ | found
    · rfl
    · exact reconciled_home id session found hrewrite
  rw [hhome] at hin
  rw [Bool.and_eq_true, Bool.and_eq_true, decide_eq_true_eq, bne_iff_ne]
  exact ⟨hin, reconciled_runs hruns⟩

theorem withAutomationSpace_keeps (hc : Consistent st) {root : Str} {next : WorkspaceState ν}
    (hfind : findAutomationSpace st = none) (h : withAutomationSpace st root = .ok next)
    (revision : ℕ) :
    CallKeeps st (.ensureAutomationSpace root) (numbered revision next) ∧
      Within st (numbered revision next) := by
  simp only [withAutomationSpace, bind_ok, Except.ok.injEq, refuseIf_ok, demand_ok] at h
  obtain ⟨-, hfree, viewId, -, path, -, -, -, rfl⟩ := h
  have hnone : st.projects[automationSpaceProjectId]? = none := by
    rw [occupied, Bool.or_eq_true, not_or] at hfree
    simpa using hfree.1
  rw [findAutomationSpace, List.find?_eq_none] at hfind
  refine ⟨⟨fun id p hp => ?_, fun id _ => .inr ⟨root, rfl⟩, .of_eq rfl,
    fun id session session' hs hs' => ?_⟩, .inr (running_le _ fun id hid => ?_)⟩
  · rw [spaceOf_some] at hp
    exact absurd hp.2 (hfind p (List.mem_map.mpr ⟨_, Table.mem_entries.mpr hp.1, rfl⟩))
  · exact (SessionsStay.of_eq rfl).homes id session session' hs hs'
  · obtain ⟨session, hs, hin, -⟩ := mem_running.mp hid
    obtain ⟨p, hp, hspace⟩ := inSpace_iff.mp hin
    obtain ⟨q, hq, -⟩ := (hc.sessions id session hs).project
    have hold : st.projects[session.projectId]? = some p := by
      rw [numbered, Table.get_insert] at hp
      split_ifs at hp with he
      · rw [← he, hnone] at hq
        cases hq
      · exact hp
    exact absurd hspace (hfind p (List.mem_map.mpr ⟨_, Table.mem_entries.mpr hold, rfl⟩))

theorem ensureAutomationSpace_space {s : WorkspaceStore ν} (hc : Consistent s.current) (root : Str)
    (written : Bool) :
    CallKeeps s.current (.ensureAutomationSpace root)
        (ensureAutomationSpace s root written).current ∧
      Within s.current (ensureAutomationSpace s root written).current := by
  unfold ensureAutomationSpace
  rcases hfind : findAutomationSpace s.current with _ | space
  · rcases hw : withAutomationSpace s.current root with message | next
    · exact ⟨.refl _ _, .refl _⟩
    · cases written with
      | false => exact ⟨.refl _ _, .refl _⟩
      | true => exact withAutomationSpace_keeps hc hfind hw _
  · exact ⟨.refl _ _, .refl _⟩

/-- No reconciliation finds more unexited sessions of the space live than the limit. -/
def RevivesWithin (s : WorkspaceStore ν) (call : StoreCall ν × Bool) : Prop :=
  match call.1 with
  | .reconcileHeldTerminalSessions live _ _ =>
    (revived s.current live).length ≤ automationSpaceTerminalLimit
  | _ => True

instance (s : WorkspaceStore ν) : (call : StoreCall ν × Bool) → Decidable (RevivesWithin s call)
  | (.reconcileHeldTerminalSessions live _ _, _) =>
    inferInstanceAs (Decidable ((revived s.current live).length ≤ automationSpaceTerminalLimit))
  | (.apply .., _) | (.ensureAutomationSpace _, _) | (.markInterruptedSessions _, _)
  | (.discardStaleTerminalState, _) => inferInstanceAs (Decidable True)

theorem run_keeps {s : WorkspaceStore ν} (hc : Consistent s.current) (call : StoreCall ν)
    (written : Bool) : CallKeeps s.current call (call.run s written).current := by
  cases call with
  | apply envelope now => exact (apply_space hc envelope now written).1
  | ensureAutomationSpace root => exact (ensureAutomationSpace_space hc root written).1
  | markInterruptedSessions at_ =>
    refine recover_space (rewritten_recovers fun id session session' hrewrite => ?_) _ _ _ _
    split_ifs at hrewrite
    cases hrewrite
    rfl
  | reconcileHeldTerminalSessions live exited at_ =>
    exact recover_space (rewritten_recovers reconciled_home) _ _ _ _
  | discardStaleTerminalState => exact recover_space (discarded_recovers s.current) _ _ _ _

theorem run_within {s : WorkspaceStore ν} (hc : Consistent s.current) (call : StoreCall ν)
    (written : Bool) (hrevives : RevivesWithin s (call, written)) :
    Within s.current (call.run s written).current := by
  cases call with
  | apply envelope now => exact (apply_space hc envelope now written).2
  | ensureAutomationSpace root => exact (ensureAutomationSpace_space hc root written).2
  | markInterruptedSessions at_ =>
    have hspace : SpaceKept WorkspaceProject.standing s.current
        (rewriteSessions s.current fun _ session =>
          if session.status = .running then some (interrupted at_ session) else none).1 :=
      .of_projects rfl
    exact recover_within (.inr (running_stays hspace (interrupted_stay at_))) _ _ _
  | reconcileHeldTerminalSessions live exited at_ =>
    exact recover_within (.inl ((running_revived live exited at_).trans hrevives)) _ _ _
  | discardStaleTerminalState =>
    refine recover_within (.inr (running_le _ fun id hid => ?_)) _ _ _
    obtain ⟨session, hs, -⟩ := mem_running.mp hid
    rw [discarded] at hs
    dsimp only at hs
    rw [Std.ExtTreeMap.getElem?_empty] at hs
    cases hs

end Calls

/-! ## The space in a run -/

structure SpaceStands (st : WorkspaceState ν) : Prop where
  one : ∀ i j, inSpace st i = true → inSpace st j = true → i = j
  named : ∀ id p, spaceOf st id = some p →
    id = automationSpaceProjectId ∧ p.id = id ∧ p.name = automationSpaceName
  unlisted : ∀ id, inSpace st id = true → ∀ (v : ProtocolId) (view : WorkspaceView),
    st.views[v]? = some view → id ∉ view.projectIds

/-- Every space is the one that was made, as far as its name and identity tell. -/
def NamedSpace (st : WorkspaceState ν) : Prop :=
  ∀ id p, spaceOf st id = some p → id = automationSpaceProjectId ∧ p.name = automationSpaceName

theorem NamedSpace.stands (hn : NamedSpace st) (h : Sound st) : SpaceStands st where
  one i j hi hj := by
    obtain ⟨p, hp, hspace⟩ := inSpace_iff.mp hi
    obtain ⟨q, hq, hspace'⟩ := inSpace_iff.mp hj
    exact h.consistent.oneSpace i j p q hp hq (automationSpace_iff.mp hspace)
      (automationSpace_iff.mp hspace')
  named id p hp := by
    have hproject := (spaceOf_some.mp hp).1
    exact ⟨(hn id p hp).1, (h.consistent.projects id p hproject).identity, (hn id p hp).2⟩
  unlisted id hid v view hv := by
    obtain ⟨p, hp, hspace⟩ := inSpace_iff.mp hid
    exact h.coherent.reserved id p hp hspace v view hv

theorem ensured_named {s : WorkspaceStore ν} (hn : NamedSpace s.current) (root : Str)
    (written : Bool) : NamedSpace (ensureAutomationSpace s root written).current := by
  unfold ensureAutomationSpace
  by_cases hfound : (findAutomationSpace s.current).isSome = true
  · rw [if_pos hfound]
    exact hn
  · rw [if_neg hfound]
    rcases hw : withAutomationSpace s.current root with message | next
    · exact hn
    · cases written with
      | false => exact hn
      | true =>
        simp only [withAutomationSpace, bind_ok, Except.ok.injEq] at hw
        obtain ⟨-, -, viewId, -, path, -, -, -, rfl⟩ := hw
        intro id p hp
        obtain ⟨hproject, hspace⟩ := spaceOf_some.mp hp
        change (s.current.projects.insert automationSpaceProjectId
          (automationSpace s.current viewId path))[id]? = some p at hproject
        rw [Table.get_insert] at hproject
        split_ifs at hproject with he
        · cases hproject
          exact ⟨he.symm, rfl⟩
        · exact hn id p (spaceOf_some.mpr ⟨hproject, hspace⟩)

theorem kept_named {call : StoreCall ν} (h : CallKeeps st call st')
    (hcall : ∀ root, call ≠ .ensureAutomationSpace root) (hn : NamedSpace st) : NamedSpace st' := by
  intro id p' hp'
  have hin : inSpace st id = true := by
    refine (h.made id ?_).resolve_right fun ⟨root, hroot⟩ => hcall root hroot
    rw [inSpace, hp']
    rfl
  obtain ⟨p, hp, hspace⟩ := inSpace_iff.mp hin
  have hold := spaceOf_some.mpr ⟨hp, hspace⟩
  obtain ⟨q, hq, hnamed, -⟩ := h.space id p hold
  rw [hp', Option.some.injEq] at hq
  rw [hq]
  exact ⟨(hn id p hold).1, (congrArg (fun named => named.2.1) hnamed).trans (hn id p hold).2⟩

theorem run_named {s : WorkspaceStore ν} (h : Sound s.current) (hn : NamedSpace s.current)
    (call : StoreCall ν) (written : Bool) : NamedSpace (call.run s written).current := by
  have hkeeps := run_keeps h.consistent call written
  cases call with
  | ensureAutomationSpace root => exact ensured_named hn root written
  | apply envelope now => exact kept_named hkeeps nofun hn
  | markInterruptedSessions at_ => exact kept_named hkeeps nofun hn
  | reconcileHeldTerminalSessions live exited at_ => exact kept_named hkeeps nofun hn
  | discardStaleTerminalState => exact kept_named hkeeps nofun hn

def SpaceInvariant (s : WorkspaceStore ν) : Prop := Sound s.current ∧ NamedSpace s.current

theorem runCalls_space {s : WorkspaceStore ν} (h : SpaceInvariant s)
    (calls : List (StoreCall ν × Bool)) : SpaceInvariant (runCalls s calls) := by
  have hstep : ∀ (s : WorkspaceStore ν) (c : StoreCall ν × Bool), SpaceInvariant s →
      SpaceInvariant (c.1.run s c.2) :=
    fun _ c h => ⟨run_sound h.1 c.1 c.2, run_named h.1 h.2 c.1 c.2⟩
  exact Runs.invariant hstep h calls

theorem runCalls_within {s : WorkspaceStore ν} (h : Sound s.current)
    (hfew : (running s.current).length ≤ automationSpaceTerminalLimit)
    {calls : List (StoreCall ν × Bool)}
    (hmeets : Runs.Meets (fun s (c : StoreCall ν × Bool) => c.1.run s c.2) RevivesWithin s calls) :
    (running (runCalls s calls).current).length ≤ automationSpaceTerminalLimit := by
  have hstep : ∀ (s : WorkspaceStore ν) (c : StoreCall ν × Bool),
      Sound s.current ∧ (running s.current).length ≤ automationSpaceTerminalLimit →
      RevivesWithin s c → Sound (c.1.run s c.2).current ∧
        (running (c.1.run s c.2).current).length ≤ automationSpaceTerminalLimit := by
    intro s c ⟨hs, hlimit⟩ hrevives
    refine ⟨run_sound hs c.1 c.2, ?_⟩
    rcases run_within hs.consistent c.1 c.2 hrevives with hlimit' | hfewer
    · exact hlimit'
    · exact hfewer.trans hlimit
  exact (Runs.invariant_of_meets
    (I := fun s : WorkspaceStore ν =>
      Sound s.current ∧ (running s.current).length ≤ automationSpaceTerminalLimit)
    hstep ⟨h, hfew⟩ hmeets).2

/-- The automation space of a run: what holds of it in every state, what every next call
leaves of it, and the limit where no reconciliation goes beyond it. -/
theorem space_runs {serverId : ProtocolId} {initial : WorkspaceState ν}
    (h : createInitialWorkspace serverId = .ok initial) (maxHistory maxHistoryBytes : ℕ)
    (calls : List (StoreCall ν × Bool)) :
    SpaceStands (runCalls (newStore initial maxHistory maxHistoryBytes) calls).current ∧
      (∀ (call : StoreCall ν) (written : Bool),
        CallKeeps (runCalls (newStore initial maxHistory maxHistoryBytes) calls).current call
          (call.run (runCalls (newStore initial maxHistory maxHistoryBytes) calls) written).current) ∧
      (Runs.Meets (fun s (c : StoreCall ν × Bool) => c.1.run s c.2) RevivesWithin
          (newStore initial maxHistory maxHistoryBytes) calls →
        liveAutomationTerminalCount
            (runCalls (newStore initial maxHistory maxHistoryBytes) calls).current ≤
          automationSpaceTerminalLimit) := by
  obtain ⟨hid, rfl⟩ := createInitialWorkspace_ok.mp h
  have hsound : Sound (newStore (initialWorkspace serverId : WorkspaceState ν) maxHistory
      maxHistoryBytes).current := initialWorkspace_sound hid
  have hnamed : NamedSpace (newStore (initialWorkspace serverId : WorkspaceState ν) maxHistory
      maxHistoryBytes).current := by
    intro id p hp
    rw [spaceOf_some] at hp
    change (∅ : Table.Of ProtocolId (WorkspaceProject ν))[id]? = some p ∧ _ at hp
    rw [Std.ExtTreeMap.getElem?_empty] at hp
    cases hp.1
  obtain ⟨hs, hn⟩ := runCalls_space ⟨hsound, hnamed⟩ calls
  refine ⟨hn.stands hs, fun call written => run_keeps hs.consistent call written,
    fun hmeets => ?_⟩
  rw [live_running hs.consistent]
  exact runCalls_within hsound (Nat.zero_le _) hmeets

def spaceTerminal (sessionId : Str) : StoreCall ℤ × Bool :=
  (.apply ⟨js "c" ++ sessionId, none, ⟨js "terminal.create", Table.ofEntries
    [(js "projectId", .str automationSpaceProjectId), (js "sessionId", .str sessionId)]⟩⟩ 0, true)

def spaceStore (calls : List (StoreCall ℤ × Bool)) : WorkspaceStore ℤ :=
  runCalls (newStore (initialWorkspace (js "srv")) 1 10) calls

/-- One terminal of the space, interrupted and found live again. -/
theorem space_runs_revived :
    liveAutomationTerminalCount (spaceStore [(.ensureAutomationSpace (js "/a"), true),
      spaceTerminal (js "t"), (.markInterruptedSessions 0, true),
      (.reconcileHeldTerminalSessions [js "t"] ∅ 0, true)]).current ≤
        automationSpaceTerminalLimit :=
  (space_runs (createInitialWorkspace_ok.mpr ⟨by decide, rfl⟩) 1 10 _).2.2 (by decide +kernel)

def overfull : List (StoreCall ℤ × Bool) :=
  (.ensureAutomationSpace (js "/a"), true) ::
    ((List.range 50).map (fun n => spaceTerminal (natText n)) ++
      [(.markInterruptedSessions 0, true), spaceTerminal (natText 50),
        (.reconcileHeldTerminalSessions ((List.range 51).map natText) ∅ 0, true)])

def rehoming : List (StoreCall ℤ × Bool) :=
  [(.ensureAutomationSpace (js "/a"), true),
    (.apply ⟨js "c1", none, ⟨js "view.create",
      Table.ofEntries [(js "viewId", .str (js "v2")), (js "name", .str (js "Two"))]⟩⟩ 0, true),
    (.apply ⟨js "c2", none, ⟨js "view.close",
      Table.ofEntries [(js "viewId", .str (js "srv:view:default"))]⟩⟩ 0, true)]

theorem space_overfull_rehomed :
    liveAutomationTerminalCount (spaceStore overfull).current = 51 ∧
      (spaceOf (spaceStore (rehoming.take 2)).current automationSpaceProjectId).map (·.viewId) =
        some (js "srv:view:default") ∧
      (spaceOf (spaceStore rehoming).current automationSpaceProjectId).map (·.viewId) =
        some (js "v2") := by
  decide +kernel

end Terminay.Workspace
