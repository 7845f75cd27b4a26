import Terminay.Workspace.Coherent
import Terminay.Workspace.Sessions

/-!
# The automation space and its commands

The reserved project is kept by every command: the refusals stop those that name
it, and the others reach it only through what a project derives from its folders.
-/

namespace Terminay.Workspace
open Script Outcome

variable {ν : Type}

def spaceOf (st : WorkspaceState ν) (id : ProtocolId) : Option (WorkspaceProject ν) :=
  st.projects[id]?.filter isAutomationSpace

def inSpace (st : WorkspaceState ν) (projectId : ProtocolId) : Bool := (spaceOf st projectId).isSome

/-- What a command leaves of the space: its identity, its name, its root and its home view. -/
def WorkspaceProject.standing (p : WorkspaceProject ν) : ProtocolId × Str × Str × ProtocolId :=
  (p.id, p.name, p.root, p.viewId)

def WorkspaceProject.named (p : WorkspaceProject ν) : ProtocolId × Str × Str :=
  (p.id, p.name, p.root)

def SpaceKept {β : Type} (g : WorkspaceProject ν → β) (st st' : WorkspaceState ν) : Prop :=
  ∀ id, (spaceOf st' id).map g = (spaceOf st id).map g

section Projects

variable {β : Type} {g : WorkspaceProject ν → β} {st st' st'' : WorkspaceState ν}

theorem SpaceKept.refl (g : WorkspaceProject ν → β) (st : WorkspaceState ν) : SpaceKept g st st :=
  fun _ => rfl

theorem SpaceKept.trans (h : SpaceKept g st st') (h' : SpaceKept g st' st'') :
    SpaceKept g st st'' := fun id => (h' id).trans (h id)

theorem SpaceKept.of_projects (h : st'.projects = st.projects) : SpaceKept g st st' := by
  intro id
  rw [spaceOf, spaceOf, h]

theorem SpaceKept.comp {γ : Type} (f : β → γ) (h : SpaceKept g st st') :
    SpaceKept (f ∘ g) st st' := by
  intro id
  rw [← Option.map_map, ← Option.map_map, h id]

theorem SpaceKept.inSpace (h : SpaceKept g st st') (id : ProtocolId) :
    inSpace st' id = inSpace st id := by
  have hid := congrArg Option.isSome (h id)
  rwa [Option.isSome_map, Option.isSome_map] at hid

theorem SpaceKept.insert {k : ProtocolId} {p p' : WorkspaceProject ν}
    (hp : st.projects[k]? = some p) (hkind : p'.kind = p.kind)
    (hg : isAutomationSpace p = true → g p' = g p) :
    SpaceKept g st { st with projects := st.projects.insert k p' } := by
  intro id
  rw [spaceOf, spaceOf, Table.get_insert]
  split_ifs with he
  · rw [← he, hp]
    have hsame : isAutomationSpace p' = isAutomationSpace p := by
      rw [isAutomationSpace, isAutomationSpace, hkind]
    by_cases hspace : isAutomationSpace p = true
    · rw [Option.filter_some, Option.filter_some, hsame, if_pos hspace, if_pos hspace]
      exact congrArg some (hg hspace)
    · rw [Option.filter_some, Option.filter_some, hsame, if_neg hspace, if_neg hspace]
  · rfl

theorem SpaceKept.mapValues {f : WorkspaceProject ν → WorkspaceProject ν}
    (hkind : ∀ p, (f p).kind = p.kind) (hg : ∀ p, isAutomationSpace p = true → g (f p) = g p) :
    SpaceKept g st { st with projects := Table.mapValues (fun _ => f) st.projects } := by
  intro id
  rw [spaceOf, spaceOf, Table.get_mapValues]
  rcases st.projects[id]? with _ | p
  · rfl
  · have hsame : isAutomationSpace (f p) = isAutomationSpace p := by
      rw [isAutomationSpace, isAutomationSpace, hkind]
    by_cases hspace : isAutomationSpace p = true
    · rw [Option.map_some, Option.filter_some, Option.filter_some, hsame, if_pos hspace,
        if_pos hspace]
      exact congrArg some (hg p hspace)
    · rw [Option.map_some, Option.filter_some, Option.filter_some, hsame, if_neg hspace,
        if_neg hspace]

theorem SpaceKept.erase {k : ProtocolId} (hk : Workspace.inSpace st k = false) :
    SpaceKept g st { st with projects := st.projects.erase k } := by
  intro id
  rw [spaceOf, spaceOf, Table.get_erase]
  split_ifs with he
  · rw [← he]
    rw [Workspace.inSpace, spaceOf, Option.isSome_eq_false_iff, Option.isNone_iff_eq_none] at hk
    rw [hk]
    rfl
  · rfl

theorem syncProject_space (st : WorkspaceState ν) (pid : ProtocolId) (active : Option ProtocolId) :
    SpaceKept WorkspaceProject.standing st (syncProject st pid active) := by
  rw [syncProject]
  rcases hp : st.projects[pid]? with _ | project
  · exact SpaceKept.refl _ st
  · exact SpaceKept.insert hp rfl fun _ => rfl

theorem putProject_space {k : ProtocolId} {p p' : WorkspaceProject ν}
    (hp : st.projects[k]? = some p) (hkind : p'.kind = p.kind)
    (hg : isAutomationSpace p = true → g p' = g p) : SpaceKept g st (putProject st k p') :=
  SpaceKept.insert hp hkind hg

end Projects

section Commands

variable [Engine ν] {st : WorkspaceState ν} {c : Fields ν}

omit [Engine ν] in
theorem removeFromFolder_projects {folderId panelId : ProtocolId} :
    Ensures (removeFromFolder st folderId panelId) fun st' => st'.projects = st.projects :=
  .bind fun _ _ => .ok rfl

theorem movePanelToFolder_space {p : ProtocolId} {folderId index : Option (Json ν)} :
    Ensures (movePanelToFolder st p folderId index)
      (SpaceKept WorkspaceProject.standing st) := by
  refine .bind fun panel _ => .bind fun target _ => .bind fun _ _ => .bind fun st1 hleave =>
    .bind fun _ _ => .bind fun _ _ => .ok ?_
  have hprojects : st1.projects = st.projects :=
    Ensures.ite (fun _ => removeFromFolder_projects) (fun _ => .ok rfl) st1 hleave
  exact SpaceKept.trans (SpaceKept.of_projects hprojects) (syncProject_space _ _ _)

theorem rehomeSession_projects {panel : WorkspacePanel ν} {projectId : ProtocolId} :
    Ensures (rehomeSession st panel projectId) fun st' => st'.projects = st.projects :=
  .ite (fun _ => .bind fun _ _ => .ok rfl) fun _ => .ok rfl

theorem panelMove_space : Ensures (panelMove st c) fun r =>
    SpaceKept WorkspaceProject.standing st r.1 := by
  refine .bind fun panel _ => .bind fun source _ => .bind fun target _ => .bind fun _ _ =>
    .bind fun folder _ => .ite (fun _ => ?_) fun _ => ?_
  · exact .bind fun st1 hmove => .ok (movePanelToFolder_space st1 hmove)
  · refine .bind fun st1 hremove => .bind fun position _ => .bind fun st4 hrehome => .ok ?_
    have hprojects : st1.projects = (forgetPanelReferences st source.id panel.id).projects :=
      removeFromFolder_projects st1 hremove
    refine SpaceKept.trans ?_ (SpaceKept.of_projects (rehomeSession_projects st4 hrehome))
    refine SpaceKept.trans ?_ (syncProject_space _ _ _)
    exact SpaceKept.trans (SpaceKept.of_projects hprojects) (syncProject_space _ _ _)

theorem unreserved {k : ProtocolId} {project : WorkspaceProject ν}
    (hp : st.projects[k]? = some project)
    (hnot : reserved st (some (.str k : Json ν)) = false) : isAutomationSpace project = false := by
  rw [reserved, Json.text, hp, Option.any_some] at hnot
  exact hnot

omit [Engine ν] in
theorem rehomed_space (viewId : ProtocolId) (home : Option ProtocolId) (p : WorkspaceProject ν) :
    (rehomed viewId home p).kind = p.kind ∧ (rehomed viewId home p).named = p.named := by
  cases home with
  | none => exact ⟨rfl, rfl⟩
  | some home =>
    rw [rehomed]
    split
    · exact ⟨rfl, rfl⟩
    · exact ⟨rfl, rfl⟩

theorem viewClose_space : Ensures (viewClose st c) fun r =>
    SpaceKept WorkspaceProject.named st r.1 := by
  refine .bind fun view _ => .bind fun _ _ => .bind fun _ _ => .ok ?_
  exact SpaceKept.mapValues (fun p => (rehomed_space _ _ p).1)
    fun p _ => (rehomed_space _ _ p).2

theorem projectCreate_space : Ensures (projectCreate st c) fun r =>
    SpaceKept WorkspaceProject.standing st r.1 := by
  refine .bind fun projectId _ => .bind fun _ hfree => .bind fun view _ => .bind fun start _ =>
    .bind fun root _ => .bind fun name _ => .bind fun sidebar _ => .bind fun color _ =>
    .bind fun icon _ => .ok fun id => ?_
  have hnone : st.projects[projectId]? = none := by
    rw [refuseIf_ok, occupied, Bool.or_eq_true, not_or] at hfree
    simpa using hfree.1
  rw [spaceOf, spaceOf]
  dsimp only
  rw [Table.get_insert]
  split_ifs with he
  · rw [← he, hnone]
    rfl
  · rfl

theorem named_space {project : WorkspaceProject ν} {name : String}
    (hproject : requireProject st (c.at name) = .ok project)
    (hnot : reserved st (c.at name) = false) (next : WorkspaceProject ν)
    (hkind : next.kind = project.kind) :
    SpaceKept WorkspaceProject.standing st (putProject st (propertyKey (c.at name)) next) := by
  obtain ⟨k, hk, -, hp⟩ := requireProject_ok.mp hproject
  rw [hk] at hnot ⊢
  rw [propertyKey_str]
  refine putProject_space hp hkind fun hspace => ?_
  rw [unreserved hp hnot] at hspace
  cases hspace

theorem own_space {project : WorkspaceProject ν} {name : String}
    (hproject : requireProject st (c.at name) = .ok project) (next : WorkspaceProject ν)
    (hkind : next.kind = project.kind) (hsame : next.standing = project.standing) :
    SpaceKept WorkspaceProject.standing st (putProject st (propertyKey (c.at name)) next) := by
  obtain ⟨k, hk, -, hp⟩ := requireProject_ok.mp hproject
  rw [hk, propertyKey_str]
  exact putProject_space hp hkind fun _ => hsame

theorem projectStart_space (hc : Consistent st) (now : ν) :
    Ensures (projectStart st c now) fun r => SpaceKept WorkspaceProject.standing st r.1 := by
  refine .bind fun project hproject => .bind fun _ hwaiting => ?_
  have hnot : reserved st (c.at "projectId") = false := by
    obtain ⟨k, hk, -, hp⟩ := requireProject_ok.mp hproject
    rw [refuseIf_ok, not_not] at hwaiting
    have hkind := ((hc.projects k project hp).waiting (by rw [hwaiting]; exact nofun)).2
    rw [hk, reserved, Json.text, hp, Option.any_some, isAutomationSpace, hkind]
    rfl
  refine .ite (fun _ => .ok (named_space hproject hnot _ rfl)) fun _ => .ite (fun _ => ?_) fun _ => .error
  refine .bind fun root _ => .bind fun started hstarted => .bind fun recents _ => .ok ?_
  obtain ⟨name, -, hstarted⟩ := bind_ok.mp hstarted
  cases hstarted
  exact named_space hproject hnot _ rfl

theorem project_found (hc : Consistent st) {value : Option (Json ν)} {project : WorkspaceProject ν}
    (hproject : requireProject st value = .ok project) :
    st.projects[project.id]? = some project ∧ value = some (.str project.id) := by
  obtain ⟨k, hk, -, hp⟩ := requireProject_ok.mp hproject
  rw [(hc.projects k project hp).identity]
  exact ⟨hp, hk⟩

omit [Engine ν] in
theorem projectShellProfileReplace_space : Ensures (projectShellProfileReplace st c) fun r =>
    SpaceKept WorkspaceProject.standing st r.1 := by
  refine .bind fun fromId _ => .bind fun toId _ => .ok (SpaceKept.mapValues (fun p => ?_) fun p _ => ?_)
  · split
    · rfl
    · rfl
  · split
    · rfl
    · rfl

theorem projectMove_space (hc : Consistent st)
    (hnot : reserved st (c.at "projectId") = false) : Ensures (projectMove st c) fun r =>
    SpaceKept WorkspaceProject.standing st r.1 := by
  refine .bind fun project hproject => .bind fun source _ => .bind fun target _ =>
    .bind fun position _ => .ok ?_
  obtain ⟨hp, hk⟩ := project_found hc hproject
  rw [hk] at hnot
  refine SpaceKept.insert hp rfl fun hspace => ?_
  rw [unreserved hp hnot] at hspace
  cases hspace

theorem projectClose_space (hc : Consistent st)
    (hnot : reserved st (c.at "projectId") = false) : Ensures (projectClose st c) fun r =>
    SpaceKept WorkspaceProject.standing st r.1 := by
  refine .bind fun project hproject => .bind fun view _ => .ok (SpaceKept.erase ?_)
  obtain ⟨hp, hk⟩ := project_found hc hproject
  rw [hk] at hnot
  rw [inSpace, spaceOf, hp, Option.filter_some,
    if_neg (by rw [unreserved hp hnot]; exact Bool.false_ne_true)]
  rfl

theorem folderCreate_space (hc : Consistent st) : Ensures (folderCreate st c) fun r =>
    SpaceKept WorkspaceProject.standing st r.1 := by
  refine .bind fun project hproject => .bind fun _ _ => .bind fun link _ => .bind fun creator _ =>
    .bind fun name _ => .bind fun _ _ => .ok ?_
  exact SpaceKept.insert (project_found hc hproject).1 rfl fun _ => rfl

theorem folderReorder_space (hc : Consistent st) : Ensures (folderReorder st c) fun r =>
    SpaceKept WorkspaceProject.standing st r.1 := by
  refine .bind fun project hproject => .bind fun folderIds _ => .ok ?_
  refine SpaceKept.trans ?_ (syncProject_space _ _ _)
  exact putProject_space (project_found hc hproject).1 rfl fun _ => rfl

theorem folderDelete_space (hc : Consistent st) : Ensures (folderDelete st c) fun r =>
    SpaceKept WorkspaceProject.standing st r.1 := by
  refine .bind fun folder _ => .bind fun _ _ => .bind fun _ _ => .bind fun project hproject => .ok ?_
  exact SpaceKept.insert (project_found hc hproject).1 rfl fun _ => rfl

theorem panelClose_space : Ensures (panelClose st c) fun r =>
    SpaceKept WorkspaceProject.standing st r.1 := by
  refine .bind fun panel _ => .bind fun project _ => .bind fun st2 hremove => .ok ?_
  have hprojects := removeFromFolder_projects st2 hremove
  exact SpaceKept.trans (SpaceKept.of_projects hprojects) (syncProject_space _ _ _)

omit [Engine ν] in
theorem markSession_space {sessionId : ProtocolId}
    {mark : TerminalSession ν → TerminalSession ν} {r : Edited ν}
    (h : markSession st sessionId mark = some r) :
    SpaceKept WorkspaceProject.standing st r.1 := by
  obtain ⟨sessions, hr⟩ := markSession_ok h
  rw [hr]
  exact SpaceKept.of_projects rfl

/-- The commands that the space is not to be named in. -/
def CommandType.namesProject : CommandType → Bool
  | projectRename | projectUpdate | projectRootUpdate | projectMove | projectClose => true
  | _ => false

def CommandType.syncs : CommandType → Bool
  | panelCreate | panelReorder | panelSplit | panelActivate | terminalCreatePanel => true
  | _ => false

theorem syncing_space {t : CommandType} (ht : t.syncs = true) (now : ν) :
    Ensures (t.edit st c now) fun r => SpaceKept WorkspaceProject.standing st r.1 := by
  cases t <;> first | exact absurd ht (by decide) | simp only [CommandType.edit]
  all_goals
    repeat first
      | exact .ok (SpaceKept.trans (SpaceKept.of_projects rfl) (syncProject_space _ _ _))
      | refine .bind fun _ _ => ?_

theorem edit_space (hc : Consistent st) {t : CommandType} (hclose : t ≠ .viewClose)
    (hnot : t.namesProject = true → reserved st (c.at "projectId") = false) (now : ν) :
    Ensures (t.edit st c now) fun r => SpaceKept WorkspaceProject.standing st r.1 := by
  by_cases hsyncs : t.syncs = true
  · exact syncing_space hsyncs now
  cases t <;> first | exact absurd rfl hsyncs | simp only [CommandType.edit]
  case viewClose => exact absurd rfl hclose
  case projectCreate => exact projectCreate_space
  case projectStart => exact projectStart_space hc now
  case projectSidebarUpdate =>
    exact .bind fun project hproject => .bind fun sidebar _ => .ok (own_space hproject _ rfl rfl)
  case projectShellProfileSet =>
    exact .bind fun profileId _ => .bind fun project hproject => .ok (own_space hproject _ rfl rfl)
  case projectShellProfileClear =>
    exact .bind fun project hproject => .ok (own_space hproject _ rfl rfl)
  case projectShellProfileReplace => exact projectShellProfileReplace_space
  case projectRootUpdate =>
    exact .bind fun project hproject => .bind fun root _ => .bind fun recents _ =>
      .ok (named_space hproject (hnot rfl) _ rfl)
  case projectRename =>
    exact .bind fun project hproject => .bind fun name _ =>
      .ok (named_space hproject (hnot rfl) _ rfl)
  case projectUpdate =>
    exact .bind fun project hproject => .bind fun name _ => .bind fun root _ => .bind fun color _ =>
      .bind fun icon _ => .ok (named_space hproject (hnot rfl) _ rfl)
  case projectMove => exact projectMove_space hc (hnot rfl)
  case projectClose => exact projectClose_space hc (hnot rfl)
  case folderCreate => exact folderCreate_space hc
  case folderReorder => exact folderReorder_space hc
  case folderDelete => exact folderDelete_space hc
  case folderOfferAccept =>
    exact .bind fun folder _ => .bind fun panelId _ => .bind fun st1 hmove =>
      .ok (movePanelToFolder_space st1 hmove)
  case panelMoveToFolder =>
    exact .bind fun panel _ => .bind fun st1 hmove => .ok (movePanelToFolder_space st1 hmove)
  case panelMove => exact panelMove_space
  case panelClose => exact panelClose_space
  case terminalMarkInterrupted => exact fun r h => markSession_space (demand_ok.mp h)
  case terminalMarkExited =>
    refine .ok ?_
    rcases hm : markSession st _ _ with _ | marked
    · exact SpaceKept.refl _ st
    · exact markSession_space hm
  all_goals
    repeat first
      | exact .ok (SpaceKept.of_projects rfl)
      | refine .bind fun _ _ => ?_

end Commands

section Homes

variable [Engine ν] {st st' : WorkspaceState ν} {c : Fields ν}

/-- A home that changes is not the space, before or after. -/
def Stays (st : WorkspaceState ν) (home home' : ProtocolId) : Prop :=
  home' = home ∨ inSpace st home = false ∧ inSpace st home' = false

def PanelsStay (st st' : WorkspaceState ν) : Prop :=
  ∀ (id : ProtocolId) (p p' : WorkspacePanel ν), st.panels[id]? = some p →
    st'.panels[id]? = some p' → Stays st p.projectId p'.projectId

def SessionStays (st : WorkspaceState ν) (session session' : TerminalSession ν) : Prop :=
  Stays st session.projectId session'.projectId ∧
    (session'.status = .running → session.status = .running)

def SessionsStay (st st' : WorkspaceState ν) : Prop :=
  ∀ (id : ProtocolId) (session' : TerminalSession ν), st'.terminalSessions[id]? = some session' →
    ∃ session, st.terminalSessions[id]? = some session ∧ SessionStays st session session'

section

omit [Engine ν]

theorem PanelsStay.of_eq (h : st'.panels = st.panels) : PanelsStay st st' := by
  intro id p p' hp hp'
  rw [h, hp] at hp'
  cases hp'
  exact .inl rfl

theorem PanelsStay.of_erased (h : ∀ (id : ProtocolId) (p' : WorkspacePanel ν),
    st'.panels[id]? = some p' → st.panels[id]? = some p') : PanelsStay st st' := by
  intro id p p' hp hp'
  rw [h id p' hp'] at hp
  cases hp
  exact .inl rfl

theorem PanelsStay.insert {k : ProtocolId} {q : WorkspacePanel ν}
    (hq : ∀ p, st.panels[k]? = some p → Stays st p.projectId q.projectId)
    (h : st'.panels = st.panels.insert k q) : PanelsStay st st' := by
  intro id p p' hp hp'
  rw [h, Table.get_insert] at hp'
  split_ifs at hp' with he
  · cases hp'
    exact hq p (he ▸ hp)
  · rw [hp] at hp'
    cases hp'
    exact .inl rfl

theorem SessionStays.refl (st : WorkspaceState ν) (session : TerminalSession ν) :
    SessionStays st session session := ⟨.inl rfl, fun h => h⟩

theorem SessionsStay.of_eq (h : st'.terminalSessions = st.terminalSessions) :
    SessionsStay st st' := by
  intro id session' hs
  rw [h] at hs
  exact ⟨session', hs, SessionStays.refl st session'⟩

theorem SessionsStay.of_erased (h : ∀ (id : ProtocolId) (session : TerminalSession ν),
    st'.terminalSessions[id]? = some session → st.terminalSessions[id]? = some session) :
    SessionsStay st st' :=
  fun id session' hs => ⟨session', h id session' hs, SessionStays.refl st session'⟩

theorem SessionsStay.insert {k : ProtocolId} {session session' : TerminalSession ν}
    (hs : st.terminalSessions[k]? = some session) (hstays : SessionStays st session session')
    (h : st'.terminalSessions = st.terminalSessions.insert k session') : SessionsStay st st' := by
  intro id found hfound
  rw [h, Table.get_insert] at hfound
  split_ifs at hfound with he
  · cases hfound
    exact ⟨session, he ▸ hs, hstays⟩
  · exact ⟨found, hfound, SessionStays.refl st found⟩

theorem removeFromFolder_sessions {folderId panelId : ProtocolId} :
    Ensures (removeFromFolder st folderId panelId)
      fun st' => st'.terminalSessions = st.terminalSessions :=
  .bind fun _ _ => .ok rfl

theorem leaveFolder_sessions {panel : WorkspacePanel ν} {target : WorkspaceFolder ν} :
    Ensures (leaveFolder st panel target) fun st' => st'.terminalSessions = st.terminalSessions :=
  .ite (fun _ => removeFromFolder_sessions) fun _ => .ok rfl

end

theorem movePanelToFolder_stays {p : ProtocolId}
    {folderId index : Option (Json ν)} :
    Ensures (movePanelToFolder st p folderId index) fun st' =>
      PanelsStay st st' ∧ st'.terminalSessions = st.terminalSessions := by
  refine .bind fun panel hpanel => .bind fun target _ => .bind fun _ _ => .bind fun st1 hleave =>
    .bind fun _ _ => .bind fun _ _ => .ok ⟨?_, ?_⟩
  · obtain ⟨k, hk, -, hp⟩ := requirePanel_ok.mp hpanel
    cases hk
    refine PanelsStay.insert (k := p) (q := _) (fun q hq => ?_)
      (syncProject_panels.trans (by rw [leaveFolder_panels st1 hleave]))
    rw [hp] at hq
    cases hq
    exact .inl rfl
  · rw [syncProject_sessions]
    exact leaveFolder_sessions st1 hleave

def CommandType.editsSessions : CommandType → Bool
  | projectClose | panelMove | panelClose | terminalCreate | terminalCreatePanel
  | terminalMarkInterrupted | terminalMarkExited => true
  | _ => false

theorem edit_sessions {t : CommandType} (ht : t.editsSessions = false)
    (now : ν) : Ensures (t.edit st c now) fun r => r.1.terminalSessions = st.terminalSessions := by
  cases t <;> first | exact absurd ht (by decide) | simp only [CommandType.edit]
  case folderOfferAccept =>
    exact .bind fun _ _ => .bind fun _ _ => .bind fun st1 hmove =>
      .ok (movePanelToFolder_stays st1 hmove).2
  case panelMoveToFolder =>
    exact .bind fun _ _ => .bind fun st1 hmove => .ok (movePanelToFolder_stays st1 hmove).2
  all_goals
    repeat first
      | exact .error
      | exact .ok rfl
      | exact .ok syncProject_sessions
      | refine .ite (fun _ => ?_) fun _ => ?_
      | refine .bind fun _ _ => ?_

/-- What the refusal leaves for a panel that changes project. -/
def MovesApart (st : WorkspaceState ν) (c : Fields ν) : Prop :=
  reserved st ((st.panels[propertyKey (c.at "panelId")]?).map fun p => .str p.projectId) = false ∧
    reserved st (c.at "targetProjectId") = false

theorem inSpace_reserved (st : WorkspaceState ν) (k : ProtocolId) :
    inSpace st k = reserved st (some (.str k : Json ν)) := by
  rw [inSpace, spaceOf, reserved, Json.text]
  rcases st.projects[k]? with _ | p
  · rfl
  · rw [Option.filter_some, Option.any_some]
    by_cases hspace : isAutomationSpace p = true
    · rw [if_pos hspace, hspace]
      rfl
    · rw [if_neg hspace, Bool.eq_false_iff.mpr hspace]
      rfl

theorem rehomeSession_sessions {panel : WorkspacePanel ν} {projectId : ProtocolId} :
    Ensures (rehomeSession st panel projectId) fun st' => st'.panels = st.panels ∧
      (st'.terminalSessions = st.terminalSessions ∨ ∃ session, panel.isTerminal = true ∧
        st.terminalSessions[panel.sessionKey]? = some session ∧ st'.terminalSessions =
          st.terminalSessions.insert panel.sessionKey { session with projectId := projectId }) := by
  refine .ite (fun hterminal => .bind fun session hsession => .ok ⟨rfl, .inr ?_⟩)
    fun _ => .ok ⟨rfl, .inl rfl⟩
  exact ⟨session, hterminal, demand_ok.mp hsession, rfl⟩

theorem panelMove_stays (hc : Consistent st) (happart : MovesApart st c) :
    Ensures (panelMove st c) fun r => PanelsStay st r.1 ∧ SessionsStay st r.1 := by
  refine .bind fun panel hpanel => .bind fun source _ => .bind fun target htarget => .bind fun _ _ =>
    .bind fun folder _ => .ite (fun _ => ?_) fun _ => ?_
  · exact .bind fun st1 hmove => .ok
      ⟨(movePanelToFolder_stays st1 hmove).1, .of_eq (movePanelToFolder_stays st1 hmove).2⟩
  · refine .bind fun st1 hremove => .bind fun position _ => .bind fun st4 hrehome => .ok ?_
    obtain ⟨k, hk, -, hp⟩ := requirePanel_ok.mp hpanel
    have hid := (hc.panels k panel hp).identity
    obtain ⟨-, htarget'⟩ := project_found hc htarget
    have hfrom : inSpace st panel.projectId = false := by
      have hnot := happart.1
      rwa [hk, propertyKey_str, hp, Option.map_some, ← inSpace_reserved] at hnot
    have hto : inSpace st target.id = false := by
      have hnot := happart.2
      rwa [htarget', ← inSpace_reserved] at hnot
    have hpanels : st1.panels = (forgetPanelReferences st source.id panel.id).panels :=
      removeFromFolder_panels st1 hremove
    have hsessions : st1.terminalSessions =
        (forgetPanelReferences st source.id panel.id).terminalSessions :=
      removeFromFolder_sessions st1 hremove
    have hstays : Stays st panel.projectId target.id := .inr ⟨hfrom, hto⟩
    obtain ⟨hpanels4, hsessions4⟩ := rehomeSession_sessions st4 hrehome
    rw [syncProject_panels, syncProject_panels] at hpanels4
    rw [syncProject_sessions, syncProject_sessions] at hsessions4
    refine ⟨PanelsStay.insert (fun p hp' => ?_) (hpanels4.trans (by rw [hpanels]; rfl)), ?_⟩
    · rw [hid, hp] at hp'
      cases hp'
      exact hstays
    · rcases hsessions4 with hsame | ⟨session, hterminal, hsession, hinserted⟩
      · exact .of_eq (hsame.trans hsessions)
      · rw [hsessions] at hsession hinserted
        obtain ⟨own, hown, hhome⟩ := (hc.panels k panel hp).session hterminal
        have hsame : session = own := Option.some.inj (hsession.symm.trans hown)
        have hmoved : SessionStays st session { session with projectId := target.id } := by
          refine ⟨?_, fun h => h⟩
          rw [hsame, hhome]
          exact hstays
        exact .insert hsession hmoved hinserted

omit [Engine ν] in
theorem projectClose_stays : Ensures (projectClose st c) fun r =>
    PanelsStay st r.1 ∧ SessionsStay st r.1 := by
  refine .bind fun project _ => .bind fun view _ => .ok
    ⟨.of_erased fun id q hq => ?_, .of_erased fun id session hs => ?_⟩
  · rw [Table.get_eraseAll] at hq
    split_ifs at hq
    exact hq
  · rw [Table.get_eraseAll] at hs
    split_ifs at hs
    exact hs

theorem panelClose_stays : Ensures (panelClose st c) fun r =>
    PanelsStay st r.1 ∧ SessionsStay st r.1 := by
  refine .bind fun panel _ => .bind fun project _ => .bind fun st2 hremove => .ok
    ⟨.of_erased fun id q hq => ?_, .of_erased fun id session hs => ?_⟩
  · rw [syncProject_panels, removeFromFolder_panels st2 hremove] at hq
    rw [forgetPanelReferences, Table.get_erase] at hq
    split_ifs at hq
    exact hq
  · rw [syncProject_sessions, removeFromFolder_sessions st2 hremove] at hs
    rw [forgetPanelReferences] at hs
    dsimp only at hs
    split_ifs at hs with hterminal
    · rw [Table.get_erase] at hs
      split_ifs at hs
      exact hs
    · exact hs

theorem markSession_stays (hc : Consistent st) {sessionId : ProtocolId}
    {mark : TerminalSession ν → TerminalSession ν}
    (hmark : ∀ session, (mark session).projectId = session.projectId ∧
      (mark session).status ≠ .running) {r : Edited ν}
    (h : markSession st sessionId mark = some r) :
    r.1.panels = st.panels ∧ SessionsStay st r.1 := by
  refine ⟨markSession_panels h, ?_⟩
  rw [markSession] at h
  rcases hs : st.terminalSessions[sessionId]? with _ | session
  · rw [hs] at h
    dsimp only at h
    split_ifs at h
    cases h
    exact .of_eq rfl
  · rw [hs] at h
    cases h
    have hid := (hc.sessions sessionId session hs).identity
    refine SessionsStay.insert (by rw [hid]; exact hs) ?_ rfl
    split
    · exact ⟨.inl (hmark session).1, fun hrun => absurd hrun (hmark session).2⟩
    · exact SessionStays.refl st session

omit [Engine ν] in
theorem showPanel_stays {project : WorkspaceProject ν} {folder : WorkspaceFolder ν}
    {panel : WorkspacePanel ν} {draft : WorkspaceState ν} (hdraft : draft.panels = st.panels)
    (hfree : occupied st.panels panel.id = false) :
    PanelsStay st (showPanel draft project folder panel) := by
  refine PanelsStay.insert (fun p hp => ?_) (showPanel_panels.trans (by rw [hdraft]))
  rw [occupied, hp] at hfree
  cases hfree

theorem panelUpdate_stays (hc : Consistent st) : Ensures (panelUpdate st c) fun r =>
    PanelsStay st r.1 := by
  refine .bind fun panel hpanel => .bind fun patch _ => .bind fun _ _ => .bind fun _ _ =>
    .bind fun _ _ => .bind fun next _ => .bind fun fields _ => .ok ?_
  obtain ⟨k, -, -, hp⟩ := requirePanel_ok.mp hpanel
  have hid := (hc.panels k panel hp).identity
  refine PanelsStay.insert (fun p hp' => ?_) rfl
  rw [hid, hp] at hp'
  cases hp'
  exact .inl rfl

theorem panelCreate_stays : Ensures (panelCreate st c) fun r => PanelsStay st r.1 := by
  refine .bind fun input _ => .bind fun panelId _ => .bind fun _ hfree => .bind fun project _ =>
    .bind fun _ _ => .bind fun _ _ => .bind fun folder _ => .bind fun fields _ => .ok ?_
  rw [refuseIf_ok, Bool.not_eq_true] at hfree
  exact showPanel_stays rfl hfree

/-- A command that makes no session leaves panels and sessions where they are. -/
theorem edit_stays (hc : Consistent st) {t : CommandType}
    (hcreate : t ≠ .terminalCreate ∧ t ≠ .terminalCreatePanel)
    (happart : t = .panelMove → MovesApart st c) (now : ν) :
    Ensures (t.edit st c now) fun r => PanelsStay st r.1 ∧ SessionsStay st r.1 := by
  intro r hr
  by_cases hpanels : t.editsPanels = true
  · cases t <;> first | exact absurd hpanels (by decide) | simp only [CommandType.edit] at hr
    case projectClose => exact projectClose_stays r hr
    case panelClose => exact panelClose_stays r hr
    case panelMove => exact panelMove_stays hc (happart rfl) r hr
    case terminalCreatePanel => exact absurd rfl hcreate.2
    case panelCreate =>
      exact ⟨panelCreate_stays r hr,
        .of_eq ((edit_sessions rfl now : Ensures (CommandType.edit .panelCreate st c now) _) r hr)⟩
    case panelUpdate =>
      exact ⟨panelUpdate_stays hc r hr,
        .of_eq ((edit_sessions rfl now : Ensures (CommandType.edit .panelUpdate st c now) _) r hr)⟩
    case panelMoveToFolder =>
      have hmoved : Ensures (panelMoveToFolder st c) fun r =>
          PanelsStay st r.1 ∧ r.1.terminalSessions = st.terminalSessions :=
        .bind fun _ _ => .bind fun st1 hmove => .ok (movePanelToFolder_stays st1 hmove)
      exact ⟨(hmoved r hr).1, .of_eq (hmoved r hr).2⟩
    case folderOfferAccept =>
      have hmoved : Ensures (folderOfferAccept st c) fun r =>
          PanelsStay st r.1 ∧ r.1.terminalSessions = st.terminalSessions :=
        .bind fun _ _ => .bind fun _ _ => .bind fun st1 hmove => .ok (movePanelToFolder_stays st1 hmove)
      exact ⟨(hmoved r hr).1, .of_eq (hmoved r hr).2⟩
  · have hsame := edit_panels (by simpa using hpanels) now r hr
    refine ⟨.of_eq hsame, ?_⟩
    by_cases hsessions : t.editsSessions = true
    · cases t <;> first | exact absurd hsessions (by decide) | simp only [CommandType.edit] at hr
      case terminalCreate => exact absurd rfl hcreate.1
      case terminalMarkInterrupted =>
        refine (markSession_stays hc ?_ (demand_ok.mp hr)).2
        exact fun session => ⟨rfl, (by simp)⟩
      case terminalMarkExited =>
        cases hr
        rcases hm : markSession st _ _ with _ | marked
        · exact .of_eq rfl
        · refine (markSession_stays hc ?_ hm).2
          exact fun session => ⟨rfl, (by simp)⟩
      all_goals exact absurd rfl hpanels
    · exact .of_eq (edit_sessions (by simpa using hsessions) now r hr)

end Homes

end Terminay.Workspace
