import Terminay.Lib.Lists
import Terminay.Workspace.Validate

/-!
# Valid workspaces

`Valid` reads `validateWorkspace` as a statement about every object of the
state. The conditions are exactly those of the check: subsets, ownership and
per-stack uniqueness, and nothing about coverage.
-/

namespace Terminay.Workspace
open Script Outcome

variable {ν : Type} [Engine ν]

def LayoutNode.Within (allowed : List ProtocolId) : LayoutNode ν → Prop
  | .stack ids active => ids.Nodup ∧ (∀ id ∈ ids, id ∈ allowed) ∧ ∀ id ∈ active, id ∈ ids
  | .split direction weight first second =>
    isDirection direction = true ∧ isWeight weight = true ∧ first.Within allowed ∧
      second.Within allowed

structure ViewValid (st : WorkspaceState ν) (id : ProtocolId) (view : WorkspaceView) : Prop where
  pattern : idPattern id = true
  identity : view.id = id
  server : view.serverId = st.serverId
  owns : ∀ p ∈ view.projectIds, ∃ project, st.projects[p]? = some project ∧ project.viewId = id
  active : ∀ p ∈ view.activeProjectId, p ∈ view.projectIds

structure FolderListValid (st : WorkspaceState ν) (project : WorkspaceProject ν) : Prop where
  nodup : project.folderIds.Nodup
  owns : ∀ id ∈ project.folderIds, ∃ folder, st.folders[id]? = some folder ∧
    folder.projectId = project.id
  oneGeneral : ((projectFolders st project).filter fun f => f.kind = .general).length = 1
  derived : (projectFolders st project).flatMap (·.panelIds) = project.panelIds
  links : ((projectFolders st project).filterMap (·.worktree)).Nodup

structure ProjectValid (st : WorkspaceState ν) (id : ProtocolId) (project : WorkspaceProject ν) :
    Prop where
  pattern : idPattern id = true
  identity : project.id = id
  server : project.serverId = st.serverId
  home : st.views[project.viewId]? ≠ none
  origin : isRootOrigin project.rootOrigin = true
  rootless : project.rootOrigin = .str (js "none") ↔ project.root = []
  waiting : project.start ≠ none → project.rootOrigin = .str (js "none") ∧ project.kind = none
  unlisted : project.kind ≠ none → ∀ (v : ProtocolId) (view : WorkspaceView),
    st.views[v]? = some view → id ∉ view.projectIds
  profile : ∀ profileId ∈ project.defaultShellProfileId, idPattern profileId = true
  sidebar : validateWorkspaceSidebarState project.sidebar = .ok ()
  panels : ∀ p ∈ project.panelIds, ∃ panel, st.panels[p]? = some panel ∧ panel.projectId = id
  active : ∀ p ∈ project.activePanelId, p ∈ project.panelIds
  layout : project.layout.Within project.panelIds
  folders : FolderListValid st project

structure FolderValid (st : WorkspaceState ν) (id : ProtocolId) (folder : WorkspaceFolder ν) :
    Prop where
  pattern : idPattern id = true
  identity : folder.id = id
  listed : ∃ project, st.projects[folder.projectId]? = some project ∧ id ∈ project.folderIds
  name : ∃ name, boundedNameText folder.name = .ok name
  link : folder.kind = .linked ↔ folder.worktree ≠ none
  linkValid : ∀ link ∈ folder.worktree, validateStoredLink link = .ok ()
  nodup : folder.panelIds.Nodup
  panels : ∀ p ∈ folder.panelIds, ∃ panel, st.panels[p]? = some panel ∧ panel.folderId = id
  active : ∀ p ∈ folder.activePanelId, p ∈ folder.panelIds
  layout : folder.layout.Within folder.panelIds
  creator : ∀ p ∈ folder.createdByPanelId, ∃ panel, st.panels[p]? = some panel ∧
    panel.projectId = folder.projectId
  offer : ∀ p ∈ folder.captureOffer, ∃ panel, st.panels[p]? = some panel ∧
    panel.projectId = folder.projectId ∧ panel.folderId ≠ id

structure PanelValid (st : WorkspaceState ν) (id : ProtocolId) (panel : WorkspacePanel ν) :
    Prop where
  pattern : idPattern id = true
  identity : panel.id = id
  project : st.projects[panel.projectId]? ≠ none
  folder : ∃ folder, st.folders[panel.folderId]? = some folder ∧
    folder.projectId = panel.projectId ∧ id ∈ folder.panelIds
  session : panel.isTerminal = true → ∃ session,
    st.terminalSessions[panel.sessionKey]? = some session ∧ session.projectId = panel.projectId
  fields : panel.isTerminal = true → validateTerminalFields panel = .ok ()

structure SessionValid (st : WorkspaceState ν) (id : ProtocolId) (session : TerminalSession ν) :
    Prop where
  pattern : idPattern id = true
  identity : session.id = id
  server : session.serverId = st.serverId
  project : ∃ project, st.projects[session.projectId]? = some project ∧ project.start = none
  position : session.outputPosition ≤ maxSafeInteger
  launch : ∀ launch ∈ session.launch, ∃ checked, validateLaunchMetadata launch = .ok checked

/-- Every condition of the check but the bound on the revision, which a store
passes by one when it numbers its last commit. -/
structure Consistent (st : WorkspaceState ν) : Prop where
  serverId : idPattern st.serverId = true
  schema : st.schemaVersion = workspaceSchemaVersion
  cursor : st.cursor = natText st.revision
  viewOrder : st.viewOrder.Nodup
  ordered : ∀ id ∈ st.viewOrder, st.views[id]? ≠ none
  views : ∀ (id : ProtocolId) (view : WorkspaceView), st.views[id]? = some view → ViewValid st id view
  projects : ∀ (id : ProtocolId) (project : WorkspaceProject ν), st.projects[id]? = some project →
    ProjectValid st id project
  oneSpace : ∀ (i j : ProtocolId) (p q : WorkspaceProject ν), st.projects[i]? = some p →
    st.projects[j]? = some q → p.kind ≠ none → q.kind ≠ none → i = j
  folders : ∀ (id : ProtocolId) (folder : WorkspaceFolder ν), st.folders[id]? = some folder →
    FolderValid st id folder
  panels : ∀ (id : ProtocolId) (panel : WorkspacePanel ν), st.panels[id]? = some panel →
    PanelValid st id panel
  sessions : ∀ (id : ProtocolId) (session : TerminalSession ν),
    st.terminalSessions[id]? = some session → SessionValid st id session
  recents : validateRecentProjectFolders st.recentProjectFolders = .ok ()

structure Valid (st : WorkspaceState ν) : Prop extends Consistent st where
  revision : st.revision ≤ maxSafeInteger

theorem validateLayout_ok {allowed : List ProtocolId} {layout : LayoutNode ν} {u : Unit} :
    validateLayout allowed layout = .ok u ↔ layout.Within allowed := by
  induction layout with
  | stack ids active =>
    simp only [validateLayout, refuseIf_ok, LayoutNode.Within, not_or, not_not, not_exists, not_and]
  | split direction weight first second ihf ihs =>
    simp only [validateLayout, bind_ok, refuseIf_ok, ihf, ihs, LayoutNode.Within, not_or,
      Bool.not_eq_false, exists_const, and_assoc]

omit [Engine ν] in
theorem validateView_ok {st : WorkspaceState ν} {id : ProtocolId} {view : WorkspaceView} {u : Unit} :
    validateView st id view = .ok u ↔ ViewValid st id view := by
  simp only [validateView, bind_ok, assertStoredId_ok, refuseIf_ok, exists_const, not_or, not_not,
    not_exists, not_and, Option.map_eq_some_iff]
  constructor
  · rintro ⟨h1, ⟨h2, h3⟩, h4, h5⟩
    exact ⟨h1, h2, h3, h4, h5⟩
  · rintro ⟨h1, h2, h3, h4, h5⟩
    exact ⟨h1, ⟨h2, h3⟩, h4, h5⟩

omit [Engine ν] in
theorem validateProjectFolders_ok {st : WorkspaceState ν} {project : WorkspaceProject ν} {u : Unit} :
    validateProjectFolders st project = .ok u ↔ FolderListValid st project := by
  simp only [validateProjectFolders, bind_ok, refuseIf_ok, exists_const, not_or, not_not,
    not_exists, not_and, Option.map_eq_some_iff]
  constructor
  · rintro ⟨⟨h1, h2⟩, h3, h4, h5⟩
    exact ⟨h1, h2, h3, h4, h5⟩
  · rintro ⟨h1, h2, h3, h4, h5⟩
    exact ⟨⟨h1, h2⟩, h3, h4, h5⟩

theorem validateProject_ok {st : WorkspaceState ν} {spaces : ℕ} {id : ProtocolId}
    {project : WorkspaceProject ν} {u : Unit} :
    validateProject st spaces id project = .ok u ↔
      ProjectValid st id project ∧ (project.kind ≠ none → spaces = 0) := by
  simp only [validateProject, bind_ok, assertStoredId_ok, refuseIf_ok, each_ok, validateLayout_ok,
    validateProjectFolders_ok, exists_const, not_or, not_not, not_exists, not_and,
    Option.map_eq_some_iff, Bool.not_eq_false, Option.mem_toList, Prod.forall, Table.mem_entries,
    Nat.not_lt, Nat.le_zero]
  constructor
  · rintro ⟨h1, ⟨h2, h3, h4⟩, h5, h6, h7, h8, h9, h10, h11, _, h12, h13, h14, h15, h16⟩
    exact ⟨⟨h1, h2, h3, h4, h5, h6, fun h => ⟨h7 h, h8 h⟩, h10, h11, h12, h13, h14, h15, h16⟩, h9⟩
  · rintro ⟨⟨h1, h2, h3, h4, h5, h6, h7, h10, h11, h12, h13, h14, h15, h16⟩, h9⟩
    exact ⟨h1, ⟨h2, h3, h4⟩, h5, h6, fun h => (h7 h).1, fun h => (h7 h).2, h9, h10, h11, (), h12, h13, h14,
      h15, h16⟩

theorem validateFolder_ok {st : WorkspaceState ν} {id : ProtocolId} {folder : WorkspaceFolder ν}
    {u : Unit} : validateFolder st id folder = .ok u ↔ FolderValid st id folder := by
  simp only [validateFolder, bind_ok, assertStoredId_ok, refuseIf_ok, each_ok, validateLayout_ok,
    exists_const, not_or, not_not, not_exists, not_and, not_forall, Option.map_eq_some_iff,
    Option.mem_toList, Option.mem_def, exists_prop, ne_eq]
  constructor
  · rintro ⟨h1, ⟨h2, h3⟩, ⟨n, h4, h5, h6, ⟨h7, h8⟩, h9, h10, h11, h12⟩⟩
    exact ⟨h1, h2, h3, ⟨n, h4⟩, h5, h6, h7, h8, h9, h10, h11, h12⟩
  · rintro ⟨h1, h2, h3, ⟨n, h4⟩, h5, h6, h7, h8, h9, h10, h11, h12⟩
    exact ⟨h1, ⟨h2, h3⟩, ⟨n, h4, h5, h6, ⟨h7, h8⟩, h9, h10, h11, h12⟩⟩

theorem validatePanel_ok {st : WorkspaceState ν} {id : ProtocolId} {panel : WorkspacePanel ν}
    {u : Unit} : validatePanel st id panel = .ok u ↔ PanelValid st id panel := by
  simp only [validatePanel, bind_ok, assertStoredId_ok, refuseIf_ok, exists_const, not_or, not_not,
    not_forall, Option.mem_def, exists_prop, ne_eq]
  by_cases ht : panel.isTerminal = true
  · simp only [ht, ↓reduceIte, bind_ok, refuseIf_ok, exists_const, not_not, Option.map_eq_some_iff]
    constructor
    · rintro ⟨h1, ⟨h2, h3⟩, h4, h5, h6⟩
      exact ⟨h1, h2, h3, h4, fun _ => h5, fun _ => h6⟩
    · rintro ⟨h1, h2, h3, h4, h5, h6⟩
      exact ⟨h1, ⟨h2, h3⟩, h4, h5 ht, h6 ht⟩
  · simp only [ht, Bool.false_eq_true, ↓reduceIte, and_true]
    constructor
    · rintro ⟨h1, ⟨h2, h3⟩, h4⟩
      exact ⟨h1, h2, h3, h4, fun h => absurd h ht, fun h => absurd h ht⟩
    · rintro ⟨h1, h2, h3, h4, -, -⟩
      exact ⟨h1, ⟨h2, h3⟩, h4⟩

theorem validateSession_ok {st : WorkspaceState ν} {id : ProtocolId} {session : TerminalSession ν}
    {u : Unit} : validateSession st id session = .ok u ↔ SessionValid st id session := by
  simp only [validateSession, bind_ok, assertStoredId_ok, refuseIf_ok, each_ok, exists_const,
    not_or, not_not, not_exists, not_and, Option.mem_toList, Option.mem_def, ne_eq, Nat.not_lt]
  constructor
  · rintro ⟨h1, ⟨h2, h3, h4, h5⟩, h6, h7⟩
    obtain ⟨project, hp⟩ := Option.ne_none_iff_exists'.mp h4
    exact ⟨h1, h2, h3, ⟨project, hp, h7 project hp⟩, h5, fun l hl => ⟨_, (h6 l hl).choose_spec.1⟩⟩
  · rintro ⟨h1, h2, h3, ⟨project, hp, hs⟩, h5, h6⟩
    refine ⟨h1, ⟨h2, h3, by simp [hp], h5⟩, ?_, fun q hq => ?_⟩
    · intro l hl
      obtain ⟨checked, hc⟩ := h6 l hl
      exact ⟨checked, hc, rfl⟩
    · rw [hp] at hq
      exact Option.some.inj hq ▸ hs

theorem validateProjects_ok {st : WorkspaceState ν} {spaces : ℕ}
    {entries : List (ProtocolId × WorkspaceProject ν)} {u : Unit} :
    validateProjects st spaces entries = .ok u ↔
      (∀ e ∈ entries, ProjectValid st e.1 e.2) ∧
      (entries.filter fun e => e.2.kind ≠ none).length + spaces ≤ max spaces 1 := by
  induction entries generalizing spaces with
  | nil => simp [validateProjects]
  | cons e entries ih =>
    obtain ⟨id, project⟩ := e
    simp only [validateProjects, bind_ok, validateProject_ok, exists_const, ih,
      List.forall_mem_cons, List.filter_cons]
    by_cases hk : project.kind = none
    · simp only [hk, ne_eq, not_true_eq_false, decide_false, ↓reduceIte, Nat.add_zero,
        false_implies, and_true, and_assoc, Bool.false_eq_true]
    · simp only [hk, ne_eq, not_false_eq_true, decide_true, ↓reduceIte, List.length_cons,
        true_implies]
      constructor
      · rintro ⟨⟨h1, rfl⟩, h2, h3⟩
        exact ⟨⟨h1, h2⟩, by omega⟩
      · rintro ⟨⟨h1, h2⟩, h3⟩
        exact ⟨⟨h1, by omega⟩, h2, by omega⟩

theorem validateWorkspace_ok {st : WorkspaceState ν} {u : Unit} :
    validateWorkspace st = .ok u ↔ Valid st := by
  have hspaces := Lists.length_filter_le_one (Table.nodup_entries st.projects)
    (p := fun e => e.2.kind ≠ none)
  simp only [validateWorkspace, bind_ok, assertStoredId_ok, refuseIf_ok, each_ok, validateView_ok,
    validateProjects_ok, validateFolder_ok, validatePanel_ok, validateSession_ok, exists_const,
    Prod.forall, Table.mem_entries, not_or, not_not, not_exists, not_and, Nat.not_lt, Nat.add_zero,
    Nat.zero_le, max_eq_right, hspaces, decide_eq_true_eq, Prod.mk.injEq]
  constructor
  · rintro ⟨h1, ⟨h2, h3, h4⟩, ⟨h5, h6⟩, h7, ⟨h8, h9⟩, h10, h11, h12, h13⟩
    exact ⟨⟨h1, h2, h4, h5, h6, h7, h8,
      fun i j p q hp hq hpk hqk => (h9 i p hp j q hq hpk hqk).1, h10, h11, h12, h13⟩, h3⟩
  · rintro ⟨⟨h1, h2, h4, h5, h6, h7, h8, h9, h10, h11, h12, h13⟩, h3⟩
    refine ⟨h1, ⟨h2, h3, h4⟩, ⟨h5, h6⟩, h7, ⟨h8, ?_⟩, h10, h11, h12, h13⟩
    intro i p hp j q hq hpk hqk
    have hij := h9 i j p q hp hq hpk hqk
    subst hij
    exact ⟨rfl, Option.some.inj (hp.symm.trans hq)⟩

end Terminay.Workspace
