import Terminay.Workspace.Sidebar
import Terminay.Workspace.Titles

/-!
# What a committed workspace satisfies

`validateWorkspace` is the check every commit passes. `Valid` states the same
conditions object by object, and `validateWorkspace_ok` says that the two agree.
Unknown fields cannot occur on a project, a folder or a session of this model,
so `assertOnlyKnownKeys` has no counterpart.
-/

namespace Terminay.Workspace
open Script Outcome

variable {ν : Type} [Engine ν]

def isDirection (direction : Json ν) : Bool :=
  direction = .str (js "horizontal") || direction = .str (js "vertical")

def isWeight (weight : Json ν) : Bool :=
  match weight with
  | .num w => 0 < Engine.value w && Engine.value w < 1
  | _ => false

def validateLayout (panelIds : List ProtocolId) : LayoutNode ν → Checked Unit
  | .stack ids active =>
    refuseIf (¬ ids.Nodup ∨ (∃ id ∈ ids, id ∉ panelIds) ∨ ∃ id ∈ active, id ∉ ids)
      (js "invalid stack layout")
  | .split direction weight first second => do
    refuseIf (isDirection direction = false ∨ isWeight weight = false) (js "invalid split layout")
    validateLayout panelIds first
    validateLayout panelIds second

def validateView (st : WorkspaceState ν) (id : ProtocolId) (view : WorkspaceView) :
    Checked Unit := do
  assertStoredId id "viewId"
  refuseIf (view.id ≠ id ∨ view.serverId ≠ st.serverId) (js "view crosses server boundary")
  refuseIf (∃ p ∈ view.projectIds, st.projects[p]?.map (·.viewId) ≠ some id)
    (js "view/project ownership mismatch")
  refuseIf (∃ p ∈ view.activeProjectId, p ∉ view.projectIds) (js "active project is outside view")

def isRootOrigin (origin : Json ν) : Bool :=
  origin = .str (js "explicit") || origin = .str (js "server-default") ||
    origin = .str (js "legacy-unverified") || origin = .str (js "none")

def projectFolders (st : WorkspaceState ν) (project : WorkspaceProject ν) :
    List (WorkspaceFolder ν) :=
  project.folderIds.filterMap fun id => st.folders[id]?

def validateProjectFolders (st : WorkspaceState ν) (project : WorkspaceProject ν) :
    Checked Unit := do
  refuseIf (¬ project.folderIds.Nodup ∨
      ∃ id ∈ project.folderIds, st.folders[id]?.map (·.projectId) ≠ some project.id)
    (js "project/folder ownership mismatch")
  let folders := projectFolders st project
  refuseIf ((folders.filter fun f => f.kind = .general).length ≠ 1)
    (js "project must have one General folder")
  refuseIf (folders.flatMap (·.panelIds) ≠ project.panelIds)
    (js "project panel list does not match its folders")
  refuseIf (¬ (folders.filterMap (·.worktree)).Nodup) (js "a worktree has more than one folder")

def validateProject (st : WorkspaceState ν) (spaces : ℕ) (id : ProtocolId)
    (project : WorkspaceProject ν) : Checked Unit := do
  assertStoredId id "projectId"
  refuseIf (project.id ≠ id ∨ project.serverId ≠ st.serverId ∨ st.views[project.viewId]? = none)
    (js "project crosses server/view boundary")
  refuseIf (isRootOrigin project.rootOrigin = false) (js "project root origin is invalid")
  refuseIf (¬ (project.rootOrigin = .str (js "none") ↔ project.root = []))
    (js "project root does not match its origin")
  refuseIf (project.start ≠ none ∧ project.rootOrigin ≠ .str (js "none"))
    (js "a project awaiting a start choice has a root")
  refuseIf (project.start ≠ none ∧ project.kind ≠ none)
    (js "a reserved project never awaits a start choice")
  refuseIf (project.kind ≠ none ∧ 0 < spaces) (js "workspace has more than one automation space")
  refuseIf (project.kind ≠ none ∧ ∃ e ∈ st.views.toList, id ∈ e.2.projectIds)
    (js "automation space cannot be a listed project")
  each (fun profileId => assertStoredId profileId "defaultShellProfileId")
    project.defaultShellProfileId.toList
  validateWorkspaceSidebarState project.sidebar
  refuseIf (∃ p ∈ project.panelIds, st.panels[p]?.map (·.projectId) ≠ some id)
    (js "project/panel ownership mismatch")
  refuseIf (∃ p ∈ project.activePanelId, p ∉ project.panelIds) (js "active panel is outside project")
  validateLayout project.panelIds project.layout
  validateProjectFolders st project

def validateProjects (st : WorkspaceState ν) :
    ℕ → List (ProtocolId × WorkspaceProject ν) → Checked Unit
  | _, [] => .ok ()
  | spaces, (id, project) :: rest => do
    validateProject st spaces id project
    validateProjects st (spaces + if project.kind = none then 0 else 1) rest

def validateFolder (st : WorkspaceState ν) (id : ProtocolId) (folder : WorkspaceFolder ν) :
    Checked Unit := do
  assertStoredId id "folderId"
  refuseIf (folder.id ≠ id ∨ ∀ project ∈ st.projects[folder.projectId]?, id ∉ project.folderIds)
    (js "folder crosses project boundary")
  let _ ← boundedNameText folder.name
  refuseIf (¬ (folder.kind = .linked ↔ folder.worktree ≠ none))
    (js "folder worktree link does not match its kind")
  each validateStoredLink folder.worktree.toList
  refuseIf (¬ folder.panelIds.Nodup ∨
      ∃ p ∈ folder.panelIds, st.panels[p]?.map (·.folderId) ≠ some id)
    (js "folder/panel ownership mismatch")
  refuseIf (∃ p ∈ folder.activePanelId, p ∉ folder.panelIds) (js "active panel is outside folder")
  validateLayout folder.panelIds folder.layout
  refuseIf (∃ p ∈ folder.createdByPanelId, st.panels[p]?.map (·.projectId) ≠ some folder.projectId)
    (js "folder creator is outside its project")
  refuseIf (∃ p ∈ folder.captureOffer, ∀ offered ∈ st.panels[p]?,
      offered.projectId ≠ folder.projectId ∨ offered.folderId = id)
    (js "folder offers a panel it cannot capture")

def validateTerminalFields (panel : WorkspacePanel ν) : Checked Unit := do
  each assertPanelNote (panel.at "note").toList
  each (fun source => do let _ ← boundedName (some source))
    ((panel.at "defaultTitle").toList ++ (panel.at "namedTitle").toList)
  refuseIf (panel.at "defaultTitle" ≠ none ∧
      panel.at "title" ≠ shownTitle (panel.at "namedTitle") (panel.at "defaultTitle"))
    (js "terminal panel title is not its resolved title")
  refuseIf (∃ revision ∈ panel.at "metadataRevision", revision.uint? = none)
    (js "terminal panel metadata revision is invalid")

def validatePanel (st : WorkspaceState ν) (id : ProtocolId) (panel : WorkspacePanel ν) :
    Checked Unit := do
  assertStoredId id "panelId"
  refuseIf (panel.id ≠ id ∨ st.projects[panel.projectId]? = none)
    (js "panel crosses project boundary")
  refuseIf (∀ folder ∈ st.folders[panel.folderId]?,
      folder.projectId ≠ panel.projectId ∨ id ∉ folder.panelIds)
    (js "panel is outside its folder")
  if panel.isTerminal then do
    refuseIf (st.terminalSessions[panel.sessionKey]?.map (·.projectId) ≠ some panel.projectId)
      (js "terminal panel/session ownership mismatch")
    validateTerminalFields panel
  else .ok ()

def validateSession (st : WorkspaceState ν) (id : ProtocolId) (session : TerminalSession ν) :
    Checked Unit := do
  assertStoredId id "sessionId"
  refuseIf (session.id ≠ id ∨ session.serverId ≠ st.serverId ∨
      st.projects[session.projectId]? = none ∨ maxSafeInteger < session.outputPosition)
    (js "invalid terminal session")
  each (fun launch => do let _ ← validateLaunchMetadata launch) session.launch.toList
  refuseIf (∃ project ∈ st.projects[session.projectId]?, project.start ≠ none)
    (js "a project awaiting a start choice has a terminal")

def validateRecentProjectFolders (recents : List RecentProjectFolder) : Checked Unit := do
  refuseIf (maxRecentProjectFolders < recents.length) (js "recent project folders are invalid")
  refuseIf (¬ (recents.map (·.path)).Nodup ∨ ∃ entry ∈ recents,
      entry.path.length = 0 ∨ 4096 < entry.path.length ∨ hasNul entry.path = true ∨
        maxSafeInteger < entry.usedAt)
    (js "recent project folder is invalid")

def validateWorkspace (st : WorkspaceState ν) : Checked Unit := do
  assertStoredId st.serverId "serverId"
  refuseIf (st.schemaVersion ≠ workspaceSchemaVersion ∨ maxSafeInteger < st.revision ∨
      st.cursor ≠ natText st.revision)
    (js "invalid workspace revision/schema")
  refuseIf (¬ st.viewOrder.Nodup ∨ ∃ id ∈ st.viewOrder, st.views[id]? = none)
    (js "invalid view order")
  each (fun e => validateView st e.1 e.2) st.views.toList
  validateProjects st 0 st.projects.toList
  each (fun e => validateFolder st e.1 e.2) st.folders.toList
  each (fun e => validatePanel st e.1 e.2) st.panels.toList
  each (fun e => validateSession st e.1 e.2) st.terminalSessions.toList
  validateRecentProjectFolders st.recentProjectFolders

end Terminay.Workspace
