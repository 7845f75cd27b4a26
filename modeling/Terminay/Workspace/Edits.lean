import Mathlib.Data.Rat.Floor
import Terminay.Workspace.Titles

/-!
# Edits of folders and projects

The commands that touch panels share these edits. A folder given a panel list
shows it as one stack; a project recomputes its panel list, its active panel and
its layout from its folders.
-/

namespace Terminay.Workspace
open Script Outcome

variable {ν : Type}

def withActiveProject (view : WorkspaceView) (projectIds : List ProtocolId)
    (activeProjectId : Option ProtocolId) : WorkspaceView :=
  { view with projectIds := projectIds, activeProjectId := activeProjectId }

def generalFolder (id projectId : ProtocolId) : WorkspaceFolder ν where
  id := id
  projectId := projectId
  name := generalFolderName
  kind := .general
  worktree := none
  panelIds := []
  activePanelId := none
  layout := stack [] none
  createdByPanelId := none
  captureOffer := none

def issuedFolderText (serial : ℕ) : ProtocolId := js "folder:r" ++ natText serial

def isIssued (st : WorkspaceState ν) (serial : ℕ) : Bool :=
  st.folders[issuedFolderText serial]?.isSome

def issuedFolderId (st : WorkspaceState ν) : ProtocolId :=
  issuedFolderText (firstFree (isIssued st) (st.folders.size + 1) (st.revision + 1))

def generalFolderId (st : WorkspaceState ν) (projectId : ProtocolId) : Option ProtocolId :=
  st.projects[projectId]?.bind fun project =>
    project.folderIds.find? fun id => st.folders[id]?.any fun folder => folder.kind == .general

def withFolderPanels (folder : WorkspaceFolder ν) (panelIds : List ProtocolId)
    (activePanelId : Option ProtocolId) : WorkspaceFolder ν :=
  let active := (activePanelId.filter panelIds.contains).or panelIds.head?
  { folder with panelIds := panelIds, activePanelId := active, layout := stack panelIds active }

def folderWithout (folder : WorkspaceFolder ν) (panelId : ProtocolId) : WorkspaceFolder ν :=
  withFolderPanels folder (folder.panelIds.filter (· ≠ panelId))
    (folder.activePanelId.filter (· ≠ panelId))

def removeFromFolder (st : WorkspaceState ν) (folderId panelId : ProtocolId) :
    Checked (WorkspaceState ν) := do
  let folder ← requireFolder st (some (.str folderId))
  .ok { st with folders := st.folders.insert folder.id (folderWithout folder panelId) }

def forgetPanel (folder : WorkspaceFolder ν) (panelId : ProtocolId) : WorkspaceFolder ν :=
  { folder with
    createdByPanelId := folder.createdByPanelId.filter (· ≠ panelId)
    captureOffer := folder.captureOffer.filter (· ≠ panelId) }

def forgetPanelReferences (st : WorkspaceState ν) (projectId panelId : ProtocolId) :
    WorkspaceState ν :=
  let folderIds := (st.projects[projectId]?.map (·.folderIds)).getD []
  { st with folders := Table.updateAll st.folders folderIds fun folder => forgetPanel folder panelId }

def projectActive (folders : List (WorkspaceFolder ν)) (wanted : Option ProtocolId) :
    Option ProtocolId :=
  (wanted.filter (folders.flatMap (·.panelIds)).contains).or
    (folders.findSome? (·.activePanelId))

def projectLayout (folders : List (WorkspaceFolder ν)) (active : Option ProtocolId) :
    LayoutNode ν :=
  match folders.filter (·.panelIds ≠ []) with
  | [folder] => folder.layout
  | _ => stack (folders.flatMap (·.panelIds)) active

def syncedProject (folders : List (WorkspaceFolder ν)) (project : WorkspaceProject ν)
    (activePanelId : Option ProtocolId) : WorkspaceProject ν :=
  let active := projectActive folders (activePanelId.or project.activePanelId)
  { project with
    panelIds := folders.flatMap (·.panelIds)
    activePanelId := active
    layout := projectLayout folders active }

def syncProject (st : WorkspaceState ν) (projectId : ProtocolId)
    (activePanelId : Option ProtocolId) : WorkspaceState ν :=
  match st.projects[projectId]? with
  | none => st
  | some project =>
    let synced := syncedProject (project.folderIds.filterMap fun id => st.folders[id]?) project
      activePanelId
    { st with projects := st.projects.insert projectId synced }

def folderForNewPanel (st : WorkspaceState ν) (project : WorkspaceProject ν)
    (folderId : Option (Json ν)) : Checked (WorkspaceFolder ν) := do
  let named := orElse folderId (.str ((generalFolderId st project.id).getD []))
  let folder ← requireFolder st (some named)
  refuseIf (folder.projectId ≠ project.id) (js "folder is outside project")
  .ok folder

def assertProjectStarted (project : WorkspaceProject ν) : Checked Unit :=
  refuseIf (project.start ≠ none) (js "project awaits a start choice")

section Engine
variable [Engine ν]

def clampIndex (n : ν) (length : ℕ) : ℕ := min length ⌊Engine.value n⌋.toNat

/-- Where `splice` inserts: `indexAt` on whatever value the client sent. -/
def indexAt (index : Option (Json ν)) (length : ℕ) : Checked ℕ :=
  match index with
  | none | some .null => .ok length
  | some (.num n) => .ok (clampIndex n length)
  | some (.bool b) => .ok (if b then min length 1 else 0)
  | some j =>
    if j.hasPrimitive then
      match (Engine.read j.text : Numeric ν) with
      | .finite n => .ok (clampIndex n length)
      | .infinite positive => .ok (if positive then length else 0)
      | .nan => .ok 0
    else .error engineTypeError

def leaveFolder (st : WorkspaceState ν) (panel : WorkspacePanel ν) (target : WorkspaceFolder ν) :
    Checked (WorkspaceState ν) :=
  if target.id ≠ panel.folderId then removeFromFolder st panel.folderId panel.id else .ok st

/-- Move a panel to another folder of its own project. The source folder keeps
its other panels; the target shows the panel as its active one. -/
def movePanelToFolder (st : WorkspaceState ν) (panelId : ProtocolId)
    (folderId index : Option (Json ν)) : Checked (WorkspaceState ν) := do
  let panel ← requirePanel st (some (.str panelId))
  let target ← requireFolder st folderId
  refuseIf (target.projectId ≠ panel.projectId) (js "folder is outside the panel project")
  let st1 ← leaveFolder st panel target
  let current ← requireFolder st1 folderId
  let ids := current.panelIds.filter (· ≠ panelId)
  let position ← indexAt index ids.length
  let shown := withFolderPanels
    { current with captureOffer := current.captureOffer.filter (· ≠ panelId) }
    (ids.insertIdx position panelId) (some panelId)
  let key := propertyKey folderId
  let st2 := { st1 with
    folders := st1.folders.insert key shown
    panels := st1.panels.insert panelId { panel with folderId := key } }
  .ok (syncProject st2 panel.projectId (some panelId))

def withRecentProjectFolder (recents : List RecentProjectFolder) (path : Str) (usedAt : Json ν) :
    Checked (List RecentProjectFolder) := do
  let time ← demand usedAt.uint? (js "recent project folder time is invalid")
  let entry : RecentProjectFolder := ⟨← boundedPathText path, time⟩
  .ok ((entry :: recents.filter fun r => r.path ≠ path).take maxRecentProjectFolders)

def requireUnusedFolderName (st : WorkspaceState ν) (project : WorkspaceProject ν) (name : Str)
    (exceptFolderId : Option ProtocolId) : Checked Unit :=
  let used := project.folderIds.any fun id => some id != exceptFolderId &&
    st.folders[id]?.any fun folder => Engine.toLowerCase ν folder.name == Engine.toLowerCase ν name
  refuseIf (used = true) (js "this project already has a folder named " ++ name)

end Engine

end Terminay.Workspace
