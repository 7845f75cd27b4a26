import Terminay.Script.Stringify
import Terminay.Workspace.State

/-!
# Change records

A change record holds what one commit changed: the objects of each collection
whose content differs, in full, the ids that are gone, and the two ordered lists
when they differ. It is derived by comparing two states.
-/

namespace Terminay.Workspace
open Script

variable {ν : Type}

structure CollectionChange (α : Type) where
  changed : Table.Of ProtocolId α
  removed : List ProtocolId
  deriving DecidableEq

structure StateDifference (ν : Type) where
  views : CollectionChange WorkspaceView
  projects : CollectionChange (WorkspaceProject ν)
  folders : CollectionChange (WorkspaceFolder ν)
  panels : CollectionChange (WorkspacePanel ν)
  terminalSessions : CollectionChange (TerminalSession ν)
  viewOrder : Option (List ProtocolId)
  recentProjectFolders : Option (List RecentProjectFolder)

structure WorkspaceChangeRecord (ν : Type) where
  fromRevision : ℕ
  revision : ℕ
  cursor : Str
  /-- Absent in the record of a scoped connection. -/
  type : Option Str
  difference : StateDifference ν

def collectionDifference {α : Type} [DecidableEq α] (before after : Table.Of ProtocolId α) :
    CollectionChange α where
  changed := Table.select (fun id object => decide (before[id]? ≠ some object)) after
  removed := before.keys.filter fun id => after[id]? = none

section Difference
variable [DecidableEq ν]

/-- `workspaceStateDifference`, and what `settleCommittedState` answers: the two
differ in which equal objects they share, which no value shows. -/
def workspaceStateDifference (previous next : WorkspaceState ν) : StateDifference ν where
  views := collectionDifference previous.views next.views
  projects := collectionDifference previous.projects next.projects
  folders := collectionDifference previous.folders next.folders
  panels := collectionDifference previous.panels next.panels
  terminalSessions := collectionDifference previous.terminalSessions next.terminalSessions
  viewOrder := if previous.viewOrder = next.viewOrder then none else some next.viewOrder
  recentProjectFolders :=
    if previous.recentProjectFolders = next.recentProjectFolders then none
    else some next.recentProjectFolders

end Difference

/-! ## The serialised form of a record -/

section Json
variable [Engine ν]

def member (key : String) (value : Option (Json ν)) : List (Str × Json ν) :=
  value.toList.map fun j => (js key, j)

def number (n : ℕ) : Json ν := .num (Engine.literal n)
def texts (ids : List ProtocolId) : Json ν := .arr (ids.map .str)

def LayoutNode.toJson : LayoutNode ν → Json ν
  | .stack panelIds active => .obj (
      member "kind" (some (.str (js "stack"))) ++ member "panelIds" (some (texts panelIds)) ++
        member "activePanelId" (active.map .str))
  | .split direction weight first second => .obj (
      member "kind" (some (.str (js "split"))) ++ member "direction" (some direction) ++
        member "weight" (some weight) ++ member "first" (some first.toJson) ++
        member "second" (some second.toJson))

def WorkspaceView.toJson (v : WorkspaceView) : Json ν := .obj (
  member "id" (some (.str v.id)) ++ member "serverId" (some (.str v.serverId)) ++
    member "name" (some (.str v.name)) ++ member "projectIds" (some (texts v.projectIds)) ++
    member "activeProjectId" (v.activeProjectId.map .str))

def fieldsJson (fields : Fields ν) : Json ν := .obj fields.toList

def WorkspaceProject.toJson (p : WorkspaceProject ν) : Json ν := .obj (
  member "id" (some (.str p.id)) ++
    member "kind" (p.kind.map fun _ => .str (js "automations")) ++
    member "serverId" (some (.str p.serverId)) ++ member "viewId" (some (.str p.viewId)) ++
    member "root" (some (.str p.root)) ++ member "rootOrigin" (some p.rootOrigin) ++
    member "start" (p.start.map fun _ => .str (js "awaiting-choice")) ++
    member "name" (some (.str p.name)) ++ member "color" (p.color.map .str) ++
    member "icon" (p.icon.map .str) ++
    member "defaultShellProfileId" (p.defaultShellProfileId.map .str) ++
    member "sidebar" (some (fieldsJson p.sidebar)) ++ member "folderIds" (some (texts p.folderIds)) ++
    member "panelIds" (some (texts p.panelIds)) ++ member "activePanelId" (p.activePanelId.map .str) ++
    member "layout" (some p.layout.toJson))

def WorkspaceFolderKind.text : WorkspaceFolderKind → String
  | general => "general"
  | plain => "plain"
  | linked => "linked"

def WorkspaceFolderWorktreeLink.toJson (l : WorkspaceFolderWorktreeLink) : Json ν := .obj (
  member "repositoryId" (some (.str l.repositoryId)) ++ member "path" (some (.str l.path)))

def WorkspaceFolder.toJson (f : WorkspaceFolder ν) : Json ν := .obj (
  member "id" (some (.str f.id)) ++ member "projectId" (some (.str f.projectId)) ++
    member "name" (some (.str f.name)) ++ member "kind" (some (.str (js f.kind.text))) ++
    member "worktree" (f.worktree.map (·.toJson)) ++ member "panelIds" (some (texts f.panelIds)) ++
    member "activePanelId" (f.activePanelId.map .str) ++ member "layout" (some f.layout.toJson) ++
    member "createdByPanelId" (f.createdByPanelId.map .str) ++
    member "captureOffer" (f.captureOffer.map fun p => .obj (member "panelId" (some (.str p)))))

def WorkspacePanel.toJson (p : WorkspacePanel ν) : Json ν := .obj (
  member "id" (some (.str p.id)) ++ member "projectId" (some (.str p.projectId)) ++
    member "folderId" (some (.str p.folderId)) ++ p.fields.toList)

def TerminalStatus.text : TerminalStatus → String
  | running => "running"
  | exited => "exited"
  | interrupted => "interrupted"

def TerminalSession.toJson (s : TerminalSession ν) : Json ν := .obj (
  member "id" (some (.str s.id)) ++ member "serverId" (some (.str s.serverId)) ++
    member "projectId" (some (.str s.projectId)) ++ member "status" (some (.str (js s.status.text))) ++
    member "createdAt" (some s.createdAt) ++ member "outputPosition" (some (number s.outputPosition)) ++
    member "launch" (s.launch.map fieldsJson) ++ member "exitCode" s.exitCode ++
    member "interruptedAt" s.interruptedAt)

def RecentProjectFolder.toJson (r : RecentProjectFolder) : Json ν := .obj (
  member "path" (some (.str r.path)) ++ member "usedAt" (some (number r.usedAt)))

def changedMember {α : Type} (key : String) (toJson : α → Json ν) (c : CollectionChange α) :
    List (Str × Json ν) :=
  let objects := c.changed.toList.map fun e => (e.1, toJson e.2)
  if objects = [] then [] else member key (some (.obj objects))

def removedMember {α : Type} (key : String) (c : CollectionChange α) : List (Str × Json ν) :=
  if c.removed = [] then [] else member key (some (texts c.removed))

def WorkspaceChangeRecord.toJson (r : WorkspaceChangeRecord ν) : Json ν :=
  let d := r.difference
  .obj (
    member "fromRevision" (some (number r.fromRevision)) ++
      member "revision" (some (number r.revision)) ++ member "cursor" (some (.str r.cursor)) ++
      member "type" (r.type.map .str) ++
      member "changed" (some (.obj (
        changedMember "views" (·.toJson) d.views ++ changedMember "projects" (·.toJson) d.projects ++
          changedMember "folders" (·.toJson) d.folders ++ changedMember "panels" (·.toJson) d.panels ++
          changedMember "terminalSessions" (·.toJson) d.terminalSessions))) ++
      member "removed" (some (.obj (
        removedMember "views" d.views ++ removedMember "projects" d.projects ++
          removedMember "folders" d.folders ++ removedMember "panels" d.panels ++
          removedMember "terminalSessions" d.terminalSessions))) ++
      member "viewOrder" (d.viewOrder.map texts) ++
      member "recentProjectFolders" (d.recentProjectFolders.map fun rs => .arr (rs.map (·.toJson))))

def recordBytes (r : WorkspaceChangeRecord ν) : ℕ := r.toJson.stringify.length

end Json

end Terminay.Workspace
