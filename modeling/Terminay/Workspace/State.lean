import Terminay.Script.Json
import Terminay.Lib.Outcome

/-!
# The authoritative workspace state

Views list projects, projects list folders, folders list panels, and a terminal
panel names a terminal session. A collection is a table from ids to objects.
Values that commands store without checking them stay JSON: a panel's own
fields, a split's direction and weight, a root's origin, the times of a session.
-/

namespace Terminay.Workspace
open Script

abbrev ProtocolId := Str

/-- A refused command answers with its message. -/
abbrev Checked := Except Str

def workspaceSchemaVersion : ℕ := 7
def maxRecentProjectFolders : ℕ := 50
def generalFolderName : Str := js "General"
def automationSpaceProjectId : ProtocolId := js "system:automations"
def automationSpaceName : Str := js "Automations"
def automationSpaceTerminalLimit : ℕ := 50

inductive TerminalStatus where | running | exited | interrupted
  deriving DecidableEq

inductive ProjectStartState where | awaitingChoice
  deriving DecidableEq

inductive WorkspaceProjectKind where | automations
  deriving DecidableEq

inductive WorkspaceFolderKind where | general | plain | linked
  deriving DecidableEq

structure RecentProjectFolder where
  path : Str
  usedAt : ℕ
  deriving DecidableEq

inductive LayoutNode (ν : Type) where
  | stack (panelIds : List ProtocolId) (activePanelId : Option ProtocolId)
  | split (direction weight : Json ν) (first second : LayoutNode ν)
  deriving DecidableEq

structure WorkspaceFolderWorktreeLink where
  repositoryId : Str
  path : Str
  deriving DecidableEq

structure WorkspaceFolder (ν : Type) where
  id : ProtocolId
  projectId : ProtocolId
  name : Str
  kind : WorkspaceFolderKind
  worktree : Option WorkspaceFolderWorktreeLink
  panelIds : List ProtocolId
  activePanelId : Option ProtocolId
  layout : LayoutNode ν
  createdByPanelId : Option ProtocolId
  captureOffer : Option ProtocolId
  deriving DecidableEq

structure WorkspaceView where
  id : ProtocolId
  serverId : ProtocolId
  name : Str
  projectIds : List ProtocolId
  activeProjectId : Option ProtocolId
  deriving DecidableEq

structure WorkspaceProject (ν : Type) where
  id : ProtocolId
  kind : Option WorkspaceProjectKind
  serverId : ProtocolId
  viewId : ProtocolId
  root : Str
  rootOrigin : Json ν
  start : Option ProjectStartState
  name : Str
  color : Option Str
  icon : Option Str
  defaultShellProfileId : Option ProtocolId
  sidebar : Fields ν
  folderIds : List ProtocolId
  panelIds : List ProtocolId
  activePanelId : Option ProtocolId
  layout : LayoutNode ν
  deriving DecidableEq

/-- A panel's identity, and every other field it carries. A field that a client
supplied is whatever JSON the client sent. -/
structure WorkspacePanel (ν : Type) where
  id : ProtocolId
  projectId : ProtocolId
  folderId : ProtocolId
  fields : Fields ν
  deriving DecidableEq

structure TerminalSession (ν : Type) where
  id : ProtocolId
  serverId : ProtocolId
  projectId : ProtocolId
  status : TerminalStatus
  createdAt : Json ν
  outputPosition : ℕ
  launch : Option (Fields ν)
  exitCode : Option (Json ν)
  interruptedAt : Option (Json ν)
  deriving DecidableEq

structure WorkspaceState (ν : Type) where
  schemaVersion : ℕ
  serverId : ProtocolId
  revision : ℕ
  cursor : Str
  viewOrder : List ProtocolId
  views : Table.Of ProtocolId WorkspaceView
  projects : Table.Of ProtocolId (WorkspaceProject ν)
  folders : Table.Of ProtocolId (WorkspaceFolder ν)
  panels : Table.Of ProtocolId (WorkspacePanel ν)
  terminalSessions : Table.Of ProtocolId (TerminalSession ν)
  recentProjectFolders : List RecentProjectFolder
  deriving DecidableEq

variable {ν : Type}

def WorkspacePanel.at (p : WorkspacePanel ν) (key : String) : Option (Json ν) := p.fields.at key

def WorkspacePanel.isTerminal (p : WorkspacePanel ν) : Bool :=
  match p.at "type" with
  | some (.str s) => s == js "terminal"
  | _ => false

/-- The key under which `terminalSessions[panel.sessionId]` is looked up. -/
def WorkspacePanel.sessionKey [Engine ν] (p : WorkspacePanel ν) : ProtocolId :=
  propertyKey (p.at "sessionId")

def isAutomationSpace (p : WorkspaceProject ν) : Bool := p.kind == some .automations

def LayoutNode.panels : LayoutNode ν → List ProtocolId
  | .stack panelIds _ => panelIds
  | .split _ _ first second => first.panels ++ second.panels

def LayoutNode.isStack : LayoutNode ν → Bool
  | .stack .. => true
  | .split .. => false

def stack (panelIds : List ProtocolId) (activePanelId : Option ProtocolId) : LayoutNode ν :=
  .stack panelIds activePanelId

@[simp] theorem panels_stack (ids : List ProtocolId) (active : Option ProtocolId) :
    (stack ids active : LayoutNode ν).panels = ids := rfl

end Terminay.Workspace
