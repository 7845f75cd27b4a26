import Terminay.Workspace.PanelCommands

/-!
# The reducer

A command is its type and its other fields as the client sent them. The reducer
first asks whether the automation space refuses it, then runs the command's own
edit on the draft.
-/

namespace Terminay.Workspace
open Script

variable {ν : Type}

structure Command (ν : Type) where
  type : Str
  fields : Fields ν

inductive CommandType where
  | viewCreate | viewRename | viewClose
  | projectCreate | projectSidebarUpdate | projectRootUpdate | projectStart | recentForget
  | projectShellProfileSet | projectShellProfileClear | projectShellProfileReplace
  | projectActivate | projectRename | projectUpdate | projectMove | projectClose
  | panelCreate | folderCreate | folderRename | folderReorder | folderDelete
  | folderLinkUpdate | folderOfferSet | folderOfferAccept | folderOfferDecline
  | panelMoveToFolder | panelUpdate | panelReorder | panelSplit | panelActivate | panelMove
  | panelClose | terminalCreate | terminalCreatePanel | terminalMarkInterrupted
  | terminalMarkExited
  deriving DecidableEq

def CommandType.text : CommandType → String
  | viewCreate => "view.create"
  | viewRename => "view.rename"
  | viewClose => "view.close"
  | projectCreate => "project.create"
  | projectSidebarUpdate => "project.sidebar.update"
  | projectRootUpdate => "project.root.update"
  | projectStart => "project.start"
  | recentForget => "recent.forget"
  | projectShellProfileSet => "project.shellProfile.set"
  | projectShellProfileClear => "project.shellProfile.clear"
  | projectShellProfileReplace => "project.shellProfile.replace"
  | projectActivate => "project.activate"
  | projectRename => "project.rename"
  | projectUpdate => "project.update"
  | projectMove => "project.move"
  | projectClose => "project.close"
  | panelCreate => "panel.create"
  | folderCreate => "folder.create"
  | folderRename => "folder.rename"
  | folderReorder => "folder.reorder"
  | folderDelete => "folder.delete"
  | folderLinkUpdate => "folder.link.update"
  | folderOfferSet => "folder.offer.set"
  | folderOfferAccept => "folder.offer.accept"
  | folderOfferDecline => "folder.offer.decline"
  | panelMoveToFolder => "panel.moveToFolder"
  | panelUpdate => "panel.update"
  | panelReorder => "panel.reorder"
  | panelSplit => "panel.split"
  | panelActivate => "panel.activate"
  | panelMove => "panel.move"
  | panelClose => "panel.close"
  | terminalCreate => "terminal.create"
  | terminalCreatePanel => "terminal.createPanel"
  | terminalMarkInterrupted => "terminal.markInterrupted"
  | terminalMarkExited => "terminal.markExited"

def commandTypes : List CommandType :=
  [.viewCreate, .viewRename, .viewClose, .projectCreate, .projectSidebarUpdate,
    .projectRootUpdate, .projectStart, .recentForget, .projectShellProfileSet,
    .projectShellProfileClear, .projectShellProfileReplace, .projectActivate, .projectRename,
    .projectUpdate, .projectMove, .projectClose, .panelCreate, .folderCreate, .folderRename,
    .folderReorder, .folderDelete, .folderLinkUpdate, .folderOfferSet, .folderOfferAccept,
    .folderOfferDecline, .panelMoveToFolder, .panelUpdate, .panelReorder, .panelSplit,
    .panelActivate, .panelMove, .panelClose, .terminalCreate, .terminalCreatePanel,
    .terminalMarkInterrupted, .terminalMarkExited]

def commandType? (text : Str) : Option CommandType :=
  commandTypes.find? fun t => js t.text == text

def Command.kind (c : Command ν) : Option CommandType := commandType? c.type

def findAutomationSpace (st : WorkspaceState ν) : Option (WorkspaceProject ν) :=
  (st.projects.toList.map (·.2)).find? isAutomationSpace

def liveAutomationTerminalCount (st : WorkspaceState ν) : ℕ :=
  match findAutomationSpace st with
  | none => 0
  | some space => st.terminalSessions.toList.countP fun e =>
    e.2.projectId == space.id && e.2.status == .running

section Engine
variable [Engine ν]

def reserved (st : WorkspaceState ν) (projectId : Option (Json ν)) : Bool :=
  match projectId with
  | none => false
  | some id => st.projects[id.text]?.any isAutomationSpace

/-- The bounded refusal for a command the automation space never accepts. -/
def automationSpaceRefusal (st : WorkspaceState ν) (c : Command ν) : Option Str :=
  let refuse (when_ : Bool) (message : Str) := if when_ then some message else none
  let named := reserved st (c.fields.at "projectId")
  match c.kind with
  | some .projectCreate =>
    refuse (c.fields.at "projectId" = some (.str automationSpaceProjectId))
      (js "project id is reserved")
  | some .projectClose => refuse named (js "the automation space cannot be closed")
  | some .projectRename | some .projectUpdate | some .projectRootUpdate =>
    refuse named (js "the automation space cannot be renamed or edited")
  | some .projectMove => refuse named (js "the automation space cannot be reordered")
  | some .projectActivate =>
    refuse named (js "the automation space cannot be selected as a project")
  | some .panelMove =>
    let panel := st.panels[propertyKey (c.fields.at "panelId")]?
    refuse (reserved st (panel.map fun p => .str p.projectId) ||
        reserved st (c.fields.at "targetProjectId"))
      (js "panels cannot move into or out of the automation space")
  | some .terminalCreate | some .terminalCreatePanel =>
    refuse (named && automationSpaceTerminalLimit ≤ liveAutomationTerminalCount st)
      (js "the automation space has reached its limit of 50 live terminals")
  | _ => none

def CommandType.edit (t : CommandType) (st : WorkspaceState ν) (c : Fields ν) (now : ν) :
    Checked (Edited ν) :=
  match t with
  | viewCreate => Workspace.viewCreate st c
  | viewRename => Workspace.viewRename st c
  | viewClose => Workspace.viewClose st c
  | projectCreate => Workspace.projectCreate st c
  | projectSidebarUpdate => Workspace.projectSidebarUpdate st c
  | projectRootUpdate => Workspace.projectRootUpdate st c now
  | projectStart => Workspace.projectStart st c now
  | recentForget => Workspace.recentForget st c
  | projectShellProfileSet => Workspace.projectShellProfileSet st c
  | projectShellProfileClear => Workspace.projectShellProfileClear st c
  | projectShellProfileReplace => Workspace.projectShellProfileReplace st c
  | projectActivate => Workspace.projectActivate st c
  | projectRename => Workspace.projectRename st c
  | projectUpdate => Workspace.projectUpdate st c
  | projectMove => Workspace.projectMove st c
  | projectClose => Workspace.projectClose st c
  | panelCreate => Workspace.panelCreate st c
  | folderCreate => Workspace.folderCreate st c
  | folderRename => Workspace.folderRename st c
  | folderReorder => Workspace.folderReorder st c
  | folderDelete => Workspace.folderDelete st c
  | folderLinkUpdate => Workspace.folderLinkUpdate st c
  | folderOfferSet => Workspace.folderOfferSet st c
  | folderOfferAccept => Workspace.folderOfferAccept st c
  | folderOfferDecline => Workspace.folderOfferDecline st c
  | panelMoveToFolder => Workspace.panelMoveToFolder st c
  | panelUpdate => Workspace.panelUpdate st c
  | panelReorder => Workspace.panelReorder st c
  | panelSplit => Workspace.panelSplit st c
  | panelActivate => Workspace.panelActivate st c
  | panelMove => Workspace.panelMove st c
  | panelClose => Workspace.panelClose st c
  | terminalCreate => Workspace.terminalCreate st c now
  | terminalCreatePanel => Workspace.terminalCreatePanel st c now
  | terminalMarkInterrupted => Workspace.terminalMarkInterrupted st c now
  | terminalMarkExited => Workspace.terminalMarkExited st c

def reduce (st : WorkspaceState ν) (c : Command ν) (now : ν) : Checked (Edited ν) :=
  match automationSpaceRefusal st c with
  | some message => .error message
  | none =>
    match c.kind with
    | some t => t.edit st c.fields now
    | none => .error (js "unknown workspace command")

theorem reduce_ok {st : WorkspaceState ν} {c : Command ν} {now : ν} {r : Edited ν} :
    reduce st c now = .ok r ↔
      automationSpaceRefusal st c = none ∧ ∃ t, c.kind = some t ∧ t.edit st c.fields now = .ok r := by
  unfold reduce
  rcases automationSpaceRefusal st c with _ | message
  · rcases c.kind with _ | t <;> simp
  · simp

end Engine

end Terminay.Workspace
