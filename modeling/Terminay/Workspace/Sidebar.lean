import Terminay.Workspace.Bounds

/-!
# A project's sidebar

The sidebar is a record of twelve fields, checked as a whole whenever it is
stored. A patch may name only those fields and is merged before the check.
-/

namespace Terminay.Workspace
open Script Outcome

variable {ν : Type}

def sidebarPanelIds : List Str := [js "explorer", js "agents", js "git", js "documentation"]

def sidebarBooleans : List String :=
  ["isFileExplorerOpen", "isExplorerPaneCollapsed", "isAgentsPaneCollapsed",
    "isGitPaneCollapsed", "isDocumentationPaneCollapsed"]

def sidebarDimensions : List String :=
  ["sidebarAgentsHeight", "sidebarExplorerHeight", "sidebarGitHeight",
    "sidebarDocumentationHeight"]

def sidebarEntryLists : List String := ["expandedAgentEntryIds", "expandedDocumentationFolderIds"]

def sidebarKeys : List String :=
  sidebarBooleans ++ sidebarEntryLists ++ sidebarDimensions ++ ["sidebarPanelOrder"]

def isBool : Option (Json ν) → Bool
  | some (.bool _) => true
  | _ => false

def isSidebarEntry : Json ν → Bool
  | .str s => 0 < s.length && s.length ≤ 4096 && !hasNul s
  | _ => false

def isSidebarEntryList : Option (Json ν) → Bool
  | some (.arr entries) => entries.length ≤ 256 && entries.all isSidebarEntry
  | _ => false

def isSidebarOrder : Option (Json ν) → Bool
  | some (.arr order) =>
    match order.mapM Json.str? with
    | some ids => ids.length == 4 && decide ids.Nodup && sidebarPanelIds.all ids.contains
    | none => false
  | _ => false

section Engine
variable [Engine ν]

def isSidebarDimension : Option (Json ν) → Bool
  | some j =>
    match j.uint? with
    | some n => 30 ≤ n && n ≤ 2000
    | none => false
  | none => false

def defaultWorkspaceSidebarState : Fields ν :=
  Table.ofEntries
    [(js "isFileExplorerOpen", .bool false), (js "isExplorerPaneCollapsed", .bool false),
      (js "isAgentsPaneCollapsed", .bool false), (js "isGitPaneCollapsed", .bool false),
      (js "isDocumentationPaneCollapsed", .bool true), (js "expandedAgentEntryIds", .arr []),
      (js "expandedDocumentationFolderIds", .arr []),
      (js "sidebarAgentsHeight", .num (Engine.literal 200)),
      (js "sidebarExplorerHeight", .num (Engine.literal 320)),
      (js "sidebarGitHeight", .num (Engine.literal 240)),
      (js "sidebarDocumentationHeight", .num (Engine.literal 220)),
      (js "sidebarPanelOrder", .arr (sidebarPanelIds.map .str))]

def validateWorkspaceSidebarState (sidebar : Fields ν) : Checked Unit := do
  refuseIf (sidebarBooleans.any fun key => !isBool (sidebar.at key))
    (js "project sidebar is invalid")
  refuseIf (sidebarDimensions.any fun key => !isSidebarDimension (sidebar.at key))
    (js "project sidebar dimensions are invalid")
  refuseIf (sidebarEntryLists.any fun key => !isSidebarEntryList (sidebar.at key))
    (js "project sidebar navigation state is invalid")
  refuseIf (!isSidebarOrder (sidebar.at "sidebarPanelOrder"))
    (js "project sidebar panel order is invalid")

def normalizeWorkspaceSidebarState (value : Option (Json ν)) : Checked (Fields ν) :=
  match value with
  | none => .ok defaultWorkspaceSidebarState
  | some j =>
    match j.object? with
    | none => .error (js "project sidebar is invalid")
    | some sidebar => do
      validateWorkspaceSidebarState sidebar
      .ok (Table.pick sidebar (sidebarKeys.map js))

def patchWorkspaceSidebarState (current : Fields ν) (patch : Option (Json ν)) :
    Checked (Fields ν) :=
  match patch with
  | some (.obj input) =>
    if input.isEmpty ∨ input.any (fun e => !(sidebarKeys.map js).contains e.1) then
      .error (js "sidebar patch is invalid")
    else do
      let merged := input.foldl (fun t e => t.insert e.1 e.2) current
      validateWorkspaceSidebarState merged
      .ok (Table.pick merged (sidebarKeys.map js))
  | _ => .error (js "sidebar patch is invalid")

end Engine

end Terminay.Workspace
