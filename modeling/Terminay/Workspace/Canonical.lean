import Terminay.Workspace.Validate

/-!
# The persisted form of a workspace

Every object is copied field by field. Only a panel and a sidebar can carry more
than the fields of their kind: what the persisted form does not list is dropped.
-/

namespace Terminay.Workspace
open Script Outcome

variable {ν : Type}

def basePanelKeys : List String :=
  ["type", "title", "emoji", "color", "inheritsProjectColor", "activityIndicatorsEnabled",
    "createdAt"]

def terminalPanelKeys : List String :=
  ["sessionId", "cwd", "defaultTitle", "namedTitle", "note", "metadataRevision"]

def filePanelKeys : List String := ["path", "mode"]

def folderPanelKeys : List String := ["path", "expanded"]

def keepFields (fields : Fields ν) (keys : List String) : Fields ν :=
  Table.pick fields (keys.map js)

/-- `panel.type === 'file'`. -/
def WorkspacePanel.isFile (p : WorkspacePanel ν) : Bool :=
  match p.at "type" with
  | some (.str s) => s == js "file"
  | _ => false

def isPresentation : Option (Json ν) → Bool
  | some (.str s) => s == js "documentation" || s == js "file-viewer"
  | _ => false

def canonicalPanelFields (panel : WorkspacePanel ν) : Fields ν :=
  if panel.isTerminal then keepFields panel.fields (basePanelKeys ++ terminalPanelKeys)
  else if panel.isFile then
    keepFields panel.fields (basePanelKeys ++ filePanelKeys ++
      if isPresentation (panel.at "presentation") then ["presentation"] else [])
  else
    (keepFields panel.fields (basePanelKeys ++ folderPanelKeys)).insert (js "type")
      (.str (js "folder"))

def canonicalPanel (panel : WorkspacePanel ν) : WorkspacePanel ν :=
  { panel with fields := canonicalPanelFields panel }

def canonicalProject (project : WorkspaceProject ν) : WorkspaceProject ν :=
  { project with sidebar := keepFields project.sidebar sidebarKeys }

def canonicalWorkspace (st : WorkspaceState ν) : WorkspaceState ν :=
  { st with
    projects := Table.mapValues (fun _ project => canonicalProject project) st.projects
    panels := Table.mapValues (fun _ panel => canonicalPanel panel) st.panels }

def canonicalizeWorkspaceState [Engine ν] (st : WorkspaceState ν) : Checked (WorkspaceState ν) := do
  validateWorkspace st
  validateWorkspace (canonicalWorkspace st)
  .ok (canonicalWorkspace st)

theorem canonicalize_ok [Engine ν] {st st' : WorkspaceState ν} :
    canonicalizeWorkspaceState st = .ok st' ↔ validateWorkspace st = .ok () ∧
      validateWorkspace (canonicalWorkspace st) = .ok () ∧ canonicalWorkspace st = st' := by
  simp only [canonicalizeWorkspaceState, bind_ok, Except.ok.injEq]
  constructor
  · rintro ⟨_, hbefore, _, hafter, heq⟩
    exact ⟨hbefore, hafter, heq⟩
  · rintro ⟨hbefore, hafter, heq⟩
    exact ⟨(), hbefore, (), hafter, heq⟩

end Terminay.Workspace
