import Terminay.Workspace.Edits
import Terminay.Workspace.Sidebar

/-!
# The view and project commands

One definition per command of the reducer. A command reads its own fields and
answers with the edited draft and the ids it names as changed, or refuses.
-/

namespace Terminay.Workspace
open Script Outcome

variable {ν : Type}

abbrev Edited (ν : Type) := WorkspaceState ν × List (Json ν)

def ids (changed : List ProtocolId) : List (Json ν) := changed.map .str

def awaitingStartChoice : Str := js "awaiting-choice"

def originNone : Json ν := .str (js "none")
def originExplicit : Json ν := .str (js "explicit")

def viewCreate (st : WorkspaceState ν) (c : Fields ν) : Checked (Edited ν) := do
  let viewId ← assertId (c.at "viewId") "viewId"
  refuseIf (occupied st.views viewId = true) (js "view already exists")
  let name ← boundedName (c.at "name")
  let view : WorkspaceView := ⟨viewId, st.serverId, name, [], none⟩
  .ok ({ st with views := st.views.insert viewId view, viewOrder := st.viewOrder ++ [viewId] },
    ids [viewId])

def viewRename [Engine ν] (st : WorkspaceState ν) (c : Fields ν) : Checked (Edited ν) := do
  let view ← requireView st (c.at "viewId")
  let name ← boundedName (c.at "name")
  let viewId := propertyKey (c.at "viewId")
  .ok ({ st with views := st.views.insert viewId { view with name := name } }, ids [viewId])

/-- The automation space may be at home in a view that lists no project; closing
that view moves it to the first view left. -/
def rehomed (viewId : ProtocolId) (home : Option ProtocolId) (project : WorkspaceProject ν) :
    WorkspaceProject ν :=
  match home with
  | some home => if project.viewId = viewId then { project with viewId := home } else project
  | none => project

def viewClose [Engine ν] (st : WorkspaceState ν) (c : Fields ν) : Checked (Edited ν) := do
  let view ← requireView st (c.at "viewId")
  refuseIf (0 < view.projectIds.length) (js "view must be empty before close")
  refuseIf (st.viewOrder.length ≤ 1) (js "cannot close the last view")
  let viewId := propertyKey (c.at "viewId")
  let viewOrder := st.viewOrder.filter (· ≠ viewId)
  let moved := st.projects.toList.filter fun e => viewOrder.head?.isSome && e.2.viewId == viewId
  .ok ({ st with
      views := st.views.erase viewId
      viewOrder := viewOrder
      projects := Table.mapValues (fun _ => rehomed viewId viewOrder.head?) st.projects },
    ids (moved.map (·.2.id) ++ [viewId]))

def startField [Engine ν] (value : Option (Json ν)) (rootOrigin : Json ν) :
    Checked (Option ProjectStartState) :=
  match value with
  | none => .ok none
  | some start => do
    refuseIf (start ≠ .str awaitingStartChoice) (js "project start state is invalid")
    refuseIf (rootOrigin ≠ originNone) (js "a project awaiting a start choice has no root")
    .ok (some .awaitingChoice)

def projectName (st : WorkspaceState ν) (value : Option (Json ν)) : Checked Str :=
  match value with
  | none => .ok (nextDefaultProjectName st)
  | some (.str name) =>
    if (trim name).length = 0 then .ok (nextDefaultProjectName st) else boundedNameText name
  | some _ => .error engineTypeError

def projectRoot [Engine ν] (rootOrigin : Json ν) (value : Option (Json ν)) : Checked Str :=
  if rootOrigin = originNone then noRoot value else boundedPath value

def projectCreate [Engine ν] (st : WorkspaceState ν) (c : Fields ν) : Checked (Edited ν) := do
  let projectId ← assertId (c.at "projectId") "projectId"
  refuseIf (occupied st.projects projectId = true) (js "project already exists")
  let view ← requireView st (c.at "viewId")
  let viewId := propertyKey (c.at "viewId")
  let rootOrigin := orElse (c.at "rootOrigin") originExplicit
  let start ← startField (c.at "start") rootOrigin
  let general : WorkspaceFolder ν := generalFolder (issuedFolderId st) projectId
  let root ← projectRoot rootOrigin (c.at "root")
  let name ← projectName st (c.at "name")
  let sidebar ← normalizeWorkspaceSidebarState (c.at "sidebar")
  let color ← optionalPresentation (c.at "color") "color"
  let icon ← optionalPresentation (c.at "icon") "icon"
  let project : WorkspaceProject ν :=
    { id := projectId, kind := none, serverId := st.serverId, viewId := viewId, root := root,
      rootOrigin := rootOrigin, start := start, name := name, color := color, icon := icon,
      defaultShellProfileId := none, sidebar := sidebar, folderIds := [general.id],
      panelIds := [], activePanelId := none, layout := stack [] none }
  .ok ({ st with
      folders := st.folders.insert general.id general
      projects := st.projects.insert projectId project
      views := st.views.insert viewId
        (withActiveProject view (view.projectIds ++ [projectId]) (some projectId)) },
    ids [general.id, projectId, viewId])

def putProject (st : WorkspaceState ν) (id : ProtocolId) (project : WorkspaceProject ν) :
    WorkspaceState ν :=
  { st with projects := st.projects.insert id project }

section Engine
variable [Engine ν]

def projectSidebarUpdate (st : WorkspaceState ν) (c : Fields ν) : Checked (Edited ν) := do
  let project ← requireProject st (c.at "projectId")
  let projectId := propertyKey (c.at "projectId")
  let sidebar ← patchWorkspaceSidebarState project.sidebar (c.at "sidebar")
  .ok (putProject st projectId { project with sidebar := sidebar }, ids [projectId])

def projectRootUpdate (st : WorkspaceState ν) (c : Fields ν) (now : ν) : Checked (Edited ν) := do
  let project ← requireProject st (c.at "projectId")
  let projectId := propertyKey (c.at "projectId")
  let root ← boundedPath (c.at "root")
  let recents ← withRecentProjectFolder st.recentProjectFolders root
    (orElse (c.at "usedAt") (.num now))
  let started := { project with start := none, root := root, rootOrigin := originExplicit }
  .ok ({ putProject st projectId started with recentProjectFolders := recents }, ids [projectId])

def startedName (project : WorkspaceProject ν) (folderName : Str) : Checked Str :=
  if (defaultProjectNumber? project.name).isSome && !folderName.isEmpty then
    boundedNameText folderName
  else .ok project.name

def startedInFolder (project : WorkspaceProject ν) (root : Str) : Checked (WorkspaceProject ν) := do
  let name ← startedName project (pathBasename root)
  .ok { project with start := none, root := root, rootOrigin := originExplicit, name := name }

def projectStart (st : WorkspaceState ν) (c : Fields ν) (now : ν) : Checked (Edited ν) := do
  let project ← requireProject st (c.at "projectId")
  let projectId := propertyKey (c.at "projectId")
  refuseIf (project.start ≠ some .awaitingChoice) (js "project has already started")
  let choice := ((c.at "choice").bind Json.object?).getD ∅
  if choice.at "kind" = some (.str (js "home")) then
    .ok (putProject st projectId { project with start := none, root := [], rootOrigin := originNone },
      ids [projectId])
  else if choice.at "kind" = some (.str (js "folder")) then do
    let root ← boundedPath (choice.at "path")
    let started ← startedInFolder project root
    let recents ← withRecentProjectFolder st.recentProjectFolders root
      (orElse (c.at "usedAt") (.num now))
    .ok ({ putProject st projectId started with recentProjectFolders := recents }, ids [projectId])
  else .error (js "project start choice is invalid")

def recentForget (st : WorkspaceState ν) (c : Fields ν) : Checked (Edited ν) := do
  let path ← boundedPath (c.at "path")
  .ok ({ st with recentProjectFolders := st.recentProjectFolders.filter fun r => r.path ≠ path }, [])

def projectShellProfileSet (st : WorkspaceState ν) (c : Fields ν) : Checked (Edited ν) := do
  let profileId ← assertId (c.at "profileId") "profileId"
  let project ← requireProject st (c.at "projectId")
  let projectId := propertyKey (c.at "projectId")
  .ok (putProject st projectId { project with defaultShellProfileId := some profileId },
    ids [projectId])

def projectShellProfileClear (st : WorkspaceState ν) (c : Fields ν) : Checked (Edited ν) := do
  let project ← requireProject st (c.at "projectId")
  let projectId := propertyKey (c.at "projectId")
  .ok (putProject st projectId { project with defaultShellProfileId := none }, ids [projectId])

def optionalId (value : Option (Json ν)) (name : String) : Checked (Option ProtocolId) :=
  match value with
  | none => .ok none
  | some j => do .ok (some (← assertId (some j) name))

def projectShellProfileReplace (st : WorkspaceState ν) (c : Fields ν) : Checked (Edited ν) := do
  let fromProfileId ← assertId (c.at "fromProfileId") "fromProfileId"
  let toProfileId ← optionalId (c.at "toProfileId") "toProfileId"
  let uses (project : WorkspaceProject ν) : Bool :=
    project.defaultShellProfileId == some fromProfileId
  let replaced (project : WorkspaceProject ν) : WorkspaceProject ν :=
    if uses project then { project with defaultShellProfileId := toProfileId } else project
  .ok ({ st with projects := Table.mapValues (fun _ => replaced) st.projects },
    ids ((st.projects.toList.filter fun e => uses e.2).map (·.1)))

def projectActivate (st : WorkspaceState ν) (c : Fields ν) : Checked (Edited ν) := do
  let project ← requireProject st (c.at "projectId")
  let view ← requireView st (some (.str project.viewId))
  .ok ({ st with views := st.views.insert view.id { view with activeProjectId := some project.id } },
    ids [project.id, view.id])

def projectRename (st : WorkspaceState ν) (c : Fields ν) : Checked (Edited ν) := do
  let project ← requireProject st (c.at "projectId")
  let projectId := propertyKey (c.at "projectId")
  let name ← boundedName (c.at "name")
  .ok (putProject st projectId { project with name := name }, ids [projectId])

def updatedRoot (project : WorkspaceProject ν) (rooted : Bool) (value : Option (Json ν)) :
    Checked Str :=
  if rooted then boundedPath value else .ok project.root

/-- A project with no root keeps it unless the update gives it one. -/
def projectUpdate (st : WorkspaceState ν) (c : Fields ν) : Checked (Edited ν) := do
  let project ← requireProject st (c.at "projectId")
  let projectId := propertyKey (c.at "projectId")
  let rooted : Bool := c.at "root" ≠ some (.str project.root)
  let name ← boundedName (c.at "name")
  let root ← updatedRoot project rooted (c.at "root")
  let color ← optionalPresentation (c.at "color") "color"
  let icon ← optionalPresentation (c.at "icon") "icon"
  .ok (putProject st projectId
    { project with
      start := if rooted then none else project.start
      name := name
      root := root
      rootOrigin :=
        if rooted ∧ project.rootOrigin = originNone then originExplicit else project.rootOrigin
      color := color.or project.color
      icon := icon.or project.icon },
    ids [projectId])

def activeWithout (view : WorkspaceView) (projectId : ProtocolId) (left : List ProtocolId) :
    Option ProtocolId :=
  if view.activeProjectId = some projectId then left.head? else view.activeProjectId

def viewWithout (view : WorkspaceView) (projectId : ProtocolId) : WorkspaceView :=
  let left := view.projectIds.filter (· ≠ projectId)
  withActiveProject view left (activeWithout view projectId left)

def projectMove (st : WorkspaceState ν) (c : Fields ν) : Checked (Edited ν) := do
  let project ← requireProject st (c.at "projectId")
  let source ← requireView st (some (.str project.viewId))
  let target ← requireView st (c.at "targetViewId")
  let targetViewId := propertyKey (c.at "targetViewId")
  let listed := target.projectIds.filter (· ≠ project.id)
  let position ← indexAt (c.at "index") listed.length
  let shown := withActiveProject target (listed.insertIdx position project.id) (some project.id)
  .ok ({ st with
      views := (st.views.insert project.viewId (viewWithout source project.id)).insert
        targetViewId shown
      projects := st.projects.insert project.id { project with viewId := targetViewId } },
    ids [project.id, source.id, target.id])

def projectClose (st : WorkspaceState ν) (c : Fields ν) : Checked (Edited ν) := do
  let project ← requireProject st (c.at "projectId")
  let view ← requireView st (some (.str project.viewId))
  let sessionIds := (st.terminalSessions.toList.filter fun e => e.2.projectId == project.id).map (·.1)
  .ok ({ st with
      panels := Table.eraseAll st.panels project.panelIds
      folders := Table.eraseAll st.folders project.folderIds
      terminalSessions := Table.eraseAll st.terminalSessions sessionIds
      projects := st.projects.erase project.id
      views := st.views.insert view.id (viewWithout view project.id) },
    ids (project.panelIds ++ project.folderIds ++ sessionIds ++ [project.id, view.id]))

end Engine

end Terminay.Workspace
