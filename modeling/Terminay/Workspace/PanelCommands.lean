import Terminay.Workspace.ProjectCommands

/-!
# The folder, panel and terminal commands

Every command that changes which panels a folder holds goes through
`withFolderPanels` and ends in `syncProject`.
-/

namespace Terminay.Workspace
open Script Outcome

variable {ν : Type} [Engine ν]

def worktreeField (value : Option (Json ν)) : Checked (Option WorkspaceFolderWorktreeLink) :=
  match value with
  | none => .ok none
  | some worktree => do .ok (some (← validateWorktreeLink worktree))

def creatorField (st : WorkspaceState ν) (project : WorkspaceProject ν)
    (link : Option WorkspaceFolderWorktreeLink) (value : Option (Json ν)) :
    Checked (Option ProtocolId) :=
  match value with
  | none => .ok none
  | some createdBy => do
    refuseIf (link = none) (js "only a linked folder records its creator")
    let panel ← requirePanel st (some createdBy)
    refuseIf (panel.projectId ≠ project.id) (js "panel is outside project")
    .ok (some (propertyKey (some createdBy)))

/-- A worktree's folder is named after its directory, whatever else is called
that. A folder someone names must be told apart. -/
def newFolderName (st : WorkspaceState ν) (project : WorkspaceProject ν)
    (link : Option WorkspaceFolderWorktreeLink) (name : Str) : Checked Unit :=
  if link = none then requireUnusedFolderName st project name none else .ok ()

def folderCreate (st : WorkspaceState ν) (c : Fields ν) : Checked (Edited ν) := do
  let project ← requireProject st (c.at "projectId")
  refuseIf (isAutomationSpace project = true) (js "the automation space has no other folders")
  let link ← worktreeField (c.at "worktree")
  let creator ← creatorField st project link (c.at "createdByPanelId")
  let name ← boundedName (c.at "name")
  newFolderName st project link name
  let folder : WorkspaceFolder ν :=
    { id := issuedFolderId st, projectId := project.id, name := name,
      kind := if link = none then .plain else .linked, worktree := link, panelIds := [],
      activePanelId := none, layout := stack [] none, createdByPanelId := creator,
      captureOffer := none }
  .ok ({ st with
      folders := st.folders.insert folder.id folder
      projects := st.projects.insert project.id
        { project with folderIds := project.folderIds ++ [folder.id] } },
    ids [folder.id, project.id])

def putFolder (st : WorkspaceState ν) (folder : WorkspaceFolder ν) : WorkspaceState ν :=
  { st with folders := st.folders.insert folder.id folder }

def folderRename (st : WorkspaceState ν) (c : Fields ν) : Checked (Edited ν) := do
  let folder ← requireFolder st (c.at "folderId")
  refuseIf (folder.kind = .general) (js "the General folder cannot be renamed")
  let name ← boundedName (c.at "name")
  let project ← requireProject st (some (.str folder.projectId))
  requireUnusedFolderName st project name (some folder.id)
  .ok (putFolder st { folder with name := name }, ids [folder.id])

/-- A reordering of `held`. A value that is not an array never passes; the text
of its refusal is the engine's. -/
def reordering (value : Option (Json ν)) (held : List ProtocolId) (message : String) :
    Checked (List ProtocolId) :=
  match value.bind Json.items? with
  | none => .error engineTypeError
  | some items =>
    match items.mapM Json.str? with
    | none => .error (js message)
    | some order => do
      refuseIf (order.length ≠ held.length ∨ ¬ order.Nodup ∨ ∃ id ∈ order, id ∉ held) (js message)
      .ok order

def folderReorder (st : WorkspaceState ν) (c : Fields ν) : Checked (Edited ν) := do
  let project ← requireProject st (c.at "projectId")
  let folderIds ← reordering (c.at "folderIds") project.folderIds
    "folder reorder crosses project boundary"
  let st1 := putProject st project.id { project with folderIds := folderIds }
  .ok (syncProject st1 project.id none, ids (project.id :: folderIds))

def folderDelete (st : WorkspaceState ν) (c : Fields ν) : Checked (Edited ν) := do
  let folder ← requireFolder st (c.at "folderId")
  refuseIf (folder.kind = .general) (js "the General folder cannot be deleted")
  refuseIf (0 < folder.panelIds.length) (js "folder must be empty before delete")
  let project ← requireProject st (some (.str folder.projectId))
  .ok ({ st with
      folders := st.folders.erase folder.id
      projects := st.projects.insert project.id
        { project with folderIds := project.folderIds.filter (· ≠ folder.id) } },
    ids [folder.id, project.id])

def folderLinkUpdate (st : WorkspaceState ν) (c : Fields ν) : Checked (Edited ν) := do
  let folder ← requireFolder st (c.at "folderId")
  refuseIf (folder.kind ≠ .linked) (js "only a linked folder has a worktree")
  let link ← validateWorktreeLink ((c.at "worktree").getD .null)
  .ok (putFolder st { folder with worktree := some link }, ids [folder.id])

def folderOfferSet (st : WorkspaceState ν) (c : Fields ν) : Checked (Edited ν) := do
  let folder ← requireFolder st (c.at "folderId")
  let panel ← requirePanel st (c.at "panelId")
  refuseIf (panel.projectId ≠ folder.projectId) (js "panel is outside project")
  refuseIf (panel.folderId = folder.id) (js "panel is already in the folder")
  .ok (putFolder st { folder with captureOffer := some panel.id }, ids [folder.id, panel.id])

def folderOfferAccept (st : WorkspaceState ν) (c : Fields ν) : Checked (Edited ν) := do
  let folder ← requireFolder st (c.at "folderId")
  let panelId ← demand folder.captureOffer (js "folder has no offer")
  let st1 ← movePanelToFolder st panelId (some (.str folder.id)) none
  .ok (st1, ids [folder.id, panelId, folder.projectId])

def folderOfferDecline (st : WorkspaceState ν) (c : Fields ν) : Checked (Edited ν) := do
  let folder ← requireFolder st (c.at "folderId")
  refuseIf (folder.captureOffer = none) (js "folder has no offer")
  .ok (putFolder st { folder with captureOffer := none }, ids [folder.id])

def showPanel (st : WorkspaceState ν) (project : WorkspaceProject ν) (folder : WorkspaceFolder ν)
    (panel : WorkspacePanel ν) : WorkspaceState ν :=
  syncProject
    { st with
      panels := st.panels.insert panel.id panel
      folders := st.folders.insert folder.id
        (withFolderPanels folder (folder.panelIds ++ [panel.id]) (some panel.id)) }
    project.id (some panel.id)

def panelField (value : Option (Json ν)) : Checked (Fields ν) :=
  match value with
  | none | some .null => .error engineTypeError
  | some j => .ok (j.object?.getD ∅)

def createdFields (st : WorkspaceState ν) (panel : WorkspacePanel ν) (title : Option (Json ν)) :
    Checked (Fields ν) :=
  if panel.isTerminal then do
    let titles ← terminalTitlesAtCreation st panel.projectId title none
    .ok (withTitleSources panel.fields titles)
  else .ok panel.fields

def panelCreate (st : WorkspaceState ν) (c : Fields ν) : Checked (Edited ν) := do
  let input ← panelField (c.at "panel")
  let panelId ← assertId (input.at "id") "panelId"
  refuseIf (occupied st.panels panelId = true) (js "panel already exists")
  let project ← requireProject st (input.at "projectId")
  assertProjectStarted project
  let panel : WorkspacePanel ν :=
    { id := panelId, projectId := propertyKey (input.at "projectId"), folderId := [],
      fields := Table.eraseAll input [js "id", js "projectId", js "folderId"] }
  refuseIf (panel.isTerminal = true ∧
      st.terminalSessions[panel.sessionKey]?.map (·.projectId) ≠ some panel.projectId)
    (js "terminal session is outside project")
  let folder ← folderForNewPanel st project (input.at "folderId")
  let fields ← createdFields st panel (input.at "title")
  .ok (showPanel st project folder { panel with folderId := folder.id, fields := fields },
    ids [panelId, folder.id, project.id])

def panelMoveToFolder (st : WorkspaceState ν) (c : Fields ν) : Checked (Edited ν) := do
  let panel ← requirePanel st (c.at "panelId")
  let st1 ← movePanelToFolder st panel.id (c.at "folderId") (c.at "index")
  .ok (st1, ids [panel.id, panel.folderId, propertyKey (c.at "folderId"), panel.projectId])

def immutablePanelKeys : List String := ["projectId", "folderId", "id", "type"]
def assignedTitleKeys : List String := ["defaultTitle", "namedTitle", "programTitle"]

def isIn (key : String) (patch : Fields ν) : Bool := (patch.at key).isSome

def patchedFields (panel : WorkspacePanel ν) (patch : Fields ν) : Checked (Fields ν) :=
  let merged := Table.merge panel.fields (patch.erase (js "note"))
  match patch.at "note" with
  | none => .ok merged
  | some note => do
    refuseIf (panel.isTerminal = false) (js "only a terminal panel has a note")
    if note = .null then .ok (merged.erase (js "note"))
    else do
      assertPanelNote note
      .ok (merged.insert (js "note") note)

def renamedSources (sources : TerminalTitleSources ν) (patch : Fields ν) :
    Checked (TerminalTitleSources ν) :=
  match patch.at "title" with
  | none => .ok sources
  | some .null => .ok { sources with namedTitle := none }
  | some (.str title) =>
    if (trim title).length = 0 then .ok { sources with namedTitle := none }
    else do .ok { sources with namedTitle := some (.str (← boundedNameText title)) }
  | some _ => .error (js "name is invalid")

def advancedRevision (panel : WorkspacePanel ν) : Json ν :=
  .num (Engine.literal (((panel.at "metadataRevision").bind Json.uint?).getD 0 + 1))

def updatedFields (st : WorkspaceState ν) (panel : WorkspacePanel ν) (patch next : Fields ν) :
    Checked (Fields ν) :=
  if panel.isTerminal then do
    let sources ← terminalTitleSources st panel
    let renamed ← renamedSources sources patch
    let titled := withTitleSources next renamed
    .ok (if renamed.namedTitle ≠ sources.namedTitle ∨ next.at "note" ≠ panel.at "note" then
        titled.insert (js "metadataRevision") (advancedRevision panel)
      else titled)
  else .ok next

def panelUpdate (st : WorkspaceState ν) (c : Fields ν) : Checked (Edited ν) := do
  let panel ← requirePanel st (c.at "panelId")
  let patch ← demand ((c.at "patch").bind Json.object?) (js "panel patch must be an object")
  refuseIf (immutablePanelKeys.any (isIn · patch) = true) (js "panel ownership/type is immutable")
  refuseIf (isIn "metadataRevision" patch = true)
    (js "panel metadata revision is server-assigned")
  refuseIf (assignedTitleKeys.any (isIn · patch) = true)
    (js "panel title sources are server-assigned")
  let next ← patchedFields panel patch
  let fields ← updatedFields st panel patch next
  .ok ({ st with panels := st.panels.insert panel.id { panel with fields := fields } },
    ids [panel.id])

def reorderedFolder (st : WorkspaceState ν) (project : WorkspaceProject ν) (c : Fields ν) :
    ProtocolId :=
  let first := propertyKey (((c.at "panelIds").bind Json.items?).bind (·.head?))
  ((st.panels[first]?.map (·.folderId)).or (generalFolderId st project.id)).getD []

def panelReorder (st : WorkspaceState ν) (c : Fields ν) : Checked (Edited ν) := do
  let project ← requireProject st (c.at "projectId")
  let folder ← requireFolder st
    (some (orElse (c.at "folderId") (.str (reorderedFolder st project c))))
  refuseIf (folder.projectId ≠ project.id) (js "folder is outside project")
  let panelIds ← reordering (c.at "panelIds") folder.panelIds "panel reorder crosses folder boundary"
  let st1 := putFolder st (withFolderPanels folder panelIds folder.activePanelId)
  .ok (syncProject st1 project.id none, ids (project.id :: folder.id :: panelIds))

def panelInProject (project : WorkspaceProject ν) (value : Option (Json ν)) : Checked ProtocolId :=
  match value with
  | some (.str id) => if id ∈ project.panelIds then .ok id else .error (js "panel is outside project")
  | _ => .error (js "panel is outside project")

def panelSplit (st : WorkspaceState ν) (c : Fields ν) : Checked (Edited ν) := do
  let project ← requireProject st (c.at "projectId")
  let panelId ← panelInProject project (c.at "panelId")
  let panel ← requirePanel st (some (.str panelId))
  let folder ← requireFolder st (some (.str panel.folderId))
  let layout := LayoutNode.split ((c.at "direction").getD .null)
    (orElse (c.at "weight") (.num (Engine.literal (1 / 2)))) (stack [panelId] (some panelId))
    (stack (folder.panelIds.filter (· ≠ panelId)) none)
  let st1 := putFolder st { folder with layout := layout }
  .ok (syncProject st1 project.id none, ids [project.id, folder.id, panelId])

def panelActivate (st : WorkspaceState ν) (c : Fields ν) : Checked (Edited ν) := do
  let project ← requireProject st (c.at "projectId")
  let panelId ← panelInProject project (c.at "panelId")
  let panel ← requirePanel st (some (.str panelId))
  let folder ← requireFolder st (some (.str panel.folderId))
  let layout := if folder.layout.isStack then stack folder.panelIds (some panelId) else folder.layout
  let st1 := putFolder st { folder with activePanelId := some panelId, layout := layout }
  .ok (syncProject st1 project.id (some panelId), ids [project.id, folder.id, panelId])

def namedSession (panel : WorkspacePanel ν) : List (Json ν) :=
  if panel.isTerminal then [(panel.at "sessionId").getD .null] else []

def rehomeSession (st : WorkspaceState ν) (panel : WorkspacePanel ν) (projectId : ProtocolId) :
    Checked (WorkspaceState ν) :=
  if panel.isTerminal then do
    let session ← demand st.terminalSessions[panel.sessionKey]? (js "terminal session not found")
    .ok { st with
      terminalSessions :=
        st.terminalSessions.insert panel.sessionKey { session with projectId := projectId } }
  else .ok st

def panelMove (st : WorkspaceState ν) (c : Fields ν) : Checked (Edited ν) := do
  let panel ← requirePanel st (c.at "panelId")
  let source ← requireProject st (some (.str panel.projectId))
  let to_ ← requireProject st (c.at "targetProjectId")
  assertProjectStarted to_
  let target ← folderForNewPanel st to_ none
  if source.id = to_.id then do
    let st1 ← movePanelToFolder st panel.id (some (.str panel.folderId)) (c.at "index")
    .ok (st1, ids [panel.id, source.id])
  else do
    let st1 ← removeFromFolder (forgetPanelReferences st source.id panel.id) panel.folderId panel.id
    let position ← indexAt (c.at "index") target.panelIds.length
    let shown := withFolderPanels target (target.panelIds.insertIdx position panel.id) (some panel.id)
    let st2 := { st1 with
      folders := st1.folders.insert target.id shown
      panels := st1.panels.insert panel.id { panel with projectId := to_.id, folderId := target.id } }
    let st3 := syncProject (syncProject st2 source.id none) to_.id (some panel.id)
    let st4 ← rehomeSession st3 panel to_.id
    .ok (st4, ids [panel.folderId, target.id, panel.id, source.id, to_.id] ++ namedSession panel)

def panelClose (st : WorkspaceState ν) (c : Fields ν) : Checked (Edited ν) := do
  let panel ← requirePanel st (c.at "panelId")
  let project ← requireProject st (some (.str panel.projectId))
  let st1 := { st with
    panels := st.panels.erase panel.id
    terminalSessions :=
      if panel.isTerminal then st.terminalSessions.erase panel.sessionKey else st.terminalSessions }
  let st2 ← removeFromFolder (forgetPanelReferences st1 project.id panel.id) panel.folderId panel.id
  let focus := if project.activePanelId = some panel.id then
      st2.folders[panel.folderId]?.bind (·.activePanelId)
    else none
  .ok (syncProject st2 project.id focus,
    namedSession panel ++ ids [panel.id, panel.folderId, project.id])

def newSession (st : WorkspaceState ν) (id projectId : ProtocolId) (createdAt : Json ν)
    (launch : Option (Fields ν)) : TerminalSession ν :=
  { id := id, serverId := st.serverId, projectId := projectId, status := .running,
    createdAt := createdAt, outputPosition := 0, launch := launch, exitCode := none,
    interruptedAt := none }

def terminalCreate (st : WorkspaceState ν) (c : Fields ν) (now : ν) : Checked (Edited ν) := do
  let sessionId ← assertId (c.at "sessionId") "sessionId"
  refuseIf (occupied st.terminalSessions sessionId = true) (js "terminal session already exists")
  let project ← requireProject st (c.at "projectId")
  assertProjectStarted project
  let launch ← launchField (c.at "launch")
  let session := newSession st sessionId project.id (orElse (c.at "createdAt") (.num now)) launch
  .ok ({ st with terminalSessions := st.terminalSessions.insert sessionId session },
    ids [sessionId, project.id])

def cwdField (value : Option (Json ν)) : Checked (Option Str) :=
  match value with
  | none => .ok none
  | some path => do .ok (some (← boundedPath (some path)))

def terminalCreatePanel (st : WorkspaceState ν) (c : Fields ν) (now : ν) : Checked (Edited ν) := do
  let sessionId ← assertId (c.at "sessionId") "sessionId"
  let panelId ← assertId (c.at "panelId") "panelId"
  refuseIf (occupied st.terminalSessions sessionId = true) (js "terminal session already exists")
  refuseIf (occupied st.panels panelId = true) (js "panel already exists")
  let project ← requireProject st (c.at "projectId")
  assertProjectStarted project
  let folder ← folderForNewPanel st project (c.at "folderId")
  let createdAt := orElse (c.at "createdAt") (.num now)
  let launch ← launchField (c.at "launch")
  let cwd ← cwdField (c.at "cwd")
  let titles ← terminalTitlesAtCreation st project.id (c.at "title") (c.at "defaultTitle")
  let fields : Fields ν := Table.ofEntries
    [(js "type", .str (js "terminal")), (js "sessionId", .str sessionId), (js "createdAt", createdAt)]
  let panel : WorkspacePanel ν :=
    { id := panelId, projectId := project.id, folderId := folder.id,
      fields := withTitleSources (withField fields "cwd" (cwd.map .str)) titles }
  let session := newSession st sessionId project.id createdAt launch
  let st1 := { st with terminalSessions := st.terminalSessions.insert sessionId session }
  .ok (showPanel st1 project folder panel, ids [sessionId, panelId, folder.id, project.id])

/-- The mark a session gets while it runs; one that stopped keeps its own. A
name that every object inherits is found too, and has no status and no id. -/
def markSession (st : WorkspaceState ν) (sessionId : ProtocolId)
    (mark : TerminalSession ν → TerminalSession ν) : Option (Edited ν) :=
  match st.terminalSessions[sessionId]? with
  | some session =>
    let marked := if session.status = .running then mark session else session
    some ({ st with terminalSessions := st.terminalSessions.insert session.id marked },
      ids [session.id])
  | none => if inheritedNames.contains sessionId then some (st, [.null]) else none

def terminalMarkInterrupted (st : WorkspaceState ν) (c : Fields ν) (now : ν) : Checked (Edited ν) :=
  let at_ := orElse (c.at "at") (.num now)
  demand (markSession st (propertyKey (c.at "sessionId")) fun session =>
    { session with status := .interrupted, interruptedAt := some at_ })
    (js "terminal session not found")

def terminalMarkExited (st : WorkspaceState ν) (c : Fields ν) : Checked (Edited ν) :=
  .ok ((markSession st (propertyKey (c.at "sessionId")) fun session =>
    { session with status := .exited, exitCode := (c.at "exitCode").or session.exitCode }).getD
    (st, []))

end Terminay.Workspace
