import Terminay.Folders.Worktrees
import Terminay.Lib.Effects
import Terminay.Workspace.Store

/-!
# The folder reconciler

A pass reads the listing of a project's worktrees and issues the folder commands that bring its
folders in line. It waits three times: for the listing, for the project root, and for the panel
that created a worktree. Whatever else happens in between is a moment of its own; so are the
loop's check after a pass and the removal of its `running` entry. Calls that no pass has answered
by reading the listing are owed, each project's with the number of answers its loop had since.
-/

namespace Terminay.Folders
open Script Workspace

/-- What a pass in flight waits for, and what it holds meanwhile. -/
inductive Stage where
  | listing (root : Str)
  | root (root : Str) (listing : ReconcilerWorktreeListing)
  | creator (worktree : ListedWorktree) (rest : List ListedWorktree)
  | passed
  | ended
  deriving DecidableEq

structure Loop where
  projectId : ProtocolId
  stage : Stage
  deriving DecidableEq

structure Hold where
  projectId : ProtocolId
  resumed : Bool
  deriving DecidableEq

structure WorktreeAppeared where
  projectId : ProtocolId
  folderId : ProtocolId
  worktree : WorkspaceFolderWorktreeLink
  createdByPanelId : Option ProtocolId
  deriving DecidableEq

/-- A command of a pass, with the suspensions of its project that were not over and the
workspace on both sides of it. -/
structure Issued (ν : Type) where
  projectId : ProtocolId
  command : Command ν
  held : ℕ
  before : WorkspaceState ν
  after : WorkspaceState ν

structure FolderReconciler (ν : Type) where
  store : WorkspaceStore ν
  running : Finset ProtocolId
  again : Finset ProtocolId
  settled : Finset ProtocolId
  suspended : Table.Of ProtocolId ℕ
  known : Table.Of ProtocolId (List Str)
  branches : Table.Of ProtocolId (Table.Of Str Str)
  serial : ℕ
  loops : List Loop
  holds : List Hold
  appeared : List WorktreeAppeared
  issued : List (Issued ν)
  owed : Table.Of ProtocolId ℕ
  /-- The longest listing read so far. -/
  longest : ℕ

structure Host (ν : Type) where
  now : ℕ → ν
  written : ℕ → Bool

variable {ν : Type}

def FolderReconciler.new (store : WorkspaceStore ν) : FolderReconciler ν where
  store := store
  running := ∅
  again := ∅
  settled := ∅
  suspended := ∅
  known := ∅
  branches := ∅
  serial := 0
  loops := []
  holds := []
  appeared := []
  issued := []
  owed := ∅
  longest := 0

def FolderReconciler.held (s : FolderReconciler ν) (projectId : ProtocolId) : ℕ :=
  s.holds.countP fun hold => hold.projectId == projectId && !hold.resumed

def FolderReconciler.isOpen (s : FolderReconciler ν) (projectId : ProtocolId) : Bool :=
  s.store.current.projects[projectId]?.any fun project => !isAutomationSpace project

def linkedFolders (st : WorkspaceState ν) (projectId : ProtocolId) : List (WorkspaceFolder ν) :=
  let folderIds := (st.projects[projectId]?.map (·.folderIds)).getD []
  (folderIds.filterMap fun folderId => st.folders[folderId]?).filter fun folder =>
    folder.kind == .linked

/-! ## The commands of a pass -/

def linkField (link : WorkspaceFolderWorktreeLink) : Json ν :=
  .obj [(js "path", .str link.path), (js "repositoryId", .str link.repositoryId)]

def folderLinkUpdateCommand (folderId : ProtocolId) (link : WorkspaceFolderWorktreeLink) :
    Command ν where
  type := js "folder.link.update"
  fields := Table.ofEntries [(js "folderId", .str folderId), (js "worktree", linkField link)]

def folderRenameCommand (folderId : ProtocolId) (name : Str) : Command ν where
  type := js "folder.rename"
  fields := Table.ofEntries [(js "folderId", .str folderId), (js "name", .str name)]

def panelMoveToFolderCommand (panelId folderId : ProtocolId) : Command ν where
  type := js "panel.moveToFolder"
  fields := Table.ofEntries [(js "panelId", .str panelId), (js "folderId", .str folderId)]

def folderDeleteCommand (folderId : ProtocolId) : Command ν where
  type := js "folder.delete"
  fields := Table.ofEntries [(js "folderId", .str folderId)]

def folderCreateCommand (projectId : ProtocolId) (name : Str)
    (worktree : WorkspaceFolderWorktreeLink) (createdByPanelId : Option ProtocolId) :
    Command ν where
  type := js "folder.create"
  fields := Table.ofEntries
    ([(js "projectId", .str projectId), (js "name", .str name),
      (js "worktree", linkField worktree)] ++
      createdByPanelId.toList.map fun panelId => (js "createdByPanelId", .str panelId))

section Engine
variable [Engine ν]

abbrev Doing (ν α : Type) := Fallible (FolderReconciler ν) Str α

def apply (host : Host ν) (command : Command ν) :
    Doing ν (Option (WorkspaceEvent ν × WorkspaceState ν)) := fun s =>
  let serial := s.serial + 1
  let applied := Workspace.apply s.store
    { commandId := js "folders:" ++ natText serial, expectedRevision := none, command := command }
    (host.now serial) (host.written serial)
  let s := { s with serial := serial, store := applied.1 }
  match applied.2 with
  | .ok _ _ event state => (.ok (some (event, state)), s)
  | .refused _ => (.ok none, s)
  | .thrown message => (.error message, s)

def issue (host : Host ν) (projectId : ProtocolId) (command : Command ν) :
    Doing ν (Option (WorkspaceEvent ν × WorkspaceState ν)) := fun s =>
  let (answer, t) := apply host command s
  let entry : Issued ν :=
    { projectId := projectId, command := command, held := s.held projectId,
      before := s.store.current, after := t.store.current }
  (answer, { t with issued := t.issued ++ [entry] })

def relink (put : Command ν → Doing ν (Option (WorkspaceEvent ν × WorkspaceState ν)))
    (projectId : ProtocolId) (repositoryId fromPath toPath : Str) : Doing ν Bool := do
  let s ← Fallible.get
  match (linkedFolders s.store.current projectId).find? fun candidate =>
    candidate.worktree == some ⟨repositoryId, fromPath⟩ with
  | none => pure false
  | some folder => do
    let applied ← put (folderLinkUpdateCommand folder.id ⟨repositoryId, toPath⟩)
    pure applied.isSome

def movePanels (host : Host ν) (projectId general : ProtocolId) : List ProtocolId → Doing ν Bool
  | [] => pure true
  | panelId :: panelIds => do
    let applied ← issue host projectId (panelMoveToFolderCommand panelId general)
    if applied.isSome then movePanels host projectId general panelIds else pure false

def removeFolder (host : Host ν) (projectId folderId : ProtocolId) : Doing ν Unit := do
  let s ← Fallible.get
  match s.store.current.folders[folderId]?, generalFolderId s.store.current projectId with
  | some folder, some general => do
    if ← movePanels host projectId general folder.panelIds then
      let _ ← issue host projectId (folderDeleteCommand folderId)
      pure ()
    else pure ()
  | _, _ => pure ()

omit [Engine ν] in
def movedTo (lastBranches : Table.Of Str Str) (wanted : List ListedWorktree)
    (linked : List Str) (link : WorkspaceFolderWorktreeLink) : Option ListedWorktree :=
  match lastBranches[linkKey link]? with
  | none => none
  | some branch => wanted.find? fun worktree =>
    worktree.repositoryId == link.repositoryId && worktree.branch == some branch &&
      !linked.contains worktree.key

def followFolder (host : Host ν) (projectId : ProtocolId) (folder : WorkspaceFolder ν)
    (link : WorkspaceFolderWorktreeLink) (moved : Option ListedWorktree) : Doing ν Bool := do
  match moved with
  | none => do
    removeFolder host projectId folder.id
    pure false
  | some worktree => do
    if ← relink (issue host projectId) projectId link.repositoryId link.path worktree.path then
      -- A folder still named after its worktree's directory follows it.
      if folder.name = folderName link.path then
        let _ ← issue host projectId (folderRenameCommand folder.id (folderName worktree.path))
        pure true
      else pure true
    else do
      removeFolder host projectId folder.id
      pure false

def followFolders (host : Host ν) (projectId : ProtocolId) (lastBranches : Table.Of Str Str)
    (wanted : List ListedWorktree) : List (WorkspaceFolder ν) → List Str → Doing ν (List Str)
  | [], linked => pure linked
  | folder :: folders, linked =>
    match folder.worktree with
    | none => followFolders host projectId lastBranches wanted folders linked
    | some link =>
      if (wanted.map (·.key)).contains (linkKey link) then
        followFolders host projectId lastBranches wanted folders linked
      else do
        let moved := movedTo lastBranches wanted linked link
        let followed ← followFolder host projectId folder link moved
        let linked := if followed then linked ++ moved.toList.map (·.key) else linked
        followFolders host projectId lastBranches wanted folders linked

def createWithCreator (host : Host ν) (projectId : ProtocolId) (name : Str)
    (worktree : WorkspaceFolderWorktreeLink) (createdByPanelId : ProtocolId) :
    Doing ν (Option (WorkspaceEvent ν × WorkspaceState ν)) := do
  let withCreator ← issue host projectId
    (folderCreateCommand projectId name worktree (some createdByPanelId))
  if withCreator.isSome then pure withCreator
  else issue host projectId (folderCreateCommand projectId name worktree none)

omit [Engine ν] in
def ListedWorktree.link (worktree : ListedWorktree) : WorkspaceFolderWorktreeLink :=
  ⟨worktree.repositoryId, worktree.path⟩

def createFolder (host : Host ν) (projectId : ProtocolId) (worktree : ListedWorktree)
    (creator : Option ProtocolId) : Doing ν (Option (WorkspaceEvent ν × WorkspaceState ν)) :=
  let name := folderName worktree.path
  match creator with
  | none => issue host projectId (folderCreateCommand projectId name worktree.link none)
  | some panelId => createWithCreator host projectId name worktree.link panelId

def createFolders (host : Host ν) (projectId : ProtocolId) : List ListedWorktree → Doing ν Unit
  | [] => pure ()
  | worktree :: worktrees => do
    let _ ← createFolder host projectId worktree none
    createFolders host projectId worktrees

omit [Engine ν] in
def appearance (projectId : ProtocolId) (link : WorkspaceFolderWorktreeLink)
    (event : WorkspaceEvent ν) (state : WorkspaceState ν) : Option WorktreeAppeared :=
  let folderIds := event.changedIds.filterMap Json.str?
  let folderId := folderIds.find? fun id =>
    state.folders[id]?.any fun folder => folder.worktree.any fun worktree =>
      worktree.path == link.path
  folderId.map fun folderId =>
    { projectId := projectId, folderId := folderId, worktree := link,
      createdByPanelId := state.folders[folderId]?.bind (·.createdByPanelId) }

def askCreators (projectId : ProtocolId) : List ListedWorktree → Doing ν Stage
  | [] => do
    Fallible.modify fun s => { s with settled := insert projectId s.settled }
    pure .passed
  | worktree :: rest => pure (.creator worktree rest)

omit [Engine ν] in
def branchesOf (worktrees : List ListedWorktree) : Table.Of Str Str :=
  Table.ofEntries (worktrees.filterMap fun worktree =>
    worktree.branch.map fun branch => (worktree.key, branch))

def bringInLine (host : Host ν) (projectId : ProtocolId) (listing : ReconcilerWorktreeListing)
    (wanted : List ListedWorktree) : Doing ν Stage := do
  let s ← Fallible.get
  match s.store.current.projects[projectId]? with
  | none => pure .passed
  | some _ => do
    let linked := linkedFolders s.store.current projectId
    let lastBranches := (s.branches[projectId]?).getD ∅
    Fallible.modify fun s =>
      { s with branches := s.branches.insert projectId (branchesOf listing.worktrees) }
    let keys ← followFolders host projectId lastBranches wanted linked
      (linked.filterMap fun folder => folder.worktree.map linkKey)
    let missing := wanted.filter fun worktree => !keys.contains worktree.key
    if projectId ∈ s.settled then askCreators projectId missing
    else do
      createFolders host projectId missing
      askCreators projectId []

def tellAppeared (told : Option WorktreeAppeared) (reaction : List (StoreCall ν × Bool)) :
    Doing ν Unit :=
  match told with
  | none => pure ()
  | some told => Fallible.modify fun s =>
    { s with appeared := s.appeared ++ [told], store := runCalls s.store reaction }

def answerCreator (host : Host ν) (projectId : ProtocolId) (worktree : ListedWorktree)
    (rest : List ListedWorktree) (creator : Option ProtocolId)
    (reaction : List (StoreCall ν × Bool)) : Doing ν Stage := do
  let created ← createFolder host projectId worktree creator
  tellAppeared (created.bind fun e => appearance projectId worktree.link e.1 e.2) reaction
  askCreators projectId rest

/-! ## The loop -/

def beginPass (s : FolderReconciler ν) (projectId : ProtocolId) : FolderReconciler ν × Stage :=
  match s.store.current.projects[projectId]? with
  | none => (s, .passed)
  | some project =>
    if isAutomationSpace project then (s, .passed)
    else ({ s with owed := s.owed.erase projectId }, .listing project.root)

omit [Engine ν] in
def owe (s : FolderReconciler ν) (projectId : ProtocolId) : FolderReconciler ν :=
  match s.owed[projectId]? with
  | some _ => s
  | none => { s with owed := s.owed.insert projectId 0 }

def reconcile (s : FolderReconciler ν) (projectId : ProtocolId) : FolderReconciler ν :=
  let s := owe s projectId
  if s.suspended[projectId]?.isSome then { s with again := insert projectId s.again }
  else if projectId ∈ s.running then { s with again := insert projectId s.again }
  else
    let (s, stage) := beginPass { s with again := s.again.erase projectId } projectId
    { s with
      loops := s.loops ++ [⟨projectId, stage⟩]
      running := insert projectId s.running }

def onGitChange (s : FolderReconciler ν) (projectId : ProtocolId) (worktreeId : Option Str) :
    FolderReconciler ν :=
  match worktreeId, s.known[projectId]? with
  | some id, some known => if known.contains id then s else reconcile s projectId
  | _, _ => reconcile s projectId

omit [Engine ν] in
def release (s : FolderReconciler ν) (projectId : ProtocolId) : FolderReconciler ν :=
  { s with
    known := s.known.erase projectId
    branches := s.branches.erase projectId
    settled := s.settled.erase projectId
    again := s.again.erase projectId
    suspended := s.suspended.erase projectId }

omit [Engine ν] in
def suspend (s : FolderReconciler ν) (projectId : ProtocolId) : FolderReconciler ν :=
  { s with
    suspended := s.suspended.insert projectId ((s.suspended[projectId]?).getD 0 + 1)
    holds := s.holds ++ [⟨projectId, false⟩] }

def resume (s : FolderReconciler ν) (hold : ℕ) : FolderReconciler ν :=
  match s.holds[hold]? with
  | none => s
  | some ⟨_, true⟩ => s
  | some ⟨projectId, false⟩ =>
    let s := { s with holds := s.holds.set hold ⟨projectId, true⟩ }
    let remaining := (s.suspended[projectId]?).getD 1 - 1
    if 0 < remaining then { s with suspended := s.suspended.insert projectId remaining }
    else
      let s := { s with suspended := s.suspended.erase projectId }
      if projectId ∈ s.again then reconcile s projectId else s

omit [Engine ν] in
def setStage (s : FolderReconciler ν) (loop : ℕ) (projectId : ProtocolId) (stage : Stage) :
    FolderReconciler ν :=
  { s with loops := s.loops.set loop ⟨projectId, stage⟩ }

def advance (s : FolderReconciler ν) (loop : ℕ) (projectId : ProtocolId) (pass : Doing ν Stage) :
    FolderReconciler ν :=
  match pass s with
  | (.ok stage, t) => setStage t loop projectId stage
  | (.error _, t) => setStage t loop projectId .passed

omit [Engine ν] in
def idsOf (worktrees : List ListedWorktree) : List Str := worktrees.filterMap (·.id)

def answerListing (host : Host ν) (s : FolderReconciler ν) (loop : ℕ) (projectId : ProtocolId)
    (root : Str) (answer : Option ReconcilerWorktreeListing) : FolderReconciler ν :=
  match answer with
  | none => setStage s loop projectId .passed
  | some listing =>
    let s := { s with longest := max s.longest listing.worktrees.length }
    if listing.state = js "ready" then
      setStage { s with known := s.known.insert projectId (idsOf listing.worktrees) } loop
        projectId (.root root listing)
    else if listing.state = js "not-repository" then
      advance { s with known := s.known.insert projectId (idsOf listing.worktrees) } loop
        projectId (bringInLine host projectId listing [])
    else setStage s loop projectId .passed

def answerRoot (host : Host ν) (s : FolderReconciler ν) (loop : ℕ) (projectId : ProtocolId)
    (listing : ReconcilerWorktreeListing) (answer : Option (Option Str)) : FolderReconciler ν :=
  match answer with
  | none | some none => setStage s loop projectId .passed
  | some (some root) =>
    advance s loop projectId
      (bringInLine host projectId listing (worktreesNeedingFolders listing.worktrees root))

def proceed (s : FolderReconciler ν) (loop : ℕ) (projectId : ProtocolId) : FolderReconciler ν :=
  if projectId ∈ s.again ∧ s.suspended[projectId]? = none then
    let (s, stage) := beginPass { s with again := s.again.erase projectId } projectId
    setStage s loop projectId stage
  else setStage s loop projectId .ended

/-! ## Moments -/

inductive Moment (ν : Type) where
  | reconcile (projectId : ProtocolId)
  | gitChange (projectId : ProtocolId) (worktreeId : Option Str)
  | suspend (projectId : ProtocolId)
  | resume (hold : ℕ)
  | relink (projectId : ProtocolId) (repositoryId fromPath toPath : Str)
  | release (projectId : ProtocolId)
  | listing (loop : ℕ) (answer : Option ReconcilerWorktreeListing)
  | root (loop : ℕ) (answer : Option (Option Str))
  | creator (loop : ℕ) (answer : Option ProtocolId) (reaction : List (StoreCall ν × Bool))
  | proceed (loop : ℕ)
  | finish (loop : ℕ)
  | workspace (call : StoreCall ν) (written : Bool)

omit [Engine ν] in
def counted (s : FolderReconciler ν) (projectId : ProtocolId) : FolderReconciler ν :=
  { s with owed := Table.update s.owed projectId (· + 1) }

def Moment.happens (host : Host ν) (s : FolderReconciler ν) : Moment ν → FolderReconciler ν
  | .reconcile projectId => Folders.reconcile s projectId
  | .gitChange projectId worktreeId => onGitChange s projectId worktreeId
  | .suspend projectId => Folders.suspend s projectId
  | .resume hold => Folders.resume s hold
  | .relink projectId repositoryId fromPath toPath =>
    (Folders.relink (apply host) projectId repositoryId fromPath toPath s).2
  | .release projectId => Folders.release s projectId
  | .listing loop answer =>
    match s.loops[loop]? with
    | some ⟨projectId, .listing path⟩ =>
      answerListing host (counted s projectId) loop projectId path answer
    | _ => s
  | .root loop answer =>
    match s.loops[loop]? with
    | some ⟨projectId, .root _ found⟩ =>
      answerRoot host (counted s projectId) loop projectId found answer
    | _ => s
  | .creator loop answer reaction =>
    match s.loops[loop]? with
    | some ⟨projectId, .creator worktree rest⟩ =>
      advance (counted s projectId) loop projectId
        (answerCreator host projectId worktree rest answer reaction)
    | _ => s
  | .proceed loop =>
    match s.loops[loop]? with
    | some ⟨projectId, .passed⟩ => Folders.proceed (counted s projectId) loop projectId
    | _ => s
  | .finish loop =>
    match s.loops[loop]? with
    | some ⟨projectId, .ended⟩ =>
      { counted s projectId with
        loops := s.loops.eraseIdx loop
        running := s.running.erase projectId }
    | _ => s
  | .workspace call written => { s with store := call.run s.store written }

def step (host : Host ν) (s : FolderReconciler ν) (moment : Moment ν) : FolderReconciler ν :=
  let s := moment.happens host s
  { s with owed := Table.select (fun projectId _ => s.isOpen projectId) s.owed }

end Engine

end Terminay.Folders
