import Terminay.Workspace.Changes
import Terminay.Workspace.Reduce
import Terminay.Workspace.Validate

/-!
# The workspace store

The store holds the committed state, the outcome of every command id it still
remembers, and the retained commits. `written` says whether the durable write of
a commit succeeds; when it throws, the previous state stays authoritative.
-/

namespace Terminay.Workspace
open Script Outcome

structure WorkspaceEvent (ν : Type) where
  revision : ℕ
  cursor : Str
  commandId : ProtocolId
  type : Str
  changedIds : List (Json ν)
  deriving DecidableEq

structure WorkspaceConflict where
  currentRevision : ℕ
  currentCursor : Str
  message : Str

inductive WorkspaceApplyOutcome (ν : Type) where
  | ok (revision : ℕ) (cursor : Str) (event : WorkspaceEvent ν)
  | refused (conflict : WorkspaceConflict)

inductive WorkspaceApplyResult (ν : Type) where
  | ok (revision : ℕ) (cursor : Str) (event : WorkspaceEvent ν) (state : WorkspaceState ν)
  | refused (conflict : WorkspaceConflict)
  | thrown (message : Str)

structure CommittedChange (ν : Type) where
  record : WorkspaceChangeRecord ν
  previous : WorkspaceState ν
  state : WorkspaceState ν
  event : WorkspaceEvent ν
  bytes : ℕ

/-- A map in the order of first insertion. -/
abbrev Outcomes (ν : Type) := List (ProtocolId × WorkspaceApplyOutcome ν)

structure WorkspaceStore (ν : Type) where
  current : WorkspaceState ν
  outcomes : Outcomes ν
  history : List (CommittedChange ν)
  historyBytes : ℕ
  maxHistory : ℕ
  maxHistoryBytes : ℕ

structure WorkspaceCommandEnvelope (ν : Type) where
  commandId : ProtocolId
  expectedRevision : Option ν
  command : Command ν

variable {ν : Type}

def Outcomes.get (outcomes : Outcomes ν) (commandId : ProtocolId) :
    Option (WorkspaceApplyOutcome ν) :=
  (outcomes.find? fun e => e.1 == commandId).map (·.2)

def Outcomes.set (outcomes : Outcomes ν) (commandId : ProtocolId)
    (outcome : WorkspaceApplyOutcome ν) : Outcomes ν :=
  if outcomes.any fun e => e.1 == commandId then
    outcomes.map fun e => if e.1 = commandId then (commandId, outcome) else e
  else outcomes ++ [(commandId, outcome)]

def Outcomes.forget [DecidableEq ν] (outcomes : Outcomes ν) (event : WorkspaceEvent ν) :
    Outcomes ν :=
  match outcomes.get event.commandId with
  | some (.ok _ _ kept) =>
    if kept = event then outcomes.filter fun e => e.1 ≠ event.commandId else outcomes
  | _ => outcomes

def WorkspaceStore.remembersCommit (s : WorkspaceStore ν) (commandId : ProtocolId) : Bool :=
  match s.outcomes.get commandId with
  | some (.ok ..) => true
  | _ => false

def viewIdSuffix : Str := js ":view:default"

def initialWorkspace (serverId : ProtocolId) : WorkspaceState ν :=
  let viewId := (serverId ++ viewIdSuffix).take 128
  { schemaVersion := workspaceSchemaVersion, serverId := serverId, revision := 0,
    cursor := natText 0, viewOrder := [viewId],
    views := Table.ofEntries [(viewId, ⟨viewId, serverId, js "Workspace", [], none⟩)],
    projects := ∅, folders := ∅, panels := ∅, terminalSessions := ∅, recentProjectFolders := [] }

def createInitialWorkspace (serverId : ProtocolId) : Checked (WorkspaceState ν) := do
  assertStoredId serverId "serverId"
  .ok (initialWorkspace serverId)

def retain [DecidableEq ν] (maxHistory maxHistoryBytes : ℕ) :
    List (CommittedChange ν) → ℕ → Outcomes ν → List (CommittedChange ν) × ℕ × Outcomes ν
  | dropped :: newer :: rest, bytes, outcomes =>
    if maxHistory < rest.length + 2 ∨ maxHistoryBytes < bytes then
      retain maxHistory maxHistoryBytes (newer :: rest) (bytes - dropped.bytes)
        (outcomes.forget dropped.event)
    else (dropped :: newer :: rest, bytes, outcomes)
  | history, bytes, outcomes => (history, bytes, outcomes)

def remember (s : WorkspaceStore ν) (commandId : ProtocolId) (outcome : WorkspaceApplyOutcome ν) :
    WorkspaceStore ν :=
  let outcomes := s.outcomes.set commandId outcome
  { s with outcomes := outcomes.drop (outcomes.length - s.maxHistory * 2) }

def numbered (revision : ℕ) (next : WorkspaceState ν) : WorkspaceState ν :=
  { next with revision := revision, cursor := natText revision }

section Engine
variable [Engine ν]

def commitOf (s : WorkspaceStore ν) (next : WorkspaceState ν) (commandId : ProtocolId) (type : Str)
    (changedIds : List (Json ν)) : CommittedChange ν :=
  let fromRevision := s.current.revision
  let state := numbered (fromRevision + 1) next
  let record : WorkspaceChangeRecord ν :=
    { fromRevision := fromRevision, revision := state.revision, cursor := state.cursor,
      type := some type, difference := workspaceStateDifference s.current state }
  { record := record, previous := s.current, state := state, bytes := recordBytes record,
    event := ⟨state.revision, state.cursor, commandId, type, changedIds⟩ }

def install (s : WorkspaceStore ν) (next : WorkspaceState ν) (commandId : ProtocolId) (type : Str)
    (changedIds : List (Json ν)) : WorkspaceStore ν :=
  let change := commitOf s next commandId type changedIds
  let kept := retain s.maxHistory s.maxHistoryBytes (s.history ++ [change])
    (s.historyBytes + change.bytes) s.outcomes
  { s with current := change.state, history := kept.1, historyBytes := kept.2.1,
           outcomes := kept.2.2 }

def replay (s : WorkspaceStore ν) : WorkspaceApplyOutcome ν → WorkspaceApplyResult ν
  | .ok revision cursor event => .ok revision cursor event s.current
  | .refused conflict => .refused conflict

def refuse (s : WorkspaceStore ν) (commandId : ProtocolId) (message : Str) :
    WorkspaceStore ν × WorkspaceApplyResult ν :=
  let conflict : WorkspaceConflict := ⟨s.current.revision, s.current.cursor, message⟩
  (remember s commandId (.refused conflict), .refused conflict)

def isStale (s : WorkspaceStore ν) (envelope : WorkspaceCommandEnvelope ν) : Bool :=
  match envelope.expectedRevision with
  | some n => Engine.value n ≠ s.current.revision
  | none => false

/-- The validated draft of a command, with the ids it names as changed. -/
def draft (st : WorkspaceState ν) (command : Command ν) (now : ν) : Checked (Edited ν) := do
  let next ← reduce st command now
  validateWorkspace next.1
  .ok next

def committed (s : WorkspaceStore ν) (envelope : WorkspaceCommandEnvelope ν) (edited : Edited ν) :
    WorkspaceStore ν × WorkspaceApplyResult ν :=
  let type := envelope.command.type
  let event := (commitOf s edited.1 envelope.commandId type edited.2).event
  let outcome := .ok event.revision event.cursor event
  let s := remember (install s edited.1 envelope.commandId type edited.2) envelope.commandId outcome
  (s, replay s outcome)

def apply (s : WorkspaceStore ν) (envelope : WorkspaceCommandEnvelope ν) (now : ν)
    (written : Bool) : WorkspaceStore ν × WorkspaceApplyResult ν :=
  let commandId := envelope.commandId
  if idPattern commandId = false then (s, .thrown (js "invalid commandId"))
  else
    match s.outcomes.get commandId with
    | some prior => (s, replay s prior)
    | none =>
      if isStale s envelope = true then refuse s commandId (js "workspace revision is stale")
      else
        match draft s.current envelope.command now with
        | .error message => refuse s commandId message
        | .ok edited =>
          if written = true then committed s envelope edited else (s, .thrown (js "commit failed"))

/-- Everything an apply can do. -/
inductive Applied (s : WorkspaceStore ν) (envelope : WorkspaceCommandEnvelope ν) (now : ν)
    (written : Bool) : WorkspaceStore ν × WorkspaceApplyResult ν → Prop
  | malformed (hid : idPattern envelope.commandId = false) :
    Applied s envelope now written (s, .thrown (js "invalid commandId"))
  | replayed (prior : WorkspaceApplyOutcome ν)
    (hprior : s.outcomes.get envelope.commandId = some prior) :
    Applied s envelope now written (s, replay s prior)
  | stale (hnew : s.outcomes.get envelope.commandId = none) (hstale : isStale s envelope = true) :
    Applied s envelope now written
      (refuse s envelope.commandId (js "workspace revision is stale"))
  | rejected (hnew : s.outcomes.get envelope.commandId = none) (message : Str)
    (hdraft : draft s.current envelope.command now = .error message) :
    Applied s envelope now written (refuse s envelope.commandId message)
  | unwritten (hnew : s.outcomes.get envelope.commandId = none) (hwritten : written = false) :
    Applied s envelope now written (s, .thrown (js "commit failed"))
  | committed (hid : idPattern envelope.commandId = true)
    (hnew : s.outcomes.get envelope.commandId = none) (hfresh : isStale s envelope = false)
    (edited : Edited ν) (hdraft : draft s.current envelope.command now = .ok edited)
    (hwritten : written = true) :
    Applied s envelope now written (committed s envelope edited)

theorem apply_cases (s : WorkspaceStore ν) (envelope : WorkspaceCommandEnvelope ν) (now : ν)
    (written : Bool) : Applied s envelope now written (apply s envelope now written) := by
  simp only [apply]
  by_cases hid : idPattern envelope.commandId = false
  · rw [if_pos hid]
    exact .malformed hid
  rw [if_neg hid]
  rcases hnew : s.outcomes.get envelope.commandId with _ | prior
  · by_cases hstale : isStale s envelope = true
    · simp only [if_pos hstale]
      exact .stale hnew hstale
    simp only [if_neg hstale]
    rcases hdraft : draft s.current envelope.command now with message | edited
    · exact .rejected hnew message hdraft
    · cases written with
      | false => exact .unwritten hnew rfl
      | true =>
        exact .committed (by simpa using hid) hnew (by simpa using hstale) edited hdraft rfl
  · exact .replayed prior hnew

/-! ## Recovery and the automation space -/

def recover (s : WorkspaceStore ν) (next : WorkspaceState ν) (changedIds : List ProtocolId)
    (commandId : String) (written : Bool) : WorkspaceStore ν :=
  if changedIds = [] then s
  else if isOk (validateWorkspace next) && written then
    install s next (js commandId) (js "terminal.markInterrupted") (changedIds.map .str)
  else s

def interrupted (at_ : ν) (session : TerminalSession ν) : TerminalSession ν :=
  { session with status := .interrupted, interruptedAt := some (.num at_) }

def rewriteSessions (st : WorkspaceState ν)
    (rewrite : ProtocolId → TerminalSession ν → Option (TerminalSession ν)) :
    WorkspaceState ν × List ProtocolId :=
  ({ st with
      terminalSessions :=
        Table.mapValues (fun id session => (rewrite id session).getD session) st.terminalSessions },
    (st.terminalSessions.toList.filter fun e => (rewrite e.1 e.2).isSome).map (·.1))

def markInterruptedSessions (s : WorkspaceStore ν) (at_ : ν) (written : Bool) : WorkspaceStore ν :=
  let next := rewriteSessions s.current fun _ session =>
    if session.status = .running then some (interrupted at_ session) else none
  recover s next.1 next.2 "system:restart" written

/-- A session the holder still has is running again under its original identity;
one it saw exit is exited with its code; every other running one is interrupted. -/
def reconciled (live : List ProtocolId) (exited : Table.Of ProtocolId (Option (Json ν))) (at_ : ν)
    (id : ProtocolId) (session : TerminalSession ν) : Option (TerminalSession ν) :=
  if id ∈ live then
    if session.status = .interrupted then
      some { session with status := .running, interruptedAt := none }
    else none
  else if session.status = .exited then none
  else
    match exited[id]? with
    | some exitCode =>
      some { session with
        status := .exited, interruptedAt := none, exitCode := exitCode.or session.exitCode }
    | none => if session.status = .running then some (interrupted at_ session) else none

def reconcileHeldTerminalSessions (s : WorkspaceStore ν) (live : List ProtocolId)
    (exited : Table.Of ProtocolId (Option (Json ν))) (at_ : ν) (written : Bool) :
    WorkspaceStore ν :=
  let next := rewriteSessions s.current (reconciled live exited at_)
  recover s next.1 next.2 "system:terminal-reattach" written

omit [Engine ν] in
def staleFolder (stale : List ProtocolId) (folder : WorkspaceFolder ν) : WorkspaceFolder ν :=
  withFolderPanels
    { folder with
      createdByPanelId := folder.createdByPanelId.filter (· ∉ stale)
      captureOffer := folder.captureOffer.filter (· ∉ stale) }
    (folder.panelIds.filter (· ∉ stale)) folder.activePanelId

def discardFrom (stale : List ProtocolId) (st : WorkspaceState ν) (project : WorkspaceProject ν) :
    WorkspaceState ν :=
  if project.panelIds.any stale.contains then
    syncProject
      { st with folders := Table.updateAll st.folders project.folderIds (staleFolder stale) }
      project.id none
  else st

def stalePanelIds (st : WorkspaceState ν) : List ProtocolId :=
  ((st.panels.toList.map (·.2)).filter (·.isTerminal)).map (·.id)

def discarded (st : WorkspaceState ν) : WorkspaceState ν × List ProtocolId :=
  let stale := stalePanelIds st
  let projects := st.projects.toList.map (·.2)
  let next := projects.foldl (discardFrom stale) { st with panels := Table.eraseAll st.panels stale }
  ({ next with terminalSessions := ∅ },
    stale ++ ((projects.filter fun p => p.panelIds.any stale.contains).map (·.id)) ++
      st.terminalSessions.keys)

def discardStaleTerminalState (s : WorkspaceStore ν) (written : Bool) : WorkspaceStore ν :=
  let next := discarded s.current
  recover s next.1 next.2 "system:terminal-restart" written

def automationSpace (st : WorkspaceState ν) (viewId : ProtocolId) (root : Str) : WorkspaceProject ν :=
  { id := automationSpaceProjectId, kind := some .automations, serverId := st.serverId,
    viewId := viewId, root := root, rootOrigin := .str (js "server-default"), start := none,
    name := automationSpaceName, color := none, icon := none, defaultShellProfileId := none,
    sidebar := defaultWorkspaceSidebarState, folderIds := [issuedFolderId st], panelIds := [],
    activePanelId := none, layout := stack [] none }

def withAutomationSpace (st : WorkspaceState ν) (root : Str) : Checked (WorkspaceState ν) := do
  refuseIf (occupied st.projects automationSpaceProjectId = true)
    (js "automation space identity is already in use")
  let viewId ← demand st.viewOrder.head? (js "workspace has no view")
  let path ← boundedPathText root
  let space := automationSpace st viewId path
  let next := { st with
    folders := st.folders.insert (issuedFolderId st) (generalFolder (issuedFolderId st) space.id)
    projects := st.projects.insert automationSpaceProjectId space }
  validateWorkspace next
  .ok next

def ensureAutomationSpace (s : WorkspaceStore ν) (root : Str) (written : Bool) :
    WorkspaceStore ν :=
  if (findAutomationSpace s.current).isSome then s
  else
    match withAutomationSpace s.current root with
    | .error _ => s
    | .ok next =>
      if written then
        install s next (js "system:automation-space") (js "project.create")
          [.str automationSpaceProjectId]
      else s

/-! ## What happened since a revision -/

def delta (s : WorkspaceStore ν) (afterRevision : ℕ) : Checked (Option (List (CommittedChange ν))) :=
  let oldest := s.history.head?.map (·.event.revision)
  let reachable := afterRevision = s.current.revision ∨ ∃ n ∈ oldest, n - 1 ≤ afterRevision
  if maxSafeInteger < afterRevision ∨ s.current.revision < afterRevision then
    .error (js "invalid revision")
  else if reachable then
    .ok (some (s.history.filter fun change => afterRevision < change.event.revision))
  else .ok none

omit [Engine ν] in
def changeAt (s : WorkspaceStore ν) (revision : ℕ) : Option (CommittedChange ν) :=
  (s.history.reverse.takeWhile fun change => revision ≤ change.event.revision).find?
    fun change => change.event.revision == revision

end Engine

/-! ## Runs of a store -/

inductive StoreCall (ν : Type) where
  | apply (envelope : WorkspaceCommandEnvelope ν) (now : ν)
  | ensureAutomationSpace (root : Str)
  | markInterruptedSessions (at_ : ν)
  | reconcileHeldTerminalSessions (live : List ProtocolId)
      (exited : Table.Of ProtocolId (Option (Json ν))) (at_ : ν)
  | discardStaleTerminalState

variable [Engine ν]

/-- One call on a store; `written` is the outcome of its durable write. -/
def StoreCall.run (s : WorkspaceStore ν) (call : StoreCall ν) (written : Bool) : WorkspaceStore ν :=
  match call with
  | apply envelope now => (Workspace.apply s envelope now written).1
  | ensureAutomationSpace root => Workspace.ensureAutomationSpace s root written
  | markInterruptedSessions at_ => Workspace.markInterruptedSessions s at_ written
  | reconcileHeldTerminalSessions live exited at_ =>
    Workspace.reconcileHeldTerminalSessions s live exited at_ written
  | discardStaleTerminalState => Workspace.discardStaleTerminalState s written

def runCalls (s : WorkspaceStore ν) (calls : List (StoreCall ν × Bool)) : WorkspaceStore ν :=
  calls.foldl (fun s c => c.1.run s c.2) s

omit [Engine ν] in
def newStore (initial : WorkspaceState ν) (maxHistory maxHistoryBytes : ℕ) : WorkspaceStore ν :=
  { current := initial, outcomes := [], history := [], historyBytes := 0, maxHistory := maxHistory,
    maxHistoryBytes := maxHistoryBytes }

end Terminay.Workspace
