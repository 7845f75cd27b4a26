import Terminay.Protocol.Payload
import Terminay.Workspace.Store

/-!
# Handling a client's command

`applyCommand` admits a command, closes the terminals that it is about to remove,
asks the store, and then lets the host follow. It awaits the host in between, and
other handlers run while it does: an interleaving says what they do to the store
at each await.
-/

namespace Terminay.Protocol
open Script Workspace Outcome

variable {ν : Type}

structure CommandRequest (ν : Type) where
  commandId : ProtocolId
  expectedRevision : Option ν
  projectClaim : Option ProtocolId
  seesAutomationSpace : Bool

/-- A callback of the host: absent, or present and answering whether it succeeds. -/
abbrev Callback := Option Bool

structure Host (ν : Type) where
  root : RootHost ν
  commitRoot : Bool
  closeTerminalSessions : Callback
  closeProjectTerminalSessions : Callback
  releaseProject : Callback
  rehomeTerminalSession : Bool
  eventJournal : Bool

structure Interleaving (ν : Type) where
  rooted : List (StoreCall ν × Bool)
  prepared : List (StoreCall ν × Bool)
  committed : List (StoreCall ν × Bool)
  closed : List (StoreCall ν × Bool)
  projectClosed : List (StoreCall ν × Bool)
  released : List (StoreCall ν × Bool)

structure TerminalSessionRehome (ν : Type) where
  sessionId : Json ν
  sourceProjectId : ProtocolId
  targetProjectId : Option (Json ν)
  deriving DecidableEq

structure ProjectLifecycle where
  opened : Bool
  serverId : ProtocolId
  projectId : ProtocolId
  name : Str
  revision : ℕ
  deriving DecidableEq

/-- What a handler makes the rest of the server do. -/
inductive Effect (ν : Type) where
  | closeTerminalSessions (sessionIds : List (Json ν))
  | closeProjectTerminalSessions (sessionIds : List (Json ν))
  | releaseProject (projectId : Option (Json ν))
  | rehomeTerminalSession (rehome : TerminalSessionRehome ν)
  | commitRoot
  | workspaceChanged (serverId : ProtocolId) (revision : ℕ) (cursor : Str) (projectId : Option Str)
  | projectLifecycle (event : ProjectLifecycle)
  deriving DecidableEq

structure Reply (ν : Type) where
  revision : ℕ
  cursor : Str
  projectId : Option (Json ν)

structure Handled (ν : Type) where
  store : WorkspaceStore ν
  effects : List (Effect ν)
  asked : Option (WorkspaceApplyResult ν)
  answer : Answered (Reply ν)

/-- A remembered command id is answered without being run again. -/
theorem apply_remembered [Engine ν] {s : WorkspaceStore ν} {envelope : WorkspaceCommandEnvelope ν}
    {prior : WorkspaceApplyOutcome ν} (h : s.outcomes.get envelope.commandId = some prior) (now : ν)
    (written : Bool) : (apply s envelope now written).1 = s := by
  have happlied := apply_cases s envelope now written
  generalize apply s envelope now written = applied at happlied ⊢
  cases happlied with
  | malformed hid => rfl
  | replayed prior hprior => rfl
  | stale hnew hstale => simp [h] at hnew
  | rejected hnew message hdraft => simp [h] at hnew
  | unwritten hnew hwritten => rfl
  | committed hid hnew hfresh edited hdraft hwritten => simp [h] at hnew

def Handled.refused (h : Handled ν) : Bool :=
  match h.asked with
  | some (.refused _) => true
  | _ => false

def Handled.accepted (h : Handled ν) : Bool :=
  match h.asked with
  | some (.ok ..) => true
  | _ => false

/-! ## What a command is about -/

section Engine
variable [Engine ν]

def panelOf (st : WorkspaceState ν) (c : Command ν) : Option (WorkspacePanel ν) :=
  st.panels[propertyKey (c.fields.at "panelId")]?

def terminalSessionIdsClosedBy (st : WorkspaceState ν) (c : Command ν) : List (Json ν) :=
  match c.kind with
  | some .projectClose =>
    (st.terminalSessions.toList.filter fun e =>
      c.fields.at "projectId" = some (.str e.2.projectId)).map fun e => .str e.2.id
  | some .panelClose => ((panelOf st c).map namedSession).getD []
  | _ => []

def terminalSessionRehomedBy (st : WorkspaceState ν) (c : Command ν) :
    Option (TerminalSessionRehome ν) :=
  match c.kind, panelOf st c with
  | some .panelMove, some panel =>
    let target := c.fields.at "targetProjectId"
    if panel.isTerminal = false ∨ target = some (.str panel.projectId) then none
    else some ⟨(panel.at "sessionId").getD .null, panel.projectId, target⟩
  | _, _ => none

def commandProjectIds (st : WorkspaceState ν) (c : Command ν) : Answered (List (Option (Json ν))) :=
  let folder := st.folders[propertyKey (c.fields.at "folderId")]?
  let own := [c.fields.at "projectId"]
  match c.kind with
  | some .projectCreate | some .projectActivate | some .projectRename | some .projectUpdate
  | some .projectSidebarUpdate | some .projectMove | some .projectClose | some .projectRootUpdate
  | some .projectShellProfileSet | some .projectShellProfileClear | some .projectStart
  | some .terminalCreate | some .terminalCreatePanel | some .panelReorder | some .panelSplit
  | some .panelActivate | some .folderCreate | some .folderReorder => .ok own
  | some .folderRename | some .folderDelete | some .folderLinkUpdate | some .folderOfferSet
  | some .folderOfferAccept | some .folderOfferDecline =>
    .ok (folder.toList.map fun f => some (.str f.projectId))
  | some .panelMoveToFolder =>
    match panelOf st c, folder with
    | some panel, some folder => .ok [some (.str panel.projectId), some (.str folder.projectId)]
    | _, _ => .ok []
  | some .panelCreate =>
    match c.fields.at "panel" with
    | none | some .null => .error (refusal .internal engineTypeError)
    | some panel => .ok [panel.object?.bind (·.at "projectId")]
  | some .panelUpdate | some .panelClose =>
    .ok ((panelOf st c).toList.map fun p => some (.str p.projectId))
  | some .panelMove =>
    match panelOf st c with
    | some panel => .ok [some (.str panel.projectId), c.fields.at "targetProjectId"]
    | none => .ok []
  | some .terminalMarkInterrupted | some .terminalMarkExited =>
    let session := st.terminalSessions[propertyKey (c.fields.at "sessionId")]?
    .ok (session.toList.map fun s => some (.str s.projectId))
  | some .projectShellProfileReplace | some .recentForget | some .viewCreate | some .viewRename
  | some .viewClose => .ok []
  | none => .error (refusal .internal engineTypeError)

/-! ## Admission -/

def enforceProjectClaim (st : WorkspaceState ν) (request : CommandRequest ν) (c : Command ν) :
    Answered Unit :=
  match request.projectClaim with
  | none => .ok ()
  | some claimed => do
    let projectIds ← commandProjectIds st c
    refuseIf (projectIds = [] ∨ ∃ id ∈ projectIds, id ≠ some (.str claimed))
      (refusal .forbidden (js "project command is outside the authenticated project scope"))

def namesAutomationSpace (st : WorkspaceState ν) (projectIds : List (Option (Json ν))) : Bool :=
  projectIds.any fun id => st.projects[propertyKey id]?.any isAutomationSpace

def hiddenSpace (st : WorkspaceState ν) (request : CommandRequest ν) (c : Command ν) : Answered Bool :=
  if request.seesAutomationSpace then .ok false
  else do .ok (namesAutomationSpace st (← commandProjectIds st c))

def enforceAutomationSpace (st : WorkspaceState ν) (request : CommandRequest ν) (c : Command ν) :
    Answered Unit := do
  let hidden ← hiddenSpace st request c
  refuseIf (hidden = true) (refusal .conflict (js "project not found"))
  match automationSpaceRefusal st c with
  | some message => .error (refusal .forbidden message)
  | none => .ok ()

def enforceFolderRules (st : WorkspaceState ν) (c : Command ν) : Answered Unit :=
  let linked := st.folders[propertyKey (c.fields.at "folderId")]?.any fun f => f.kind == .linked
  refuseIf (c.kind = some .folderDelete ∧ linked = true)
    (refusal .forbidden (js "a linked folder is removed by deleting its worktree"))

def admission (st : WorkspaceState ν) (request : CommandRequest ν) (c : Command ν) : Answered Unit := do
  enforceProjectClaim st request c
  enforceAutomationSpace st request c
  enforceFolderRules st c

/-! ## Effects -/

def closeCalls (host : Host ν) (c : Command ν) (sessionIds : List (Json ν)) : List (Effect ν) :=
  if sessionIds = [] then []
  else
    (if host.closeTerminalSessions.isSome then [.closeTerminalSessions sessionIds] else []) ++
      if c.kind = some .projectClose ∧ host.closeTerminalSessions ≠ some false ∧
          host.closeProjectTerminalSessions.isSome then
        [.closeProjectTerminalSessions sessionIds]
      else []

/-- Whether every close callback that was called succeeded. -/
def closeSucceeds (host : Host ν) (c : Command ν) (sessionIds : List (Json ν)) : Bool :=
  sessionIds = [] || (host.closeTerminalSessions != some false &&
    (c.kind ≠ some .projectClose || host.closeProjectTerminalSessions != some false))

def storeAfterClosing (host : Host ν) (env : Interleaving ν) (c : Command ν)
    (sessionIds : List (Json ν)) (s : WorkspaceStore ν) : WorkspaceStore ν :=
  if sessionIds = [] then s
  else if c.kind = some .projectClose ∧ host.closeTerminalSessions ≠ some false then
    runCalls (runCalls s env.closed) env.projectClosed
  else runCalls s env.closed

def releaseCalls (host : Host ν) (c : Command ν) : List (Effect ν) :=
  if c.kind = some .projectClose ∧ host.releaseProject.isSome then
    [.releaseProject (c.fields.at "projectId")]
  else []

def rehomeCalls (host : Host ν) (st : WorkspaceState ν) (c : Command ν) : List (Effect ν) :=
  match terminalSessionRehomedBy st c with
  | some rehome => if host.rehomeTerminalSession then [.rehomeTerminalSession rehome] else []
  | none => []

def commandProjectId (c : Command ν) : Option Str :=
  match c.fields.at "projectId" with
  | some (.str id) => some id
  | _ => none

def changeCalls (host : Host ν) (st : WorkspaceState ν) (projectId : Option Str) : List (Effect ν) :=
  if host.eventJournal then [.workspaceChanged st.serverId st.revision st.cursor projectId] else []

/-- The lifecycle event of a command, from its project before and after. -/
def lifecycleOf (c : Command ν) (before : WorkspaceState ν) (after : WorkspaceState ν) :
    Option ProjectLifecycle :=
  let key := propertyKey (c.fields.at "projectId")
  let project := match c.kind with
    | some .projectCreate => if before.projects[key]? = none then after.projects[key]? else none
    | some .projectClose => if after.projects[key]? = none then before.projects[key]? else none
    | _ => none
  (project.filter fun p => !isAutomationSpace p).map fun p =>
    ⟨c.kind = some .projectCreate, after.serverId, p.id, p.name, after.revision⟩

def lifecycleCalls (host : Host ν) (c : Command ν) (before after : WorkspaceState ν) :
    List (Effect ν) :=
  if host.eventJournal then (lifecycleOf c before after).toList.map .projectLifecycle else []

/-! ## The handler -/

def conflictError (conflict : WorkspaceConflict) : ProtocolError :=
  ⟨.conflict, conflict.message, true, some (conflict.currentRevision, conflict.currentCursor)⟩

def needsRoot (host : Host ν) (c : Command ν) : Bool :=
  c.kind = some .projectCreate && c.fields.at "rootOrigin" ≠ some originNone &&
    host.root.prepareProjectRootUpdate.isSome

def refusedAnswer : WorkspaceApplyResult ν → Option ProtocolError
  | .ok .. => none
  | .refused conflict => some (conflictError conflict)
  | .thrown message => some (refusal .internal message)

def replyOf (projectId : Option (Json ν)) : WorkspaceApplyResult ν → Answered (Reply ν)
  | .ok revision cursor _ _ => .ok ⟨revision, cursor, projectId⟩
  | .refused conflict => .error (conflictError conflict)
  | .thrown message => .error (refusal .internal message)

def askedStore (host : Host ν) (env : Interleaving ν) (c : Command ν) (s : WorkspaceStore ν) :
    WorkspaceStore ν :=
  if needsRoot host c then runCalls s env.prepared
  else storeAfterClosing host env c (terminalSessionIdsClosedBy s.current c) s

def lastStore (host : Host ν) (env : Interleaving ν) (c : Command ν) (s : WorkspaceStore ν) :
    WorkspaceStore ν :=
  if needsRoot host c then runCalls s env.committed
  else if c.kind = some .projectClose then runCalls s env.released
  else s

def applyWithRoot (host : Host ν) (env : Interleaving ν) (request : CommandRequest ν)
    (c : Command ν) (now : ν) (written : Bool) (s : WorkspaceStore ν) : Handled ν :=
  let s := askedStore host env c s
  match withPreparedRoot host.root c with
  | .error error => ⟨s, [], none, .error error⟩
  | .ok rooted =>
    let applied := apply s ⟨request.commandId, request.expectedRevision, rooted⟩ now written
    match refusedAnswer applied.2 with
    | some error => ⟨applied.1, [], some applied.2, .error error⟩
    | none =>
      let last := lastStore host env c applied.1
      if host.commitRoot then
        ⟨last, .commitRoot :: changeCalls host last.current (commandProjectId c) ++
          lifecycleCalls host c s.current last.current, some applied.2,
          replyOf (c.fields.at "projectId") applied.2⟩
      else ⟨last, [.commitRoot], some applied.2, .error (refusal .internal engineTypeError)⟩

def applyClosing (host : Host ν) (env : Interleaving ν) (request : CommandRequest ν)
    (c : Command ν) (now : ν) (written : Bool) (s : WorkspaceStore ν) : Handled ν :=
  let sessionIds := terminalSessionIdsClosedBy s.current c
  let closing := closeCalls host c sessionIds
  let s := askedStore host env c s
  if closeSucceeds host c sessionIds = false then
    ⟨s, closing, none, .error (refusal .internal engineTypeError)⟩
  else
    let applied := apply s ⟨request.commandId, request.expectedRevision, c⟩ now written
    match refusedAnswer applied.2 with
    | some error => ⟨applied.1, closing, some applied.2, .error error⟩
    | none =>
      let last := lastStore host env c applied.1
      let released := closing ++ releaseCalls host c
      if c.kind = some .projectClose ∧ host.releaseProject = some false then
        ⟨last, released, some applied.2, .error (refusal .internal engineTypeError)⟩
      else
        ⟨last, released ++ rehomeCalls host s.current c ++
          changeCalls host last.current (commandProjectId c) ++
          lifecycleCalls host c s.current last.current, some applied.2,
          replyOf (if c.kind = some .projectMove then c.fields.at "projectId" else some .null)
            applied.2⟩

def applyCommand (host : Host ν) (env : Interleaving ν) (request : CommandRequest ν)
    (requested : Command ν) (now : ν) (written : Bool) (s : WorkspaceStore ν) : Handled ν :=
  let s := runCalls s env.rooted
  match withDefaultProjectRoot host.root requested with
  | .error error => ⟨s, [], none, .error error⟩
  | .ok c =>
    match admission s.current request c with
    | .error error => ⟨s, [], none, .error error⟩
    | .ok () =>
      if needsRoot host c then applyWithRoot host env request c now written s
      else applyClosing host env request c now written s

/-! ## What a handler does -/

def closingCalls (host : Host ν) (env : Interleaving ν) (c : Command ν) (s : WorkspaceStore ν) :
    List (Effect ν) :=
  closeCalls host c (terminalSessionIdsClosedBy (runCalls s env.rooted).current c)

def followUps (host : Host ν) (c : Command ν) (before after : WorkspaceState ν) : List (Effect ν) :=
  if needsRoot host c then
    .commitRoot :: if host.commitRoot then
      changeCalls host after (commandProjectId c) ++ lifecycleCalls host c before after
    else []
  else
    releaseCalls host c ++ if c.kind = some .projectClose ∧ host.releaseProject = some false then []
    else
      rehomeCalls host before c ++ changeCalls host after (commandProjectId c) ++
        lifecycleCalls host c before after

/-- Everything a handler can do: stop before it asks the store, hear a refusal,
or follow up on an acceptance. -/
inductive Handles (host : Host ν) (env : Interleaving ν) (request : CommandRequest ν)
    (requested : Command ν) (now : ν) (written : Bool) (s : WorkspaceStore ν) : Handled ν → Prop
  | stopped (h : Handled ν) (hasked : h.asked = none) :
    Handles host env request requested now written s h
  | refused (c command : Command ν) (h : Handled ν)
    (hc : withDefaultProjectRoot host.root requested = .ok c)
    (hasked : h.asked = some (apply (askedStore host env c (runCalls s env.rooted))
      ⟨request.commandId, request.expectedRevision, command⟩ now written).2)
    (hrefused : ∀ result ∈ h.asked, refusedAnswer result ≠ none)
    (heffects : h.effects = closingCalls host env c s) :
    Handles host env request requested now written s h
  | accepted (c command : Command ν) (h : Handled ν)
    (hc : withDefaultProjectRoot host.root requested = .ok c)
    (hasked : h.asked = some (apply (askedStore host env c (runCalls s env.rooted))
      ⟨request.commandId, request.expectedRevision, command⟩ now written).2)
    (haccepted : ∀ result ∈ h.asked, refusedAnswer result = none)
    (hstore : h.store = lastStore host env c
      (apply (askedStore host env c (runCalls s env.rooted))
        ⟨request.commandId, request.expectedRevision, command⟩ now written).1)
    (heffects : h.effects = closingCalls host env c s ++
      followUps host c (askedStore host env c (runCalls s env.rooted)).current h.store.current) :
    Handles host env request requested now written s h

/-- A command that waits for its root closes no terminal. -/
theorem closingCalls_rooted {host : Host ν} {env : Interleaving ν} {c : Command ν}
    {s : WorkspaceStore ν} (h : needsRoot host c = true) : closingCalls host env c s = [] := by
  have hkind : c.kind = some .projectCreate := by
    simp only [needsRoot, Bool.and_eq_true, decide_eq_true_eq] at h
    exact h.1.1
  simp [closingCalls, terminalSessionIdsClosedBy, closeCalls, hkind]

theorem applyCommand_handles (host : Host ν) (env : Interleaving ν) (request : CommandRequest ν)
    (requested : Command ν) (now : ν) (written : Bool) (s : WorkspaceStore ν) :
    Handles host env request requested now written s
      (applyCommand host env request requested now written s) := by
  simp only [applyCommand]
  rcases hc : withDefaultProjectRoot host.root requested with error | c
  · exact .stopped _ rfl
  rcases hgate : admission (runCalls s env.rooted).current request c with error | _
  · simp only [hgate]
    exact .stopped _ rfl
  simp only [hgate]
  by_cases hroot : needsRoot host c = true
  · rw [if_pos hroot, applyWithRoot]
    rcases withPreparedRoot host.root c with error | rooted
    · exact .stopped _ rfl
    simp only
    rcases hanswer : refusedAnswer (apply (askedStore host env c (runCalls s env.rooted))
      ⟨request.commandId, request.expectedRevision, rooted⟩ now written).2 with _ | error
    · simp only
      split_ifs with hcommit
      · refine .accepted c rooted _ hc rfl (by simpa using hanswer) rfl ?_
        simp [closingCalls_rooted hroot, followUps, hroot, hcommit]
      · refine .accepted c rooted _ hc rfl (by simpa using hanswer) rfl ?_
        simp [closingCalls_rooted hroot, followUps, hroot, hcommit]
    · exact .refused c rooted _ hc rfl (by simp [hanswer]) (closingCalls_rooted hroot).symm
  · rw [if_neg hroot]
    simp only [applyClosing]
    by_cases hclosed : closeSucceeds host c
        (terminalSessionIdsClosedBy (runCalls s env.rooted).current c) = false
    · rw [if_pos hclosed]
      exact .stopped _ rfl
    rw [if_neg hclosed]
    rcases hanswer : refusedAnswer (apply (askedStore host env c (runCalls s env.rooted))
      ⟨request.commandId, request.expectedRevision, c⟩ now written).2 with _ | error
    · by_cases hreleased : c.kind = some .projectClose ∧ host.releaseProject = some false
      · simp only [if_pos hreleased]
        refine .accepted c c _ hc rfl (by simpa using hanswer) rfl ?_
        simp [closingCalls, followUps, hroot, hreleased]
      · simp only [if_neg hreleased]
        refine .accepted c c _ hc rfl (by simpa using hanswer) rfl ?_
        simp [closingCalls, followUps, hroot, hreleased]
    · exact .refused c c _ hc rfl (by simp [hanswer]) rfl

end Engine

end Terminay.Protocol
