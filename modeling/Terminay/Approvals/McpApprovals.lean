import Mathlib.Data.List.Sort
import Terminay.Lib.Entries
import Terminay.Lib.Runs
import Terminay.Script.Text

/-!
# Permission policy and approvals of MCP operations

Every operation belongs to a group with a policy. Under `ask` a request waits for the
decision of a user; a decision for the session grants the group to the terminal. A
pending request ends by a decision, a new policy, a grant, a withdrawal or its signal.
-/

namespace Terminay.Approvals
open Script

inductive McpPermissionGroup where
  | terminalsRead | terminalsManage | automationsRead | automationsManage | projectsWindows
  | settingsRead | settingsChange | workflowTemplates | appWindows | notifications
  | connectedServerTools | windowMessages
  deriving DecidableEq

def MCP_PERMISSION_GROUPS : List McpPermissionGroup :=
  [.terminalsRead, .terminalsManage, .automationsRead, .automationsManage, .projectsWindows,
    .settingsRead, .settingsChange, .workflowTemplates, .appWindows, .notifications,
    .connectedServerTools, .windowMessages]

inductive McpPermissionPolicy where | ask | allow | deny
  deriving DecidableEq

abbrev McpPermissionPolicies := McpPermissionGroup → McpPermissionPolicy

def DEFAULT_MCP_PERMISSIONS : McpPermissionPolicies
  | .automationsManage | .settingsChange | .workflowTemplates => .ask
  | _ => .allow

def MCP_PERMISSION_GROUP_LABELS : McpPermissionGroup → String
  | .terminalsRead => "Read Terminals"
  | .terminalsManage => "Full Terminal Management"
  | .automationsRead => "Read Automations"
  | .automationsManage => "Full Automation Management"
  | .projectsWindows => "Projects & Windows"
  | .settingsRead => "Read Settings"
  | .settingsChange => "Change Settings"
  | .workflowTemplates => "Workflow Templates"
  | .appWindows => "App Windows"
  | .notifications => "Notifications"
  | .connectedServerTools => "Connected Server Tools"
  | .windowMessages => "Window Messages"

def MAX_PENDING_APPROVALS_PER_TERMINAL : ℕ := 8

inductive McpApprovalDecision where | once | session | decline
  deriving DecidableEq

inductive McpApprovalOutcome where
  | allowedOnce | allowedSession | declined | allowedByPolicy | deniedByPolicy | ended
  deriving DecidableEq

inductive McpPermissionErrorCode where
  | permissionDenied | permissionDeclined | approvalQueueFull | cancelled
  deriving DecidableEq

structure McpPermissionError where
  code : McpPermissionErrorCode
  message : String
  deriving DecidableEq

inductive McpAuthorization where
  | ok
  | refused (error : McpPermissionError)
  deriving DecidableEq

def deniedMessage (group : McpPermissionGroup) : String :=
  MCP_PERMISSION_GROUP_LABELS group ++
    " is set to Never Allow for Terminay MCP. The user can change it in " ++
    "Settings > AI > Terminay MCP."

def deniedError (group : McpPermissionGroup) : McpPermissionError :=
  ⟨.permissionDenied, deniedMessage group⟩

def declinedError : McpPermissionError := ⟨.permissionDeclined, "The user declined this request."⟩

def cancelledError : McpPermissionError :=
  ⟨.cancelled, "The request ended before it was approved."⟩

def queueFullError : McpPermissionError :=
  ⟨.approvalQueueFull,
    "This terminal already has the maximum number of MCP requests waiting for approval."⟩

structure McpApprovalDetail where
  label : Str
  value : Str
  code : Option Bool

/-- Signals are numbered by identity. -/
structure McpApprovalRequest where
  terminalSessionId : Str
  chatId : Option Str
  projectId : Str
  operation : Str
  group : McpPermissionGroup
  agent : Str
  terminalTitle : Str
  summary : Str
  details : List McpApprovalDetail
  signal : ℕ

structure McpApprovalView where
  id : Str
  terminalSessionId : Str
  chatId : Option Str
  projectId : Str
  operation : Str
  group : McpPermissionGroup
  groupLabel : String
  agent : Str
  terminalTitle : Str
  summary : Str
  details : List McpApprovalDetail
  createdAt : ℤ

def McpApprovalRequest.view (request : McpApprovalRequest) (id : Str) (now : ℤ) :
    McpApprovalView where
  id := id
  terminalSessionId := request.terminalSessionId
  chatId := request.chatId
  projectId := request.projectId
  operation := request.operation
  group := request.group
  groupLabel := MCP_PERMISSION_GROUP_LABELS request.group
  agent := request.agent
  terminalTitle := request.terminalTitle
  summary := request.summary
  details := request.details
  createdAt := now

/-- `call` numbers the call of `authorize` that waits, `signal` is what it listens to. -/
structure Pending where
  view : McpApprovalView
  signal : ℕ
  call : ℕ

/-- The answer of a call of `authorize`, with the policy and the grant of its group at that moment
and what a user decided on this very request. -/
structure Settlement where
  call : ℕ
  answer : McpAuthorization
  policy : McpPermissionPolicy
  granted : Bool
  decided : Option McpApprovalDecision
  deriving DecidableEq

/-- `calls`, `generated` and `settled` remember how often `authorize` was called, the ids it
generated and the answers it gave. -/
structure McpApprovalService where
  policySet : McpPermissionPolicies
  pending : List (Str × Pending)
  grants : List (Str × List McpPermissionGroup)
  maxPendingPerTerminal : ℕ
  aborted : List ℕ
  notices : List (McpApprovalView × McpApprovalOutcome)
  events : List (List (Str × Str))
  calls : ℕ
  generated : List Str
  settled : List Settlement

namespace McpApprovalService

def created (policies : Option McpPermissionPolicies) (maxPendingPerTerminal : Option ℕ) :
    McpApprovalService where
  policySet := policies.getD DEFAULT_MCP_PERMISSIONS
  pending := []
  grants := []
  maxPendingPerTerminal := maxPendingPerTerminal.getD MAX_PENDING_APPROVALS_PER_TERMINAL
  aborted := []
  notices := []
  events := []
  calls := 0
  generated := []
  settled := []

def granted (s : McpApprovalService) (terminalSessionId : Str) (group : McpPermissionGroup) : Bool :=
  (Entries.get s.grants terminalSessionId).any fun grants => group ∈ grants

def effectivePolicy (s : McpApprovalService) (group : McpPermissionGroup)
    (terminalSessionId : Str) : McpPermissionPolicy :=
  if s.policySet group ≠ .ask then s.policySet group
  else if s.granted terminalSessionId group = true then .allow
  else .ask

def list (s : McpApprovalService) : List McpApprovalView :=
  (s.pending.map fun e => e.2.view).insertionSort fun left right => left.createdAt ≤ right.createdAt

def publish (s : McpApprovalService) : McpApprovalService :=
  { s with events := s.events ++ [s.list.map fun view => (view.id, view.terminalSessionId)] }

def settle (s : McpApprovalService) (call : ℕ) (terminalSessionId : Str)
    (group : McpPermissionGroup) (answer : McpAuthorization)
    (decided : Option McpApprovalDecision) : McpApprovalService :=
  { s with
    settled := s.settled ++
      [⟨call, answer, s.policySet group, s.granted terminalSessionId group, decided⟩] }

def finish (s : McpApprovalService) (id : Str) (answer : McpAuthorization)
    (how : McpApprovalOutcome) (decided : Option McpApprovalDecision) : McpApprovalService :=
  match Entries.get s.pending id with
  | none => s
  | some entry =>
    publish { settle { s with pending := Entries.delete s.pending id } entry.call
        entry.view.terminalSessionId entry.view.group answer decided with
      notices := s.notices ++ [(entry.view, how)] }

def release
    (verdict : McpApprovalService → Pending → Option (McpAuthorization × McpApprovalOutcome))
    (s : McpApprovalService) (e : Str × Pending) : McpApprovalService :=
  match verdict s e.2 with
  | none => s
  | some (answer, how) => s.finish e.1 answer how none

def releaseEach (s : McpApprovalService)
    (verdict : McpApprovalService → Pending → Option (McpAuthorization × McpApprovalOutcome)) :
    McpApprovalService :=
  Runs.after (release verdict) s s.pending

def changedGroups (s : McpApprovalService) (next : McpPermissionPolicies) :
    List McpPermissionGroup :=
  MCP_PERMISSION_GROUPS.filter fun group => s.policySet group ≠ next group

def decidedByPolicy (changed : List McpPermissionGroup) (next : McpPermissionPolicies)
    (entry : Pending) : Option (McpAuthorization × McpApprovalOutcome) :=
  if entry.view.group ∉ changed then none
  else
    match next entry.view.group with
    | .allow => some (.ok, .allowedByPolicy)
    | .deny => some (.refused (deniedError entry.view.group), .deniedByPolicy)
    | .ask => none

def adopt (s : McpApprovalService) (next : McpPermissionPolicies) : McpApprovalService :=
  { s with
    policySet := next
    grants := s.grants.map fun e =>
      (e.1, e.2.filter fun group => group ∉ s.changedGroups next) }

def setPolicies (s : McpApprovalService) (next : McpPermissionPolicies) : McpApprovalService :=
  if s.changedGroups next = [] then { s with policySet := next }
  else (s.adopt next).releaseEach fun _ => decidedByPolicy (s.changedGroups next) next

def queued (s : McpApprovalService) (terminalSessionId : Str) : ℕ :=
  (s.pending.filter fun e => e.2.view.terminalSessionId = terminalSessionId).length

def authorize (s : McpApprovalService) (request : McpApprovalRequest) (id : Str) (now : ℤ) :
    McpApprovalService :=
  let next := { s with calls := s.calls + 1 }
  let answer := fun answer : McpAuthorization =>
    next.settle s.calls request.terminalSessionId request.group answer none
  match s.effectivePolicy request.group request.terminalSessionId with
  | .allow => answer .ok
  | .deny => answer (.refused (deniedError request.group))
  | .ask =>
    if request.signal ∈ s.aborted then answer (.refused cancelledError)
    else if s.maxPendingPerTerminal ≤ s.queued request.terminalSessionId then
      answer (.refused queueFullError)
    else
      publish { next with
        pending := Entries.set s.pending id ⟨request.view id now, request.signal, s.calls⟩
        generated := s.generated ++ [id] }

def grant (s : McpApprovalService) (terminalSessionId : Str) (group : McpPermissionGroup) :
    McpApprovalService :=
  { s with
    grants := Entries.set s.grants terminalSessionId
      (let grants := (Entries.get s.grants terminalSessionId).getD []
        if group ∈ grants then grants else grants ++ [group]) }

def coveredByGrant (terminalSessionId : Str) (s : McpApprovalService) (entry : Pending) :
    Option (McpAuthorization × McpApprovalOutcome) :=
  if entry.view.terminalSessionId = terminalSessionId ∧
      s.effectivePolicy entry.view.group terminalSessionId = .allow then
    some (.ok, .allowedSession)
  else none

def releaseGranted (s : McpApprovalService) (terminalSessionId : Str) : McpApprovalService :=
  s.releaseEach (coveredByGrant terminalSessionId)

def decide (s : McpApprovalService) (approvalId : Str) (decision : McpApprovalDecision) :
    Bool × McpApprovalService :=
  match Entries.get s.pending approvalId with
  | none => (false, s)
  | some entry =>
    match decision with
    | .decline => (true, s.finish approvalId (.refused declinedError) .declined (some .decline))
    | .once => (true, s.finish approvalId .ok .allowedOnce (some .once))
    | .session =>
      (true, releaseGranted
        ((s.grant entry.view.terminalSessionId entry.view.group).finish approvalId .ok
          .allowedSession (some .session))
        entry.view.terminalSessionId)

def withdrawn (p : Pending → Bool) (entry : Pending) :
    Option (McpAuthorization × McpApprovalOutcome) :=
  if p entry = true then some (.refused cancelledError, .ended) else none

def cancelPending (s : McpApprovalService) (terminalSessionId : Str) : McpApprovalService :=
  s.releaseEach fun _ => withdrawn fun entry => entry.view.terminalSessionId = terminalSessionId

def revokeTerminal (s : McpApprovalService) (terminalSessionId : Str) : McpApprovalService :=
  cancelPending { s with grants := Entries.delete s.grants terminalSessionId } terminalSessionId

def revokeAll (s : McpApprovalService) : McpApprovalService :=
  releaseEach { s with grants := [] } fun _ => withdrawn fun _ => true

def abort (s : McpApprovalService) (signal : ℕ) : McpApprovalService :=
  if signal ∈ s.aborted then s
  else
    releaseEach { s with aborted := signal :: s.aborted } fun _ =>
      withdrawn fun entry => entry.signal = signal

end McpApprovalService

inductive ApprovalInput where
  | authorize (request : McpApprovalRequest) (id : Str) (now : ℤ)
  | abort (signal : ℕ)
  | decide (approvalId : Str) (decision : McpApprovalDecision)
  | setPolicies (next : McpPermissionPolicies)
  | revokeTerminal (terminalSessionId : Str)
  | cancelPending (terminalSessionId : Str)
  | revokeAll

def McpApprovalService.step (s : McpApprovalService) : ApprovalInput → McpApprovalService
  | .authorize request id now => s.authorize request id now
  | .abort signal => s.abort signal
  | .decide approvalId decision => (s.decide approvalId decision).2
  | .setPolicies next => s.setPolicies next
  | .revokeTerminal terminalSessionId => s.revokeTerminal terminalSessionId
  | .cancelPending terminalSessionId => s.cancelPending terminalSessionId
  | .revokeAll => s.revokeAll

end Terminay.Approvals
