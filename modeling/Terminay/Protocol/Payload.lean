import Terminay.Workspace.Reduce

/-!
# Commands as clients send them

A client's request carries a command as free JSON. `commandPayload` says which
commands a client may send at all; the root of a created project is then settled
by the server.
-/

namespace Terminay.Protocol
open Script Workspace Outcome

variable {ν : Type}

inductive ErrorCode where | validation | forbidden | conflict | internal
  deriving DecidableEq

/-- `current` is the revision and the cursor that a conflict reports. -/
structure ProtocolError where
  code : ErrorCode
  message : Str
  retryable : Bool
  current : Option (ℕ × Str)
  deriving DecidableEq

abbrev Answered := Except ProtocolError

def refusal (code : ErrorCode) (message : Str) : ProtocolError := ⟨code, message, false, none⟩

def objectPayload (value : Json ν) : Answered (Fields ν) :=
  demand value.object? (refusal .validation (js "workspace payload must be an object"))

def payloadRefusal (type : Str) (command : Fields ν) : Option ProtocolError :=
  match commandType? type with
  | some .projectRootUpdate =>
    some (refusal .validation (js "project root updates require the named operation"))
  | some .projectShellProfileSet | some .projectShellProfileClear
  | some .projectShellProfileReplace =>
    some (refusal .validation (js "project shell profile defaults require the named operations"))
  | some .terminalMarkExited =>
    some (refusal .forbidden (js "terminal exit marks are host-owned"))
  | some .projectStart | some .recentForget =>
    some (refusal .validation
      (js "project start choices and recent folders require the named operations"))
  | some .folderLinkUpdate | some .folderOfferSet =>
    some (refusal .forbidden (js "folder worktree links are host-owned"))
  | some .folderCreate =>
    if (command.at "worktree").isSome || (command.at "createdByPanelId").isSome then
      some (refusal .forbidden (js "folder worktree links are host-owned"))
    else none
  | _ => none

def commandType (command : Fields ν) : Answered Str :=
  match command.at "type" with
  | some (.str type) => .ok type
  | _ => .error (refusal .validation (js "workspace command type is required"))

def commandPayload (value : Json ν) : Answered (Command ν) := do
  let payload ← objectPayload value
  let command ← demand (payload.at "command")
    (refusal .validation (js "workspace command is required"))
  let fields ← objectPayload command
  let type ← commandType fields
  match payloadRefusal type fields with
  | some error => .error error
  | none => .ok ⟨type, fields.erase (js "type")⟩

/-- What the host answers about the root of a new project: whether a project
without one waits for a start choice, the default folder, and the canonical form
that preparing a root gave, each absent where the host has none. -/
structure RootHost (ν : Type) where
  awaitsStartChoice : Bool
  defaultProjectRoot : Option Str
  prepareProjectRootUpdate : Option (Option (Json ν) → Option (Json ν) → Option Str)

def Command.withFields (c : Command ν) (fields : List (String × Json ν)) : Command ν :=
  { c with fields := fields.foldl (fun t e => t.insert (js e.1) e.2) c.fields }

section Engine
variable [Engine ν]

def withDefaultProjectRoot (host : RootHost ν) (c : Command ν) : Answered (Command ν) :=
  if c.kind ≠ some .projectCreate then .ok c
  else if (c.fields.at "start").isSome ∨ c.fields.at "rootOrigin" = some originNone then
    .error (refusal .validation
      (js "a project waits for a start choice only when created without a root"))
  else if c.fields.at "root" ≠ none ∧ c.fields.at "root" ≠ some (.str []) then .ok c
  else if host.awaitsStartChoice then
    .ok (Command.withFields c
      [("root", .str []), ("rootOrigin", originNone), ("start", .str awaitingStartChoice)])
  else
    match host.defaultProjectRoot with
    | some (u :: root) =>
      .ok (Command.withFields c
        [("root", .str (u :: root)), ("rootOrigin", .str (js "server-default"))])
    | _ => .error (refusal .validation (js "project root is required"))

def withPreparedRoot (host : RootHost ν) (c : Command ν) : Answered (Command ν) :=
  match host.prepareProjectRootUpdate with
  | none => .ok c
  | some prepare =>
    if c.kind ≠ some .projectCreate ∨ c.fields.at "rootOrigin" = some originNone then .ok c
    else
      match prepare (c.fields.at "projectId") (c.fields.at "root") with
      | none => .error (refusal .validation (js "project root is not an accessible directory"))
      | some root =>
        if root.length = 0 ∨ 4096 < root.length ∨ hasNul root then
          .error (refusal .internal (js "project root preparation returned an invalid result"))
        else .ok (Command.withFields c [("root", .str root)])

end Engine

end Terminay.Protocol
