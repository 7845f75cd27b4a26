import Terminay.Terminal.Identity

/-!
# Requests of the input sources

Writes and resizes enter the server here. A request names an exact session, a
client and a source, and is checked against the session before anything changes.
`none` stands for an absent field, and a number is any value of the number type.
-/

namespace Terminay.Terminal
open Script Workspace Outcome

inductive TerminalInputSource where
  | keyboard | paste | macros | dictation | mcp | remote | automation | windowMessage
  | workflow | launcher
  deriving DecidableEq

inductive TerminalResizeMode where | claim | update | release
  deriving DecidableEq

inductive TerminalViewport where | wide | narrow | mobile
  deriving DecidableEq

inductive AuthorizationScope where | none | read | write | admin
  deriving DecidableEq

structure TerminalAuthorization where
  serverId : Str
  projectId : Str
  sessionId : Option Str
  clientId : Option Str
  scope : Option AuthorizationScope

inductive TerminalSessionStatus where | running | exited | interrupted
  deriving DecidableEq

structure TerminalDimensions where
  cols : ℕ
  rows : ℕ
  deriving DecidableEq

structure TerminalSessionSnapshot where
  identity : TerminalIdentity
  status : TerminalSessionStatus
  dimensions : TerminalDimensions

def invalidIdentity (message : String) : Thrown := refusal .invalidIdentity message []

def sessionNotFound (identity : TerminalIdentity) : Thrown :=
  refusal .sessionNotFound "terminal session not found" [("sessionId", .text identity.sessionId)]

def isSafeInteger (value : ℚ) : Bool := value.den = 1 ∧ value.num.natAbs ≤ maxSafeInteger

def validateIdentity (identity : TerminalIdentity) : Except Thrown Unit :=
  refuseIf (idPattern identity.serverId = false ∨ idPattern identity.projectId = false ∨
    idPattern identity.sessionId = false) (invalidIdentity "terminal identity is invalid")

def validateClientId (value : Str) : Except Thrown Unit :=
  refuseIf (idPattern value = false) (invalidIdentity "terminal client id is invalid")

def authorizes (authorization : TerminalAuthorization) (identity : TerminalIdentity)
    (clientId : Str) : Bool :=
  authorization.serverId = identity.serverId ∧ authorization.projectId = identity.projectId ∧
    (∀ s ∈ authorization.sessionId, s = identity.sessionId) ∧
    ∀ c ∈ authorization.clientId, c = clientId

def assertAuthorized (identity : TerminalIdentity) (clientId : Str)
    (authorization : TerminalAuthorization) : Except Thrown Unit := do
  refuseIf (authorizes authorization identity clientId = false)
    (forbidden "terminal authorization is outside its source boundary"
      [("reason", .text (js "authorization"))])
  refuseIf (authorization.scope ≠ some .write ∧ authorization.scope ≠ some .admin)
    (forbidden "terminal source is not authorized to write" [("reason", .text (js "write"))])

def assertWritable (identity : TerminalIdentity) (snapshot : Option TerminalSessionSnapshot)
    (authorization : Option TerminalAuthorization) (clientId : Str) : Except Thrown Unit := do
  validateIdentity identity
  let snapshot ← demand snapshot (sessionNotFound identity)
  refuseIf (snapshot.identity ≠ identity)
    (forbidden "terminal identity is outside its source boundary"
      [("reason", .text (js "identity"))])
  refuseIf (snapshot.status = .exited)
    (refusal .sessionExited "terminal session has exited"
      [("sessionId", .text identity.sessionId)])
  refuseIf (snapshot.status = .interrupted)
    (refusal .sessionInterrupted "terminal session was interrupted"
      [("sessionId", .text identity.sessionId)])
  match authorization with
  | none => .ok ()
  | some authorization => assertAuthorized identity clientId authorization

end Terminay.Terminal
