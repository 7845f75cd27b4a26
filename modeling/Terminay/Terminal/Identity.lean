import Terminay.Workspace.Bounds

/-!
# Terminal identities and errors

A terminal is named by its server, its project and its session. The key of an
identity joins the three names with NUL.
-/

namespace Terminay.Terminal
open Script

structure TerminalIdentity where
  serverId : Str
  projectId : Str
  sessionId : Str
  deriving DecidableEq

def sessionKey (identity : TerminalIdentity) : Str :=
  identity.serverId ++ 0 :: (identity.projectId ++ 0 :: identity.sessionId)

inductive TerminalErrorCode where
  | invalidIdentity | invalidDimensions | invalidPosition | invalidBytes | sessionNotFound
  | sessionExists | sessionExited | sessionInterrupted | forbidden | inputTooLarge
  | outputTooLarge | presentationUnavailable | replayGap | subscriberLimit | queueOverflow
  | sessionLimit | spawnFailed | serviceShutdown
  deriving DecidableEq

inductive Detail where
  | text (s : Str)
  | number (n : ℤ)
  | rational (q : ℚ)
  deriving DecidableEq

structure TerminalServiceError where
  code : TerminalErrorCode
  message : Str
  details : List (String × Detail)
  deriving DecidableEq

/-- What a call throws: an error of the service, or a `RangeError` or `TypeError`. -/
inductive Thrown where
  | service (error : TerminalServiceError)
  | range (message : Str)
  | type (message : Str)
  deriving DecidableEq

def refusal (code : TerminalErrorCode) (message : String)
    (details : List (String × Detail)) : Thrown :=
  .service ⟨code, js message, details⟩

def forbidden (message : String) (details : List (String × Detail)) : Thrown :=
  .service ⟨.forbidden, js message, details⟩

def boundedPositive (value : ℚ) (max : ℤ) (message : String) : Except Thrown ℤ :=
  if value.den = 1 ∧ value.num.natAbs ≤ maxSafeInteger ∧ 0 < value.num ∧ value.num ≤ max then
    .ok value.num
  else .error (.range (js message))

end Terminay.Terminal
