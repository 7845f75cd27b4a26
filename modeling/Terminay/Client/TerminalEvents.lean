import Terminay.Client.Subscription
import Terminay.Protocol.EventDelivery
import Terminay.Terminal.InputSources

/-!
# Terminal events at a client

A terminal event comes as JSON, the bytes of an output in the body of its frame or in
base64. The decoder refuses what is not well formed. A checkpoint comes with the
output that followed it, which has to lead from its position to its head.
-/

namespace Terminay.Client
open Script Workspace Outcome
open Terminal (TerminalIdentity TerminalDimensions)

abbrev Bytes := List UInt8

variable {ν : Type}

/-! ## What a display is shown -/

inductive TerminalSkipReason where
  | attachmentClosed | hydration | congestion
  deriving DecidableEq

structure PresentationHolder where
  clientId : Str
  attachmentId : Str
  leaseExpiresAt : ℤ
  deriving DecidableEq

structure TerminalPresentationState where
  revision : ℕ
  controller : Bool
  holder : Option PresentationHolder
  deriving DecidableEq

inductive TerminalStreamEvent (ν : Type) where
  | checkpoint (position headPosition : ℕ) (bytes : Bytes)
  | checkpointResize (position : ℕ) (dimensions : TerminalDimensions)
  | output (position nextPosition : ℕ) (bytes : Bytes) (replay : Bool)
  | exit (exitCode : ℤ) (signal : Option ν) (reason : Option Str) (time : Option ν)
  | skip (fromPosition toPosition : ℕ) (reason : TerminalSkipReason)
  | dimensions (dimensions : TerminalDimensions)
  | presentation (state : TerminalPresentationState) (action : Option Str)
  | presentationUnavailable (requestedFromPosition replayFrom outputPosition : ℕ)

def TerminalStreamEvent.isOutput : TerminalStreamEvent ν → Bool
  | .output _ _ _ _ => true
  | _ => false

def TerminalStreamEvent.byteLength : TerminalStreamEvent ν → ℕ
  | .output _ _ bytes _ => bytes.length
  | _ => 0

def TerminalStreamEvent.reach (event : TerminalStreamEvent ν) (position : ℕ) : ℕ :=
  match event with
  | .output _ nextPosition _ _ => nextPosition
  | .skip _ toPosition _ => max position toPosition
  | _ => position

/-! ## Base64 -/

def base64Value (u : UInt16) : Option ℕ :=
  if 0x41 ≤ u ∧ u ≤ 0x5a then some (u.toNat - 0x41)
  else if 0x61 ≤ u ∧ u ≤ 0x7a then some (u.toNat - 0x61 + 26)
  else if 0x30 ≤ u ∧ u ≤ 0x39 then some (u.toNat - 0x30 + 52)
  else if u = 0x2b then some 62
  else if u = 0x2f then some 63
  else none

/-- The last four characters, the only ones that may hold padding. -/
def lastGroup (a b c d : UInt16) : Option Bytes := do
  let x ← base64Value a
  let y ← base64Value b
  if d = 0x3d then
    if c = 0x3d then pure [UInt8.ofNat (x * 4 + y / 16)]
    else
      let z ← base64Value c
      pure [UInt8.ofNat (x * 4 + y / 16), UInt8.ofNat (y % 16 * 16 + z / 4)]
  else
    let z ← base64Value c
    let w ← base64Value d
    pure [UInt8.ofNat (x * 4 + y / 16), UInt8.ofNat (y % 16 * 16 + z / 4),
      UInt8.ofNat (z % 4 * 64 + w)]

def base64Bytes : Str → Option Bytes
  | [] => some []
  | [a, b, c, d] => lastGroup a b c d
  | a :: b :: c :: d :: rest => do
    let x ← base64Value a
    let y ← base64Value b
    let z ← base64Value c
    let w ← base64Value d
    let bytes ← base64Bytes rest
    pure (UInt8.ofNat (x * 4 + y / 16) :: UInt8.ofNat (y % 16 * 16 + z / 4) ::
      UInt8.ofNat (z % 4 * 64 + w) :: bytes)
  | _ => none

def decodeBase64 (value : Str) : Checked Bytes :=
  demand (base64Bytes value) (js "terminal output bytes are not valid base64")

/-! ## Decoding -/

def hasInvalidIdentityCharacters (value : Str) : Bool :=
  value.any fun code => code ≤ 0x1f || code = 0x7f

def isBoundedIdentity (value : Str) : Bool :=
  0 < value.length && value.length ≤ 128 && !hasInvalidIdentityCharacters value

def boundedIdentity? (value : Option (Json ν)) : Option Str :=
  (value.bind Json.str?).filter isBoundedIdentity

section Engine
variable [Engine ν]

def safeInteger (value : Option (Json ν)) : Option ℤ := (value.bind Json.num?).bind safeInteger?

def safePosition (value : Option (Json ν)) (message : String) : Checked ℕ :=
  demand (value.bind Json.uint?) (js message ++ js " is invalid")

def validateDimensions (fields : Fields ν) : Checked TerminalDimensions :=
  match (fields.at "cols").bind Json.uint?, (fields.at "rows").bind Json.uint? with
  | some cols, some rows =>
    if cols < 2 ∨ 1000 < cols ∨ rows < 1 ∨ 1000 < rows then
      .error (js "terminal dimensions are invalid")
    else .ok ⟨cols, rows⟩
  | _, _ => .error (js "terminal dimensions are invalid")

def names (fields : Fields ν) (identity : TerminalIdentity) : Bool :=
  fields.at "serverId" = some (.str identity.serverId) ∧
    fields.at "projectId" = some (.str identity.projectId) ∧
    fields.at "sessionId" = some (.str identity.sessionId)

def presentationHolder (value : Json ν) : Checked PresentationHolder :=
  demand (do
    let holder ← value.object?
    let clientId ← boundedIdentity? (holder.at "clientId")
    let attachmentId ← boundedIdentity? (holder.at "attachmentId")
    let leaseExpiresAt ← safeInteger (holder.at "leaseExpiresAt")
    pure ⟨clientId, attachmentId, leaseExpiresAt⟩) (js "terminal presentation holder is invalid")

def validatePresentation (fields : Fields ν) (identity : Option TerminalIdentity) :
    Checked TerminalPresentationState := do
  let revision ← demand ((fields.at "revision").bind Json.uint?)
    (js "terminal presentation state is invalid")
  let controller ←
    if fields.at "role" = some (.str (js "controller")) then .ok true
    else if fields.at "role" = some (.str (js "read_only")) then .ok false
    else .error (js "terminal presentation state is invalid")
  refuseIf (identity.any (fun identity => !names fields identity) = true)
    (js "terminal presentation identity is invalid")
  match fields.at "holder" with
  | none => .ok ⟨revision, controller, none⟩
  | some value => do .ok ⟨revision, controller, some (← presentationHolder value)⟩

def identityMismatch : Str := js "terminal event identity mismatch"

def outputBytes (fields : Fields ν) (body : Option Bytes) : Checked Bytes :=
  match body with
  | some bytes => .ok bytes
  | none => decodeBase64 (((fields.at "bytes").bind Json.str?).getD [])

def decodeOutput (fields : Fields ν) (body : Option Bytes) : Checked (TerminalStreamEvent ν) := do
  let position ← safePosition (fields.at "position") "terminal output position"
  let nextPosition ← safePosition (fields.at "nextPosition") "terminal output position"
  refuseIf (nextPosition ≤ position) (js "terminal output position is invalid")
  let bytes ← outputBytes fields body
  refuseIf (bytes.length ≠ nextPosition - position)
    (js "terminal output length does not match its position")
  .ok (.output position nextPosition bytes (fields.at "replay" = some (.bool true)))

def exitSignal (value : Option (Json ν)) : Checked (Option ν) :=
  match value with
  | some (.num n) => .ok (some n)
  | some .null => .ok none
  | _ => .error (js "terminal exit event is invalid")

def decodeExit (fields : Fields ν) : Checked (TerminalStreamEvent ν) := do
  let exitCode ← demand (safeInteger (fields.at "exitCode")) (js "terminal exit event is invalid")
  let signal ← exitSignal (fields.at "signal")
  .ok (.exit exitCode signal ((fields.at "reason").bind Json.str?) ((fields.at "at").bind Json.num?))

def skipReason (value : Option (Json ν)) : TerminalSkipReason :=
  if value = some (.str (js "attachment_closed")) then .attachmentClosed
  else if value = some (.str (js "hydration")) then .hydration
  else .congestion

def decodeSkip (fields : Fields ν) : Checked (TerminalStreamEvent ν) := do
  let fromPosition ← safePosition (fields.at "fromPosition") "terminal skip position"
  let toPosition ← safePosition (fields.at "toPosition") "terminal skip position"
  .ok (.skip fromPosition toPosition (skipReason (fields.at "reason")))

def decodeUnavailable (fields : Fields ν) : Checked (TerminalStreamEvent ν) := do
  let requestedFromPosition ←
    safePosition (fields.at "requestedFromPosition") "terminal presentation position"
  let replayFrom ← safePosition (fields.at "replayFrom") "terminal presentation position"
  let outputPosition ← safePosition (fields.at "outputPosition") "terminal presentation position"
  .ok (.presentationUnavailable requestedFromPosition replayFrom outputPosition)

def decodeTyped (type : Option (Json ν)) (fields : Fields ν) (identity : TerminalIdentity)
    (body : Option Bytes) : Checked (TerminalStreamEvent ν) :=
  if type = some (.str (js "output")) then decodeOutput fields body
  else if type = some (.str (js "exit")) then decodeExit fields
  else if type = some (.str (js "skip")) then decodeSkip fields
  else if type = some (.str (js "dimensions")) then do
    .ok (.dimensions (← validateDimensions fields))
  else if type = some (.str (js "presentation")) then do
    .ok (.presentation (← validatePresentation fields (some identity))
      ((fields.at "action").bind Json.str?))
  else if type = some (.str (js "presentation_unavailable")) then decodeUnavailable fields
  else .error (js "unknown terminal event type")

def decodeEvent (event : Json ν) (identity : TerminalIdentity) (body : Option Bytes) :
    Checked (TerminalStreamEvent ν) := do
  let fields ← demand event.object? (js "terminal event is invalid")
  refuseIf (names fields identity = false) identityMismatch
  decodeTyped (fields.at "type") fields identity body

def tryDecodeEvent (event : Json ν) (identity : TerminalIdentity) (body : Option Bytes) :
    Checked (Option (TerminalStreamEvent ν)) :=
  match decodeEvent event identity body with
  | .ok decoded => .ok (some decoded)
  | .error message => if message = identityMismatch then .ok none else .error message

end Engine

def ClientEvent.bytes? (event : ClientEvent ν) : Option Bytes :=
  if event.body = [] then none else some event.body

section Engine
variable [Engine ν]

def eventBelongsToAttachment (payload : Json ν) (attachmentId clientId : Str)
    (identity : TerminalIdentity) : Bool :=
  payload.object?.any fun candidate =>
    candidate.at "attachmentId" = some (.str attachmentId) ∧
      candidate.at "clientId" = some (.str clientId) ∧ names candidate identity

def pendingOutputByteLength (event : ClientEvent ν) (identity : TerminalIdentity) (clientId : Str) :
    ℕ :=
  match event.payload.object? with
  | none => 0
  | some candidate =>
    if candidate.at "type" ≠ some (.str (js "output")) ∨
        candidate.at "clientId" ≠ some (.str clientId) ∨ names candidate identity = false then 0
    else
      match event.bytes? with
      | some bytes => bytes.length
      | none => (((candidate.at "bytes").bind Json.str?).map List.length).getD 0

/-! ## Checkpoints -/

structure TerminalPresentationCheckpointMetadata where
  checkpointId : Str
  position : ℕ
  headPosition : ℕ
  checkpointDimensions : TerminalDimensions
  dimensions : TerminalDimensions
  formatVersion : ℕ
  stateByteLength : ℕ
  tailByteLength : ℕ
  byteLength : ℕ
  expiresAt : ℕ

def maxCheckpointBytes : ℕ := 8 * 1024 * 1024

def checkpointMetadata? (candidate : Fields ν) : Option TerminalPresentationCheckpointMetadata := do
  let checkpointId ← boundedIdentity? (candidate.at "checkpointId")
  let position ← (candidate.at "position").bind Json.uint?
  let headPosition ← (candidate.at "headPosition").bind Json.uint?
  let formatVersion ← (candidate.at "formatVersion").bind Json.uint?
  let stateByteLength ← (candidate.at "stateByteLength").bind Json.uint?
  let tailByteLength ← (candidate.at "tailByteLength").bind Json.uint?
  let byteLength ← (candidate.at "byteLength").bind Json.uint?
  let expiresAt ← (candidate.at "expiresAt").bind Json.uint?
  guard (position ≤ headPosition ∧ 0 < formatVersion ∧ stateByteLength ≤ maxCheckpointBytes ∧
    tailByteLength ≤ maxCheckpointBytes ∧ tailByteLength = headPosition - position ∧
    byteLength = stateByteLength + tailByteLength ∧ byteLength ≤ maxCheckpointBytes ∧ 0 < expiresAt)
  let checkpointDimensions ←
    ((candidate.at "checkpointDimensions").bind Json.object?).bind
      fun fields => (validateDimensions fields).toOption
  let dimensions ← ((candidate.at "dimensions").bind Json.object?).bind
    fun fields => (validateDimensions fields).toOption
  pure ⟨checkpointId, position, headPosition, checkpointDimensions, dimensions, formatVersion,
    stateByteLength, tailByteLength, byteLength, expiresAt⟩

def validateCheckpointMetadata (value : Json ν) (identity : TerminalIdentity) :
    Option TerminalPresentationCheckpointMetadata := do
  let candidate ← value.object?
  guard (names candidate identity = true)
  checkpointMetadata? candidate

def TerminalPresentationCheckpointMetadata.matchesPin
    (returned checkpoint : TerminalPresentationCheckpointMetadata) : Bool :=
  returned.checkpointId = checkpoint.checkpointId ∧ returned.position = checkpoint.position ∧
    returned.headPosition = checkpoint.headPosition ∧
    returned.formatVersion = checkpoint.formatVersion ∧
    returned.stateByteLength = checkpoint.stateByteLength ∧
    returned.tailByteLength = checkpoint.tailByteLength ∧
    returned.byteLength = checkpoint.byteLength ∧
    returned.checkpointDimensions = checkpoint.checkpointDimensions ∧
    returned.dimensions = checkpoint.dimensions

def decodeTail (headPosition : ℕ) : List (Json ν) → ℕ → Bytes → Checked (List (TerminalStreamEvent ν))
  | [], position, bytes =>
    if position ≠ headPosition ∨ bytes ≠ [] then
      .error (js "terminal checkpoint tail boundary is invalid")
    else .ok []
  | item :: tail, position, bytes => do
    let event ← demand item.object? (js "terminal checkpoint tail is invalid")
    if event.at "type" = some (.str (js "output")) then
      let eventPosition ← safePosition (event.at "position") "terminal checkpoint tail position"
      let nextPosition ← safePosition (event.at "nextPosition") "terminal checkpoint tail position"
      let byteLength ← safePosition (event.at "byteLength") "terminal checkpoint tail length"
      refuseIf (eventPosition ≠ position ∨ nextPosition ≤ position ∨
        nextPosition - position ≠ byteLength ∨ bytes.length < byteLength)
        (js "terminal checkpoint tail is not contiguous")
      let rest ← decodeTail headPosition tail nextPosition (bytes.drop byteLength)
      .ok (.output position nextPosition (bytes.take byteLength) true :: rest)
    else if event.at "type" = some (.str (js "resize")) then
      let eventPosition ← safePosition (event.at "position") "terminal checkpoint resize position"
      refuseIf (eventPosition ≠ position) (js "terminal checkpoint resize is not ordered")
      let dimensions ← validateDimensions (((event.at "dimensions").bind Json.object?).getD ∅)
      let rest ← decodeTail headPosition tail position bytes
      .ok (.checkpointResize position dimensions :: rest)
    else .error (js "terminal checkpoint tail event is invalid")

def decodeCheckpointTail (value : Json ν) (checkpoint : TerminalPresentationCheckpointMetadata)
    (bytes : Bytes) : Checked (List (TerminalStreamEvent ν)) := do
  let fields ← demand value.object? (js "terminal checkpoint response metadata is invalid")
  let tail ← demand ((fields.at "tail").bind Json.items?) (js "terminal checkpoint tail is invalid")
  decodeTail checkpoint.headPosition tail checkpoint.position bytes

end Engine

/-! ## Verdicts -/

inductive Verdict where | accept | duplicate | gap
  deriving DecidableEq

def classifyEvent (event : TerminalStreamEvent ν) (position : ℕ) : Verdict :=
  match event with
  | .output start next _ _ =>
    if next ≤ position then .duplicate else if start ≠ position then .gap else .accept
  | _ => .accept

def reportStreamGap (position : ℕ) (event : TerminalStreamEvent ν) : TerminalStreamEvent ν :=
  .skip position (max position (event.reach position)) .attachmentClosed

end Terminay.Client
