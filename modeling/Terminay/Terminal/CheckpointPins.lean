import Terminay.Terminal.Checkpoint

/-!
# The pins of the checkpoint authority

A pin keeps a state and a tail for one display. The sessions are numbered in the order in which they
were made, and the authority lists those it has: a call of `prepare` that waits keeps its session,
whatever becomes of it. What the emulator is at when a call goes on, and the id that a host
generates, come with the step.

`serial`, `minted` and `log` number the pins over the whole run and record what became of each.
-/

namespace Terminay.Terminal.Pins
open Script Workspace Outcome

inductive CheckpointErrorCode where
  | unavailable | notFound | forbidden | expired | consumed | limit | invalid
  deriving DecidableEq

structure CheckpointError where
  code : CheckpointErrorCode
  message : Str
  deriving DecidableEq

structure Limits where
  maxSessions : ℕ
  maxPinsPerSession : ℕ
  maxPinnedBytesPerSession : ℕ
  maxPinLifetimeMs : ℕ

structure Scope where
  identity : TerminalIdentity
  clientId : Str
  attachmentId : Str
  deriving DecidableEq

structure PartialScope where
  serverId : Option Str
  projectId : Option Str
  sessionId : Option Str
  clientId : Option Str
  attachmentId : Option Str

def Scope.toPartial (scope : Scope) : PartialScope where
  serverId := some scope.identity.serverId
  projectId := some scope.identity.projectId
  sessionId := some scope.identity.sessionId
  clientId := some scope.clientId
  attachmentId := some scope.attachmentId

structure Captured where
  position : ℕ
  headPosition : ℕ
  checkpointDimensions : TerminalDimensions
  dimensions : TerminalDimensions
  state : Bytes
  tail : List TailEvent
  deriving DecidableEq

def Captured.tailBytes (c : Captured) : ℕ := (c.tail.map TailEvent.byteLength).sum

structure MutablePin where
  checkpointId : Str
  identity : TerminalIdentity
  clientId : Str
  captured : Captured
  byteLength : ℕ
  expiresAt : ℤ
  attachmentId : Option Str
  consumed : Bool
  serial : ℕ
  deriving DecidableEq

structure PinSession where
  identity : TerminalIdentity
  pins : List MutablePin
  pinnedBytes : ℤ

structure PrepareCall where
  session : ℕ
  clientId : Str
  done : Bool

inductive PinEvent where
  | minted (pin : MutablePin)
  | bound (serial : ℕ) (scope : Scope)
  | handed (serial : ℕ) (scope : Scope) (now : ℤ)
  | ended (serial : ℕ)

def PinEvent.serial : PinEvent → ℕ
  | .minted pin => pin.serial
  | .bound serial _ => serial
  | .handed serial _ _ => serial
  | .ended serial => serial

structure Authority where
  now : ℤ
  held : List PinSession
  sessions : List ℕ
  expiredCheckpointIds : List Str
  consumedCheckpointIds : List Str
  checkpointCounter : ℕ
  calls : List PrepareCall
  minted : ℕ
  log : List PinEvent

/-- A call throws or answers, and leaves the authority changed either way. -/
abbrev Answer (α : Type) := Except CheckpointError α × Authority

def thrown (code : CheckpointErrorCode) (message : String) : CheckpointError := ⟨code, js message⟩

def validateId (value : Str) (name : String) : Except CheckpointError Unit :=
  refuseIf (idPattern value = false) (thrown .invalid (name ++ " is invalid"))

def validateIdentity (identity : TerminalIdentity) : Except CheckpointError Unit := do
  validateId identity.serverId "serverId"
  validateId identity.projectId "projectId"
  validateId identity.sessionId "sessionId"

def validateScope (scope : Scope) : Except CheckpointError Unit := do
  validateIdentity scope.identity
  validateId scope.clientId "clientId"
  validateId scope.attachmentId "attachmentId"

def differs (field : Option Str) (value : Str) : Bool := field.any (value ≠ ·)

def matchesScope (pin : MutablePin) (scope : PartialScope) (requireBound ignoreAttachment : Bool) :
    Bool :=
  if differs scope.serverId pin.identity.serverId || differs scope.projectId pin.identity.projectId ||
      differs scope.sessionId pin.identity.sessionId || differs scope.clientId pin.clientId then false
  else
    (!requireBound || pin.attachmentId.isSome) &&
      (ignoreAttachment || scope.attachmentId.isNone || pin.attachmentId = scope.attachmentId)

def maxPinTombstones : ℕ := 256

def rememberTombstone (tombstones : List Str) (checkpointId : Str) : List Str :=
  if checkpointId ∈ tombstones then tombstones
  else if maxPinTombstones ≤ tombstones.length then tombstones.tail ++ [checkpointId]
  else tombstones ++ [checkpointId]

namespace Authority

def new (now : ℤ) : Authority := ⟨now, [], [], [], [], 0, [], 0, []⟩

/-! ## Sessions and their pins -/

def pinsOf (a : Authority) (o : ℕ) : List MutablePin := (a.held[o]?.map PinSession.pins).getD []

def identityOf (a : Authority) (o : ℕ) : Option TerminalIdentity :=
  a.held[o]?.map PinSession.identity

def get (a : Authority) (identity : TerminalIdentity) : Option ℕ :=
  a.sessions.find? fun o => a.identityOf o = some identity

def pinOf (a : Authority) (o : ℕ) (checkpointId : Str) : Option MutablePin :=
  (a.pinsOf o).find? (·.checkpointId = checkpointId)

def update (a : Authority) (o : ℕ) (f : PinSession → PinSession) : Authority :=
  { a with held := a.held.modify o f }

def requireSession (a : Authority) (identity : TerminalIdentity) : Except CheckpointError ℕ := do
  validateIdentity identity
  demand (a.get identity) (thrown .notFound "terminal checkpoint session is unavailable")

def remove (a : Authority) (o : ℕ) (pin : MutablePin) : Authority :=
  { a.update o fun s =>
      { s with
        pins := s.pins.filter (·.checkpointId ≠ pin.checkpointId)
        pinnedBytes := s.pinnedBytes - pin.byteLength } with
    log := a.log ++ [.ended pin.serial] }

def holder (a : Authority) (checkpointId : Str) : Option (ℕ × MutablePin) :=
  a.sessions.findSome? fun o => (a.pinOf o checkpointId).map fun pin => (o, pin)

def release (a : Authority) (checkpointId : Str) (scope : Option PartialScope) : Answer Unit :=
  if checkpointId = [] then (.ok (), a)
  else
    match a.holder checkpointId with
    | none => (.ok (), a)
    | some (o, pin) =>
      if scope.any (fun scope => !matchesScope pin scope false false) then
        (.error (thrown .forbidden "terminal checkpoint is outside its attachment boundary"), a)
      else (.ok (), a.remove o pin)

def releaseEach (a : Authority) (scope : Option PartialScope) : List MutablePin → Answer Unit
  | [] => (.ok (), a)
  | pin :: pins =>
    match a.release pin.checkpointId scope with
    | (.error e, a) => (.error e, a)
    | (.ok (), a) => releaseEach a scope pins

def expire (a : Authority) (pin : MutablePin) : Authority :=
  if pin.expiresAt ≤ a.now then
    let remembered := { a with
      expiredCheckpointIds := rememberTombstone a.expiredCheckpointIds pin.checkpointId }
    (remembered.release pin.checkpointId none).2
  else a

def cleanupExpiredSession (a : Authority) (o : ℕ) : Authority := (a.pinsOf o).foldl expire a

def cleanupExpired (a : Authority) : Authority := a.sessions.foldl cleanupExpiredSession a

/-! ## Making, binding and fetching a pin -/

def createSession (limits : Limits) (a : Authority) (identity : TerminalIdentity) : Answer Unit :=
  match validateIdentity identity with
  | .error e => (.error e, a)
  | .ok () =>
    if (a.get identity).isSome then (.ok (), a)
    else if limits.maxSessions ≤ a.sessions.length then
      (.error (thrown .limit "terminal checkpoint session limit reached"), a)
    else
      (.ok (), { a with
        held := a.held ++ [⟨identity, [], 0⟩]
        sessions := a.sessions ++ [a.held.length] })

def prepare (limits : Limits) (a : Authority) (identity : TerminalIdentity) (clientId : Str)
    (unavailable : Bool) : Answer Unit :=
  match (do
    let o ← a.requireSession identity
    validateId clientId "clientId"
    .ok o : Except CheckpointError ℕ) with
  | .error e => (.error e, a)
  | .ok o =>
    let a := a.cleanupExpiredSession o
    if unavailable = true then
      (.error (thrown .unavailable "terminal checkpoint state is unavailable"), a)
    else if limits.maxPinsPerSession ≤ (a.pinsOf o).length then
      (.error (thrown .limit "terminal checkpoint pin limit reached"), a)
    else (.ok (), { a with calls := a.calls ++ [⟨o, clientId, false⟩] })

def nextCheckpointId (a : Authority) (generated : Option Str) : Answer Str :=
  let counted := match generated with
    | some _ => a
    | none => { a with checkpointCounter := a.checkpointCounter + 1 }
  let id := generated.getD (js "terminal-checkpoint:" ++ natText counted.checkpointCounter)
  match validateId id "checkpointId" with
  | .error e => (.error e, counted)
  | .ok () =>
    if (a.holder id).isSome then
      (.error (thrown .invalid "terminal checkpoint id already exists"), counted)
    else (.ok id, counted)

def add (a : Authority) (o : ℕ) (pin : MutablePin) : Authority :=
  { a.update o fun s =>
      { s with pins := s.pins ++ [pin], pinnedBytes := s.pinnedBytes + pin.byteLength } with
    minted := a.minted + 1
    log := a.log ++ [.minted pin] }

def sizeLimit : CheckpointError := thrown .limit "terminal checkpoint size exceeds its limit"

def mint (limits : Limits) (a : Authority) (o : ℕ) (clientId : Str) (captured : Captured)
    (generated : Option Str) : Answer Unit :=
  match a.held[o]? with
  | none => (.ok (), a)
  | some s =>
    let byteLength := captured.state.length + captured.tailBytes
    if maxSafeInteger < byteLength then (.error sizeLimit, a)
    else if (limits.maxPinnedBytesPerSession : ℤ) < s.pinnedBytes + byteLength then
      (.error (thrown .limit "terminal checkpoint pinned bytes exceed their limit"), a)
    else
      match a.nextCheckpointId generated with
      | (.error e, a) => (.error e, a)
      | (.ok id, a) =>
        let expiresAt := a.now + limits.maxPinLifetimeMs
        if maxSafeInteger < expiresAt.natAbs then (.error sizeLimit, a)
        else
          (.ok (), a.add o
            { checkpointId := id
              identity := s.identity
              clientId := clientId
              captured := captured
              byteLength := byteLength
              expiresAt := expiresAt
              attachmentId := none
              consumed := false
              serial := a.minted })

def resume (limits : Limits) (a : Authority) (n : ℕ) (captured : Except CheckpointError Captured)
    (generated : Option Str) : Answer Unit :=
  match a.calls[n]? with
  | none => (.ok (), a)
  | some call =>
    if call.done then (.ok (), a)
    else
      let a := { a with calls := a.calls.set n { call with done := true } }
      match captured with
      | .error e => (.error e, a)
      | .ok captured => a.mint limits call.session call.clientId captured generated

def checkPin (a : Authority) (o : ℕ) (checkpointId : Str) (scope : Scope)
    (requireBound ignoreAttachment : Bool) : Except CheckpointError MutablePin :=
  match a.pinOf o checkpointId with
  | none =>
    if checkpointId ∈ a.expiredCheckpointIds then
      .error (thrown .expired "terminal checkpoint expired")
    else if checkpointId ∈ a.consumedCheckpointIds then
      .error (thrown .consumed "terminal checkpoint was already consumed")
    else .error (thrown .notFound "terminal checkpoint is unavailable")
  | some pin =>
    if pin.consumed then .error (thrown .consumed "terminal checkpoint was already consumed")
    else if matchesScope pin scope.toPartial requireBound ignoreAttachment then .ok pin
    else .error (thrown .forbidden "terminal checkpoint is outside its attachment boundary")

def requirePin (a : Authority) (checkpointId : Str) (scope : Scope)
    (requireBound ignoreAttachment : Bool) : Answer (ℕ × MutablePin) :=
  match (do
    validateId checkpointId "checkpointId"
    validateScope scope
    a.requireSession scope.identity : Except CheckpointError ℕ) with
  | .error e => (.error e, a)
  | .ok o =>
    let a := a.cleanupExpiredSession o
    ((a.checkPin o checkpointId scope requireBound ignoreAttachment).map fun pin => (o, pin), a)

def setPin (a : Authority) (o : ℕ) (checkpointId : Str) (f : MutablePin → MutablePin) : Authority :=
  a.update o fun s =>
    { s with pins := s.pins.map fun pin => if pin.checkpointId = checkpointId then f pin else pin }

def bind (a : Authority) (checkpointId : Str) (scope : Scope) : Answer MutablePin :=
  match a.requirePin checkpointId scope false true with
  | (.error e, a) => (.error e, a)
  | (.ok (o, pin), a) =>
    if pin.attachmentId.any (· ≠ scope.attachmentId) then
      (.error (thrown .forbidden "terminal checkpoint belongs to another attachment"), a)
    else
      let bound := fun pin : MutablePin => { pin with attachmentId := some scope.attachmentId }
      (.ok (bound pin), { a.setPin o checkpointId bound with
        log := a.log ++ [.bound pin.serial scope] })

def read (a : Authority) (checkpointId : Str) (scope : Scope) : Answer MutablePin :=
  match a.requirePin checkpointId scope true false with
  | (.error e, a) => (.error e, a)
  | (.ok (_, pin), a) => (.ok pin, a)

def consume (a : Authority) (o : ℕ) (pin : MutablePin) (scope : Scope) : Answer MutablePin :=
  let remembered := { a.setPin o pin.checkpointId fun pin => { pin with consumed := true } with
    consumedCheckpointIds := rememberTombstone a.consumedCheckpointIds pin.checkpointId }
  match remembered.release pin.checkpointId (some scope.toPartial) with
  | (.error e, a) => (.error e, a)
  | (.ok (), released) =>
    (.ok pin, { released with
      log := a.log ++ [.handed pin.serial scope a.now, .ended pin.serial] })

def fetch (a : Authority) (checkpointId : Str) (scope : Scope) : Answer MutablePin :=
  match a.requirePin checkpointId scope true false with
  | (.error e, a) => (.error e, a)
  | (.ok (o, pin), a) => a.consume o pin scope

/-! ## Releasing many pins -/

def releaseAttachmentOf (scope : Scope) (a : Authority) (o : ℕ) : Answer Unit :=
  if a.identityOf o ≠ some scope.identity then (.ok (), a)
  else a.releaseEach (some scope.toPartial) ((a.pinsOf o).filter fun pin =>
    pin.clientId = scope.clientId ∧ pin.attachmentId = some scope.attachmentId)

def releaseClientOf (clientId : Str) (a : Authority) (o : ℕ) : Answer Unit :=
  a.releaseEach none ((a.pinsOf o).filter (·.clientId = clientId))

def eachSession (f : Authority → ℕ → Answer Unit) (a : Authority) : List ℕ → Answer Unit
  | [] => (.ok (), a)
  | o :: sessions =>
    match f a o with
    | (.error e, a) => (.error e, a)
    | (.ok (), a) => eachSession f a sessions

def releaseAttachment (a : Authority) (scope : Scope) : Answer Unit :=
  eachSession (releaseAttachmentOf scope) a a.sessions

def releaseClient (a : Authority) (clientId : Str) : Answer Unit :=
  eachSession (releaseClientOf clientId) a a.sessions

def clearPins (a : Authority) (o : ℕ) : Authority :=
  { a.update o fun s => { s with pins := [] } with
    log := a.log ++ (a.pinsOf o).map fun pin => .ended pin.serial }

def closeSession (a : Authority) (identity : TerminalIdentity) : Authority :=
  match a.get identity with
  | none => a
  | some o => { a with sessions := a.sessions.erase o }.clearPins o

def rehomeSession (a : Authority) (retired identity : TerminalIdentity) : Answer Unit :=
  match validateIdentity identity with
  | .error e => (.error e, a)
  | .ok () =>
    match a.get retired with
    | none => (.ok (), a)
    | some o =>
      if (a.get identity).isSome then
        (.error (thrown .invalid "terminal checkpoint session already exists for that identity"), a)
      else
        (.ok (), { (a.clearPins o).update o fun s =>
            { s with pinnedBytes := 0, identity := identity } with
          sessions := a.sessions.erase o ++ [o] })

def close (a : Authority) : Authority :=
  a.sessions.foldl (fun a o => (a.identityOf o).elim a a.closeSession) a

end Authority

/-! ## Runs -/

inductive PinInput where
  | createSession (identity : TerminalIdentity)
  | prepare (identity : TerminalIdentity) (clientId : Str) (unavailable : Bool)
  | resume (call : ℕ) (captured : Except CheckpointError Captured) (generated : Option Str)
  | bind (checkpointId : Str) (scope : Scope)
  | read (checkpointId : Str) (scope : Scope)
  | fetch (checkpointId : Str) (scope : Scope)
  | release (checkpointId : Str) (scope : Option PartialScope)
  | releaseAttachment (scope : Scope)
  | releaseClient (clientId : Str)
  | rehomeSession (retired identity : TerminalIdentity)
  | closeSession (identity : TerminalIdentity)
  | cleanupExpired
  | session (identity : TerminalIdentity)
  | close
  | pass (ms : ℕ)

def Authority.step (limits : Limits) (a : Authority) : PinInput → Authority
  | .createSession identity => (a.createSession limits identity).2
  | .prepare identity clientId unavailable => (a.prepare limits identity clientId unavailable).2
  | .resume call captured generated => (a.resume limits call captured generated).2
  | .bind checkpointId scope => (a.bind checkpointId scope).2
  | .read checkpointId scope => (a.read checkpointId scope).2
  | .fetch checkpointId scope => (a.fetch checkpointId scope).2
  | .release checkpointId scope => (a.release checkpointId scope).2
  | .releaseAttachment scope => (a.releaseAttachment scope).2
  | .releaseClient clientId => (a.releaseClient clientId).2
  | .rehomeSession retired identity => (a.rehomeSession retired identity).2
  | .closeSession identity => a.closeSession identity
  | .cleanupExpired => a.cleanupExpired
  | .session identity => (a.get identity).elim a a.cleanupExpiredSession
  | .close => a.close
  | .pass ms => { a with now := a.now + ms }

end Terminay.Terminal.Pins
