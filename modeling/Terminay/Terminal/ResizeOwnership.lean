import Terminay.Lib.Runs
import Terminay.Terminal.InputSources

/-!
# Resize ownership

One client at a time owns the size of a terminal. A claim or an update is checked
against the recorded owner, waits for the terminal to take the new size and then
records its client as the owner. While a request waits any other call may run.
The log says what happened to each session so far; the code keeps no such log.
-/

namespace Terminay.Terminal
open Script Outcome

structure TerminalResizeRequest where
  identity : TerminalIdentity
  clientId : Str
  source : TerminalInputSource
  viewport : TerminalViewport
  mode : TerminalResizeMode
  cols : Option ℚ
  rows : Option ℚ
  leaseMs : Option ℚ
  authorization : Option TerminalAuthorization

structure ResizeOwnership where
  clientId : Str
  source : TerminalInputSource
  viewport : TerminalViewport
  cols : ℕ
  rows : ℕ
  leaseExpiresAt : ℤ
  revision : ℕ
  deriving DecidableEq

structure ResizeOptions where
  resizeLeaseMs : ℤ
  maxResizeLeaseMs : ℤ

def TerminalResizeRequest.key (request : TerminalResizeRequest) : Str := sessionKey request.identity

def invalidDimensions (message : String) : Thrown := refusal .invalidDimensions message []

def normalizeResizeRequest (request : TerminalResizeRequest) : Except Thrown Unit := do
  validateIdentity request.identity
  validateClientId request.clientId
  refuseIf (request.mode ≠ .release ∧
      (request.cols.any isSafeInteger = false ∨ request.rows.any isSafeInteger = false))
    (invalidDimensions "terminal resize dimensions are invalid")
  refuseIf (request.mode = .release ∧ (request.cols ≠ none ∨ request.rows ≠ none))
    (invalidDimensions "terminal release cannot carry dimensions")

def resizeOwnershipError (owner : ResizeOwnership) : Thrown :=
  forbidden "terminal resize is owned by another client"
    [("reason", .text (js "resize_owner")), ("actual", .text owner.clientId)]

def ownershipExpired : Thrown :=
  forbidden "terminal resize ownership has expired" [("reason", .text (js "resize_owner"))]

def contestedSize (request : TerminalResizeRequest) (owner : Option ResizeOwnership) :
    Except Thrown Unit :=
  match owner, request.mode with
  | none, .update => .error ownershipExpired
  | none, _ => .ok ()
  | some owner, _ =>
    if owner.clientId = request.clientId then .ok () else .error (resizeOwnershipError owner)

abbrev ResizeOwners := Table.Of Str ResizeOwnership

def currentOwner (owners : ResizeOwners) (key : Str) (now : ℤ) :
    Option ResizeOwnership × ResizeOwners :=
  match owners[key]? with
  | none => (none, owners)
  | some owner =>
    if owner.leaseExpiresAt ≤ now then (none, owners.erase key) else (some owner, owners)

structure PendingResize where
  request : TerminalResizeRequest
  now : ℤ
  owner : Option ResizeOwnership
  issued : ℕ

/-- How a resize call leaves its synchronous part. -/
inductive ResizeStart where
  | thrown (error : Thrown)
  | released
  | waits (owner : Option ResizeOwnership)

def startResize (owners : ResizeOwners) (request : TerminalResizeRequest)
    (snapshot : Option TerminalSessionSnapshot) (now : ℤ) : ResizeStart × ResizeOwners :=
  match (do
    normalizeResizeRequest request
    assertWritable request.identity snapshot request.authorization request.clientId) with
  | .error error => (.thrown error, owners)
  | .ok () =>
    let current := currentOwner owners request.key now
    match contestedSize request current.1 with
    | .error error => (.thrown error, current.2)
    | .ok () =>
      if request.mode = .release then (.released, current.2.erase request.key)
      else (.waits current.1, current.2)

def finishResize (options : ResizeOptions) (pending : PendingResize)
    (resized : Except Thrown (Option TerminalSessionSnapshot)) : Except Thrown ResizeOwnership := do
  let snapshot ← resized
  let snapshot ← demand snapshot (sessionNotFound pending.request.identity)
  let lease ← boundedPositive (pending.request.leaseMs.getD options.resizeLeaseMs)
    options.maxResizeLeaseMs "resize lease is out of bounds"
  .ok
    { clientId := pending.request.clientId
      source := pending.request.source
      viewport := pending.request.viewport
      cols := snapshot.dimensions.cols
      rows := snapshot.dimensions.rows
      leaseExpiresAt := pending.now + lease
      revision := (pending.owner.map ResizeOwnership.revision).getD 0 + 1 }

inductive ResizeEvent where
  | requested
  | released (key clientId : Str)
  | retired (key : Str)
  | recorded (key : Str) (owner : ResizeOwnership) (replaced : Option ResizeOwnership)
    (issued : ℕ) (now : ℤ)
  deriving DecidableEq

def ResizeEvent.Releases (key clientId : Str) : ResizeEvent → Prop
  | .released k c => k = key ∧ c = clientId
  | .retired k => k = key
  | _ => False

instance (key clientId : Str) : DecidablePred (ResizeEvent.Releases key clientId) := fun e =>
  match e with
  | .released k c => inferInstanceAs (Decidable (k = key ∧ c = clientId))
  | .retired k => inferInstanceAs (Decidable (k = key))
  | .requested => isFalse id
  | .recorded .. => isFalse id

structure ResizeAdapter where
  owners : ResizeOwners
  pending : List PendingResize
  log : List ResizeEvent

/-- A call, or the end of the wait of the request at `index`. -/
inductive ResizeInput where
  | resize (request : TerminalResizeRequest) (snapshot : Option TerminalSessionSnapshot) (now : ℤ)
  | resized (index : ℕ) (outcome : Except Thrown (Option TerminalSessionSnapshot)) (now : ℤ)
  | releaseClient (identity : TerminalIdentity) (clientId : Str)
  | releaseSession (identity : TerminalIdentity)
  | getResizeOwnership (identity : TerminalIdentity) (now : ℤ)

namespace ResizeAdapter

def initial : ResizeAdapter := ⟨∅, [], []⟩

def resize (a : ResizeAdapter) (request : TerminalResizeRequest)
    (snapshot : Option TerminalSessionSnapshot) (now : ℤ) : ResizeAdapter :=
  match startResize a.owners request snapshot now with
  | (.thrown _, owners) => { a with owners }
  | (.released, owners) =>
    { a with owners, log := a.log ++ [.released request.key request.clientId] }
  | (.waits owner, owners) =>
    { owners
      pending := a.pending ++ [⟨request, now, owner, a.log.length⟩]
      log := a.log ++ [.requested] }

def record (a : ResizeAdapter) (pending : PendingResize) (owner : ResizeOwnership) (now : ℤ) :
    ResizeAdapter :=
  let key := pending.request.key
  { a with
    owners := a.owners.insert key owner
    log := a.log ++ [.recorded key owner a.owners[key]? pending.issued now] }

def resized (options : ResizeOptions) (a : ResizeAdapter) (index : ℕ)
    (outcome : Except Thrown (Option TerminalSessionSnapshot)) (now : ℤ) : ResizeAdapter :=
  match a.pending[index]? with
  | none => a
  | some pending =>
    let rest := { a with pending := a.pending.eraseIdx index }
    match finishResize options pending outcome with
    | .error _ => rest
    | .ok owner => rest.record pending owner now

def releaseClient (a : ResizeAdapter) (identity : TerminalIdentity) (clientId : Str) :
    ResizeAdapter :=
  if isOk (validateClientId clientId) then
    let key := sessionKey identity
    let owned := a.owners[key]?.any fun owner => owner.clientId = clientId
    { a with
      owners := if owned then a.owners.erase key else a.owners
      log := a.log ++ [.released key clientId] }
  else a

def releaseSession (a : ResizeAdapter) (identity : TerminalIdentity) : ResizeAdapter :=
  { a with
    owners := a.owners.erase (sessionKey identity)
    log := a.log ++ [.retired (sessionKey identity)] }

def getResizeOwnership (a : ResizeAdapter) (identity : TerminalIdentity) (now : ℤ) :
    ResizeAdapter :=
  { a with owners := (currentOwner a.owners (sessionKey identity) now).2 }

def step (options : ResizeOptions) (a : ResizeAdapter) : ResizeInput → ResizeAdapter
  | .resize request snapshot now => a.resize request snapshot now
  | .resized index outcome now => a.resized options index outcome now
  | .releaseClient identity clientId => a.releaseClient identity clientId
  | .releaseSession identity => a.releaseSession identity
  | .getResizeOwnership identity now => a.getResizeOwnership identity now

end ResizeAdapter

end Terminay.Terminal
