import Terminay.Lib.Entries
import Terminay.Lib.Runs
import Terminay.Protocol.Fingerprint

/-!
# The operation dispatcher

A connection's command ledger remembers the outcome of every command id it has
room for. The first request with an id executes; the others join it and wait for
its result. Handlers, timers and signals settle a call in any order.
-/

namespace Terminay.Protocol.Dispatch
open Script Workspace Outcome

section Errors

inductive AuthScope where | none | read | write | admin
  deriving DecidableEq

def AuthScope.rank : AuthScope → ℕ
  | .none => 0
  | .read => 1
  | .write => 2
  | .admin => 3

def AuthScope.name : AuthScope → String
  | .none => "none"
  | .read => "read"
  | .write => "write"
  | .admin => "admin"

def scopeAllows (actual required : AuthScope) : Bool := required.rank ≤ actual.rank

inductive Code where
  | validation | unauthorized | forbidden | notFound | conflict | cancelled | deadline | resource
  | unavailable | incompatible | internal
  deriving DecidableEq

def Code.name : Code → String
  | .validation => "validation"
  | .unauthorized => "unauthorized"
  | .forbidden => "forbidden"
  | .notFound => "not_found"
  | .conflict => "conflict"
  | .cancelled => "cancelled"
  | .deadline => "deadline"
  | .resource => "resource"
  | .unavailable => "unavailable"
  | .incompatible => "incompatible"
  | .internal => "internal"

structure OperationError (ν : Type) where
  code : Code
  message : Str
  details : Option (Json ν)
  retryable : Option Bool
  supportedMin : Option (Json ν)
  supportedMax : Option (Json ν)

variable {ν τ : Type}

def plainError (code : Code) (message : Str) (retryable : Bool) : OperationError ν :=
  ⟨code, message, none, some retryable, none, none⟩

def resourceError (message : String) : OperationError ν := plainError .resource (js message) true

def cancelledError : OperationError ν := plainError .cancelled (js "operation cancelled") true

def deadlineError : OperationError ν :=
  plainError .deadline (js "operation deadline exceeded") true

def forbiddenError (operation : Str) (required : AuthScope) : OperationError ν :=
  plainError .forbidden
    (js "operation " ++ operation ++ js " requires " ++ js required.name ++ js " scope") false

def unknownOperationError (operation : Str) : OperationError ν :=
  plainError .notFound (js "unknown operation " ++ operation) false

/-- What a handler or its invocation throws: a protocol error, or anything else. -/
inductive Thrown (ν τ : Type) where
  | protocol (error : OperationError ν)
  | other (error : τ)

def dispatchError (service : τ → Option (OperationError ν)) (error : Thrown ν τ)
    (fallback : String) : OperationError ν :=
  match error with
  | .protocol error => { error with message := error.message.take 4096 }
  | .other error => (service error).getD (plainError .internal (js fallback) false)

def OperationError.json (e : OperationError ν) : Json ν :=
  .obj ([(js "code", .str (js e.code.name)), (js "message", .str e.message)] ++
    (e.details.map fun j => (js "details", j)).toList ++
    (e.retryable.map fun b => (js "retryable", .bool b)).toList ++
    (e.supportedMin.map fun j => (js "supportedMin", j)).toList ++
    (e.supportedMax.map fun j => (js "supportedMax", j)).toList)

end Errors

section Results

variable {ν : Type}

inductive CommandOutcome (ν : Type) where
  | succeeded (result revision : Option (Json ν))
  | failed (error : OperationError ν)

structure CommandResult (ν : Type) where
  commandId : ProtocolId
  correlationId : ProtocolId
  outcome : CommandOutcome ν

def CommandOutcome.fields : CommandOutcome ν → List (Str × Json ν)
  | .succeeded result revision =>
    (js "ok", .bool true) :: ((result.map fun j => (js "result", j)).toList ++
      (revision.map fun j => (js "revision", j)).toList)
  | .failed error => [(js "ok", .bool false), (js "error", error.json)]

def CommandResult.json (r : CommandResult ν) : Json ν :=
  .obj ([(js "type", .str (js "command_result")), (js "commandId", .str r.commandId),
    (js "correlationId", .str r.correlationId)] ++ r.outcome.fields)

def handlerOutcome (value : Json ν) : CommandOutcome ν :=
  match value.object? with
  | some fields =>
    if fields.at "result" ≠ none ∨ fields.at "revision" ≠ none then
      .succeeded (fields.at "result") (fields.at "revision")
    else .succeeded (some value) none
  | none => .succeeded (some value) none

def invalidResult : CommandOutcome ν :=
  .failed (plainError .validation (js "command returned an invalid result") false)

def checkedResult [Engine ν] (result : CommandResult ν) : CommandResult ν :=
  if isOk (validateEnvelope result.json) then result else { result with outcome := invalidResult }

end Results

def maxDispatchers : ℕ := 256
def maxCommandOutcomes : ℕ := 4096
def maxPendingCommands : ℕ := 64

variable {ν τ : Type} [Engine ν]

structure Options (ν τ : Type) where
  hasCommand : Str → Bool
  commandScope : Str → Option AuthScope
  maxBodyBytes : ℕ
  sha256 : Bytes → Str
  serviceError : τ → Option (OperationError ν)

/-- A request as the dispatcher is given it; `aborted` is its signal at that moment. -/
structure CommandRequest (ν : Type) [Engine ν] where
  connectionId : ProtocolId
  clientId : Str
  authScope : AuthScope
  deadline : Option ν
  aborted : Bool
  commandId : ProtocolId
  correlationId : ProtocolId
  contents : CommandContents ν

namespace CommandRequest

def validateRequestContext (r : CommandRequest ν) : Checked Unit := do
  refuseIf (idPattern r.clientId = false) (js "invalid authenticated client id")
  refuseIf ((r.deadline.all fun d => (safeInteger? d).any fun z => decide (0 ≤ z)) = false)
    (js "invalid request deadline")

def remaining (r : CommandRequest ν) (now : ℤ) : Option ℤ :=
  (r.deadline.bind safeInteger?).map fun z => z - now

def stopped (r : CommandRequest ν) (now : ℤ) : Option (OperationError ν) :=
  if r.aborted then some cancelledError
  else if (r.remaining now).any fun left => decide (left ≤ 0) then some deadlineError
  else none

def result (r : CommandRequest ν) (outcome : CommandOutcome ν) : CommandResult ν :=
  ⟨r.commandId, r.correlationId, outcome⟩

end CommandRequest

/-! ## Ledgers, entries and calls -/

/-- One execution of a command. Its ledger, its request and the call it runs for are what the
closures of the source hold. -/
structure CommandEntry (ν : Type) [Engine ν] where
  fingerprint : Str
  result : Option (CommandResult ν)
  ledger : ℕ
  request : CommandRequest ν
  owner : ℕ

/-- The entries of a connection by their command ids; `connectionId` is its key. -/
structure Ledger where
  connectionId : ProtocolId
  entries : List (ProtocolId × ℕ)
  pending : ℕ

inductive Role where
  | refused
  | waits (entry : ℕ)
  | executes (entry : ℕ)
  deriving DecidableEq

inductive Progress (ν : Type) where
  | running (stopped : Option (OperationError ν))
  | answered (envelope : CommandResult ν) (executed : Bool)
  | thrown (message : Str)

/-- A call of `commandWithOutcome`. -/
structure Call (ν : Type) [Engine ν] where
  request : CommandRequest ν
  role : Role
  progress : Progress ν

/-- `ledgers` and `entries` are the objects ever made, `found` the ledgers still found by their
connections; `runs` names the entries whose handlers were called, in order. -/
structure State (ν : Type) [Engine ν] where
  found : List (ProtocolId × ℕ)
  ledgers : List Ledger
  entries : List (CommandEntry ν)
  calls : List (Call ν)
  runs : List ℕ

def resolved (entries : List (CommandEntry ν)) (e : ℕ) : Bool :=
  (entries[e]?).any fun x => x.result.isSome

namespace State

def ledger (s : State ν) (l : ℕ) : Ledger := (s.ledgers[l]?).getD ⟨[], [], 0⟩

def call (s : State ν) (r : CommandRequest ν) (role : Role) (progress : Progress ν) : State ν :=
  { s with calls := s.calls ++ [⟨r, role, progress⟩] }

def refused (s : State ν) (r : CommandRequest ν) (error : OperationError ν) : State ν :=
  s.call r .refused (.answered (r.result (.failed error)) false)

def answer (s : State ν) (n : ℕ) (c : Call ν) (envelope : CommandResult ν) (executed : Bool) :
    State ν :=
  { s with calls := s.calls.set n { c with progress := .answered envelope executed } }

/-- The ledger of a connection, made on its first command; the oldest ledger without a pending
command goes when there are too many. -/
def openLedger (s : State ν) (connectionId : ProtocolId) : Option (State ν × ℕ) :=
  match Entries.get s.found connectionId with
  | some l => some (s, l)
  | none =>
    let made (found : List (ProtocolId × ℕ)) : State ν × ℕ :=
      ({ s with
          found := Entries.set found connectionId s.ledgers.length
          ledgers := s.ledgers ++ [⟨connectionId, [], 0⟩] }, s.ledgers.length)
    if maxDispatchers ≤ s.found.length then
      (s.found.find? fun e => (s.ledger e.2).pending == 0).map fun e => made (Entries.delete s.found e.1)
    else some (made s.found)

def room (s : State ν) (entries : List (ProtocolId × ℕ)) : Option (List (ProtocolId × ℕ)) :=
  if maxCommandOutcomes ≤ entries.length then
    (entries.find? fun e => resolved s.entries e.2).map fun e => Entries.delete entries e.1
  else some entries

def finish (s : State ν) (n : ℕ) (c : Call ν) (e : ℕ) (outcome : CommandOutcome ν) : State ν :=
  match s.entries[e]? with
  | none => s
  | some x =>
    let result := checkedResult (c.request.result outcome)
    let ledger := s.ledger x.ledger
    { s.answer n c result true with
      entries := s.entries.set e { x with result := some result }
      ledgers := s.ledgers.set x.ledger { ledger with pending := ledger.pending - 1 } }

end State

variable (o : Options ν τ)

def join (s : State ν) (r : CommandRequest ν) (now : ℤ) (fingerprint : Str) (e : ℕ) : State ν :=
  match s.entries[e]? with
  | none => s
  | some x =>
    if x.fingerprint ≠ fingerprint then
      s.refused r
        (plainError .conflict (js "command identity was reused with different contents") false)
    else
      match x.result with
      | some result =>
        s.call r (.waits e) (.answered { result with correlationId := r.correlationId } false)
      | none => s.call r (.waits e) (.running (r.stopped now))

def refusal (r : CommandRequest ν) : Option (OperationError ν) :=
  if o.hasCommand r.contents.operation = false then
    some (unknownOperationError r.contents.operation)
  else
    match o.commandScope r.contents.operation with
    | some required =>
      if scopeAllows r.authScope required then none
      else some (forbiddenError r.contents.operation required)
    | none => none

def State.enter (s : State ν) (r : CommandRequest ν) (now : ℤ) (fingerprint : Str) (l : ℕ)
    (entries : List (ProtocolId × ℕ)) : State ν :=
  let e := s.entries.length
  let ledger := s.ledger l
  { s.call r (.executes e) (.running (r.stopped now)) with
    entries := s.entries ++ [⟨fingerprint, none, l, r, s.calls.length⟩]
    ledgers := s.ledgers.set l
      { ledger with entries := Entries.set entries r.commandId e, pending := ledger.pending + 1 } }

def execute (s : State ν) (r : CommandRequest ν) (now : ℤ) (fingerprint : Str) (l : ℕ)
    (entries : List (ProtocolId × ℕ)) : State ν :=
  let e := s.entries.length
  let entered := s.enter r now fingerprint l entries
  match refusal o r with
  | some error =>
    entered.finish s.calls.length ⟨r, .executes e, .running (r.stopped now)⟩ e (.failed error)
  | none => if (r.stopped now).isNone then { entered with runs := s.runs ++ [e] } else entered

def admitNew (s : State ν) (r : CommandRequest ν) (now : ℤ) (fingerprint : Str) (l : ℕ) : State ν :=
  if maxPendingCommands ≤ (s.ledger l).pending then
    s.refused r (resourceError "in-flight command limit reached")
  else
    match s.room (s.ledger l).entries with
    | none => s.refused r (resourceError "command outcome capacity reached")
    | some entries => execute o s r now fingerprint l entries

def admitInto (s : State ν) (r : CommandRequest ν) (now : ℤ) (l : ℕ) : State ν :=
  match r.contents.fingerprint o.sha256 with
  | .error message => s.call r .refused (.thrown message)
  | .ok fingerprint =>
    match Entries.get (s.ledger l).entries r.commandId with
    | some e => join s r now fingerprint e
    | none => admitNew o s r now fingerprint l

def commandWithOutcome (s : State ν) (r : CommandRequest ν) (now : ℤ) : State ν :=
  match r.validateRequestContext with
  | .error message => s.call r .refused (.thrown message)
  | .ok () =>
    if o.maxBodyBytes < r.contents.body.length then
      s.refused r (resourceError "command body exceeds the server limit")
    else
      match s.openLedger r.connectionId with
      | none => s.refused r (resourceError "command ledger capacity reached")
      | some (s, l) => admitInto o s r now l

inductive Interruption where | cancelled | deadline
  deriving DecidableEq

def Interruption.error : Interruption → OperationError ν
  | .cancelled => cancelledError
  | .deadline => deadlineError

/-- What can happen to the dispatcher: a request, a handler that ends, a call's signal or
timer, and a call that goes on after what it waited for. -/
inductive Input (ν τ : Type) [Engine ν] where
  | request (r : CommandRequest ν) (now : ℤ)
  | completed (n : ℕ) (outcome : Except (Thrown ν τ) (Json ν))
  | interrupted (n : ℕ) (reason : Interruption)
  | resumed (n : ℕ)

def Interruption.reaches (reason : Interruption) (r : CommandRequest ν) : Bool :=
  reason == .cancelled || r.deadline.isSome

def settled (outcome : Except (Thrown ν τ) (Json ν)) : CommandOutcome ν :=
  match outcome with
  | .ok value => handlerOutcome value
  | .error error => .failed (dispatchError o.serviceError error "command failed")

def State.stop (s : State ν) (n : ℕ) (c : Call ν) (error : OperationError ν) : State ν :=
  match c.role with
  | .executes e =>
    s.finish n c e (.failed (dispatchError o.serviceError (.protocol error) "command failed"))
  | .waits _ =>
    s.answer n c (c.request.result
      (.failed (dispatchError o.serviceError (.protocol error) "command wait failed"))) false
  | .refused => s

def complete (s : State ν) (n : ℕ) (outcome : Except (Thrown ν τ) (Json ν)) : State ν :=
  match s.calls[n]? with
  | some c =>
    match c.role, c.progress with
    | .executes e, .running none => s.finish n c e (settled o outcome)
    | _, _ => s
  | none => s

def interrupt (s : State ν) (n : ℕ) (reason : Interruption) : State ν :=
  match s.calls[n]? with
  | some c =>
    match c.progress with
    | .running none => if reason.reaches c.request then s.stop o n c reason.error else s
    | _ => s
  | none => s

def resume (s : State ν) (n : ℕ) : State ν :=
  match s.calls[n]? with
  | some c =>
    match c.progress with
    | .running (some error) => s.stop o n c error
    | .running none =>
      match c.role with
      | .waits e =>
        match (s.entries[e]?).bind CommandEntry.result with
        | some result =>
          s.answer n c { result with correlationId := c.request.correlationId } false
        | none => s
      | _ => s
    | _ => s
  | none => s

def step (s : State ν) : Input ν τ → State ν
  | .request r now => commandWithOutcome o s r now
  | .completed n outcome => complete o s n outcome
  | .interrupted n reason => interrupt o s n reason
  | .resumed n => resume o s n

def initial : State ν := ⟨[], [], [], [], []⟩

end Terminay.Protocol.Dispatch
