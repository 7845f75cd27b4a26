import Terminay.Client.Subscription

/-!
# The connection of a client

Requests pass an admission queue, wait for the transport to take their frame and
then for their answer. Connection attempts, the reader, event subscriptions and
`close` publish the state of one connection; every `await` of the client is an
input of its own.
-/

namespace Terminay.Client
open Script Workspace

def maxOutstandingRequests : ℕ := 128
def maxWaitingRequests : ℕ := 4096
def defaultMaxQueuedBytes : ℕ := 16 * 1024 * 1024

/-- `granted` and `refused` number the requests whose wait has been answered. -/
structure RequestAdmission where
  outstanding : ℕ
  outstandingBytes : ℕ
  waiting : List (ℕ × ℕ)
  granted : List ℕ
  refused : List ℕ

namespace RequestAdmission

def canAdmit (a : RequestAdmission) (budget bytes : ℕ) : Prop :=
  a.outstanding < maxOutstandingRequests ∧ a.outstandingBytes + bytes ≤ budget

instance (a : RequestAdmission) (budget bytes : ℕ) : Decidable (a.canAdmit budget bytes) :=
  inferInstanceAs (Decidable (_ ∧ _))

def waitingBytes (a : RequestAdmission) : ℕ := (a.waiting.map Prod.snd).sum

def reserve (a : RequestAdmission) (n bytes : ℕ) : RequestAdmission :=
  { a with
    outstanding := a.outstanding + 1
    outstandingBytes := a.outstandingBytes + bytes
    granted := a.granted ++ [n] }

def refuse (a : RequestAdmission) (n : ℕ) : RequestAdmission :=
  { a with refused := a.refused ++ [n] }

def acquire (a : RequestAdmission) (budget n bytes : ℕ) (expired : Bool) : RequestAdmission :=
  if expired = true ∨ budget < bytes then a.refuse n
  else if a.waiting = [] ∧ a.canAdmit budget bytes then a.reserve n bytes
  else if maxWaitingRequests ≤ a.waiting.length ∨ budget < a.waitingBytes + bytes then a.refuse n
  else { a with waiting := a.waiting ++ [(n, bytes)] }

def drainFrom (budget : ℕ) : List (ℕ × ℕ) → RequestAdmission → RequestAdmission
  | [], a => { a with waiting := [] }
  | (n, bytes) :: rest, a =>
    if a.canAdmit budget bytes then drainFrom budget rest (a.reserve n bytes)
    else { a with waiting := (n, bytes) :: rest }

def drain (a : RequestAdmission) (budget : ℕ) : RequestAdmission := drainFrom budget a.waiting a

def release (a : RequestAdmission) (budget bytes : ℕ) : RequestAdmission :=
  drain { a with
    outstanding := a.outstanding - 1
    outstandingBytes := a.outstandingBytes - bytes } budget

def remove (a : RequestAdmission) (budget n : ℕ) : RequestAdmission :=
  drain { a with waiting := a.waiting.filter fun entry => entry.1 ≠ n } budget

def clear (a : RequestAdmission) : RequestAdmission :=
  { a with waiting := [], refused := a.refused ++ a.waiting.map Prod.fst }

end RequestAdmission

inductive ConnectionState where
  | idle | connecting | connected | reconnecting | stale | closing | closed | failed
  deriving DecidableEq

structure ServerHello where
  maxQueuedBytes : Option ℕ

structure ConnectionSnapshot where
  state : ConnectionState
  revision : ℤ
  cursor : Str
  stale : Bool
  server : Option ServerHello

structure Patch where
  revision : Option ℤ := none
  cursor : Option Str := none
  stale : Option Bool := none
  server : Option ServerHello := none

inductive ConnectPhase where
  | opening | sending | awaiting | ended
  deriving DecidableEq

structure ConnectAttempt where
  phase : ConnectPhase
  answer : Option (Option ServerHello)

/-- What awaits the promise of a request. -/
inductive Purpose where
  | caller
  | resync
  | subscription (n : ℕ)
  deriving DecidableEq

inductive Progress where
  | queued | sending | awaiting | resyncing | ended
  deriving DecidableEq

/-- `reply` settles the promise that the reader completes, `settled` counts the settlements of
the promise that the caller holds. -/
structure Request where
  key : ProtocolId
  bytes : ℕ
  ping : Bool
  purpose : Purpose
  progress : Progress
  reply : Option Bool
  settled : ℕ

structure RequestCall where
  key : ProtocolId
  bytes : ℕ
  ping : Bool
  expired : Bool

/-- `accepted` counts the requests whose frame was given to the transport. -/
structure TerminayClient (ν : Type) where
  limit : Option ℕ
  current : ConnectionSnapshot
  closed : Bool
  readerStarted : Bool
  readerEnded : Bool
  handshake : Option ℕ
  connects : List ConnectAttempt
  admission : RequestAdmission
  requests : List Request
  pending : List (ProtocolId × ℕ)
  subscriptions : Subscriptions ν
  closers : ℕ
  accepted : ℕ

inductive ServerFrame (ν : Type) where
  | serverHello (server : ServerHello)
  | incompatibleVersion
  | result (key : ProtocolId) (ok : Bool)
  | error (correlationId : Option ProtocolId)
  | event (subscriptionId : ProtocolId) (e : ClientEvent ν)
  | eventResync (subscriptionId : ProtocolId) (r : ClientSubscriptionResync ν)

variable {ν : Type}

def isTransientTerminalEvent (e : ClientEvent ν) : Bool :=
  decide (e.event = js "terminal") &&
    match e.payload.object? with
    | some fields =>
      match fields.at "type" with
      | some (.str type) => decide (type = js "output" ∨ type = js "resync_required")
      | _ => false
    | none => false

namespace ConnectAttempt

def settle (c : ConnectAttempt) (answer : Option ServerHello) : ConnectAttempt :=
  { c with answer := some (c.answer.getD answer) }

end ConnectAttempt

namespace Request

def settle (r : Request) (ok : Bool) : Request := { r with reply := some (r.reply.getD ok) }

def finish (r : Request) (ok : Bool) : Request :=
  if ok = true ∧ r.purpose = .resync then { r with progress := .resyncing }
  else { r with progress := .ended, settled := r.settled + 1 }

end Request

namespace TerminayClient

def created (limit : Option ℕ) (initialWatermark : Option ℕ) : TerminayClient ν where
  limit := limit
  current := ⟨.idle, initialWatermark.getD 0, natText (initialWatermark.getD 0),
    initialWatermark.isSome, none⟩
  closed := false
  readerStarted := false
  readerEnded := false
  handshake := none
  connects := []
  admission := ⟨0, 0, [], [], []⟩
  requests := []
  pending := []
  subscriptions := noSubscriptions
  closers := 0
  accepted := 0

def byteBudget (s : TerminayClient ν) : ℕ :=
  min (s.limit.getD defaultMaxQueuedBytes)
    ((s.current.server.bind ServerHello.maxQueuedBytes).getD defaultMaxQueuedBytes)

def setState (s : TerminayClient ν) (state : ConnectionState) (patch : Patch) : TerminayClient ν :=
  { s with
    current :=
      { state := state
        revision := patch.revision.getD s.current.revision
        cursor := patch.cursor.getD s.current.cursor
        stale := patch.stale.getD (decide (state ≠ .connected) && s.current.stale)
        server := patch.server.or s.current.server } }

def settleHandshake (s : TerminayClient ν) (answer : Option ServerHello) : TerminayClient ν :=
  match s.handshake with
  | some n => { s with connects := s.connects.modify n fun c => c.settle answer }
  | none => s

def settlePending (s : TerminayClient ν) (key : ProtocolId) (ok : Bool) : TerminayClient ν :=
  match Entries.get s.pending key with
  | some n => { s with requests := s.requests.modify n fun r => r.settle ok }
  | none => s

def disconnect (s : TerminayClient ν) : TerminayClient ν :=
  { s with
    admission := s.admission.clear
    requests := s.requests.mapIdx fun n r =>
      if n ∈ s.pending.map Prod.snd then r.settle false else r
    pending := []
    subscriptions := s.subscriptions.step .disconnected }

def subscribed (s : TerminayClient ν) (purpose : Purpose) (ok : Bool) : Subscriptions ν :=
  match purpose with
  | .subscription n => s.subscriptions.step (if ok then .subscribed n else .failed n)
  | _ => s.subscriptions

def finish (s : TerminayClient ν) (n : ℕ) (r : Request) (ok : Bool) : TerminayClient ν :=
  { s with
    requests := s.requests.set n (r.finish ok)
    subscriptions := s.subscribed r.purpose ok }

def release (s : TerminayClient ν) (r : Request) : TerminayClient ν :=
  if r.ping = true then s else { s with admission := s.admission.release s.byteBudget r.bytes }

def sendPreparedRequest (s : TerminayClient ν) (n : ℕ) (r : Request) : TerminayClient ν :=
  { s with
    requests := s.requests.set n { r with progress := .sending }
    pending := Entries.set s.pending r.key n
    accepted := s.accepted + 1 }

def conclude (s : TerminayClient ν) (n : ℕ) (r : Request) (ok : Bool) : TerminayClient ν :=
  let forgotten : TerminayClient ν := { s with pending := Entries.delete s.pending r.key }
  (forgotten.release r).finish n r ok

def admitted (s : TerminayClient ν) (n : ℕ) (r : Request) (expired : Bool) : TerminayClient ν :=
  if n ∈ s.admission.granted then
    if s.closed = true ∨ s.current.state ≠ .connected ∨ expired = true then
      (s.release r).finish n r false
    else s.sendPreparedRequest n r
  else if n ∈ s.admission.refused then s.finish n r false
  else s

def sendRequest (s : TerminayClient ν) (purpose : Purpose) (call : RequestCall) :
    TerminayClient ν :=
  let n := s.requests.length
  let r : Request := ⟨call.key, call.bytes, call.ping, purpose, .queued, none, 0⟩
  if call.ping = true then
    ({ s with requests := s.requests ++ [r] } : TerminayClient ν).sendPreparedRequest n r
  else
    let admission := s.admission.acquire s.byteBudget n call.bytes call.expired
    let queued : TerminayClient ν :=
      { s with requests := s.requests ++ [r], admission := admission }
    if n ∈ admission.granted then queued.admitted n r false else queued

/-- `query`, `command` and `resync`. -/
def request (s : TerminayClient ν) (purpose : Purpose) (call : RequestCall) : TerminayClient ν :=
  if s.current.state = .connected then s.sendRequest purpose call else s

def subscribe (s : TerminayClient ν) (subscriptionId : ProtocolId) (command : Option RequestCall) :
    TerminayClient ν :=
  if s.current.state = .connected then
    let n := s.subscriptions.all.length
    let reserved : TerminayClient ν :=
      { s with subscriptions := s.subscriptions.step (.subscribe subscriptionId) }
    match command with
    | some call => reserved.sendRequest (.subscription n) call
    | none => { reserved with subscriptions := reserved.subscriptions.step (.subscribed n) }
  else s

def connect (s : TerminayClient ν) : TerminayClient ν :=
  if s.current.state = .connected ∧ s.current.server.isSome = true then s
  else if s.closed = true then s
  else
    let started : TerminayClient ν := { s with connects := s.connects ++ [⟨.opening, none⟩] }
    started.setState .connecting {}

def setConnect (s : TerminayClient ν) (n : ℕ) (c : ConnectAttempt) : TerminayClient ν :=
  { s with connects := s.connects.set n c }

def opened (s : TerminayClient ν) (n : ℕ) (c : ConnectAttempt) (ok : Bool) : TerminayClient ν :=
  if ok = true then
    { s.setConnect n ⟨.sending, none⟩ with readerStarted := true, handshake := some n }
  else s.setConnect n { c with phase := .ended }

def connectFailed (s : TerminayClient ν) (n : ℕ) (c : ConnectAttempt) : TerminayClient ν :=
  let ended : TerminayClient ν :=
    { s.setConnect n { c with phase := .ended } with handshake := none }
  ended.setState .failed {}

def handshaken (s : TerminayClient ν) (n : ℕ) (c : ConnectAttempt) (versionOk : Bool) :
    TerminayClient ν :=
  match c.answer with
  | some (some server) =>
    if versionOk = true then
      (s.setConnect n { c with phase := .ended }).setState .connected { server := some server }
    else s.connectFailed n c
  | some none => s.connectFailed n c
  | none => s

def process (s : TerminayClient ν) : ServerFrame ν → TerminayClient ν
  | .serverHello server => { s.settleHandshake (some server) with handshake := none }
  | .incompatibleVersion => { s.settleHandshake none with handshake := none }
  | .result key ok => s.settlePending key ok
  | .error (some correlationId) => s.settlePending correlationId false
  | .error none => s
  | .event subscriptionId e =>
    let current := if isTransientTerminalEvent e = true then s
      else s.setState .connected { revision := some e.revision, cursor := some e.cursor }
    { current with subscriptions := s.subscriptions.step (.event subscriptionId e) }
  | .eventResync subscriptionId r =>
    if (Entries.get s.subscriptions.routes subscriptionId).isSome = true then
      { s.setState .connected
          { revision := some r.revision, cursor := some r.cursor, stale := some true } with
        subscriptions := s.subscriptions.step (.resync subscriptionId r) }
    else s

def failDisconnected (s : TerminayClient ν) : TerminayClient ν :=
  ({ s.disconnect.settleHandshake none with handshake := none } : TerminayClient ν).setState .stale
    { stale := some true }

def readerEnds (s : TerminayClient ν) : TerminayClient ν :=
  let ended : TerminayClient ν := { s with readerEnded := true }
  if s.closed = true then ended else ended.failDisconnected

def close (s : TerminayClient ν) : TerminayClient ν :=
  let closing : TerminayClient ν := { s with closed := true, closers := s.closers + 1 }
  (closing.setState .closing {}).disconnect.settleHandshake none

def transportClosed (s : TerminayClient ν) (ok : Bool) : TerminayClient ν :=
  let waited : TerminayClient ν := { s with closers := s.closers - 1 }
  if ok = true then waited.setState .closed {} else waited

end TerminayClient

inductive ClientInput (ν : Type) where
  | connect
  | opened (n : ℕ) (ok : Bool)
  | helloSent (n : ℕ) (ok : Bool)
  | handshaken (n : ℕ) (versionOk : Bool)
  | connectAborted (n : ℕ)
  | request (call : RequestCall)
  | resync (call : RequestCall)
  | subscribe (subscriptionId : ProtocolId) (command : Option RequestCall)
  | unsubscribe (n : ℕ)
  | onEvent (n listener : ℕ)
  | onResync (n listener : ℕ)
  | admitted (n : ℕ) (expired : Bool)
  | sent (n : ℕ) (ok : Bool)
  | replied (n : ℕ)
  | aborted (n : ℕ)
  | resynced (n : ℕ) (answer : Option (ℤ × Str))
  | frame (f : ServerFrame ν)
  | readerEnded
  | close
  | transportClosed (ok : Bool)

namespace TerminayClient

def onConnect (s : TerminayClient ν) (n : ℕ) (phase : ConnectPhase)
    (f : ConnectAttempt → TerminayClient ν) : TerminayClient ν :=
  match s.connects[n]? with
  | some c => if c.phase = phase then f c else s
  | none => s

def onRequest (s : TerminayClient ν) (n : ℕ) (progress : Progress)
    (f : Request → TerminayClient ν) : TerminayClient ν :=
  match s.requests[n]? with
  | some r => if r.progress = progress then f r else s
  | none => s

def abortConnect (s : TerminayClient ν) (n : ℕ) : TerminayClient ν :=
  match s.connects[n]? with
  | some c =>
    match c.phase with
    | .opening => s.setConnect n { c with phase := .ended }
    | .awaiting => s.connectFailed n c
    | _ => s
  | none => s

def abortRequest (s : TerminayClient ν) (n : ℕ) : TerminayClient ν :=
  match s.requests[n]? with
  | some r =>
    match r.progress with
    | .queued =>
      if n ∈ s.admission.waiting.map Prod.fst then
        ({ s with admission := s.admission.remove s.byteBudget n } : TerminayClient ν).finish n r false
      else s
    | .sending | .awaiting => s.conclude n r false
    | _ => s
  | none => s

def resynced (s : TerminayClient ν) (n : ℕ) (r : Request) (answer : Option (ℤ × Str)) :
    TerminayClient ν :=
  let ended : TerminayClient ν :=
    { s with requests := s.requests.set n { r with progress := .ended, settled := r.settled + 1 } }
  match answer with
  | some (revision, cursor) =>
    ended.setState .connected
      { revision := some revision, cursor := some cursor, stale := some false }
  | none => ended

def replied (s : TerminayClient ν) (n : ℕ) (r : Request) : TerminayClient ν :=
  match r.reply with
  | some ok => s.conclude n r ok
  | none => s

def step (s : TerminayClient ν) : ClientInput ν → TerminayClient ν
  | .connect => s.connect
  | .opened n ok => s.onConnect n .opening fun c => s.opened n c ok
  | .helloSent n ok => s.onConnect n .sending fun c =>
      if ok = true then s.setConnect n { c with phase := .awaiting } else s.connectFailed n c
  | .handshaken n versionOk => s.onConnect n .awaiting fun c => s.handshaken n c versionOk
  | .connectAborted n => s.abortConnect n
  | .request call => s.request .caller call
  | .resync call => s.request .resync call
  | .subscribe subscriptionId command => s.subscribe subscriptionId command
  | .unsubscribe n => { s with subscriptions := s.subscriptions.step (.failed n) }
  | .onEvent n listener => { s with subscriptions := s.subscriptions.step (.onEvent n listener) }
  | .onResync n listener => { s with subscriptions := s.subscriptions.step (.onResync n listener) }
  | .admitted n expired => s.onRequest n .queued fun r => s.admitted n r expired
  | .sent n ok => s.onRequest n .sending fun r =>
      if ok = true then { s with requests := s.requests.set n { r with progress := .awaiting } }
      else s.conclude n r false
  | .replied n => s.onRequest n .awaiting fun r => s.replied n r
  | .aborted n => s.abortRequest n
  | .resynced n answer => s.onRequest n .resyncing fun r => s.resynced n r answer
  | .frame f => if s.readerStarted = true ∧ s.readerEnded = false then s.process f else s
  | .readerEnded => if s.readerStarted = true ∧ s.readerEnded = false then s.readerEnds else s
  | .close => s.close
  | .transportClosed ok => if 0 < s.closers then s.transportClosed ok else s

end TerminayClient

end Terminay.Client
