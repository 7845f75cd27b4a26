import Terminay.Client.TerminalEvents

/-!
# Attachments of a terminal client

An attachment subscribes before it attaches and queues what arrives until the answer
is there. The answer brings a first replay or names a checkpoint to fetch. Events
wait as initial events until a display listens.
-/

namespace Terminay.Client
open Script Workspace Outcome
open Terminal (TerminalIdentity TerminalDimensions)

variable {ν : Type}

def maxTerminalHydrationQueueBytes : ℕ := 4 * 1024 * 1024

structure TerminalClientAttachRequest where
  identity : TerminalIdentity
  clientId : Str
  freshPresentation : Bool
  fromPosition : ℕ
  fresh : freshPresentation = true → fromPosition = 0

structure TerminalAttachResult (ν : Type) where
  attachmentId : Str
  fromPosition : ℤ
  position : ℤ
  events : List (Json ν)
  presentation : Option (Json ν)
  checkpoint : Option (Json ν)

/-- `requesting` until the attach is answered, `hydrating` while a checkpoint is fetched. -/
inductive AttachPhase where
  | requesting | hydrating | opened | failed
  deriving DecidableEq

structure Display (ν : Type) where
  listener : ℕ
  seen : List (TerminalStreamEvent ν)

/-- `opening` is where the shown events start and `acted` those the attachment took up.
`delivered` counts the events that went to listeners, `left` keeps the displays that left, and
`thrown` counts the events that made the attachment throw. -/
structure MutableAttachment (ν : Type) where
  phase : AttachPhase
  pendingSubscriptionEvents : List (ClientEvent ν)
  pendingSubscriptionBytes : ℕ
  pendingSubscriptionFailure : Bool
  id : Str
  checkpoint : Option TerminalPresentationCheckpointMetadata
  position : ℕ
  initialEvents : List (TerminalStreamEvent ν)
  hydrationBytes : ℕ
  hydrationFailure : Bool
  listeners : List (Display ν)
  closed : Bool
  opening : ℕ
  acted : List (TerminalStreamEvent ν)
  delivered : ℕ
  left : List (Display ν)
  thrown : ℕ

/-! ## The first replay -/

structure Replay (ν : Type) where
  position : ℕ
  skipped : Bool
  hydrationBytes : ℕ
  events : List (TerminalStreamEvent ν)

def TerminalStreamEvent.isSkip : TerminalStreamEvent ν → Bool
  | .skip _ _ _ => true
  | _ => false

namespace Replay

def starting (position : ℕ) : Replay ν := ⟨position, false, 0, []⟩

def queuedBytes (hasCheckpoint : Bool) (r : Replay ν) (event : TerminalStreamEvent ν) : ℕ :=
  if hasCheckpoint = true then r.hydrationBytes + event.byteLength else r.hydrationBytes

def take (hasCheckpoint : Bool) (r : Replay ν) (event : TerminalStreamEvent ν) :
    Checked (Replay ν) :=
  if classifyEvent event r.position = .duplicate then .ok r
  else do
    refuseIf (maxTerminalHydrationQueueBytes < r.queuedBytes hasCheckpoint event)
      (js "terminal hydration queue exceeds its byte limit")
    .ok ⟨event.reach r.position, r.skipped || event.isSkip, r.queuedBytes hasCheckpoint event,
      r.events ++ [event]⟩

section Engine
variable [Engine ν]

def all (identity : TerminalIdentity) (hasCheckpoint : Bool) :
    List (Json ν) → Replay ν → Checked (Replay ν)
  | [], r => .ok r
  | wireEvent :: rest, r => do
    match ← tryDecodeEvent wireEvent identity none with
    | none => all identity hasCheckpoint rest r
    | some event => all identity hasCheckpoint rest (← r.take hasCheckpoint event)

end Engine

end Replay

/-! ## Delivery -/

namespace MutableAttachment

def requested : MutableAttachment ν where
  phase := .requesting
  pendingSubscriptionEvents := []
  pendingSubscriptionBytes := 0
  pendingSubscriptionFailure := false
  id := []
  checkpoint := none
  position := 0
  initialEvents := []
  hydrationBytes := 0
  hydrationFailure := false
  listeners := []
  closed := false
  opening := 0
  acted := []
  delivered := 0
  left := []
  thrown := 0

def present (s : MutableAttachment ν) (event : TerminalStreamEvent ν) : MutableAttachment ν :=
  let moved := { s with position := event.reach s.position, acted := s.acted ++ [event] }
  if s.listeners ≠ [] then
    { moved with
      listeners := s.listeners.map fun display => { display with seen := display.seen ++ [event] }
      delivered := s.delivered + 1 }
  else if s.checkpoint.isSome = true ∧ event.isOutput = true then
    if maxTerminalHydrationQueueBytes < s.hydrationBytes + event.byteLength then
      { moved with
        hydrationBytes := s.hydrationBytes + event.byteLength
        hydrationFailure := true }
    else
      { moved with
        hydrationBytes := s.hydrationBytes + event.byteLength
        initialEvents := s.initialEvents ++ [event] }
  else { moved with initialEvents := s.initialEvents ++ [event] }

def deliver (s : MutableAttachment ν) (event : TerminalStreamEvent ν) : MutableAttachment ν :=
  match classifyEvent event s.position with
  | .duplicate => s
  | .gap => s.present (reportStreamGap s.position event)
  | .accept => s.present event

def listen (s : MutableAttachment ν) (listener : ℕ) : MutableAttachment ν :=
  if s.phase ≠ .opened ∨ ∃ display ∈ s.listeners, display.listener = listener then s
  else { s with listeners := s.listeners ++ [⟨listener, s.initialEvents⟩] }

def leave (s : MutableAttachment ν) (listener : ℕ) : MutableAttachment ν :=
  { s with
    listeners := s.listeners.filter fun display => display.listener ≠ listener
    left := s.left ++ s.listeners.filter fun display => display.listener = listener }

def detach (s : MutableAttachment ν) : MutableAttachment ν :=
  if s.phase = .opened then { s with closed := true } else s

def fail (s : MutableAttachment ν) : MutableAttachment ν := { s with phase := .failed }

section Engine
variable [Engine ν]

def decode (request : TerminalClientAttachRequest) (s : MutableAttachment ν) (event : ClientEvent ν) :
    Checked (Option (TerminalStreamEvent ν)) :=
  if s.closed = true then .ok none
  else if eventBelongsToAttachment event.payload s.id request.clientId request.identity = false then
    .ok none
  else tryDecodeEvent event.payload request.identity event.bytes?

def processSubscriptionEvent (request : TerminalClientAttachRequest) (s : MutableAttachment ν)
    (event : ClientEvent ν) : Checked (MutableAttachment ν) := do
  let decoded ← s.decode request event
  .ok (decoded.elim s s.deliver)

def queue (request : TerminalClientAttachRequest) (s : MutableAttachment ν) (event : ClientEvent ν) :
    MutableAttachment ν :=
  let bytes := s.pendingSubscriptionBytes +
    pendingOutputByteLength event request.identity request.clientId
  if maxTerminalHydrationQueueBytes < bytes then
    { s with pendingSubscriptionBytes := bytes, pendingSubscriptionFailure := true }
  else
    { s with
      pendingSubscriptionBytes := bytes
      pendingSubscriptionEvents := s.pendingSubscriptionEvents ++ [event] }

def receive (request : TerminalClientAttachRequest) (s : MutableAttachment ν) (event : ClientEvent ν) :
    MutableAttachment ν :=
  match s.phase with
  | .requesting => s.queue request event
  | .hydrating | .opened =>
    match s.processSubscriptionEvent request event with
    | .ok t => t
    | .error _ => { s with thrown := s.thrown + 1 }
  | .failed => s

/-! ## Opening -/

def answeredCheckpoint (request : TerminalClientAttachRequest) (result : TerminalAttachResult ν) :
    Checked (Option TerminalPresentationCheckpointMetadata) :=
  match result.checkpoint with
  | none => .ok none
  | some value => do
    .ok (some (← demand (validateCheckpointMetadata value request.identity)
      (js "terminal checkpoint metadata is invalid")))

def answeredPresentation (result : TerminalAttachResult ν) : Checked Unit :=
  match result.presentation with
  | none => .ok ()
  | some value => do
    let fields ← demand value.object? (js "terminal presentation state is invalid")
    let _ ← validatePresentation fields none
    .ok ()

def validateAttachResult (request : TerminalClientAttachRequest) (result : TerminalAttachResult ν) :
    Checked (Option TerminalPresentationCheckpointMetadata) := do
  refuseIf (result.attachmentId = [] ∨ maxSafeInteger < result.fromPosition.natAbs ∨
    maxSafeInteger < result.position.natAbs) (js "terminal attach result is invalid")
  answeredPresentation result
  let checkpoint ← answeredCheckpoint request result
  refuseIf (result.fromPosition < request.fromPosition ∨ result.position < result.fromPosition)
    (js "terminal attach result position regressed")
  refuseIf (checkpoint.any (fun c => request.freshPresentation = false ∨
    result.fromPosition ≠ c.headPosition ∨ result.position ≠ c.headPosition) = true)
    (js "terminal checkpoint attachment boundary is invalid")
  .ok checkpoint

def boundary (result : TerminalAttachResult ν)
    (checkpoint : Option TerminalPresentationCheckpointMetadata) : ℕ :=
  match checkpoint with
  | some c => c.headPosition
  | none => result.fromPosition.toNat

def answered (s : MutableAttachment ν) (result : TerminalAttachResult ν)
    (checkpoint : Option TerminalPresentationCheckpointMetadata) (replay : Replay ν) :
    MutableAttachment ν :=
  { s with
    phase := .hydrating
    id := result.attachmentId
    checkpoint := checkpoint
    position :=
      if replay.skipped = false ∧ checkpoint.isNone = true then
        max replay.position result.position.toNat
      else replay.position
    initialEvents := replay.events
    hydrationBytes := replay.hydrationBytes
    opening := boundary result checkpoint
    acted := replay.events }

def withReplay (request : TerminalClientAttachRequest) (s : MutableAttachment ν)
    (result : TerminalAttachResult ν) : Checked (Replay ν × MutableAttachment ν) := do
  let checkpoint ← validateAttachResult request result
  let replay ← Replay.all request.identity checkpoint.isSome result.events
    (.starting (boundary result checkpoint))
  .ok (replay, s.answered result checkpoint replay)

def openAttachment (request : TerminalClientAttachRequest) (s : MutableAttachment ν)
    (result : TerminalAttachResult ν) : Checked (MutableAttachment ν) := do
  let (_, mutable) ← s.withReplay request result
  let handed ← s.pendingSubscriptionEvents.foldlM (processSubscriptionEvent request) mutable
  refuseIf (s.pendingSubscriptionFailure = true)
    (js "terminal attach handoff queue exceeded its byte limit")
  .ok { handed with phase := if handed.checkpoint.isSome = true then .hydrating else .opened }

def attached (request : TerminalClientAttachRequest) (s : MutableAttachment ν)
    (result : Option (TerminalAttachResult ν)) : MutableAttachment ν :=
  if s.phase ≠ .requesting then s
  else
    match result with
    | none => s.fail
    | some result =>
      match s.openAttachment request result with
      | .ok t => t
      | .error _ => s.fail

def fetchCheckpoint (request : TerminalClientAttachRequest)
    (checkpoint : TerminalPresentationCheckpointMetadata) (result : Json ν) (body : Bytes) :
    Checked (List (TerminalStreamEvent ν)) := do
  let returned ← demand (validateCheckpointMetadata result request.identity)
    (js "terminal checkpoint metadata is invalid")
  refuseIf (returned.matchesPin checkpoint = false)
    (js "terminal checkpoint response does not match its attachment pin")
  refuseIf (body.length ≠ checkpoint.byteLength) (js "terminal checkpoint body length is invalid")
  let tail ← decodeCheckpointTail result checkpoint (body.drop checkpoint.stateByteLength)
  .ok (.checkpoint checkpoint.position checkpoint.headPosition
    (body.take checkpoint.stateByteLength) :: tail)

def hydrate (s : MutableAttachment ν) (checkpoint : TerminalPresentationCheckpointMetadata)
    (hydrated : List (TerminalStreamEvent ν)) : MutableAttachment ν :=
  { s with
    phase := .opened
    initialEvents := hydrated ++ s.initialEvents
    opening := checkpoint.position
    acted := hydrated ++ s.acted }

def fetched (request : TerminalClientAttachRequest) (s : MutableAttachment ν)
    (response : Option (Json ν × Bytes)) : MutableAttachment ν :=
  if s.phase ≠ .hydrating then s
  else
    match s.checkpoint, response with
    | some checkpoint, some (result, body) =>
      match fetchCheckpoint request checkpoint result body with
      | .ok hydrated => if s.hydrationFailure = true then s.fail else s.hydrate checkpoint hydrated
      | .error _ => s.fail
    | _, _ => s.fail

end Engine

end MutableAttachment

inductive AttachmentInput (ν : Type) where
  | wire (event : ClientEvent ν)
  | attached (result : Option (TerminalAttachResult ν))
  | fetched (response : Option (Json ν × Bytes))
  | listen (listener : ℕ)
  | leave (listener : ℕ)
  | detach

def MutableAttachment.step [Engine ν] (request : TerminalClientAttachRequest)
    (s : MutableAttachment ν) : AttachmentInput ν → MutableAttachment ν
  | .wire event => s.receive request event
  | .attached result => s.attached request result
  | .fetched response => s.fetched request response
  | .listen listener => s.listen listener
  | .leave listener => s.leave listener
  | .detach => s.detach

end Terminay.Client
