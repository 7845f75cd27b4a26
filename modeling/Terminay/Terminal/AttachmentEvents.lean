import Terminay.Protocol.Outbound
import Terminay.Terminal.OutputStream

/-!
# The events of an attachment

What the registry publishes for an attachment travels two ways. Output is batched,
published as transient events and sent on the terminal lane of the attachment; every
other event is appended to the journal and sent on the state lane of the subscription.
-/

namespace Terminay.Terminal
open Script Protocol

def maxLiveOutputBodyBytes : ℕ := 32 * 1024

structure OutputEvent where
  position : ℕ
  bytes : Bytes
  replay : Bool
  bytes_ne : bytes ≠ []
  bytes_safe : position + bytes.length ≤ maxSafeInteger

def OutputEvent.nextPosition (event : OutputEvent) : ℕ := event.position + event.bytes.length

inductive SkipReason where | hydration | attachmentClosed
  deriving DecidableEq

inductive AttachmentEvent where
  | output (event : OutputEvent)
  | exit (reason : TerminalExitReason)
  | skip (fromPosition toPosition : ℕ) (reason : SkipReason)
  | dimensions (dimensions : TerminalDimensions)

def AttachmentEvent.isOutput : AttachmentEvent → Bool
  | .output _ => true
  | _ => false

/-- A frame of the connection. Events of the attachment carry the numbers they were published
under. -/
inductive EventFrame where
  | event (event : AttachmentEvent) (numbers : List ℕ)
  | skip (fromPosition toPosition : ℕ)
  | resync (revision : ℕ)
  | other (byteLength : ℕ)

def EventFrame.numbers : EventFrame → List ℕ
  | .event _ numbers => numbers
  | _ => []

structure PendingTerminalOutput where
  event : OutputEvent
  numbers : List ℕ

structure StreamContext where
  attachmentId : Str
  subscriptionId : Str
  limits : OutboundDeliveryLimits
  byteLength : EventFrame → ℕ
  encodes : EventFrame → Bool
  clock : ℕ → ℤ × ℤ

/-- The variables of one `attach`, with the journal and the pump of its connection. `published`
counts the events of the registry. -/
structure AttachmentStream where
  attached : Bool
  registered : Bool
  closed : Bool
  checkpointPublishing : Bool
  queuedCheckpointEvents : List (ℕ × AttachmentEvent)
  pendingOutput : Option PendingTerminalOutput
  pendingOutputTimer : Bool
  notifyOnClose : Bool
  publishedPosition : Option ℕ
  outputSuppressed : Bool
  revision : ℕ
  pump : OutboundDeliveryPump EventFrame
  published : ℕ

namespace AttachmentStream

def opened (checkpoint : Bool) (catchUp : Option (ℕ × ℕ)) (revision : ℕ) : AttachmentStream where
  attached := false
  registered := false
  closed := false
  checkpointPublishing := !checkpoint
  queuedCheckpointEvents :=
    if checkpoint = true then
      catchUp.toList.map fun range => (0, .skip range.1 range.2 .hydration)
    else []
  pendingOutput := none
  pendingOutputTimer := false
  notifyOnClose := true
  publishedPosition := none
  outputSuppressed := false
  revision := revision
  pump := .created
  published := 1

def projectionDeliveryKey (event : Str) (revision : ℕ) : Str :=
  event ++ js ":revision:" ++ natText revision

def discardPendingOutput (s : AttachmentStream) : AttachmentStream :=
  { s with pendingOutput := none, pendingOutputTimer := false }

section Publishing
variable (c : StreamContext)

def outputAdmission (output : OutputEvent) : TerminalDeliveryAdmission EventFrame :=
  ⟨c.attachmentId, output.position, output.nextPosition, .skip⟩

def eventAdmission (revision : ℕ) : StateDeliveryAdmission EventFrame :=
  ⟨c.subscriptionId, projectionDeliveryKey (js "terminal") revision, .resync revision⟩

def sendOutput (s : AttachmentStream) (output : OutputEvent) (frame : EventFrame) :
    AttachmentStream :=
  let time := c.clock s.pump.admissions
  { s with
    pump := s.pump.sendTerminal c.byteLength c.limits frame (outputAdmission c output) time.1 time.2 }

def sendEvent (s : AttachmentStream) (event : AttachmentEvent) (numbers : List ℕ) :
    AttachmentStream :=
  if c.encodes (.event event numbers) = true then
    match event with
    | .output output => sendOutput c s output (.event event numbers)
    | _ =>
      { s with
        pump := s.pump.sendState c.byteLength c.limits (.event event numbers)
          (eventAdmission c s.revision) }
  else s

def append (s : AttachmentStream) (event : AttachmentEvent) (numbers : List ℕ) : AttachmentStream :=
  sendEvent c { s with revision := s.revision + 1 } event numbers

def publishOutput (s : AttachmentStream) (event : OutputEvent) (numbers : List ℕ) :
    AttachmentStream :=
  if s.attached = false ∨ s.outputSuppressed = true then s
  else sendEvent c { s with publishedPosition := some event.nextPosition } (.output event) numbers

def flushPendingOutput (s : AttachmentStream) : AttachmentStream :=
  match s.pendingOutput with
  | none => s.discardPendingOutput
  | some pending => publishOutput c s.discardPendingOutput pending.event pending.numbers

def joined (current : PendingTerminalOutput) (event : OutputEvent) (number : ℕ) :
    Option PendingTerminalOutput :=
  if h : current.event.nextPosition = event.position then
    if current.event.replay = event.replay ∧
        current.event.bytes.length + event.bytes.length ≤ maxLiveOutputBodyBytes then
      some
        { event :=
            { position := current.event.position
              bytes := current.event.bytes ++ event.bytes
              replay := current.event.replay
              bytes_ne := fun hnil => event.bytes_ne (List.append_eq_nil_iff.mp hnil).2
              bytes_safe := by
                have hsafe := event.bytes_safe
                rw [← h, OutputEvent.nextPosition] at hsafe
                rw [List.length_append, ← Nat.add_assoc]
                exact hsafe }
          numbers := current.numbers ++ [number] }
    else none
  else none

def beginOutput (s : AttachmentStream) (event : OutputEvent) (number : ℕ) : AttachmentStream :=
  if maxLiveOutputBodyBytes < event.bytes.length then publishOutput c s event [number]
  else { s with pendingOutput := some ⟨event, [number]⟩, pendingOutputTimer := true }

def queueOutput (s : AttachmentStream) (event : OutputEvent) (number : ℕ) : AttachmentStream :=
  if s.attached = false ∨ s.outputSuppressed = true then s
  else
    match s.pendingOutput with
    | none => beginOutput c s event number
    | some current =>
      match joined current event number with
      | none => beginOutput c (flushPendingOutput c s) event number
      | some more => { s with pendingOutput := some more, pendingOutputTimer := true }

def publishTerminalEvent (s : AttachmentStream) (entry : ℕ × AttachmentEvent) : AttachmentStream :=
  match entry.2 with
  | .output event => queueOutput c s event entry.1
  | event =>
    let flushed := flushPendingOutput c s
    if flushed.attached = false then flushed else append c flushed event [entry.1]

def onEvent (s : AttachmentStream) (event : AttachmentEvent) : AttachmentStream :=
  let counted := { s with published := s.published + 1 }
  if s.closed = true then counted
  else if s.checkpointPublishing = false then
    { counted with
      queuedCheckpointEvents := s.queuedCheckpointEvents ++ [(s.published, event)] }
  else publishTerminalEvent c counted (s.published, event)

def bound (s : AttachmentStream) : AttachmentStream :=
  { s with
    attached := true
    registered := true
    checkpointPublishing := true
    queuedCheckpointEvents := [] }

def release (s : AttachmentStream) (entries : List (ℕ × AttachmentEvent)) : AttachmentStream :=
  Runs.after (publishTerminalEvent c) s entries

def attach (s : AttachmentStream) : AttachmentStream :=
  if s.attached = true then s else release c s.bound s.queuedCheckpointEvents

def publishDimensions (s : AttachmentStream) (dimensions : TerminalDimensions) : AttachmentStream :=
  if s.registered = false then s
  else append c { s with published := s.published + 1 } (.dimensions dimensions) [s.published]

def onClose (s : AttachmentStream) (head : ℕ) : AttachmentStream :=
  if s.closed = true then s
  else
    let closed := { s with closed := true }
    if s.notifyOnClose = false ∨ s.attached = false then closed
    else
      append c { closed.discardPendingOutput with published := s.published + 1 }
        (.skip (s.publishedPosition.getD head) head .attachmentClosed) [s.published]

end Publishing

def suppressOutput (s : AttachmentStream) : AttachmentStream :=
  if s.registered = false then s else { s.discardPendingOutput with outputSuppressed := true }

end AttachmentStream

/-- An input whose frames are of another kind. -/
def outboundMap {φ ψ : Type} (f : φ → ψ) : OutboundInput φ → OutboundInput ψ
  | .send frame => .send (f frame)
  | .sendState frame a => .sendState (f frame) ⟨a.laneId, a.key, f a.resyncFrame⟩
  | .sendTerminal frame a now later =>
    .sendTerminal (f frame) ⟨a.laneId, a.position, a.nextPosition, fun x y => f (a.createSkipFrame x y)⟩
      now later
  | .acknowledgeTerminal laneId position now => .acknowledgeTerminal laneId position now
  | .releaseTerminal laneId => .releaseTerminal laneId
  | .delivered => .delivered
  | .rejected isOpen => .rejected isOpen
  | .close => .close

/-- `other` is what the pump is given of other streams, and what the transport answers. -/
inductive StreamInput where
  | event (event : AttachmentEvent)
  | attached
  | timer
  | dimensions (dimensions : TerminalDimensions)
  | suppress
  | discard
  | silence
  | forget
  | close (head : ℕ)
  | appended
  | other (input : OutboundInput ℕ)

def AttachmentStream.step (c : StreamContext) (s : AttachmentStream) : StreamInput → AttachmentStream
  | .event event => s.onEvent c event
  | .attached => s.attach c
  | .timer => if s.pendingOutputTimer = true then s.flushPendingOutput c else s
  | .dimensions dimensions => s.publishDimensions c dimensions
  | .suppress => s.suppressOutput
  | .discard => s.discardPendingOutput
  | .silence => { s with notifyOnClose := false }
  | .forget => { s with registered := false }
  | .close head => s.onClose c head
  | .appended => { s with revision := s.revision + 1 }
  | .other input => { s with pump := s.pump.step c.byteLength c.limits (outboundMap .other input) }

end Terminay.Terminal
