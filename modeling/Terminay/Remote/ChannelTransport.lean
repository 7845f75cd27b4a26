import Terminay.Protocol.FragmentTransfers

/-!
# The transport over a data channel

A transport sends a frame as one message or as fragments, and waits for room in the
channel before each of them. Calls of `send` overlap at these waits. The other end puts
the frames together and queues them for its reader.
-/

namespace Terminay.Remote
open Script Protocol

inductive TransportState where
  | opening
  | opened
  | closing
  | closed
  | failed
  deriving DecidableEq

def TransportState.name : TransportState → String
  | opening => "opening"
  | opened => "open"
  | closing => "closing"
  | closed => "closed"
  | failed => "failed"

inductive TransportCloseCode where
  | timeout
  | resource
  | protocolError
  deriving DecidableEq

structure TransportCloseReason where
  code : TransportCloseCode
  message : String
  deriving DecidableEq

/-- What `send` and the constructor throw. -/
inductive TransportError where
  | aborted
  | error (message : String)
  | range (message : String)
  | fragment (error : FragmentError)
  deriving DecidableEq

def transportError (state : TransportState) : TransportError :=
  .error ("transport is " ++ state.name)

structure ChannelTransportOptions where
  maxFrameBytes : Option ℤ
  maxMessageBytes : Option ℤ
  maxBufferedBytes : Option ℤ
  maxInboundBytes : Option ℤ
  channelMessageBytes : Option ℤ

structure ChannelTransport where
  maxFrameBytes : ℕ
  maxBufferedBytes : ℕ
  maxInboundBytes : ℕ
  maxMessageBytes : Option ℕ
  currentState : TransportState
  closeReason : Option TransportCloseReason
  reassembler : Reassembler
  transferId : ℕ
  inbound : List Bytes
  inboundBytes : ℕ
  inboundEnded : Bool
  incomingWaiters : ℕ
  /-- Every frame the reader has been given. -/
  yielded : List Bytes
  deriving DecidableEq

def defaultMaxFrameBytes : ℤ := 8 * 1024 * 1024
def defaultMaxQueuedBytes : ℤ := 16 * 1024 * 1024

def positive (value : ℤ) (name : String) : Except TransportError ℕ :=
  if value ≤ 0 ∨ (maxSafeInteger : ℤ) < value then .error (.range (name ++ " must be positive"))
  else .ok value.toNat

def validateTransportFrame (frame : Bytes) (maxFrameBytes : ℕ) : Except TransportError Unit :=
  if frame.length = 0 ∨ maxFrameBytes < frame.length then
    .error (.range "transport frame size out of bounds")
  else .ok ()

def usefulLimit (messageLimit : Option ℤ) : Option ℕ :=
  match messageLimit with
  | none => none
  | some limit =>
    if (maxSafeInteger : ℤ) < limit ∨ limit ≤ fragmentHeaderBytes + minFragmentPayloadBytes then none
    else some limit.toNat

def nextChannelTransferId (current : ℕ) : ℕ :=
  if maxTransferId ≤ current then 0 else current + 1

namespace ChannelTransport

def create (o : ChannelTransportOptions) : Except TransportError ChannelTransport := do
  let maxFrameBytes ← positive (o.maxFrameBytes.getD defaultMaxFrameBytes) "maxFrameBytes"
  let maxBufferedBytes ← positive (o.maxBufferedBytes.getD defaultMaxQueuedBytes) "maxBufferedBytes"
  let maxInboundBytes ← positive (o.maxInboundBytes.getD maxBufferedBytes) "maxInboundBytes"
  return {
    maxFrameBytes
    maxBufferedBytes
    maxInboundBytes
    maxMessageBytes := usefulLimit (o.maxMessageBytes.orElse fun _ => o.channelMessageBytes)
    currentState := .opened
    closeReason := none
    reassembler := .empty
    transferId := 0
    inbound := []
    inboundBytes := 0
    inboundEnded := false
    incomingWaiters := 0
    yielded := []
  }

def bufferedBytes (t : ChannelTransport) : ℕ := t.inboundBytes

def finishIncoming (t : ChannelTransport) : ChannelTransport :=
  if t.inboundEnded then t
  else
    { t with
      inboundEnded := true
      reassembler := .empty
      inbound := []
      inboundBytes := 0
      incomingWaiters := 0 }

def fail (reason : TransportCloseReason) (t : ChannelTransport) : ChannelTransport :=
  if t.currentState = .closed ∨ t.currentState = .failed then t
  else
    { t.finishIncoming with
      closeReason := some reason
      currentState := .failed }

def queueLimitReached : TransportCloseReason :=
  ⟨.resource, "headless data channel inbound queue limit reached"⟩

def frameInvalid : TransportCloseReason := ⟨.protocolError, "headless data channel frame is invalid"⟩

def amountInvalid : TransportCloseReason :=
  ⟨.resource, "headless data channel buffered amount is invalid"⟩

def remainedBackpressured : TransportCloseReason :=
  ⟨.timeout, "headless data channel remained backpressured"⟩

def takeTransferId (t : ChannelTransport) : ChannelTransport :=
  { t with
    transferId := nextChannelTransferId t.transferId }

def messagesFor (frame : Bytes) (t : ChannelTransport) :
    Except FragmentError (List Bytes) × ChannelTransport :=
  match t.maxMessageBytes with
  | none => (.ok [frame], t)
  | some limit =>
    if frame.length ≤ limit then (.ok [frame], t)
    else
      let taken := t.takeTransferId
      (encodeChannelFragments frame limit taken.transferId, taken)

def send (frame : Bytes) (aborted : Bool) (t : ChannelTransport) :
    Except TransportError (List Bytes) × ChannelTransport :=
  if aborted then (.error .aborted, t)
  else
    match validateTransportFrame frame t.maxFrameBytes with
    | .error e => (.error e, t)
    | .ok () =>
      match t.messagesFor frame with
      | (.error e, taken) => (.error (.fragment e), taken)
      | (.ok messages, taken) => (.ok messages, taken)

def readBufferedAmount (reading : Option ℤ) (t : ChannelTransport) : Option ℤ × ChannelTransport :=
  match reading with
  | none => (none, t.fail amountInvalid)
  | some buffered =>
    if buffered < 0 ∨ (t.maxBufferedBytes * 2 : ℤ) < buffered then (none, t.fail amountInvalid)
    else (some buffered, t)

/-- What one turn of `waitForWritable` leads to. -/
inductive Turn where
  | again
  | writable
  | rejected (error : TransportError)

def waitForWritable (requiredBytes : ℕ) (reading : Option ℤ) (expired : Bool)
    (t : ChannelTransport) : Turn × ChannelTransport :=
  if requiredBytes = 0 ∨ t.maxBufferedBytes < requiredBytes then
    (.rejected (.range "transport writable size is invalid"), t)
  else if t.currentState ≠ .opened then (.rejected (transportError t.currentState), t)
  else
    match t.readBufferedAmount reading with
    | (none, failed) => (.rejected (.error amountInvalid.message), failed)
    | (some buffered, _) =>
      if buffered + requiredBytes ≤ t.maxBufferedBytes then (.writable, t)
      else if expired then
        (.rejected (.error remainedBackpressured.message), t.fail remainedBackpressured)
      else (.again, t)

def queueFrame (frame : Bytes) (t : ChannelTransport) : ChannelTransport :=
  if 0 < t.incomingWaiters then
    { t with
      incomingWaiters := t.incomingWaiters - 1
      yielded := t.yielded ++ [frame] }
  else
    { t with
      inbound := t.inbound ++ [frame]
      inboundBytes := t.inboundBytes + frame.length }

def takeAdmission (admission : ChannelFragmentAdmission) (t : ChannelTransport) : ChannelTransport :=
  match admission with
  | .partialFrame =>
    if t.maxInboundBytes < t.inboundBytes + t.reassembler.pendingBytes then
      { t with
        reassembler := .empty }.fail queueLimitReached
    else t
  | .frame frame =>
    match validateTransportFrame frame t.maxFrameBytes with
    | .error _ => t.fail frameInvalid
    | .ok _ =>
      if t.maxInboundBytes < t.inboundBytes + frame.length then t.fail queueLimitReached
      else t.queueFrame frame

def enqueueIncoming (message : Bytes) (t : ChannelTransport) : ChannelTransport :=
  if t.inboundEnded ∨ t.currentState = .closed ∨ t.currentState = .failed then t
  else
    match validateTransportFrame message t.maxFrameBytes with
    | .error _ => t.fail frameInvalid
    | .ok _ =>
      match t.reassembler.accept t.maxFrameBytes message with
      | (.error _, reassembler) =>
        { t with
          reassembler }.fail frameInvalid
      | (.ok admission, reassembler) =>
        { t with
          reassembler }.takeAdmission admission

def nextIncoming (t : ChannelTransport) : ChannelTransport :=
  match t.inbound with
  | frame :: inbound =>
    { t with
      inbound
      inboundBytes := t.inboundBytes - frame.length
      yielded := t.yielded ++ [frame] }
  | [] =>
    if t.inboundEnded then t
    else
      { t with
        incomingWaiters := t.incomingWaiters + 1 }

end ChannelTransport

inductive SendPhase where
  | waiting
  | writable
  | resolved
  | rejected (error : TransportError)
  deriving DecidableEq

structure SendCall where
  frame : Bytes
  transferId : ℕ
  messages : List Bytes
  sent : ℕ
  phase : SendPhase
  earlier : List ℕ
  deriving DecidableEq

structure ChannelMessage where
  bytes : Bytes
  completes : Option ℕ
  deriving DecidableEq

structure Link where
  near : ChannelTransport
  far : ChannelTransport
  calls : List SendCall
  channel : List ChannelMessage
  delivered : ℕ
  deriving DecidableEq

inductive LinkInput where
  | send (frame : Bytes) (aborted : Bool)
  | poll (call : ℕ) (reading : Option ℤ) (expired : Bool)
  | put (call : ℕ) (accepted : Bool)
  | abort (call : ℕ)
  | deliver
  | next
  deriving DecidableEq

def completions (messages : List ChannelMessage) : List ℕ := messages.filterMap ChannelMessage.completes

namespace SendCall

def withPhase (phase : SendPhase) (call : SendCall) : SendCall :=
  { call with
    phase }

def isLast (call : SendCall) : Bool := call.sent + 1 == call.messages.length

def advance (call : SendCall) : SendCall :=
  { call with
    sent := call.sent + 1
    phase := if call.isLast then .resolved else .waiting }

def unsettled (call : SendCall) : Bool := call.phase == .waiting || call.phase == .writable

def underWay (call : SendCall) : Bool := call.unsettled && 0 < call.sent

end SendCall

def messageOf (k : ℕ) (call : SendCall) (message : Bytes) : ChannelMessage :=
  ⟨message, if call.isLast then some k else none⟩

namespace Link

def between (near far : ChannelTransport) : Link := ⟨near, far, [], [], 0⟩

def setCall (k : ℕ) (call : SendCall) (s : Link) : Link :=
  { s with
    calls := s.calls.set k call }

def start (frame : Bytes) (aborted : Bool) (s : Link) : Link :=
  let (outcome, near) := s.near.send frame aborted
  let call : SendCall :=
    match outcome with
    | .ok messages => ⟨frame, near.transferId, messages, 0, .waiting, completions s.channel⟩
    | .error e => ⟨frame, near.transferId, [], 0, .rejected e, completions s.channel⟩
  { s with
    near
    calls := s.calls ++ [call] }

def poll (k : ℕ) (reading : Option ℤ) (expired : Bool) (s : Link) : Link :=
  match s.calls[k]? with
  | none => s
  | some call =>
    match call.phase, call.messages[call.sent]? with
    | .waiting, some message =>
      match s.near.waitForWritable message.length reading expired with
      | (.again, near) =>
        { s with
          near }
      | (.writable, near) =>
        { s with
          near }.setCall k (call.withPhase .writable)
      | (.rejected e, near) =>
        { s with
          near }.setCall k (call.withPhase (.rejected e))
    | _, _ => s

def put (k : ℕ) (accepted : Bool) (s : Link) : Link :=
  match s.calls[k]? with
  | none => s
  | some call =>
    match call.phase, call.messages[call.sent]? with
    | .writable, some message =>
      if s.near.currentState ≠ .opened then
        s.setCall k (call.withPhase (.rejected (transportError s.near.currentState)))
      else if accepted = false then
        s.setCall k (call.withPhase (.rejected (.error "headless data channel send failed")))
      else
        { s with
          channel := s.channel ++ [messageOf k call message] }.setCall k call.advance
    | _, _ => s

def abort (k : ℕ) (s : Link) : Link :=
  match s.calls[k]? with
  | none => s
  | some call =>
    if call.phase = .waiting then s.setCall k (call.withPhase (.rejected .aborted)) else s

def deliver (s : Link) : Link :=
  match s.channel[s.delivered]? with
  | none => s
  | some message =>
    { s with
      far := s.far.enqueueIncoming message.bytes
      delivered := s.delivered + 1 }

def step (s : Link) : LinkInput → Link
  | .send frame aborted => s.start frame aborted
  | .poll k reading expired => s.poll k reading expired
  | .put k accepted => s.put k accepted
  | .abort k => s.abort k
  | .deliver => s.deliver
  | .next =>
    { s with
      far := s.far.nextIncoming }

end Link

end Terminay.Remote
