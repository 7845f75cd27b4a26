import Terminay.Terminal.ChunkQueue
import Terminay.Terminal.SessionRegistry

/-!
# The output of a session

Output is split into chunks, counted, retained up to a bound and delivered to the
subscriptions. A subscription begins with what is retained from its position on;
one with a listener is pushed every event, one without queues them up to a bound.
-/

namespace Terminay.Terminal
open Script Outcome Chunks

structure OutputLimits where
  maxOutputChunkBytes : ℕ
  maxReplayBytes : ℕ
  maxQueuedOutputBytes : ℕ
  maxSubscribersPerSession : ℕ
  maxOutputChunkBytes_pos : 0 < maxOutputChunkBytes
  maxReplayBytes_pos : 0 < maxReplayBytes
  maxReplayBytes_safe : maxReplayBytes ≤ maxSafeInteger

inductive TerminalEvent where
  | output (position nextPosition : ℕ) (bytes : Bytes) (replay : Bool)
  | exit (reason : TerminalExitReason)
  | skip (fromPosition toPosition : ℕ)
  deriving DecidableEq

def eventBytes : TerminalEvent → ℕ
  | .output _ _ bytes _ => bytes.length
  | _ => 0

inductive TerminalCloseReason where | client | skip | serviceShutdown
  deriving DecidableEq

structure TerminalSubscription where
  listener : Bool
  fromPosition : ℕ
  maxQueuedBytes : ℚ
  queue : List TerminalEvent
  queuedBytes : ℕ
  cursor : ℕ
  closed : Option TerminalCloseReason
  received : List TerminalEvent

namespace TerminalSubscription

def advance (cursor : ℕ) : TerminalEvent → ℕ
  | .output _ nextPosition _ _ => max cursor nextPosition
  | _ => cursor

def deliver (sub : TerminalSubscription) (event : TerminalEvent) : TerminalSubscription :=
  { sub with received := sub.received ++ [event], cursor := advance sub.cursor event }

def closeForOverflow (sub : TerminalSubscription) (outputPosition : ℕ) : TerminalSubscription :=
  if sub.closed.isSome then sub
  else
    { sub with
      closed := some .skip
      queue := [.skip sub.cursor outputPosition]
      queuedBytes := 0 }

def enqueue (sub : TerminalSubscription) (event : TerminalEvent) (outputPosition : ℕ) :
    TerminalSubscription :=
  if 0 < eventBytes event ∧ sub.maxQueuedBytes < sub.queuedBytes + eventBytes event then
    sub.closeForOverflow outputPosition
  else
    { sub with
      queue := sub.queue ++ [event]
      queuedBytes := sub.queuedBytes + eventBytes event }

def deliverEvent (outputPosition : ℕ) (sub : TerminalSubscription) (event : TerminalEvent) :
    TerminalSubscription :=
  if sub.closed.isSome then sub
  else if sub.listener then sub.deliver event
  else sub.enqueue event outputPosition

def begin (outputPosition : ℕ) (sub : TerminalSubscription) (event : TerminalEvent) :
    TerminalSubscription :=
  if sub.listener then sub.deliver event else sub.enqueue event outputPosition

def close (sub : TerminalSubscription) (reason : TerminalCloseReason) : TerminalSubscription :=
  if sub.closed.isSome then sub
  else { sub with closed := some reason, queue := [], queuedBytes := 0 }

def outputEnd : TerminalEvent → Option ℕ
  | .output _ nextPosition _ _ => some nextPosition
  | _ => none

def drain (sub : TerminalSubscription) : List TerminalEvent × TerminalSubscription :=
  let last := (sub.queue.reverse.findSome? outputEnd).getD 0
  (sub.queue, { sub with queue := [], queuedBytes := 0, cursor := max sub.cursor last })

end TerminalSubscription

structure OutputSession where
  identity : TerminalIdentity
  status : TerminalSessionStatus
  outputPosition : ℕ
  replayFrom : ℕ
  replay : BoundedChunkQueue
  exit : Option TerminalExitReason
  subscriptions : Table.Of ℕ TerminalSubscription
  subscribers : List ℕ
  nextSubscription : ℕ
  stream : Bytes

structure TerminalSubscriptionOptions where
  authorization : Option TerminalAuthorization
  fromPosition : Option ℚ
  listener : Bool
  maxQueuedBytes : Option ℚ

structure TerminalRetainedOutputReadOptions where
  authorization : Option TerminalAuthorization
  fromPosition : Option ℚ
  maxBytes : ℚ

structure TerminalRetainedOutputRead where
  requestedFromPosition : ℕ
  fromPosition : ℕ
  nextPosition : ℕ
  replayFrom : ℕ
  outputPosition : ℕ
  historyLost : Bool
  droppedBytes : ℕ
  hasMore : Bool
  bytes : Bytes
  deriving DecidableEq

def checkedPositionAdd (position amount : ℕ) : Except Thrown ℕ := do
  refuseIf (maxSafeInteger < position + amount)
    (refusal .outputTooLarge "terminal output position exhausted" [])
  pure (position + amount)

def piecesOf (max : ℕ) : ℕ → Bytes → List Bytes
  | 0, _ => []
  | fuel + 1, bytes =>
    if bytes = [] then [] else bytes.take max :: piecesOf max fuel (bytes.drop max)

def outputEvent (chunk : Chunk UInt8) (position : ℕ) (replay : Bool) : TerminalEvent :=
  .output (chunk.after position).position chunk.stop (chunk.after position).bytes replay

def readReplayBytes (fromPosition : ℕ) : List (Chunk UInt8) → ℕ → Bytes
  | [], _ => []
  | chunk :: rest, remaining =>
    if remaining = 0 then []
    else if chunk.stop ≤ fromPosition then readReplayBytes fromPosition rest remaining
    else
      let value := (chunk.bytes.drop (fromPosition - chunk.position)).take remaining
      if value = [] then readReplayBytes fromPosition rest remaining
      else value ++ readReplayBytes fromPosition rest (remaining - value.length)

inductive RequiredScope where | read | write

def authorize (identity : TerminalIdentity) (authorization : Option TerminalAuthorization)
    (required : RequiredScope) : Except Thrown Unit :=
  match authorization with
  | none => .ok ()
  | some given => do
    refuseIf (given.serverId ≠ identity.serverId ∨ given.projectId ≠ identity.projectId ∨
        given.sessionId.any fun s => s ≠ identity.sessionId)
      (forbidden "terminal authorization is outside its server/project/session boundary"
        [("serverId", .text identity.serverId), ("projectId", .text identity.projectId),
          ("sessionId", .text identity.sessionId)])
    let scope := given.scope.getD .read
    match required with
    | .read =>
      refuseIf (scope = .none)
        (forbidden "terminal operation is not authorized for this client"
          [("reason", .text (js "read"))])
    | .write =>
      refuseIf (scope ≠ .write ∧ scope ≠ .admin)
        (forbidden "terminal operation is not authorized for this client"
          [("reason", .text (js "write"))])

def boundedReadBytes (value : ℚ) (maximum : ℕ) : Except Thrown ℕ := do
  refuseIf (isSafeInteger value = false ∨ value ≤ 0 ∨ maximum < value)
    (refusal .invalidBytes "terminal read byte limit is invalid"
      [("max", .number maximum), ("actual", .rational value)])
  pure value.num.toNat

def givenPosition (position : ℚ) : Except Thrown ℕ := do
  validatePosition position
  pure position.num.toNat

namespace OutputSession

def opened (limits : OutputLimits) (identity : TerminalIdentity) (position : ℕ) : OutputSession where
  identity
  status := .running
  outputPosition := position
  replayFrom := position
  replay := .create limits.maxReplayBytes .withinBound limits.maxReplayBytes_pos
  exit := none
  subscriptions := ∅
  subscribers := []
  nextSubscription := 0
  stream := []

def deliverAll (s : OutputSession) (event : TerminalEvent) : OutputSession :=
  let delivered := Table.mapValues (fun id sub =>
    if id ∈ s.subscribers then sub.deliverEvent s.outputPosition event else sub) s.subscriptions
  { s with
    subscriptions := delivered
    subscribers := s.subscribers.filter fun id =>
      delivered[id]?.any fun sub => sub.closed.isNone }

def appendPiece (s : OutputSession) (piece : Bytes) (nextPosition : ℕ) : OutputSession :=
  let chunk : Chunk UInt8 := ⟨s.outputPosition, piece⟩
  let replay := s.replay.push chunk
  let grown := { s with
    outputPosition := nextPosition
    replay
    replayFrom := (replay.first.map Chunk.position).getD nextPosition
    stream := s.stream ++ piece }
  grown.deliverAll (outputEvent chunk s.outputPosition false)

def appendPieces (s : OutputSession) : List Bytes → Except Thrown Unit × OutputSession
  | [] => (.ok (), s)
  | piece :: rest =>
    match checkedPositionAdd s.outputPosition piece.length with
    | .error error => (.error error, s)
    | .ok nextPosition => appendPieces (s.appendPiece piece nextPosition) rest

def appendOutput (limits : OutputLimits) (s : OutputSession) (bytes : Bytes) :
    Except Thrown Unit × OutputSession :=
  if bytes = [] ∨ s.status ≠ .running then (.ok (), s)
  else s.appendPieces (piecesOf limits.maxOutputChunkBytes bytes.length bytes)

/-- The first exit of a session is final. -/
def finish (s : OutputSession) (reason : TerminalExitReason) : OutputSession :=
  if s.exit.isSome then s
  else
    let interrupts := reason = .interrupted ∨ reason = .shutdown
    let ended := { s with
      exit := some reason
      status := if interrupts then .interrupted else .exited }
    ended.deliverAll (.exit reason)

def onData (limits : OutputLimits) (s : OutputSession) (bytes : Bytes) : OutputSession :=
  match s.appendOutput limits bytes with
  | (.error _, s') => s'.finish .spawnError
  | (.ok (), s') => s'

def checkSubscribe (limits : OutputLimits) (s : OutputSession)
    (options : TerminalSubscriptionOptions) : Except Thrown ℕ := do
  authorize s.identity options.authorization .read
  refuseIf (limits.maxSubscribersPerSession ≤ s.subscribers.length)
    (refusal .subscriberLimit "terminal subscriber limit reached"
      [("max", .number limits.maxSubscribersPerSession)])
  let fromPosition ← givenPosition (options.fromPosition.getD 0)
  refuseIf (s.outputPosition < fromPosition)
    (refusal .invalidPosition "subscription position is ahead of terminal output"
      [("expected", .number s.outputPosition), ("actual", .number fromPosition)])
  refuseIf (fromPosition < s.replayFrom)
    (refusal .replayGap "requested terminal output is no longer retained"
      [("fromPosition", .number fromPosition), ("replayFrom", .number s.replayFrom),
        ("outputPosition", .number s.outputPosition)])
  pure fromPosition

def initialEvents (s : OutputSession) (fromPosition : ℕ) : List TerminalEvent :=
  (s.replay.live.filter fun chunk => fromPosition < chunk.stop).map
      (fun chunk => outputEvent chunk (max fromPosition chunk.position) true) ++
    s.exit.toList.map .exit

def subscribe (limits : OutputLimits) (s : OutputSession) (options : TerminalSubscriptionOptions) :
    Except Thrown ℕ × OutputSession :=
  match s.checkSubscribe limits options with
  | .error error => (.error error, s)
  | .ok fromPosition =>
    let fresh : TerminalSubscription :=
      ⟨options.listener, fromPosition, options.maxQueuedBytes.getD limits.maxQueuedOutputBytes, [], 0,
        fromPosition, none, []⟩
    let sub := (s.initialEvents fromPosition).foldl
      (TerminalSubscription.begin s.outputPosition) fresh
    (.ok s.nextSubscription,
      { s with
        subscriptions := s.subscriptions.insert s.nextSubscription sub
        subscribers :=
          if sub.closed.isNone then s.subscribers ++ [s.nextSubscription] else s.subscribers
        nextSubscription := s.nextSubscription + 1 })

def readRetainedOutput (limits : OutputLimits) (s : OutputSession)
    (options : TerminalRetainedOutputReadOptions) : Except Thrown TerminalRetainedOutputRead := do
  authorize s.identity options.authorization .read
  let maxBytes ← boundedReadBytes options.maxBytes limits.maxReplayBytes
  let requested ← givenPosition (options.fromPosition.getD s.replayFrom)
  refuseIf (s.outputPosition < requested)
    (refusal .invalidPosition "requested terminal output is ahead of the stream"
      [("expected", .number s.outputPosition), ("actual", .number requested)])
  let historyLost := decide (requested < s.replayFrom)
  let fromPosition := if historyLost then s.replayFrom else requested
  let bytes := readReplayBytes fromPosition s.replay.live maxBytes
  let nextPosition ← checkedPositionAdd fromPosition bytes.length
  pure
    { requestedFromPosition := requested
      fromPosition
      nextPosition
      replayFrom := s.replayFrom
      outputPosition := s.outputPosition
      historyLost
      droppedBytes := if historyLost then s.replayFrom - requested else 0
      hasMore := nextPosition < s.outputPosition
      bytes }

def close (s : OutputSession) (id : ℕ) (reason : TerminalCloseReason) : OutputSession :=
  { s with
    subscriptions := Table.update s.subscriptions id fun sub => sub.close reason
    subscribers := s.subscribers.filter fun other => other ≠ id }

def drain (s : OutputSession) (id : ℕ) : OutputSession :=
  { s with subscriptions := Table.update s.subscriptions id fun sub => sub.drain.2 }

def ack (s : OutputSession) (id : ℕ) (position : ℚ) : Except Thrown Unit × OutputSession :=
  match givenPosition position with
  | .error error => (.error error, s)
  | .ok position =>
    match s.subscriptions[id]? with
    | none => (.ok (), s)
    | some sub =>
      if position < sub.cursor then (.ok (), s)
      else if s.outputPosition < position then
        (.error (refusal .invalidPosition "acknowledged position is ahead of terminal output"
          [("expected", .number s.outputPosition), ("actual", .number position)]), s)
      else
        let queue := sub.queue.filter fun event =>
          match event with
          | .output _ nextPosition _ _ => decide (position < nextPosition)
          | _ => true
        (.ok (), { s with
          subscriptions := s.subscriptions.insert id { sub with
            cursor := position
            queue
            queuedBytes := (queue.map eventBytes).sum } })

end OutputSession

inductive OutputInput where
  | data (bytes : Bytes)
  | exit (reason : TerminalExitReason)
  | subscribe (options : TerminalSubscriptionOptions)
  | close (id : ℕ) (reason : TerminalCloseReason)
  | drain (id : ℕ)
  | ack (id : ℕ) (position : ℚ)

namespace OutputSession

def step (limits : OutputLimits) (s : OutputSession) : OutputInput → OutputSession
  | .data bytes => s.onData limits bytes
  | .exit reason => s.finish reason
  | .subscribe options => (s.subscribe limits options).2
  | .close id reason => s.close id reason
  | .drain id => s.drain id
  | .ack id position => (s.ack id position).2

end OutputSession

end Terminay.Terminal
