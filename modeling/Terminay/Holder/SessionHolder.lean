import Terminay.Terminal.OutputStream

/-!
# The session holder

The detached process that owns the PTYs. One server at a time is attached over a
socket; the holder spawns sessions for it, streams their output, keeps the end of
it in a ring for a server that comes back, and pauses a PTY while somebody cannot
take what it produces. Sessions are numbered in the order in which they were
spawned; a number stays when the session is ended, its process may live on.
-/

namespace Terminay.Holder
open Script Workspace Terminal Outcome Chunks

def dataFrameBytes : ℕ := 64 * 1024
def presentationHighBytes : ℕ := 256 * 1024
def presentationLowBytes : ℕ := 64 * 1024

structure ExitRecord where
  exitCode : Option ℤ
  signal : Option ℤ
  exitedAt : ℤ
  deriving DecidableEq

/-- Who listens for the end of a process: its session, the `end` of its session, or a holder that
closes. -/
inductive ExitListener where | session | terminate | close
  deriving DecidableEq

/-- `presentationQueue` is the number of the latest observation, 0 before the first; `recovering`
stands for `recoveryFinished` too. `paused` is the PTY's own state and `stream` every byte it has
produced. -/
structure HeldSession where
  sessionId : Str
  cols : ℤ
  rows : ℤ
  presentationError : Option Str
  presentationQueue : ℕ
  presentationBytes : ℕ
  presentationPaused : Bool
  recovering : Bool
  ring : BoundedChunkQueue
  outputPosition : ℕ
  bufferedFrom : ℕ
  streaming : Bool
  serverPaused : Bool
  exit : Option ExitRecord
  dataSubscription : Bool
  exitSubscription : Option ExitListener
  paused : Bool
  stream : Bytes

structure SessionRecord where
  sessionId : Str
  cols : ℤ
  rows : ℤ
  outputPosition : ℕ
  bufferedFrom : ℕ
  exit : Option ExitRecord
  deriving DecidableEq

inductive CloseReason where | empty | limit | endAll | signal | firstAttachTimeout
  deriving DecidableEq

inductive ResultValue where
  | null
  | title (title : Option Str)
  | records (records : List SessionRecord)
  | spawned (record : SessionRecord)
  | attached (record : SessionRecord) (start : ℕ) (presentationError : Option Str)
  deriving DecidableEq

inductive ServerMessage where
  | welcome (version : ℕ) (draining : Bool)
  | refuse
  | result (id : ℕ) (value : ResultValue)
  | failed (id : ℕ) (error : Str)
  | presentation (sessionId : Str) (offset total : ℕ) (payload : Bytes)
  | data (sessionId : Str) (position : ℕ) (payload : Bytes)
  | exit (sessionId : Str) (outputPosition : ℕ) (exit : ExitRecord)
  | closing (reason : CloseReason) (liveSessions endedSessions : ℕ) (attached draining : Bool)
  deriving DecidableEq

/-- A frame written to a socket. The wire carries the message alone: `session` is the number of
the session it is sent for and `requested` the position asked for by the attach it answers. -/
structure Frame where
  socket : ℕ
  session : Option ℕ
  requested : ℕ
  message : ServerMessage
  deriving DecidableEq

/-- Where a recovery stands: it waits for another one of its session, for the observation that was
the latest when it looked, or for the checkpoint; or its rejection is not yet handled. -/
inductive RecoveryStage where
  | waiting
  | draining (pending : ℕ)
  | pinning
  | rejected (error : Str)
  deriving DecidableEq

structure Recovery where
  id : ℕ
  session : ℕ
  position : ℕ
  socket : ℕ
  stage : RecoveryStage
  deriving DecidableEq

structure Observation where
  number : ℕ
  session : ℕ
  bytes : ℕ
  deriving DecidableEq

/-- The close of a holder: its sessions are being ended, the attached socket is being ended, done. -/
inductive Closing where | no | endingSessions | endingSocket | done
  deriving DecidableEq

/-- `held` are all sessions ever spawned, `sessions` the numbers of the registered ones in the order
of the map; `sent` is every frame written, the latest last. -/
structure SessionHolder where
  maxBufferBytes : ℕ
  maxBufferBytes_pos : 0 < maxBufferBytes
  held : List HeldSession
  sessions : List ℕ
  attached : Option ℕ
  destroyed : Bool
  attachedVersion : ℕ
  nextSocket : ℕ
  draining : Bool
  flowPaused : Bool
  closing : Closing
  observations : List Observation
  nextObservation : ℕ
  recoveries : List Recovery
  sent : List Frame

structure SpawnRequest where
  sessionId : Str
  cols : ℤ
  rows : ℤ

/-- A `spawn` comes with what the process module and the presentation authority throw, a
`foreground` with the title the process reports. -/
inductive ClientMessage where
  | list (id : ℕ)
  | spawn (id : ℕ) (request : SpawnRequest) (spawnError presentationError : Option Str)
  | attach (id : ℕ) (sessionId : Str) (position : ℤ)
  | write (sessionId : Str)
  | resize (sessionId : Str) (cols rows : ℤ)
  | signal (sessionId : Str)
  | endSession (id : ℕ) (sessionId : Str)
  | endAll (id : ℕ)
  | pause (sessionId : Str)
  | resume (sessionId : Str)
  | foreground (id : ℕ) (sessionId : Str) (title : Option Str)
  | drain
  | other (id : Option ℕ)

def ClientMessage.id : ClientMessage → Option ℕ
  | .list id | .spawn id _ _ _ | .attach id _ _ | .endSession id _ | .endAll id
  | .foreground id _ _ => some id
  | .other id => id
  | _ => none

def isSafePosition (position : ℤ) : Bool := 0 ≤ position ∧ position ≤ maxSafeInteger

def assertDimension (value : ℤ) (name : String) : Except Str Unit :=
  refuseIf (value < 1 ∨ 10000 < value) (js name ++ js " is invalid")

namespace HeldSession

def create (request : SpawnRequest) (presentationError : Option Str) (maxBufferBytes : ℕ)
    (h : 0 < maxBufferBytes) : HeldSession :=
  { sessionId := request.sessionId
    cols := request.cols
    rows := request.rows
    presentationError := presentationError
    presentationQueue := 0
    presentationBytes := 0
    presentationPaused := false
    recovering := false
    ring := .create maxBufferBytes .withinBoundKeepLast h
    outputPosition := 0
    bufferedFrom := 0
    streaming := true
    serverPaused := false
    exit := none
    dataSubscription := true
    exitSubscription := some .session
    paused := false
    stream := [] }

def record (h : HeldSession) : SessionRecord :=
  ⟨h.sessionId, h.cols, h.rows, h.outputPosition, h.bufferedFrom, h.exit⟩

def wantsPause (flowPaused : Bool) (h : HeldSession) : Bool :=
  h.serverPaused || flowPaused || h.presentationPaused || h.recovering

def syncFlow (flowPaused : Bool) (h : HeldSession) : HeldSession :=
  if h.exit.isSome then h else { h with paused := h.wantsPause flowPaused }

/-- What `observePresentation` does to the session. -/
def observe (flowPaused : Bool) (number bytes : ℕ) (h : HeldSession) : HeldSession :=
  let counted :=
    { h with presentationBytes := h.presentationBytes + bytes, presentationQueue := number }
  if presentationHighBytes ≤ counted.presentationBytes ∧ counted.presentationPaused = false then
    syncFlow flowPaused { counted with presentationPaused := true }
  else counted

def settle (flowPaused : Bool) (bytes : ℕ) (error : Option Str) (h : HeldSession) : HeldSession :=
  let less :=
    { h with
      presentationError := error.or h.presentationError
      presentationBytes := h.presentationBytes - bytes }
  if h.presentationPaused = true ∧ h.presentationBytes - bytes ≤ presentationLowBytes then
    syncFlow flowPaused { less with presentationPaused := false }
  else less

def keep (part : Bytes) (h : HeldSession) : HeldSession :=
  let ring := h.ring.push ⟨h.outputPosition, part⟩
  let outputPosition := h.outputPosition + part.length
  { h with
    ring := ring
    outputPosition := outputPosition
    bufferedFrom := (ring.first.map Chunk.position).getD outputPosition
    stream := h.stream ++ part }

def release (h : HeldSession) : HeldSession :=
  { h with dataSubscription := false, exitSubscription := none }

def ringFrom (start : ℕ) (h : HeldSession) : List (Chunk UInt8) :=
  (h.ring.live.filter fun c => start - c.position < c.bytes.length).map fun c =>
    ⟨c.position + (start - c.position), c.bytes.drop (start - c.position)⟩

end HeldSession

namespace SessionHolder

def create (maxBufferBytes : ℕ) (h : 0 < maxBufferBytes) : SessionHolder :=
  { maxBufferBytes := maxBufferBytes
    maxBufferBytes_pos := h
    held := []
    sessions := []
    attached := none
    destroyed := false
    attachedVersion := 1
    nextSocket := 0
    draining := false
    flowPaused := false
    closing := .no
    observations := []
    nextObservation := 1
    recoveries := []
    sent := [] }

def get (s : SessionHolder) (sessionId : Str) : Option (ℕ × HeldSession) :=
  s.sessions.findSome? fun o =>
    s.held[o]?.bind fun h => if h.sessionId = sessionId then some (o, h) else none

def holds (s : SessionHolder) (o : ℕ) : Bool :=
  match s.held[o]? with
  | some h => (s.get h.sessionId).map Prod.fst = some o
  | none => false

def live (s : SessionHolder) (sessionId : Str) : Except Str (ℕ × HeldSession) := do
  let (o, h) ← demand (s.get sessionId) (js "session not found")
  refuseIf (h.exit.isSome) (js "session has ended")
  pure (o, h)

def update (s : SessionHolder) (o : ℕ) (f : HeldSession → HeldSession) : SessionHolder :=
  { s with held := s.held.modify o f }

def updateAll (s : SessionHolder) (f : HeldSession → HeldSession) : SessionHolder :=
  { s with held := s.held.mapIdx fun o h => if o ∈ s.sessions then f h else h }

def liveCount (s : SessionHolder) : ℕ :=
  s.sessions.countP fun o => s.held[o]?.any fun h => h.exit.isNone

def pauseLive (h : HeldSession) : HeldSession :=
  if h.exit.isSome then h else { h with paused := true }

section Sending

-- the answer of the n-th write to the attached socket: whether it was flushed
variable (flushed : ℕ → Bool)

def sendFor (s : SessionHolder) (session : Option ℕ) (requested : ℕ) (message : ServerMessage) :
    SessionHolder :=
  match s.attached with
  | none => s
  | some socket =>
    if s.destroyed then s
    else
      let written := { s with sent := s.sent ++ [⟨socket, session, requested, message⟩] }
      if flushed s.sent.length = false ∧ s.flowPaused = false then
        { written.updateAll pauseLive with flowPaused := true }
      else written

def send (s : SessionHolder) (message : ServerMessage) : SessionHolder :=
  s.sendFor flushed none 0 message

def sendData (s : SessionHolder) (o : ℕ) (sessionId : Str) (chunk : Chunk UInt8) : SessionHolder :=
  s.sendFor flushed (some o) 0 (.data sessionId chunk.position chunk.bytes)

def sendRing (s : SessionHolder) (o : ℕ) (sessionId : Str) (chunks : List (Chunk UInt8)) :
    SessionHolder :=
  chunks.foldl (fun s chunk => s.sendData flushed o sessionId chunk) s

def sendExit (s : SessionHolder) (o : ℕ) (h : HeldSession) (exit : ExitRecord) : SessionHolder :=
  s.sendFor flushed (some o) 0 (.exit h.sessionId h.outputPosition exit)

def sendEnded (s : SessionHolder) (o : ℕ) (h : HeldSession) : SessionHolder :=
  match h.exit with
  | some exit => s.sendExit flushed o h exit
  | none => s

/-- The answer to an attach: the result, what the ring holds, and the exit if the session has ended.
Live output follows. -/
def sendAttached (s : SessionHolder) (o : ℕ) (h : HeldSession) (id requested : ℕ)
    (presentationError : Option Str) (chunks : List (Chunk UInt8)) : SessionHolder :=
  let answered := s.sendFor flushed (some o) requested
    (.result id (.attached h.record (max requested h.bufferedFrom) presentationError))
  let replayed := answered.sendRing flushed o h.sessionId chunks
  let streaming := replayed.update o fun h => { h with streaming := true }
  streaming.sendEnded flushed o h

def releaseFlow (s : SessionHolder) : SessionHolder :=
  if s.flowPaused then
    { s.updateAll (HeldSession.syncFlow false) with flowPaused := false }
  else s

def close (s : SessionHolder) (reason : CloseReason) : SessionHolder :=
  if s.closing ≠ .no then s
  else
    let announced := { s with closing := .endingSessions }.send flushed
      (.closing reason s.liveCount (s.sessions.length - s.liveCount) s.attached.isSome s.draining)
    announced.updateAll fun h =>
      if h.exit.isSome then h else { h with exitSubscription := some .close }

def ended (s : SessionHolder) : SessionHolder :=
  if s.closing ≠ .endingSessions then s
  else
    let cleared := { s.updateAll HeldSession.release with sessions := [] }
    if s.attached.isSome ∧ s.destroyed = false then { cleared with closing := .endingSocket }
    else { cleared with attached := none, closing := .done }

def exitIfIdle (s : SessionHolder) : SessionHolder :=
  if s.closing ≠ .no ∨ s.liveCount ≠ 0 then s
  else if s.attached = none ∨ s.draining = true then s.close flushed .empty
  else s

def observePresentation (s : SessionHolder) (o : ℕ) (bytes : ℕ) : SessionHolder :=
  match s.held[o]? with
  | none => s
  | some h =>
    if h.presentationError.isSome then s
    else
      { s.update o (HeldSession.observe s.flowPaused s.nextObservation bytes) with
        observations := s.observations ++ [⟨s.nextObservation, o, bytes⟩]
        nextObservation := s.nextObservation + 1 }

def settled (s : SessionHolder) (i : ℕ) (error : Option Str) : SessionHolder :=
  match s.observations[i]? with
  | none => s
  | some observation =>
    { s.update observation.session (HeldSession.settle s.flowPaused observation.bytes error) with
      observations := s.observations.eraseIdx i }

def register (s : SessionHolder) (session : HeldSession) : SessionHolder :=
  { s with held := s.held ++ [session], sessions := s.sessions ++ [s.held.length] }

def spawn (s : SessionHolder) (request : SpawnRequest) (spawnError presentationError : Option Str) :
    Except Str SessionHolder := do
  refuseIf (s.draining = true) (js "session holder is draining")
  refuseIf (idPattern request.sessionId = false) (js "session id is invalid")
  refuseIf ((s.get request.sessionId).isSome) (js "session already exists")
  assertDimension request.cols "cols"
  assertDimension request.rows "rows"
  match spawnError with
  | some error => .error error
  | none =>
    pure (s.register (.create request presentationError s.maxBufferBytes s.maxBufferBytes_pos))

def attach (s : SessionHolder) (id : ℕ) (sessionId : Str) (position : ℤ) :
    Except Str SessionHolder := do
  let (o, h) ← demand (s.get sessionId) (js "session not found")
  refuseIf (isSafePosition position = false) (js "position is invalid")
  refuseIf ((h.outputPosition : ℤ) < position) (js "position is ahead of output")
  let start := max position.toNat h.bufferedFrom
  pure (s.sendAttached flushed o h id position.toNat none (cut start h.ring.live))

def proceed (s : SessionHolder) (r : Recovery) : SessionHolder :=
  match s.held[r.session]? with
  | none => s
  | some h =>
    if h.recovering then { s with recoveries := s.recoveries ++ [{ r with stage := .waiting }] }
    else if s.attached ≠ some r.socket ∨ s.destroyed = true ∨ s.holds r.session = false then s
    else
      { s.update r.session fun h =>
          HeldSession.syncFlow s.flowPaused { h with recovering := true, streaming := false } with
        recoveries := s.recoveries ++ [{ r with stage := .draining h.presentationQueue }] }

def attachPresentation (s : SessionHolder) (id : ℕ) (sessionId : Str) (position : ℤ)
    (socket : ℕ) : SessionHolder :=
  match s.get sessionId with
  | none =>
    { s with recoveries :=
        s.recoveries ++ [⟨id, 0, 0, socket, .rejected (js "invalid recovery request")⟩] }
  | some (o, h) =>
    if isSafePosition position = false ∨ (h.outputPosition : ℤ) < position then
      { s with recoveries :=
          s.recoveries ++ [⟨id, o, 0, socket, .rejected (js "invalid recovery request")⟩] }
    else s.proceed ⟨id, o, position.toNat, socket, .waiting⟩

def sendPresentation (s : SessionHolder) (o : ℕ) (sessionId : Str) (total : ℕ) :
    ℕ → List Bytes → SessionHolder
  | _, [] => s
  | offset, part :: parts =>
    (s.sendFor flushed (some o) 0 (.presentation sessionId offset total part)).sendPresentation o
      sessionId total (offset + part.length) parts

def finish (s : SessionHolder) (r : Recovery) (recovery : Bytes) (presentationError : Option Str) :
    SessionHolder :=
  match s.held[r.session]? with
  | none => s
  | some h =>
    let delivered :=
      if s.attached ≠ some r.socket ∨ s.destroyed = true ∨ s.holds r.session = false then s
      else
        let presented := s.sendPresentation flushed r.session h.sessionId recovery.length 0
          (piecesOf dataFrameBytes recovery.length recovery)
        let start := max r.position h.bufferedFrom
        presented.sendAttached flushed r.session h r.id r.position presentationError
          (h.ringFrom start)
    delivered.update r.session fun h =>
      HeldSession.syncFlow delivered.flowPaused { h with recovering := false }

def recover (s : SessionHolder) (i : ℕ) (pinned : Except Str (ℕ × Bytes)) : SessionHolder :=
  match s.recoveries[i]? with
  | none => s
  | some r =>
    let taken := { s with recoveries := s.recoveries.eraseIdx i }
    match s.held[r.session]?, r.stage with
    | _, .rejected error =>
      if s.attached = some r.socket then taken.send flushed (.failed r.id error) else taken
    | none, _ => taken
    | some h, .waiting =>
      -- the promise of the recovery it waits for is still the session's
      if h.recovering then s else taken.proceed r
    | some h, .draining pending =>
      if s.observations.any fun observation => observation.number = pending then s
      else if pending ≠ h.presentationQueue then
        { taken with recoveries := taken.recoveries ++
            [{ r with stage := .draining h.presentationQueue }] }
      else if h.presentationError.isSome then taken.finish flushed r [] h.presentationError
      else { taken with recoveries := taken.recoveries ++ [{ r with stage := .pinning }] }
    | some h, .pinning =>
      match pinned with
      | .error error => taken.finish flushed r [] (some error)
      | .ok (headPosition, recovery) =>
        if headPosition ≠ h.outputPosition then
          taken.finish flushed r [] (some (js "Error: holder presentation cut changed"))
        else taken.finish flushed r recovery none

def outputPart (o : ℕ) (s : SessionHolder) (part : Bytes) : SessionHolder :=
  match s.held[o]? with
  | none => s
  | some h =>
    let kept := (s.observePresentation o part.length).update o (HeldSession.keep part)
    if h.streaming = true ∧ s.attached ≠ none then
      kept.sendData flushed o h.sessionId ⟨h.outputPosition, part⟩
    else kept

def output (s : SessionHolder) (o : ℕ) (bytes : Bytes) : SessionHolder :=
  if s.held[o]?.any fun h => h.dataSubscription then
    (piecesOf dataFrameBytes bytes.length bytes).foldl (outputPart flushed o) s
  else s

def exited (s : SessionHolder) (o : ℕ) (exit : ExitRecord) : SessionHolder :=
  match s.held[o]? with
  | none => s
  | some h =>
    match h.exitSubscription with
    | none | some .close => s
    | some .terminate =>
      let gone := s.update o fun h =>
        { h with exit := some ⟨none, none, exit.exitedAt⟩ }.release
      gone.exitIfIdle flushed
    | some .session =>
      if h.exit.isSome then s
      else
        let gone := s.update o fun h => { h with exit := some exit }.release
        let told :=
          if h.streaming = true ∧ s.attached ≠ none then gone.sendExit flushed o h exit else gone
        told.exitIfIdle flushed

def endSession (s : SessionHolder) (sessionId : Str) : SessionHolder :=
  match s.get sessionId with
  | none => s
  | some (o, h) =>
    let removed := { s with sessions := s.sessions.filter fun p => p ≠ o }
    if h.exit.isNone then
      removed.update o fun h => { h with exitSubscription := some .terminate }
    else (removed.update o HeldSession.release).exitIfIdle flushed

def detached (s : SessionHolder) : SessionHolder :=
  let left := { s with attached := none, flowPaused := false }
  let synced := left.updateAll fun h =>
    HeldSession.syncFlow false { h with streaming := false, serverPaused := false }
  if s.closing ≠ .no then synced
  else if synced.liveCount = 0 then synced.close flushed .empty
  else synced

def handle (s : SessionHolder) (socket : ℕ) : ClientMessage → Except Str SessionHolder
  | .list id =>
    pure (s.send flushed (.result id (.records (s.sessions.filterMap fun o =>
      s.held[o]?.map HeldSession.record))))
  | .spawn id request spawnError presentationError => do
    let spawned ← s.spawn request spawnError presentationError
    pure (spawned.sendFor flushed (some s.held.length) 0
      (.result id (.spawned ⟨request.sessionId, request.cols, request.rows, 0, 0, none⟩)))
  | .attach id sessionId position =>
    if 3 ≤ s.attachedVersion then pure (s.attachPresentation id sessionId position socket)
    else s.attach flushed id sessionId position
  | .write sessionId | .signal sessionId => do
    let _ ← s.live sessionId
    pure s
  | .resize sessionId cols rows => do
    let (o, _) ← s.live sessionId
    assertDimension cols "cols"
    assertDimension rows "rows"
    pure ((s.update o fun h => { h with cols := cols, rows := rows }).observePresentation o 0)
  | .endSession id sessionId =>
    pure ((s.endSession flushed sessionId).send flushed (.result id .null))
  | .endAll id => pure ((s.send flushed (.result id .null)).close flushed .endAll)
  | .pause sessionId => do
    let (o, _) ← s.live sessionId
    pure (s.update o fun h => HeldSession.syncFlow s.flowPaused { h with serverPaused := true })
  | .resume sessionId => do
    let (o, _) ← s.live sessionId
    pure (s.update o fun h => HeldSession.syncFlow s.flowPaused { h with serverPaused := false })
  | .foreground id sessionId title => do
    let _ ← s.live sessionId
    pure (s.send flushed (.result id (.title title)))
  | .drain =>
    let drained := { s with draining := true }
    pure (if s.liveCount = 0 then drained.close flushed .empty else drained)
  | .other _ => .error (js "unknown request")

def receive (s : SessionHolder) (message : ClientMessage) : SessionHolder :=
  match s.attached with
  | none => s
  | some socket =>
    match s.handle flushed socket message, message.id with
    | .ok next, _ => next
    | .error error, some id => s.send flushed (.failed id error)
    | .error _, none => s

/-- A server has authenticated on a new socket. The reply is written directly. -/
def admitServer (s : SessionHolder) (version : ℕ) : SessionHolder :=
  if s.closing = .done then s
  else
    match s.attached with
    | some _ =>
      { s with
        sent := s.sent ++ [⟨s.nextSocket, none, 0, .refuse⟩]
        nextSocket := s.nextSocket + 1 }
    | none =>
      { s with
        sent := s.sent ++ [⟨s.nextSocket, none, 0, .welcome version s.draining⟩]
        attached := some s.nextSocket
        destroyed := false
        attachedVersion := version
        nextSocket := s.nextSocket + 1 }

def disconnected (s : SessionHolder) : SessionHolder :=
  match s.attached with
  | none => s
  | some _ =>
    if s.closing = .endingSocket then { s.detached flushed with closing := .done }
    else s.detached flushed

inductive Input where
  | admitServer (version : ℕ)
  | receive (message : ClientMessage)
  | destroyed
  | drained
  | disconnected
  | output (session : ℕ) (bytes : Bytes)
  | exited (session : ℕ) (exit : ExitRecord)
  | settled (observation : ℕ) (error : Option Str)
  | recover (recovery : ℕ) (pinned : Except Str (ℕ × Bytes))
  | close (reason : CloseReason)
  | ended

def step (s : SessionHolder) : Input → SessionHolder
  | .admitServer version => s.admitServer version
  | .receive message => s.receive flushed message
  | .destroyed => { s with destroyed := true }
  | .drained => if s.attached.isSome then s.releaseFlow else s
  | .disconnected => s.disconnected flushed
  | .output o bytes => s.output flushed o bytes
  | .exited o exit => s.exited flushed o exit
  | .settled i error => s.settled i error
  | .recover i pinned => s.recover flushed i pinned
  | .close reason => s.close flushed reason
  | .ended => s.ended

def run (s : SessionHolder) (inputs : List Input) : SessionHolder :=
  Runs.after (step flushed) s inputs

end Sending

end SessionHolder

end Terminay.Holder
