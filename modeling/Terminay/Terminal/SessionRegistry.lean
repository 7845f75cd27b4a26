import Terminay.Lib.Runs
import Terminay.Terminal.InputSources

/-!
# The session registry

A session is created, adopted or resolved in steps: checks, a wait for the
process to start, and what the call does then. Objects and processes are numbered
in the order in which they come up. A shutdown signals the processes of the
registered sessions, or lets go of them when it detaches.
-/

namespace Terminay.Terminal
open Script Workspace Outcome

structure TerminalServiceLimits where
  maxSessions : ℕ
  maxCols : ℕ
  maxRows : ℕ

structure TerminalResolvedLaunch where
  identity : TerminalIdentity
  cols : ℚ
  rows : ℚ
  createdAt : ℚ
  shellPath : Str
  cwd : Str

structure TerminalCreateOptions where
  serverId : Option Str
  projectId : Str
  sessionId : Str
  cols : ℚ
  rows : ℚ
  createdAt : ℚ
  shellPath : Str

structure TerminalAdoptOptions where
  identity : TerminalIdentity
  cols : ℚ
  rows : ℚ
  createdAt : ℚ
  outputPosition : ℚ

inductive TerminalExitReason where | exit | killed | interrupted | shutdown | spawnError
  deriving DecidableEq

structure MutableSession where
  identity : TerminalIdentity
  status : TerminalSessionStatus
  process : Option ℕ
  pendingExitReason : Option TerminalExitReason

/-- Signalled: told to end. Released: left to the holder of a detached service. -/
inductive PtyState where | running | signalled | released | ended
  deriving DecidableEq

structure Pty where
  sessionId : Str
  object : ℕ
  state : PtyState
  deriving DecidableEq

structure Creation where
  object : ℕ
  sessionId : Str
  resolved : Bool

structure SessionService where
  objects : Table.Of ℕ MutableSession
  nextObject : ℕ
  sessionsById : Table.Of Str ℕ
  pending : List Creation
  ptys : Table.Of ℕ Pty
  nextPty : ℕ
  stopping : Bool
  closing : List (ℕ × TerminalExitReason)

def assertTerminalId (value : Str) (name : String) : Except Thrown Unit :=
  refuseIf (idPattern value = false) (.service ⟨.invalidIdentity, js name ++ js " is invalid", []⟩)

def validateDimensions (limits : TerminalServiceLimits) (cols rows : ℚ) : Except Thrown Unit :=
  refuseIf (isSafeInteger cols = false ∨ cols ≤ 0 ∨ limits.maxCols < cols ∨
      isSafeInteger rows = false ∨ rows ≤ 0 ∨ limits.maxRows < rows)
    (refusal .invalidDimensions "terminal dimensions exceed the configured bounds"
      [("max", .number (max limits.maxCols limits.maxRows))])

def validateCreatedAt (createdAt : ℚ) : Except Thrown Unit :=
  refuseIf (isSafeInteger createdAt = false ∨ createdAt < 0)
    (.type (js "createdAt must be a non-negative safe integer"))

def validatePosition (position : ℚ) : Except Thrown Unit :=
  refuseIf (isSafeInteger position = false ∨ position < 0)
    (refusal .invalidPosition "terminal position must be a non-negative safe integer"
      [("actual", .rational position)])

namespace SessionService

def assertRunning (s : SessionService) : Except Thrown Unit :=
  refuseIf (s.stopping = true)
    (refusal .serviceShutdown "terminal service is shutting down" [])

def assertFree (s : SessionService) (limits : TerminalServiceLimits) (sessionId : Str) :
    Except Thrown Unit := do
  refuseIf (s.sessionsById[sessionId]?.isSome = true)
    (refusal .sessionExists "terminal session already exists"
      [("sessionId", .text sessionId)])
  refuseIf (limits.maxSessions ≤ s.sessionsById.size)
    (refusal .sessionLimit "terminal session limit reached"
      [("max", .number limits.maxSessions)])

def anotherServer : Thrown := forbidden "terminal belongs to another server" []

def checkResolved (serverId : Str) (limits : TerminalServiceLimits) (s : SessionService)
    (launch : TerminalResolvedLaunch) : Except Thrown Unit := do
  s.assertRunning
  refuseIf (launch.identity.serverId ≠ serverId) anotherServer
  assertTerminalId launch.identity.projectId "projectId"
  assertTerminalId launch.identity.sessionId "sessionId"
  s.assertFree limits launch.identity.sessionId
  validateDimensions limits launch.cols launch.rows
  validateCreatedAt launch.createdAt
  refuseIf (trim launch.shellPath = []) (.type (js "resolved shell path is invalid"))
  refuseIf (launch.cwd = []) (.type (js "resolved terminal cwd is invalid"))

def checkCreate (serverId : Str) (limits : TerminalServiceLimits) (s : SessionService)
    (options : TerminalCreateOptions) : Except Thrown Unit := do
  s.assertRunning
  refuseIf (options.serverId.any fun given => given ≠ serverId)
    (forbidden "terminal belongs to another server"
      [("serverId", .text serverId), ("actual", .text (options.serverId.getD []))])
  assertTerminalId options.projectId "projectId"
  assertTerminalId options.sessionId "sessionId"
  s.assertFree limits options.sessionId
  validateDimensions limits options.cols options.rows
  validateCreatedAt options.createdAt
  refuseIf (trim options.shellPath = []) (.type (js "default shell path is invalid"))

def checkAdopt (serverId : Str) (limits : TerminalServiceLimits) (s : SessionService)
    (options : TerminalAdoptOptions) : Except Thrown Unit := do
  s.assertRunning
  refuseIf (options.identity.serverId ≠ serverId) anotherServer
  assertTerminalId options.identity.projectId "projectId"
  assertTerminalId options.identity.sessionId "sessionId"
  s.assertFree limits options.identity.sessionId
  validateDimensions limits options.cols options.rows
  validatePosition options.outputPosition
  validateCreatedAt options.createdAt

end SessionService

namespace SessionService

def initial : SessionService := ⟨∅, 0, ∅, [], ∅, 0, false, []⟩

def opened (identity : TerminalIdentity) (process : Option ℕ) : MutableSession :=
  ⟨identity, .running, process, none⟩

def finished (reason : TerminalExitReason) (session : MutableSession) : MutableSession :=
  if session.status = .running then
    { session with
      status := if reason = .interrupted ∨ reason = .shutdown then .interrupted else .exited
      pendingExitReason := none }
  else session

def finish (s : SessionService) (object : ℕ) (reason : TerminalExitReason) : SessionService :=
  { s with objects := Table.update s.objects object (finished reason) }

def createResolvedSession (serverId : Str) (limits : TerminalServiceLimits) (s : SessionService)
    (launch : TerminalResolvedLaunch) (prepared : Except Thrown Unit) :
    Except Thrown Unit × SessionService :=
  match (do s.checkResolved serverId limits launch; prepared) with
  | .error error => (.error error, s)
  | .ok () =>
    (.ok (),
      { s with
        objects := s.objects.insert s.nextObject (opened launch.identity none)
        nextObject := s.nextObject + 1
        pending := s.pending ++ [⟨s.nextObject, launch.identity.sessionId, true⟩] })

def createSession (serverId : Str) (limits : TerminalServiceLimits) (s : SessionService)
    (options : TerminalCreateOptions) (prepared : Except Thrown Unit) :
    Except Thrown Unit × SessionService :=
  match (do s.checkCreate serverId limits options; prepared) with
  | .error error => (.error error, s)
  | .ok () =>
    (.ok (),
      { s with
        objects := s.objects.insert s.nextObject
          (opened ⟨serverId, options.projectId, options.sessionId⟩ none)
        nextObject := s.nextObject + 1
        sessionsById := s.sessionsById.insert options.sessionId s.nextObject
        pending := s.pending ++ [⟨s.nextObject, options.sessionId, false⟩] })

def adoptSession (serverId : Str) (limits : TerminalServiceLimits) (s : SessionService)
    (options : TerminalAdoptOptions) : Except Thrown Unit × SessionService :=
  match s.checkAdopt serverId limits options with
  | .error error => (.error error, s)
  | .ok () =>
    (.ok (),
      { s with
        objects := s.objects.insert s.nextObject (opened options.identity (some s.nextPty))
        nextObject := s.nextObject + 1
        sessionsById := s.sessionsById.insert options.identity.sessionId s.nextObject
        ptys := s.ptys.insert s.nextPty ⟨options.identity.sessionId, s.nextObject, .running⟩
        nextPty := s.nextPty + 1 })

def started (s : SessionService) (creation : Creation) : SessionService :=
  { s with
    objects := Table.update s.objects creation.object fun session =>
      { session with process := some s.nextPty }
    sessionsById :=
      if creation.resolved then s.sessionsById.insert creation.sessionId creation.object
      else s.sessionsById
    ptys := s.ptys.insert s.nextPty ⟨creation.sessionId, creation.object, .running⟩
    nextPty := s.nextPty + 1 }

def failed (s : SessionService) (creation : Creation) : SessionService :=
  if creation.resolved then { s with sessionsById := s.sessionsById.erase creation.sessionId }
  else s.finish creation.object .spawnError

def spawned (s : SessionService) (index : ℕ) (ok : Bool) : SessionService :=
  match s.pending[index]? with
  | none => s
  | some creation =>
    let rest := { s with pending := s.pending.eraseIdx index }
    if ok then rest.started creation else rest.failed creation

def ptyExited (s : SessionService) (pty : ℕ) : SessionService :=
  match s.ptys[pty]? with
  | none => s
  | some process =>
    let ended := { s with ptys := s.ptys.insert pty { process with state := .ended } }
    if process.state = .released then ended
    else
      let reason := (s.objects[process.object]?.bind MutableSession.pendingExitReason).getD .exit
      ended.finish process.object reason

def isRegistered (s : SessionService) (object : ℕ) (session : MutableSession) : Bool :=
  s.sessionsById[session.identity.sessionId]? = some object

def belongs (s : SessionService) (condition : MutableSession → Bool) (pty : ℕ) (process : Pty) :
    Bool :=
  s.objects[process.object]?.any fun session =>
    session.process = some pty && s.isRegistered process.object session && condition session

def isRunning (session : MutableSession) : Bool := session.status = .running

def detachAll (s : SessionService) : SessionService :=
  { s with
    objects := Table.mapValues (fun object session =>
      if s.isRegistered object session then { session with process := none } else session) s.objects
    ptys := Table.mapValues (fun pty process =>
      if s.belongs (fun _ => true) pty process ∧ process.state ≠ .ended then
        { process with state := .released }
      else process) s.ptys
    sessionsById := ∅ }

def killAll (s : SessionService) (reason : TerminalExitReason) : SessionService :=
  { s with
    objects := Table.mapValues (fun object session =>
      if s.isRegistered object session ∧ session.status = .running then
        { session with pendingExitReason := some reason }
      else session) s.objects
    ptys := Table.mapValues (fun pty process =>
      if s.belongs isRunning pty process ∧ process.state = .running then
        { process with state := .signalled }
      else process) s.ptys
    closing := s.closing ++ (s.objects.toList.filter fun e =>
      s.isRegistered e.1 e.2 && isRunning e.2).map fun e => (e.1, reason) }

def shutdown (s : SessionService) (detach : Bool) (reason : TerminalExitReason) : SessionService :=
  if s.stopping = true ∧ s.sessionsById.size = 0 then s
  else if detach then { s with stopping := true }.detachAll
  else { s with stopping := true }.killAll reason

def shutdownFinishes (s : SessionService) (index : ℕ) : SessionService :=
  match s.closing[index]? with
  | none => s
  | some entry => { s with closing := s.closing.eraseIdx index }.finish entry.1 entry.2

end SessionService

inductive ServiceInput where
  | createResolvedSession (launch : TerminalResolvedLaunch) (prepared : Except Thrown Unit)
  | createSession (options : TerminalCreateOptions) (prepared : Except Thrown Unit)
  | adoptSession (options : TerminalAdoptOptions)
  | spawned (index : ℕ) (ok : Bool)
  | ptyExited (pty : ℕ)
  | shutdown (detach : Bool) (reason : TerminalExitReason)
  | shutdownFinishes (index : ℕ)

namespace SessionService

def step (serverId : Str) (limits : TerminalServiceLimits) (s : SessionService) :
    ServiceInput → SessionService
  | .createResolvedSession launch prepared =>
    (s.createResolvedSession serverId limits launch prepared).2
  | .createSession options prepared => (s.createSession serverId limits options prepared).2
  | .adoptSession options => (s.adoptSession serverId limits options).2
  | .spawned index ok => s.spawned index ok
  | .ptyExited pty => s.ptyExited pty
  | .shutdown detach reason => s.shutdown detach reason
  | .shutdownFinishes index => s.shutdownFinishes index

end SessionService

end Terminay.Terminal
