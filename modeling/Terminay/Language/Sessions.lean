import Mathlib.Algebra.Order.Ring.Rat
import Terminay.Lib.OrderedMap
import Terminay.Lib.Table
import Terminay.Script.Text

/-!
# The language session manager

Records are numbered in the order in which they were made; the session id of a record is its
number. A caller and a `stopSession` call wait for the start of a record, for an invocation of
the extension, or for their own continuation, and every one of these is a moment of its own. A
record remembers what the extension did with its session, and the manager what it handed out and
when it started a session.
-/

namespace Terminay.Language
open Script

structure LanguageServerProvider where
  extensionId : Str
  languageServerId : Str
  languageIds : List Str
  deriving DecidableEq

/-- `languageServersFor`: what the extension platform serves at a moment. -/
abbrev Servers := Str → List LanguageServerProvider

inductive LanguageSessionState where | starting | ready | unavailable
  deriving DecidableEq

inductive LanguageUnavailableReason where | launchFailed | crashed | stopped
  deriving DecidableEq

def LanguageUnavailableReason.text : LanguageUnavailableReason → Str
  | launchFailed => js "launch-failed"
  | crashed => js "crashed"
  | stopped => js "stopped"

/-- What the start of a session waits for. -/
inductive Start where | root | invocation
  deriving DecidableEq

structure SessionRecord where
  key : Str
  projectId : Str
  extensionId : Str
  state : LanguageSessionState
  reason : Option LanguageUnavailableReason
  starting : Option Start
  openDocuments : OrderedMap Str ℚ
  inFlight : ℤ
  lastActivity : ℚ
  retryAfter : ℚ
  idleTimer : Option ℕ
  /-- The start invocation succeeded. -/
  started : Bool
  /-- The extension told that the session exited. -/
  exited : Bool
  /-- The stop invocations sent. -/
  stops : ℕ

def SessionRecord.unmade : SessionRecord where
  key := []
  projectId := []
  extensionId := []
  state := .unavailable
  reason := none
  starting := none
  openDocuments := .empty
  inFlight := 0
  lastActivity := 0
  retryAfter := 0
  idleTimer := none
  started := false
  exited := false
  stops := 0

inductive Purpose where
  | describe
  | open (path : Str) (revision : ℚ)
  | change (path : Str) (revision : ℚ)
  | close
  | request
  deriving DecidableEq

/-- Where a caller is: its session starts, was returned, was handed out as ready, has an
invocation in flight or one that succeeded. -/
inductive CallerStage where
  | starting (record : ℕ)
  | returned (record : ℕ)
  | handed (record : ℕ)
  | invoking (record : ℕ)
  | answered (record : ℕ)
  | resolved
  | rejected (message : Str)
  deriving DecidableEq

structure Caller where
  projectId : Str
  purpose : Purpose
  stage : CallerStage
  deriving DecidableEq

/-- Where a loop over records to stop is: about to take the next, waiting for the start of one, or
for its stop invocation. -/
inductive StopStage where
  | next
  | starting (record : ℕ)
  | stopping (record : ℕ)
  deriving DecidableEq

structure Stopping where
  stage : StopStage
  rest : List ℕ
  deriving DecidableEq

structure Launch where
  key : Str
  startedAt : ℚ
  cooling : Option ℚ

structure Handed where
  record : ℕ
  registered : Bool

structure LanguageSessionManager where
  sessions : OrderedMap Str ℕ
  bySessionId : Finset ℕ
  sequence : ℕ
  records : ℕ → SessionRecord
  clock : ℚ
  timers : Table.Of ℕ ℕ
  nextTimer : ℕ
  callers : List Caller
  stopping : List Stopping
  cooling : Table.Of Str ℚ
  launches : List Launch
  handed : List Handed

structure Options where
  maxSessions : ℕ
  idleMs : ℚ
  failureCooldownMs : ℚ
  toLowerCase : Str → Str

def LanguageSessionManager.new (now : ℚ) : LanguageSessionManager where
  sessions := .empty
  bySessionId := ∅
  sequence := 0
  records _ := .unmade
  clock := now
  timers := ∅
  nextTimer := 0
  callers := []
  stopping := []
  cooling := ∅
  launches := []
  handed := []

def fileExtension (o : Options) (path : Str) : Option Str :=
  let leaf := (path.reverse.takeWhile (· ≠ unit '/')).reverse
  let tail := (leaf.reverse.takeWhile (· ≠ unit '.')).reverse
  if leaf.length ≤ tail.length + 1 then none else some (o.toLowerCase (unit '.' :: tail))

def providerFor (o : Options) (servers : Servers) (path : Str) : Option LanguageServerProvider :=
  (fileExtension o path).bind fun selector => (servers selector).head?

def sessionKey (projectId : Str) (provider : LanguageServerProvider) : Str :=
  projectId ++ 0 :: provider.languageServerId

def noProviderMessage : Str := js "no language server serves this file"
def unavailableMessage : Str := js "language session is unavailable"

/-! ## Records -/

variable (o : Options) (s : LanguageSessionManager)

def Registered (r : ℕ) : Prop := s.sessions.get (s.records r).key = some r

instance (r : ℕ) : Decidable (Registered s r) :=
  inferInstanceAs (Decidable (s.sessions.get (s.records r).key = some r))

def setRecord (r : ℕ) (record : SessionRecord) : LanguageSessionManager :=
  { s with records := fun q => if q = r then record else s.records q }

def cancelTimer (timers : Table.Of ℕ ℕ) : Option ℕ → Table.Of ℕ ℕ
  | none => timers
  | some timer => timers.erase timer

def touch (r : ℕ) : LanguageSessionManager :=
  { setRecord s r
      { s.records r with lastActivity := s.clock, idleTimer := some s.nextTimer } with
    timers := (cancelTimer s.timers (s.records r).idleTimer).insert s.nextTimer r
    nextTimer := s.nextTimer + 1 }

def forget (r : ℕ) : LanguageSessionManager :=
  { setRecord s r { s.records r with idleTimer := none } with
    timers := cancelTimer s.timers (s.records r).idleTimer
    sessions := if s.sessions.get (s.records r).key = some r then
      s.sessions.delete (s.records r).key else s.sessions
    bySessionId := s.bySessionId.erase r }

def cool (r : ℕ) (record : SessionRecord) : LanguageSessionManager :=
  let retryAfter := s.clock + o.failureCooldownMs
  { setRecord s r { record with state := .unavailable, retryAfter := retryAfter } with
    cooling := s.cooling.insert record.key retryAfter }

def Cooling (r : ℕ) : Prop :=
  (s.records r).state = .unavailable ∧ s.clock < (s.records r).retryAfter

instance (r : ℕ) : Decidable (Cooling s r) :=
  inferInstanceAs (Decidable ((s.records r).state = .unavailable ∧
    s.clock < (s.records r).retryAfter))

/-! ## Sessions -/

/-- What `session` answers: a record at once, a record to wait for, or a refusal. -/
inductive SessionAnswer where
  | returned (record : ℕ)
  | starting (record : ℕ)
  | rejected (message : Str)
  deriving DecidableEq

def launch (projectId : Str) (provider : LanguageServerProvider) :
    LanguageSessionManager × SessionAnswer :=
  let key := sessionKey projectId provider
  if o.maxSessions ≤ s.sessions.size then (s, .rejected (js "capacity"))
  else
    let record : SessionRecord := { SessionRecord.unmade with
      key := key
      projectId := projectId
      extensionId := provider.extensionId
      state := .starting
      starting := some .root
      lastActivity := s.clock }
    ({ setRecord s s.sequence record with
        sessions := s.sessions.set key s.sequence
        bySessionId := insert s.sequence s.bySessionId
        sequence := s.sequence + 1
        launches := s.launches ++ [⟨key, s.clock, s.cooling[key]?⟩] },
      .starting s.sequence)

def session (projectId : Str) (provider : LanguageServerProvider) :
    LanguageSessionManager × SessionAnswer :=
  match s.sessions.get (sessionKey projectId provider) with
  | none => launch o s projectId provider
  | some r =>
    if (s.records r).state = .unavailable then
      if s.clock < (s.records r).retryAfter then (s, .returned r)
      else launch o (forget s r) projectId provider
    else if (s.records r).starting.isSome then (s, .starting r)
    else (touch s r, .returned r)

def SessionAnswer.stage : SessionAnswer → CallerStage
  | .returned r => .returned r
  | .starting r => .starting r
  | .rejected message => .rejected message

def call (projectId : Str) (provider : Option LanguageServerProvider) :
    LanguageSessionManager × CallerStage :=
  match provider with
  | none => (s, .rejected noProviderMessage)
  | some provider =>
    let answered := session o s projectId provider
    (answered.1, answered.2.stage)

def addCaller (projectId : Str) (purpose : Purpose)
    (called : LanguageSessionManager × CallerStage) : LanguageSessionManager :=
  { called.1 with callers := called.1.callers ++ [⟨projectId, purpose, called.2⟩] }

structure LanguageSessionDescription where
  state : Option LanguageSessionState
  languageServerId : Option Str
  languageId : Option Str
  reason : Option LanguageUnavailableReason

def describe (projectId path : Str) (servers : Servers) :
    LanguageSessionManager × LanguageSessionDescription :=
  match providerFor o servers path with
  | none => (s, ⟨none, none, none, none⟩)
  | some provider =>
    let languageId := provider.languageIds.head?.or ((fileExtension o path).map (·.drop 1))
    match s.sessions.get (sessionKey projectId provider) with
    | none =>
      (addCaller projectId .describe (call o s projectId (some provider)),
        ⟨some .starting, some provider.languageServerId, languageId, none⟩)
    | some r =>
      (s, ⟨some (s.records r).state, some provider.languageServerId, languageId,
        (s.records r).reason⟩)

def startFailed (r : ℕ) : LanguageSessionManager :=
  cool o s r { s.records r with starting := none, reason := some .launchFailed }

def answerRoot (r : ℕ) (found : Bool) : LanguageSessionManager :=
  if (s.records r).starting = some .root then
    if found then setRecord s r { s.records r with starting := some .invocation }
    else startFailed o s r
  else s

def answerStart (r : ℕ) (succeeded : Bool) : LanguageSessionManager :=
  if (s.records r).starting = some .invocation then
    if succeeded then
      let record := s.records r
      setRecord s r { record with
        state := if record.state = .starting then .ready else record.state
        starting := none
        started := true }
    else startFailed o s r
  else s

/-! ## Callers -/

def setStage (i : ℕ) (caller : Caller) (stage : CallerStage) : LanguageSessionManager :=
  { s with callers := s.callers.set i { caller with stage := stage } }

def invoke (r : ℕ) : LanguageSessionManager :=
  touch (setRecord s r { s.records r with inFlight := (s.records r).inFlight + 1 }) r

def invoked (r : ℕ) : LanguageSessionManager :=
  touch (setRecord s r { s.records r with inFlight := (s.records r).inFlight - 1 }) r

def resumeCaller (i : ℕ) (caller : Caller) (servers : Servers) : LanguageSessionManager :=
  match caller.stage with
  | .starting r =>
    if (s.records r).starting.isSome then s else setStage (touch s r) i caller (.returned r)
  | .returned r =>
    if caller.purpose = .describe then setStage s i caller .resolved
    else if (s.records r).state = .ready then
      let handed : Handed := ⟨r, decide (Registered s r)⟩
      setStage { s with handed := s.handed ++ [handed] } i caller (.handed r)
    else
      setStage s i caller
        (.rejected (((s.records r).reason.map (·.text)).getD unavailableMessage))
  | .handed r =>
    match caller.purpose with
    | .change path revision =>
      if ((s.records r).openDocuments.get path).isSome then
        setStage (invoke s r) i caller (.invoking r)
      else
        let called := call o s caller.projectId (providerFor o servers path)
        setStage called.1 i { caller with purpose := .open path revision } called.2
    | _ => setStage (invoke s r) i caller (.invoking r)
  | .answered r =>
    match caller.purpose with
    | .open path revision | .change path revision =>
      let record := s.records r
      let documents := record.openDocuments.set path revision
      setStage (setRecord s r { record with openDocuments := documents }) i caller .resolved
    | _ => setStage s i caller .resolved
  | _ => s

def answerCaller (i : ℕ) (caller : Caller) (failure : Option Str) : LanguageSessionManager :=
  match caller.stage with
  | .invoking r =>
    match failure with
    | none => setStage (invoked s r) i caller (.answered r)
    | some message => setStage (invoked s r) i caller (.rejected message)
  | _ => s

def closeDocument (projectId path : Str) (servers : Servers) : LanguageSessionManager :=
  match providerFor o servers path with
  | none => s
  | some provider =>
    match s.sessions.get (sessionKey projectId provider) with
    | none => s
    | some r =>
      if (s.records r).state = .ready then
        let record := s.records r
        let t := setRecord s r { record with openDocuments := record.openDocuments.delete path }
        addCaller projectId .close (invoke t r, .invoking r)
      else s

/-! ## Stops -/

def stopStarted (r : ℕ) : LanguageSessionManager × StopStage :=
  let record := s.records r
  if record.state = .ready then
    (setRecord s r { record with
      state := .unavailable
      reason := some .stopped
      stops := record.stops + 1 }, .stopping r)
  else (s, .next)

def stopSession (r : ℕ) : LanguageSessionManager × StopStage :=
  let t := forget s r
  if (s.records r).starting.isSome then (t, .starting r) else stopStarted t r

def stopNext (rest : List ℕ) : LanguageSessionManager × Stopping :=
  match rest with
  | [] => (s, ⟨.next, []⟩)
  | r :: rest =>
    let stopped := stopSession s r
    (stopped.1, ⟨stopped.2, rest⟩)

def addStopping (stopped : LanguageSessionManager × Stopping) : LanguageSessionManager :=
  { stopped.1 with stopping := stopped.1.stopping ++ [stopped.2] }

def stopAll (select : SessionRecord → Bool) : LanguageSessionManager :=
  addStopping (stopNext s (s.sessions.values.filter fun r => select (s.records r)))

def setStopping (i : ℕ) (stopped : LanguageSessionManager × Stopping) : LanguageSessionManager :=
  { stopped.1 with stopping := stopped.1.stopping.set i stopped.2 }

def resumeStopping (i : ℕ) (loop : Stopping) : LanguageSessionManager :=
  match loop.stage with
  | .next => setStopping i (stopNext s loop.rest)
  | .starting r =>
    if (s.records r).starting.isSome then s
    else
      let stopped := stopStarted s r
      setStopping i (stopped.1, ⟨stopped.2, loop.rest⟩)
  | .stopping _ => s

def answerStop (i : ℕ) (loop : Stopping) : LanguageSessionManager :=
  match loop.stage with
  | .stopping _ => setStopping i (s, ⟨.next, loop.rest⟩)
  | _ => s

/-! ## The extension and the timers -/

inductive ExitReason where | stopped | startFailed | crashed
  deriving DecidableEq

def ExitReason.reason : ExitReason → LanguageUnavailableReason
  | stopped => .stopped
  | startFailed => .launchFailed
  | crashed => .crashed

def failSession (r : ℕ) (exit : ExitReason) : LanguageSessionManager :=
  let record := { s.records r with exited := true }
  if r ∈ s.bySessionId then
    let record := { record with
      state := .unavailable
      reason := some exit.reason
      openDocuments := .empty }
    if exit = .stopped then forget (setRecord s r record) r else cool o s r record
  else setRecord s r record

def Reaps (r : ℕ) : Prop :=
  (s.records r).openDocuments.size = 0 ∧ (s.records r).inFlight ≤ 0 ∧
    o.idleMs ≤ s.clock - (s.records r).lastActivity

instance (r : ℕ) : Decidable (Reaps o s r) :=
  inferInstanceAs (Decidable ((s.records r).openDocuments.size = 0 ∧
    (s.records r).inFlight ≤ 0 ∧ o.idleMs ≤ s.clock - (s.records r).lastActivity))

def fire (timer : ℕ) : LanguageSessionManager :=
  match s.timers[timer]? with
  | none => s
  | some r =>
    let t := { setRecord s r { s.records r with idleTimer := none } with
      timers := s.timers.erase timer }
    if Reaps o t r then addStopping (stopNext t [r]) else touch t r

/-! ## Moments -/

inductive Moment where
  | time (now : ℚ)
  | describe (projectId path : Str) (servers : Servers)
  | openDocument (projectId path : Str) (revision : ℚ) (servers : Servers)
  | changeDocument (projectId path : Str) (revision : ℚ) (servers : Servers)
  | closeDocument (projectId path : Str) (servers : Servers)
  | request (projectId path : Str) (servers : Servers)
  | closeProject (projectId : Str)
  | hostState (extensionId state : Str)
  | root (record : ℕ) (found : Bool)
  | start (record : ℕ) (succeeded : Bool)
  | exit (record : ℕ) (reason : ExitReason)
  | resumeCaller (caller : ℕ) (servers : Servers)
  | answerCaller (caller : ℕ) (failure : Option Str)
  | resumeStopping (loop : ℕ)
  | answerStop (loop : ℕ)
  | fire (timer : ℕ)

def step : Moment → LanguageSessionManager
  | .time now => { s with clock := max s.clock now }
  | .describe projectId path servers => (describe o s projectId path servers).1
  | .openDocument projectId path revision servers =>
    addCaller projectId (.open path revision) (call o s projectId (providerFor o servers path))
  | .changeDocument projectId path revision servers =>
    addCaller projectId (.change path revision) (call o s projectId (providerFor o servers path))
  | .closeDocument projectId path servers => closeDocument o s projectId path servers
  | .request projectId path servers =>
    addCaller projectId .request (call o s projectId (providerFor o servers path))
  | .closeProject projectId => stopAll s fun record => record.projectId == projectId
  | .hostState extensionId state =>
    if state = js "running" ∨ state = js "starting" then s
    else stopAll s fun record => record.extensionId == extensionId
  | .root r found => answerRoot o s r found
  | .start r succeeded => answerStart o s r succeeded
  | .exit r reason => failSession o s r reason
  | .resumeCaller i servers =>
    match s.callers[i]? with
    | some caller => resumeCaller o s i caller servers
    | none => s
  | .answerCaller i failure =>
    match s.callers[i]? with
    | some caller => answerCaller s i caller failure
    | none => s
  | .resumeStopping i =>
    match s.stopping[i]? with
    | some loop => resumeStopping s i loop
    | none => s
  | .answerStop i =>
    match s.stopping[i]? with
    | some loop => answerStop s i loop
    | none => s
  | .fire timer => fire o s timer

end Terminay.Language
