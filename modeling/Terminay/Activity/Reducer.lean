import Terminay.Lib.Entries
import Terminay.Lib.Journal
import Terminay.Lib.Runs
import Terminay.Activity.Session

/-!
# The activity reducer

Every operation addresses one live session, ends its periods that are over, and
publishes the session when a reader would see it changed. A published event takes
one revision and enters a bounded journal that clients replay.
-/

namespace Terminay.Activity
open Script Terminal Outcome

inductive ActivityEventType where | changed | removed
  deriving DecidableEq

structure ActivityEvent where
  revision : ℕ
  cursor : Str
  type : ActivityEventType
  sessionId : Str
  snapshot : Option TerminalActivitySessionSnapshot
  deriving DecidableEq

structure ActivitySnapshot where
  revision : ℕ
  cursor : Str
  sessions : Table.Of Str TerminalActivitySessionSnapshot

/-- What a run has told readers: registrations answer a snapshot, events carry one. -/
inductive Announcement where
  | registered (snapshot : TerminalActivitySessionSnapshot)
  | published (event : ActivityEvent)

/-- `log` is the history of announcements; the reducer itself keeps only `events`. -/
structure TerminalActivityReducer where
  sessionsById : List (Str × MutableSession)
  exited : List Str
  events : List ActivityEvent
  currentRevision : ℕ
  log : List Announcement

def assertSessionId (value : Str) : Except Thrown Unit :=
  refuseIf (value = [] ∨ 128 < value.length ∨ 0 ∈ value) (.type (js "sessionId is invalid"))

def assertProviderUpdate (update : ProviderActivityUpdate) : Except Thrown Unit := do
  refuseIf (update.provider = [] ∨ 64 < update.provider.length ∨ 0 ∈ update.provider)
    (.type (js "provider update is invalid"))
  refuseIf (update.sequence.any fun sequence => !isSafeInteger sequence || sequence < 0)
    (.type (js "provider sequence is invalid"))
  refuseIf (update.agentId.any fun agent => agent.length = 0 || 256 < agent.length)
    (.type (js "provider agent id is invalid"))

def matchesProject (session : MutableSession) (projectId : Option Str) : Bool :=
  projectId = none ∨ session.projectId = none ∨ session.projectId = projectId

def isStale (session : MutableSession) (now : ℚ) : Bool := now < session.updatedAt

def adopted (session : MutableSession) (projectId : Option Str) : MutableSession :=
  { session with projectId := session.projectId.or projectId }

namespace TerminalActivityReducer

def initial (options : ReducerOptions) : TerminalActivityReducer :=
  ⟨[], [], [], options.initialRevision, []⟩

def get (r : TerminalActivityReducer) (sessionId : Str) : Option MutableSession :=
  Entries.get r.sessionsById sessionId

def put (r : TerminalActivityReducer) (sessionId : Str) (session : MutableSession) :
    TerminalActivityReducer :=
  { r with sessionsById := Entries.set r.sessionsById sessionId session }

def nextRevision (r : TerminalActivityReducer) : Except Thrown ℕ := do
  refuseIf (r.currentRevision = maxSafeInteger) (.range (js "activity revision exhausted"))
  pure (r.currentRevision + 1)

def record (options : ReducerOptions) (r : TerminalActivityReducer) (event : ActivityEvent) :
    TerminalActivityReducer :=
  { r with
    events := Journal.record options.maxEvents r.events event
    currentRevision := event.revision
    log := r.log ++ [.published event] }

def changed (revision : ℕ) (sessionId : Str) (after : TerminalActivitySessionSnapshot) :
    ActivityEvent :=
  ⟨revision, natText revision, .changed, sessionId, some after⟩

def commitIfChanged (options : ReducerOptions) (r : TerminalActivityReducer) (sessionId : Str)
    (session : MutableSession) (before : TerminalActivitySessionSnapshot) :
    Except Thrown (Option ActivityEvent) × TerminalActivityReducer :=
  let after := snapshotOf session
  if sameSnapshotExceptUpdatedAt before after then
    (.ok none, r.put sessionId { session with updatedAt := before.updatedAt })
  else if sameSnapshot before after then (.ok none, r.put sessionId session)
  else
    match r.nextRevision with
    | .error error => (.error error, r.put sessionId session)
    | .ok revision =>
      let event := changed revision sessionId after
      (.ok (some event), (r.put sessionId session).record options event)

def add (r : TerminalActivityReducer) (session : MutableSession) : TerminalActivityReducer :=
  { r.put session.sessionId session with log := r.log ++ [.registered (snapshotOf session)] }

def register (r : TerminalActivityReducer) (sessionId : Str) (projectId : Option Str) (now : ℚ) :
    Except Thrown (Option TerminalActivitySessionSnapshot) × TerminalActivityReducer :=
  match assertSessionId sessionId with
  | .error error => (.error error, r)
  | .ok () =>
    if sessionId ∈ r.exited then (.ok none, r)
    else
      match r.get sessionId with
      | some existing =>
        if matchesProject existing projectId then
          (.ok (some (snapshotOf (adopted existing projectId))),
            r.put sessionId (adopted existing projectId))
        else (.ok none, r)
      | none =>
        let session := createSession sessionId projectId now
        (.ok (some (snapshotOf session)), r.add session)

def ensure (r : TerminalActivityReducer) (sessionId : Str) (projectId : Option Str) (now : ℚ) :
    MutableSession × TerminalActivityReducer :=
  match r.get sessionId with
  | none => (createSession sessionId projectId now, r.add (createSession sessionId projectId now))
  | some session => (adopted session projectId, r.put sessionId (adopted session projectId))

def misses (r : TerminalActivityReducer) (sessionId : Str) (projectId : Option Str) (now : ℚ) :
    Bool :=
  (r.get sessionId).any fun existing =>
    !matchesProject existing projectId || isStale existing now

def reach (options : ReducerOptions) (r : TerminalActivityReducer) (sessionId : Str)
    (projectId : Option Str) (now : ℚ)
    (operate : MutableSession → TerminalActivityReducer →
      Except Thrown (Option ActivityEvent) × TerminalActivityReducer) :
    Except Thrown (Option ActivityEvent) × TerminalActivityReducer :=
  if sessionId ∈ r.exited ∨ r.misses sessionId projectId now then (.ok none, r)
  else
    let ensured := r.ensure sessionId projectId now
    let session := ensured.1.expire options now
    operate session (ensured.2.put sessionId session)

def applySignal (options : ReducerOptions) (r : TerminalActivityReducer) (sessionId : Str)
    (signal : TerminalActivitySignal) (projectId : Option Str) (now : ℚ) :
    Except Thrown (Option ActivityEvent) × TerminalActivityReducer :=
  match assertSessionId sessionId with
  | .error error => (.error error, r)
  | .ok () =>
    r.reach options sessionId projectId now fun session r =>
      if session.provider.isSome = true ∧ signal.isForeground = false then
        (.ok none, r.put sessionId (session.updateFallbackEvidence options signal now))
      else
        let received := session.receive options signal now
        let session' :=
          if session.provider = none then received.derive options now else received
        r.commitIfChanged options sessionId session' (snapshotOf session)

def applyRawOutput (options : ReducerOptions) (r : TerminalActivityReducer) (sessionId : Str)
    (projectId : Option Str) (now : ℚ) :
    Except Thrown (Option ActivityEvent) × TerminalActivityReducer :=
  match assertSessionId sessionId with
  | .error error => (.error error, r)
  | .ok () =>
    r.reach options sessionId projectId now fun session r =>
      if session.provider.isSome = true ∨ session.claimed = true then (.ok none, r)
      else
        r.commitIfChanged options sessionId ((session.rawOutput now).derive options now)
          (snapshotOf session)

def applyProviderActivity (options : ReducerOptions) (r : TerminalActivityReducer)
    (sessionId : Str) (update : ProviderActivityUpdate) (projectId : Option Str) (now : ℚ) :
    Except Thrown (Option ActivityEvent) × TerminalActivityReducer :=
  match (do assertSessionId sessionId; assertProviderUpdate update) with
  | .error error => (.error error, r)
  | .ok () =>
    r.reach options sessionId projectId now fun session r =>
      if session.fences update then (.ok none, r)
      else
        r.commitIfChanged options sessionId (session.provide update now) (snapshotOf session)

def acknowledge (options : ReducerOptions) (r : TerminalActivityReducer) (sessionId : Str)
    (projectId : Option Str) (now : ℚ) :
    Except Thrown (Option ActivityEvent) × TerminalActivityReducer :=
  match assertSessionId sessionId with
  | .error error => (.error error, r)
  | .ok () =>
    match r.get sessionId with
    | none => (.ok none, r)
    | some existing =>
      if sessionId ∈ r.exited ∨ r.misses sessionId projectId now then (.ok none, r)
      else
        let session := existing.expire options now
        let expired := r.put sessionId session
        if session.acknowledged = true ∧ session.attention = false ∧
            session.rawActivityAt = none then (.ok none, expired)
        else
          let seen := session.viewed now
          let session' := if session.provider = none then seen.derive options now else seen
          expired.commitIfChanged options sessionId session' (snapshotOf session)

def removed (revision : ℕ) (sessionId : Str) : ActivityEvent :=
  ⟨revision, natText revision, .removed, sessionId, none⟩

def markTerminalExit (options : ReducerOptions) (r : TerminalActivityReducer) (sessionId : Str)
    (projectId : Option Str) : Except Thrown (Option ActivityEvent) × TerminalActivityReducer :=
  match assertSessionId sessionId with
  | .error error => (.error error, r)
  | .ok () =>
    if sessionId ∈ r.exited then (.ok none, r)
    else if projectId.isSome = true ∧
        ((r.get sessionId).any fun session => matchesProject session projectId) = false then
      (.ok none, r)
    else
      let ended := { r with exited := r.exited ++ [sessionId] }
      match r.get sessionId with
      | none => (.ok none, ended)
      | some _ =>
        let gone := { ended with sessionsById := Entries.delete r.sessionsById sessionId }
        match r.nextRevision with
        | .error error => (.error error, gone)
        | .ok revision =>
          (.ok (some (removed revision sessionId)), gone.record options (removed revision sessionId))

def tickSession (options : ReducerOptions) (r : TerminalActivityReducer) (sessionId : Str)
    (now : ℚ) : Except Thrown (Option ActivityEvent) × TerminalActivityReducer :=
  match r.get sessionId with
  | none => (.ok none, r)
  | some session =>
    if now < session.updatedAt then (.ok none, r)
    else
      let expired := session.expire options now
      let session' := if expired.provider = none then expired.derive options now else expired
      r.commitIfChanged options sessionId session' (snapshotOf session)

def tickAll (options : ReducerOptions) (now : ℚ) (r : TerminalActivityReducer) :
    List Str → Except Thrown (List ActivityEvent) × TerminalActivityReducer
  | [] => (.ok [], r)
  | sessionId :: rest =>
    match r.tickSession options sessionId now with
    | (.error error, r') => (.error error, r')
    | (.ok event, r') =>
      let others := tickAll options now r' rest
      (others.1.map fun events => event.toList ++ events, others.2)

def tick (options : ReducerOptions) (r : TerminalActivityReducer) (now : ℚ) :
    Except Thrown (List ActivityEvent) × TerminalActivityReducer :=
  r.tickAll options now (Entries.keys r.sessionsById)

def rehome (options : ReducerOptions) (r : TerminalActivityReducer) (sessionId projectId : Str)
    (now : ℚ) : Except Thrown (Option ActivityEvent) × TerminalActivityReducer :=
  match assertSessionId sessionId with
  | .error error => (.error error, r)
  | .ok () =>
    match r.get sessionId with
    | none => (.ok none, r)
    | some session =>
      if session.projectId = some projectId then (.ok none, r)
      else
        r.commitIfChanged options sessionId
          { session with projectId := some projectId, updatedAt := now } (snapshotOf session)

def snapshot (r : TerminalActivityReducer) : ActivitySnapshot where
  revision := r.currentRevision
  cursor := natText r.currentRevision
  sessions := Table.ofEntries (r.sessionsById.map fun e => (e.1, snapshotOf e.2))

def replay (r : TerminalActivityReducer) (afterRevision : ℕ) :
    Except Thrown (Journal.Replay ActivityEvent) := do
  refuseIf (maxSafeInteger < afterRevision)
    (.range (js "afterRevision must be a non-negative safe integer"))
  refuseIf (r.currentRevision < afterRevision)
    (.range (js "afterRevision is ahead of current revision"))
  pure (Journal.replay ActivityEvent.revision r.events afterRevision)

end TerminalActivityReducer

inductive ActivityInput where
  | register (sessionId : Str) (projectId : Option Str) (now : ℚ)
  | applySignal (sessionId : Str) (signal : TerminalActivitySignal) (projectId : Option Str)
      (now : ℚ)
  | applyRawOutput (sessionId : Str) (projectId : Option Str) (now : ℚ)
  | applyProviderActivity (sessionId : Str) (update : ProviderActivityUpdate)
      (projectId : Option Str) (now : ℚ)
  | acknowledge (sessionId : Str) (projectId : Option Str) (now : ℚ)
  | markTerminalExit (sessionId : Str) (projectId : Option Str)
  | tick (now : ℚ)
  | rehome (sessionId projectId : Str) (now : ℚ)

namespace TerminalActivityReducer

def step (options : ReducerOptions) (r : TerminalActivityReducer) :
    ActivityInput → TerminalActivityReducer
  | .register sessionId projectId now => (r.register sessionId projectId now).2
  | .applySignal sessionId signal projectId now =>
    (r.applySignal options sessionId signal projectId now).2
  | .applyRawOutput sessionId projectId now => (r.applyRawOutput options sessionId projectId now).2
  | .applyProviderActivity sessionId update projectId now =>
    (r.applyProviderActivity options sessionId update projectId now).2
  | .acknowledge sessionId projectId now => (r.acknowledge options sessionId projectId now).2
  | .markTerminalExit sessionId projectId => (r.markTerminalExit options sessionId projectId).2
  | .tick now => (r.tick options now).2
  | .rehome sessionId projectId now => (r.rehome options sessionId projectId now).2

end TerminalActivityReducer

end Terminay.Activity
