import Terminay.Terminal.InputSources

/-!
# The activity of one terminal

What the reducer keeps of a session: the fields every reader sees, and private
evidence with its deadlines. Times are in milliseconds. A progress marker, raw
output and user input each open a period that ends at a deadline.
-/

namespace Terminay.Activity
open Script

inductive TerminalActivityStatus where | working | idle
  deriving DecidableEq

inductive ActivityAuthority where | none | raw | structured | provider
  deriving DecidableEq

inductive ForegroundObservationState where | available | limited
  deriving DecidableEq

inductive ProviderActivityState where | working | waiting | blocked | done | idle
  deriving DecidableEq

inductive CommandPhase where | prompt | input | executing | finished | aborted
  deriving DecidableEq

instance neZero_five : NeZero 5 := ⟨by decide⟩

inductive TerminalActivitySignal where
  | progress (state : Fin 5)
  | command (phase : CommandPhase) (exitCode : Option ℚ)
  | notification
  | bell
  | title
  | foregroundLimited
  | foreground (busy : Bool) (processName : Str)
  | userInput
  | resize
  deriving DecidableEq

def TerminalActivitySignal.isForeground : TerminalActivitySignal → Bool
  | .foregroundLimited => true
  | .foreground _ _ => true
  | _ => false

structure ProviderActivityUpdate where
  provider : Str
  state : Option ProviderActivityState
  status : Option ProviderActivityState
  attention : Option Bool
  acknowledged : Option Bool
  exitCode : Option ℚ
  source : Option Str
  sequence : Option ℚ
  agentId : Option Str

structure MutableSession where
  sessionId : Str
  projectId : Option Str
  status : TerminalActivityStatus
  attention : Bool
  acknowledged : Bool
  claimed : Bool
  authority : ActivityAuthority
  source : Str
  exitCode : Option ℚ
  provider : Option Str
  providerState : Option ProviderActivityState
  agentId : Option Str
  updatedAt : ℚ
  progressBusy : Bool
  progressDeadline : Option ℚ
  commandExecuting : Bool
  foregroundBusy : Bool
  foregroundObservation : ForegroundObservationState
  foregroundProcess : Option Str
  explicitSeen : Bool
  settled : Bool
  rawActivityAt : Option ℚ
  lastUserInputAt : Option ℚ
  lastResizeAt : Option ℚ
  inputQuietDeadline : Option ℚ
  providerSequence : Option ℚ

structure TerminalActivitySessionSnapshot where
  sessionId : Str
  projectId : Option Str
  foregroundBusy : Bool
  foregroundObservation : ForegroundObservationState
  status : TerminalActivityStatus
  attention : Bool
  acknowledged : Bool
  claimed : Bool
  authority : ActivityAuthority
  source : Str
  exitCode : Option ℚ
  provider : Option Str
  providerState : Option ProviderActivityState
  agentId : Option Str
  updatedAt : ℚ
  deriving DecidableEq

def snapshotOf (session : MutableSession) : TerminalActivitySessionSnapshot where
  sessionId := session.sessionId
  projectId := session.projectId
  foregroundBusy := session.foregroundBusy
  foregroundObservation := session.foregroundObservation
  status := session.status
  attention := session.attention
  acknowledged := session.acknowledged
  claimed := session.claimed
  authority := session.authority
  source := session.source
  exitCode := session.exitCode
  provider := session.provider
  providerState := session.providerState
  agentId := session.agentId
  updatedAt := session.updatedAt

def stateOf (a : TerminalActivitySessionSnapshot) : TerminalActivitySessionSnapshot :=
  { a with updatedAt := 0 }

def sameSnapshot (a b : TerminalActivitySessionSnapshot) : Bool := a = b

def sameSnapshotExceptUpdatedAt (a b : TerminalActivitySessionSnapshot) : Bool :=
  stateOf a = stateOf b

def defaultRawActivityMs : ℚ := 1000
def inputQuietCompletionMs : ℚ := 2000

structure ReducerOptions where
  maxEvents : ℕ
  rawActivityMs : ℚ
  progressStaleMs : ℚ
  initialRevision : ℕ
  maxEvents_pos : 0 < maxEvents
  rawActivityMs_nonneg : 0 ≤ rawActivityMs
  progressStaleMs_nonneg : 0 ≤ progressStaleMs
  initialRevision_safe : initialRevision ≤ maxSafeInteger

def createSession (sessionId : Str) (projectId : Option Str) (now : ℚ) : MutableSession where
  sessionId
  projectId
  status := .idle
  attention := false
  acknowledged := true
  claimed := false
  authority := .none
  source := js "init"
  exitCode := none
  provider := none
  providerState := none
  agentId := none
  updatedAt := now
  progressBusy := false
  progressDeadline := none
  commandExecuting := false
  foregroundBusy := false
  foregroundObservation := .available
  foregroundProcess := none
  explicitSeen := false
  settled := false
  rawActivityAt := none
  lastUserInputAt := none
  lastResizeAt := none
  inputQuietDeadline := none
  providerSequence := none

namespace MutableSession

def recentInput (session : MutableSession) (now : ℚ) : Bool :=
  session.lastUserInputAt.any fun input => now - input < defaultRawActivityMs

def recentResize (session : MutableSession) (now : ℚ) : Bool :=
  session.lastResizeAt.any fun resized => now - resized < defaultRawActivityMs

def isWorking (options : ReducerOptions) (session : MutableSession) (now : ℚ) : Bool :=
  let rawWorking := !session.explicitSeen &&
    session.rawActivityAt.any fun raw => now < raw + options.rawActivityMs
  session.progressBusy || session.commandExecuting ||
    (session.foregroundBusy && !session.explicitSeen) || rawWorking

def derive (options : ReducerOptions) (session : MutableSession) (now : ℚ) : MutableSession :=
  { session with
    status := if session.isWorking options now then .working else .idle
    claimed := session.provider.isSome || session.explicitSeen
    authority := if session.provider.isSome then .provider else session.authority
    updatedAt := now }

def expireProgress (session : MutableSession) (now : ℚ) : MutableSession :=
  if session.progressDeadline.any fun deadline => deadline ≤ now then
    let ended := { session with progressBusy := false, progressDeadline := none }
    if session.provider = none then
      { ended with
        source := js "structured:stale"
        acknowledged := session.recentInput now && session.acknowledged }
    else ended
  else session

def expireRaw (options : ReducerOptions) (session : MutableSession) (now : ℚ) : MutableSession :=
  if session.rawActivityAt.any fun raw => raw + options.rawActivityMs ≤ now then
    { session with rawActivityAt := none }
  else session

def expireInputQuiet (session : MutableSession) (now : ℚ) : MutableSession :=
  if session.inputQuietDeadline.any fun deadline => deadline ≤ now then
    let ended := { session with inputQuietDeadline := none }
    if session.provider = none ∧ session.progressBusy = false ∧
        session.commandExecuting = false ∧ session.foregroundBusy = false then
      { ended with source := js "structured:input-quiet", acknowledged := false }
    else ended
  else session

def expire (options : ReducerOptions) (session : MutableSession) (now : ℚ) : MutableSession :=
  (((session.expireProgress now).expireRaw options now).expireInputQuiet now)

def progress (options : ReducerOptions) (session : MutableSession) (state : Fin 5) (now : ℚ) :
    MutableSession :=
  let heard := { session with
    authority := .structured
    source := js "structured:progress"
    explicitSeen := true }
  if state = 0 then
    { heard with
      progressBusy := false
      progressDeadline := none
      acknowledged :=
        if session.recentInput now = false ∧
            (session.progressBusy = true ∨ session.lastUserInputAt.isSome = true) then false
        else session.acknowledged }
  else
    { heard with
      progressBusy := true
      progressDeadline := some (now + options.progressStaleMs)
      settled := true
      acknowledged := session.recentInput now && session.acknowledged }

def command (session : MutableSession) (phase : CommandPhase) (exitCode : Option ℚ) (now : ℚ) :
    MutableSession :=
  let heard := { session with
    authority := .structured
    source := js "structured:command"
    explicitSeen := true }
  match phase with
  | .executing =>
    { heard with
      commandExecuting := true
      settled := true
      acknowledged := session.recentInput now && session.acknowledged }
  | .finished =>
    { heard with
      exitCode := if session.commandExecuting then exitCode else session.exitCode
      acknowledged :=
        if session.commandExecuting = true ∨
            session.settled = true ∧ session.recentInput now = false then false
        else session.acknowledged
      commandExecuting := false }
  | _ => { heard with commandExecuting := false }

def foreground (session : MutableSession) (busy : Bool) (processName : Str) (now : ℚ) :
    MutableSession :=
  { session with
    authority := if session.provider = none then .structured else session.authority
    source := if session.provider = none then js "structured:foreground" else session.source
    acknowledged :=
      if session.foregroundBusy = true ∧ busy = false ∧ session.settled = true ∧
          session.recentInput now = false then false
      else session.acknowledged
    foregroundBusy := busy
    foregroundProcess := some processName
    foregroundObservation := .available }

def notified (session : MutableSession) (source : String) : MutableSession :=
  { session with
    authority := .structured
    source := js source
    attention := true
    acknowledged := false }

def receive (options : ReducerOptions) (session : MutableSession)
    (signal : TerminalActivitySignal) (now : ℚ) : MutableSession :=
  match signal with
  | .progress state => session.progress options state now
  | .command phase exitCode => session.command phase exitCode now
  | .foregroundLimited => { session with foregroundObservation := .limited }
  | .foreground busy processName => session.foreground busy processName now
  | .notification => session.notified "structured:notification"
  | .bell => session.notified "structured:bell"
  | .userInput =>
    { session with
      source := js "structured:user-input"
      settled := true
      lastUserInputAt := some now
      inputQuietDeadline := some (now + inputQuietCompletionMs)
      attention := false
      acknowledged := true }
  | .resize => { session with lastResizeAt := some now }
  | .title => session

def updateFallbackEvidence (options : ReducerOptions) (session : MutableSession)
    (signal : TerminalActivitySignal) (now : ℚ) : MutableSession :=
  match signal with
  | .progress state =>
    { session with
      progressBusy := state ≠ 0
      progressDeadline := if state = 0 then none else some (now + options.progressStaleMs) }
  | .foregroundLimited => { session with foregroundObservation := .limited }
  | .foreground busy processName =>
    { session with
      foregroundBusy := busy
      foregroundProcess := some processName
      foregroundObservation := .available }
  | _ => session

def rawOutput (session : MutableSession) (now : ℚ) : MutableSession :=
  if session.recentInput now = false ∧ session.recentResize now = false then
    { session with
      authority := .raw
      source := js "raw:output"
      rawActivityAt := some now
      acknowledged := !session.settled && session.acknowledged }
  else session

def viewed (session : MutableSession) (now : ℚ) : MutableSession :=
  { session with
    rawActivityAt := if session.provider = none then none else session.rawActivityAt
    attention := false
    acknowledged := true
    lastUserInputAt := some now
    source := if session.provider = none then js "structured:acknowledge" else session.source }

def normalizeProviderState : Option ProviderActivityState → ProviderActivityState
  | some .working => .working
  | some .waiting => .waiting
  | some .blocked => .blocked
  | some .done => .done
  | _ => .idle

def boundSource (value : Str) : Str := if 128 < value.length then value.take 128 else value

def anotherAgent (session : MutableSession) (update : ProviderActivityUpdate) : Bool :=
  (session.provider.any fun provider => provider ≠ update.provider) ||
    (session.agentId.any fun agent => update.agentId.any fun given => agent ≠ given)

def fences (session : MutableSession) (update : ProviderActivityUpdate) : Bool :=
  (session.anotherAgent update && session.providerState ≠ some .done &&
    session.providerState ≠ some .idle) ||
  session.providerSequence.any fun last =>
    match update.sequence with
    | some sequence => sequence ≤ last
    | none => true

def provide (session : MutableSession) (update : ProviderActivityUpdate) (now : ℚ) :
    MutableSession :=
  let state :=
    if update.state.isSome = true ∨ update.status.isSome = true then
      normalizeProviderState (update.state.or update.status)
    else session.providerState.getD .idle
  { session with
    provider := some update.provider
    providerState := some state
    agentId := update.agentId.or session.agentId
    providerSequence := update.sequence.or session.providerSequence
    claimed := true
    authority := .provider
    source :=
      match update.source with
      | some (unit :: units) => boundSource (unit :: units)
      | _ => js "provider:" ++ update.provider
    status := if state = .working then .working else .idle
    attention := update.attention.getD (state = .waiting ∨ state = .blocked)
    acknowledged := update.acknowledged.getD false
    exitCode := update.exitCode.or session.exitCode
    updatedAt := now }

end MutableSession

end Terminay.Activity
