import Terminay.Lib.OrderedMap
import Terminay.Script.Stringify
import Terminay.Settings.Paths

/-!
# The server settings repository

A call runs to its next await at once; each completion of the backend is a step. What
the normalization of settings and the migration of a stored document answer is taken as
given, and the file is what a commit last left in it. `applied` is a ghost: the commands
that were committed, in order, each with the state it was built on.
-/

namespace Terminay.Settings
open Script

variable {ν : Type}

def SETTINGS_SCHEMA_VERSION : ℕ := 2

structure ServerSettingsState (ν : Type) where
  revision : ℕ
  cursor : Str
  settings : SettingsObject ν
  secretReferences : SettingsObject ν
deriving DecidableEq

structure SettingsRules (ν : Type) where
  normalizeServerSettings : SettingsObject ν → Except Str (SettingsObject ν)
  migrateServerSettings : Option (Json ν) → Except Str (ServerSettingsState ν)
  defaultServerSettings : SettingsObject ν

inductive SettingsCommand (ν : Type) where
  | set (path : Str) (value : Json ν)
  | merge (settings : SettingsObject ν)
  | replace (settings : SettingsObject ν)
  | reset (path : Option Str)

structure SettingsCommandEnvelope (ν : Type) where
  commandId : Option Str
  expectedRevision : Option ℤ
  command : SettingsCommand ν

inductive SettingsApplyResult (ν : Type) where
  | ok (revision : ℕ) (cursor : Str) (state : ServerSettingsState ν)
  | conflict (currentRevision : ℕ) (currentCursor : Str)

def SettingsApplyResult.isOk : SettingsApplyResult ν → Bool
  | ok _ _ _ => true
  | conflict _ _ => false

structure AppliedCommand (ν : Type) where
  call : ℕ
  envelope : SettingsCommandEnvelope ν
  base : ServerSettingsState ν
  next : ServerSettingsState ν

structure Memory (ν : Type) where
  current : Option (ServerSettingsState ν)
  loaded : Bool
  outcomes : OrderedMap Str (SettingsApplyResult ν)
  stored : Option (Json ν)
  applied : List (AppliedCommand ν)

inductive CallAnswer (ν : Type) where
  | loaded (state : ServerSettingsState ν)
  | result (result : SettingsApplyResult ν)
  | rejected

inductive CallPhase (ν : Type) where
  | loading
  | backingUp (state : ServerSettingsState ν)
  | migrating (state : ServerSettingsState ν)
  | auditing (state : ServerSettingsState ν) (failed : Bool)
  /-- The load of an `apply` has answered. -/
  | resuming (state : ServerSettingsState ν)
  | committing (base next : ServerSettingsState ν)
  | done (answer : CallAnswer ν)

structure SettingsCall (ν : Type) where
  envelope : Option (SettingsCommandEnvelope ν)
  phase : CallPhase ν

structure SettingsRun (ν : Type) where
  memory : Memory ν
  calls : List (SettingsCall ν)

def editSettings (rules : SettingsRules ν) (current : SettingsObject ν) :
    SettingsCommand ν → Except Str (SettingsObject ν)
  | .set path value => do
    assertServerPath path
    setPath current path value
  | .merge settings => mergePatch current settings
  | .replace settings => rules.normalizeServerSettings settings
  | .reset path => resetPath rules.defaultServerSettings current path

/-- `revision + 1` of an engine's number: above the safe integers it rounds back. -/
def nextRevision (revision : ℕ) : ℕ := if revision < 2 ^ 53 then revision + 1 else revision

def nextState (rules : SettingsRules ν) (current : ServerSettingsState ν)
    (command : SettingsCommand ν) : Except Str (ServerSettingsState ν) := do
  let edited ← editSettings rules current.settings command
  let settings ← rules.normalizeServerSettings edited
  .ok ⟨nextRevision current.revision, natText (nextRevision current.revision), settings,
    current.secretReferences⟩

variable [Engine ν]

def natJson (n : ℕ) : Json ν := .num (Engine.literal n)

def stateJson (state : ServerSettingsState ν) : Json ν :=
  .obj [(js "schemaVersion", natJson SETTINGS_SCHEMA_VERSION),
    (js "revision", natJson state.revision), (js "cursor", .str state.cursor),
    (js "settings", .obj state.settings), (js "secretReferences", .obj state.secretReferences)]

def sameDocument (raw : Json ν) (state : ServerSettingsState ν) : Bool :=
  raw.stringify == (stateJson state).stringify

section Calls
variable (backup : Bool) (rules : SettingsRules ν)

def conflictWith (current : ServerSettingsState ν) : SettingsApplyResult ν :=
  .conflict current.revision current.cursor

def Memory.outcome (m : Memory ν) (commandId : Option Str) : Option (SettingsApplyResult ν) :=
  commandId.bind m.outcomes.get

def Memory.recordOutcome (m : Memory ν) (commandId : Option Str)
    (result : SettingsApplyResult ν) : Memory ν :=
  match commandId with
  | none => m
  | some id => { m with outcomes := m.outcomes.set id result }

def isStale (expected : Option ℤ) (revision : ℕ) : Bool := expected.any (· != (revision : ℤ))

def applyOn (m : Memory ν) (envelope : SettingsCommandEnvelope ν)
    (current : ServerSettingsState ν) : Memory ν × CallPhase ν :=
  match m.outcome envelope.commandId with
  | some prior => (m, .done (.result prior))
  | none =>
    if isStale envelope.expectedRevision current.revision then
      (m.recordOutcome envelope.commandId (conflictWith current),
        .done (.result (conflictWith current)))
    else
      match nextState rules current envelope.command with
      | .error _ => (m, .done .rejected)
      | .ok next => (m, .committing current next)

def finishLoad (envelope : Option (SettingsCommandEnvelope ν)) (state : ServerSettingsState ν) :
    CallPhase ν :=
  match envelope with
  | none => .done (.loaded state)
  | some _ => .resuming state

def startCall (m : Memory ν) (envelope : Option (SettingsCommandEnvelope ν)) :
    Memory ν × CallPhase ν :=
  match m.current, envelope with
  | some current, some envelope => applyOn rules m envelope current
  | some current, none => (m, if m.loaded then .done (.loaded current) else .loading)
  | none, _ => (m, .loading)

def loadAnswered (m : Memory ν) (envelope : Option (SettingsCommandEnvelope ν)) :
    Memory ν × CallPhase ν :=
  match rules.migrateServerSettings m.stored with
  | .error _ => (m, .done .rejected)
  | .ok state =>
    let published := { m with current := some state, loaded := true }
    match m.stored with
    | none => (published, finishLoad envelope state)
    | some raw =>
      if sameDocument raw state then (published, finishLoad envelope state)
      else if backup then (published, .backingUp state)
      else ({ m with current := none, loaded := false }, .done .rejected)

def commitMigration (m : Memory ν) (state : ServerSettingsState ν) : Memory ν :=
  { m with stored := some (stateJson state) }

def publish (m : Memory ν) (n : ℕ) (envelope : SettingsCommandEnvelope ν)
    (base next : ServerSettingsState ν) : Memory ν :=
  { m with
    current := some next
    stored := some (stateJson next)
    applied := m.applied ++ [⟨n, envelope, base, next⟩] }

def okResult (next : ServerSettingsState ν) : SettingsApplyResult ν :=
  .ok next.revision next.cursor next

def advance (m : Memory ν) (n : ℕ) (call : SettingsCall ν) (succeeded : Bool) :
    Memory ν × CallPhase ν :=
  match call.phase, call.envelope with
  | .loading, envelope =>
    if succeeded then loadAnswered backup rules m envelope else (m, .done .rejected)
  | .backingUp state, _ => (m, if succeeded then .migrating state else .auditing state true)
  | .migrating state, _ =>
    if succeeded then (commitMigration m state, .auditing state false)
    else (m, .auditing state true)
  | .auditing state false, envelope =>
    (m, if succeeded then finishLoad envelope state else .auditing state true)
  | .auditing _ true, _ => (m, .done .rejected)
  | .resuming state, some envelope => applyOn rules m envelope state
  | .committing base next, some envelope =>
    if succeeded then
      ((publish m n envelope base next).recordOutcome envelope.commandId (okResult next),
        .done (.result (okResult next)))
    else (m, .done .rejected)
  | phase, _ => (m, phase)

inductive SettingsInput (ν : Type) where
  | start (envelope : Option (SettingsCommandEnvelope ν))
  | complete (n : ℕ) (succeeded : Bool)

def settingsStep (s : SettingsRun ν) : SettingsInput ν → SettingsRun ν
  | .start envelope =>
    let moved := startCall rules s.memory envelope
    ⟨moved.1, s.calls ++ [⟨envelope, moved.2⟩]⟩
  | .complete n succeeded =>
    match s.calls[n]? with
    | none => s
    | some call =>
      let moved := advance backup rules s.memory n call succeeded
      ⟨moved.1, s.calls.set n { call with phase := moved.2 }⟩

def settingsStart (stored : Option (Json ν)) : SettingsRun ν :=
  ⟨⟨none, false, .empty, stored, []⟩, []⟩

end Calls

end Terminay.Settings
