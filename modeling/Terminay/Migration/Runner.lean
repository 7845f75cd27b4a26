import Terminay.Lib.Effects
import Terminay.Lib.Runs
import Terminay.Workspace.Bounds

/-!
# The migration runner

A migration imports a legacy source step by step. Its marker is saved after every step, while the
imports stay staged in a transaction of the backend until they are committed. Any call of the
backend may fail, and the process may stop, before or after the call took effect.
-/

namespace Terminay.Migration
open Script Workspace Fallible

variable {δ : Type}

inductive MigrationStep where
  | settings | macros | connectionProfiles | projects | recordings | secrets
  deriving DecidableEq

def steps : List MigrationStep :=
  [.settings, .macros, .connectionProfiles, .projects, .recordings, .secrets]

inductive MigrationStatus where | pending | running | failed | complete
  deriving DecidableEq

inductive MigrationRollbackState where | available | restored | recoveryRequired
  deriving DecidableEq

inductive MigrationServerCommitState where | uncommitted | committed | unknown
  deriving DecidableEq

inductive MigrationErrorCode where
  | invalidSource | identityCollision | stepFailed | rollbackUnavailable
  | rollbackRequiresBackupRecovery | backupRecoveryUnavailable | incompatibleVersion
  deriving DecidableEq

structure MigrationError where
  code : MigrationErrorCode
  message : Str
  step : Option MigrationStep
  raw : Option Str
  deriving DecidableEq

/-- The references to backups are the backend's. -/
structure MigrationMarker where
  schemaVersion : ℕ
  migrationId : Str
  status : MigrationStatus
  completedSteps : List MigrationStep
  backupId : Option ℕ
  failedStep : Option MigrationStep
  failureCode : Option MigrationErrorCode
  rollbackState : Option MigrationRollbackState
  rollbackAt : Option ℚ
  electronStateBackupId : Option ℕ
  serverCommitState : Option MigrationServerCommitState
  serverCommitAt : Option ℚ
  backupRecoveryAt : Option ℚ
  startedAt : ℚ
  completedAt : Option ℚ
  deriving DecidableEq

def migrationSchemaVersion : ℕ := 1

structure LegacyMigrationSource (δ : Type) where
  serverId : Option Str
  settings : Option δ
  macros : Option δ
  connectionProfiles : Option δ
  projects : Option δ
  recordings : Option δ
  secrets : List (Str × δ)

inductive Import (δ : Type) where
  | value (step : MigrationStep) (value : Option δ)
  | secret (id : Str) (value : δ)
  deriving DecidableEq

def importsOf (source : LegacyMigrationSource δ) : MigrationStep → List (Import δ)
  | .settings => [.value .settings source.settings]
  | .macros => [.value .macros source.macros]
  | .connectionProfiles => [.value .connectionProfiles source.connectionProfiles]
  | .projects => [.value .projects source.projects]
  | .recordings => [.value .recordings source.recordings]
  | .secrets => source.secrets.map fun e => .secret e.1 e.2

inductive Request (δ : Type) where
  | loadMarker
  | saveMarker (marker : MigrationMarker)
  | backup
  | captureElectronState
  | restoreElectronState (backupId : ℕ)
  | beginServerOnlyMutations
  | commitServerOnlyMutations
  | rollbackServerOnlyMutations
  | restoreBackup (backupId : ℕ)
  | importInto (item : Import δ)
  deriving DecidableEq

/-- The server's data: what is committed, and what is staged while a transaction is open.
`log` has every call of the backend, and whether it took effect. -/
structure World (δ : Type) where
  marker : Option MigrationMarker
  transacting : Bool
  staged : List (Import δ)
  committed : List (Import δ)
  backups : List (List (Import δ))
  electronBackups : ℕ
  log : List (Request δ × Bool)

namespace World

def effect (w : World δ) : Request δ → World δ
  | .loadMarker => w
  | .saveMarker marker => { w with marker := some marker }
  | .backup => { w with backups := w.backups ++ [w.committed] }
  | .captureElectronState => { w with electronBackups := w.electronBackups + 1 }
  | .restoreElectronState _ => w
  | .beginServerOnlyMutations => { w with transacting := true }
  | .commitServerOnlyMutations =>
    { w with
      committed := w.committed ++ w.staged
      staged := []
      transacting := false }
  | .rollbackServerOnlyMutations => { w with staged := [], transacting := false }
  | .restoreBackup backupId => { w with committed := w.backups[backupId]?.getD w.committed }
  | .importInto item =>
    if w.transacting = true then { w with staged := w.staged ++ [item] }
    else { w with committed := w.committed ++ [item] }

def invoke (w : World δ) (request : Request δ) (took : Bool) : World δ :=
  let after := if took = true then w.effect request else w
  { after with log := w.log ++ [(request, took)] }

end World

/-- What a call of the backend may throw: an error of the migration, or any other. -/
inductive Thrown where
  | migration (error : MigrationError)
  | other (message : Str)

inductive Answer where
  | done
  | failed (took : Bool) (thrown : Thrown)
  | stopped (took : Bool)

inductive Fault where
  | thrown (thrown : Thrown)
  | stopped

/-- A process at work: how its next calls of the backend go. All others go well. -/
structure Process (δ : Type) where
  world : World δ
  answers : List Answer

abbrev Work (δ α : Type) := Fallible (Process δ) Fault α

def request (call : Request δ) : Work δ Unit := fun p =>
  match p.answers with
  | [] => (.ok (), ⟨p.world.invoke call true, []⟩)
  | .done :: rest => (.ok (), ⟨p.world.invoke call true, rest⟩)
  | .failed took thrown :: rest => (.error (.thrown thrown), ⟨p.world.invoke call took, rest⟩)
  | .stopped took :: rest => (.error .stopped, ⟨p.world.invoke call took, rest⟩)

def loadMarker : Work δ (Option MigrationMarker) := do
  request .loadMarker
  let p ← get
  pure p.world.marker

def saveMarker (marker : MigrationMarker) : Work δ Unit := request (.saveMarker marker)

def backup : Work δ ℕ := do
  let p ← get
  request .backup
  pure p.world.backups.length

def captureElectronState : Work δ ℕ := do
  let p ← get
  request .captureElectronState
  pure p.world.electronBackups

def requestAll : List (Request δ) → Work δ Unit
  | [] => pure ()
  | call :: rest => do
    request call
    requestAll rest

/-- The options of a runner, and which optional calls its backend has beside the transaction.
`incompatible` is what the version gate says of the source. -/
structure MigrationRunner where
  migrationId : Str
  migrationId_valid : idPattern migrationId = true
  expectedServerId : Option Str
  incompatible : Option Str
  capturesElectron : Bool
  restoresElectron : Bool
  restoresBackup : Bool

inductive MigrationResult where
  | ran (marker : MigrationMarker) (resumed : Bool)
  | rolledBack (marker : MigrationMarker) (electronRestored : Bool)
  | recovered (marker : MigrationMarker) (electronStateBackupId : Option ℕ)

def refuse {α : Type} (code : MigrationErrorCode) (message : String) : Work δ α :=
  fail (.thrown (.migration ⟨code, js message, none, none⟩))

def refuseWhen (c : Prop) [Decidable c] (code : MigrationErrorCode) (message : String) : Work δ Unit :=
  if c then refuse code message else pure ()

/-- `error instanceof MigrationError ? error : new MigrationError('step_failed', ...)` -/
def failureOf (thrown : Thrown) (message : String) (step : Option MigrationStep) : MigrationError :=
  match thrown with
  | .migration error => error
  | .other raw => ⟨.stepFailed, js message, step, some raw⟩

namespace MigrationMarker

def Crossed (m : MigrationMarker) : Prop :=
  m.serverCommitState = some .unknown ∨ m.serverCommitState = some .committed

instance (m : MigrationMarker) : Decidable m.Crossed := inferInstanceAs (Decidable (_ ∨ _))

end MigrationMarker

namespace MigrationRunner

variable (r : MigrationRunner) (source : LegacyMigrationSource δ)

def validateSource : Work δ Unit :=
  refuseWhen (source.serverId.any (fun id => 128 < id.length) = true) .invalidSource
    "legacy server identity is invalid"

def assertCompatibleSource : Work δ Unit :=
  match r.incompatible with
  | none => pure ()
  | some message => fail (.thrown (.migration ⟨.incompatibleVersion, message, none, none⟩))

def assertResumable (existing : Option MigrationMarker) : Work δ Unit := do
  refuseWhen (∃ m ∈ existing, m.rollbackState = some .recoveryRequired)
    .rollbackRequiresBackupRecovery "recover the backup before retrying this migration"
  refuseWhen (∃ m ∈ existing, m.Crossed) .backupRecoveryUnavailable
    "server-only migration commit is committed or uncertain; recover the backup before retrying"

def freshMarker (startedAt : ℚ) : MigrationMarker :=
  { schemaVersion := migrationSchemaVersion
    migrationId := r.migrationId
    status := .pending
    completedSteps := []
    backupId := none
    failedStep := none
    failureCode := none
    rollbackState := none
    rollbackAt := none
    electronStateBackupId := none
    serverCommitState := none
    serverCommitAt := none
    backupRecoveryAt := none
    startedAt := startedAt
    completedAt := none }

def assertOwn (marker : MigrationMarker) : Work δ Unit := do
  refuseWhen (marker.migrationId ≠ r.migrationId) .invalidSource
    "migration marker belongs to another migration"
  refuseWhen (marker.schemaVersion ≠ migrationSchemaVersion) .invalidSource
    "unsupported migration marker schema"

def backUp (marker : MigrationMarker) : Work δ MigrationMarker :=
  if marker.backupId = none then do
    let backupId ← backup
    let marker :=
      { marker with
        status := .running
        backupId := some backupId
        rollbackState := some .available
        serverCommitState := some .uncommitted }
    saveMarker marker
    pure marker
  else if marker.status = .pending then do
    let marker :=
      { marker with
        status := .running
        serverCommitState := some (marker.serverCommitState.getD .uncommitted) }
    saveMarker marker
    pure marker
  else pure marker

def capture (marker : MigrationMarker) : Work δ MigrationMarker :=
  if r.capturesElectron = true ∧ marker.electronStateBackupId = none then do
    let electronStateBackupId ← captureElectronState
    let marker := { marker with electronStateBackupId := some electronStateBackupId }
    saveMarker marker
    pure marker
  else pure marker

def failWith {α : Type} (marker : MigrationError → MigrationMarker) (message : String)
    (step : Option MigrationStep) : Fault → Work δ α
  | .stopped => fail .stopped
  | .thrown thrown => do
    let failure := failureOf thrown message step
    saveMarker (marker failure)
    fail (.thrown (.migration failure))

def setUp (marker : MigrationMarker) : Work δ Unit :=
  rescue (request .beginServerOnlyMutations)
    (failWith (fun failure =>
      { marker with
        status := .failed
        failureCode := some failure.code
        rollbackState := some .available }) "server-only transaction setup failed" none)

def runStep (step : MigrationStep) : Work δ Unit :=
  requestAll ((importsOf source step).map .importInto)

def importSteps : List MigrationStep → MigrationMarker → Work δ MigrationMarker
  | [], marker => pure marker
  | step :: rest, marker =>
    if step ∈ marker.completedSteps then importSteps rest marker
    else do
      rescue (runStep source step)
        (failWith (fun failure =>
          { marker with
            status := .failed
            failedStep := some step
            failureCode := some failure.code
            rollbackState := some .available }) "migration step failed" (some step))
      let marker :=
        { marker with
          status := .running
          completedSteps := marker.completedSteps ++ [step]
          failedStep := none
          failureCode := none }
      saveMarker marker
      importSteps rest marker

def commit (marker : MigrationMarker) : Work δ MigrationMarker := do
  let marker := { marker with status := .running, serverCommitState := some .unknown }
  saveMarker marker
  rescue (request .commitServerOnlyMutations)
    (failWith (fun failure =>
      { marker with
        status := .failed
        failureCode := some failure.code
        rollbackState := some .recoveryRequired
        serverCommitState := some .unknown }) "server-only commit failed" none)
  pure marker

structure RunTimes where
  startedAt : ℚ
  completedAt : ℚ
  serverCommitAt : ℚ

def completion (marker : MigrationMarker) (times : RunTimes) : MigrationMarker :=
  { marker with
    status := .complete
    completedSteps := steps
    completedAt := some times.completedAt
    failedStep := none
    failureCode := none
    rollbackState := marker.backupId.map fun _ => .available
    serverCommitState := some .committed
    serverCommitAt := some times.serverCommitAt }

def migrate (marker : MigrationMarker) (times : RunTimes) : Work δ MigrationMarker := do
  let marker ← backUp marker
  let marker ← capture r marker
  setUp marker
  let marker ← importSteps source steps marker
  let marker ← commit marker
  saveMarker (completion marker times)
  pure (completion marker times)

def run (times : RunTimes) : Work δ MigrationResult := do
  validateSource source
  r.assertCompatibleSource
  refuseWhen (∃ expected ∈ r.expectedServerId, ∃ id ∈ source.serverId, id ≠ expected)
    .identityCollision "legacy source belongs to a different server identity"
  let existing ← loadMarker
  match existing.filter (fun m => m.status = .complete) with
  | some marker => pure (.ran marker true)
  | none => do
    assertResumable existing
    let marker := existing.getD (r.freshMarker times.startedAt)
    r.assertOwn marker
    let marker ← migrate r source marker times
    pure (.ran marker existing.isSome)

def resetMarker (marker : MigrationMarker) (rollbackAt : ℚ) : MigrationMarker :=
  { marker with
    status := .pending
    completedSteps := []
    failedStep := none
    failureCode := none
    rollbackState := some .restored
    rollbackAt := some rollbackAt
    completedAt := none
    serverCommitState := some .uncommitted }

def restoreElectron : Option ℕ → Work δ Unit
  | none => pure ()
  | some backupId => request (.restoreElectronState backupId)

def restore (marker : MigrationMarker) (backupId : ℕ) (rollbackAt : ℚ) : Work δ MigrationResult := do
  refuseWhen (r.restoresBackup = false) .rollbackUnavailable
    "migration backend does not support rollback"
  refuseWhen (marker.electronStateBackupId.isSome = true ∧ r.restoresElectron = false)
    .rollbackUnavailable "migration backend cannot restore pre-migration Electron state"
  request .rollbackServerOnlyMutations
  request (.restoreBackup backupId)
  restoreElectron marker.electronStateBackupId
  saveMarker (resetMarker marker rollbackAt)
  pure (.rolledBack (resetMarker marker rollbackAt) marker.electronStateBackupId.isSome)

def backed (existing : Option MigrationMarker) (code : MigrationErrorCode) :
    Work δ (MigrationMarker × ℕ) :=
  match existing with
  | none => refuse code "migration backup is unavailable"
  | some marker =>
    match marker.backupId with
    | none => refuse code "migration backup is unavailable"
    | some backupId => pure (marker, backupId)

def rollback (rollbackAt : ℚ) : Work δ MigrationResult := do
  let existing ← loadMarker
  let (marker, backupId) ← backed existing .rollbackUnavailable
  if marker.Crossed ∨ (marker.serverCommitState = none ∧ marker.status = .complete) then do
    saveMarker { marker with rollbackState := some .recoveryRequired }
    refuse .rollbackRequiresBackupRecovery
      "server-only migration mutations are committed or uncertain; use explicit backup recovery"
  else r.restore marker backupId rollbackAt

def recoveredMarker (marker : MigrationMarker) (backupRecoveryAt : ℚ) : MigrationMarker :=
  { marker with
    status := .failed
    completedSteps := []
    failedStep := none
    failureCode := none
    rollbackState := some .recoveryRequired
    backupRecoveryAt := some backupRecoveryAt
    serverCommitState := some .unknown
    completedAt := none }

def recoverBackup (backupRecoveryAt : ℚ) : Work δ MigrationResult := do
  let existing ← loadMarker
  let (marker, backupId) ← backed existing .backupRecoveryUnavailable
  refuseWhen (¬ marker.Crossed) .backupRecoveryUnavailable
    "explicit backup recovery is available only after server-only commit"
  refuseWhen (r.restoresBackup = false) .backupRecoveryUnavailable
    "migration backend does not support backup recovery"
  request (.restoreBackup backupId)
  saveMarker (recoveredMarker marker backupRecoveryAt)
  pure (.recovered (recoveredMarker marker backupRecoveryAt) marker.electronStateBackupId)

end MigrationRunner

end Terminay.Migration
