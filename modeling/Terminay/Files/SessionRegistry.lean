import Terminay.Files.FileSession

/-!
# Releasing file sessions

A registry holds one session for a path. A release of a dirty session that is confirmed reloads the
session first: the reload may wait for the storage's `stat`, and whoever awaits it goes on at a
later turn. Between two turns of a call anything may happen to the registry and its sessions.
-/

namespace Terminay.Files
open Script

/-- The sessions of a host by number, and the number of the one registered for a path. -/
structure FileSessionRegistry where
  sessions : Str → Option ℕ
  objects : ℕ → FileSession

inductive ReleaseError where
  | missing (message canonical : Str)
  | refused (refusal : Refusal)
  | storage

def sessionNotFound (path : Str) : ReleaseError := .missing (js "file session not found") path

def closeUnconfirmed : ReleaseError :=
  .refused (.failed ⟨.savePrecondition, js "dirty file requires explicit close confirmation", []⟩)

def asynchronousClose : ReleaseError :=
  .refused (.failed ⟨.savePrecondition, js "asynchronous close requires releaseAsync", []⟩)

inductive ReleaseStage where
  | stating
  | resuming (reloadFailure : Option ReleaseError)
  | answered (answer : Except ReleaseError FileSession)

namespace FileSessionRegistry

def setObject (r : FileSessionRegistry) (n : ℕ) (session : FileSession) : FileSessionRegistry :=
  { r with objects := Function.update r.objects n session }

/-- The rest of `reload`, behind its wait. -/
def finishReload (r : FileSessionRegistry) (n : ℕ) (metadata : Option FileMetadata) :
    FileSessionRegistry × ReleaseStage :=
  let (session, refusal) := (r.objects n).reloaded metadata
  (r.setObject n session, .resuming (refusal.map .refused))

/-- `reload({ confirm: true })` up to its wait. -/
def startReload (r : FileSessionRegistry) (n : ℕ) : FileSessionRegistry × ReleaseStage :=
  match (r.objects n).checkReload true none none with
  | some refusal => (r, .resuming (some (.refused refusal)))
  | none => if (r.objects n).storage.stat = true then (r, .stating) else r.finishReload n none

/-- `session.close()`, and `this.sessions.delete` where it closed. -/
def closeSession (r : FileSessionRegistry) (path : Str) (n : ℕ) :
    FileSessionRegistry × ReleaseStage :=
  match (r.objects n).close with
  | .error refusal => (r, .answered (.error (.refused refusal)))
  | .ok closed =>
    ({ r.setObject n closed with sessions := Function.update r.sessions path none },
      .answered (.ok closed))

/-- Both releases: they differ in what they do with a dirty session. -/
def releaseWith (reload : FileSessionRegistry → ℕ → FileSessionRegistry × ReleaseStage)
    (r : FileSessionRegistry) (path : Str) (confirmDirty : Bool) :
    FileSessionRegistry × ReleaseStage :=
  match r.sessions path with
  | none => (r, .answered (.error (sessionNotFound path)))
  | some n =>
    if (r.objects n).dirty = true then
      if confirmDirty = false then (r, .answered (.error closeUnconfirmed)) else reload r n
    else r.closeSession path n

/-- The promise of the reload is dropped: only its wait for the storage is left of it. -/
def dropReload (r : FileSessionRegistry) (n : ℕ) : FileSessionRegistry × ReleaseStage :=
  match r.startReload n with
  | (r, .stating) => (r, .stating)
  | (r, _) => (r, .answered (.error asynchronousClose))

def release : FileSessionRegistry → Str → Bool → FileSessionRegistry × ReleaseStage :=
  releaseWith dropReload

def releaseAsync : FileSessionRegistry → Str → Bool → FileSessionRegistry × ReleaseStage :=
  releaseWith startReload

/-- `stat` has answered, or failed. -/
def statted (r : FileSessionRegistry) (n : ℕ) (sync : Bool) (answer : Option FileMetadata) :
    FileSessionRegistry × ReleaseStage :=
  let (r, stage) :=
    match answer with
    | some metadata => r.finishReload n (some metadata)
    | none => (r, .resuming (some .storage))
  (r, if sync = true then .answered (.error asynchronousClose) else stage)

/-- `releaseAsync` behind the reload it awaited. -/
def resumed (r : FileSessionRegistry) (path : Str) (n : ℕ) (reloadFailure : Option ReleaseError) :
    FileSessionRegistry × ReleaseStage :=
  match reloadFailure with
  | some e => (r, .answered (.error e))
  | none => r.closeSession path n

end FileSessionRegistry

/-- A call with the session it found. `own` keeps the registry on both sides of each of its turns. -/
structure ReleaseCall where
  path : Str
  session : Option ℕ
  sync : Bool
  stage : ReleaseStage
  own : List (FileSessionRegistry × FileSessionRegistry)

def ReleaseCall.answer (call : ReleaseCall) : Option (Except ReleaseError FileSession) :=
  match call.stage with
  | .answered answer => some answer
  | _ => if call.sync = true then some (.error asynchronousClose) else none

structure ReleaseCalls where
  registry : FileSessionRegistry
  calls : List ReleaseCall

inductive ReleaseInput where
  | release (path : Str) (confirmDirty : Bool)
  | releaseAsync (path : Str) (confirmDirty : Bool)
  | stat (n : ℕ) (answer : Option FileMetadata)
  | resume (n : ℕ)
  | others (registry : FileSessionRegistry)

namespace ReleaseCalls

def start (s : ReleaseCalls) (path : Str) (sync : Bool)
    (turn : FileSessionRegistry × ReleaseStage) : ReleaseCalls :=
  ⟨turn.1, s.calls ++ [⟨path, s.registry.sessions path, sync, turn.2, [(s.registry, turn.1)]⟩]⟩

def proceed (s : ReleaseCalls) (n : ℕ) (call : ReleaseCall)
    (turn : FileSessionRegistry × ReleaseStage) : ReleaseCalls :=
  ⟨turn.1, s.calls.set n
    { call with stage := turn.2, own := call.own ++ [(s.registry, turn.1)] }⟩

def step (s : ReleaseCalls) : ReleaseInput → ReleaseCalls
  | .release path confirmDirty => s.start path true (s.registry.release path confirmDirty)
  | .releaseAsync path confirmDirty => s.start path false (s.registry.releaseAsync path confirmDirty)
  | .stat n answer =>
    match s.calls[n]? with
    | some call =>
      match call.session, call.stage with
      | some m, .stating => s.proceed n call (s.registry.statted m call.sync answer)
      | _, _ => s
    | none => s
  | .resume n =>
    match s.calls[n]? with
    | some call =>
      match call.session, call.stage with
      | some m, .resuming failure => s.proceed n call (s.registry.resumed call.path m failure)
      | _, _ => s
    | none => s
  | .others registry => { s with registry := registry }

end ReleaseCalls

end Terminay.Files
