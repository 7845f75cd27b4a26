import Terminay.Workspace.Canonical
import Terminay.Workspace.Store

/-!
# The workspace repository

A call reduces its command on the repository's own store when the backend
commits synchronously, else on a candidate built from the state it found. What
follows is awaited: the backup, and for an async-only backend the commit. Then
the candidate is published.
-/

namespace Terminay.Workspace.Repository
open Script

def defaultMaxHistory : ℕ := 1024
def defaultMaxHistoryBytes : ℕ := 8 * 1024 * 1024

/-- Which of its optional functions a backend has. -/
structure Backend where
  commitSync : Bool
  backup : Bool

structure Entry (ν : Type) where
  call : ℕ
  envelope : WorkspaceCommandEnvelope ν
  now : ν

/-- A store in memory: only the one a load makes has a durable hook. `log` is every command that
led from the loaded state to its state. -/
structure StoreObject (ν : Type) where
  store : WorkspaceStore ν
  hooked : Bool
  log : List (Entry ν)

/-- What a call holds while it awaits: its candidate, whether that was the repository's own store,
the state it found, and the answer of the store. -/
structure Pending (ν : Type) where
  candidate : ℕ
  shared : Bool
  before : WorkspaceState ν
  revision : ℕ
  state : WorkspaceState ν
  fresh : Bool

inductive Progress (ν : Type) where
  | loading
  | backingUp (p : Pending ν)
  | committing (p : Pending ν)
  | accepted (p : Pending ν)
  | conflict (currentRevision : ℕ)
  | thrown

structure Call (ν : Type) where
  envelope : WorkspaceCommandEnvelope ν
  progress : Progress ν

structure State (ν : Type) where
  objects : List (StoreObject ν)
  published : Option ℕ
  loaded : Option (WorkspaceState ν)
  calls : List (Call ν)

variable {ν : Type}

namespace State

def enter (s : State ν) (n : ℕ) (progress : Progress ν) : State ν :=
  match s.calls[n]? with
  | some c => { s with calls := s.calls.set n { c with progress := progress } }
  | none => s

def put (s : State ν) (k : ℕ) (o : StoreObject ν) : State ν :=
  { s with objects := s.objects.set k o }

def add (s : State ν) (o : StoreObject ν) : State ν := { s with objects := s.objects ++ [o] }

def publish (s : State ν) (n : ℕ) (p : Pending ν) : State ν :=
  { s.enter n (.accepted p) with published := some p.candidate }

def afterBackup (b : Backend) (s : State ν) (n : ℕ) (p : Pending ν) : State ν :=
  if b.commitSync then s.publish n p else s.enter n (.committing p)

def afterReduce (b : Backend) (s : State ν) (n : ℕ) (p : Pending ν) : State ν :=
  if b.backup then s.enter n (.backingUp p) else s.afterBackup b n p

section Engine
variable [Engine ν]

def newObject (st : WorkspaceState ν) (hooked : Bool) (log : List (Entry ν)) :
    Checked (StoreObject ν) := do
  let canonical ← canonicalizeWorkspaceState st
  .ok ⟨newStore canonical defaultMaxHistory defaultMaxHistoryBytes, hooked, log⟩

def reduceOn (b : Backend) (s : State ν) (n k : ℕ) (o : StoreObject ν) (shared : Bool)
    (before : WorkspaceState ν) (envelope : WorkspaceCommandEnvelope ν) (now : ν) (written : Bool) :
    State ν :=
  let result := Workspace.apply o.store envelope now (written || !o.hooked)
  match result.2 with
  | .thrown _ => s.enter n .thrown
  | .refused conflict =>
    (s.put k { o with store := result.1 }).enter n (.conflict conflict.currentRevision)
  | .ok revision _ _ state =>
    let fresh := (o.store.outcomes.get envelope.commandId).isNone
    let log := if fresh then o.log ++ [⟨n, envelope, now⟩] else o.log
    (s.put k ⟨result.1, o.hooked, log⟩).afterReduce b n ⟨k, shared, before, revision, state, fresh⟩

def reduce (b : Backend) (s : State ν) (n k : ℕ) (o : StoreObject ν) (shared : Bool)
    (envelope : WorkspaceCommandEnvelope ν) (now : ν) (written : Bool) : State ν :=
  if b.commitSync then s.reduceOn b n k o shared o.store.current envelope now written
  else
    match newObject o.store.current false o.log with
    | .error _ => s.enter n .thrown
    | .ok candidate =>
      (s.add candidate).reduceOn b n s.objects.length candidate false o.store.current envelope now
        written

def apply (b : Backend) (s : State ν) (envelope : WorkspaceCommandEnvelope ν) (now : ν)
    (written : Bool) : State ν :=
  let called := { s with calls := s.calls ++ [⟨envelope, .loading⟩] }
  match s.published with
  | none => called
  | some k =>
    match s.objects[k]? with
    | none => called
    | some o => called.reduce b s.calls.length k o true envelope now written

def load (b : Backend) (s : State ν) (st : WorkspaceState ν) : State ν :=
  match s.published with
  | some _ => s
  | none =>
    match newObject st b.commitSync [] with
    | .error _ => s
    | .ok o => { s.add o with published := some s.objects.length, loaded := some o.store.current }

def resume (b : Backend) (s : State ν) (n : ℕ) (now : ν) (written : Bool) : State ν :=
  match s.calls[n]?, s.loaded with
  | some ⟨envelope, .loading⟩, some st =>
    match newObject st false [] with
    | .error _ => s.enter n .thrown
    | .ok o => (s.add o).reduce b n s.objects.length o false envelope now written
  | _, _ => s

end Engine

def loadFailed (s : State ν) (n : ℕ) : State ν :=
  match s.calls[n]?, s.loaded with
  | some ⟨_, .loading⟩, none => s.enter n .thrown
  | _, _ => s

def backedUp (b : Backend) (s : State ν) (n : ℕ) (succeeded : Bool) : State ν :=
  match s.calls[n]? with
  | some ⟨_, .backingUp p⟩ => if succeeded then s.afterBackup b n p else s.enter n .thrown
  | _ => s

def committed (s : State ν) (n : ℕ) (succeeded : Bool) : State ν :=
  match s.calls[n]? with
  | some ⟨_, .committing p⟩ => if succeeded then s.publish n p else s.enter n .thrown
  | _ => s

def log (s : State ν) : List (Entry ν) :=
  ((s.published.bind fun k => s.objects[k]?).map StoreObject.log).getD []

end State

/-- `written` says whether the synchronous commit succeeds, where the store has one. -/
inductive Input (ν : Type) where
  | apply (envelope : WorkspaceCommandEnvelope ν) (now : ν) (written : Bool)
  | loaded (st : WorkspaceState ν)
  | loadFailed (n : ℕ)
  | resumed (n : ℕ) (now : ν) (written : Bool)
  | backedUp (n : ℕ) (succeeded : Bool)
  | committed (n : ℕ) (succeeded : Bool)

def step [Engine ν] (b : Backend) (s : State ν) : Input ν → State ν
  | .apply envelope now written => s.apply b envelope now written
  | .loaded st => s.load b st
  | .loadFailed n => s.loadFailed n
  | .resumed n now written => s.resume b n now written
  | .backedUp n succeeded => s.backedUp b n succeeded
  | .committed n succeeded => s.committed n succeeded

def unloaded : State ν := ⟨[], none, none, []⟩

end Terminay.Workspace.Repository
