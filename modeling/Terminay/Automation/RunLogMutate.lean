import Terminay.Automation.RunLog
import Terminay.Lib.Runs

/-!
# Mutations of the run log, one after another

Mutations are queued. One changes the maps in memory, expired runs are purged, and the
snapshot is committed if there is a change to announce or the mutation asks for it; the
next one starts when the commit is done. Whether the backend stores it is up to it.
-/

namespace Terminay.Automation
open Script

/-- How a mutation ended, with the memory and the backend before it where it was rejected. -/
inductive Settled where
  | resolved
  | rejected (log : RunLog) (stored : Option RunLogState)

structure Commit where
  snapshot : RunLogState
  before : RunLog

structure LogService where
  log : RunLog
  stored : Option RunLogState
  queue : List Mutation
  commit : Option Commit
  settled : Option Settled

/-- `run` gives the next mutation its time and its retention periods. -/
inductive LogInput where
  | call (mutation : Mutation)
  | run (now : ℤ) (retention : Str → Option ℤ)
  | committed (fails : Bool)

def Mutation.isRefused : Mutation → Bool
  | .prune _ olderThanDays => !isDays olderThanDays 0
  | _ => false

namespace LogService

def opened (options : LogOptions) (stored : Option RunLogState) : LogService :=
  ⟨.load options stored, stored, [], none, none⟩

def call (s : LogService) (mutation : Mutation) : LogService :=
  if mutation.isRefused = true then { s with settled := some (.rejected s.log s.stored) }
  else { s with queue := s.queue ++ [mutation], settled := none }

def finish (s : LogService) (now : ℤ) (retention : Str → Option ℤ) (applied : Applied) :
    LogService :=
  let log := applied.log.purgeExpired retention now
  if applied.change.isSome = true ∨ applied.log.expiredChanges retention now ≠ [] ∨
      applied.dirty = true then
    { s with log, commit := some ⟨log.snapshot, s.log⟩, settled := none }
  else { s with log, settled := some .resolved }

def run (options : LogOptions) (s : LogService) (now : ℤ) (retention : Str → Option ℤ) :
    LogService :=
  match s.commit, s.queue with
  | none, mutation :: queue =>
    match s.log.operate options now mutation with
    | .error _ => { s with queue, settled := some (.rejected s.log s.stored) }
    | .ok applied => { s.finish now retention applied with queue }
  | _, _ => { s with settled := none }

def committed (s : LogService) (fails : Bool) : LogService :=
  match s.commit with
  | none => { s with settled := none }
  | some commit =>
    if fails = true then
      { s with commit := none, settled := some (.rejected commit.before s.stored) }
    else
      { s with stored := some commit.snapshot, commit := none, settled := some .resolved }

def step (options : LogOptions) (s : LogService) : LogInput → LogService
  | .call mutation => s.call mutation
  | .run now retention => s.run options now retention
  | .committed fails => s.committed fails

end LogService

end Terminay.Automation
