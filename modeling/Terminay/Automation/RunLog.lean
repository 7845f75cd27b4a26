import Terminay.Automation.RunEntry
import Terminay.Lib.OrderedMap
import Mathlib.Data.List.Sort

/-!
# The run log of automations

The log keeps the runs of each automation, oldest first, the schedules that were missed
and how its runs were last pruned. A mutation changes the maps, expired runs are purged,
and what changed is committed. Loading a committed snapshot reads running runs as stopped.
-/

namespace Terminay.Automation
open Script

structure MissedRecord where
  automationId : Str
  missedCount : ℤ
  latestDueAt : ℤ
  deriving DecidableEq

inductive AutomationErrorCode where | invalidAutomation | runNotFound
  deriving DecidableEq

structure AutomationError where
  code : AutomationErrorCode
  message : Str
  deriving DecidableEq

structure LogOptions where
  limit : ℕ
  outputTailBytes : ℕ

structure RunLog where
  runs : OrderedMap Str (List RunEntry)
  missed : OrderedMap Str MissedRecord
  pruneChoices : OrderedMap Str ℤ

structure RunLogState where
  runs : OrderedMap Str (List RunEntry)
  missed : List MissedRecord
  pruneChoices : OrderedMap Str ℤ

inductive RunLogChange where
  | run (run : RunEntry)
  | missed (missed : List MissedRecord)
  | removed (automationId : Str) (runIds : List Str)

/-- What a mutation resolves to. -/
inductive MutationResult where
  | entry (entry : Option RunEntry)
  | missed (missed : Option MissedRecord)
  | dismissed (changed : Bool)
  | pruned (removed : ℕ) (olderThanDays : ℤ)
  | done
  deriving DecidableEq

structure Applied where
  log : RunLog
  result : MutationResult
  change : Option RunLogChange
  dirty : Bool

namespace RunLog

def empty : RunLog := ⟨.empty, .empty, .empty⟩

def runsOf (log : RunLog) (automationId : Str) : List RunEntry := (log.runs.get automationId).getD []

def listMissed (log : RunLog) : List MissedRecord :=
  log.missed.values.insertionSort fun left right => right.latestDueAt ≤ left.latestDueAt

def snapshot (log : RunLog) : RunLogState := ⟨log.runs, log.listMissed, log.pruneChoices⟩

def stoppedRun (entry : RunEntry) : RunEntry :=
  if entry.status = .running then
    { entry with
      status := .finished
      outcome := some .stopped
      reason := some (js "the server stopped during the run") }
  else entry

def loadEntry (tailBytes : ℕ) (automationId : Str) (candidate : RunEntry) : Option RunEntry :=
  match normalizeEntry tailBytes candidate with
  | some entry => if entry.automationId = automationId then some (stoppedRun entry) else none
  | none => none

def loadRuns (options : LogOptions) (automationId : Str) (entries : List RunEntry) :
    Option (List RunEntry) :=
  match entries.filterMap (loadEntry options.outputTailBytes automationId) with
  | [] => none
  | kept => some (sliceLast options.limit kept)

def isMissed (m : MissedRecord) : Bool :=
  (0 < m.automationId.length && m.automationId.length ≤ 128) && (isCount m.missedCount &&
    0 < m.missedCount) && isCount m.latestDueAt

def loadChoice (automationId : Str) (olderThanDays : ℤ) : Option ℤ :=
  if (isId automationId && isDays olderThanDays 0) = true then some olderThanDays else none

def load (options : LogOptions) : Option RunLogState → RunLog
  | none => empty
  | some state =>
    { runs := state.runs.filterMap (loadRuns options)
      missed := .ofList ((state.missed.filter isMissed).map fun m => (m.automationId, m))
      pruneChoices := state.pruneChoices.filterMap loadChoice }

def dayMs : ℤ := 86400000

def isExpired (retention : Str → Option ℤ) (now : ℤ) (entry : RunEntry) : Bool :=
  entry.status = .finished &&
    (retention entry.automationId).any fun days =>
      isDays days 1 && entry.startedAt < now - days * dayMs

def purgeRuns (retention : Str → Option ℤ) (now : ℤ) (entries : List RunEntry) :
    Option (List RunEntry) :=
  if entries.any (isExpired retention now) = true then
    match entries.filter fun entry => !isExpired retention now entry with
    | [] => none
    | kept => some kept
  else some entries

def expiredChanges (log : RunLog) (retention : Str → Option ℤ) (now : ℤ) : List RunLogChange :=
  log.runs.entries.filterMap fun e =>
    if e.2.any (isExpired retention now) = true then
      some (.removed e.1 ((e.2.filter (isExpired retention now)).map (·.runId)))
    else none

def purgeExpired (log : RunLog) (retention : Str → Option ℤ) (now : ℤ) : RunLog :=
  { log with runs := log.runs.filterMap fun _ entries => purgeRuns retention now entries }

section Mutations

variable (log : RunLog)

def putEntry (entries : List RunEntry) (entry : RunEntry) : RunEntry × List RunEntry :=
  let index := entries.findIdx fun candidate => candidate.runId = entry.runId
  match entries[index]? with
  | none => (entry, entries ++ [entry])
  | some earlier =>
    let merged := mergeOpenedSessions entry earlier.openedSessions
    (merged, entries.set index merged)

def record (options : LogOptions) (entry : RunEntry) : Except AutomationError Applied :=
  match normalizeEntry options.outputTailBytes entry with
  | none => .error ⟨.invalidAutomation, js "automation run entry is invalid"⟩
  | some normalized =>
    let put := putEntry (log.runsOf normalized.automationId) normalized
    .ok
      { log := { log with
          runs := log.runs.set normalized.automationId
            (put.2.drop (put.2.length - options.limit)) }
        result := .entry (some put.1)
        change := some (.run put.1)
        dirty := false }

def owner (runId : Str) : Option (Str × List RunEntry) :=
  log.runs.entries.find? fun e => e.2.any fun entry => entry.runId = runId

def unchanged (result : MutationResult) : Applied := ⟨log, result, none, false⟩

def addOpenedSession (runId sessionId : Str) : Applied :=
  match log.owner runId with
  | none => log.unchanged (.entry none)
  | some (automationId, entries) =>
    let index := entries.findIdx fun entry => entry.runId = runId
    match entries[index]? with
    | none => log.unchanged (.entry none)
    | some current =>
      if sessionId ∈ current.openedSessions.getD [] then log.unchanged (.entry (some current))
      else
        let next := withOpenedSessions current [sessionId]
        { log := { log with runs := log.runs.set automationId (entries.set index next) }
          result := .entry (some next)
          change := some (.run next)
          dirty := false }

def addSuppressed (automationId : Str) (count : ℤ) : Applied :=
  let entries := log.runsOf automationId
  let index := entries.length - 1
  match entries[index]? with
  | none => log.unchanged (.entry none)
  | some current =>
    let next := { current with suppressedEvents := current.suppressedEvents + max 0 count }
    { log := { log with runs := log.runs.set automationId (entries.set index next) }
      result := .entry (some next)
      change := some (.run next)
      dirty := false }

def nextMissed (automationId : Str) (missedCount latestDueAt : ℤ) : MissedRecord :=
  let previous := log.missed.get automationId
  { automationId
    missedCount := previous.elim 0 (·.missedCount) + missedCount
    latestDueAt := max (previous.elim 0 (·.latestDueAt)) latestDueAt }

def recordMissed (automationId : Str) (missedCount latestDueAt : ℤ) : Applied :=
  if isSafe missedCount = false ∨ missedCount ≤ 0 then log.unchanged (.missed none)
  else
    let next := log.nextMissed automationId missedCount latestDueAt
    let log' : RunLog := { log with missed := log.missed.set automationId next }
    ⟨log', .missed (some next), some (.missed log'.listMissed), false⟩

def dismissMissed (automationId : Option Str) : Applied :=
  let log' : RunLog := { log with
    missed := automationId.elim .empty fun id => log.missed.delete id }
  let changed := automationId.elim (!log.missed.entries.isEmpty) fun id =>
    (log.missed.get id).isSome
  ⟨log', .dismissed changed, if changed = true then some (.missed log'.listMissed) else none, false⟩

def remove (runId : Str) : Except AutomationError Applied :=
  match log.owner runId with
  | none => .error ⟨.runNotFound, js "automation run is unavailable"⟩
  | some (automationId, entries) =>
    let index := entries.findIdx fun entry => entry.runId = runId
    match entries[index]? with
    | none => .error ⟨.runNotFound, js "automation run is unavailable"⟩
    | some entry =>
      if entry.status = .running then
        .error ⟨.invalidAutomation, js "a run in progress cannot be deleted"⟩
      else
        let rest := entries.eraseIdx index
        .ok
          { log := { log with
              runs := if rest = [] then log.runs.delete automationId
                else log.runs.set automationId rest }
            result := .entry (some entry)
            change := some (.removed automationId [runId])
            dirty := false }

def isPruned (now olderThanDays : ℤ) (entry : RunEntry) : Bool :=
  entry.status = .finished && (olderThanDays = 0 || entry.startedAt < now - olderThanDays * dayMs)

def prune (now : ℤ) (automationId : Str) (olderThanDays : ℤ) : Applied :=
  let entries := log.runsOf automationId
  let removed := entries.filter (isPruned now olderThanDays)
  let kept := entries.filter fun entry => !isPruned now olderThanDays entry
  { log := { log with
      runs := if kept = [] then log.runs.delete automationId else log.runs.set automationId kept
      pruneChoices := log.pruneChoices.set automationId olderThanDays }
    result := .pruned removed.length olderThanDays
    change := if removed = [] then none
      else some (.removed automationId (removed.map (·.runId)))
    dirty := true }

def forget (automationId : Str) : Applied :=
  let log' : RunLog :=
    { runs := log.runs.delete automationId
      missed := log.missed.delete automationId
      pruneChoices := log.pruneChoices.delete automationId }
  { log := log'
    result := .done
    change := if (log.missed.get automationId).isSome = true then some (.missed log'.listMissed)
      else none
    dirty := false }

end Mutations

end RunLog

inductive Mutation where
  | record (entry : RunEntry)
  | addOpenedSession (runId sessionId : Str)
  | addSuppressed (automationId : Str) (count : ℤ)
  | recordMissed (automationId : Str) (missedCount latestDueAt : ℤ)
  | dismissMissed (automationId : Option Str)
  | remove (runId : Str)
  | prune (automationId : Str) (olderThanDays : ℤ)
  | forget (automationId : Str)
  | applyRetention

namespace RunLog

def operate (options : LogOptions) (now : ℤ) (log : RunLog) :
    Mutation → Except AutomationError Applied
  | .record entry => log.record options entry
  | .addOpenedSession runId sessionId => .ok (log.addOpenedSession runId sessionId)
  | .addSuppressed automationId count => .ok (log.addSuppressed automationId count)
  | .recordMissed automationId missedCount latestDueAt =>
    .ok (log.recordMissed automationId missedCount latestDueAt)
  | .dismissMissed automationId => .ok (log.dismissMissed automationId)
  | .remove runId => log.remove runId
  | .prune automationId olderThanDays => .ok (log.prune now automationId olderThanDays)
  | .forget automationId => .ok (log.forget automationId)
  | .applyRetention => .ok (log.unchanged .done)

end RunLog

end Terminay.Automation
