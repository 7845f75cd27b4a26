import Terminay.Bots.Observation
import Terminay.Lib.Runs

/-!
# The memory of a bot's sources

Checkpoints and accepted events of a bot are one state file, which every call replaces
as a whole. What is in memory is the state last saved or loaded.
-/

namespace Terminay.Bots
open Script

structure BotTrigger where
  id : Id24
  generation : Option Id24
  name : Str
  prompt : Str
  condition : BotObservationSource

def BotTrigger.current (t : BotTrigger) : Id24 := t.generation.getD t.id

inductive SourceOrigin where | trigger | runNow
  deriving DecidableEq

structure PendingSourceEvent (ν : Type) where
  id : Id24
  sessionId : Id24
  triggerId : Id24
  generation : Id24
  triggerName : Str
  prompt : Str
  payload : Json ν
  observedAt : ℤ
  dueAt : ℤ
  origin : SourceOrigin
  recovery : Option RecoveryRange

structure SourceState (ν : Type) where
  checkpoints : List (Id24 × SourceCheckpoint)
  pending : List (PendingSourceEvent ν)

def SourceState.empty (ν : Type) : SourceState ν := ⟨[], []⟩

/-- A trigger under one generation of its source. -/
abbrev SourceKey := Id24 × Id24

def BotTrigger.key (t : BotTrigger) : SourceKey := (t.id, t.current)

/-- One accepted observation: the identities it named and, for each of its events, the identity the
event is about. -/
structure Observed where
  present : List Str
  events : List (Option Str)
  baseline : Bool

/-- `observed` remembers what was accepted since the last reset, `opened` whose memory was ever
stored, `numbers` and `accepted` the events that became pending and their numbers. -/
structure BotSourceStore (ν : Type) where
  cache : Option (SourceState ν)
  target : Option (SourceState ν)
  previous : Option (SourceState ν)
  observed : List (SourceKey × Observed)
  opened : List SourceKey
  numbers : List (SourceKey × ℕ)
  accepted : List (PendingSourceEvent ν)

def sessionText (number : SourceKey × ℕ) : Str :=
  number.1.1.text ++ unit ':' :: (number.1.2.text ++ unit ':' :: natText number.2)

section Files

variable {ν : Type} [Engine ν]

def IsState (s : SourceState ν) : Prop :=
  s.pending.length ≤ 1000 ∧ s.checkpoints.length ≤ 50 ∧ ∀ e ∈ s.checkpoints, Storable ν e.2

instance {s : SourceState ν} : Decidable (IsState s) := inferInstanceAs (Decidable (_ ∧ _ ∧ _))

def RecoveryRange.json (r : RecoveryRange) : Json ν :=
  .obj [(js "after", .num (Engine.literal (r.after : ℚ))),
    (js "through", .num (Engine.literal (r.through : ℚ)))]

def PendingSourceEvent.json (e : PendingSourceEvent ν) : Json ν :=
  .obj ([(js "id", .str e.id.text), (js "sessionId", .str e.sessionId.text),
    (js "triggerId", .str e.triggerId.text), (js "generation", .str e.generation.text),
    (js "triggerName", .str e.triggerName), (js "prompt", .str e.prompt), (js "payload", e.payload),
    (js "observedAt", .num (Engine.literal (e.observedAt : ℚ))),
    (js "dueAt", .num (Engine.literal (e.dueAt : ℚ))),
    (js "origin", .str (match e.origin with | .trigger => js "trigger" | .runNow => js "run-now"))] ++
    e.recovery.toList.map fun r => (js "recovery", r.json))

def maxStateBytes : ℕ := 16 * 1024 * 1024

def rememberedText (s : SourceState ν) : Str :=
  (Json.arr (s.checkpoints.map fun e => texts e.2.ids) : Json ν).stringify

def pendingText (s : SourceState ν) : Str :=
  (Json.arr (s.pending.map PendingSourceEvent.json)).stringify

namespace BotSourceStore

def created (ν : Type) : BotSourceStore ν := ⟨none, none, none, [], [], [], []⟩

def restore (s : BotSourceStore ν) : Except SourceError (BotSourceStore ν) :=
  match s.previous with
  | none => .error .unreadable
  | some copy =>
    if IsState copy then .ok { s with cache := some copy, target := some copy }
    else .error .unreadable

def load (s : BotSourceStore ν) : Except SourceError (BotSourceStore ν) :=
  match s.cache, s.target with
  | some _, _ => .ok s
  | none, none =>
    if s.previous.isNone = true then .ok { s with cache := some (SourceState.empty ν) }
    else s.restore
  | none, some state =>
    if IsState state then .ok { s with cache := some state } else s.restore

def state (s : BotSourceStore ν) : SourceState ν := s.cache.getD (SourceState.empty ν)

def stored (s : BotSourceStore ν) (next : SourceState ν) : BotSourceStore ν :=
  { s with
    cache := some next
    target := some next
    previous := if s.target.isSome = true then s.target else s.previous }

def save (s : BotSourceStore ν) (next : SourceState ν) (written : Bool) :
    Except SourceError (BotSourceStore ν) :=
  if 1000 < next.pending.length ∨ maxStateBytes < utf8Length (pendingText next) then
    .error (.bot ⟨.resource, js "Pending source event limit reached"⟩)
  else if maxStateBytes < utf8Length (rememberedText next) then
    .error (.bot ⟨.resource, js "Remembered identity limit reached"⟩)
  else if written = false then .error .unwritten
  else .ok (s.stored next)

end BotSourceStore

end Files

def SourceState.checkpoint {ν : Type} (s : SourceState ν) (t : BotTrigger) : SourceCheckpoint :=
  match Entries.get s.checkpoints t.id with
  | none => initialCheckpoint t.current
  | some cp => if cp.generation = t.current then cp else initialCheckpoint t.current

/-- What a call reads next to the observation. `newId` are the ids it generates. -/
structure Acceptance where
  observedAt : ℤ
  dueAt : ℤ
  origin : SourceOrigin
  recovery : Option RecoveryRange
  waiting : Bool
  newId : ℕ → Id24

section Commit

variable {ν : Type} [Engine ν] (parse : Str → Option (Json ν)) (sha256 : Str → Digest)

def pendingEvent (t : BotTrigger) (cp : SourceCheckpoint) (a : Acceptance)
    (e : SourceEvent ν × ℕ) : PendingSourceEvent ν where
  id := a.newId e.2
  sessionId := (sha256 (sessionText ((t.id, cp.generation), cp.sequence + e.2 + 1))).short
  triggerId := t.id
  generation := cp.generation
  triggerName := t.name
  prompt := t.prompt
  payload := e.1.payload
  observedAt := a.observedAt
  dueAt := a.dueAt
  origin := a.origin
  recovery := a.recovery

def committedHealth (cp : SourceCheckpoint) (a : Acceptance) (fired : Bool) : BotSourceHealth :=
  { cp.health with
    lastSuccess := some a.observedAt
    error := none
    cause := none
    remembered := cp.ids.length
    lastFired := if fired = true then some a.observedAt else cp.health.lastFired }

def committed (cp : SourceCheckpoint) (a : Acceptance) (count : ℕ) : SourceCheckpoint :=
  { cp with
    sequence := cp.sequence + count
    health := committedHealth cp a (0 < count)
    failureEpisode := false }

def healthState (source : BotObservationSource) (waiting : Bool) : BotSourceState :=
  if waiting = true then .waiting
  else
    match source with
    | .sse => .connected
    | .files => .watching
    | _ => .healthy

def checked (t : BotTrigger) (a : Acceptance) (cp : SourceCheckpoint) : SourceCheckpoint :=
  { cp with health := { cp.health with state := healthState t.condition a.waiting } }

namespace BotSourceStore

def commit (s : BotSourceStore ν) (t : BotTrigger) (cp : SourceCheckpoint)
    (events : List (SourceEvent ν)) (a : Acceptance) (written : Bool) :
    Except SourceError (BotSourceStore ν) := do
  let pending := events.zipIdx.map (pendingEvent sha256 t cp a)
  let saved ← s.save {
    checkpoints := Entries.set s.state.checkpoints t.id (committed cp a events.length)
    pending := s.state.pending ++ pending } written
  .ok { saved with
    opened := s.opened ++ [t.key]
    numbers := s.numbers ++
      (List.range events.length).map fun k => ((t.id, cp.generation), cp.sequence + k + 1)
    accepted := s.accepted ++ pending }

def acceptObservation (s : BotSourceStore ν) (t : BotTrigger) (value : Json ν) (a : Acceptance)
    (written : Bool) : Except SourceError (BotSourceStore ν) := do
  let s ← s.load
  let previous := s.state.checkpoint t
  let seen ← evaluateObservation parse sha256 t.condition previous value
  let saved ← s.commit sha256 t (checked t a seen.checkpoint) seen.events a written
  .ok { saved with
    observed := s.observed ++
      [(t.key, ⟨seen.present, seen.events.map SourceEvent.identity,
        isBaseline t.condition previous⟩)] }

end BotSourceStore

end Commit

/-- What the calls of `update` do to a checkpoint. -/
inductive CheckpointChange where
  | reset (resume : Bool)
  | enabled
  | available
  | ignoreGap
  | health (health : BotSourceHealth) (failureEpisode : Bool)
  | recovery (recovery : Option RecoveryRange)

def resumed (t : BotTrigger) (cp : SourceCheckpoint) : SourceCheckpoint :=
  match t.condition with
  | .sse => { cp with resumeBaseline := false, cursor := none, recovery := none }
  | _ => { cp with resumeBaseline := true, recovery := none }

def CheckpointChange.apply (t : BotTrigger) (cp : SourceCheckpoint) :
    CheckpointChange → SourceCheckpoint
  | .reset resume =>
    { cp with
      generation := t.current
      initialized := false
      ids := []
      health := initialHealth
      resumeBaseline := resume }
  | .enabled =>
    { resumed t cp with failureEpisode := false, health := { cp.health with state := .disabled } }
  | .available => resumed t cp
  | .ignoreGap => { cp with resumeBaseline := cp.resumeBaseline || cp.initialized }
  | .health patch episode => { cp with health := patch, failureEpisode := episode }
  | .recovery range => { cp with recovery := range }

def CheckpointChange.resets : CheckpointChange → Bool
  | .reset _ => true
  | _ => false

inductive SourceInput (ν : Type) where
  | observe (t : BotTrigger) (value : Json ν) (a : Acceptance) (written : Bool)
  | update (t : BotTrigger) (change : CheckpointChange) (written : Bool)
  | delivered (id : Id24) (written : Bool)
  | cancel (t : BotTrigger) (forget written : Bool)
  | restart

section Step

variable {ν : Type} [Engine ν] (parse : Str → Option (Json ν)) (sha256 : Str → Digest)

namespace BotSourceStore

def update (s : BotSourceStore ν) (t : BotTrigger) (change : CheckpointChange) (written : Bool) :
    Except SourceError (BotSourceStore ν) := do
  let s ← s.load
  let cp := change.apply t (s.state.checkpoint t)
  let saved ← s.save { s.state with checkpoints := Entries.set s.state.checkpoints t.id cp } written
  .ok { saved with
    opened := s.opened ++ [t.key]
    observed := if change.resets = true then s.observed.filter fun e => e.1 ≠ t.key
      else s.observed }

def delivered (s : BotSourceStore ν) (id : Id24) (written : Bool) :
    Except SourceError (BotSourceStore ν) := do
  let s ← s.load
  s.save { s.state with pending := s.state.pending.filter fun e => e.id ≠ id } written

def cancel (s : BotSourceStore ν) (t : BotTrigger) (forget written : Bool) :
    Except SourceError (BotSourceStore ν) := do
  let s ← s.load
  s.save {
    checkpoints := if forget = true then Entries.delete s.state.checkpoints t.id
      else s.state.checkpoints
    pending := s.state.pending.filter fun e => e.triggerId ≠ t.id } written

def attempt (s : BotSourceStore ν) : SourceInput ν → Except SourceError (BotSourceStore ν)
  | .observe t value a written => s.acceptObservation parse sha256 t value a written
  | .update t change written => s.update t change written
  | .delivered id written => s.delivered id written
  | .cancel t forget written => s.cancel t forget written
  | .restart => .ok { s with cache := none }

/-- A call that fails has read the file at most. -/
def step (s : BotSourceStore ν) (input : SourceInput ν) : BotSourceStore ν :=
  match s.attempt parse sha256 input with
  | .ok next => next
  | .error _ => s.load.toOption.getD s

def contents (s : BotSourceStore ν) : Except SourceError (SourceState ν) := s.load.map state

end BotSourceStore

end Step

end Terminay.Bots
