import Terminay.Bots.Checks
import Terminay.Lib.Runs

/-!
# The turn queue of a bot

A bot has a lane with four work executions and one coordination slot, which only a
message of the user may take. A coordination turn can be promoted to work; where it
replaces another turn, a reservation keeps the freed slot from whatever waits.
-/

namespace Terminay.Bots
open Script

inductive BotSessionOrigin where
  | chat
  | trigger (triggerId : Str)
  | runNow (triggerId : Str)
  | failure
  deriving DecidableEq

def botTriggerOrigin : BotSessionOrigin → Option Str
  | .trigger triggerId | .runNow triggerId => some triggerId
  | _ => none

structure BotQueuedTurn where
  id : Str
  sessionId : Str
  origin : BotSessionOrigin
  prompt : Str
  arrival : ℤ
  coordinationOnly : Bool
  deriving DecidableEq

structure Reservation where
  source : Str
  target : Str
  deriving DecidableEq

/-- `accepted`, `started`, `cancelled` and `ended` remember the turns the queue took, those it ran,
those it gave back and the runs that are over. -/
structure Lane where
  waiting : List BotQueuedTurn
  active : List (Str × BotQueuedTurn)
  stopped : Bool
  failed : Bool
  reservation : Option Reservation
  accepted : List Str
  started : List BotQueuedTurn
  cancelled : List Str
  ended : List Str

namespace Lane

def created : Lane where
  waiting := []
  active := []
  stopped := false
  failed := false
  reservation := none
  accepted := []
  started := []
  cancelled := []
  ended := []

def work (l : Lane) : ℕ := (l.active.filter fun e => !e.2.coordinationOnly).length

def coordination (l : Lane) : ℕ := (l.active.filter fun e => e.2.coordinationOnly).length

def next (l : Lane) : Option ℕ :=
  if 4 ≤ l.work then
    if 0 < l.coordination then none else l.waiting.findIdx? fun item => item.origin = .chat
  else if l.waiting = [] then none
  else some 0

def start (l : Lane) (index : ℕ) (item : BotQueuedTurn) : Lane :=
  let running := { item with coordinationOnly := decide (4 ≤ l.work) }
  { l with
    waiting := l.waiting.eraseIdx index
    active := Entries.set l.active item.id running
    started := l.started ++ [running] }

def dispatchLoop : ℕ → Lane → Lane
  | 0, l => l
  | n + 1, l =>
    match l.next.bind fun index => (l.waiting[index]?).map fun item => (index, item) with
    | none => l
    | some (index, item) => dispatchLoop n (l.start index item)

def dispatch (l : Lane) : Lane :=
  if l.stopped = true ∨ l.reservation.isSome = true then l else dispatchLoop l.waiting.length l

def enqueue (l : Lane) (item : BotQueuedTurn) : Except BotError Lane :=
  if l.stopped = true ∨ 20 ≤ l.waiting.length ∨
      (l.waiting.any fun waiting => waiting.sessionId = item.sessionId) = true then
    .error ⟨.busy, js "Bot execution queue is full or blocked"⟩
  else
    .ok (dispatch { l with waiting := l.waiting ++ [item], accepted := l.accepted ++ [item.id] })

def find (l : Lane) (sessionId : Str) : Option BotQueuedTurn :=
  (l.active.find? fun e => e.2.sessionId = sessionId).map Prod.snd

def reservePromotion (l : Lane) (source target : Str) : Lane :=
  if (l.find source).any (fun item => item.coordinationOnly) = true ∧
      (l.active.any fun e => e.2.sessionId = target ∧ e.2.coordinationOnly = false) = true then
    { l with reservation := some ⟨source, target⟩ }
  else l

def release (l : Lane) (source : Str) : Lane :=
  dispatch { l with
    reservation := if l.reservation.any (fun r => r.source = source) = true then none
      else l.reservation }

def setCoordination (l : Lane) (item : BotQueuedTurn) (coordinationOnly : Bool) : Lane :=
  { l with
    active := Entries.set l.active item.id { item with coordinationOnly := coordinationOnly } }

def retired (l : Lane) (sessionId : Str) (retiredId : Option Str) : Option BotQueuedTurn :=
  if l.reservation.any (fun r => r.source = sessionId ∧ some r.target = retiredId) = true then
    retiredId.bind l.find
  else none

def retire (l : Lane) (sessionId : Str) (retiredId : Option Str) : Lane :=
  match l.retired sessionId retiredId with
  | none => l
  | some item => l.setCoordination item true

def promote (l : Lane) (sessionId : Str) (retiredId : Option Str) : Bool × Lane :=
  match l.find sessionId with
  | none => (false, l)
  | some item =>
    if item.coordinationOnly = false then (true, l)
    else
      let less := l.retire sessionId retiredId
      if 4 ≤ less.work then (false, less) else (true, less.setCoordination item false)

def withdraw (l : Lane) (id : Str) : Lane :=
  match l.waiting.findIdx? fun item => item.id = id with
  | none => l
  | some index =>
    { l with waiting := l.waiting.eraseIdx index, cancelled := l.cancelled ++ [id] }

def cancel (l : Lane) (id : Str) : Except BotError Lane :=
  if (l.waiting.any fun item => item.id = id) = true then .ok (l.withdraw id)
  else .error ⟨.notFound, js "Queued execution not found"⟩

def disableTrigger (l : Lane) (triggerId : Str) : Lane :=
  Runs.after withdraw l
    ((l.waiting.filter fun item => botTriggerOrigin item.origin = some triggerId).map
      BotQueuedTurn.id)

def pause (l : Lane) : Lane := { l with stopped := true }

def block (l : Lane) : Lane :=
  { l with
    stopped := true
    waiting := []
    cancelled := l.cancelled ++ l.waiting.map BotQueuedTurn.id }

def unblock (l : Lane) (reset : Bool) : Except BotError Lane :=
  if l.failed = true ∧ reset = false then .error ⟨.unavailable, js "Bot cleanup must be reconciled"⟩
  else .ok (dispatch { l with
    stopped := false
    failed := if reset = true then false else l.failed })

def fail (l : Lane) (id : Str) : Lane :=
  if (Entries.get l.active id).isSome = true then { l with failed := true, stopped := true } else l

def finish (l : Lane) (id : Str) : Lane :=
  if (Entries.get l.active id).isSome = true then
    dispatch { l with active := Entries.delete l.active id, ended := l.ended ++ [id] }
  else l

end Lane

inductive TurnInput where
  | enqueue (item : BotQueuedTurn)
  | reservePromotion (source target : Str)
  | release (source : Str)
  | promote (sessionId : Str) (retiredId : Option Str)
  | cancel (id : Str)
  | disableTrigger (triggerId : Str)
  | pause
  | block
  | unblock (reset : Bool)
  | failed (id : Str)
  | finished (id : Str)

def Lane.step (l : Lane) : TurnInput → Lane
  | .enqueue item => (l.enqueue item).toOption.getD l
  | .reservePromotion source target => l.reservePromotion source target
  | .release source => l.release source
  | .promote sessionId retiredId => (l.promote sessionId retiredId).2
  | .cancel id => (l.cancel id).toOption.getD l
  | .disableTrigger triggerId => l.disableTrigger triggerId
  | .pause => l.pause
  | .block => l.block
  | .unblock reset => (l.unblock reset).toOption.getD l
  | .failed id => l.fail id
  | .finished id => l.finish id

structure BotTurnQueue where
  lanes : List (Str × Lane)

namespace BotTurnQueue

def created : BotTurnQueue := ⟨[]⟩

def lane (q : BotTurnQueue) (botId : Str) : Lane := (Entries.get q.lanes botId).getD .created

def step (q : BotTurnQueue) (input : Str × TurnInput) : BotTurnQueue :=
  ⟨Entries.set q.lanes input.1 ((q.lane input.1).step input.2)⟩

end BotTurnQueue

end Terminay.Bots
