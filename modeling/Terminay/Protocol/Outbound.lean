import Terminay.Lib.Entries
import Terminay.Lib.Runs
import Terminay.Script.Json

/-!
# Outbound delivery

A connection hands its frames to the transport one at a time. Control frames have a
queue of their own, state frames one for each subscription and terminal output one
for each attachment. A state lane that overflows gives its backlog up for a resync
notice; a terminal lane that falls behind gives it up for a skip and stays silent.
-/

namespace Terminay.Protocol
open Script

/-- The class of a frame with the lane it is queued in. Both positions of an output and the range
of a skip are kept. -/
inductive Traffic where
  | control
  | state (laneId key : Str)
  | stateResync (laneId : Str)
  | terminal (laneId : Str) (position nextPosition : ℕ)
  | terminalSkip (laneId : Str) (fromPosition toPosition : ℕ)
  deriving DecidableEq

namespace Traffic

def stateLaneId : Traffic → Option Str
  | .state laneId _ | .stateResync laneId => some laneId
  | _ => none

def stateKey : Traffic → Option Str
  | .state _ key => some key
  | _ => none

def terminalLaneId : Traffic → Option Str
  | .terminal laneId _ _ | .terminalSkip laneId _ _ => some laneId
  | _ => none

def nextPosition : Traffic → Option ℕ
  | .terminal _ _ nextPosition => some nextPosition
  | _ => none

end Traffic

/-- A queued frame, numbered by its admission. -/
structure PendingDelivery (φ : Type) where
  number : ℕ
  frame : φ
  traffic : Traffic

/-- `start` is the first admitted position, `highest` the largest one before the lane gave up, and
`since` counts the frames that were handed over before the lane was opened. -/
structure TerminalLane (φ : Type) where
  queue : List (PendingDelivery φ)
  queuedBytes : ℤ
  suppressed : Bool
  releasePending : Bool
  confirmedPosition : ℕ
  headPosition : ℕ
  sentPosition : ℕ
  unconfirmedSince : Option ℤ
  start : ℕ
  highest : ℕ
  since : ℕ

structure StateLane (φ : Type) where
  queue : List (PendingDelivery φ)
  queuedBytes : ℤ
  resyncPending : Bool

section Lanes
variable {φ : Type}

def droppable (retained : Option (PendingDelivery φ)) (queue : List (PendingDelivery φ)) :
    List (PendingDelivery φ) :=
  queue.filter fun pending => !retained.any fun active => active.number = pending.number

def isFirst (queue : List (PendingDelivery φ)) (pending : PendingDelivery φ) : Bool :=
  queue.head?.any fun first => first.number = pending.number

def TerminalLane.confirmed (lane : TerminalLane φ) (position now : ℤ) : TerminalLane φ :=
  { lane with
    confirmedPosition := position.toNat
    unconfirmedSince := if lane.headPosition ≤ position then none else some now }

def TerminalLane.counted (lane : TerminalLane φ) (nextPosition : ℕ) : TerminalLane φ :=
  { lane with highest := max lane.highest nextPosition }

def TerminalLane.advanced (lane : TerminalLane φ) (nextPosition : ℕ) (now : ℤ) : TerminalLane φ :=
  { lane with
    unconfirmedSince := some (lane.unconfirmedSince.getD now)
    headPosition := nextPosition }

variable (size : φ → ℕ)

def totalBytes (queue : List (PendingDelivery φ)) : ℤ :=
  (queue.map fun pending => (size pending.frame : ℤ)).sum

def StateLane.sent (lane : StateLane φ) (pending : PendingDelivery φ) : StateLane φ :=
  { lane with
    queue := lane.queue.tail
    queuedBytes := lane.queuedBytes - size pending.frame }

def TerminalLane.sent (lane : TerminalLane φ) (pending : PendingDelivery φ) : TerminalLane φ :=
  { lane with
    queue := lane.queue.tail
    queuedBytes := lane.queuedBytes - size pending.frame
    sentPosition := max lane.sentPosition (pending.traffic.nextPosition.getD lane.sentPosition) }

def TerminalLane.released (lane : TerminalLane φ) (retained : Option (PendingDelivery φ)) :
    TerminalLane φ :=
  { lane with
    queue := retained.toList
    queuedBytes := lane.queuedBytes - totalBytes size (droppable retained lane.queue)
    releasePending := true }

end Lanes

structure OutboundDeliveryLimits where
  maxQueuedBytes : ℕ
  maxQueuedFrames : ℕ
  maxTerminalQueuedBytes : ℕ
  maxTerminalQueuedFrames : ℕ
  maxTerminalUnconfirmedBytes : ℕ
  maxTerminalUnconfirmedAgeMs : ℕ
  maxStateQueuedBytes : ℕ
  maxStateQueuedFrames : ℕ

def maxConsecutiveControlDeliveries : ℕ := 8

/-- A lane that is gone, with the frames handed over while it was there. -/
structure RetiredLane (φ : Type) where
  laneId : Str
  lane : TerminalLane φ
  handed : List (PendingDelivery φ)

structure StateUpdate where
  number : ℕ
  laneId : Str
  key : Str
  deriving DecidableEq

structure Displaced where
  number : ℕ
  notice : ℕ
  completed : ℕ
  deriving DecidableEq

/-- `handed` keeps the frames in the order they went to the transport and `completed` those it took.
`retired` keeps the terminal lanes that are gone, `updates` the admitted state updates, and
`superseded` and `displaced` what became of those that were removed. -/
structure OutboundDeliveryPump (φ : Type) where
  controlQueue : List (PendingDelivery φ)
  terminalLanes : List (Str × TerminalLane φ)
  stateLanes : List (Str × StateLane φ)
  controlQueuedByteCount : ℤ
  terminalQueuedByteCount : ℤ
  stateQueuedByteCount : ℤ
  running : Bool
  activeDelivery : Option (PendingDelivery φ)
  terminalLaneCursor : ℕ
  stateLaneCursor : ℕ
  consecutiveControlDeliveries : ℕ
  terminalError : Bool
  admissions : ℕ
  handed : List (PendingDelivery φ)
  completed : List (PendingDelivery φ)
  retired : List (RetiredLane φ)
  updates : List StateUpdate
  superseded : List (ℕ × ℕ)
  displaced : List Displaced

structure TerminalDeliveryAdmission (φ : Type) where
  laneId : Str
  position : ℤ
  nextPosition : ℤ
  createSkipFrame : ℕ → ℕ → φ

structure StateDeliveryAdmission (φ : Type) where
  laneId : Str
  key : Str
  resyncFrame : φ

namespace OutboundDeliveryPump

variable {φ : Type}

def created : OutboundDeliveryPump φ where
  controlQueue := []
  terminalLanes := []
  stateLanes := []
  controlQueuedByteCount := 0
  terminalQueuedByteCount := 0
  stateQueuedByteCount := 0
  running := false
  activeDelivery := none
  terminalLaneCursor := 0
  stateLaneCursor := 0
  consecutiveControlDeliveries := 0
  terminalError := false
  admissions := 0
  handed := []
  completed := []
  retired := []
  updates := []
  superseded := []
  displaced := []

def queuedFrames (s : OutboundDeliveryPump φ) : ℕ :=
  s.controlQueue.length + Entries.total (fun lane => lane.queue.length) s.stateLanes +
    Entries.total (fun lane => lane.queue.length) s.terminalLanes

/-! ## Scheduling -/

def pick (queues : List (List (PendingDelivery φ))) (cursor : ℕ) : Option (PendingDelivery φ) :=
  queues[cursor % queues.length]?.bind List.head?

def busyTerminalLanes (s : OutboundDeliveryPump φ) : List (List (PendingDelivery φ)) :=
  (s.terminalLanes.map fun e => e.2.queue).filter fun queue => !queue.isEmpty

def busyStateLanes (s : OutboundDeliveryPump φ) : List (List (PendingDelivery φ)) :=
  (s.stateLanes.map fun e => e.2.queue).filter fun queue => !queue.isEmpty

def nextDelivery (s : OutboundDeliveryPump φ) : Option (PendingDelivery φ) × OutboundDeliveryPump φ :=
  let lanes := s.busyTerminalLanes
  let stateLanes := s.busyStateLanes
  if s.controlQueue ≠ [] ∧ ((lanes = [] ∧ stateLanes = []) ∨
      s.consecutiveControlDeliveries < maxConsecutiveControlDeliveries) then
    (s.controlQueue.head?,
      { s with consecutiveControlDeliveries := s.consecutiveControlDeliveries + 1 })
  else if stateLanes ≠ [] then
    (pick stateLanes s.stateLaneCursor,
      { s with
        consecutiveControlDeliveries := 0
        stateLaneCursor := (s.stateLaneCursor % stateLanes.length + 1) % stateLanes.length })
  else if lanes = [] then (none, s)
  else
    (pick lanes s.terminalLaneCursor,
      { s with
        consecutiveControlDeliveries := 0
        terminalLaneCursor := (s.terminalLaneCursor % lanes.length + 1) % lanes.length })

def drain (s : OutboundDeliveryPump φ) : OutboundDeliveryPump φ :=
  match s.nextDelivery with
  | (some pending, t) =>
    { t with activeDelivery := some pending, handed := t.handed ++ [pending] }
  | (none, t) => { t with activeDelivery := none, running := false }

def start (s : OutboundDeliveryPump φ) : OutboundDeliveryPump φ :=
  if s.running = true ∨ s.terminalError = true then s else { s with running := true }.drain

def retainedTerminal (s : OutboundDeliveryPump φ) (laneId : Str) : Option (PendingDelivery φ) :=
  s.activeDelivery.filter fun pending => pending.traffic.terminalLaneId = some laneId

def retainedState (s : OutboundDeliveryPump φ) (laneId : Str) : Option (PendingDelivery φ) :=
  s.activeDelivery.filter fun pending => pending.traffic.stateLaneId = some laneId

def isActive (s : OutboundDeliveryPump φ) (pending : PendingDelivery φ) : Bool :=
  s.activeDelivery.any fun active => active.number = pending.number

def fail (s : OutboundDeliveryPump φ) : OutboundDeliveryPump φ :=
  if s.terminalError = true then s
  else
    { s with
      terminalError := true
      controlQueue := []
      stateLanes := []
      terminalLanes := []
      controlQueuedByteCount := 0
      stateQueuedByteCount := 0
      terminalQueuedByteCount := 0 }

def laneHanded (s : OutboundDeliveryPump φ) (laneId : Str) (since : ℕ) : List (PendingDelivery φ) :=
  (s.handed.drop since).filter fun pending => pending.traffic.terminalLaneId = some laneId

def retire (s : OutboundDeliveryPump φ) (laneId : Str) (lane : TerminalLane φ) :
    OutboundDeliveryPump φ :=
  { s with
    terminalLanes := Entries.delete s.terminalLanes laneId
    retired := s.retired ++ [.mk laneId lane (s.laneHanded laneId lane.since)] }

def acknowledgeTerminal (s : OutboundDeliveryPump φ) (laneId : Str) (position now : ℤ) :
    OutboundDeliveryPump φ :=
  match Entries.get s.terminalLanes laneId with
  | none => s
  | some lane =>
    if maxSafeInteger < position.natAbs ∨ position < lane.confirmedPosition ∨
        lane.headPosition < position then s
    else
      { s with terminalLanes := Entries.set s.terminalLanes laneId (lane.confirmed position now) }

section Frames
variable (size : φ → ℕ)

def completeControl (s : OutboundDeliveryPump φ) (pending : PendingDelivery φ) :
    OutboundDeliveryPump φ :=
  if isFirst s.controlQueue pending = true then
    { s with
      controlQueue := s.controlQueue.tail
      controlQueuedByteCount := s.controlQueuedByteCount - size pending.frame }
  else s

def completeState (s : OutboundDeliveryPump φ) (laneId : Str) (pending : PendingDelivery φ) :
    OutboundDeliveryPump φ :=
  match Entries.get s.stateLanes laneId with
  | none => s
  | some lane =>
    if isFirst lane.queue pending = true then
      { s with
        stateLanes :=
          if lane.queue.tail = [] then Entries.delete s.stateLanes laneId
          else Entries.set s.stateLanes laneId (lane.sent size pending)
        stateQueuedByteCount := s.stateQueuedByteCount - size pending.frame }
    else s

def completeTerminal (s : OutboundDeliveryPump φ) (laneId : Str) (pending : PendingDelivery φ) :
    OutboundDeliveryPump φ :=
  match Entries.get s.terminalLanes laneId with
  | none => s
  | some lane =>
    if isFirst lane.queue pending = true then
      let counted : OutboundDeliveryPump φ := { s with
        terminalQueuedByteCount := s.terminalQueuedByteCount - size pending.frame }
      if lane.queue.tail = [] ∧ lane.releasePending = true then
        counted.retire laneId (lane.sent size pending)
      else
        { counted with
          terminalLanes := Entries.set s.terminalLanes laneId (lane.sent size pending) }
    else s

def completeDelivery (s : OutboundDeliveryPump φ) (pending : PendingDelivery φ) :
    OutboundDeliveryPump φ :=
  match pending.traffic with
  | .control => s.completeControl size pending
  | .state laneId _ | .stateResync laneId => s.completeState size laneId pending
  | .terminal laneId _ _ | .terminalSkip laneId _ _ => s.completeTerminal size laneId pending

def delivered (s : OutboundDeliveryPump φ) : OutboundDeliveryPump φ :=
  match s.activeDelivery with
  | none => s
  | some pending =>
    if s.terminalError = true then { s with activeDelivery := none, running := false }
    else
      drain { s.completeDelivery size pending with
        activeDelivery := none
        completed := s.completed ++ [pending] }

def rejected (s : OutboundDeliveryPump φ) (isOpen : Bool) : OutboundDeliveryPump φ :=
  match s.activeDelivery with
  | none => s
  | some pending =>
    if s.terminalError = true then { s with activeDelivery := none, running := false }
    else if isOpen = true ∧ pending.traffic = .control then
      drain { s.completeDelivery size pending with activeDelivery := none }
    else { s with activeDelivery := none, running := false }.fail

variable (limits : OutboundDeliveryLimits)

def queueControl (s : OutboundDeliveryPump φ) (frame : φ) : OutboundDeliveryPump φ :=
  { s with
    controlQueue := s.controlQueue ++ [.mk s.admissions frame .control]
    controlQueuedByteCount := s.controlQueuedByteCount + size frame
    admissions := s.admissions + 1 }

def send (s : OutboundDeliveryPump φ) (frame : φ) : OutboundDeliveryPump φ :=
  if s.terminalError = true then s
  else if limits.maxQueuedFrames ≤ s.controlQueue.length ∨
      limits.maxQueuedBytes < s.controlQueuedByteCount + size frame then s.fail
  else (s.queueControl size frame).start

/-! ## State lanes -/

def congestStateLane (s : OutboundDeliveryPump φ) (laneId : Str) (lane : StateLane φ) (frame : φ) :
    OutboundDeliveryPump φ :=
  let retained := s.retainedState laneId
  let dropped := droppable retained lane.queue
  let queuedBytes : ℤ := lane.queuedBytes - totalBytes size dropped
  let count : ℤ := s.stateQueuedByteCount - totalBytes size dropped
  if limits.maxStateQueuedBytes < size frame then
    { s with
      stateLanes :=
        Entries.set s.stateLanes laneId (.mk retained.toList queuedBytes lane.resyncPending)
      stateQueuedByteCount := count }
  else
    { s with
      stateLanes := Entries.set s.stateLanes laneId
        (.mk (retained.toList ++ [PendingDelivery.mk s.admissions frame (.stateResync laneId)])
          (queuedBytes + size frame) true)
      stateQueuedByteCount := count + size frame
      admissions := s.admissions + 1
      displaced := s.displaced ++ dropped.map fun pending =>
        .mk pending.number s.admissions s.completed.length }

def replaceable (s : OutboundDeliveryPump φ) (key : Str) (pending : PendingDelivery φ) : Bool :=
  !s.isActive pending && pending.traffic.stateKey = some key

def superseding (s : OutboundDeliveryPump φ) (lane : StateLane φ) (key : Str) : StateLane φ :=
  match lane.queue.find? (s.replaceable key) with
  | none => lane
  | some replaced =>
    { lane with
      queue := lane.queue.eraseP (s.replaceable key)
      queuedBytes := lane.queuedBytes - size replaced.frame }

def stateLane (s : OutboundDeliveryPump φ) (laneId : Str) : StateLane φ :=
  (Entries.get s.stateLanes laneId).getD ⟨[], 0, false⟩

def notice (lane : StateLane φ) : Option (PendingDelivery φ) :=
  lane.queue.find? fun pending => pending.traffic.stateKey.isNone

def numbered (s : OutboundDeliveryPump φ) (a : StateDeliveryAdmission φ)
    (replaced : Option (PendingDelivery φ)) : OutboundDeliveryPump φ :=
  { s with
    stateQueuedByteCount := s.stateQueuedByteCount - totalBytes size replaced.toList
    admissions := s.admissions + 1
    updates := s.updates ++ [.mk s.admissions a.laneId a.key]
    superseded := s.superseded ++ replaced.toList.map fun pending => (pending.number, s.admissions) }

def congestState (s : OutboundDeliveryPump φ) (laneId : Str) (lane : StateLane φ) (n : ℕ) (frame : φ) :
    OutboundDeliveryPump φ :=
  let t := s.congestStateLane size limits laneId lane frame
  { t with displaced := t.displaced ++ [.mk n s.admissions s.completed.length] }

def queueState (s : OutboundDeliveryPump φ) (laneId key : Str) (lane : StateLane φ) (n : ℕ)
    (frame : φ) : OutboundDeliveryPump φ :=
  { s with
    stateLanes := Entries.set s.stateLanes laneId { lane with
      queue := lane.queue ++ [.mk n frame (.state laneId key)]
      queuedBytes := lane.queuedBytes + size frame }
    stateQueuedByteCount := s.stateQueuedByteCount + size frame }

def admitState (s : OutboundDeliveryPump φ) (frame : φ) (a : StateDeliveryAdmission φ)
    (lane : StateLane φ) : OutboundDeliveryPump φ :=
  let less := s.numbered size a (lane.queue.find? (s.replaceable a.key))
  let lane := s.superseding size lane a.key
  if limits.maxStateQueuedFrames ≤ lane.queue.length ∨
      limits.maxStateQueuedBytes < lane.queuedBytes + size frame ∨
      limits.maxStateQueuedBytes < less.stateQueuedByteCount + size frame then
    (less.congestState size limits a.laneId lane s.admissions a.resyncFrame).start
  else (less.queueState size a.laneId a.key lane s.admissions frame).start

def discardState (s : OutboundDeliveryPump φ) (a : StateDeliveryAdmission φ) (lane : StateLane φ) :
    OutboundDeliveryPump φ :=
  let t := s.numbered size a none
  { t with
    displaced := s.displaced ++ (notice lane).toList.map fun pending =>
      .mk s.admissions pending.number s.completed.length }

def sendState (s : OutboundDeliveryPump φ) (frame : φ) (a : StateDeliveryAdmission φ) :
    OutboundDeliveryPump φ :=
  if s.terminalError = true then s
  else if a.laneId = [] ∨ a.key = [] then s
  else if (s.stateLane a.laneId).resyncPending = true then
    s.discardState size a (s.stateLane a.laneId)
  else s.admitState size limits frame a (s.stateLane a.laneId)

/-! ## Terminal lanes -/

def openedLane (position since : ℕ) : TerminalLane φ :=
  ⟨[], 0, false, false, position, position, position, none, position, position, since⟩

def terminalLane (s : OutboundDeliveryPump φ) (laneId : Str) (position : ℕ) : TerminalLane φ :=
  (Entries.get s.terminalLanes laneId).getD (openedLane position s.handed.length)

def congestTerminalLane (s : OutboundDeliveryPump φ) (laneId : Str) (lane : TerminalLane φ)
    (nextPosition : ℕ) (createSkipFrame : ℕ → ℕ → φ) : OutboundDeliveryPump φ :=
  let retained := s.retainedTerminal laneId
  let dropped := droppable retained lane.queue
  let head := max lane.headPosition nextPosition
  let first := max lane.sentPosition
    ((retained.bind fun pending => pending.traffic.nextPosition).getD lane.sentPosition)
  let frame := createSkipFrame first head
  let count : ℤ := s.terminalQueuedByteCount - totalBytes size dropped
  if limits.maxQueuedBytes < count + size frame then s.fail
  else
    { s with
      terminalLanes := Entries.set s.terminalLanes laneId { lane with
        queue :=
          retained.toList ++ [PendingDelivery.mk s.admissions frame (.terminalSkip laneId first head)]
        queuedBytes := lane.queuedBytes - totalBytes size dropped + size frame
        headPosition := head
        suppressed := true }
      terminalQueuedByteCount := count + size frame
      admissions := s.admissions + 1 }

def overLimit (s : OutboundDeliveryPump φ) (lane : TerminalLane φ) (frame : φ) (nextPosition : ℕ)
    (unconfirmedSince now : ℤ) : Bool :=
  limits.maxTerminalQueuedFrames ≤ lane.queue.length ∨
    limits.maxTerminalQueuedBytes < lane.queuedBytes + size frame ∨
    limits.maxQueuedBytes < s.terminalQueuedByteCount + size frame ∨
    (limits.maxTerminalUnconfirmedBytes : ℤ) < nextPosition - lane.confirmedPosition ∨
    limits.maxTerminalUnconfirmedAgeMs < now - unconfirmedSince

def queueTerminal (s : OutboundDeliveryPump φ) (laneId : Str) (lane : TerminalLane φ)
    (position nextPosition : ℕ) (frame : φ) : OutboundDeliveryPump φ :=
  { s with
    terminalLanes := Entries.set s.terminalLanes laneId { lane with
      queue := lane.queue ++ [.mk s.admissions frame (.terminal laneId position nextPosition)]
      queuedBytes := lane.queuedBytes + size frame }
    terminalQueuedByteCount := s.terminalQueuedByteCount + size frame
    admissions := s.admissions + 1 }

def admitTerminal (s : OutboundDeliveryPump φ) (frame : φ) (laneId : Str) (lane : TerminalLane φ)
    (position nextPosition : ℕ) (createSkipFrame : ℕ → ℕ → φ) (now later : ℤ) :
    OutboundDeliveryPump φ :=
  if nextPosition ≤ lane.headPosition then
    { s with terminalLanes := Entries.set s.terminalLanes laneId (lane.counted nextPosition) }
  else if position ≠ lane.headPosition then
    (s.congestTerminalLane size limits laneId (lane.counted nextPosition) nextPosition
      createSkipFrame).start
  else if s.overLimit size limits lane frame nextPosition (lane.unconfirmedSince.getD now) later =
      true then
    (s.congestTerminalLane size limits laneId ((lane.counted nextPosition).advanced nextPosition now)
      nextPosition createSkipFrame).start
  else
    (s.queueTerminal size laneId ((lane.counted nextPosition).advanced nextPosition now) position
      nextPosition frame).start

def sendTerminal (s : OutboundDeliveryPump φ) (frame : φ) (a : TerminalDeliveryAdmission φ)
    (now later : ℤ) : OutboundDeliveryPump φ :=
  if s.terminalError = true then s
  else if a.laneId = [] then s
  else if maxSafeInteger < a.position.natAbs ∨ maxSafeInteger < a.nextPosition.natAbs ∨
      a.position < 0 ∨ a.nextPosition ≤ a.position then s
  else if (s.terminalLane a.laneId a.position.toNat).releasePending = true ∨
      (s.terminalLane a.laneId a.position.toNat).suppressed = true then s
  else
    s.admitTerminal size limits frame a.laneId (s.terminalLane a.laneId a.position.toNat)
      a.position.toNat a.nextPosition.toNat a.createSkipFrame now later

def releaseTerminal (s : OutboundDeliveryPump φ) (laneId : Str) : OutboundDeliveryPump φ :=
  match Entries.get s.terminalLanes laneId with
  | none => s
  | some lane =>
    let retained := s.retainedTerminal laneId
    let counted : OutboundDeliveryPump φ := { s with
      terminalQueuedByteCount :=
        s.terminalQueuedByteCount - totalBytes size (droppable retained lane.queue) }
    if retained.isSome = true then
      { counted with
        terminalLanes := Entries.set s.terminalLanes laneId (lane.released size retained) }
    else counted.retire laneId (lane.released size retained)

end Frames

end OutboundDeliveryPump

inductive OutboundInput (φ : Type) where
  | send (frame : φ)
  | sendState (frame : φ) (admission : StateDeliveryAdmission φ)
  | sendTerminal (frame : φ) (admission : TerminalDeliveryAdmission φ) (now later : ℤ)
  | acknowledgeTerminal (laneId : Str) (position now : ℤ)
  | releaseTerminal (laneId : Str)
  | delivered
  | rejected (isOpen : Bool)
  | close

def OutboundDeliveryPump.step {φ : Type} (size : φ → ℕ) (limits : OutboundDeliveryLimits)
    (s : OutboundDeliveryPump φ) : OutboundInput φ → OutboundDeliveryPump φ
  | .send frame => s.send size limits frame
  | .sendState frame admission => s.sendState size limits frame admission
  | .sendTerminal frame admission now later => s.sendTerminal size limits frame admission now later
  | .acknowledgeTerminal laneId position now => s.acknowledgeTerminal laneId position now
  | .releaseTerminal laneId => s.releaseTerminal size laneId
  | .delivered => s.delivered size
  | .rejected isOpen => s.rejected size isOpen
  | .close => s.fail

end Terminay.Protocol
