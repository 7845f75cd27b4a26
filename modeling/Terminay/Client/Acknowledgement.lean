import Terminay.Client.TerminalEvents

/-!
# Acknowledgements of a terminal attachment

Callers without options share one cumulative acknowledgement, which a timer or another flush sends
in a loop. A caller with options flushes and then sends its own. The loop's send, the end of the
loop's promise and the continuations of the callers are moments of their own.
-/

namespace Terminay.Client.Acknowledgement
open Script

variable {ν : Type}

structure AcknowledgeRequest where
  position : ℕ
  observed : ℕ
  deriving DecidableEq

structure Waiter where
  request : ℕ
  position : ℕ
  late : Bool
  deriving DecidableEq

structure Sent where
  position : ℕ
  request : ℕ
  deriving DecidableEq

structure Answered where
  sent : Sent
  ok : Bool
  deriving DecidableEq

inductive DrainStage where
  | sending (sent : Sent)
  | ended
  deriving DecidableEq

inductive DirectStage where
  | flushing (drain : ℕ)
  | sending
  | resolved
  | rejected
  deriving DecidableEq

structure Direct where
  request : ℕ
  position : ℕ
  stage : DirectStage
  deriving DecidableEq

/-- A waiter that was settled, with its position then. -/
structure Settled where
  request : ℕ
  position : ℕ
  resolved : Bool
  deriving DecidableEq

def Waiter.settle (resolved : Bool) (w : Waiter) : Settled := ⟨w.request, w.position, resolved⟩

inductive DetachStage where
  | flushing (drain : ℕ)
  | closed
  deriving DecidableEq

/-- `origin` is the request that raised the pending position last, and `drains` how the loops went
that have ended; a loop is numbered by those before it. -/
structure MutableAttachment where
  fromPosition : ℕ
  position : ℕ
  acknowledgedPosition : ℕ
  pendingAcknowledgementPosition : ℕ
  origin : ℕ
  acknowledgementTimer : Bool
  acknowledgementInFlight : Option (ℕ × DrainStage)
  acknowledgementWaiters : List Waiter
  closed : Bool
  detached : Option DetachStage
  drains : List Bool
  requests : List AcknowledgeRequest
  answered : List Answered
  directs : List Direct
  confirmed : List ℕ
  settled : List Settled

def MutableAttachment.opened (fromPosition position : ℕ) : MutableAttachment where
  fromPosition := fromPosition
  position := position
  acknowledgedPosition := fromPosition
  pendingAcknowledgementPosition := fromPosition
  origin := 0
  acknowledgementTimer := false
  acknowledgementInFlight := none
  acknowledgementWaiters := []
  closed := false
  detached := none
  drains := []
  requests := []
  answered := []
  directs := []
  confirmed := []
  settled := []

section

variable (s : MutableAttachment)

def resolveAcknowledgementWaiters : MutableAttachment :=
  let done := s.acknowledgementWaiters.filter fun w => w.position ≤ s.acknowledgedPosition
  { s with
    acknowledgementWaiters :=
      s.acknowledgementWaiters.filter fun w => s.acknowledgedPosition < w.position
    settled := s.settled ++ done.reverse.map (·.settle true) }

def drainNext (drain : ℕ) : MutableAttachment :=
  if s.acknowledgedPosition < s.pendingAcknowledgementPosition then
    let sent : Sent := ⟨s.pendingAcknowledgementPosition, s.origin⟩
    { s with acknowledgementInFlight := some (drain, .sending sent) }
  else { s with acknowledgementInFlight := some (drain, .ended), drains := s.drains ++ [true] }

def flushAcknowledgement : MutableAttachment × ℕ :=
  let t := { s with acknowledgementTimer := false }
  match t.acknowledgementInFlight with
  | some inFlight => (t, inFlight.1)
  | none => (drainNext (resolveAcknowledgementWaiters t) t.drains.length, t.drains.length)

def answerAcknowledgement (ok : Bool) : MutableAttachment :=
  match s.acknowledgementInFlight with
  | some (drain, .sending sent) =>
    let t := { s with answered := s.answered ++ [(⟨sent, ok⟩ : Answered)] }
    if ok then
      drainNext (resolveAcknowledgementWaiters { t with
        acknowledgedPosition := max t.acknowledgedPosition sent.position
        confirmed := t.confirmed ++ [sent.position] }) drain
    else
      { t with
        acknowledgementWaiters := []
        pendingAcknowledgementPosition := t.acknowledgedPosition
        settled := t.settled ++ t.acknowledgementWaiters.map (·.settle false)
        acknowledgementInFlight := some (drain, .ended)
        drains := t.drains ++ [false] }
  | _ => s

def freeInFlight : MutableAttachment :=
  match s.acknowledgementInFlight with
  | some (_, .ended) => { s with acknowledgementInFlight := none }
  | _ => s

inductive AcknowledgeAnswer where
  | rejected (message : Str)
  | returned
  | waits (request : ℕ)
  deriving DecidableEq

def closedMessage : Str := js "terminal attachment is closed"
def aheadMessage : Str := js "terminal acknowledgement is ahead of the observed output"

def acknowledgeDirect (position : ℕ) : MutableAttachment :=
  let flushed := flushAcknowledgement s
  { flushed.1 with
    directs := flushed.1.directs ++ [⟨s.requests.length, position, .flushing flushed.2⟩]
    requests := flushed.1.requests ++ [⟨position, s.position⟩] }

def acknowledgeShared (position : ℕ) : MutableAttachment :=
  { s with
    pendingAcknowledgementPosition := max s.pendingAcknowledgementPosition position
    origin := if s.pendingAcknowledgementPosition < position then s.requests.length else s.origin
    acknowledgementWaiters := s.acknowledgementWaiters ++ [⟨s.requests.length, position,
      decide (∃ inFlight ∈ s.acknowledgementInFlight, inFlight.2 = .ended)⟩]
    acknowledgementTimer := s.acknowledgementTimer || s.acknowledgementInFlight.isNone
    requests := s.requests ++ [⟨position, s.position⟩] }

def acknowledge (position : ℕ) (options : Bool) : MutableAttachment × AcknowledgeAnswer :=
  if s.closed then (s, .rejected closedMessage)
  else if s.position < position then (s, .rejected aheadMessage)
  else if position ≤ s.acknowledgedPosition then (s, .returned)
  else if options then (acknowledgeDirect s position, .waits s.requests.length)
  else (acknowledgeShared s position, .waits s.requests.length)

def fireTimer : MutableAttachment :=
  if s.acknowledgementTimer then (flushAcknowledgement s).1 else s

def resumeDirect (i : ℕ) (direct : Direct) : MutableAttachment :=
  match direct.stage with
  | .flushing drain =>
    match s.drains[drain]? with
    | none => s
    | some false => { s with directs := s.directs.set i { direct with stage := .rejected } }
    | some true =>
      let stage : DirectStage :=
        if direct.position ≤ s.acknowledgedPosition then .resolved else .sending
      { s with directs := s.directs.set i { direct with stage := stage } }
  | _ => s

def answerDirect (i : ℕ) (direct : Direct) (ok : Bool) : MutableAttachment :=
  if direct.stage = .sending then
    if ok then
      { s with
        acknowledgedPosition := max s.acknowledgedPosition direct.position
        confirmed := s.confirmed ++ [direct.position]
        directs := s.directs.set i { direct with stage := .resolved } }
    else { s with directs := s.directs.set i { direct with stage := .rejected } }
  else s

def take (event : TerminalStreamEvent ν) : MutableAttachment :=
  let t := { s with position := event.reach s.position }
  match event with
  | .skip fromPosition _ _ =>
    { t with
      pendingAcknowledgementPosition := min t.pendingAcknowledgementPosition fromPosition
      acknowledgementWaiters := t.acknowledgementWaiters.map fun w =>
        { w with position := min w.position fromPosition } }
  | _ => t

def processSubscriptionEvent (event : TerminalStreamEvent ν) : MutableAttachment :=
  if s.closed then s
  else
    match classifyEvent event s.position with
    | .duplicate => s
    | .gap => take s (reportStreamGap s.position event)
    | .accept => take s event

def detach : MutableAttachment :=
  if s.detached.isSome then s
  else
    let flushed := flushAcknowledgement s
    { flushed.1 with detached := some (.flushing flushed.2) }

def resumeDetach : MutableAttachment :=
  match s.detached with
  | some (.flushing drain) =>
    if drain < s.drains.length then { s with closed := true, detached := some .closed } else s
  | _ => s

/-! ## Moments -/

inductive Moment (ν : Type) where
  | acknowledge (position : ℕ) (options : Bool)
  | timer
  | answer (ok : Bool)
  | free
  | resumeDirect (direct : ℕ)
  | answerDirect (direct : ℕ) (ok : Bool)
  | event (event : TerminalStreamEvent ν)
  | detach
  | resumeDetach

def step : Moment ν → MutableAttachment
  | .acknowledge position options => (acknowledge s position options).1
  | .timer => fireTimer s
  | .answer ok => answerAcknowledgement s ok
  | .free => freeInFlight s
  | .resumeDirect i =>
    match s.directs[i]? with
    | some direct => resumeDirect s i direct
    | none => s
  | .answerDirect i ok =>
    match s.directs[i]? with
    | some direct => answerDirect s i direct ok
    | none => s
  | .event event => processSubscriptionEvent s event
  | .detach => detach s
  | .resumeDetach => resumeDetach s

end

end Terminay.Client.Acknowledgement
