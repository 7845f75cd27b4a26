import Terminay.Lib.Entries
import Terminay.Lib.Runs
import Terminay.Workspace.Bounds

/-!
# Inbound queries and commands

An open connection handles a bounded number of requests at once and queues the
rest. A request leaves the queue by its turn, by a cancellation, or by its
deadline, and every request is answered by a result frame.
-/

namespace Terminay.Protocol.Inbound
open Script Workspace

def connectionPingOperation : Str := js "connection.ping"
def eventsSubscribe : Str := js "events.subscribe"
def maxInFlightFeatures : ℕ := 64
def maxPendingFeatures : ℕ := 256

inductive FeatureType where | query | command
  deriving DecidableEq

/-- A query or command frame; a query's correlation is its `queryId`. -/
structure Feature where
  type : FeatureType
  correlation : ProtocolId
  operation : Str
  deadlineMs : Option ℕ
  bytes : ℕ

def Feature.isPing (f : Feature) : Bool :=
  f.type == .query && f.operation == connectionPingOperation

def Feature.isSubscribe (f : Feature) : Bool :=
  f.type == .command && f.operation == eventsSubscribe

/-- A frame as it arrived, with the deadline it is queued under. -/
structure Arrival where
  feature : Feature
  deadline : Option ℤ

/-- What a result frame says. -/
inductive Reply where | result | duplicate | deadline | cancelled | failure
  deriving DecidableEq

/-- How far a request has come: a send under way is a phase of its own, and a request that has
arrived or left the queue is answered, queued or handled in the same step. -/
inductive Phase where
  | arrived
  | queued
  | handling
  | replying (ok : Bool)
  | activating
  | failing
  | answering (reply : Reply) (dispatched : Bool)
  | settling
  | done
  deriving DecidableEq

namespace Phase

def tracked : Phase → Bool
  | .handling | .replying _ | .activating | .failing => true
  | _ => false

def active : Phase → Bool
  | .handling | .replying _ | .activating | .failing | .settling => true
  | .answering _ dispatched => dispatched
  | _ => false

end Phase

structure Progress where
  phase : Phase
  answers : List Reply

/-- `arrivals` and `progress` keep every request by its number; `starts` and `expelled` name
the requests that were handled, and those that a cancellation or a deadline took off the queue. -/
structure State where
  isOpen : Bool
  arrivals : List Arrival
  progress : List Progress
  pendingFeatures : List ℕ
  pendingFeatureIds : List (ProtocolId × ℕ)
  pendingFeatureBytes : ℤ
  inFlightRequests : List (ProtocolId × ℕ)
  activeFeatures : ℕ
  starts : List ℕ
  expelled : List ℕ

namespace State

def correlation (s : State) (n : ℕ) : Option ProtocolId :=
  (s.arrivals[n]?).map fun a => a.feature.correlation

def bytes (s : State) (n : ℕ) : ℤ := ((s.arrivals[n]?).map fun a => (a.feature.bytes : ℤ)).getD 0

def deadline (s : State) (n : ℕ) : Option ℤ := (s.arrivals[n]?).bind Arrival.deadline

def enter (s : State) (n : ℕ) (phase : Phase) : State :=
  match s.progress[n]? with
  | some p => { s with progress := s.progress.set n { p with phase := phase } }
  | none => s

def answer (s : State) (n : ℕ) (reply : Reply) : State :=
  match s.progress[n]? with
  | some p => { s with progress := s.progress.set n { p with answers := p.answers ++ [reply] } }
  | none => s

def arrive (s : State) (f : Feature) (now : ℤ) : State :=
  { s with
    arrivals := s.arrivals ++ [⟨f, f.deadlineMs.map fun ms => now + ms⟩]
    progress := s.progress ++ [⟨.arrived, []⟩] }

def removePendingFeature (s : State) (n : ℕ) : State :=
  if n ∈ s.pendingFeatures then
    { s.enter n .arrived with
      pendingFeatures := s.pendingFeatures.erase n
      pendingFeatureBytes := s.pendingFeatureBytes - s.bytes n
      pendingFeatureIds := match s.correlation n with
        | some correlation => Entries.delete s.pendingFeatureIds correlation
        | none => s.pendingFeatureIds }
  else s

def clearPendingFeatures (s : State) : State :=
  { s with pendingFeatures := [], pendingFeatureIds := [], pendingFeatureBytes := 0 }

def close (s : State) : State := { s.clearPendingFeatures with isOpen := false, inFlightRequests := [] }

def expel (s : State) (n : ℕ) (reply : Reply) : State :=
  let left := (s.removePendingFeature n).enter n (.answering reply false)
  { left with expelled := s.expelled ++ [n] }

def dispatchFeature (s : State) (n : ℕ) : State :=
  match s.correlation n with
  | none => s
  | some correlation =>
    let counted := { s with activeFeatures := s.activeFeatures + 1 }
    match Entries.get s.inFlightRequests correlation with
    | some _ => counted.enter n (.answering .duplicate true)
    | none =>
      { counted.enter n .handling with
        inFlightRequests := Entries.set s.inFlightRequests correlation n
        starts := s.starts ++ [n] }

def drainOne (s : State) (now : ℤ) (n : ℕ) : State :=
  if (s.deadline n).any fun deadline => decide (deadline - now ≤ 0) then s.expel n .deadline
  else (s.removePendingFeature n).dispatchFeature n

def drain (now : ℤ) : ℕ → State → State
  | 0, s => s
  | rounds + 1, s =>
    if s.isOpen = true ∧ s.activeFeatures < maxInFlightFeatures then
      match s.pendingFeatures with
      | n :: _ => drain now rounds (s.drainOne now n)
      | [] => s
    else s

def drainFeatures (s : State) (now : ℤ) : State := drain now s.pendingFeatures.length s

def queue (s : State) (n : ℕ) (f : Feature) : State :=
  { s.enter n .queued with
    pendingFeatures := s.pendingFeatures ++ [n]
    pendingFeatureIds := Entries.set s.pendingFeatureIds f.correlation n
    pendingFeatureBytes := s.pendingFeatureBytes + f.bytes }

def admitFeature (maxBytes : ℕ) (s : State) (n : ℕ) (f : Feature) : State :=
  if (Entries.get s.pendingFeatureIds f.correlation).isSome ||
      (Entries.get s.inFlightRequests f.correlation).isSome then
    s.enter n (.answering .duplicate false)
  else if s.activeFeatures < maxInFlightFeatures ∧ s.pendingFeatures = [] then s.dispatchFeature n
  else if maxPendingFeatures ≤ s.pendingFeatures.length ∨
      maxBytes < s.pendingFeatureBytes + f.bytes then s.close
  else s.queue n f

def processEnvelope (maxBytes : ℕ) (s : State) (f : Feature) (now : ℤ) : State :=
  if s.isOpen = true then
    let n := s.arrivals.length
    let arrived := s.arrive f now
    if f.isPing = true then arrived.enter n (.answering .result false)
    else admitFeature maxBytes arrived n f
  else s

def cancelRequest (s : State) (correlation : ProtocolId) : State :=
  match Entries.get s.pendingFeatureIds correlation with
  | some n => s.expel n .cancelled
  | none => s

def finishRequest (s : State) (n : ℕ) : State :=
  match s.correlation n with
  | none => s
  | some correlation =>
    if Entries.get s.inFlightRequests correlation = some n then
      { s.enter n .settling with inFlightRequests := Entries.delete s.inFlightRequests correlation }
    else s.enter n .settling

def handled (s : State) (n : ℕ) (outcome : Option Bool) : State :=
  match (s.progress[n]?).map Progress.phase with
  | some .handling =>
    match outcome with
    | some ok => s.enter n (.replying ok)
    | none => s.enter n .failing
  | _ => s

def sent (s : State) (n : ℕ) (accepted : Bool) : State :=
  match (s.progress[n]?).map Progress.phase with
  | some (.replying ok) =>
    if accepted then
      if ok && (s.arrivals[n]?).any fun a => a.feature.isSubscribe then
        (s.answer n .result).enter n .activating
      else (s.answer n .result).finishRequest n
    else s.enter n .failing
  | some .failing =>
    if accepted then (s.answer n .failure).finishRequest n else s.finishRequest n
  | some (.answering reply dispatched) =>
    let next := if dispatched then Phase.settling else .done
    if accepted then (s.answer n reply).enter n next else s.enter n next
  | _ => s

def activated (s : State) (n : ℕ) (succeeded : Bool) : State :=
  match (s.progress[n]?).map Progress.phase with
  | some .activating => if succeeded then s.finishRequest n else s.enter n .failing
  | _ => s

def settled (s : State) (n : ℕ) (now : ℤ) : State :=
  match (s.progress[n]?).map Progress.phase with
  | some .settling =>
    { s.enter n .done with activeFeatures := s.activeFeatures - 1 }.drainFeatures now
  | _ => s

def timer (s : State) (n : ℕ) (now : ℤ) : State :=
  match s.deadline n with
  | some deadline =>
    if n ∈ s.pendingFeatures ∧ deadline ≤ now then s.expel n .deadline else s
  | none => s

end State

inductive Input where
  | feature (f : Feature) (now : ℤ)
  | cancel (correlation : ProtocolId)
  | handled (n : ℕ) (outcome : Option Bool)
  | sent (n : ℕ) (accepted : Bool)
  | activated (n : ℕ) (succeeded : Bool)
  | settled (n : ℕ) (now : ℤ)
  | timer (n : ℕ) (now : ℤ)
  | close

def step (maxBytes : ℕ) (s : State) : Input → State
  | .feature f now => s.processEnvelope maxBytes f now
  | .cancel correlation => if s.isOpen = true then s.cancelRequest correlation else s
  | .handled n outcome => s.handled n outcome
  | .sent n accepted => s.sent n accepted
  | .activated n succeeded => s.activated n succeeded
  | .settled n now => s.settled n now
  | .timer n now => s.timer n now
  | .close => s.close

def opened : State := ⟨true, [], [], [], [], 0, [], 0, [], []⟩

end Terminay.Protocol.Inbound
