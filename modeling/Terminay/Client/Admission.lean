import Mathlib.Algebra.Order.Ring.Rat
import Terminay.Client.Connection

/-!
# Request admission

A request is admitted at once, waits in line, or is refused. The requests are numbered as they
arrive, and a release closure is a reservation by its number. The settlements of the requests that
wait are kept in their order. The connection's own model of the queue keeps the numbers of the
requests only; here are the signals, the deadlines and the counters as well.
-/

namespace Terminay.Client.Admission
open Script

inductive AdmissionError where
  | abort
  | client (code message : Str)
  deriving DecidableEq

namespace AdmissionError

def deadline : AdmissionError := client (js "deadline") (js "request deadline exceeded before send")
def tooLarge : AdmissionError :=
  client (js "resource") (js "request exceeds the connection admission budget")
def noCapacity : AdmissionError :=
  client (js "resource") (js "pending request admission capacity reached")
def notSent : AdmissionError :=
  client (js "unavailable") (js "request was not sent before the connection ended")

end AdmissionError

structure WaitingRequest where
  request : ℕ
  bytes : ℕ
  signal : Option ℕ
  deadline : Option ℚ
  deriving DecidableEq

structure Reservation where
  request : ℕ
  bytes : ℕ
  released : Bool
  deriving DecidableEq

/-- How the promise of a request that waited is settled. -/
inductive Settlement where
  | resolved (reservation : ℕ)
  | rejected (error : AdmissionError)
  deriving DecidableEq

structure RequestAdmission where
  outstanding : ℤ
  outstandingBytes : ℤ
  waitingBytes : ℤ
  waiting : List WaitingRequest
  reservations : List Reservation
  aborted : Finset ℕ
  requests : ℕ
  promised : List ℕ
  settled : List (ℕ × Settlement)

def RequestAdmission.new : RequestAdmission := ⟨0, 0, 0, [], [], ∅, 0, [], []⟩

section

variable (byteBudget : ℕ) (s : RequestAdmission)

def CanAdmit (bytes : ℕ) : Prop :=
  s.outstanding < maxOutstandingRequests ∧ s.outstandingBytes + bytes ≤ byteBudget

instance (bytes : ℕ) : Decidable (CanAdmit byteBudget s bytes) :=
  inferInstanceAs (Decidable (_ ∧ _))

def reserve (request bytes : ℕ) : RequestAdmission :=
  { s with
    outstanding := s.outstanding + 1
    outstandingBytes := s.outstandingBytes + bytes
    reservations := s.reservations ++ [⟨request, bytes, false⟩] }

def settle (request : ℕ) (settlement : Settlement) : RequestAdmission :=
  { s with settled := s.settled ++ [(request, settlement)] }

def grant (entry : WaitingRequest) (rest : List WaitingRequest) : RequestAdmission :=
  settle (reserve { s with waiting := rest, waitingBytes := s.waitingBytes - entry.bytes }
    entry.request entry.bytes) entry.request (.resolved s.reservations.length)

def drainLoop : List WaitingRequest → RequestAdmission → RequestAdmission
  | [], s => s
  | entry :: rest, s =>
    if CanAdmit byteBudget s entry.bytes then drainLoop rest (grant s entry rest) else s

def drain : RequestAdmission := drainLoop byteBudget s.waiting s

def release (reservation : ℕ) : RequestAdmission :=
  match s.reservations[reservation]? with
  | none => s
  | some r =>
    if r.released then s
    else drain byteBudget
      { s with
        outstanding := s.outstanding - 1
        outstandingBytes := s.outstandingBytes - r.bytes
        reservations := s.reservations.set reservation { r with released := true } }

/-- What `acquire` answers; a request that waits is answered by a promise. -/
inductive Acquired where
  | reserved (reservation : ℕ)
  | rejected (error : AdmissionError)
  | waiting
  deriving DecidableEq

def refusal (bytes : ℕ) (signal : Option ℕ) (deadline : Option ℚ) (now : ℚ) :
    Option AdmissionError :=
  if ∃ k ∈ signal, k ∈ s.aborted then some .abort
  else if ∃ d ∈ deadline, d ≤ now then some .deadline
  else if byteBudget < bytes then some .tooLarge
  else none

def admitOrWait (bytes : ℕ) (signal : Option ℕ) (deadline : Option ℚ) :
    RequestAdmission × Acquired :=
  if s.waiting = [] ∧ CanAdmit byteBudget s bytes then
    (reserve s s.requests bytes, .reserved s.reservations.length)
  else if maxWaitingRequests ≤ s.waiting.length ∨ byteBudget < s.waitingBytes + bytes then
    (s, .rejected .noCapacity)
  else
    ({ s with
        waiting := s.waiting ++ [⟨s.requests, bytes, signal, deadline⟩]
        waitingBytes := s.waitingBytes + bytes
        promised := s.promised ++ [s.requests] }, .waiting)

def acquire (bytes : ℕ) (signal : Option ℕ) (deadline : Option ℚ) (now : ℚ) :
    RequestAdmission × Acquired :=
  let answered := match refusal byteBudget s bytes signal deadline now with
    | some error => (s, Acquired.rejected error)
    | none => admitOrWait byteBudget s bytes signal deadline
  ({ answered.1 with requests := s.requests + 1 }, answered.2)

def remove (request : ℕ) (error : AdmissionError) : RequestAdmission :=
  match s.waiting.find? (·.request == request) with
  | none => s
  | some entry =>
    drain byteBudget (settle { s with
      waiting := s.waiting.eraseP (·.request == request)
      waitingBytes := s.waitingBytes - entry.bytes } request (.rejected error))

def abort (signal : ℕ) : RequestAdmission :=
  if signal ∈ s.aborted then s
  else
    let heard := s.waiting.filter fun entry => entry.signal = some signal
    (heard.map (·.request)).foldl (fun t request => remove byteBudget t request .abort)
      { s with aborted := insert signal s.aborted }

def expire (request : ℕ) (now : ℚ) : RequestAdmission :=
  match s.waiting.find? (·.request == request) with
  | none => s
  | some entry =>
    match entry.deadline with
    | none => s
    | some deadline => if now < deadline then s else remove byteBudget s request .deadline

def clear : RequestAdmission :=
  { s with
    waiting := []
    waitingBytes := 0
    settled := s.settled ++ s.waiting.map fun entry => (entry.request, .rejected .notSent) }

/-! ## Moments -/

inductive Moment where
  | acquire (bytes : ℕ) (signal : Option ℕ) (deadline : Option ℚ) (now : ℚ)
  | release (reservation : ℕ)
  | abort (signal : ℕ)
  | expire (request : ℕ) (now : ℚ)
  | clear

def step : Moment → RequestAdmission
  | .acquire bytes signal deadline now => (acquire byteBudget s bytes signal deadline now).1
  | .release reservation => release byteBudget s reservation
  | .abort signal => abort byteBudget s signal
  | .expire request now => expire byteBudget s request now
  | .clear => clear s

end

end Terminay.Client.Admission
