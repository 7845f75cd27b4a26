import Terminay.Client.TerminalEvents

/-!
# The recovery of a terminal display

The timers of the controller are numbered in the order in which they were scheduled and fire at
any moment. A re-attach timer asks its caller, who may call the controller before it answers; while
it is asked no timer fires. What is only reported (the times, the diagnostics) is left out.
-/

namespace Terminay.Client.Recovery

variable {ν : Type}

def isRecoverableSkip : TerminalStreamEvent ν → Bool
  | .skip _ _ reason => reason ≠ .hydration
  | _ => false

inductive TerminalRecoveryState where | streaming | recovering | disposed
  deriving DecidableEq

/-- What the caller decided; it throws instead of an answer. -/
inductive TerminalRecoveryAttemptOutcome where | attaching | declined | threw
  deriving DecidableEq

structure TerminalStreamSkipEvent where
  fromPosition : ℕ
  toPosition : ℕ
  reason : TerminalSkipReason
  deriving DecidableEq

/-- The closure a timer runs. -/
inductive TimerRun where | reattach | quiet | convergence
  deriving DecidableEq

structure Timer where
  run : TimerRun
  delayMs : ℕ
  deriving DecidableEq

structure TerminalRecoveryController where
  state : TerminalRecoveryState
  attempt : ℕ
  cancelScheduled : Option ℕ
  hydrationGap : Option TerminalStreamSkipEvent
  convergenceAttempts : ℕ
  cancelConvergence : Option ℕ
  attached : Bool
  sawHydrationGap : Bool
  timers : Table.Of ℕ Timer
  nextTimer : ℕ
  /-- The caller is asked and has not answered. -/
  asked : Bool
  answer : Option TerminalRecoveryAttemptOutcome
  /-- An outcome was reported since the caller was last asked. -/
  reported : Bool
  /-- How often `reattach` was called. -/
  reattaches : ℕ
  /-- How often it had been called when the controller was disposed. -/
  disposedAt : Option ℕ
  /-- The convergence refreshes since the budget was last reset. -/
  refreshes : ℕ

def TerminalRecoveryController.new : TerminalRecoveryController where
  state := .streaming
  attempt := 0
  cancelScheduled := none
  hydrationGap := none
  convergenceAttempts := 0
  cancelConvergence := none
  attached := false
  sawHydrationGap := false
  timers := ∅
  nextTimer := 0
  asked := false
  answer := none
  reported := false
  reattaches := 0
  disposedAt := none
  refreshes := 0

section

variable (retryDelayMs : ℕ) (s : TerminalRecoveryController)

def cancel (timers : Table.Of ℕ Timer) : Option ℕ → Table.Of ℕ Timer
  | none => timers
  | some timer => timers.erase timer

def cancelPending : TerminalRecoveryController :=
  { s with timers := cancel s.timers s.cancelScheduled, cancelScheduled := none }

def endConvergence : TerminalRecoveryController :=
  { s with timers := cancel s.timers s.cancelConvergence, cancelConvergence := none }

def renewBudget : TerminalRecoveryController := { s with convergenceAttempts := 0, refreshes := 0 }

def clearConvergence : TerminalRecoveryController :=
  { renewBudget (endConvergence s) with
    hydrationGap := none, attached := false, sawHydrationGap := false }

def beginRecovery : TerminalRecoveryController :=
  let t := endConvergence s
  { t with
    sawHydrationGap := false
    attached := false
    attempt := t.attempt + 1
    state := .recovering
    cancelScheduled := some t.nextTimer
    timers := t.timers.insert t.nextTimer ⟨.reattach, retryDelayMs⟩
    nextTimer := t.nextTimer + 1 }

def armConvergence (timer : Timer) : TerminalRecoveryController :=
  { s with
    cancelConvergence := some s.nextTimer
    timers := s.timers.insert s.nextTimer timer
    nextTimer := s.nextTimer + 1 }

def scheduleConvergence : TerminalRecoveryController :=
  let t := endConvergence s
  if t.attached ∧ t.state = .streaming then
    if t.hydrationGap.isNone then
      if 0 < t.convergenceAttempts then armConvergence t ⟨.quiet, 500⟩ else t
    else armConvergence t ⟨.convergence, 500 * 2 ^ t.convergenceAttempts⟩
  else t

def noteEvent (event : TerminalStreamEvent ν) : TerminalRecoveryController × Bool :=
  if s.state = .streaming ∧ isRecoverableSkip event then (beginRecovery retryDelayMs s, true)
  else (s, false)

def noteStreamProgress (event : TerminalStreamEvent ν) : TerminalRecoveryController :=
  if s.state = .disposed then s
  else
    match event with
    | .exit .. => clearConvergence s
    | .skip fromPosition toPosition .hydration =>
      scheduleConvergence { s with
        hydrationGap := some ⟨fromPosition, toPosition, .hydration⟩, sawHydrationGap := true }
    | .output .. => scheduleConvergence s
    | _ => s

/-- `fresh`: the option `freshPresentation` is not `false`. -/
def noteAttached (fresh : Bool) : TerminalRecoveryController :=
  if s.state = .disposed then s
  else
    let t := cancelPending s
    scheduleConvergence { t with
      state := .streaming
      attempt := 0
      attached := true
      hydrationGap := if fresh ∧ ¬ t.sawHydrationGap then none else t.hydrationGap
      reported := true }

def noteAttachFailed : TerminalRecoveryController :=
  if s.state = .disposed then s
  else { cancelPending s with state := .streaming, reported := true }

def reset (renewConvergenceBudget : Bool) : TerminalRecoveryController :=
  if s.state = .disposed then s
  else
    let t := cancelPending s
    endConvergence { (if renewConvergenceBudget then renewBudget t else t) with
      state := .streaming, attempt := 0, attached := false, sawHydrationGap := false }

def dispose : TerminalRecoveryController :=
  { clearConvergence (cancelPending s) with
    state := .disposed
    disposedAt := some (s.disposedAt.getD s.reattaches) }

/-! ## Timers -/

def fireReattach : TerminalRecoveryController :=
  let t := { s with cancelScheduled := none }
  if t.state = .recovering then
    { t with asked := true, answer := none, reported := false, reattaches := t.reattaches + 1 }
  else t

def answered (outcome : TerminalRecoveryAttemptOutcome) : TerminalRecoveryController :=
  let t := { s with asked := false, answer := some outcome }
  if outcome = .attaching then t else { t with state := .streaming }

def fireQuiet : TerminalRecoveryController :=
  let t := { s with cancelConvergence := none }
  if t.hydrationGap.isNone ∧ t.attached ∧ t.state = .streaming then renewBudget t else t

def fireConvergence : TerminalRecoveryController :=
  let t := { s with cancelConvergence := none }
  if t.hydrationGap.isSome ∧ t.attached ∧ t.state = .streaming then
    if 3 ≤ t.convergenceAttempts then { t with hydrationGap := none }
    else beginRecovery retryDelayMs { t with
      convergenceAttempts := t.convergenceAttempts + 1, refreshes := t.refreshes + 1 }
  else t

def fire (timer : ℕ) : TerminalRecoveryController :=
  match s.timers[timer]? with
  | none => s
  | some t =>
    let s := { s with timers := s.timers.erase timer }
    match t.run with
    | .reattach => fireReattach s
    | .quiet => fireQuiet s
    | .convergence => fireConvergence retryDelayMs s

/-! ## Moments -/

inductive Moment (ν : Type) where
  | noteEvent (event : TerminalStreamEvent ν)
  | noteStreamProgress (event : TerminalStreamEvent ν)
  | noteAttached (fresh : Bool)
  | noteAttachFailed
  | reset (renewConvergenceBudget : Bool)
  | dispose
  | fire (timer : ℕ)
  | answer (outcome : TerminalRecoveryAttemptOutcome)

/-- One moment of a run. The caller that is asked runs to its answer before any timer fires. -/
def step : Moment ν → TerminalRecoveryController
  | .noteEvent event => (noteEvent retryDelayMs s event).1
  | .noteStreamProgress event => noteStreamProgress s event
  | .noteAttached fresh => noteAttached s fresh
  | .noteAttachFailed => noteAttachFailed s
  | .reset renewConvergenceBudget => reset s renewConvergenceBudget
  | .dispose => dispose s
  | .fire timer => if s.asked then s else fire retryDelayMs s timer
  | .answer outcome => if s.asked then answered s outcome else s

end

end Terminay.Client.Recovery
