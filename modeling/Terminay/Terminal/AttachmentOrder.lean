import Terminay.Protocol.OutboundTrace
import Terminay.Terminal.AttachmentEvents

/-!
# The order of the events of an attachment

State lanes go before terminal lanes, so an event that is not output overtakes the output that
waits.
-/

namespace Terminay.Terminal
open Script Protocol OutboundDeliveryPump

namespace AttachmentStream

section Order
variable (c : StreamContext)

/-! ## The condition -/

def laneClosed (s : AttachmentStream) : Bool :=
  (Entries.get s.pump.terminalLanes c.attachmentId).any fun lane =>
    lane.releasePending || lane.suppressed

/-- No output of the attachment waits behind the frame in flight. -/
def Through (s : AttachmentStream) : Prop :=
  carried EventFrame.numbers (s.pump.waitingTerminal c.attachmentId) = []

/-- No output waits, and a batch that is still open goes out at once or nowhere. -/
def Clear (s : AttachmentStream) : Prop :=
  Through c s ∧
    (s.pendingOutput.isNone = true ∨ s.pump.activeDelivery.isNone = true ∨ laneClosed c s = true)

def EntryClear (s : AttachmentStream) (entry : ℕ × AttachmentEvent) : Prop :=
  entry.2.isOutput = false → Clear c s

/-- An event that is not output is published while no output of the attachment waits. Dimensions are
published past an open batch. -/
def StepClear (s : AttachmentStream) : StreamInput → Prop
  | .event event =>
    s.closed = false → s.checkpointPublishing = true → EntryClear c s (s.published, event)
  | .attached =>
    s.attached = false → Runs.Meets (publishTerminalEvent c) (EntryClear c) s.bound
      s.queuedCheckpointEvents
  | .dimensions _ => s.registered = true → Through c s ∧ s.pendingOutput.isNone = true
  | .close _ => s.closed = false → s.attached = true → s.notifyOnClose = true → Through c s
  | _ => True

/-! ## What is due -/

def pendingNumbers (s : AttachmentStream) : List ℕ :=
  (s.pendingOutput.map PendingTerminalOutput.numbers).getD []

def owed (s : AttachmentStream) : List ℕ :=
  s.pump.due EventFrame.numbers c.subscriptionId c.attachmentId ++ pendingNumbers s

structure Sound (s : AttachmentStream) (rest : List ℕ) : Prop where
  scheduled : s.pump.Scheduled
  elsewhere : s.pump.Elsewhere EventFrame.numbers c.subscriptionId c.attachmentId
  order : (owed c s ++ rest).Pairwise (· < ·)
  fresh : ∀ n ∈ owed c s ++ rest, n < s.published
  waiting : s.attached = false → s.pendingOutput = none

variable {c} {s t : AttachmentStream} {rest : List ℕ}

theorem Sound.sub (h : Sound c s rest) {fewer : List ℕ} (hscheduled : t.pump.Scheduled)
    (helse : t.pump.Elsewhere EventFrame.numbers c.subscriptionId c.attachmentId)
    (howed : (owed c t ++ fewer).Sublist (owed c s ++ rest)) (hpublished : s.published ≤ t.published)
    (hwaiting : t.attached = false → t.pendingOutput = none) : Sound c t fewer :=
  ⟨hscheduled, helse, h.order.sublist howed,
    fun n hn => (h.fresh n (howed.subset hn)).trans_le hpublished, hwaiting⟩

theorem Sound.congr (h : Sound c s rest) (hpump : t.pump = s.pump)
    (hpending : t.pendingOutput = s.pendingOutput) (hattached : t.attached = s.attached)
    (hpublished : s.published ≤ t.published) : Sound c t rest := by
  have howed : owed c t = owed c s := by rw [owed, owed, pendingNumbers, hpump, hpending, pendingNumbers]
  refine h.sub (hpump ▸ h.scheduled) (hpump ▸ h.elsewhere) (by rw [howed]) hpublished ?_
  rw [hattached, hpending]
  exact h.waiting

theorem Sound.discard (h : Sound c s rest) : Sound c s.discardPendingOutput rest := by
  refine h.sub h.scheduled h.elsewhere ?_ le_rfl fun _ => rfl
  have hnone : owed c s.discardPendingOutput =
      s.pump.due EventFrame.numbers c.subscriptionId c.attachmentId := List.append_nil _
  rw [hnone, owed]
  exact (List.sublist_append_left _ _).append (List.Sublist.refl _)

theorem failed_lanes (h : s.pump.Elsewhere EventFrame.numbers c.subscriptionId c.attachmentId) :
    s.pump.terminalError = true → s.pump.terminalLanes = [] := fun herror => (h.failed herror).2

/-! ## Sending -/

theorem sendOutput_adds
    (helse : s.pump.Elsewhere EventFrame.numbers c.subscriptionId c.attachmentId)
    (hs : s.pump.Scheduled) (output : OutputEvent) (frame : EventFrame) :
    Adds EventFrame.numbers c.subscriptionId c.attachmentId s.pump (sendOutput c s output frame).pump
      frame.numbers :=
  Adds.sendTerminal c.byteLength c.limits helse hs (.inr rfl) (fun _ _ => rfl) _ _

theorem sendEvent_scheduled (hs : s.pump.Scheduled) (event : AttachmentEvent) (numbers : List ℕ) :
    (sendEvent c s event numbers).pump.Scheduled := by
  rw [sendEvent.eq_def]
  split_ifs
  · cases event with
    | output output => exact hs.sendTerminal c.byteLength c.limits _ _ _ _
    | _ => exact hs.sendState c.byteLength c.limits _ _
  · exact hs

theorem sendEvent_adds
    (helse : s.pump.Elsewhere EventFrame.numbers c.subscriptionId c.attachmentId)
    (hs : s.pump.Scheduled) (event : AttachmentEvent) (numbers : List ℕ)
    (hthrough : event.isOutput = false → Through c s) :
    Adds EventFrame.numbers c.subscriptionId c.attachmentId s.pump (sendEvent c s event numbers).pump
      numbers := by
  rw [sendEvent.eq_def]
  split_ifs
  · cases event with
    | output output => exact sendOutput_adds helse hs output _
    | _ =>
      exact Adds.sendState c.byteLength c.limits helse hs (.event _ numbers)
        (.inr ⟨rfl, hthrough rfl⟩) rfl
  · exact .nothing helse _

structure Frame (s t : AttachmentStream) : Prop where
  queued : t.queuedCheckpointEvents = s.queuedCheckpointEvents
  checkpointPublishing : t.checkpointPublishing = s.checkpointPublishing
  attached : t.attached = s.attached
  registered : t.registered = s.registered
  published : t.published = s.published

theorem Frame.refl (s : AttachmentStream) : Frame s s := ⟨rfl, rfl, rfl, rfl, rfl⟩

theorem Frame.trans {u : AttachmentStream} (h : Frame s t) (h' : Frame t u) : Frame s u :=
  ⟨h'.queued.trans h.queued, h'.checkpointPublishing.trans h.checkpointPublishing,
    h'.attached.trans h.attached, h'.registered.trans h.registered,
    h'.published.trans h.published⟩

theorem sendEvent_frame (s : AttachmentStream) (event : AttachmentEvent) (numbers : List ℕ) :
    Frame s (sendEvent c s event numbers) ∧
      (sendEvent c s event numbers).pendingOutput = s.pendingOutput := by
  rw [sendEvent.eq_def]
  split_ifs
  · cases event <;> exact ⟨⟨rfl, rfl, rfl, rfl, rfl⟩, rfl⟩
  · exact ⟨.refl s, rfl⟩

theorem Sound.sendEvent {numbers : List ℕ} (h : Sound c s (numbers ++ rest))
    (hnone : s.pendingOutput = none) (event : AttachmentEvent)
    (hthrough : event.isOutput = false → Through c s) :
    Sound c (s.sendEvent c event numbers) rest := by
  obtain ⟨hframe, hpending⟩ := sendEvent_frame (c := c) s event numbers
  have hadds := sendEvent_adds h.elsewhere h.scheduled event numbers hthrough
  refine h.sub (sendEvent_scheduled h.scheduled event numbers) hadds.elsewhere ?_ hframe.published.ge ?_
  · have hs : pendingNumbers s = [] := by rw [pendingNumbers, hnone]; rfl
    have ht : pendingNumbers (s.sendEvent c event numbers) = [] := by
      rw [pendingNumbers, hpending, hnone]
      rfl
    rw [owed, owed, hs, ht, List.append_nil, List.append_nil, ← List.append_assoc]
    exact hadds.due.append (List.Sublist.refl _)
  · rw [hpending, hframe.attached]
    exact h.waiting

theorem Sound.drop (numbers : List ℕ) (h : Sound c s (numbers ++ rest)) : Sound c s rest := by
  refine h.sub h.scheduled h.elsewhere ?_ le_rfl h.waiting
  exact (List.sublist_append_right _ _).append_left _

theorem Sound.publishOutput (numbers : List ℕ) (h : Sound c s (numbers ++ rest))
    (hnone : s.pendingOutput = none) (event : OutputEvent) :
    Sound c (s.publishOutput c event numbers) rest := by
  rw [AttachmentStream.publishOutput]
  split_ifs
  · exact h.drop numbers
  · have hset : Sound c { s with publishedPosition := some event.nextPosition } (numbers ++ rest) :=
      h.congr rfl rfl rfl le_rfl
    exact hset.sendEvent hnone (.output event) nofun

theorem publishOutput_frame (s : AttachmentStream) (event : OutputEvent) (numbers : List ℕ) :
    Frame s (publishOutput c s event numbers) ∧
      (publishOutput c s event numbers).pendingOutput = s.pendingOutput := by
  rw [publishOutput]
  split_ifs
  · exact ⟨.refl s, rfl⟩
  · obtain ⟨hframe, hpending⟩ := sendEvent_frame (c := c)
      { s with publishedPosition := some event.nextPosition } (.output event) numbers
    exact ⟨⟨hframe.queued, hframe.checkpointPublishing, hframe.attached,
      hframe.registered, hframe.published⟩, hpending⟩

/-! ## Batches -/

theorem Sound.flush (h : Sound c s rest) : Sound c (s.flushPendingOutput c) rest := by
  rw [flushPendingOutput]
  cases hpending : s.pendingOutput with
  | none => exact h.discard
  | some pending =>
    have hopen : Sound c s.discardPendingOutput (pending.numbers ++ rest) := by
      refine h.sub h.scheduled h.elsewhere ?_ le_rfl fun _ => rfl
      rw [owed, owed, pendingNumbers, pendingNumbers, hpending]
      simp only [discardPendingOutput, Option.map_none, Option.getD_none, List.append_nil,
        Option.map_some, Option.getD_some, List.append_assoc, List.Sublist.refl]
    exact hopen.publishOutput pending.numbers rfl pending.event

theorem flush_frame (s : AttachmentStream) : Frame s (flushPendingOutput c s) ∧
    (flushPendingOutput c s).pendingOutput = none := by
  rw [flushPendingOutput]
  cases s.pendingOutput with
  | none => exact ⟨⟨rfl, rfl, rfl, rfl, rfl⟩, rfl⟩
  | some pending =>
    obtain ⟨hframe, hpending⟩ := publishOutput_frame (c := c) s.discardPendingOutput pending.event
      pending.numbers
    exact ⟨⟨hframe.queued, hframe.checkpointPublishing, hframe.attached,
      hframe.registered, hframe.published⟩, hpending⟩

theorem Sound.begin (h : Sound c s (n :: rest)) (hnone : s.pendingOutput = none)
    (hattached : s.attached = true) (event : OutputEvent) :
    Sound c (s.beginOutput c event n) rest := by
  rw [beginOutput]
  split_ifs
  · exact Sound.publishOutput [n] h hnone event
  · refine h.sub h.scheduled h.elsewhere ?_ le_rfl fun hopen => ?_
    · rw [owed, owed, pendingNumbers, pendingNumbers, hnone]
      simp
    · have hopen : s.attached = false := hopen
      rw [hattached] at hopen
      cases hopen

theorem joined_numbers {current more : PendingTerminalOutput} {event : OutputEvent} {n : ℕ}
    (h : joined current event n = some more) : more.numbers = current.numbers ++ [n] := by
  rw [joined] at h
  split_ifs at h
  rw [← Option.some.inj h]

theorem Sound.queueOutput (h : Sound c s (n :: rest)) (event : OutputEvent) :
    Sound c (s.queueOutput c event n) rest := by
  rw [AttachmentStream.queueOutput]
  split_ifs with hclosed
  · exact Sound.drop [n] h
  · have hattached : s.attached = true := by
      by_contra hne
      exact hclosed (.inl (by simpa using hne))
    cases hpending : s.pendingOutput with
    | none => exact h.begin hpending hattached event
    | some current =>
      dsimp only
      cases hjoined : joined current event n with
      | none =>
        have hframe := flush_frame (c := c) s
        exact h.flush.begin hframe.2 (hframe.1.attached.trans hattached) event
      | some more =>
        refine h.sub h.scheduled h.elsewhere ?_ le_rfl fun hopen => ?_
        · rw [owed, owed, pendingNumbers, pendingNumbers, hpending]
          simp [joined_numbers hjoined]
        · have hopen : s.attached = false := hopen
          rw [hattached] at hopen
          cases hopen

/-! ## Events that are not output -/

theorem sendTerminal_closed (hclosed : laneClosed c s = true) (frame : EventFrame) (output : OutputEvent)
    (now later : ℤ) : s.pump.sendTerminal c.byteLength c.limits frame (outputAdmission c output) now
      later = s.pump := by
  obtain ⟨lane, hget, hlane⟩ := (Option.any_eq_true _ _).mp hclosed
  rw [sendTerminal]
  split_ifs with herror hid hposition hopen
  · rfl
  · rfl
  · rfl
  · rfl
  · rw [outputAdmission, terminalLane_get hget] at hopen
    exact absurd (by simpa using hlane) hopen

theorem flush_through (h : Sound c s rest) (hclear : Clear c s) :
    Through c (flushPendingOutput c s) := by
  obtain ⟨hthrough, hbatch⟩ := hclear
  rw [flushPendingOutput]
  cases hpending : s.pendingOutput with
  | none => exact hthrough
  | some pending =>
    rcases hbatch with hnone | hgo
    · rw [hpending] at hnone
      cases hnone
    dsimp only
    rw [publishOutput]
    split_ifs
    · exact hthrough
    · rw [sendEvent.eq_def]
      split_ifs
      · rcases hgo with hidle | hclosed
        · have hempty := sendTerminal_idle c.byteLength c.limits h.elsewhere h.scheduled
            (Option.isNone_iff_eq_none.mp hidle)
            (.event (.output pending.event) pending.numbers) (outputAdmission c pending.event)
            (c.clock s.pump.admissions).1 (c.clock s.pump.admissions).2
          rw [Through]
          exact (congrArg (carried EventFrame.numbers) hempty).trans rfl
        · have hsame := sendTerminal_closed hclosed
            (.event (.output pending.event) pending.numbers) pending.event
            (c.clock s.pump.admissions).1 (c.clock s.pump.admissions).2
          rw [Through]
          exact (congrArg (fun pump : OutboundDeliveryPump EventFrame =>
            carried EventFrame.numbers (pump.waitingTerminal c.attachmentId)) hsame).trans hthrough
      · exact hthrough

theorem Sound.append {n : ℕ} (h : Sound c s (n :: rest)) (hnone : s.pendingOutput = none)
    (hthrough : Through c s) (event : AttachmentEvent) : Sound c (s.append c event [n]) rest := by
  have hset : Sound c { s with revision := s.revision + 1 } ([n] ++ rest) := h.congr rfl rfl rfl le_rfl
  exact hset.sendEvent hnone event fun _ => hthrough

theorem Sound.publishOther {n : ℕ} (h : Sound c s (n :: rest)) (hclear : Clear c s)
    (event : AttachmentEvent) :
    Sound c (if (flushPendingOutput c s).attached = false then flushPendingOutput c s
      else (flushPendingOutput c s).append c event [n]) rest := by
  split_ifs
  · exact Sound.drop [n] h.flush
  · exact h.flush.append (flush_frame s).2 (flush_through h hclear) event

theorem Sound.publish {entry : ℕ × AttachmentEvent} (h : Sound c s (entry.1 :: rest))
    (hclear : EntryClear c s entry) : Sound c (s.publishTerminalEvent c entry) rest := by
  obtain ⟨n, event⟩ := entry
  cases event with
  | output event => exact h.queueOutput event
  | exit reason => exact h.publishOther (hclear rfl) _
  | skip fromPosition toPosition reason => exact h.publishOther (hclear rfl) _
  | dimensions dimensions => exact h.publishOther (hclear rfl) _

theorem Sound.release {entries : List (ℕ × AttachmentEvent)}
    (h : Sound c s (entries.map Prod.fst ++ rest))
    (hclear : Runs.Meets (publishTerminalEvent c) (EntryClear c) s entries) :
    Sound c (s.release c entries) rest := by
  induction entries generalizing s with
  | nil => exact h
  | cons entry entries ih => exact ih (Sound.publish h hclear.1) hclear.2

/-! ## Runs -/

def queuedNumbers (s : AttachmentStream) : List ℕ := s.queuedCheckpointEvents.map Prod.fst

structure Ordered (c : StreamContext) (s : AttachmentStream) : Prop where
  sound : Sound c s (queuedNumbers s)
  queued : s.checkpointPublishing = true → s.queuedCheckpointEvents = []
  attached : s.attached = true → s.checkpointPublishing = true
  registered : s.registered = true → s.attached = true

theorem append_frame (s : AttachmentStream) (event : AttachmentEvent) (numbers : List ℕ) :
    Frame s (append c s event numbers) := by
  obtain ⟨hframe, _⟩ := sendEvent_frame (c := c) { s with revision := s.revision + 1 } event numbers
  exact ⟨hframe.queued, hframe.checkpointPublishing, hframe.attached,
      hframe.registered, hframe.published⟩

theorem begin_frame (s : AttachmentStream) (event : OutputEvent) (n : ℕ) :
    Frame s (beginOutput c s event n) := by
  rw [beginOutput]
  split_ifs
  · exact (publishOutput_frame _ _ _).1
  · exact ⟨rfl, rfl, rfl, rfl, rfl⟩

theorem queueOutput_frame (s : AttachmentStream) (event : OutputEvent) (n : ℕ) :
    Frame s (queueOutput c s event n) := by
  rw [queueOutput]
  split_ifs
  · exact .refl s
  · cases s.pendingOutput with
    | none => exact begin_frame s event n
    | some current =>
      dsimp only
      cases joined current event n with
      | none => exact (flush_frame s).1.trans (begin_frame _ event n)
      | some more => exact ⟨rfl, rfl, rfl, rfl, rfl⟩

theorem publish_frame (s : AttachmentStream) (entry : ℕ × AttachmentEvent) :
    Frame s (publishTerminalEvent c s entry) := by
  have hother : ∀ event, Frame s (if (flushPendingOutput c s).attached = false then
      flushPendingOutput c s else append c (flushPendingOutput c s) event [entry.1]) := by
    intro event
    split_ifs
    · exact (flush_frame s).1
    · exact (flush_frame s).1.trans (append_frame _ _ _)
  obtain ⟨n, event⟩ := entry
  cases event with
  | output event => exact queueOutput_frame s event n
  | exit reason => exact hother _
  | skip fromPosition toPosition reason => exact hother _
  | dimensions dimensions => exact hother _

theorem release_frame (s : AttachmentStream) (entries : List (ℕ × AttachmentEvent)) :
    Frame s (release c s entries) := by
  induction entries generalizing s with
  | nil => exact .refl s
  | cons entry entries ih => exact (publish_frame s entry).trans (ih _)

theorem Sound.count (h : Sound c s rest) :
    Sound c { s with published := s.published + 1 } (rest ++ [s.published]) := by
  have howed : owed c { s with published := s.published + 1 } = owed c s := rfl
  refine ⟨h.scheduled, h.elsewhere, ?_, fun n hn => ?_, h.waiting⟩
  · rw [howed, ← List.append_assoc]
    refine List.pairwise_append.mpr ⟨h.order, List.pairwise_singleton _ _, fun n hn m hm => ?_⟩
    rw [List.mem_singleton.mp hm]
    exact h.fresh n hn
  · rw [howed, ← List.append_assoc] at hn
    rcases List.mem_append.mp hn with hn | hn
    · exact (h.fresh n hn).trans (Nat.lt_succ_self _)
    · rw [List.mem_singleton.mp hn]
      exact Nat.lt_succ_self _

theorem Ordered.of_frame (h : Ordered c s) (hframe : Frame s t) (hsound : Sound c t (queuedNumbers s)) :
    Ordered c t := by
  refine ⟨?_, ?_, ?_, ?_⟩
  · rw [queuedNumbers, hframe.queued]
    exact hsound
  · rw [hframe.checkpointPublishing, hframe.queued]
    exact h.queued
  · rw [hframe.attached, hframe.checkpointPublishing]
    exact h.attached
  · rw [hframe.registered, hframe.attached]
    exact h.registered

theorem outboundMap_silent (input : OutboundInput ℕ) :
    OutboundDeliveryPump.Silent EventFrame.numbers (outboundMap EventFrame.other input) := by
  cases input with
  | sendState frame a => exact ⟨rfl, rfl⟩
  | sendTerminal frame a now later => exact ⟨rfl, fun _ _ => rfl⟩
  | send frame => exact rfl
  | _ => trivial

theorem Ordered.onEvent (h : Ordered c s) (event : AttachmentEvent)
    (hclear : StepClear c s (.event event)) : Ordered c (s.onEvent c event) := by
  have hcount := h.sound.count
  rw [AttachmentStream.onEvent]
  split_ifs with hclosed hwaits
  · exact ⟨h.sound.congr rfl rfl rfl (Nat.le_succ _), h.queued, h.attached, h.registered⟩
  · have hqueued : queuedNumbers s ++ [s.published] =
        (s.queuedCheckpointEvents ++ [(s.published, event)]).map Prod.fst := by
      rw [queuedNumbers, List.map_append]
      rfl
    refine ⟨?_, fun hpublishing => ?_, h.attached, h.registered⟩
    · rw [hqueued] at hcount
      exact hcount.congr rfl rfl rfl le_rfl
    · have hpublishing : s.checkpointPublishing = true := hpublishing
      rw [hwaits] at hpublishing
      cases hpublishing
  · have hpublishing : s.checkpointPublishing = true := by simpa using hwaits
    have hempty := h.queued hpublishing
    rw [queuedNumbers, hempty] at hcount
    have hentry : EntryClear c { s with published := s.published + 1 } (s.published, event) :=
      hclear (by simpa using hclosed) hpublishing
    have hframe := publish_frame (c := c) { s with published := s.published + 1 } (s.published, event)
    refine ⟨?_, fun _ => hframe.queued.trans hempty,
      fun _ => hframe.checkpointPublishing.trans hpublishing, fun hregistered => ?_⟩
    swap
    · exact hframe.attached.trans (h.registered (hframe.registered.symm.trans hregistered))
    rw [queuedNumbers, hframe.queued, hempty]
    exact Sound.publish hcount hentry

theorem Ordered.attach (h : Ordered c s) (hclear : StepClear c s .attached) :
    Ordered c (s.attach c) := by
  rw [AttachmentStream.attach]
  split_ifs with hattached
  · exact h
  · have hframe := release_frame (c := c) s.bound s.queuedCheckpointEvents
    refine ⟨?_, fun _ => hframe.queued, fun _ => hframe.checkpointPublishing,
      fun _ => hframe.attached⟩
    have hbound : Sound c s.bound (s.queuedCheckpointEvents.map Prod.fst ++ []) := by
      rw [List.append_nil]
      exact h.sound.sub h.sound.scheduled h.sound.elsewhere (List.Sublist.refl _) le_rfl nofun
    rw [queuedNumbers, hframe.queued]
    exact hbound.release (hclear (by simpa using hattached))

theorem Ordered.discard (h : Ordered c s) : Ordered c s.discardPendingOutput :=
  ⟨h.sound.discard, h.queued, h.attached, h.registered⟩

theorem Ordered.announce (h : Ordered c s) (hattached : s.attached = true)
    (hnone : s.pendingOutput = none) (hthrough : Through c s) (event : AttachmentEvent) :
    Ordered c (append c { s with published := s.published + 1 } event [s.published]) := by
  have hempty := h.queued (h.attached hattached)
  have hcount := h.sound.count
  rw [queuedNumbers, hempty] at hcount
  have hframe := append_frame (c := c) { s with published := s.published + 1 } event [s.published]
  refine ⟨?_, fun _ => hframe.queued.trans hempty,
    fun _ => hframe.checkpointPublishing.trans (h.attached hattached),
    fun _ => hframe.attached.trans hattached⟩
  rw [queuedNumbers, hframe.queued, hempty]
  exact Sound.append hcount hnone hthrough event

theorem Ordered.close (h : Ordered c s) (head : ℕ) (hclear : StepClear c s (.close head)) :
    Ordered c (s.onClose c head) := by
  have hclosed : Ordered c { s with closed := true } :=
    ⟨h.sound.congr rfl rfl rfl le_rfl, h.queued, h.attached, h.registered⟩
  rw [onClose]
  split_ifs with hdone hquiet
  · exact h
  · exact hclosed
  · rw [not_or] at hquiet
    have hattached : s.attached = true := by simpa using hquiet.2
    exact hclosed.discard.announce hattached rfl
      (hclear (by simpa using hdone) hattached (by simpa using hquiet.1)) _

theorem Ordered.dimensions (h : Ordered c s) (dimensions : TerminalDimensions)
    (hclear : StepClear c s (.dimensions dimensions)) :
    Ordered c (s.publishDimensions c dimensions) := by
  rw [publishDimensions]
  split_ifs with hregistered
  · exact h
  · have hregistered : s.registered = true := by simpa using hregistered
    obtain ⟨hthrough, hnone⟩ := hclear hregistered
    exact h.announce (h.registered hregistered) (Option.isNone_iff_eq_none.mp hnone) hthrough _

theorem Ordered.step (h : Ordered c s) (input : StreamInput) (hclear : StepClear c s input) :
    Ordered c (s.step c input) := by
  cases input with
  | event event => exact h.onEvent event hclear
  | attached => exact h.attach hclear
  | timer =>
    rw [AttachmentStream.step]
    split_ifs
    · exact h.of_frame (flush_frame s).1 h.sound.flush
    · exact h
  | dimensions dimensions => exact h.dimensions dimensions hclear
  | suppress =>
    rw [AttachmentStream.step, suppressOutput]
    split_ifs
    · exact h
    · exact ⟨h.discard.sound.congr rfl rfl rfl le_rfl, h.queued, h.attached, h.registered⟩
  | discard => exact h.discard
  | silence => exact ⟨h.sound.congr rfl rfl rfl le_rfl, h.queued, h.attached, h.registered⟩
  | forget => exact ⟨h.sound.congr rfl rfl rfl le_rfl, h.queued, h.attached, nofun⟩
  | close head => exact h.close head hclear
  | appended => exact ⟨h.sound.congr rfl rfl rfl le_rfl, h.queued, h.attached, h.registered⟩
  | other input =>
    have hadds := Adds.step c.byteLength c.limits h.sound.elsewhere h.sound.scheduled
      (outboundMap_silent input)
    have hscheduled := h.sound.scheduled.step c.byteLength c.limits (failed_lanes h.sound.elsewhere)
      (outboundMap EventFrame.other input)
    refine ⟨h.sound.sub hscheduled hadds.elsewhere ?_ le_rfl h.sound.waiting, h.queued, h.attached, h.registered⟩
    have hdue := hadds.due
    rw [List.append_nil] at hdue
    exact (hdue.append (List.Sublist.refl _)).append (List.Sublist.refl _)

theorem opened_ordered (checkpoint : Bool) (catchUp : Option (ℕ × ℕ)) (revision : ℕ) :
    Ordered c (opened checkpoint catchUp revision) := by
  have hnumbers : (queuedNumbers (opened checkpoint catchUp revision)).Sublist [0] := by
    rw [queuedNumbers, opened]
    split_ifs
    · cases catchUp with
      | none => exact List.nil_sublist _
      | some range => exact List.Sublist.refl _
    · exact List.nil_sublist _
  have howed : owed c (opened checkpoint catchUp revision) = [] := rfl
  refine ⟨⟨created_scheduled, ⟨nofun, fun _ _ => nofun, fun _ _ => nofun, nofun⟩, ?_, ?_, fun _ => rfl⟩,
    ?_, nofun, nofun⟩
  · rw [howed]
    exact (List.pairwise_singleton _ _).sublist hnumbers
  · rw [howed]
    intro n hn
    rw [List.mem_singleton.mp (hnumbers.subset hn)]
    exact Nat.one_pos
  · rw [opened]
    cases checkpoint with
    | false => exact fun _ => rfl
    | true => nofun

end Order

end AttachmentStream

section Runs
open AttachmentStream
variable (c : StreamContext)

end Runs

section Prompt
open AttachmentStream

def roomy : OutboundDeliveryLimits where
  maxQueuedBytes := 100
  maxQueuedFrames := 100
  maxTerminalQueuedBytes := 100
  maxTerminalQueuedFrames := 100
  maxTerminalUnconfirmedBytes := 100
  maxTerminalUnconfirmedAgeMs := 100
  maxStateQueuedBytes := 100
  maxStateQueuedFrames := 100

def promptContext : StreamContext where
  attachmentId := js "a"
  subscriptionId := js "s"
  limits := roomy
  byteLength := fun _ => 1
  encodes := fun _ => true
  clock := fun _ => (0, 0)

def greeting : OutputEvent where
  position := 0
  bytes := [104]
  replay := false
  bytes_ne := by decide
  bytes_safe := by decide

def promptExit : List StreamInput := [.attached, .event (.output greeting), .event (.exit .exit)]

def overtaken : List StreamInput :=
  [.attached, .other (.send 1), .event (.output greeting), .event (.exit .exit), .other .delivered,
    .other .delivered]

end Prompt

end Terminay.Terminal
