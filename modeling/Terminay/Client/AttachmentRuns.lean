import Terminay.Client.Attachment

/-!
# What a display is shown

Where skips match the position they come at, the first replay has no gap and a display
listens before another one is called, the events a display is shown follow each other.
-/

namespace Terminay.Client
open Script Outcome
open Terminal (TerminalIdentity TerminalDimensions)

variable {ν : Type}

/-! ## Gap-explicit sequences -/

/-- The event continues what was shown up to the position. -/
def Follows (position : ℕ) : TerminalStreamEvent ν → Prop
  | .checkpoint start _ _ => start = position
  | .checkpointResize start _ => start = position
  | .output start next bytes _ => start = position ∧ next = start + bytes.length ∧ start < next
  | .skip start stop _ => start ≤ position ∧ position ≤ stop
  | _ => True

def reach (position : ℕ) (event : TerminalStreamEvent ν) : ℕ := event.reach position

def GapExplicit (position : ℕ) (events : List (TerminalStreamEvent ν)) : Prop :=
  Runs.Meets reach Follows position events

/-- No byte of the first output is one of the second, which comes later. -/
def Apart : TerminalStreamEvent ν → TerminalStreamEvent ν → Prop
  | .output _ next _ _, .output start _ _ _ => next ≤ start
  | _, _ => True

instance (position : ℕ) : (event : TerminalStreamEvent ν) → Decidable (Follows position event)
  | .checkpoint start _ _ => inferInstanceAs (Decidable (start = position))
  | .checkpointResize start _ => inferInstanceAs (Decidable (start = position))
  | .output start next bytes _ =>
    inferInstanceAs (Decidable (start = position ∧ next = start + bytes.length ∧ start < next))
  | .skip start stop _ => inferInstanceAs (Decidable (start ≤ position ∧ position ≤ stop))
  | .exit _ _ _ _ | .dimensions _ | .presentation _ _ | .presentationUnavailable _ _ _ =>
    .isTrue trivial

instance (position : ℕ) (events : List (TerminalStreamEvent ν)) :
    Decidable (GapExplicit position events) :=
  inferInstanceAs (Decidable (Runs.Meets reach Follows position events))

theorem Follows.reach_le {position : ℕ} {event : TerminalStreamEvent ν} (h : Follows position event) :
    position ≤ reach position event := by
  cases event with
  | output start next bytes replay =>
    obtain ⟨hstart, _, hlt⟩ := h
    simp only [reach, TerminalStreamEvent.reach]
    omega
  | skip start stop reason => exact le_max_left _ _
  | _ => exact le_rfl

theorem GapExplicit.append {position : ℕ} {xs ys : List (TerminalStreamEvent ν)} :
    GapExplicit position (xs ++ ys) ↔
      GapExplicit position xs ∧ GapExplicit (Runs.after reach position xs) ys :=
  Runs.meets_append

theorem GapExplicit.prefix {position : ℕ} {xs ys : List (TerminalStreamEvent ν)} (h : xs <+: ys)
    (hys : GapExplicit position ys) : GapExplicit position xs := by
  obtain ⟨zs, rfl⟩ := h
  exact (append.mp hys).1

theorem GapExplicit.output_le {position start next : ℕ} {bytes : Bytes} {replay : Bool}
    {events : List (TerminalStreamEvent ν)} (h : GapExplicit position events)
    (hmem : .output start next bytes replay ∈ events) : position ≤ start := by
  induction events generalizing position with
  | nil => cases hmem
  | cons event events ih =>
    obtain ⟨hfollows, hrest⟩ := h
    rcases List.mem_cons.mp hmem with heq | hmem
    · rw [← heq] at hfollows
      exact hfollows.1.ge
    · exact hfollows.reach_le.trans (ih hrest hmem)

theorem GapExplicit.apart {position : ℕ} {events : List (TerminalStreamEvent ν)}
    (h : GapExplicit position events) : events.Pairwise Apart := by
  induction events generalizing position with
  | nil => exact .nil
  | cons event events ih =>
    refine List.pairwise_cons.mpr ⟨fun later hlater => ?_, ih h.2⟩
    cases event with
    | output start next bytes replay =>
      cases later with
      | output start' next' bytes' replay' => exact GapExplicit.output_le h.2 hlater
      | _ => trivial
    | _ => trivial

/-! ## What the decoders answer -/

/-- An output carries as many bytes as its positions say. -/
def Measured : TerminalStreamEvent ν → Prop
  | .checkpoint _ _ _ => False
  | .checkpointResize _ _ => False
  | .output start next bytes _ => next = start + bytes.length ∧ start < next
  | _ => True

section Engine
variable [Engine ν]

theorem decodeOutput_measured (fields : Fields ν) (body : Option Bytes) :
    Ensures (decodeOutput fields body) Measured := by
  intro event hevent
  rw [decodeOutput] at hevent
  obtain ⟨position, _, hevent⟩ := bind_ok.mp hevent
  obtain ⟨nextPosition, _, hevent⟩ := bind_ok.mp hevent
  obtain ⟨_, hlt, hevent⟩ := bind_ok.mp hevent
  obtain ⟨bytes, _, hevent⟩ := bind_ok.mp hevent
  obtain ⟨_, hlength, hevent⟩ := bind_ok.mp hevent
  cases hevent
  rw [refuseIf_ok] at hlt hlength
  constructor
  · omega
  · omega

theorem decodeEvent_measured (event : Json ν) (identity : TerminalIdentity) (body : Option Bytes) :
    Ensures (decodeEvent event identity body) Measured := by
  rw [decodeEvent]
  refine Ensures.bind fun fields _ => Ensures.bind fun _ _ => ?_
  rw [decodeTyped]
  split_ifs
  · exact decodeOutput_measured fields body
  · rw [decodeExit]
    refine Ensures.bind fun _ _ => Ensures.bind fun _ _ => Ensures.ok trivial
  · rw [decodeSkip]
    refine Ensures.bind fun _ _ => Ensures.bind fun _ _ => Ensures.ok trivial
  · exact Ensures.bind fun _ _ => Ensures.ok trivial
  · exact Ensures.bind fun _ _ => Ensures.ok trivial
  · rw [decodeUnavailable]
    refine Ensures.bind fun _ _ => Ensures.bind fun _ _ => Ensures.bind fun _ _ => Ensures.ok trivial
  · exact Ensures.error

theorem tryDecodeEvent_measured {event : Json ν} {identity : TerminalIdentity} {body : Option Bytes}
    {decoded : TerminalStreamEvent ν} (h : tryDecodeEvent event identity body = .ok (some decoded)) :
    Measured decoded := by
  rw [tryDecodeEvent] at h
  split at h
  next found hfound =>
    cases h
    exact decodeEvent_measured event identity body _ hfound
  next =>
    split_ifs at h
    cases h

/-- The tail of a checkpoint leads from its position to its head. -/
theorem decodeTail_explicit {headPosition : ℕ} {tail : List (Json ν)} {position : ℕ} {bytes : Bytes}
    {events : List (TerminalStreamEvent ν)}
    (h : decodeTail headPosition tail position bytes = .ok events) :
    GapExplicit position events ∧ Runs.after reach position events = headPosition := by
  induction tail generalizing position bytes events with
  | nil =>
    rw [decodeTail] at h
    split_ifs at h with hend
    cases h
    exact ⟨trivial, not_not.mp (not_or.mp hend).1⟩
  | cons item tail ih =>
    rw [decodeTail] at h
    obtain ⟨fields, _, h⟩ := bind_ok.mp h
    split_ifs at h
    · obtain ⟨eventPosition, _, h⟩ := bind_ok.mp h
      obtain ⟨nextPosition, _, h⟩ := bind_ok.mp h
      obtain ⟨byteLength, _, h⟩ := bind_ok.mp h
      obtain ⟨_, hcontiguous, h⟩ := bind_ok.mp h
      obtain ⟨rest, hrest, h⟩ := bind_ok.mp h
      cases h
      rw [refuseIf_ok] at hcontiguous
      obtain ⟨hfollow, hend⟩ := ih hrest
      refine ⟨⟨⟨rfl, ?_, by omega⟩, hfollow⟩, hend⟩
      rw [List.length_take]
      omega
    · obtain ⟨eventPosition, _, h⟩ := bind_ok.mp h
      obtain ⟨_, _, h⟩ := bind_ok.mp h
      obtain ⟨dimensions, _, h⟩ := bind_ok.mp h
      obtain ⟨rest, hrest, h⟩ := bind_ok.mp h
      cases h
      obtain ⟨hfollow, hend⟩ := ih hrest
      exact ⟨⟨rfl, hfollow⟩, hend⟩

end Engine

/-! ## The condition -/

def Accurate (position : ℕ) : TerminalStreamEvent ν → Prop
  | .skip start stop _ => start ≤ position ∧ position ≤ stop
  | _ => True

def MutableAttachment.Room (s : MutableAttachment ν) (event : TerminalStreamEvent ν) : Prop :=
  s.phase = .opened → s.listeners.isEmpty = true → s.checkpoint.isSome = true →
    event.isOutput = true → classifyEvent event s.position = .accept →
      s.hydrationBytes + event.byteLength ≤ maxTerminalHydrationQueueBytes

section Engine
variable [Engine ν]

/-- Skips of the first replay are accurate, and no output in it leaves a gap or overlaps. -/
def ReplayFits (identity : TerminalIdentity) (hasCheckpoint : Bool) :
    List (Json ν) → Replay ν → Prop
  | [], _ => True
  | wireEvent :: rest, r =>
    Ensures (tryDecodeEvent wireEvent identity none) fun decoded =>
      (∀ event ∈ decoded, Accurate r.position event ∧ classifyEvent event r.position ≠ .gap) ∧
        Ensures (decoded.elim (.ok r) (r.take hasCheckpoint)) fun t =>
          ReplayFits identity hasCheckpoint rest t

/-- The skips among the queued events are accurate. -/
def PendingFits (request : TerminalClientAttachRequest) :
    List (ClientEvent ν) → MutableAttachment ν → Prop
  | [], _ => True
  | event :: rest, s =>
    Ensures (s.decode request event) fun decoded =>
      (∀ event ∈ decoded, Accurate s.position event) ∧
        PendingFits request rest (decoded.elim s s.deliver)

namespace MutableAttachment

/-- The event decodes; a skip is accurate, and an output finds room. -/
def WireFits (request : TerminalClientAttachRequest) (s : MutableAttachment ν)
    (event : ClientEvent ν) : Prop :=
  isOk (s.decode request event) = true ∧
    Ensures (s.decode request event) fun decoded =>
      ∀ event ∈ decoded, Accurate s.position event ∧ s.Room event

/-- The first replay reaches the position of the answer, unless a skip or a checkpoint says where
it starts. -/
def AttachFits (request : TerminalClientAttachRequest) (s : MutableAttachment ν)
    (result : TerminalAttachResult ν) : Prop :=
  Ensures (validateAttachResult request result) fun checkpoint =>
    ReplayFits request.identity checkpoint.isSome result.events
        (.starting (boundary result checkpoint)) ∧
      Ensures (Replay.all request.identity checkpoint.isSome result.events
        (.starting (boundary result checkpoint))) fun replay =>
        (replay.skipped = true ∨ checkpoint.isSome = true ∨ result.position ≤ replay.position) ∧
          PendingFits request s.pendingSubscriptionEvents (s.answered result checkpoint replay)

/-- A display starts listening before an event went to another one. -/
def Fits (request : TerminalClientAttachRequest) (s : MutableAttachment ν) :
    AttachmentInput ν → Prop
  | .wire event => s.phase = .hydrating ∨ s.phase = .opened → s.WireFits request event
  | .attached (some result) => s.phase = .requesting → s.AttachFits request result
  | .listen listener =>
    s.delivered = 0 ∨ s.listeners.any (fun display => display.listener = listener) = true
  | _ => True

end MutableAttachment

end Engine

section Decidability

instance (position : ℕ) : (event : TerminalStreamEvent ν) → Decidable (Accurate position event)
  | .skip start stop _ => inferInstanceAs (Decidable (start ≤ position ∧ position ≤ stop))
  | .checkpoint _ _ _ | .checkpointResize _ _ | .output _ _ _ _ | .exit _ _ _ _ | .dimensions _
  | .presentation _ _ | .presentationUnavailable _ _ _ => .isTrue trivial

instance (s : MutableAttachment ν) (event : TerminalStreamEvent ν) : Decidable (s.Room event) :=
  inferInstanceAs (Decidable (s.phase = .opened → s.listeners.isEmpty = true →
    s.checkpoint.isSome = true → event.isOutput = true → classifyEvent event s.position = .accept →
      s.hydrationBytes + event.byteLength ≤ maxTerminalHydrationQueueBytes))

variable [Engine ν]

instance decidableReplay (identity : TerminalIdentity) (hasCheckpoint : Bool) :
    (events : List (Json ν)) → (r : Replay ν) → Decidable (ReplayFits identity hasCheckpoint events r)
  | [], _ => .isTrue trivial
  | wireEvent :: rest, r =>
    have : ∀ t, Decidable (ReplayFits identity hasCheckpoint rest t) :=
      decidableReplay identity hasCheckpoint rest
    inferInstanceAs (Decidable (Ensures (tryDecodeEvent wireEvent identity none) fun decoded =>
      (∀ event ∈ decoded, Accurate r.position event ∧ classifyEvent event r.position ≠ .gap) ∧
        Ensures (decoded.elim (.ok r) (r.take hasCheckpoint)) fun t =>
          ReplayFits identity hasCheckpoint rest t))

instance decidablePending (request : TerminalClientAttachRequest) :
    (events : List (ClientEvent ν)) → (s : MutableAttachment ν) →
      Decidable (PendingFits request events s)
  | [], _ => .isTrue trivial
  | event :: rest, s =>
    have : ∀ t, Decidable (PendingFits request rest t) := decidablePending request rest
    inferInstanceAs (Decidable (Ensures (s.decode request event) fun decoded =>
      (∀ event ∈ decoded, Accurate s.position event) ∧
        PendingFits request rest (decoded.elim s s.deliver)))

instance (request : TerminalClientAttachRequest) (s : MutableAttachment ν) (event : ClientEvent ν) :
    Decidable (s.WireFits request event) :=
  inferInstanceAs (Decidable (isOk (s.decode request event) = true ∧
    Ensures (s.decode request event) fun decoded =>
      ∀ event ∈ decoded, Accurate s.position event ∧ s.Room event))

instance (request : TerminalClientAttachRequest) (s : MutableAttachment ν)
    (result : TerminalAttachResult ν) : Decidable (s.AttachFits request result) :=
  inferInstanceAs (Decidable (Ensures (MutableAttachment.validateAttachResult request result)
    fun checkpoint => ReplayFits request.identity checkpoint.isSome result.events
        (.starting (MutableAttachment.boundary result checkpoint)) ∧
      Ensures (Replay.all request.identity checkpoint.isSome result.events
        (.starting (MutableAttachment.boundary result checkpoint))) fun replay =>
        (replay.skipped = true ∨ checkpoint.isSome = true ∨ result.position ≤ replay.position) ∧
          PendingFits request s.pendingSubscriptionEvents (s.answered result checkpoint replay)))

instance (request : TerminalClientAttachRequest) (s : MutableAttachment ν) :
    (input : AttachmentInput ν) → Decidable (s.Fits request input)
  | .wire event =>
    inferInstanceAs (Decidable (s.phase = .hydrating ∨ s.phase = .opened → s.WireFits request event))
  | .attached (some result) =>
    inferInstanceAs (Decidable (s.phase = .requesting → s.AttachFits request result))
  | .listen listener => inferInstanceAs (Decidable (s.delivered = 0 ∨
      s.listeners.any (fun display => display.listener = listener) = true))
  | .attached none | .fetched _ | .leave _ | .detach => .isTrue trivial

end Decidability

theorem Measured.follows {position : ℕ} {event : TerminalStreamEvent ν} (hmeasured : Measured event)
    (haccurate : Accurate position event) (hverdict : classifyEvent event position = .accept) :
    Follows position event := by
  cases event with
  | checkpoint start headPosition bytes => exact hmeasured.elim
  | checkpointResize start dimensions => exact hmeasured.elim
  | output start next bytes replay =>
    rw [classifyEvent] at hverdict
    split_ifs at hverdict with _ hstart
    exact ⟨not_not.mp hstart, hmeasured⟩
  | skip start stop reason => exact haccurate
  | _ => trivial

/-! ## Runs -/

structure MutableAttachment.Shown (s : MutableAttachment ν) : Prop where
  thrown : s.thrown = 0
  explicit : GapExplicit s.opening s.acted
  reached : Runs.after reach s.opening s.acted = s.position
  initial : s.hydrationFailure = false → s.delivered = 0 → s.initialEvents = s.acted
  listening : ∀ display ∈ s.listeners, display.seen = s.acted
  left : ∀ display ∈ s.left, display.seen <+: s.acted

structure MutableAttachment.Staged (s : MutableAttachment ν) : Prop where
  unopened : s.phase ≠ .opened → s.listeners = [] ∧ s.left = [] ∧ s.delivered = 0
  requesting : s.phase = .requesting → s.acted = [] ∧ s.hydrationFailure = false ∧ s.opening = 0
  hydrating : s.phase = .hydrating → ∀ c ∈ s.checkpoint, s.opening = c.headPosition
  fetching : s.checkpoint.isSome = false → s.hydrationFailure = false
  opened : s.phase = .opened → s.hydrationFailure = false

namespace MutableAttachment

variable {s t : MutableAttachment ν}

theorem present_listening (h : ∀ display ∈ s.listeners, display.seen = s.acted)
    (event : TerminalStreamEvent ν) :
    ∀ display ∈ (s.present event).listeners, display.seen = (s.present event).acted := by
  rw [present]
  split_ifs with hlisteners hoverflow hfull
  · intro display hdisplay
    obtain ⟨old, hold, rfl⟩ := List.mem_map.mp hdisplay
    exact congrArg (· ++ [event]) (h old hold)
  · rw [not_not] at hlisteners
    simp [hlisteners]
  · rw [not_not] at hlisteners
    simp [hlisteners]
  · rw [not_not] at hlisteners
    simp [hlisteners]

theorem Shown.present (h : s.Shown) {event : TerminalStreamEvent ν}
    (hfollows : Follows s.position event) : (s.present event).Shown := by
  have hexplicit : GapExplicit s.opening (s.acted ++ [event]) :=
    GapExplicit.append.mpr ⟨h.explicit, by rw [h.reached]; exact ⟨hfollows, trivial⟩⟩
  have hreached : Runs.after reach s.opening (s.acted ++ [event]) = event.reach s.position := by
    rw [Runs.after_append, h.reached]
    rfl
  have hleft : ∀ display ∈ s.left, display.seen <+: s.acted ++ [event] := fun display hdisplay =>
    (h.left display hdisplay).trans (List.prefix_append _ _)
  have hlistening := present_listening h.listening event
  rw [MutableAttachment.present] at hlistening ⊢
  split_ifs at hlistening ⊢
  · exact ⟨h.thrown, hexplicit, hreached, fun _ hzero => absurd hzero (Nat.succ_ne_zero _),
      hlistening, hleft⟩
  · exact ⟨h.thrown, hexplicit, hreached, nofun, hlistening, hleft⟩
  · exact ⟨h.thrown, hexplicit, hreached, fun hok hzero =>
      congrArg (· ++ [event]) (h.initial hok hzero), hlistening, hleft⟩
  · exact ⟨h.thrown, hexplicit, hreached, fun hok hzero =>
      congrArg (· ++ [event]) (h.initial hok hzero), hlistening, hleft⟩

theorem Shown.deliver (h : s.Shown) {event : TerminalStreamEvent ν} (hmeasured : Measured event)
    (haccurate : Accurate s.position event) : (s.deliver event).Shown := by
  rw [MutableAttachment.deliver]
  split
  · exact h
  · exact h.present ⟨le_rfl, le_max_left _ _⟩
  next hverdict =>
    apply h.present
    exact hmeasured.follows haccurate hverdict

theorem Staged.present (h : s.Staged) (hphase : s.phase ≠ .requesting) {event : TerminalStreamEvent ν}
    (hroom : s.phase = .opened → s.listeners.isEmpty = true → s.checkpoint.isSome = true →
      event.isOutput = true → s.hydrationBytes + event.byteLength ≤ maxTerminalHydrationQueueBytes) :
    (s.present event).Staged := by
  rw [MutableAttachment.present]
  split_ifs with hlisteners hqueue hoverflow
  · refine ⟨fun hunopened => absurd (h.unopened hunopened).1 hlisteners, fun hrequest =>
      absurd hrequest hphase, h.hydrating, h.fetching, h.opened⟩
  · rw [not_not] at hlisteners
    refine ⟨h.unopened, fun hrequest => absurd hrequest hphase, h.hydrating, fun hnone => ?_,
      fun hopened => ?_⟩
    · have hsome := hqueue.1
      rw [show s.checkpoint.isSome = false from hnone] at hsome
      cases hsome
    · have hfits := hroom hopened (by simp [hlisteners]) hqueue.1 hqueue.2
      omega
  · exact ⟨h.unopened, fun hrequest => absurd hrequest hphase, h.hydrating, h.fetching, h.opened⟩
  · exact ⟨h.unopened, fun hrequest => absurd hrequest hphase, h.hydrating, h.fetching, h.opened⟩

theorem Staged.deliver (h : s.Staged) (hphase : s.phase ≠ .requesting) {event : TerminalStreamEvent ν}
    (hroom : s.Room event) : (s.deliver event).Staged := by
  rw [MutableAttachment.deliver]
  split
  · exact h
  · exact h.present hphase nofun
  next hverdict =>
    exact h.present hphase fun hopened hnone hsome hout => hroom hopened hnone hsome hout hverdict

theorem present_phase (s : MutableAttachment ν) (event : TerminalStreamEvent ν) :
    (s.present event).phase = s.phase := by
  rw [present]
  split_ifs
  · rfl
  · rfl
  · rfl
  · rfl

theorem deliver_phase (s : MutableAttachment ν) (event : TerminalStreamEvent ν) :
    (s.deliver event).phase = s.phase := by
  rw [deliver]
  split
  · rfl
  · exact present_phase s _
  · exact present_phase s event

end MutableAttachment

/-! ## Opening -/

structure Replay.Sound (start : ℕ) (r : Replay ν) : Prop where
  explicit : GapExplicit start r.events
  reached : Runs.after reach start r.events = r.position

namespace MutableAttachment

variable {s : MutableAttachment ν}

theorem answered_shown (hshown : s.Shown) (hstaged : s.Staged) (hphase : s.phase = .requesting)
    {result : TerminalAttachResult ν} {checkpoint : Option TerminalPresentationCheckpointMetadata}
    {replay : Replay ν} (hreplay : replay.Sound (boundary result checkpoint))
    (hposition : replay.skipped = true ∨ checkpoint.isSome = true ∨
      result.position ≤ replay.position) :
    (s.answered result checkpoint replay).Shown := by
  have hunopened := hstaged.unopened (by rw [hphase]; decide)
  refine ⟨hshown.thrown, hreplay.explicit, ?_, fun _ _ => rfl, ?_, ?_⟩
  · rw [answered]
    dsimp only
    split_ifs with hend
    · obtain ⟨hskipped, hnone⟩ := hend
      simp only [hskipped, Bool.false_eq_true, Option.isNone_iff_eq_none.mp hnone, Option.isSome_none,
        false_or] at hposition
      rw [hreplay.reached]
      omega
    · exact hreplay.reached
  · intro display hdisplay
    have hlisteners : display ∈ s.listeners := hdisplay
    rw [hunopened.1] at hlisteners
    cases hlisteners
  · intro display hdisplay
    have hleft : display ∈ s.left := hdisplay
    rw [hunopened.2.1] at hleft
    cases hleft

theorem answered_staged (hstaged : s.Staged) (hphase : s.phase = .requesting)
    (result : TerminalAttachResult ν) (checkpoint : Option TerminalPresentationCheckpointMetadata)
    (replay : Replay ν) : (s.answered result checkpoint replay).Staged where
  unopened _ := hstaged.unopened (by rw [hphase]; decide)
  requesting := nofun
  hydrating _ := by
    intro c hc
    have hc : checkpoint = some c := hc
    simp [answered, boundary, hc]
  fetching _ := (hstaged.requesting hphase).2.1
  opened := nofun

theorem fail_sound (hshown : s.Shown) (hstaged : s.Staged) (hphase : s.phase ≠ .opened) :
    s.fail.Shown ∧ s.fail.Staged :=
  ⟨⟨hshown.thrown, hshown.explicit, hshown.reached, hshown.initial, hshown.listening, hshown.left⟩,
    ⟨fun _ => hstaged.unopened hphase, nofun, nofun, hstaged.fetching, nofun⟩⟩

theorem hydrate_sound (hshown : s.Shown) (hstaged : s.Staged) (hphase : s.phase = .hydrating)
    {checkpoint : TerminalPresentationCheckpointMetadata} (hcheckpoint : s.checkpoint = some checkpoint)
    (hok : s.hydrationFailure = false) {hydrated : List (TerminalStreamEvent ν)}
    (hexplicit : GapExplicit checkpoint.position hydrated)
    (hend : Runs.after reach checkpoint.position hydrated = checkpoint.headPosition) :
    (s.hydrate checkpoint hydrated).Shown ∧ (s.hydrate checkpoint hydrated).Staged := by
  obtain ⟨hlisteners, hleft, hdelivered⟩ := hstaged.unopened (by rw [hphase]; decide)
  have hopening := hstaged.hydrating hphase checkpoint hcheckpoint
  have hagain : GapExplicit (Runs.after reach checkpoint.position hydrated) s.acted := by
    rw [hend, ← hopening]
    exact hshown.explicit
  have hreached : Runs.after reach checkpoint.position (hydrated ++ s.acted) = s.position := by
    rw [Runs.after_append, hend, ← hopening]
    exact hshown.reached
  refine ⟨⟨hshown.thrown, GapExplicit.append.mpr ⟨hexplicit, hagain⟩, hreached, fun _ _ => ?_, ?_, ?_⟩,
    ?_⟩
  · exact congrArg (hydrated ++ ·) (hshown.initial hok hdelivered)
  · intro display hdisplay
    have hmem : display ∈ s.listeners := hdisplay
    rw [hlisteners] at hmem
    cases hmem
  · intro display hdisplay
    have hmem : display ∈ s.left := hdisplay
    rw [hleft] at hmem
    cases hmem
  · exact ⟨fun _ => ⟨hlisteners, hleft, hdelivered⟩, nofun, nofun, hstaged.fetching, fun _ => hok⟩

theorem listen_sound (hshown : s.Shown) (hstaged : s.Staged) {listener : ℕ}
    (hfits : s.delivered = 0 ∨
      s.listeners.any (fun display => display.listener = listener) = true) :
    (s.listen listener).Shown ∧ (s.listen listener).Staged := by
  rw [listen]
  split_ifs with hrefused
  · exact ⟨hshown, hstaged⟩
  obtain ⟨hopened, hnew⟩ := not_or.mp hrefused
  rw [not_not] at hopened
  have hnone : s.delivered = 0 := by
    rcases hfits with hnone | hknown
    · exact hnone
    · obtain ⟨display, hmem, hsame⟩ := List.any_eq_true.mp hknown
      exact absurd ⟨display, hmem, by simpa using hsame⟩ hnew
  have hinitial := hshown.initial (hstaged.opened hopened) hnone
  constructor
  · refine ⟨hshown.thrown, hshown.explicit, hshown.reached, hshown.initial, ?_, hshown.left⟩
    intro display hdisplay
    rcases List.mem_append.mp hdisplay with hold | hnew
    · exact hshown.listening display hold
    · rw [List.mem_singleton.mp hnew]
      exact hinitial
  · exact ⟨fun hunopened => absurd hopened hunopened, hstaged.requesting, hstaged.hydrating,
      hstaged.fetching, hstaged.opened⟩

theorem leave_sound (hshown : s.Shown) (hstaged : s.Staged) (listener : ℕ) :
    (s.leave listener).Shown ∧ (s.leave listener).Staged := by
  constructor
  · refine ⟨hshown.thrown, hshown.explicit, hshown.reached, hshown.initial, ?_, ?_⟩
    · intro display hdisplay
      exact hshown.listening display (List.mem_filter.mp hdisplay).1
    · intro display hdisplay
      rcases List.mem_append.mp hdisplay with hold | hgone
      · exact hshown.left display hold
      · rw [hshown.listening display (List.mem_filter.mp hgone).1]
        exact List.prefix_refl _
  · refine ⟨fun hunopened => ?_, hstaged.requesting, hstaged.hydrating, hstaged.fetching,
      hstaged.opened⟩
    obtain ⟨hlisteners, hleft, hdelivered⟩ := hstaged.unopened hunopened
    simp [leave, hlisteners, hleft, hdelivered]

theorem detach_sound (hshown : s.Shown) (hstaged : s.Staged) : s.detach.Shown ∧ s.detach.Staged := by
  rw [detach]
  split_ifs
  · exact ⟨⟨hshown.thrown, hshown.explicit, hshown.reached, hshown.initial, hshown.listening,
      hshown.left⟩, ⟨hstaged.unopened, hstaged.requesting, hstaged.hydrating, hstaged.fetching,
      hstaged.opened⟩⟩
  · exact ⟨hshown, hstaged⟩

end MutableAttachment

theorem MutableAttachment.requested_sound :
    (requested : MutableAttachment ν).Shown ∧ (requested : MutableAttachment ν).Staged :=
  ⟨⟨rfl, trivial, rfl, fun _ _ => rfl, nofun, nofun⟩,
    ⟨fun _ => ⟨rfl, rfl, rfl⟩, fun _ => ⟨rfl, rfl, rfl⟩, nofun, fun _ => rfl, fun _ => rfl⟩⟩

/-- What every display is shown is gap-explicit, with no byte twice. A listening display is shown
each event that the attachment took up, and these reach the position that decides which outputs
are duplicates. -/
structure MutableAttachment.Presented (s : MutableAttachment ν) : Prop where
  explicit : ∀ display, display ∈ s.listeners ∨ display ∈ s.left →
    GapExplicit s.opening display.seen ∧ display.seen.Pairwise Apart
  complete : ∀ display ∈ s.listeners, display.seen = s.acted
  reached : Runs.after reach s.opening s.acted = s.position
  thrown : s.thrown = 0

theorem MutableAttachment.Shown.presented {s : MutableAttachment ν} (h : s.Shown) : s.Presented where
  explicit := by
    intro display hdisplay
    have hprefix : display.seen <+: s.acted := by
      rcases hdisplay with hlistening | hleft
      · rw [h.listening display hlistening]
      · exact h.left display hleft
    have hexplicit := h.explicit.prefix hprefix
    exact ⟨hexplicit, hexplicit.apart⟩
  complete := h.listening
  reached := h.reached
  thrown := h.thrown

theorem Replay.starting_sound (start : ℕ) : Replay.Sound start (.starting start : Replay ν) :=
  ⟨trivial, rfl⟩

theorem Replay.Sound.take {start : ℕ} {r t : Replay ν} (h : r.Sound start) {hasCheckpoint : Bool}
    {event : TerminalStreamEvent ν} (hmeasured : Measured event)
    (haccurate : Accurate r.position event) (hgap : classifyEvent event r.position ≠ .gap)
    (ht : r.take hasCheckpoint event = .ok t) : t.Sound start := by
  rw [Replay.take] at ht
  split_ifs at ht with hduplicate
  · cases ht
    exact h
  obtain ⟨_, _, ht⟩ := bind_ok.mp ht
  cases ht
  have haccept : classifyEvent event r.position = .accept := by
    cases hverdict : classifyEvent event r.position with
    | accept => rfl
    | duplicate => exact absurd hverdict hduplicate
    | gap => exact absurd hverdict hgap
  have hfollows := hmeasured.follows haccurate haccept
  constructor
  · exact GapExplicit.append.mpr ⟨h.explicit, by rw [h.reached]; exact ⟨hfollows, trivial⟩⟩
  · rw [Runs.after_append, h.reached]
    rfl

section Engine
variable [Engine ν]

theorem Replay.Sound.all {start : ℕ} {identity : TerminalIdentity} {hasCheckpoint : Bool}
    {events : List (Json ν)} {r t : Replay ν} (h : r.Sound start)
    (hfits : ReplayFits identity hasCheckpoint events r)
    (ht : Replay.all identity hasCheckpoint events r = .ok t) : t.Sound start := by
  induction events generalizing r with
  | nil =>
    cases ht
    exact h
  | cons wireEvent rest ih =>
    rw [Replay.all] at ht
    obtain ⟨decoded, hdecoded, ht⟩ := bind_ok.mp ht
    obtain ⟨hevent, hrest⟩ := hfits decoded hdecoded
    cases decoded with
    | none => exact ih h (hrest r rfl) ht
    | some event =>
      obtain ⟨u, hu, ht⟩ := bind_ok.mp ht
      obtain ⟨haccurate, hgap⟩ := hevent event rfl
      exact ih (h.take (tryDecodeEvent_measured hdecoded) haccurate hgap hu) (hrest u hu) ht

namespace MutableAttachment

variable {s t : MutableAttachment ν} {request : TerminalClientAttachRequest}

theorem decode_measured {event : ClientEvent ν} {decoded : TerminalStreamEvent ν}
    (h : s.decode request event = .ok (some decoded)) : Measured decoded := by
  rw [decode] at h
  split_ifs at h
  · cases h
  · cases h
  · exact tryDecodeEvent_measured h

theorem foldlM_pending {events : List (ClientEvent ν)} (hshown : s.Shown) (hstaged : s.Staged)
    (hphase : s.phase = .hydrating) (hfits : PendingFits request events s)
    (ht : events.foldlM (processSubscriptionEvent request) s = .ok t) :
    t.Shown ∧ t.Staged ∧ t.phase = .hydrating := by
  induction events generalizing s with
  | nil =>
    cases ht
    exact ⟨hshown, hstaged, hphase⟩
  | cons event events ih =>
    rw [List.foldlM_cons] at ht
    obtain ⟨u, hu, ht⟩ := bind_ok.mp ht
    rw [processSubscriptionEvent] at hu
    obtain ⟨decoded, hdecoded, hu⟩ := bind_ok.mp hu
    obtain ⟨haccurate, hrest⟩ := hfits decoded hdecoded
    cases decoded with
    | none =>
      cases hu
      exact ih hshown hstaged hphase hrest ht
    | some decoded =>
      cases hu
      apply ih _ _ _ hrest ht
      · exact hshown.deliver (decode_measured hdecoded) (haccurate decoded rfl)
      · apply hstaged.deliver
        · rw [hphase]
          decide
        · intro hopened
          rw [hphase] at hopened
          cases hopened
      · exact (deliver_phase s decoded).trans hphase

theorem openAttachment_sound (hshown : s.Shown) (hstaged : s.Staged) (hphase : s.phase = .requesting)
    {result : TerminalAttachResult ν} (hfits : s.AttachFits request result)
    (ht : s.openAttachment request result = .ok t) : t.Shown ∧ t.Staged := by
  rw [openAttachment] at ht
  obtain ⟨⟨replay, mutable⟩, hreplay, ht⟩ := bind_ok.mp ht
  rw [withReplay] at hreplay
  obtain ⟨checkpoint, hcheckpoint, hreplay⟩ := bind_ok.mp hreplay
  obtain ⟨found, hfound, hreplay⟩ := bind_ok.mp hreplay
  cases hreplay
  obtain ⟨handed, hhanded, ht⟩ := bind_ok.mp ht
  obtain ⟨_, _, ht⟩ := bind_ok.mp ht
  cases ht
  obtain ⟨hreplayed, hfits⟩ := hfits checkpoint hcheckpoint
  obtain ⟨hposition, hpending⟩ := hfits replay hfound
  have hsound := (Replay.starting_sound _).all hreplayed hfound
  obtain ⟨hfinal, hstage, hhydrating⟩ := foldlM_pending
    (answered_shown hshown hstaged hphase hsound hposition)
    (answered_staged hstaged hphase result checkpoint replay) rfl hpending hhanded
  refine ⟨⟨hfinal.thrown, hfinal.explicit, hfinal.reached, hfinal.initial, hfinal.listening,
    hfinal.left⟩, ?_⟩
  have hunopened := hstage.unopened (by rw [hhydrating]; decide)
  have hhead := hstage.hydrating hhydrating
  cases hsome : handed.checkpoint.isSome with
  | true =>
    refine ⟨fun _ => hunopened, ?_, fun _ => hhead, hstage.fetching, ?_⟩
    · simp
    · simp
  | false =>
    refine ⟨fun _ => hunopened, ?_, fun _ => hhead, hstage.fetching, fun _ => hstage.fetching hsome⟩
    simp

theorem fetchCheckpoint_explicit {checkpoint : TerminalPresentationCheckpointMetadata}
    {result : Json ν} {body : Bytes} {hydrated : List (TerminalStreamEvent ν)}
    (h : fetchCheckpoint request checkpoint result body = .ok hydrated) :
    GapExplicit checkpoint.position hydrated ∧
      Runs.after reach checkpoint.position hydrated = checkpoint.headPosition := by
  rw [fetchCheckpoint] at h
  obtain ⟨_, _, h⟩ := bind_ok.mp h
  obtain ⟨_, _, h⟩ := bind_ok.mp h
  obtain ⟨_, _, h⟩ := bind_ok.mp h
  obtain ⟨tail, htail, h⟩ := bind_ok.mp h
  cases h
  rw [decodeCheckpointTail] at htail
  obtain ⟨_, _, htail⟩ := bind_ok.mp htail
  obtain ⟨_, _, htail⟩ := bind_ok.mp htail
  obtain ⟨hexplicit, hend⟩ := decodeTail_explicit htail
  exact ⟨⟨rfl, hexplicit⟩, hend⟩

/-! ## Steps -/

theorem queue_sound (hshown : s.Shown) (hstaged : s.Staged) (event : ClientEvent ν) :
    (s.queue request event).Shown ∧ (s.queue request event).Staged := by
  have hshown' : ∀ bytes failure events,
      { s with
        pendingSubscriptionBytes := bytes
        pendingSubscriptionFailure := failure
        pendingSubscriptionEvents := events }.Shown := fun _ _ _ =>
    ⟨hshown.thrown, hshown.explicit, hshown.reached, hshown.initial, hshown.listening, hshown.left⟩
  have hstaged' : ∀ bytes failure events,
      { s with
        pendingSubscriptionBytes := bytes
        pendingSubscriptionFailure := failure
        pendingSubscriptionEvents := events }.Staged := fun _ _ _ =>
    ⟨hstaged.unopened, hstaged.requesting, hstaged.hydrating, hstaged.fetching, hstaged.opened⟩
  rw [queue]
  split_ifs
  · exact ⟨hshown' _ _ _, hstaged' _ _ _⟩
  · exact ⟨hshown' _ _ _, hstaged' _ _ _⟩

theorem process_sound (hshown : s.Shown) (hstaged : s.Staged) (hphase : s.phase ≠ .requesting)
    {event : ClientEvent ν} (hfits : s.WireFits request event) :
    ∃ t, s.processSubscriptionEvent request event = .ok t ∧ t.Shown ∧ t.Staged := by
  obtain ⟨hok, hfits⟩ := hfits
  obtain ⟨decoded, hdecoded⟩ := isOk_iff.mp hok
  have htaken := hfits decoded hdecoded
  rw [processSubscriptionEvent, hdecoded]
  cases decoded with
  | none => exact ⟨s, rfl, hshown, hstaged⟩
  | some decoded =>
    obtain ⟨haccurate, hroom⟩ := htaken decoded rfl
    exact ⟨s.deliver decoded, rfl, hshown.deliver (decode_measured hdecoded) haccurate,
      hstaged.deliver hphase hroom⟩

theorem receive_sound (hshown : s.Shown) (hstaged : s.Staged) {event : ClientEvent ν}
    (hfits : s.phase = .hydrating ∨ s.phase = .opened → s.WireFits request event) :
    (s.receive request event).Shown ∧ (s.receive request event).Staged := by
  cases hphase : s.phase with
  | requesting =>
    rw [receive, hphase]
    exact queue_sound hshown hstaged event
  | hydrating =>
    obtain ⟨t, ht, hsound⟩ :=
      process_sound hshown hstaged (by rw [hphase]; decide) (hfits (.inl hphase))
    rw [receive, hphase]
    dsimp only
    rw [ht]
    exact hsound
  | opened =>
    obtain ⟨t, ht, hsound⟩ :=
      process_sound hshown hstaged (by rw [hphase]; decide) (hfits (.inr hphase))
    rw [receive, hphase]
    dsimp only
    rw [ht]
    exact hsound
  | failed =>
    rw [receive, hphase]
    exact ⟨hshown, hstaged⟩

theorem attached_sound (hshown : s.Shown) (hstaged : s.Staged)
    {result : Option (TerminalAttachResult ν)}
    (hfits : ∀ r ∈ result, s.phase = .requesting → s.AttachFits request r) :
    (s.attached request result).Shown ∧ (s.attached request result).Staged := by
  rw [attached.eq_def]
  by_cases hphase : s.phase ≠ .requesting
  · rw [if_pos hphase]
    exact ⟨hshown, hstaged⟩
  rw [if_neg hphase]
  rw [not_not] at hphase
  have hfailed := fail_sound hshown hstaged (by rw [hphase]; decide)
  cases result with
  | none => exact hfailed
  | some result =>
    dsimp only
    cases hopen : s.openAttachment request result with
    | error message => exact hfailed
    | ok t => exact openAttachment_sound hshown hstaged hphase (hfits result rfl hphase) hopen

theorem fetched_sound (hshown : s.Shown) (hstaged : s.Staged) (response : Option (Json ν × Bytes)) :
    (s.fetched request response).Shown ∧ (s.fetched request response).Staged := by
  rw [fetched.eq_def]
  by_cases hphase : s.phase ≠ .hydrating
  · rw [if_pos hphase]
    exact ⟨hshown, hstaged⟩
  rw [if_neg hphase]
  rw [not_not] at hphase
  have hfailed := fail_sound hshown hstaged (by rw [hphase]; decide)
  split
  next checkpoint result body hcheckpoint =>
    split
    next hydrated hfetched =>
      obtain ⟨hexplicit, hend⟩ := fetchCheckpoint_explicit hfetched
      cases hok : s.hydrationFailure with
      | true =>
        rw [if_pos rfl]
        exact hfailed
      | false =>
        rw [if_neg Bool.false_ne_true]
        exact hydrate_sound hshown hstaged hphase hcheckpoint hok hexplicit hend
    next => exact hfailed
  next => exact hfailed

theorem step_sound (hshown : s.Shown) (hstaged : s.Staged) {input : AttachmentInput ν}
    (hfits : s.Fits request input) : (s.step request input).Shown ∧ (s.step request input).Staged := by
  cases input with
  | wire event => exact receive_sound hshown hstaged hfits
  | attached result =>
    have hanswer : ∀ r ∈ result, s.phase = .requesting → s.AttachFits request r := by
      intro r hr
      rw [hr] at hfits
      exact hfits
    exact attached_sound hshown hstaged hanswer
  | fetched response => exact fetched_sound hshown hstaged response
  | listen listener => exact listen_sound hshown hstaged hfits
  | leave listener => exact leave_sound hshown hstaged listener
  | detach => exact detach_sound hshown hstaged

end MutableAttachment

theorem client_attachment_runs (request : TerminalClientAttachRequest) (inputs : List (AttachmentInput ν))
    (h : Runs.Meets (MutableAttachment.step request) (MutableAttachment.Fits request) .requested
      inputs) :
    (Runs.after (MutableAttachment.step request) .requested inputs).Presented := by
  have hstep : ∀ (s : MutableAttachment ν) (input : AttachmentInput ν), s.Shown ∧ s.Staged →
      s.Fits request input → (s.step request input).Shown ∧ (s.step request input).Staged :=
    fun _ _ hs hfits => MutableAttachment.step_sound hs.1 hs.2 hfits
  exact (Runs.invariant_of_meets hstep MutableAttachment.requested_sound h).1.presented

end Engine

def aRequest : TerminalClientAttachRequest := ⟨⟨js "s", js "p", js "t"⟩, js "c", false, 0, nofun⟩

def wirePayload (fields : List (Str × Json ℤ)) : Json ℤ :=
  .obj ([(js "attachmentId", .str (js "a")), (js "clientId", .str (js "c")),
    (js "serverId", .str (js "s")), (js "projectId", .str (js "p")),
    (js "sessionId", .str (js "t"))] ++ fields)

def outputPayload (position nextPosition : ℤ) (bytes : String) : Json ℤ :=
  wirePayload [(js "type", .str (js "output")), (js "position", .num position),
    (js "nextPosition", .num nextPosition), (js "bytes", .str (js bytes))]

def skipPayload (fromPosition toPosition : ℤ) : Json ℤ :=
  wirePayload [(js "type", .str (js "skip")), (js "fromPosition", .num fromPosition),
    (js "toPosition", .num toPosition)]

def wireEvent (payload : Json ℤ) : ClientEvent ℤ := ⟨1, js "1", js "terminal", payload, []⟩

def recovered : List (AttachmentInput ℤ) :=
  [.wire (wireEvent (outputPayload 0 2 "aGk=")),
    .attached (some ⟨js "a", 0, 2, [outputPayload 0 2 "aGk="], none, none⟩), .listen 1,
    .wire (wireEvent (outputPayload 2 3 "aA==")), .wire (wireEvent (outputPayload 6 7 "aA==")),
    .wire (wireEvent (skipPayload 7 9)), .wire (wireEvent (outputPayload 9 11 "aGk=")), .leave 1]

theorem client_attachment_runs_recovered :
    (Runs.after (MutableAttachment.step aRequest) .requested recovered).Presented :=
  client_attachment_runs aRequest recovered (by decide +kernel)

/-- An answer whose first replay begins beyond its own start. -/
def gapped : List (AttachmentInput ℤ) :=
  [.attached (some ⟨js "a", 0, 7, [outputPayload 5 7 "aGk="], none, none⟩), .listen 1]

theorem gapped_shown : ((Runs.after (MutableAttachment.step aRequest) .requested gapped).listeners.map
    fun display => decide (GapExplicit
      (Runs.after (MutableAttachment.step aRequest) .requested gapped).opening display.seen)) =
        [false] := by
  decide +kernel

theorem gap_unannounced : ¬ ∀ (request : TerminalClientAttachRequest)
    (inputs : List (AttachmentInput ℤ)),
      (Runs.after (MutableAttachment.step request) .requested inputs).Presented := by
  intro h
  have hpresented := h aRequest gapped
  have hshown := gapped_shown
  obtain ⟨display, hlisteners, hfalse⟩ := List.map_eq_singleton_iff.mp hshown
  have hexplicit := hpresented.explicit display (.inl (by rw [hlisteners]; exact List.mem_singleton_self _))
  exact of_decide_eq_false hfalse hexplicit.1

end Terminay.Client
