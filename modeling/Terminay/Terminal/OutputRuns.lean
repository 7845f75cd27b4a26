import Mathlib.Algebra.Order.Ring.Rat
import Mathlib.Data.Nat.Cast.Order.Ring
import Terminay.Terminal.OutputStream

/-!
# Runs of the output stream

The retained chunks are the end of the stream, and every read of them is a part of it.
-/

namespace Terminay.Terminal
open Script Outcome Chunks

section Pieces

variable {max : ℕ}

theorem piecesOf_join (hmax : 0 < max) (fuel : ℕ) (bytes : Bytes) (h : bytes.length ≤ fuel) :
    (piecesOf max fuel bytes).flatten = bytes := by
  induction fuel generalizing bytes with
  | zero =>
    rw [List.length_eq_zero_iff.mp (Nat.le_zero.mp h)]
    rfl
  | succ fuel ih =>
    rw [piecesOf]
    split_ifs with hempty
    · rw [hempty]
      rfl
    · have hpositive := List.length_pos_iff.mpr hempty
      have hrest : (bytes.drop max).length ≤ fuel := by
        rw [List.length_drop]
        omega
      rw [List.flatten_cons, ih _ hrest, List.take_append_drop]

theorem readReplayBytes_eq (start : ℕ) (cs : List (Chunk UInt8)) (remaining : ℕ) :
    readReplayBytes start cs remaining = (content (cut start cs)).take remaining := by
  induction cs generalizing remaining with
  | nil => simp [readReplayBytes, cut, content]
  | cons c cs ih =>
    rw [readReplayBytes, cut_cons]
    by_cases hnone : remaining = 0
    · rw [if_pos hnone, hnone, List.take_zero]
    · rw [if_neg hnone]
      by_cases hskip : c.stop ≤ start
      · rw [if_pos hskip, if_neg (Nat.not_lt.mpr hskip)]
        exact ih remaining
      · rw [if_neg hskip, if_pos (Nat.lt_of_not_le hskip), content_cons]
        have hvalue : (c.after start).bytes = c.bytes.drop (start - c.position) := rfl
        simp only [← hvalue]
        split_ifs with hempty
        · rw [(List.take_eq_nil_iff.mp hempty).resolve_left hnone, List.nil_append]
          exact ih remaining
        · rw [ih, List.take_append]
          congr 2
          rw [List.length_take]
          omega

end Pieces

section Subscriptions

def outputOf : TerminalEvent → Option (Chunk UInt8)
  | .output position _ bytes _ => some ⟨position, bytes⟩
  | _ => none

def outputs (events : List TerminalEvent) : List (Chunk UInt8) := events.filterMap outputOf

structure Follows (start : ℕ) (stream : Bytes) (sub : TerminalSubscription) : Prop where
  start_le : start ≤ sub.fromPosition
  le_stop : sub.fromPosition ≤ start + stream.length
  laid : LaidOut sub.fromPosition (outputs sub.received)
    (sub.fromPosition + (content (outputs sub.received)).length)
  early : content (outputs sub.received) <+: stream.drop (sub.fromPosition - start)
  whole : sub.closed = none →
    content (outputs sub.received) = stream.drop (sub.fromPosition - start)

variable {start : ℕ} {stream : Bytes} {sub : TerminalSubscription}

theorem outputs_append (events more : List TerminalEvent) :
    outputs (events ++ more) = outputs events ++ outputs more :=
  List.filterMap_append

theorem drop_grown {piece : Bytes} {n : ℕ} (h : n ≤ stream.length) :
    (stream ++ piece).drop n = stream.drop n ++ piece :=
  List.drop_append_of_le_length h

theorem Follows.grow (h : Follows start stream sub) (piece : Bytes) (outputPosition : ℕ)
    (hlistener : sub.listener = true) :
    Follows start (stream ++ piece) (sub.deliverEvent outputPosition
      (outputEvent ⟨start + stream.length, piece⟩ (start + stream.length) false)) := by
  have hlength : sub.fromPosition - start ≤ stream.length := by
    have hstart := h.start_le
    have hstop := h.le_stop
    omega
  have hstop : sub.fromPosition ≤ start + (stream ++ piece).length := by
    have hle := h.le_stop
    rw [List.length_append]
    omega
  rw [TerminalSubscription.deliverEvent]
  split_ifs with hclosed
  · refine ⟨h.start_le, hstop, h.laid, ?_, fun hopen => ?_⟩
    · rw [drop_grown hlength]
      exact h.early.trans (List.prefix_append _ _)
    · rw [hopen] at hclosed
      cases hclosed
  · have hopen : sub.closed = none := Option.not_isSome_iff_eq_none.mp hclosed
    have hwhole := h.whole hopen
    have hreceived : outputs (sub.received ++
        [outputEvent ⟨start + stream.length, piece⟩ (start + stream.length) false]) =
          outputs sub.received ++ [⟨start + stream.length, piece⟩] := by
      let chunk : Chunk UInt8 := ⟨start + stream.length, piece⟩
      have hnew : chunk.after (start + stream.length) = chunk := after_early chunk (Nat.le_refl _)
      rw [outputs_append, outputEvent, hnew]
      rfl
    have hcontent : content (outputs sub.received ++ [⟨start + stream.length, piece⟩]) =
        (stream ++ piece).drop (sub.fromPosition - start) := by
      rw [content_append, content_singleton, hwhole, drop_grown hlength]
    have hend : start + stream.length =
        sub.fromPosition + (content (outputs sub.received)).length := by
      have hstart := h.start_le
      rw [hwhole, List.length_drop]
      omega
    have hlaid := h.laid.concat (c := ⟨start + stream.length, piece⟩) hend
    rw [hlaid.length] at hlaid
    refine ⟨h.start_le, hstop, ?_, ?_, fun _ => ?_⟩
    · rw [TerminalSubscription.deliver, hreceived]
      exact hlaid
    · rw [TerminalSubscription.deliver, hreceived, hcontent]
    · rw [TerminalSubscription.deliver, hreceived]
      exact hcontent

theorem Follows.other (h : Follows start stream sub) {event : TerminalEvent}
    (hevent : outputOf event = none) (outputPosition : ℕ) (hlistener : sub.listener = true) :
    Follows start stream (sub.deliverEvent outputPosition event) := by
  rw [TerminalSubscription.deliverEvent]
  split_ifs
  · exact h
  · have hreceived : outputs (sub.received ++ [event]) = outputs sub.received := by
      rw [outputs_append, outputs, outputs, List.filterMap_cons_none hevent, List.filterMap_nil,
        List.append_nil]
    constructor
    case start_le => exact h.start_le
    case le_stop => exact h.le_stop
    case laid =>
      rw [TerminalSubscription.deliver, hreceived]
      exact h.laid
    case early =>
      rw [TerminalSubscription.deliver, hreceived]
      exact h.early
    case whole =>
      rw [TerminalSubscription.deliver, hreceived]
      exact h.whole

theorem Follows.close (h : Follows start stream sub) (reason : TerminalCloseReason) :
    Follows start stream (sub.close reason) := by
  rw [TerminalSubscription.close]
  split_ifs
  · exact h
  · exact ⟨h.start_le, h.le_stop, h.laid, h.early, fun hopen => by cases hopen⟩

end Subscriptions

/-- The retained chunks are the end of the stream, within the bound, and every pushed subscription
follows the stream. -/
structure Retains (limits : OutputLimits) (start : ℕ) (s : OutputSession) : Prop where
  position : s.outputPosition = start + s.stream.length
  safe : s.outputPosition ≤ maxSafeInteger
  start_le : start ≤ s.replayFrom
  laid : LaidOut s.replayFrom s.replay.live s.outputPosition
  retained : content s.replay.live = s.stream.drop (s.replayFrom - start)
  maxBytes : s.replay.maxBytes = limits.maxReplayBytes
  retention : s.replay.retention = .withinBound
  bounded : (content s.replay.live).length ≤ limits.maxReplayBytes
  live : s.status = .running → s.exit = none
  named : ∀ (id : ℕ) (sub : TerminalSubscription), s.subscriptions[id]? = some sub →
    id < s.nextSubscription
  registered : ∀ (id : ℕ) (sub : TerminalSubscription), s.subscriptions[id]? = some sub →
    sub.closed = none → id ∈ s.subscribers
  follows : ∀ (id : ℕ) (sub : TerminalSubscription), s.subscriptions[id]? = some sub →
    sub.listener = true → Follows start s.stream sub

section Runs

variable {limits : OutputLimits} {start : ℕ} {s : OutputSession}

theorem Retains.opened (limits : OutputLimits) (identity : TerminalIdentity)
    (h : start ≤ maxSafeInteger) : Retains limits start (.opened limits identity start) where
  position := rfl
  safe := h
  start_le := Nat.le_refl _
  laid := rfl
  retained := by simp [OutputSession.opened, BoundedChunkQueue.create, content]
  maxBytes := rfl
  retention := rfl
  bounded := Nat.zero_le _
  live _ := rfl
  named id sub hsub := by simp [OutputSession.opened] at hsub
  registered id sub hsub := by simp [OutputSession.opened] at hsub
  follows id sub hsub := by simp [OutputSession.opened] at hsub

theorem deliverEvent_listener (outputPosition : ℕ) (sub : TerminalSubscription)
    (event : TerminalEvent) :
    (sub.deliverEvent outputPosition event).listener = sub.listener := by
  simp only [TerminalSubscription.deliverEvent, TerminalSubscription.deliver,
    TerminalSubscription.enqueue, TerminalSubscription.closeForOverflow]
  split_ifs <;> rfl

theorem deliverAll_get (s : OutputSession) (event : TerminalEvent) {id : ℕ}
    {sub : TerminalSubscription} (h : (s.deliverAll event).subscriptions[id]? = some sub) :
    ∃ was, s.subscriptions[id]? = some was ∧
      sub = if id ∈ s.subscribers then was.deliverEvent s.outputPosition event else was := by
  simp only [OutputSession.deliverAll, Table.get_mapValues] at h
  obtain ⟨was, hwas, heq⟩ := Option.map_eq_some_iff.mp h
  exact ⟨was, hwas, heq.symm⟩

theorem deliverEvent_open {outputPosition : ℕ} {sub : TerminalSubscription} {event : TerminalEvent}
    (h : (sub.deliverEvent outputPosition event).closed = none) : sub.closed = none := by
  rw [TerminalSubscription.deliverEvent] at h
  split_ifs at h with hclosed hlistener
  · exact h
  · exact h
  · exact Option.not_isSome_iff_eq_none.mp hclosed

theorem deliverAll_registered (h : ∀ (id : ℕ) (sub : TerminalSubscription),
      s.subscriptions[id]? = some sub → sub.closed = none → id ∈ s.subscribers)
    (event : TerminalEvent) {id : ℕ} {sub : TerminalSubscription}
    (hsub : (s.deliverAll event).subscriptions[id]? = some sub) (hopen : sub.closed = none) :
    id ∈ (s.deliverAll event).subscribers := by
  obtain ⟨was, hwas, heq⟩ := deliverAll_get s event hsub
  have hbefore : was.closed = none := by
    rw [heq] at hopen
    split_ifs at hopen
    · exact deliverEvent_open hopen
    · exact hopen
  simp only [OutputSession.deliverAll] at hsub ⊢
  refine List.mem_filter.mpr ⟨h id was hwas hbefore, ?_⟩
  rw [hsub, Option.any_some, hopen]
  rfl

theorem deliverAll_named (h : ∀ (id : ℕ) (sub : TerminalSubscription),
      s.subscriptions[id]? = some sub → id < s.nextSubscription) (event : TerminalEvent) :
    ∀ (id : ℕ) (sub : TerminalSubscription), (s.deliverAll event).subscriptions[id]? = some sub →
      id < s.nextSubscription := by
  intro id sub hsub
  obtain ⟨was, hwas, -⟩ := deliverAll_get s event hsub
  exact h id was hwas

theorem deliverAll_follows {before after : Bytes} (event : TerminalEvent)
    (hregistered : ∀ (id : ℕ) (sub : TerminalSubscription), s.subscriptions[id]? = some sub →
      sub.closed = none → id ∈ s.subscribers)
    (hfollows : ∀ (id : ℕ) (sub : TerminalSubscription), s.subscriptions[id]? = some sub →
      sub.listener = true → Follows start before sub)
    (hdeliver : ∀ sub : TerminalSubscription, sub.listener = true → Follows start before sub →
      Follows start after (sub.deliverEvent s.outputPosition event)) :
    ∀ (id : ℕ) (sub : TerminalSubscription), (s.deliverAll event).subscriptions[id]? = some sub →
      sub.listener = true → Follows start after sub := by
  intro id sub hsub hlistener
  obtain ⟨was, hwas, heq⟩ := deliverAll_get s event hsub
  have hsame : sub = was.deliverEvent s.outputPosition event := by
    rw [heq]
    split_ifs with hmem
    · rfl
    · -- A subscription that is not registered is closed, and takes no event.
      have hclosed : was.closed ≠ none := fun hopen => hmem (hregistered id was hwas hopen)
      rw [TerminalSubscription.deliverEvent, if_pos (Option.isSome_iff_ne_none.mpr hclosed)]
  rw [hsame, deliverEvent_listener] at hlistener
  rw [hsame]
  exact hdeliver was hlistener (hfollows id was hwas hlistener)

theorem Retains.appendPiece (h : Retains limits start s) (piece : Bytes) {nextPosition : ℕ}
    (hnext : checkedPositionAdd s.outputPosition piece.length = .ok nextPosition) :
    Retains limits start (s.appendPiece piece nextPosition) := by
  simp only [checkedPositionAdd, bind_ok, refuseIf_ok, pure_ok, Nat.not_lt] at hnext
  obtain ⟨_, hsafe, hstop⟩ := hnext
  let chunk : Chunk UInt8 := ⟨s.outputPosition, piece⟩
  obtain ⟨hlive, hmax, hretention⟩ := push_live s.replay chunk
  have hentered : LaidOut s.replayFrom (s.replay.live ++ [chunk]) nextPosition :=
    hstop ▸ h.laid.concat rfl
  rw [h.maxBytes, h.retention] at hlive
  obtain ⟨first, hle, hfirst, hlaid, hcontent, hhead⟩ := hentered.drop
    (BoundedChunkQueue.evictions limits.maxReplayBytes .withinBound (s.replay.live ++ [chunk])
      (content (s.replay.live ++ [chunk])).length)
  rw [← hlive] at hlaid hcontent hhead
  have hfrom : (((s.replay.push chunk).first.map Chunk.position).getD nextPosition) = first := by
    rw [BoundedChunkQueue.first]
    rcases hlist : (s.replay.push chunk).live with _ | ⟨c, cs⟩
    · rw [hlist] at hlaid
      exact hlaid.symm
    · rw [hlist] at hhead
      exact hhead c rfl
  have hwithin := evictions_within limits.maxReplayBytes (s.replay.live ++ [chunk])
  rw [← hlive] at hwithin
  have hlength := h.laid.length
  have hstart := h.start_le
  have hstream := h.position
  have hretained : content (s.replay.push chunk).live =
      (s.stream ++ piece).drop (first - start) := by
    have hdrop : s.replayFrom - start + (first - s.replayFrom) = first - start := by omega
    rw [hcontent, content_append, content_singleton, h.retained, ← drop_grown (by omega),
      List.drop_drop, hdrop]
  let grown : OutputSession := { s with
    outputPosition := nextPosition
    replay := s.replay.push chunk
    replayFrom := first
    stream := s.stream ++ piece }
  have hgrown : s.appendPiece piece nextPosition =
      grown.deliverAll (outputEvent chunk s.outputPosition false) := by
    rw [OutputSession.appendPiece]
    simp only [chunk] at hfrom
    simp only [hfrom, grown, chunk]
  rw [hgrown]
  constructor
  case position =>
    change nextPosition = start + (s.stream ++ piece).length
    rw [List.length_append]
    omega
  case safe =>
    change nextPosition ≤ maxSafeInteger
    omega
  case start_le => exact hstart.trans hle
  case laid => exact hlaid
  case retained => exact hretained
  case maxBytes => exact hmax.trans h.maxBytes
  case retention => exact hretention.trans h.retention
  case bounded => exact hwithin
  case live => exact h.live
  case named => exact deliverAll_named (s := grown) h.named _
  case registered =>
    exact fun id sub hsub => deliverAll_registered (s := grown) h.registered _ hsub
  case follows =>
    refine deliverAll_follows (s := grown) _ h.registered h.follows fun sub hlistener hsub => ?_
    have hnew := hsub.grow piece nextPosition hlistener
    rw [← h.position] at hnew
    exact hnew

theorem finished_status (reason : TerminalExitReason) :
    (if reason = .interrupted ∨ reason = .shutdown then TerminalSessionStatus.interrupted
      else TerminalSessionStatus.exited) ≠ .running := by
  split_ifs <;> exact TerminalSessionStatus.noConfusion

theorem Retains.finish (h : Retains limits start s) (reason : TerminalExitReason) :
    Retains limits start (s.finish reason) := by
  rw [OutputSession.finish]
  split_ifs with hexit
  · exact h
  · let interrupts := reason = .interrupted ∨ reason = .shutdown
    let ended : OutputSession := { s with
      exit := some reason
      status := if interrupts then .interrupted else .exited }
    change Retains limits start (ended.deliverAll (.exit reason))
    constructor
    case position => exact h.position
    case safe => exact h.safe
    case start_le => exact h.start_le
    case laid => exact h.laid
    case retained => exact h.retained
    case maxBytes => exact h.maxBytes
    case retention => exact h.retention
    case bounded => exact h.bounded
    case live => exact fun hrunning => absurd hrunning (finished_status reason)
    case named => exact deliverAll_named (s := ended) h.named _
    case registered =>
      exact fun id sub hsub => deliverAll_registered (s := ended) h.registered _ hsub
    case follows =>
      exact deliverAll_follows (s := ended) _ h.registered h.follows
        fun sub hlistener hsub => hsub.other rfl _ hlistener

structure Took (s s' : OutputSession) (outcome : Except Thrown Unit) (bytes : Bytes) : Prop where
  status : s'.status = s.status
  early : s'.stream <+: s.stream ++ bytes
  all : outcome = .ok () → s'.stream = s.stream ++ bytes
  exhausted : outcome ≠ .ok () → maxSafeInteger < s.outputPosition + bytes.length

theorem Retains.appendPieces (h : Retains limits start s) (pieces : List Bytes) :
    Retains limits start (s.appendPieces pieces).2 ∧
      Took s (s.appendPieces pieces).2 (s.appendPieces pieces).1 pieces.flatten := by
  induction pieces generalizing s with
  | nil =>
    refine ⟨h, rfl, ?_, fun _ => (List.append_nil _).symm, fun hne => absurd rfl hne⟩
    rw [List.flatten_nil, List.append_nil]
    exact List.prefix_rfl
  | cons piece rest ih =>
    rw [OutputSession.appendPieces]
    rcases hnext : checkedPositionAdd s.outputPosition piece.length with error | nextPosition
    · refine ⟨h, rfl, List.prefix_append _ _, (fun hok => by cases hok), fun _ => ?_⟩
      rw [checkedPositionAdd] at hnext
      have hover : maxSafeInteger < s.outputPosition + piece.length := by
        by_contra hle
        rw [refuseIf, if_neg hle] at hnext
        cases hnext
      rw [List.flatten_cons, List.length_append]
      omega
    · obtain ⟨hretains, htook⟩ := ih (h.appendPiece piece hnext)
      have hposition : (s.appendPiece piece nextPosition).outputPosition =
          s.outputPosition + piece.length := by
        simp only [checkedPositionAdd, bind_ok, pure_ok] at hnext
        obtain ⟨_, -, heq⟩ := hnext
        exact heq.symm
      have hstream : (s.appendPiece piece nextPosition).stream = s.stream ++ piece := rfl
      refine ⟨hretains, htook.status, ?_, fun hok => ?_, fun hne => ?_⟩
      · rw [List.flatten_cons, ← List.append_assoc, ← hstream]
        exact htook.early
      · rw [List.flatten_cons, ← List.append_assoc, ← hstream]
        exact htook.all hok
      · have hover := htook.exhausted hne
        rw [List.flatten_cons, List.length_append]
        omega

theorem finish_status (hlive : s.status = .running → s.exit = none) (reason : TerminalExitReason) :
    (s.finish reason).status ≠ .running := by
  rw [OutputSession.finish]
  split_ifs with hexit
  · intro hrunning
    rw [hlive hrunning] at hexit
    cases hexit
  · exact finished_status reason

theorem finish_stream (s : OutputSession) (reason : TerminalExitReason) :
    (s.finish reason).stream = s.stream := by
  rw [OutputSession.finish]
  split_ifs <;> rfl

structure Extends (s s' : OutputSession) (bytes : Bytes) (exits : Bool) : Prop where
  early : s'.stream <+: s.stream ++ bytes
  all : s'.status = .running → s.status = .running ∧ s'.stream = s.stream ++ bytes
  ended : s.status ≠ .running → s'.stream = s.stream
  still : s.status = .running → exits = false →
    s.outputPosition + bytes.length ≤ maxSafeInteger → s'.status = .running

theorem Retains.onData (h : Retains limits start s) (bytes : Bytes) :
    Retains limits start (s.onData limits bytes) ∧ Extends s (s.onData limits bytes) bytes false := by
  rw [OutputSession.onData, OutputSession.appendOutput]
  split_ifs with hskip
  · refine ⟨h, List.prefix_append _ _, fun hrunning => ?_, fun _ => rfl, fun hrunning _ _ => hrunning⟩
    have hempty : bytes = [] := hskip.resolve_right fun hne => hne hrunning
    rw [hempty, List.append_nil]
    exact ⟨hrunning, rfl⟩
  · obtain ⟨hretains, htook⟩ :=
      h.appendPieces (piecesOf limits.maxOutputChunkBytes bytes.length bytes)
    rw [piecesOf_join limits.maxOutputChunkBytes_pos _ _ (Nat.le_refl _)] at htook
    split
    · next error s' heq =>
      rw [heq] at hretains htook
      refine ⟨hretains.finish .spawnError, ?_, fun hrunning => ?_, fun hended => ?_, fun _ _ hle => ?_⟩
      · rw [finish_stream]
        exact htook.early
      · exact absurd hrunning (finish_status hretains.live .spawnError)
      · exact absurd (.inr hended) hskip
      · have hover := htook.exhausted (fun hok => by cases hok)
        omega
    · next s' heq =>
      rw [heq] at hretains htook
      refine ⟨hretains, htook.early, fun hrunning => ?_, fun hended => ?_, fun hrunning _ _ => ?_⟩
      · exact ⟨htook.status.symm.trans hrunning, htook.all rfl⟩
      · exact absurd (.inr hended) hskip
      · exact htook.status.trans hrunning

theorem outputEvent_initial (fromPosition : ℕ) (chunk : Chunk UInt8) :
    outputOf (outputEvent chunk (max fromPosition chunk.position) true) =
      some (chunk.after fromPosition) := by
  have hposition : max (max fromPosition chunk.position) chunk.position =
      max fromPosition chunk.position := Nat.max_eq_left (Nat.le_max_right _ _)
  have hdrop : max fromPosition chunk.position - chunk.position = fromPosition - chunk.position := by
    omega
  rw [outputEvent, outputOf, Chunk.after, Chunk.after, hposition, hdrop]

theorem outputs_initial (s : OutputSession) (fromPosition : ℕ) :
    outputs (s.initialEvents fromPosition) = cut fromPosition s.replay.live := by
  have hexit : outputs (s.exit.toList.map TerminalEvent.exit) = [] := by
    cases s.exit <;> rfl
  rw [OutputSession.initialEvents, outputs_append, hexit, List.append_nil, outputs, cut,
    List.filterMap_map]
  have hsame : outputOf ∘ (fun chunk => outputEvent chunk (max fromPosition chunk.position) true) =
      some ∘ Chunk.after fromPosition :=
    funext fun chunk => outputEvent_initial fromPosition chunk
  rw [hsame, List.filterMap_eq_map]

theorem begin_all (outputPosition : ℕ) (events : List TerminalEvent) (sub : TerminalSubscription)
    (hlistener : sub.listener = true) :
    (events.foldl (TerminalSubscription.begin outputPosition) sub).received =
        sub.received ++ events ∧
      (events.foldl (TerminalSubscription.begin outputPosition) sub).closed = sub.closed ∧
      (events.foldl (TerminalSubscription.begin outputPosition) sub).listener = sub.listener ∧
      (events.foldl (TerminalSubscription.begin outputPosition) sub).fromPosition =
        sub.fromPosition := by
  induction events generalizing sub with
  | nil => exact ⟨(List.append_nil _).symm, rfl, rfl, rfl⟩
  | cons event events ih =>
    rw [List.foldl_cons]
    have hbegin : TerminalSubscription.begin outputPosition sub event = sub.deliver event :=
      if_pos hlistener
    rw [hbegin]
    obtain ⟨hreceived, hclosed, hkept, hfrom⟩ := ih (sub.deliver event) hlistener
    refine ⟨hreceived.trans ?_, hclosed, hkept, hfrom⟩
    rw [TerminalSubscription.deliver, List.append_assoc]
    rfl

theorem begin_listener (outputPosition : ℕ) (events : List TerminalEvent)
    (sub : TerminalSubscription) :
    (events.foldl (TerminalSubscription.begin outputPosition) sub).listener = sub.listener := by
  induction events generalizing sub with
  | nil => rfl
  | cons event events ih =>
    rw [List.foldl_cons, ih]
    simp only [TerminalSubscription.begin, TerminalSubscription.deliver,
      TerminalSubscription.enqueue, TerminalSubscription.closeForOverflow]
    split_ifs <;> rfl

theorem checkSubscribe_ok {options : TerminalSubscriptionOptions} {fromPosition : ℕ}
    (h : s.checkSubscribe limits options = .ok fromPosition) :
    s.replayFrom ≤ fromPosition ∧ fromPosition ≤ s.outputPosition := by
  simp only [OutputSession.checkSubscribe, bind_ok, refuseIf_ok, pure_ok, Nat.not_lt] at h
  obtain ⟨_, -, _, -, given, -, _, hstop, _, hfrom, rfl⟩ := h
  exact ⟨hfrom, hstop⟩

theorem Retains.follows_initial (h : Retains limits start s) {fromPosition : ℕ}
    (hfrom : s.replayFrom ≤ fromPosition) (hstop : fromPosition ≤ s.outputPosition)
    {sub : TerminalSubscription} (hat : sub.fromPosition = fromPosition)
    (hreceived : sub.received = s.initialEvents fromPosition) : Follows start s.stream sub := by
  obtain ⟨hlaid, hcontent⟩ := h.laid.cut hfrom hstop
  have hstart := h.start_le
  have hposition := h.position
  have hdrop : s.replayFrom - start + (fromPosition - s.replayFrom) = fromPosition - start := by
    omega
  rw [h.retained, List.drop_drop, hdrop] at hcontent
  have houtputs : outputs sub.received = cut fromPosition s.replay.live := by
    rw [hreceived, outputs_initial]
  rw [hlaid.length] at hlaid
  constructor
  case start_le => omega
  case le_stop => omega
  case laid => rw [houtputs, hat]; exact hlaid
  case early => rw [houtputs, hat, hcontent]
  case whole => exact fun _ => by rw [houtputs, hat, hcontent]

theorem Retains.subscribe (h : Retains limits start s) (options : TerminalSubscriptionOptions) :
    Retains limits start (s.subscribe limits options).2 := by
  rw [OutputSession.subscribe]
  rcases hcheck : s.checkSubscribe limits options with error | fromPosition
  · exact h
  · obtain ⟨hfrom, hstop⟩ := checkSubscribe_ok hcheck
    let fresh : TerminalSubscription :=
      ⟨options.listener, fromPosition, options.maxQueuedBytes.getD limits.maxQueuedOutputBytes, [], 0,
        fromPosition, none, []⟩
    let sub := (s.initialEvents fromPosition).foldl
      (TerminalSubscription.begin s.outputPosition) fresh
    have hcases : ∀ {id : ℕ} {found : TerminalSubscription},
        (s.subscriptions.insert s.nextSubscription sub)[id]? = some found →
        id = s.nextSubscription ∧ found = sub ∨ s.subscriptions[id]? = some found := by
      intro id found hfound
      rw [Table.get_insert] at hfound
      split_ifs at hfound with heq
      · exact .inl ⟨heq.symm, (Option.some.inj hfound).symm⟩
      · exact .inr hfound
    constructor
    case position => exact h.position
    case safe => exact h.safe
    case start_le => exact h.start_le
    case laid => exact h.laid
    case retained => exact h.retained
    case maxBytes => exact h.maxBytes
    case retention => exact h.retention
    case bounded => exact h.bounded
    case live => exact h.live
    case named =>
      intro id found hfound
      rcases hcases hfound with ⟨rfl, -⟩ | hold
      · exact Nat.lt_succ_self _
      · exact Nat.lt_succ_of_lt (h.named id found hold)
    case registered =>
      intro id found hfound hopen
      dsimp only
      rcases hcases hfound with ⟨rfl, hsub⟩ | hold
      · rw [hsub] at hopen
        rw [if_pos (by rw [hopen]; rfl)]
        exact List.mem_append_right _ (List.mem_singleton.mpr rfl)
      · have hmem := h.registered id found hold hopen
        split_ifs
        · exact List.mem_append_left _ hmem
        · exact hmem
    case follows =>
      intro id found hfound hlistener
      rcases hcases hfound with ⟨-, hsub⟩ | hold
      · have hpush : fresh.listener = true := by
          rw [hsub, begin_listener] at hlistener
          exact hlistener
        obtain ⟨hreceived, -, -, hat⟩ :=
          begin_all s.outputPosition (s.initialEvents fromPosition) fresh hpush
        rw [hsub]
        exact h.follows_initial hfrom hstop hat (hreceived.trans (List.nil_append _))
      · exact h.follows id found hold hlistener

theorem Retains.update (h : Retains limits start s) (id : ℕ)
    {subscriptions : Table.Of ℕ TerminalSubscription} {subscribers : List ℕ}
    {f : TerminalSubscription → TerminalSubscription}
    (hget : ∀ (other : ℕ) (sub : TerminalSubscription), subscriptions[other]? = some sub →
      ∃ was, s.subscriptions[other]? = some was ∧
        (other ≠ id ∧ sub = was ∨ other = id ∧ sub = f was))
    (hlistener : ∀ sub, (f sub).listener = sub.listener)
    (hfollows : ∀ sub, Follows start s.stream sub → Follows start s.stream (f sub))
    (hregistered : ∀ (other : ℕ) (sub : TerminalSubscription), subscriptions[other]? = some sub →
      sub.closed = none → other ∈ subscribers) :
    Retains limits start { s with subscriptions, subscribers } where
  position := h.position
  safe := h.safe
  start_le := h.start_le
  laid := h.laid
  retained := h.retained
  maxBytes := h.maxBytes
  retention := h.retention
  bounded := h.bounded
  live := h.live
  named other sub hsub := by
    obtain ⟨was, hwas, -⟩ := hget other sub hsub
    exact h.named other was hwas
  registered := hregistered
  follows other sub hsub hpush := by
    obtain ⟨was, hwas, ⟨-, hsame⟩ | ⟨-, hchanged⟩⟩ := hget other sub hsub
    · exact hsame ▸ h.follows other was hwas (hsame ▸ hpush)
    · rw [hchanged, hlistener] at hpush
      exact hchanged ▸ hfollows was (h.follows other was hwas hpush)

theorem get_update_cases {t : Table.Of ℕ TerminalSubscription} {id other : ℕ}
    {f : TerminalSubscription → TerminalSubscription} {sub : TerminalSubscription}
    (h : (Table.update t id f)[other]? = some sub) :
    ∃ was, t[other]? = some was ∧ (other ≠ id ∧ sub = was ∨ other = id ∧ sub = f was) := by
  rw [Table.get_update] at h
  split_ifs at h with heq
  · obtain ⟨was, hwas, hsub⟩ := Option.map_eq_some_iff.mp h
    exact ⟨was, hwas, .inr ⟨heq.symm, hsub.symm⟩⟩
  · exact ⟨sub, h, .inl ⟨Ne.symm heq, rfl⟩⟩

theorem Retains.close (h : Retains limits start s) (id : ℕ) (reason : TerminalCloseReason) :
    Retains limits start (s.close id reason) := by
  refine h.update id (f := fun sub => sub.close reason) (fun other sub hsub => get_update_cases hsub)
    (fun sub => ?_) (fun sub hsub => hsub.close reason) fun other sub hsub hopen => ?_
  · rw [TerminalSubscription.close]
    split_ifs <;> rfl
  · obtain ⟨was, hwas, ⟨hne, hsame⟩ | ⟨-, hchanged⟩⟩ := get_update_cases hsub
    · rw [hsame] at hopen
      exact List.mem_filter.mpr ⟨h.registered other was hwas hopen, decide_eq_true hne⟩
    · rw [hchanged, TerminalSubscription.close] at hopen
      split_ifs at hopen with hclosed
      rw [hopen] at hclosed
      cases hclosed

theorem Retains.drain (h : Retains limits start s) (id : ℕ) : Retains limits start (s.drain id) := by
  refine h.update id (f := fun sub => sub.drain.2) (fun other sub hsub => get_update_cases hsub)
    (fun _ => rfl) (fun sub hsub => ⟨hsub.start_le, hsub.le_stop, hsub.laid, hsub.early, hsub.whole⟩)
    fun other sub hsub hopen => ?_
  obtain ⟨was, hwas, ⟨-, hsame⟩ | ⟨-, hchanged⟩⟩ := get_update_cases hsub
  · exact h.registered other was hwas (hsame ▸ hopen)
  · rw [hchanged] at hopen
    exact h.registered other was hwas hopen

theorem Retains.ack (h : Retains limits start s) (id : ℕ) (position : ℚ) :
    Retains limits start (s.ack id position).2 := by
  rw [OutputSession.ack]
  split
  · exact h
  · next given _ =>
    split
    · exact h
    · next sub hsub =>
      split_ifs
      · exact h
      · exact h
      · let queue := sub.queue.filter fun event =>
          match event with
          | .output _ nextPosition _ _ => decide (given < nextPosition)
          | _ => true
        let acked (was : TerminalSubscription) : TerminalSubscription :=
          { was with cursor := given, queue, queuedBytes := (queue.map eventBytes).sum }
        have hget : ∀ (other : ℕ) (found : TerminalSubscription),
            (s.subscriptions.insert id (acked sub))[other]? = some found →
            ∃ was, s.subscriptions[other]? = some was ∧
              (other ≠ id ∧ found = was ∨ other = id ∧ found = acked was) := by
          intro other found hfound
          rw [Table.get_insert] at hfound
          split_ifs at hfound with heq
          · cases hfound
            exact ⟨sub, heq ▸ hsub, .inr ⟨heq.symm, rfl⟩⟩
          · exact ⟨found, hfound, .inl ⟨Ne.symm heq, rfl⟩⟩
        refine h.update id hget (fun _ => rfl)
          (fun was hwas => ⟨hwas.start_le, hwas.le_stop, hwas.laid, hwas.early, hwas.whole⟩)
          fun other found hfound hopen => ?_
        obtain ⟨was, hwas, ⟨-, hsame⟩ | ⟨-, hchanged⟩⟩ := hget other found hfound
        · exact h.registered other was hwas (hsame ▸ hopen)
        · rw [hchanged] at hopen
          exact h.registered other was hwas hopen

theorem Retains.step (h : Retains limits start s) (input : OutputInput) :
    Retains limits start (s.step limits input) := by
  cases input with
  | data bytes => exact (h.onData bytes).1
  | exit reason => exact h.finish reason
  | subscribe options => exact h.subscribe options
  | close id reason => exact h.close id reason
  | drain id => exact h.drain id
  | ack id position => exact h.ack id position

def OutputInput.bytes : OutputInput → Bytes
  | .data bytes => bytes
  | _ => []

def OutputInput.exits : OutputInput → Bool
  | .exit _ => true
  | _ => false

theorem subscribe_same (limits : OutputLimits) (s : OutputSession)
    (options : TerminalSubscriptionOptions) : (s.subscribe limits options).2.stream = s.stream ∧
      (s.subscribe limits options).2.status = s.status := by
  rw [OutputSession.subscribe]
  split <;> exact ⟨rfl, rfl⟩

theorem ack_same (s : OutputSession) (id : ℕ) (position : ℚ) :
    (s.ack id position).2.stream = s.stream ∧ (s.ack id position).2.status = s.status := by
  rw [OutputSession.ack]
  split
  · exact ⟨rfl, rfl⟩
  · split
    · exact ⟨rfl, rfl⟩
    · split_ifs <;> exact ⟨rfl, rfl⟩

theorem Extends.same {s' : OutputSession} (hstream : s'.stream = s.stream)
    (hstatus : s'.status = s.status) : Extends s s' [] false where
  early := by rw [hstream, List.append_nil]
  all hrunning := ⟨hstatus ▸ hrunning, hstream.trans (List.append_nil _).symm⟩
  ended _ := hstream
  still hrunning _ _ := hstatus.trans hrunning

theorem Retains.grows (h : Retains limits start s) (input : OutputInput) :
    Extends s (s.step limits input) input.bytes input.exits := by
  cases input with
  | data bytes => exact (h.onData bytes).2
  | exit reason =>
    refine ⟨?_, fun hrunning => ?_, fun _ => finish_stream s reason, fun _ hexits => by cases hexits⟩
    · rw [OutputSession.step, finish_stream]
      exact List.prefix_append _ _
    · exact absurd hrunning (finish_status h.live reason)
  | subscribe options =>
    exact .same (subscribe_same limits s options).1 (subscribe_same limits s options).2
  | close id reason => exact .same rfl rfl
  | drain id => exact .same rfl rfl
  | ack id position => exact .same (ack_same s id position).1 (ack_same s id position).2

def delivered (inputs : List OutputInput) : Bytes := inputs.flatMap OutputInput.bytes

theorem Retains.run (h : Retains limits start s) (inputs : List OutputInput) :
    Retains limits start (Runs.after (OutputSession.step limits) s inputs) :=
  Runs.invariant (fun _ input hs => hs.step input) h inputs

theorem stream_delivered (h : Retains limits start s) (hempty : s.stream = [])
    (hrunning : s.status = .running) (inputs : List OutputInput) :
    let s' := Runs.after (OutputSession.step limits) s inputs
    s'.stream <+: delivered inputs ∧ (s'.status = .running → s'.stream = delivered inputs) ∧
    ((∀ input ∈ inputs, input.exits = false) →
      start + (delivered inputs).length ≤ maxSafeInteger → s'.status = .running) := by
  induction inputs using List.reverseRecOn with
  | nil => exact ⟨by rw [Runs.after, List.foldl_nil, hempty]; exact List.prefix_rfl, fun _ => hempty,
      fun _ _ => hrunning⟩
  | append_singleton inputs input ih =>
    obtain ⟨hearly, hall, hstill⟩ := ih
    have hextends := (h.run inputs).grows input
    have hposition := (h.run inputs).position
    have hdelivered : delivered (inputs ++ [input]) = delivered inputs ++ input.bytes := by
      rw [delivered, List.flatMap_append, List.flatMap_singleton]
      rfl
    have hsame : Runs.after (OutputSession.step limits) s (inputs ++ [input]) =
        (Runs.after (OutputSession.step limits) s inputs).step limits input :=
      Runs.after_append _ _ _ _
    rw [hsame, hdelivered]
    refine ⟨?_, fun hafter => ?_, fun hexits hsafe => ?_⟩
    · by_cases hbefore : (Runs.after (OutputSession.step limits) s inputs).status = .running
      · rw [← hall hbefore]
        exact hextends.early
      · rw [hextends.ended hbefore]
        exact hearly.trans (List.prefix_append _ _)
    · obtain ⟨hbefore, hstream⟩ := hextends.all hafter
      rw [hstream, hall hbefore]
    · rw [List.length_append] at hsafe
      have hbefore := hstill (fun i hi => hexits i (List.mem_append_left _ hi)) (by omega)
      refine hextends.still hbefore (hexits input (by simp)) ?_
      rw [hposition, hall hbefore]
      omega

end Runs

section Reads

variable {limits : OutputLimits} {start : ℕ} {s : OutputSession}

theorem isSafeInteger_nat {n : ℕ} (h : n ≤ maxSafeInteger) : isSafeInteger (n : ℚ) = true :=
  decide_eq_true ⟨Rat.den_natCast n, by rw [Rat.num_natCast, Int.natAbs_natCast]; exact h⟩

theorem givenPosition_nat {n : ℕ} (h : n ≤ maxSafeInteger) : givenPosition (n : ℚ) = .ok n := by
  have hvalid : validatePosition (n : ℚ) = .ok () := by
    rw [validatePosition, refuseIf_ok, isSafeInteger_nat h, not_or]
    exact ⟨Bool.noConfusion, not_lt.mpr (Nat.cast_nonneg n)⟩
  rw [givenPosition, hvalid]
  simp [bind, Except.bind, pure, Except.pure]

theorem boundedReadBytes_nat {n maximum : ℕ} (hpos : 0 < n) (hle : n ≤ maximum)
    (hsafe : maximum ≤ maxSafeInteger) : boundedReadBytes (n : ℚ) maximum = .ok n := by
  have hallowed : ¬ (isSafeInteger (n : ℚ) = false ∨ (n : ℚ) ≤ 0 ∨ (maximum : ℚ) < n) := by
    rw [isSafeInteger_nat (hle.trans hsafe), not_or, not_or]
    exact ⟨Bool.noConfusion, not_le.mpr (Nat.cast_pos.mpr hpos),
      not_lt.mpr (Nat.cast_le.mpr hle)⟩
  rw [boundedReadBytes, refuseIf, if_neg hallowed]
  simp [bind, Except.bind, pure, Except.pure]

def streamRead (start : ℕ) (s : OutputSession) (requested bound : ℕ) :
    TerminalRetainedOutputRead :=
  let fromPosition := max requested s.replayFrom
  let nextPosition := min (fromPosition + bound) s.outputPosition
  { requestedFromPosition := requested
    fromPosition
    nextPosition
    replayFrom := s.replayFrom
    outputPosition := s.outputPosition
    historyLost := requested < s.replayFrom
    droppedBytes := s.replayFrom - requested
    hasMore := nextPosition < s.outputPosition
    bytes := slice start s.stream fromPosition nextPosition }

theorem Retains.readReplayBytes (h : Retains limits start s) {fromPosition : ℕ}
    (hfrom : s.replayFrom ≤ fromPosition) (hstop : fromPosition ≤ s.outputPosition) (bound : ℕ) :
    Terminal.readReplayBytes fromPosition s.replay.live bound =
      slice start s.stream fromPosition (min (fromPosition + bound) s.outputPosition) := by
  obtain ⟨-, hcontent⟩ := h.laid.cut hfrom hstop
  have hstart := h.start_le
  have hposition := h.position
  have hdrop : s.replayFrom - start + (fromPosition - s.replayFrom) = fromPosition - start := by
    omega
  rw [readReplayBytes_eq, hcontent, h.retained, List.drop_drop, hdrop, slice, List.take_eq_take_iff,
    List.length_drop]
  omega

theorem Retains.read (h : Retains limits start s) {authorization : Option TerminalAuthorization}
    (hauthorized : authorize s.identity authorization .read = .ok ()) {bound : ℕ} (hpos : 0 < bound)
    (hbound : bound ≤ limits.maxReplayBytes) {requested : ℕ}
    (hstop : requested ≤ s.outputPosition) :
    s.readRetainedOutput limits ⟨authorization, some requested, bound⟩ =
      .ok (streamRead start s requested bound) := by
  have hlength := h.laid.length
  have hsafe := h.safe
  have hposition := h.position
  have hlast : max requested s.replayFrom ≤ s.outputPosition := Nat.max_le.mpr ⟨hstop, by omega⟩
  have hstart : start ≤ max requested s.replayFrom := h.start_le.trans (Nat.le_max_right _ _)
  have hbytes := h.readReplayBytes (Nat.le_max_right requested s.replayFrom) hlast bound
  let nextPosition := min (max requested s.replayFrom + bound) s.outputPosition
  have hwithin : nextPosition ≤ start + s.stream.length := hposition ▸ Nat.min_le_right _ _
  have hnext : (slice start s.stream (max requested s.replayFrom) nextPosition).length =
      nextPosition - max requested s.replayFrom := slice_length hstart hwithin
  have hfrom : (if decide (requested < s.replayFrom) = true then s.replayFrom else requested) =
      max requested s.replayFrom := by
    simp only [decide_eq_true_eq]
    split_ifs with hlost
    · exact (Nat.max_eq_right (Nat.le_of_lt hlost)).symm
    · exact (Nat.max_eq_left (Nat.le_of_not_lt hlost)).symm
  have hdropped : (if decide (requested < s.replayFrom) = true then s.replayFrom - requested else 0) =
      s.replayFrom - requested := by
    simp only [decide_eq_true_eq]
    split_ifs <;> omega
  have hadd : checkedPositionAdd (max requested s.replayFrom)
      (slice start s.stream (max requested s.replayFrom) nextPosition).length = .ok nextPosition := by
    have hsum : max requested s.replayFrom + (nextPosition - max requested s.replayFrom) =
        nextPosition := by omega
    rw [checkedPositionAdd, hnext, hsum, refuseIf, if_neg (by omega)]
    rfl
  rw [OutputSession.readRetainedOutput, hauthorized,
    boundedReadBytes_nat hpos hbound limits.maxReplayBytes_safe]
  simp only [Option.getD_some, givenPosition_nat (hstop.trans hsafe), bind, Except.bind, refuseIf,
    if_neg (Nat.not_lt.mpr hstop), hfrom, hdropped, hbytes]
  simp only [nextPosition] at hadd
  rw [hadd]
  rfl

theorem subscribe_opens {authorization : Option TerminalAuthorization}
    (hauthorized : authorize s.identity authorization .read = .ok ())
    (hroom : s.subscribers.length < limits.maxSubscribersPerSession) {fromPosition : ℕ}
    (hfrom : s.replayFrom ≤ fromPosition) (hstop : fromPosition ≤ s.outputPosition)
    (hsafe : s.outputPosition ≤ maxSafeInteger) (maxQueuedBytes : Option ℚ) :
    let opened := s.subscribe limits ⟨authorization, some fromPosition, true, maxQueuedBytes⟩
    opened.1 = .ok s.nextSubscription ∧ ∃ sub, opened.2.subscriptions[s.nextSubscription]? = some sub ∧
      sub.listener = true ∧ sub.fromPosition = fromPosition ∧ sub.closed = none := by
  have hcheck : s.checkSubscribe limits ⟨authorization, some fromPosition, true, maxQueuedBytes⟩ =
      .ok fromPosition := by
    rw [OutputSession.checkSubscribe, hauthorized]
    simp only [Option.getD_some, givenPosition_nat (hstop.trans hsafe), bind, Except.bind, refuseIf,
      if_neg (Nat.not_le.mpr hroom), if_neg (Nat.not_lt.mpr hstop), if_neg (Nat.not_lt.mpr hfrom)]
    rfl
  let fresh : TerminalSubscription :=
    ⟨true, fromPosition, maxQueuedBytes.getD limits.maxQueuedOutputBytes, [], 0, fromPosition, none,
      []⟩
  obtain ⟨-, hclosed, hlistener, hat⟩ :=
    begin_all s.outputPosition (s.initialEvents fromPosition) fresh rfl
  simp only [OutputSession.subscribe, hcheck]
  exact ⟨trivial, _, Std.ExtTreeMap.getElem?_insert_self, hlistener, hat, hclosed⟩

end Reads

structure Streams (limits : OutputLimits) (start : ℕ) (inputs : List OutputInput)
    (s : OutputSession) : Prop where
  position : s.outputPosition = start + s.stream.length
  early : s.stream <+: delivered inputs
  all : s.status = .running → s.stream = delivered inputs
  runs : (∀ input ∈ inputs, input.exits = false) →
    start + (delivered inputs).length ≤ maxSafeInteger → s.status = .running
  replayFrom : start ≤ s.replayFrom ∧ s.replayFrom ≤ s.outputPosition
  retained : content s.replay.live = slice start s.stream s.replayFrom s.outputPosition
  bounded : (content s.replay.live).length ≤ limits.maxReplayBytes
  read : ∀ (authorization : Option TerminalAuthorization) (requested bound : ℕ),
    authorize s.identity authorization .read = .ok () → 0 < bound → bound ≤ limits.maxReplayBytes →
    requested ≤ s.outputPosition →
    s.readRetainedOutput limits ⟨authorization, some requested, bound⟩ =
      .ok (streamRead start s requested bound)
  opens : ∀ (authorization : Option TerminalAuthorization) (fromPosition : ℕ)
    (maxQueuedBytes : Option ℚ), authorize s.identity authorization .read = .ok () →
    s.subscribers.length < limits.maxSubscribersPerSession → s.replayFrom ≤ fromPosition →
    fromPosition ≤ s.outputPosition →
    let opened := s.subscribe limits ⟨authorization, some fromPosition, true, maxQueuedBytes⟩
    opened.1 = .ok s.nextSubscription ∧ ∃ sub, opened.2.subscriptions[s.nextSubscription]? = some sub ∧
      sub.listener = true ∧ sub.fromPosition = fromPosition ∧ sub.closed = none
  follows : ∀ (id : ℕ) (sub : TerminalSubscription), s.subscriptions[id]? = some sub →
    sub.listener = true → Follows start s.stream sub

theorem output_runs (limits : OutputLimits) (identity : TerminalIdentity) {start : ℕ}
    (hstart : start ≤ maxSafeInteger) (inputs : List OutputInput) :
    Streams limits start inputs
      (Runs.after (OutputSession.step limits) (.opened limits identity start) inputs) := by
  have hopened := Retains.opened limits identity hstart
  have hretains := hopened.run inputs
  obtain ⟨hearly, hall, hruns⟩ := stream_delivered hopened rfl rfl inputs
  have hlength := hretains.laid.length
  have hposition := hretains.position
  constructor
  case position => exact hposition
  case early => exact hearly
  case all => exact hall
  case runs => exact hruns
  case replayFrom => exact ⟨hretains.start_le, by omega⟩
  case retained =>
    have hstop := hretains.start_le
    rw [hretains.retained, slice, List.take_of_length_le]
    rw [List.length_drop]
    omega
  case bounded => exact hretains.bounded
  case read =>
    intro authorization requested bound hauthorized hpos hbound hstop
    exact hretains.read hauthorized hpos hbound hstop
  case opens =>
    intro authorization fromPosition maxQueuedBytes hauthorized hroom hfrom hstop
    exact subscribe_opens hauthorized hroom hfrom hstop hretains.safe maxQueuedBytes
  case follows => exact hretains.follows

def outputLimits : OutputLimits := ⟨2, 4, 16, 2, Nat.two_pos, by decide, by decide⟩

def heldTerminal : TerminalIdentity := ⟨js "srv", js "p", js "s1"⟩

def pushFrom (position : ℚ) : OutputInput := .subscribe ⟨none, some position, true, none⟩

def adoptedOutput : List OutputInput :=
  [.data [1, 2, 3], .data [4, 5, 6], pushFrom 14, .data [7]]

theorem adopted_output_streams :
    Streams outputLimits 10 adoptedOutput
      (Runs.after (OutputSession.step outputLimits) (.opened outputLimits heldTerminal 10)
        adoptedOutput) :=
  output_runs outputLimits heldTerminal (by decide) adoptedOutput

/-- A session adopted at the last position ends instead of taking a byte. -/
theorem last_position_ends :
    ¬ ∀ (start : ℕ), start ≤ maxSafeInteger → ∀ inputs : List OutputInput,
      (Runs.after (OutputSession.step outputLimits) (.opened outputLimits heldTerminal start)
        inputs).outputPosition = start + (delivered inputs).length := by
  intro h
  have hextends := h maxSafeInteger (Nat.le_refl _) [.data [97]]
  exact absurd hextends (by decide +kernel)

end Terminay.Terminal
