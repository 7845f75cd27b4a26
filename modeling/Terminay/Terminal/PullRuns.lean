import Terminay.Terminal.PullQueue

/-!
# Runs of a pull subscription

What a reader drains follows its position without a gap until its queue overflows, and is then one
skip from the acknowledged cursor to the end of the output.
-/

namespace Terminay.Terminal
open Script Outcome Chunks

def OutputInput.moments (limits : OutputLimits) : OutputInput → List OutputInput
  | .data bytes => (piecesOf limits.maxOutputChunkBytes bytes.length bytes).map .data
  | input => [input]

def OutputInput.Single (limits : OutputLimits) (input : OutputInput) : Prop :=
  input.bytes.length ≤ limits.maxOutputChunkBytes

namespace OutputSession

def queueOf (s : OutputSession) (id : ℕ) : List TerminalEvent :=
  (s.subscriptions[id]?.map TerminalSubscription.queue).getD []

def presents (id : ℕ) (s : OutputSession) : OutputInput → List TerminalEvent
  | .drain other => if other = id then s.queueOf id else []
  | _ => []

def acknowledges (id : ℕ) (s : OutputSession) : OutputInput → List TerminalEvent
  | .ack other position =>
    match givenPosition position, s.subscriptions[id]? with
    | .ok given, some sub =>
      if other = id ∧ sub.cursor ≤ given ∧ given ≤ s.outputPosition then
        sub.queue.filter (endsBy given)
      else []
    | _, _ => []
  | _ => []

def consumes (id : ℕ) (s : OutputSession) (input : OutputInput) : List TerminalEvent :=
  s.presents id input ++ s.acknowledges id input

end OutputSession

section Runs
variable (limits : OutputLimits) (id : ℕ)

def presented (s : OutputSession) (inputs : List OutputInput) : List TerminalEvent :=
  Runs.trace (OutputSession.step limits) (OutputSession.presents id) s inputs

def consumed (s : OutputSession) (inputs : List OutputInput) : List TerminalEvent :=
  Runs.trace (OutputSession.step limits) (OutputSession.consumes id) s inputs

variable {limits id} {start : ℕ} {s : OutputSession}

/-! ## Single steps -/

theorem piecesOf_piece {max : ℕ} (hmax : 0 < max) (fuel : ℕ) (bytes : Bytes) :
    ∀ piece ∈ piecesOf max fuel bytes, piece ≠ [] ∧ piece.length ≤ max := by
  induction fuel generalizing bytes with
  | zero => exact (fun _ h => by cases h)
  | succ fuel ih =>
    rw [piecesOf]
    split_ifs with hempty
    · exact (by simp)
    · intro piece hpiece
      rcases List.mem_cons.mp hpiece with rfl | hrest
      · refine ⟨fun hnil => ?_, List.length_take_le _ _⟩
        rcases List.take_eq_nil_iff.mp hnil with hzero | hnone
        · omega
        · exact hempty hnone
      · exact ih _ piece hrest

theorem piecesOf_single {max : ℕ} {bytes : Bytes} (hne : bytes ≠ []) (hle : bytes.length ≤ max) :
    piecesOf max bytes.length bytes = [bytes] := by
  obtain ⟨n, hn⟩ := Nat.exists_eq_succ_of_ne_zero (List.length_pos_iff.mpr hne).ne'
  rw [hn, piecesOf, if_neg hne, List.take_of_length_le hle, List.drop_eq_nil_of_le hle]
  cases n <;> rfl

theorem onData_skip {bytes : Bytes} (h : bytes = [] ∨ s.status ≠ .running) :
    s.onData limits bytes = s := by
  rw [OutputSession.onData, OutputSession.appendOutput, if_pos h]

theorem onData_single {bytes : Bytes} (hne : bytes ≠ []) (hrunning : s.status = .running)
    (hle : bytes.length ≤ limits.maxOutputChunkBytes) :
    s.onData limits bytes = match checkedPositionAdd s.outputPosition bytes.length with
      | .error _ => s.finish .spawnError
      | .ok nextPosition => s.appendPiece bytes nextPosition := by
  have hskip : ¬(bytes = [] ∨ s.status ≠ .running) := by
    rintro (hnil | hended)
    · exact hne hnil
    · exact hended hrunning
  rw [OutputSession.onData, OutputSession.appendOutput, if_neg hskip, piecesOf_single hne hle,
    OutputSession.appendPieces]
  cases checkedPositionAdd s.outputPosition bytes.length <;> rfl

theorem after_ended (hended : s.status ≠ .running) (pieces : List Bytes) :
    Runs.after (OutputSession.step limits) s (pieces.map .data) = s := by
  induction pieces with
  | nil => rfl
  | cons piece rest ih =>
    have hstep : s.step limits (.data piece) = s := onData_skip (.inr hended)
    rw [List.map_cons, Runs.after, List.foldl_cons, hstep]
    exact ih

theorem after_pieces (h : Retains limits start s) (hrunning : s.status = .running)
    {pieces : List Bytes}
    (hpieces : ∀ piece ∈ pieces, piece ≠ [] ∧ piece.length ≤ limits.maxOutputChunkBytes) :
    Runs.after (OutputSession.step limits) s (pieces.map .data) = match s.appendPieces pieces with
      | (.error _, ended) => ended.finish .spawnError
      | (.ok (), grown) => grown := by
  induction pieces generalizing s with
  | nil => rfl
  | cons piece rest ih =>
    obtain ⟨hne, hle⟩ := hpieces piece List.mem_cons_self
    have hstep : s.step limits (.data piece) = s.onData limits piece := rfl
    rw [List.map_cons, Runs.after, List.foldl_cons, hstep, onData_single hne hrunning hle,
      OutputSession.appendPieces]
    cases hnext : checkedPositionAdd s.outputPosition piece.length with
    | error error => exact after_ended (finish_status h.live .spawnError) rest
    | ok nextPosition =>
      exact ih (h.appendPiece piece hnext) hrunning fun p hp => hpieces p (List.mem_cons_of_mem _ hp)

theorem after_moments (h : Retains limits start s) (input : OutputInput) :
    Runs.after (OutputSession.step limits) s (input.moments limits) = s.step limits input := by
  cases input with
  | data bytes =>
    rw [OutputInput.moments, OutputSession.step]
    by_cases hskip : bytes = [] ∨ s.status ≠ .running
    · rw [onData_skip hskip]
      rcases hskip with rfl | hended
      · rfl
      · exact after_ended hended _
    · rw [not_or, not_not] at hskip
      rw [after_pieces h hskip.2 (piecesOf_piece limits.maxOutputChunkBytes_pos _ _),
        OutputSession.onData, OutputSession.appendOutput,
        if_neg (not_or.mpr ⟨hskip.1, not_not.mpr hskip.2⟩)] <;> rfl
  | _ => rfl

theorem after_all_moments (h : Retains limits start s) (inputs : List OutputInput) :
    Runs.after (OutputSession.step limits) s (inputs.flatMap (OutputInput.moments limits)) =
      Runs.after (OutputSession.step limits) s inputs := by
  induction inputs generalizing s with
  | nil => rfl
  | cons input inputs ih =>
    rw [List.flatMap_cons, Runs.after_append, after_moments h]
    exact ih (h.step input)

theorem moments_single (input : OutputInput) : ∀ moment ∈ input.moments limits, moment.Single limits := by
  intro moment hm
  cases input with
  | data bytes =>
    obtain ⟨piece, hp, rfl⟩ := List.mem_map.mp hm
    exact (piecesOf_piece limits.maxOutputChunkBytes_pos _ _ piece hp).2
  | _ =>
    rw [List.mem_singleton.mp hm]
    exact Nat.zero_le _

/-! ## What a step does to one subscription -/

/-- All that a single step can do to a subscription. -/
inductive Touch (s s' : OutputSession) (id : ℕ) (sub : TerminalSubscription) :
    OutputInput → TerminalSubscription → Prop
  | still (input : OutputInput) (hposition : s'.outputPosition = s.outputPosition)
    (hpresents : s.presents id input = []) (hacknowledges : s.acknowledges id input = []) :
    Touch s s' id sub input sub
  | output (bytes : Bytes) (hposition : s'.outputPosition = s.outputPosition + bytes.length) :
    Touch s s' id sub (.data bytes) (sub.deliverEvent s'.outputPosition
      (.output s.outputPosition s'.outputPosition bytes false))
  | exit (input : OutputInput) (hposition : s'.outputPosition = s.outputPosition)
    (hpresents : s.presents id input = []) (hacknowledges : s.acknowledges id input = [])
    (hclose : ∀ reason, input ≠ .close id reason) (reason : TerminalExitReason) :
    Touch s s' id sub input (sub.deliverEvent s.outputPosition (.exit reason))
  | close (hposition : s'.outputPosition = s.outputPosition) (reason : TerminalCloseReason) :
    Touch s s' id sub (.close id reason) (sub.close reason)
  | drain (hposition : s'.outputPosition = s.outputPosition) :
    Touch s s' id sub (.drain id) sub.drain.2
  | ack (hposition : s'.outputPosition = s.outputPosition) (position : ℚ) (given queuedBytes : ℕ)
    (hacknowledges : s.acknowledges id (.ack id position) = sub.queue.filter (endsBy given)) :
    Touch s s' id sub (.ack id position) { sub with
      cursor := given
      queue := sub.queue.filter fun event => !endsBy given event
      queuedBytes := queuedBytes }

variable {sub : TerminalSubscription}

theorem deliverAll_touch {event : TerminalEvent}
    (hregistered : sub.closed = none → id ∈ s.subscribers) (hget : s.subscriptions[id]? = some sub) :
    (s.deliverAll event).subscriptions[id]? = some (sub.deliverEvent s.outputPosition event) := by
  simp only [OutputSession.deliverAll, Table.get_mapValues, hget, Option.map_some]
  split_ifs with hmem
  · rfl
  · have hclosed : sub.closed ≠ none := fun hopen => hmem (hregistered hopen)
    rw [TerminalSubscription.deliverEvent, if_pos (Option.isSome_iff_ne_none.mpr hclosed)]

theorem finish_touch (h : Retains limits start s) (hget : s.subscriptions[id]? = some sub)
    (reason : TerminalExitReason) {input : OutputInput} (hpresents : s.presents id input = [])
    (hacknowledges : s.acknowledges id input = []) (hclose : ∀ reason, input ≠ .close id reason) :
    ∃ sub', (s.finish reason).subscriptions[id]? = some sub' ∧
      Touch s (s.finish reason) id sub input sub' := by
  rw [OutputSession.finish]
  split_ifs
  · exact ⟨sub, hget, .still input rfl hpresents hacknowledges⟩
  · refine ⟨sub.deliverEvent s.outputPosition (.exit reason),
      deliverAll_touch (h.registered id sub hget) hget, ?_⟩
    refine .exit input ?_ hpresents hacknowledges hclose reason
    rfl

theorem data_touch (h : Retains limits start s) (hget : s.subscriptions[id]? = some sub)
    {bytes : Bytes} (hle : bytes.length ≤ limits.maxOutputChunkBytes) :
    ∃ sub', (s.onData limits bytes).subscriptions[id]? = some sub' ∧
      Touch s (s.onData limits bytes) id sub (.data bytes) sub' := by
  by_cases hskip : bytes = [] ∨ s.status ≠ .running
  · rw [onData_skip hskip]
    exact ⟨sub, hget, .still _ rfl rfl rfl⟩
  · rw [not_or, not_not] at hskip
    rw [onData_single hskip.1 hskip.2 hle]
    cases hnext : checkedPositionAdd s.outputPosition bytes.length with
    | error error => exact finish_touch h hget .spawnError rfl rfl nofun
    | ok nextPosition =>
      simp only [checkedPositionAdd, bind_ok, pure_ok] at hnext
      obtain ⟨_, -, hstop⟩ := hnext
      have hevent : outputEvent ⟨s.outputPosition, bytes⟩ s.outputPosition false =
          .output s.outputPosition nextPosition bytes false := by
        let chunk : Chunk UInt8 := ⟨s.outputPosition, bytes⟩
        have hwhole : chunk.after s.outputPosition = chunk := after_early chunk (Nat.le_refl _)
        rw [outputEvent, hwhole, ← hstop]
        rfl
      have hposition : (s.appendPiece bytes nextPosition).outputPosition = nextPosition := rfl
      refine ⟨sub.deliverEvent nextPosition (.output s.outputPosition nextPosition bytes false), ?_, ?_⟩
      · dsimp only
        rw [OutputSession.appendPiece, ← hevent]
        exact deliverAll_touch (h.registered id sub hget) hget
      · have htouch : Touch s (s.appendPiece bytes nextPosition) id sub (.data bytes) _ :=
          .output bytes (hposition.trans hstop.symm)
        rw [hposition] at htouch
        exact htouch

theorem update_touch {f : TerminalSubscription → TerminalSubscription}
    (hget : s.subscriptions[id]? = some sub) (other : ℕ) :
    (Table.update s.subscriptions other f)[id]? = some (if other = id then f sub else sub) := by
  rw [Table.get_update, hget]
  split_ifs <;> rfl

theorem ack_touch (hget : s.subscriptions[id]? = some sub) (other : ℕ) (position : ℚ) :
    ∃ sub', (s.ack other position).2.subscriptions[id]? = some sub' ∧
      Touch s (s.ack other position).2 id sub (.ack other position) sub' := by
  rw [OutputSession.ack]
  cases hgiven : givenPosition position with
  | error error =>
    refine ⟨sub, hget, .still _ rfl rfl ?_⟩
    rw [OutputSession.acknowledges, hgiven]
  | ok given =>
    by_cases hsame : other = id
    · subst hsame
      rw [hget]
      dsimp only
      split_ifs with hold hahead
      · refine ⟨sub, hget, .still _ rfl rfl ?_⟩
        rw [OutputSession.acknowledges, hgiven, hget]
        exact if_neg fun hfits => absurd hfits.2.1 (Nat.not_le.mpr hold)
      · refine ⟨sub, hget, .still _ rfl rfl ?_⟩
        rw [OutputSession.acknowledges, hgiven, hget]
        exact if_neg fun hfits => absurd hfits.2.2 (Nat.not_le.mpr hahead)
      · have hkept : ∀ keep : TerminalEvent → Bool,
            (∀ event ∈ sub.queue, keep event = !endsBy given event) →
            sub.queue.filter keep = sub.queue.filter fun event => !endsBy given event :=
          fun keep hkeep => List.filter_congr hkeep
        rw [hkept]
        · refine ⟨_, Std.ExtTreeMap.getElem?_insert_self, .ack ?_ position given _ ?_⟩
          · rfl
          · rw [OutputSession.acknowledges, hgiven, hget]
            exact if_pos ⟨rfl, Nat.not_lt.mp hold, Nat.not_lt.mp hahead⟩
        · intro event _
          cases event with
          | output first nextPosition bytes replay =>
            rw [endsBy, TerminalSubscription.outputEnd, Option.any_some, ← decide_not]
            exact decide_eq_decide.mpr Nat.not_le.symm
          | exit reason => rfl
          | skip fromPosition toPosition => rfl
    · have hother : s.acknowledges id (.ack other position) = [] := by
        rw [OutputSession.acknowledges, hgiven, hget]
        exact if_neg fun hfits => hsame hfits.1
      dsimp only
      cases hfound : s.subscriptions[other]? with
      | none => exact ⟨sub, hget, .still _ rfl rfl hother⟩
      | some found =>
        dsimp only
        split_ifs
        · exact ⟨sub, hget, .still _ rfl rfl hother⟩
        · exact ⟨sub, hget, .still _ rfl rfl hother⟩
        · refine ⟨sub, ?_, .still _ rfl rfl hother⟩
          dsimp only
          rw [Table.get_insert_of_ne _ _ hsame, hget]

theorem step_touch (h : Retains limits start s) (hget : s.subscriptions[id]? = some sub)
    {input : OutputInput} (hsingle : input.Single limits) :
    ∃ sub', (s.step limits input).subscriptions[id]? = some sub' ∧
      Touch s (s.step limits input) id sub input sub' := by
  cases input with
  | data bytes => exact data_touch h hget hsingle
  | exit reason => exact finish_touch h hget reason rfl rfl nofun
  | subscribe options =>
    rw [OutputSession.step, OutputSession.subscribe]
    cases s.checkSubscribe limits options with
    | error error => exact ⟨sub, hget, .still _ rfl rfl rfl⟩
    | ok fromPosition =>
      have hne : s.nextSubscription ≠ id := (h.named id sub hget).ne'
      refine ⟨sub, ?_, .still _ rfl rfl rfl⟩
      dsimp only
      rw [Table.get_insert_of_ne _ _ hne, hget]
  | close other reason =>
    refine ⟨_, update_touch hget other, ?_⟩
    split_ifs with hsame
    · subst hsame
      refine .close ?_ reason
      rfl
    · exact .still _ rfl rfl rfl
  | drain other =>
    refine ⟨_, update_touch hget other, ?_⟩
    split_ifs with hsame
    · subst hsame
      refine .drain ?_
      rfl
    · exact .still _ rfl (if_neg hsame) rfl
  | ack other position => exact ack_touch hget other position

/-! ## Before the overflow -/

structure Reading (s : OutputSession) (id fromPosition : ℕ) (taken : List TerminalEvent)
    (sub : TerminalSubscription) : Prop where
  get : s.subscriptions[id]? = some sub
  pull : sub.listener = false
  whole : sub.closed = none → EventsFrom fromPosition (taken ++ sub.queue) s.outputPosition

variable {fromPosition : ℕ} {taken : List TerminalEvent}

theorem deliver_open {o : ℕ} {event : TerminalEvent} (hpull : sub.listener = false)
    (hopen : sub.closed = none) : sub.deliverEvent o event =
      if Refused sub.maxQueuedBytes sub.queuedBytes event then { sub with
        closed := some .skip
        queue := [.skip sub.cursor o]
        queuedBytes := 0 } else queued sub event := by
  have henqueue : sub.deliverEvent o event = sub.enqueue event o := by
    rw [TerminalSubscription.deliverEvent, hopen, hpull]
    rfl
  rw [henqueue]
  split_ifs with hroom
  · rw [enqueue_refused hroom, TerminalSubscription.closeForOverflow, hopen]
    rfl
  · exact enqueue_room hroom

theorem exit_room {maxQueuedBytes : ℚ} {queuedBytes : ℕ} (reason : TerminalExitReason) :
    ¬Refused maxQueuedBytes queuedBytes (.exit reason) := fun hfull => absurd hfull.1 (Nat.lt_irrefl 0)

theorem deliver_closed {o : ℕ} {event : TerminalEvent} (hclosed : sub.closed ≠ none) :
    sub.deliverEvent o event = sub := by
  rw [TerminalSubscription.deliverEvent, if_pos (Option.isSome_iff_ne_none.mpr hclosed)]

theorem drained_queue (hget : s.subscriptions[id]? = some sub) :
    s.consumes id (.drain id) = sub.queue := by
  have hnone : s.acknowledges id (.drain id) = [] := rfl
  rw [OutputSession.consumes, OutputSession.presents, if_pos rfl, OutputSession.queueOf, hget, hnone]
  exact List.append_nil _

theorem consumes_none {input : OutputInput} (hpresents : s.presents id input = [])
    (hacknowledges : s.acknowledges id input = []) : s.consumes id input = [] := by
  rw [OutputSession.consumes, hpresents, hacknowledges]
  rfl

theorem Reading.touch (h : Reading s id fromPosition taken sub) {s' : OutputSession}
    {input : OutputInput} {sub' : TerminalSubscription} (hget : s'.subscriptions[id]? = some sub')
    (htouch : Touch s s' id sub input sub') :
    Reading s' id fromPosition (taken ++ s.consumes id input) sub' := by
  have hpull := h.pull
  cases htouch with
  | still _ hposition hpresents hacknowledges =>
    rw [consumes_none hpresents hacknowledges, List.append_nil]
    exact ⟨hget, hpull, fun hopen => hposition ▸ h.whole hopen⟩
  | output bytes hposition =>
    have hnone : s.consumes id (.data bytes) = [] := rfl
    rw [hnone, List.append_nil]
    by_cases hopen : sub.closed = none
    · rw [deliver_open hpull hopen] at hget ⊢
      split_ifs at hget ⊢
      · exact ⟨hget, hpull, (by simp)⟩
      · refine ⟨hget, hpull, fun _ => ?_⟩
        rw [queued, ← List.append_assoc]
        exact (h.whole hopen).append ⟨rfl, hposition, rfl⟩
    · rw [deliver_closed hopen] at hget ⊢
      exact ⟨hget, hpull, fun hc => absurd hc hopen⟩
  | exit _ hposition hpresents hacknowledges hclose reason =>
    rw [consumes_none hpresents hacknowledges, List.append_nil]
    by_cases hopen : sub.closed = none
    · rw [deliver_open hpull hopen, if_neg (exit_room reason)] at hget ⊢
      refine ⟨hget, hpull, fun _ => ?_⟩
      rw [queued, ← List.append_assoc, hposition]
      exact (h.whole hopen).append rfl
    · rw [deliver_closed hopen] at hget ⊢
      exact ⟨hget, hpull, fun hc => absurd hc hopen⟩
  | close hposition reason =>
    have hnone : s.consumes id (.close id reason) = [] := rfl
    rw [hnone, List.append_nil]
    rw [TerminalSubscription.close] at hget ⊢
    split_ifs at hget ⊢
    · exact ⟨hget, hpull, fun hopen => hposition ▸ h.whole hopen⟩
    · exact ⟨hget, hpull, (by simp)⟩
  | drain hposition =>
    rw [drained_queue h.get]
    refine ⟨hget, hpull, fun hopen => ?_⟩
    rw [TerminalSubscription.drain, List.append_nil, hposition]
    exact h.whole hopen
  | ack hposition position given queuedBytes hacknowledges =>
    have hconsumes : s.consumes id (.ack id position) = sub.queue.filter (endsBy given) := by
      rw [OutputSession.consumes, hacknowledges]
      rfl
    refine ⟨hget, hpull, fun hopen => ?_⟩
    obtain ⟨middle, hfirst, hrest⟩ := (h.whole hopen).split
    rw [hconsumes, hposition, List.append_assoc]
    exact hfirst.append (hrest.parted given)

theorem Reading.run (h : Reading s id fromPosition taken sub) (hs : Retains limits start s)
    {inputs : List OutputInput} (hsingle : ∀ input ∈ inputs, input.Single limits) :
    ∃ sub', Reading (Runs.after (OutputSession.step limits) s inputs) id fromPosition
      (taken ++ consumed limits id s inputs) sub' := by
  induction inputs generalizing s taken sub with
  | nil =>
    refine ⟨sub, ?_⟩
    rw [consumed, Runs.trace, List.append_nil]
    exact h
  | cons input inputs ih =>
    obtain ⟨sub', hget, htouch⟩ := step_touch hs h.get (hsingle input List.mem_cons_self)
    obtain ⟨last, hlast⟩ := ih (h.touch hget htouch) (hs.step input)
      fun i hi => hsingle i (List.mem_cons_of_mem _ hi)
    refine ⟨last, ?_⟩
    rw [consumed, Runs.trace, ← List.append_assoc]
    exact hlast

/-! ## After the overflow -/

def remaining (limits : OutputLimits) (id : ℕ) (s : OutputSession) (inputs : List OutputInput) :
    List TerminalEvent :=
  presented limits id s inputs ++ (Runs.after (OutputSession.step limits) s inputs).queueOf id

theorem queueOf_get (hget : s.subscriptions[id]? = some sub) : s.queueOf id = sub.queue := by
  rw [OutputSession.queueOf, hget]
  rfl

theorem filter_endless {queue : List TerminalEvent}
    (hendless : ∀ event ∈ queue, TerminalSubscription.outputEnd event = none) (given : ℕ) :
    queue.filter (fun event => !endsBy given event) = queue := by
  refine List.filter_eq_self.mpr fun event hevent => ?_
  rw [endsBy, hendless event hevent]
  rfl

theorem remaining_closed {reason : TerminalCloseReason} (hs : Retains limits start s)
    (hget : s.subscriptions[id]? = some sub) (hclosed : sub.closed = some reason)
    (hendless : ∀ event ∈ sub.queue, TerminalSubscription.outputEnd event = none)
    {inputs : List OutputInput} (hsingle : ∀ input ∈ inputs, input.Single limits) :
    remaining limits id s inputs = sub.queue := by
  induction inputs generalizing s sub with
  | nil => exact queueOf_get hget
  | cons input inputs ih =>
    have hne : sub.closed ≠ none := by rw [hclosed]; exact Option.some_ne_none _
    have hrest : ∀ i ∈ inputs, i.Single limits := fun i hi => hsingle i (List.mem_cons_of_mem _ hi)
    have hstep : remaining limits id s (input :: inputs) =
        s.presents id input ++ remaining limits id (s.step limits input) inputs :=
      List.append_assoc _ _ _
    obtain ⟨sub', hget', htouch⟩ := step_touch hs hget (hsingle input List.mem_cons_self)
    rw [hstep]
    cases htouch with
    | still _ hposition hpresents hacknowledges =>
      rw [hpresents]
      exact ih (hs.step input) hget' hclosed hendless hrest
    | output bytes hposition =>
      rw [deliver_closed hne] at hget'
      exact ih (hs.step _) hget' hclosed hendless hrest
    | exit _ hposition hpresents hacknowledges hclose reason =>
      rw [deliver_closed hne] at hget'
      rw [hpresents]
      exact ih (hs.step input) hget' hclosed hendless hrest
    | close hposition reason =>
      rw [TerminalSubscription.close, if_pos (Option.isSome_iff_ne_none.mpr hne)] at hget'
      exact ih (hs.step _) hget' hclosed hendless hrest
    | drain hposition =>
      have hdrained : s.presents id (.drain id) = sub.queue := by
        rw [OutputSession.presents, if_pos rfl, queueOf_get hget]
      have hempty := ih (hs.step _) hget' hclosed (fun _ h => by cases h) hrest
      rw [hdrained, hempty]
      exact List.append_nil _
    | ack hposition position given queuedBytes hacknowledges =>
      rw [filter_endless hendless given] at hget'
      have hrun := ih (hs.step _) hget' hclosed hendless hrest
      exact hrun

theorem overflow_skip (hpull : sub.listener = false) (hopen : sub.closed = none)
    {s' : OutputSession} {input : OutputInput} {sub' : TerminalSubscription}
    (htouch : Touch s s' id sub input sub') (hshut : sub'.closed ≠ none)
    (hclose : ∀ reason, input ≠ .close id reason) :
    sub'.queue = [.skip sub.cursor s'.outputPosition] := by
  cases htouch with
  | still => exact absurd hopen hshut
  | output bytes hposition =>
    rw [deliver_open hpull hopen] at hshut ⊢
    split_ifs at hshut ⊢
    · rfl
    · exact absurd hopen hshut
  | exit _ hposition hpresents hacknowledges hother reason =>
    rw [deliver_open hpull hopen, if_neg (exit_room reason)] at hshut
    exact absurd hopen hshut
  | close hposition reason => exact absurd rfl (hclose reason)
  | drain hposition => exact absurd hopen hshut
  | ack hposition position given queuedBytes hacknowledges => exact absurd hopen hshut

theorem close_queue (hopen : sub.closed = none) {s' : OutputSession} {reason : TerminalCloseReason}
    {sub' : TerminalSubscription} (htouch : Touch s s' id sub (.close id reason) sub')
    (hshut : sub'.closed ≠ none) : sub'.queue = [] := by
  cases htouch with
  | still => exact absurd hopen hshut
  | exit _ hposition hpresents hacknowledges hclose => exact absurd rfl (hclose reason)
  | close hposition =>
    rw [TerminalSubscription.close, hopen]
    rfl

/-! ## The subscription as a whole -/

def OneSkip (P : TerminalEvent → Prop) (fromPosition toPosition : ℕ) (events : List TerminalEvent) :
    Prop :=
  ∃ tail, events = .skip fromPosition toPosition :: tail ∧ ∀ event ∈ tail, ¬P event

/-- What a subscription gives its reader over all later runs. While it is open nothing is missing;
once its queue has overflowed there is one skip. -/
structure PullReads (limits : OutputLimits) (P : TerminalEvent → Prop) (id fromPosition : ℕ)
    (opened : OutputSession) : Prop where
  contiguous : ∀ inputs : List OutputInput, (∀ input ∈ inputs, input.Single limits) →
    let s := Runs.after (OutputSession.step limits) opened inputs
    ∀ sub : TerminalSubscription, s.subscriptions[id]? = some sub → sub.closed = none →
      EventsFrom fromPosition (consumed limits id opened inputs ++ sub.queue) s.outputPosition
  initially : ∀ sub : TerminalSubscription, opened.subscriptions[id]? = some sub → sub.closed ≠ none →
    ∀ inputs : List OutputInput, (∀ input ∈ inputs, input.Single limits) →
      OneSkip P fromPosition opened.outputPosition (remaining limits id opened inputs)
  later : ∀ (before inputs : List OutputInput) (input : OutputInput),
    (∀ i ∈ before ++ input :: inputs, i.Single limits) →
    let s := Runs.after (OutputSession.step limits) opened before
    let s' := s.step limits input
    ∀ sub sub' : TerminalSubscription, s.subscriptions[id]? = some sub → sub.closed = none →
      s'.subscriptions[id]? = some sub' → sub'.closed ≠ none →
      ((∀ reason, input ≠ .close id reason) →
        OneSkip P sub.cursor s'.outputPosition (remaining limits id s' inputs)) ∧
      ∀ reason, input = .close id reason → remaining limits id s' inputs = []

def BehindSkip (s opened : OutputSession) (maxQueuedBytes : ℚ) (P : TerminalEvent → Prop)
    (fromPosition : ℕ) (sub : TerminalSubscription) : Prop :=
  match afterOverflow maxQueuedBytes 0 (s.initialEvents fromPosition) with
  | none => sub.closed = none
  | some rest => sub.closed = some .skip ∧ ∃ tail,
    sub.queue = .skip fromPosition opened.outputPosition :: tail ∧
      ((∀ event ∈ tail, ¬P event) ↔ ∀ event ∈ rest, P event → Refused maxQueuedBytes 0 event)

theorem subscribe_pull {P : TerminalEvent → Prop} (hP : ∀ event, ¬P event → ∃ reason, event = .exit reason)
    (h : Retains limits start s) {options : TerminalSubscriptionOptions}
    (hpull : options.listener = false) (hcheck : s.checkSubscribe limits options = .ok fromPosition) :
    ∃ sub, Reading (s.subscribe limits options).2 s.nextSubscription fromPosition [] sub ∧
      BehindSkip s (s.subscribe limits options).2
        (options.maxQueuedBytes.getD limits.maxQueuedOutputBytes) P fromPosition sub := by
  obtain ⟨hfrom, hstop⟩ := checkSubscribe_ok hcheck
  let fresh : TerminalSubscription :=
    ⟨false, fromPosition, options.maxQueuedBytes.getD limits.maxQueuedOutputBytes, [], 0, fromPosition,
      none, []⟩
  let sub := (s.initialEvents fromPosition).foldl (TerminalSubscription.begin s.outputPosition) fresh
  have hfresh : fresh.listener = false := rfl
  have hbytes : ∀ event, ¬P event → eventBytes event = 0 := by
    intro event hevent
    obtain ⟨reason, rfl⟩ := hP event hevent
    rfl
  have hget : (s.subscribe limits options).2.subscriptions[s.nextSubscription]? = some sub := by
    rw [OutputSession.subscribe, hcheck]
    dsimp only
    rw [hpull]
    exact Std.ExtTreeMap.getElem?_insert_self
  have hposition : (s.subscribe limits options).2.outputPosition = s.outputPosition := by
    rw [OutputSession.subscribe, hcheck]
  have hlistener : sub.listener = false := begin_listener s.outputPosition _ fresh
  refine ⟨sub, ?_⟩
  rw [BehindSkip, hposition]
  cases hfull : afterOverflow (options.maxQueuedBytes.getD limits.maxQueuedOutputBytes) 0
      (s.initialEvents fromPosition) with
  | none =>
    obtain ⟨queuedBytes, hsub⟩ := begin_room (o := s.outputPosition) hfresh hfull
    have hsub : sub = _ := hsub
    have hqueue : sub.queue = s.initialEvents fromPosition := by
      rw [hsub]
      rfl
    refine ⟨⟨hget, hlistener, fun _ => ?_⟩, by rw [hsub]⟩
    have hinitial := events_initial h.laid hstop
    rw [Nat.max_eq_left hfrom] at hinitial
    rw [hqueue, hposition, List.nil_append, OutputSession.initialEvents]
    refine hinitial.append ?_
    cases s.exit <;> rfl
  | some rest =>
    have hbegun : sub = _ := begin_full (o := s.outputPosition) hfresh rfl hfull
    let skipped : TerminalSubscription := { fresh with
      closed := some .skip
      queue := [.skip fromPosition s.outputPosition]
      queuedBytes := 0 }
    have hskipped : skipped.listener = false := rfl
    obtain ⟨tail, queuedBytes, _, hbehind, hiff⟩ :=
      begin_tail (o := s.outputPosition) hbytes rest hskipped rfl rfl
    have hsub : sub = _ := hbegun.trans hbehind
    refine ⟨⟨hget, hlistener, fun hopen => ?_⟩, ?_, tail, ?_, hiff⟩
    · rw [hsub] at hopen
      cases hopen
    · rw [hsub]
    · rw [hsub]
      rfl

theorem single_append {before inputs : List OutputInput} {input : OutputInput}
    (hsingle : ∀ i ∈ before ++ input :: inputs, i.Single limits) :
    (∀ i ∈ before, i.Single limits) ∧ input.Single limits ∧ ∀ i ∈ inputs, i.Single limits :=
  ⟨fun i hi => hsingle i (List.mem_append_left _ hi),
    hsingle input (List.mem_append_right _ List.mem_cons_self),
    fun i hi => hsingle i (List.mem_append_right _ (List.mem_cons_of_mem _ hi))⟩

theorem Reading.later (h : Reading s id fromPosition [] sub) (hs : Retains limits start s)
    (P : TerminalEvent → Prop) {before inputs : List OutputInput} {input : OutputInput}
    (hsingle : ∀ i ∈ before ++ input :: inputs, i.Single limits) {held sub' : TerminalSubscription} :
    let t := Runs.after (OutputSession.step limits) s before
    let t' := t.step limits input
    t.subscriptions[id]? = some held → held.closed = none → t'.subscriptions[id]? = some sub' →
      sub'.closed ≠ none →
      ((∀ reason, input ≠ .close id reason) →
        OneSkip P held.cursor t'.outputPosition (remaining limits id t' inputs)) ∧
      ∀ reason, input = .close id reason → remaining limits id t' inputs = [] := by
  intro t t' hget hopen hget' hshut
  obtain ⟨hbefore, hinput, hinputs⟩ := single_append hsingle
  have ht : Retains limits start t := hs.run before
  obtain ⟨found, hreading⟩ := h.run hs hbefore
  obtain rfl : found = held := Option.some.inj (hreading.get.symm.trans hget)
  obtain ⟨touched, htouched, htouch⟩ := step_touch ht hget hinput
  obtain rfl : touched = sub' := Option.some.inj (htouched.symm.trans hget')
  obtain ⟨reason, hclosed⟩ := Option.ne_none_iff_exists'.mp hshut
  refine ⟨fun hclose => ?_, fun reason hclose => ?_⟩
  · have hqueue := overflow_skip hreading.pull hopen htouch hshut hclose
    have hendless : ∀ event ∈ touched.queue, TerminalSubscription.outputEnd event = none := by
      rw [hqueue]
      intro event hevent
      rw [List.mem_singleton.mp hevent]
      rfl
    rw [remaining_closed (ht.step input) hget' hclosed hendless hinputs, hqueue]
    exact ⟨[], rfl, nofun⟩
  · subst hclose
    have hqueue := close_queue hopen htouch hshut
    rw [remaining_closed (ht.step _) hget' hclosed (by rw [hqueue]; exact nofun) hinputs, hqueue]

theorem pull_reads_iff {P : TerminalEvent → Prop}
    (hP : ∀ event, ¬P event → ∃ reason, event = .exit reason) (h : Retains limits start s)
    {options : TerminalSubscriptionOptions} (hpull : options.listener = false)
    (hcheck : s.checkSubscribe limits options = .ok fromPosition) {maxQueuedBytes : ℚ}
    (hmax : options.maxQueuedBytes.getD limits.maxQueuedOutputBytes = maxQueuedBytes) :
    PullReads limits P s.nextSubscription fromPosition (s.subscribe limits options).2 ↔
      ∀ rest, afterOverflow maxQueuedBytes 0 (s.initialEvents fromPosition) = some rest →
        ∀ event ∈ rest, P event → Refused maxQueuedBytes 0 event := by
  obtain ⟨sub, hreading, hbehind⟩ := subscribe_pull hP h hpull hcheck
  have hs := h.subscribe options
  rw [BehindSkip, hmax] at hbehind
  constructor
  · intro hreads rest hrest
    rw [hrest] at hbehind
    obtain ⟨hclosed, tail, hqueue, hiff⟩ := hbehind
    have hskip := hreads.initially sub hreading.get (by rw [hclosed]; exact Option.some_ne_none _) []
      nofun
    rw [remaining, presented, Runs.trace, Runs.after, List.foldl_nil, queueOf_get hreading.get, hqueue,
      List.nil_append] at hskip
    obtain ⟨_, heq, hnone⟩ := hskip
    obtain ⟨-, rfl⟩ := List.cons.inj heq
    exact hiff.mp hnone
  · intro hrefused
    constructor
    case contiguous =>
      intro inputs hsingle t held hget hopen
      obtain ⟨found, hlast⟩ := hreading.run hs hsingle
      obtain rfl : found = held := Option.some.inj (hlast.get.symm.trans hget)
      exact hlast.whole hopen
    case initially =>
      intro held hget hshut inputs hsingle
      obtain rfl : sub = held := Option.some.inj (hreading.get.symm.trans hget)
      cases hfull : afterOverflow maxQueuedBytes 0 (s.initialEvents fromPosition) with
      | none =>
        rw [hfull] at hbehind
        exact absurd hbehind hshut
      | some rest =>
        rw [hfull] at hbehind
        obtain ⟨hclosed, tail, hqueue, hiff⟩ := hbehind
        have hnone := hiff.mpr (hrefused rest hfull)
        have hendless : ∀ event ∈ sub.queue, TerminalSubscription.outputEnd event = none := by
          rw [hqueue]
          intro event hevent
          rcases List.mem_cons.mp hevent with rfl | htail
          · rfl
          · obtain ⟨reason, rfl⟩ := hP event (hnone event htail)
            rfl
        rw [remaining_closed hs hget hclosed hendless hsingle]
        exact ⟨tail, hqueue, hnone⟩
    case later =>
      intro before inputs input hsingle t t' held sub' hget hopen hget' hshut
      exact hreading.later hs P hsingle hget hopen hget' hshut

theorem consumed_presented {inputs : List OutputInput} (hacks : ∀ position, .ack id position ∉ inputs)
    (s : OutputSession) : consumed limits id s inputs = presented limits id s inputs := by
  induction inputs generalizing s with
  | nil => rfl
  | cons input inputs ih =>
    have hnone : s.acknowledges id input = [] := by
      cases input with
      | ack other position =>
        rw [OutputSession.acknowledges]
        cases givenPosition position with
        | error error => rfl
        | ok given =>
          cases s.subscriptions[id]? with
          | none => rfl
          | some sub =>
            refine if_neg fun hfits => hacks position ?_
            rw [← hfits.1]
            exact List.mem_cons_self
      | _ => rfl
    have hrest := ih (fun position hmem => hacks position (List.mem_cons_of_mem _ hmem))
      (s.step limits input)
    rw [consumed, presented] at hrest ⊢
    rw [Runs.trace, Runs.trace, hrest, OutputSession.consumes, hnone, List.append_nil]

end Runs

def NotExit (event : TerminalEvent) : Prop := ∀ reason, event ≠ .exit reason

/-- A pull subscription to any session, over all later runs: it gives the stream and at most one skip
when no later retained event fits in its empty queue. With `NotExit` the exit of the session may come
behind the skip. -/
theorem pull_runs (limits : OutputLimits) (identity : TerminalIdentity) {start : ℕ}
    (hstart : start ≤ maxSafeInteger) (earlier : List OutputInput)
    {options : TerminalSubscriptionOptions} (hpull : options.listener = false) {fromPosition : ℕ} :
    let s := Runs.after (OutputSession.step limits) (.opened limits identity start) earlier
    let maxQueuedBytes := options.maxQueuedBytes.getD limits.maxQueuedOutputBytes
    let opened := (s.subscribe limits options).2
    s.checkSubscribe limits options = .ok fromPosition →
      (∀ P : TerminalEvent → Prop, P = NotExit ∨ (P = fun _ => True) →
        (PullReads limits P s.nextSubscription fromPosition opened ↔
          ∀ rest, afterOverflow maxQueuedBytes 0 (s.initialEvents fromPosition) = some rest →
            ∀ event ∈ rest, P event → Refused maxQueuedBytes 0 event)) ∧
      (∀ inputs : List OutputInput,
        let single := inputs.flatMap (OutputInput.moments limits)
        (∀ input ∈ single, input.Single limits) ∧
        Runs.after (OutputSession.step limits) opened single =
          Runs.after (OutputSession.step limits) opened inputs) ∧
      ∀ inputs : List OutputInput, (∀ position, .ack s.nextSubscription position ∉ inputs) →
        consumed limits s.nextSubscription opened inputs =
          presented limits s.nextSubscription opened inputs := by
  intro s maxQueuedBytes opened hcheck
  have hs : Retains limits start s := (Retains.opened limits identity hstart).run earlier
  refine ⟨fun P hkind => ?_, fun inputs => ⟨fun input hinput => ?_, ?_⟩, fun inputs hacks =>
    consumed_presented hacks opened⟩
  · refine pull_reads_iff ?_ hs hpull hcheck rfl
    rcases hkind with rfl | rfl
    · intro event hevent
      rw [NotExit, not_forall] at hevent
      obtain ⟨reason, hreason⟩ := hevent
      exact ⟨reason, not_not.mp hreason⟩
    · exact fun event hevent => absurd trivial hevent
  · obtain ⟨whole, _, hmoment⟩ := List.mem_flatMap.mp hinput
    exact moments_single whole input hmoment
  · exact after_all_moments (hs.subscribe options) inputs

def pullFrom (maxQueuedBytes : ℚ) : TerminalSubscriptionOptions := ⟨none, some 10, false, some maxQueuedBytes⟩

def adopted (bytes : Bytes) : OutputSession :=
  Runs.after (OutputSession.step outputLimits) (.opened outputLimits heldTerminal 10) [.data bytes]

/-- Both retained chunks are too large on their own, so one skip stands for them. -/
theorem pull_runs_adopted :
    PullReads outputLimits NotExit (adopted [1, 2, 3, 4]).nextSubscription 10
      ((adopted [1, 2, 3, 4]).subscribe outputLimits (pullFrom 1)).2 := by
  have hcheck : (adopted [1, 2, 3, 4]).checkSubscribe outputLimits (pullFrom 1) = .ok 10 := rfl
  have hrefused : ∀ rest, afterOverflow 1 0 ((adopted [1, 2, 3, 4]).initialEvents 10) = some rest →
      ∀ event ∈ rest, NotExit event → Refused 1 0 event := by
    have hrest : afterOverflow 1 0 ((adopted [1, 2, 3, 4]).initialEvents 10) =
        some [.output 12 14 [3, 4] true] := by decide +kernel
    intro rest heq event hevent _
    rw [hrest] at heq
    cases heq
    rw [List.mem_singleton.mp hevent]
    decide +kernel
  exact ((pull_runs outputLimits heldTerminal (by decide) [.data [1, 2, 3, 4]] rfl hcheck).1 NotExit
    (.inl rfl)).mpr hrefused

/-- Two bytes have no room, and the third comes behind the skip that stands for all three. -/
theorem output_behind_skip :
    let opened := ((adopted [1, 2, 3]).subscribe outputLimits (pullFrom 1)).2
    remaining outputLimits 0 opened [.drain 0] = [.skip 10 13, .output 12 13 [3] true] ∧
      ¬PullReads outputLimits NotExit 0 10 opened := by
  intro opened
  have hdrained : remaining outputLimits 0 opened [.drain 0] = [.skip 10 13, .output 12 13 [3] true] := by
    decide +kernel
  refine ⟨hdrained, fun hreads => ?_⟩
  have hclosed : opened.subscriptions[0]?.any (fun sub => sub.closed.isSome) = true := by
    decide +kernel
  obtain ⟨sub, hget, hshut⟩ := Option.any_eq_true _ _ |>.mp hclosed
  obtain ⟨tail, htail, hnone⟩ := hreads.initially sub hget (Option.isSome_iff_ne_none.mp hshut)
    [.drain 0] (List.forall_mem_singleton.mpr (Nat.zero_le _))
  rw [hdrained] at htail
  obtain ⟨-, rfl⟩ := List.cons.inj htail
  exact hnone _ (List.mem_singleton.mpr rfl) nofun

end Terminay.Terminal
