import Terminay.Client.Acknowledgement
import Terminay.Lib.Lists

/-!
# Runs of the acknowledgements

No acknowledgement is ahead of the output observed when its position was requested, the shared
ones rise above all that did not fail, and every waiter is settled once, by a confirmed position
or a failure.
-/

namespace Terminay.Client.Acknowledgement

variable {ν : Type} {s : MutableAttachment}

def flying (s : MutableAttachment) : List (Sent × Option Bool) :=
  match s.acknowledgementInFlight with
  | some (_, .sending sent) => [(sent, none)]
  | _ => []

def sends (s : MutableAttachment) : List (Sent × Option Bool) :=
  s.answered.map (fun a => (a.sent, some a.ok)) ++ flying s

structure Keeps (s : MutableAttachment) : Prop where
  observed : ∀ a ∈ sends s, ∃ r, s.requests[a.1.request]? = some r ∧ a.1.position ≤ r.position ∧
    r.position ≤ r.observed
  observedDirect : ∀ d ∈ s.directs, ∃ r, s.requests[d.request]? = some r ∧
    d.position = r.position ∧ r.position ≤ r.observed
  increasing : (sends s).Pairwise fun a b => a.2 ≠ some false → a.1.position < b.1.position
  settledOnce : (s.settled.map (·.request) ++ s.acknowledgementWaiters.map (·.request)).Nodup
  confirmed : ∀ w ∈ s.settled, w.resolved = true →
    w.position ≤ s.fromPosition ∨ ∃ c ∈ s.confirmed, w.position ≤ c
  served : ∀ w ∈ s.acknowledgementWaiters, w.late = false → s.acknowledgementTimer = true ∨
    ∃ drain sent, s.acknowledgementInFlight = some (drain, .sending sent)

structure Traced (s : MutableAttachment) : Prop where
  requested : ∀ r ∈ s.requests, r.position ≤ r.observed
  pending : s.acknowledgedPosition < s.pendingAcknowledgementPosition →
    ∃ r, s.requests[s.origin]? = some r ∧ s.pendingAcknowledgementPosition ≤ r.position
  sent : ∀ a ∈ sends s, ∃ r, s.requests[a.1.request]? = some r ∧ a.1.position ≤ r.position
  direct : ∀ d ∈ s.directs, ∃ r, s.requests[d.request]? = some r ∧ d.position = r.position
  below : ∀ a ∈ s.answered, a.ok = true → a.sent.position ≤ s.acknowledgedPosition
  increasing : (sends s).Pairwise fun a b => a.2 ≠ some false → a.1.position < b.1.position

structure Settles (s : MutableAttachment) : Prop where
  distinct : (s.settled.map (·.request) ++ s.acknowledgementWaiters.map (·.request)).Nodup
  known : ∀ n ∈ s.settled.map (·.request) ++ s.acknowledgementWaiters.map (·.request),
    n < s.requests.length
  acknowledged : s.acknowledgedPosition ≤ s.fromPosition ∨
    ∃ c ∈ s.confirmed, s.acknowledgedPosition ≤ c
  resolved : ∀ w ∈ s.settled, w.resolved = true →
    w.position ≤ s.fromPosition ∨ ∃ c ∈ s.confirmed, w.position ≤ c

structure Serves (s : MutableAttachment) : Prop where
  bounded : ∀ w ∈ s.acknowledgementWaiters,
    w.position ≤ max s.pendingAcknowledgementPosition s.acknowledgedPosition
  slot : s.acknowledgementTimer = true → s.acknowledgementInFlight = none
  served : ∀ w ∈ s.acknowledgementWaiters, w.late = false → s.acknowledgementTimer = true ∨
    ∃ drain sent, s.acknowledgementInFlight = some (drain, .sending sent)

structure Sound (s : MutableAttachment) : Prop extends Traced s, Settles s, Serves s

theorem Settles.confirm (h : Settles s) (position : ℕ) : Settles { s with
    acknowledgedPosition := max s.acknowledgedPosition position
    confirmed := s.confirmed ++ [position] } := by
  refine ⟨h.distinct, h.known, ?_, fun w hw hresolved => ?_⟩
  · rcases le_total position s.acknowledgedPosition with hle | hle
    · rw [max_eq_left hle]
      rcases h.acknowledged with hfrom | ⟨c, hc, hconfirmed⟩
      · exact .inl hfrom
      · exact .inr ⟨c, List.mem_append_left _ hc, hconfirmed⟩
    · rw [max_eq_right hle]
      exact .inr ⟨_, List.mem_append_right _ (List.mem_singleton_self _), le_rfl⟩
  · rcases h.resolved w hw hresolved with hfrom | ⟨c, hc, hconfirmed⟩
    · exact .inl hfrom
    · exact .inr ⟨c, List.mem_append_left _ hc, hconfirmed⟩

theorem Sound.keeps (h : Sound s) : Keeps s where
  observed a ha := by
    obtain ⟨r, hr, hposition⟩ := h.sent a ha
    exact ⟨r, hr, hposition, h.requested r (List.mem_of_getElem? hr)⟩
  observedDirect d hd := by
    obtain ⟨r, hr, hposition⟩ := h.direct d hd
    exact ⟨r, hr, hposition, h.requested r (List.mem_of_getElem? hr)⟩
  increasing := h.increasing
  settledOnce := h.distinct
  confirmed := h.resolved
  served := h.served

/-! ## The loop -/

theorem mem_sends_of_idle (hidle : flying s = []) {a : Sent × Option Bool} (ha : a ∈ sends s) :
    ∃ x ∈ s.answered, (x.sent, some x.ok) = a := by
  rw [sends, hidle, List.append_nil] at ha
  exact List.mem_map.mp ha

theorem drainNext_traced (h : Traced { s with acknowledgementInFlight := none }) (drain : ℕ) :
    Traced (drainNext s drain) := by
  unfold drainNext
  split_ifs with hmore
  · have hsends : sends { s with acknowledgementInFlight := some (drain,
        .sending ⟨s.pendingAcknowledgementPosition, s.origin⟩) } =
        sends { s with acknowledgementInFlight := none } ++
          [(⟨s.pendingAcknowledgementPosition, s.origin⟩, none)] := by
      simp [sends, flying]
    refine ⟨h.requested, h.pending, ?_, h.direct, h.below, ?_⟩
    · intro a ha
      rw [hsends] at ha
      rcases List.mem_append.mp ha with ha | ha
      · exact h.sent a ha
      · rw [List.mem_singleton.mp ha]
        exact h.pending hmore
    · rw [hsends]
      refine List.pairwise_append.mpr ⟨h.increasing, List.pairwise_singleton _ _, ?_⟩
      intro a ha b hb hanswer
      rw [List.mem_singleton.mp hb]
      obtain ⟨x, hx, rfl⟩ := mem_sends_of_idle rfl ha
      have hok : x.ok = true := by simpa using hanswer
      exact lt_of_le_of_lt (h.below x hx hok) hmore
  · exact ⟨h.requested, h.pending, h.sent, h.direct, h.below, h.increasing⟩

theorem drainNext_serves (h : ∀ w ∈ s.acknowledgementWaiters,
      w.position ≤ max s.pendingAcknowledgementPosition s.acknowledgedPosition)
    (hlate : ∀ w ∈ s.acknowledgementWaiters, s.acknowledgedPosition < w.position)
    (htimer : s.acknowledgementTimer = false) (drain : ℕ) : Serves (drainNext s drain) := by
  unfold drainNext
  split_ifs with hmore
  · refine ⟨h, fun harmed => ?_, fun w _ _ => .inr ⟨_, _, rfl⟩⟩
    rw [htimer] at harmed
    cases harmed
  · refine ⟨h, fun harmed => ?_, fun w hw _ => ?_⟩
    · rw [htimer] at harmed
      cases harmed
    · have hover := hlate w hw
      have hbound := h w hw
      omega

theorem drainNext_settles (h : Settles s) (drain : ℕ) : Settles (drainNext s drain) := by
  unfold drainNext
  split_ifs
  · exact ⟨h.distinct, h.known, h.acknowledged, h.resolved⟩
  · exact ⟨h.distinct, h.known, h.acknowledged, h.resolved⟩

theorem resolve_settles (h : Settles s) : Settles (resolveAcknowledgementWaiters s) := by
  have hsplit : (s.acknowledgementWaiters.filter (fun w => w.position ≤ s.acknowledgedPosition) ++
      s.acknowledgementWaiters.filter fun w => s.acknowledgedPosition < w.position).Perm
      s.acknowledgementWaiters := by
    have hperm := List.filter_append_perm
      (fun w : Waiter => decide (w.position ≤ s.acknowledgedPosition)) s.acknowledgementWaiters
    simpa [← decide_not] using hperm
  have hrequests : ((resolveAcknowledgementWaiters s).settled.map (·.request) ++
      (resolveAcknowledgementWaiters s).acknowledgementWaiters.map (·.request)).Perm
      (s.settled.map (·.request) ++ s.acknowledgementWaiters.map (·.request)) := by
    have hdone : (((s.acknowledgementWaiters.filter fun w =>
        w.position ≤ s.acknowledgedPosition).reverse.map (·.settle true)).map
        (·.request)).Perm ((s.acknowledgementWaiters.filter fun w =>
        w.position ≤ s.acknowledgedPosition).map (·.request)) := by
      rw [List.map_map]
      exact (List.reverse_perm _).map _
    have hall := (hsplit.map (·.request)).append_left (s.settled.map (·.request))
    rw [List.map_append] at hall
    refine List.Perm.trans ?_ hall
    simp only [resolveAcknowledgementWaiters, List.map_append, List.append_assoc]
    exact (hdone.append_right _).append_left _
  refine ⟨hrequests.nodup_iff.mpr h.distinct, fun n hn => h.known n (hrequests.subset hn),
    h.acknowledged, fun w hw hresolved => ?_⟩
  rcases List.mem_append.mp hw with hw | hw
  · exact h.resolved w hw hresolved
  · obtain ⟨x, hx, rfl⟩ := List.mem_map.mp hw
    have hreached : x.position ≤ s.acknowledgedPosition := by
      simpa using (List.mem_filter.mp (List.mem_reverse.mp hx)).2
    rcases h.acknowledged with hfrom | ⟨c, hc, hconfirmed⟩
    · exact .inl (hreached.trans hfrom)
    · exact .inr ⟨c, hc, hreached.trans hconfirmed⟩

/-- After the waiters are resolved the loop sends, or leaves none behind. -/
theorem drain_sound (ht : Traced { s with acknowledgementInFlight := none }) (hs : Settles s)
    (hb : ∀ w ∈ s.acknowledgementWaiters,
      w.position ≤ max s.pendingAcknowledgementPosition s.acknowledgedPosition)
    (htimer : s.acknowledgementTimer = false) (drain : ℕ) :
    Sound (drainNext (resolveAcknowledgementWaiters s) drain) := by
  have htraced : Traced (drainNext (resolveAcknowledgementWaiters s) drain) := by
    apply drainNext_traced
    exact ⟨ht.requested, ht.pending, ht.sent, ht.direct, ht.below, ht.increasing⟩
  have hserves : Serves (drainNext (resolveAcknowledgementWaiters s) drain) := by
    refine drainNext_serves (s := resolveAcknowledgementWaiters s)
      (fun w hw => hb w (List.mem_filter.mp hw).1) (fun w hw => ?_) htimer drain
    exact of_decide_eq_true (List.mem_filter.mp hw).2
  exact ⟨htraced, drainNext_settles (resolve_settles hs) drain, hserves⟩

theorem flush_sound (h : Sound s) : Sound (flushAcknowledgement s).1 := by
  unfold flushAcknowledgement
  dsimp only
  split
  · rename_i inFlight hin
    refine ⟨⟨h.requested, h.pending, h.sent, h.direct, h.below, h.increasing⟩,
      ⟨h.distinct, h.known, h.acknowledged, h.resolved⟩, ⟨h.bounded, nofun, fun w hw hearly => ?_⟩⟩
    rcases h.served w hw hearly with harmed | hsending
    · have hnone := h.slot harmed
      rw [hin] at hnone
      cases hnone
    · exact .inr hsending
  · rename_i hfree
    have hsame : sends { s with acknowledgementTimer := false, acknowledgementInFlight := none } =
        sends s := by
      simp only [sends, flying, hfree]
    refine drain_sound (s := { s with acknowledgementTimer := false }) ⟨h.requested, h.pending, ?_, h.direct, h.below, ?_⟩
      ⟨h.distinct, h.known, h.acknowledged, h.resolved⟩ h.bounded rfl _
    · intro a ha
      rw [hsame] at ha
      exact h.sent a ha
    · rw [hsame]
      exact h.increasing

/-! ## Operations -/

theorem answerAcknowledgement_sound (h : Sound s) (ok : Bool) :
    Sound (answerAcknowledgement s ok) := by
  unfold answerAcknowledgement
  split
  · rename_i drain sent hin
    have hflying : sends s = s.answered.map (fun a => (a.sent, some a.ok)) ++ [(sent, none)] := by
      simp only [sends, flying, hin]
    have hsent := h.sent
    have hincreasing := h.increasing
    rw [hflying] at hsent hincreasing
    have hanswered : ∀ a ∈ (s.answered ++ [(⟨sent, ok⟩ : Answered)]).map
        (fun a => (a.sent, some a.ok)),
        ∃ r, s.requests[a.1.request]? = some r ∧ a.1.position ≤ r.position := by
      intro a ha
      rw [List.map_append] at ha
      rcases List.mem_append.mp ha with ha | ha
      · exact hsent a (List.mem_append_left _ ha)
      · rw [List.map_singleton] at ha
        rw [List.mem_singleton.mp ha]
        exact hsent (sent, none) (List.mem_append_right _ (List.mem_singleton_self _))
    have hrising : ((s.answered ++ [(⟨sent, ok⟩ : Answered)]).map
        (fun a => (a.sent, some a.ok))).Pairwise
        fun a b => a.2 ≠ some false → a.1.position < b.1.position := by
      rw [List.map_append, List.map_singleton]
      obtain ⟨hbefore, -, hlast⟩ := List.pairwise_append.mp hincreasing
      refine List.pairwise_append.mpr ⟨hbefore, List.pairwise_singleton _ _, ?_⟩
      intro a ha b hb
      rw [List.mem_singleton.mp hb]
      exact hlast a ha (sent, none) (List.mem_singleton_self _)
    have htimer : s.acknowledgementTimer = false := by
      by_contra harmed
      have hnone := h.slot (by simpa using harmed)
      rw [hin] at hnone
      cases hnone
    dsimp only
    split_ifs with hok
    · subst hok
      have hsettles := h.toSettles.confirm sent.position
      have htraced : Traced { s with
          answered := s.answered ++ [⟨sent, true⟩]
          acknowledgedPosition := max s.acknowledgedPosition sent.position
          confirmed := s.confirmed ++ [sent.position]
          acknowledgementInFlight := none } := by
        refine ⟨h.requested, fun hmore => h.pending (lt_of_le_of_lt (le_max_left _ _) hmore), ?_,
          h.direct, fun a ha hok => ?_, ?_⟩
        · simpa only [sends, flying, List.append_nil] using hanswered
        · rcases List.mem_append.mp ha with ha | ha
          · exact (h.below a ha hok).trans (le_max_left _ _)
          · rw [List.mem_singleton.mp ha]
            exact le_max_right _ _
        · simpa only [sends, flying, List.append_nil] using hrising
      refine drain_sound (s := { s with
          answered := s.answered ++ [⟨sent, true⟩]
          acknowledgedPosition := max s.acknowledgedPosition sent.position
          confirmed := s.confirmed ++ [sent.position] }) htraced
        ⟨hsettles.distinct, hsettles.known, hsettles.acknowledged, hsettles.resolved⟩
        (fun w hw => ?_) htimer drain
      have hbound := h.bounded w hw
      change w.position ≤ max s.pendingAcknowledgementPosition
        (max s.acknowledgedPosition sent.position)
      omega
    · simp only [Bool.not_eq_true] at hok
      subst hok
      refine ⟨⟨h.requested, fun hmore => absurd hmore (lt_irrefl _), ?_, h.direct,
        fun a ha hok => ?_, ?_⟩, ⟨?_, ?_, h.acknowledged, fun w hw hresolved => ?_⟩,
        ⟨nofun, fun harmed => ?_, nofun⟩⟩
      · simpa only [sends, flying, List.append_nil] using hanswered
      · rcases List.mem_append.mp ha with ha | ha
        · exact h.below a ha hok
        · rw [List.mem_singleton.mp ha] at hok
          cases hok
      · simpa only [sends, flying, List.append_nil] using hrising
      · simpa [Waiter.settle, Function.comp_def] using h.distinct
      · simpa [Waiter.settle, Function.comp_def] using h.known
      · rcases List.mem_append.mp hw with hw | hw
        · exact h.resolved w hw hresolved
        · obtain ⟨x, -, rfl⟩ := List.mem_map.mp hw
          cases hresolved
      · exact absurd (htimer.symm.trans harmed) nofun
  · exact h

theorem freeInFlight_sound (h : Sound s) : Sound (freeInFlight s) := by
  unfold freeInFlight
  split
  · rename_i drain hin
    have hsame : sends { s with acknowledgementInFlight := none } = sends s := by
      simp only [sends, flying, hin]
    refine ⟨⟨h.requested, h.pending, ?_, h.direct, h.below, ?_⟩,
      ⟨h.distinct, h.known, h.acknowledged, h.resolved⟩,
      ⟨h.bounded, fun _ => rfl, fun w hw hearly => ?_⟩⟩
    · rw [hsame]
      exact h.sent
    · rw [hsame]
      exact h.increasing
    · rcases h.served w hw hearly with harmed | ⟨_, _, hsending⟩
      · exact .inl harmed
      · rw [hin] at hsending
        cases hsending
  · exact h

theorem get_requests_concat {n : ℕ} {r x : AcknowledgeRequest} {requests : List AcknowledgeRequest}
    (h : requests[n]? = some r) : (requests ++ [x])[n]? = some r :=
  Lists.get_concat.mpr (.inl h)

theorem requested_concat (h : ∀ r ∈ s.requests, r.position ≤ r.observed)
    {x : AcknowledgeRequest} (hx : x.position ≤ x.observed) :
    ∀ r ∈ s.requests ++ [x], r.position ≤ r.observed := by
  intro r hr
  rcases List.mem_append.mp hr with hr | hr
  · exact h r hr
  · rw [List.mem_singleton.mp hr]
    exact hx

theorem flush_requests (s : MutableAttachment) :
    (flushAcknowledgement s).1.requests = s.requests := by
  unfold flushAcknowledgement drainNext
  dsimp only
  split
  · rfl
  · split_ifs <;> rfl

theorem acknowledgeDirect_sound (h : Sound s) {position : ℕ} (hobserved : position ≤ s.position) :
    Sound (acknowledgeDirect s position) := by
  have hflush := flush_sound h
  have hrequests := flush_requests s
  unfold acknowledgeDirect
  dsimp only
  refine ⟨⟨requested_concat hflush.requested hobserved, fun hmore => ?_, fun a ha => ?_,
    fun d hd => ?_, hflush.below, hflush.increasing⟩,
    ⟨hflush.distinct, fun n hn => ?_, hflush.acknowledged, hflush.resolved⟩,
    ⟨hflush.bounded, hflush.slot, hflush.served⟩⟩
  · obtain ⟨r, hr, hposition⟩ := hflush.pending hmore
    exact ⟨r, get_requests_concat hr, hposition⟩
  · obtain ⟨r, hr, hposition⟩ := hflush.sent a ha
    exact ⟨r, get_requests_concat hr, hposition⟩
  · rcases List.mem_append.mp hd with hd | hd
    · obtain ⟨r, hr, hposition⟩ := hflush.direct d hd
      exact ⟨r, get_requests_concat hr, hposition⟩
    · rw [List.mem_singleton.mp hd]
      refine ⟨_, Lists.get_concat.mpr (.inr ⟨?_, rfl⟩), rfl⟩
      rw [hrequests]
  · have hold := hflush.known n hn
    simp only [List.length_append, List.length_singleton]
    omega

theorem acknowledgeShared_sound (h : Sound s) {position : ℕ} (hobserved : position ≤ s.position) :
    Sound (acknowledgeShared s position) := by
  unfold acknowledgeShared
  refine ⟨⟨requested_concat h.requested hobserved, fun hmore => ?_, fun a ha => ?_, fun d hd => ?_,
    h.below, h.increasing⟩, ⟨?_, fun n hn => ?_, h.acknowledged, h.resolved⟩,
    ⟨fun w hw => ?_, fun harmed => ?_, fun w hw hearly => ?_⟩⟩
  · dsimp only at hmore ⊢
    split_ifs with hraised
    · exact ⟨_, Lists.get_concat.mpr (.inr ⟨rfl, rfl⟩), max_le hraised.le le_rfl⟩
    · rw [max_eq_left (not_lt.mp hraised)] at hmore ⊢
      obtain ⟨r, hr, hposition⟩ := h.pending hmore
      exact ⟨r, get_requests_concat hr, hposition⟩
  · obtain ⟨r, hr, hposition⟩ := h.sent a ha
    exact ⟨r, get_requests_concat hr, hposition⟩
  · obtain ⟨r, hr, hposition⟩ := h.direct d hd
    exact ⟨r, get_requests_concat hr, hposition⟩
  · rw [List.map_append, ← List.append_assoc]
    refine List.nodup_append.mpr ⟨h.distinct, List.nodup_singleton _, fun a ha b hb => ?_⟩
    rw [List.mem_singleton.mp hb]
    exact (h.known a ha).ne
  · rw [List.map_append, ← List.append_assoc] at hn
    rw [List.length_append, List.length_singleton]
    rcases List.mem_append.mp hn with hn | hn
    · exact Nat.lt_succ_of_lt (h.known n hn)
    · rw [List.mem_singleton.mp hn]
      exact Nat.lt_succ_self _
  · change w.position ≤ max (max s.pendingAcknowledgementPosition position) s.acknowledgedPosition
    rcases List.mem_append.mp hw with hw | hw
    · have hbound := h.bounded w hw
      omega
    · rw [List.mem_singleton.mp hw]
      exact (le_max_right _ _).trans (le_max_left _ _)
  · rcases (Bool.or_eq_true _ _).mp harmed with harmed | hnone
    · exact h.slot harmed
    · exact Option.isNone_iff_eq_none.mp hnone
  · rcases List.mem_append.mp hw with hw | hw
    · rcases h.served w hw hearly with harmed | hsending
      · exact .inl (by rw [harmed, Bool.true_or])
      · exact .inr hsending
    · rw [List.mem_singleton.mp hw] at hearly
      rcases hin : s.acknowledgementInFlight with _ | ⟨drain, sent | _⟩
      · exact .inl (by simp)
      · exact .inr ⟨drain, sent, rfl⟩
      · simp [hin] at hearly

theorem acknowledge_sound (h : Sound s) (position : ℕ) (options : Bool) :
    Sound (acknowledge s position options).1 := by
  unfold acknowledge
  split_ifs with hclosed hahead
  · exact h
  · exact h
  · exact h
  · exact acknowledgeDirect_sound h (not_lt.mp hahead)
  · exact acknowledgeShared_sound h (not_lt.mp hahead)

theorem setDirect_sound (h : Sound s) {i : ℕ} {direct : Direct} (hi : s.directs[i]? = some direct)
    (stage : DirectStage) :
    Sound { s with directs := s.directs.set i { direct with stage := stage } } := by
  refine ⟨⟨h.requested, h.pending, h.sent, fun d hd => ?_, h.below, h.increasing⟩,
    ⟨h.distinct, h.known, h.acknowledged, h.resolved⟩, ⟨h.bounded, h.slot, h.served⟩⟩
  rcases List.mem_or_eq_of_mem_set hd with hd | rfl
  · exact h.direct d hd
  · exact h.direct direct (List.mem_of_getElem? hi)

theorem resumeDirect_sound (h : Sound s) {i : ℕ} {direct : Direct}
    (hi : s.directs[i]? = some direct) : Sound (resumeDirect s i direct) := by
  unfold resumeDirect
  split
  · split
    · exact h
    · exact setDirect_sound h hi .rejected
    · exact setDirect_sound h hi _
  · exact h

theorem Sound.confirm (h : Sound s) (position : ℕ) :
    Sound { s with
      acknowledgedPosition := max s.acknowledgedPosition position
      confirmed := s.confirmed ++ [position] } := by
  refine ⟨⟨h.requested, fun hmore => h.pending (lt_of_le_of_lt (le_max_left _ _) hmore), h.sent,
    h.direct, fun a ha hok => (h.below a ha hok).trans (le_max_left _ _), h.increasing⟩,
    h.toSettles.confirm position, ⟨fun w hw => ?_, h.slot, h.served⟩⟩
  have hbound := h.bounded w hw
  change w.position ≤ max s.pendingAcknowledgementPosition (max s.acknowledgedPosition position)
  omega

theorem answerDirect_sound (h : Sound s) {i : ℕ} {direct : Direct}
    (hi : s.directs[i]? = some direct) (ok : Bool) : Sound (answerDirect s i direct ok) := by
  unfold answerDirect
  split_ifs
  · exact setDirect_sound (h.confirm direct.position) hi .resolved
  · exact setDirect_sound h hi .rejected
  · exact h

theorem Sound.observe (h : Sound s) (position : ℕ) : Sound { s with position := position } :=
  ⟨⟨h.requested, h.pending, h.sent, h.direct, h.below, h.increasing⟩,
    ⟨h.distinct, h.known, h.acknowledged, h.resolved⟩, ⟨h.bounded, h.slot, h.served⟩⟩

theorem Sound.lower (h : Sound s) (fromPosition : ℕ) :
    Sound { s with
      pendingAcknowledgementPosition := min s.pendingAcknowledgementPosition fromPosition
      acknowledgementWaiters := s.acknowledgementWaiters.map fun w =>
        { w with position := min w.position fromPosition } } := by
  have hsame : (s.acknowledgementWaiters.map fun w =>
      { w with position := min w.position fromPosition }).map (·.request) =
      s.acknowledgementWaiters.map (·.request) := by
    rw [List.map_map]
    rfl
  refine ⟨⟨h.requested, fun hmore => ?_, h.sent, h.direct, h.below, h.increasing⟩,
    ⟨?_, fun n hn => ?_, h.acknowledged, h.resolved⟩, ⟨fun w hw => ?_, h.slot, fun w hw hearly => ?_⟩⟩
  · obtain ⟨r, hr, hposition⟩ := h.pending (lt_of_lt_of_le hmore (min_le_left _ _))
    exact ⟨r, hr, (min_le_left _ _).trans hposition⟩
  · rw [hsame]
    exact h.distinct
  · rw [hsame] at hn
    exact h.known n hn
  · obtain ⟨x, hx, rfl⟩ := List.mem_map.mp hw
    have hbound := h.bounded x hx
    change min x.position fromPosition ≤
      max (min s.pendingAcknowledgementPosition fromPosition) s.acknowledgedPosition
    omega
  · obtain ⟨x, hx, rfl⟩ := List.mem_map.mp hw
    exact h.served x hx hearly

theorem take_sound (h : Sound s) (event : TerminalStreamEvent ν) : Sound (take s event) := by
  unfold take
  dsimp only
  split
  · rename_i fromPosition toPosition _
    exact (h.observe (max s.position toPosition)).lower fromPosition
  · exact h.observe _

theorem processSubscriptionEvent_sound (h : Sound s) (event : TerminalStreamEvent ν) :
    Sound (processSubscriptionEvent s event) := by
  unfold processSubscriptionEvent
  split_ifs
  · exact h
  · split
    · exact h
    · exact take_sound h _
    · exact take_sound h event

theorem Sound.close (h : Sound s) (closed : Bool) (detached : Option DetachStage) :
    Sound { s with closed := closed, detached := detached } :=
  ⟨⟨h.requested, h.pending, h.sent, h.direct, h.below, h.increasing⟩,
    ⟨h.distinct, h.known, h.acknowledged, h.resolved⟩, ⟨h.bounded, h.slot, h.served⟩⟩

theorem detach_sound (h : Sound s) : Sound (detach s) := by
  unfold detach
  split_ifs
  · exact h
  · exact (flush_sound h).close _ _

theorem resumeDetach_sound (h : Sound s) : Sound (resumeDetach s) := by
  unfold resumeDetach
  split
  · split_ifs
    · exact h.close true _
    · exact h
  · exact h

theorem fireTimer_sound (h : Sound s) : Sound (fireTimer s) := by
  unfold fireTimer
  split_ifs
  · exact flush_sound h
  · exact h

theorem opened_sound (fromPosition position : ℕ) : Sound (.opened fromPosition position) :=
  ⟨⟨nofun, fun hmore => absurd hmore (lt_irrefl _), nofun, nofun, nofun, List.Pairwise.nil⟩,
    ⟨List.nodup_nil, nofun, .inl le_rfl, nofun⟩, ⟨nofun, nofun, nofun⟩⟩

/-! ## Runs -/

theorem step_sound (h : Sound s) (moment : Moment ν) : Sound (step s moment) := by
  cases moment with
  | acknowledge position options => exact acknowledge_sound h position options
  | timer => exact fireTimer_sound h
  | answer ok => exact answerAcknowledgement_sound h ok
  | free => exact freeInFlight_sound h
  | resumeDirect i =>
    simp only [step]
    split
    · rename_i direct hi
      exact resumeDirect_sound h hi
    · exact h
  | answerDirect i ok =>
    simp only [step]
    split
    · rename_i direct hi
      exact answerDirect_sound h hi ok
    · exact h
  | event event => exact processSubscriptionEvent_sound h event
  | detach => exact detach_sound h
  | resumeDetach => exact resumeDetach_sound h

theorem acknowledgement_runs (fromPosition position : ℕ) (moments : List (Moment ν)) :
    Keeps (Runs.after step (MutableAttachment.opened fromPosition position) moments) := by
  have hrun : Sound (Runs.after step (MutableAttachment.opened fromPosition position) moments) :=
    Runs.invariant (I := Sound) (fun _ moment h => step_sound h moment)
      (opened_sound fromPosition position) moments
  exact hrun.keeps

def lowerAfterFailure : List (Moment ℤ) :=
  [.acknowledge 10 false, .timer, .answer false, .free, .acknowledge 5 false, .timer]

theorem acknowledgement_resent_lower :
    ¬ (sends (Runs.after step (MutableAttachment.opened 0 20) lowerAfterFailure)).Pairwise
      fun a b => a.1.position < b.1.position := by
  decide +kernel

end Terminay.Client.Acknowledgement
