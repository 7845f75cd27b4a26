import Terminay.Client.Connection
import Terminay.Lib.Lists
import Terminay.Script.Integers

/-!
# A closed connection stays closed

After `close` or the end of the reader no state says `connected`, no frame of a
request reaches the transport and every request is settled once, as long as no
continuation or frame of the time before writes the state afterwards and no
request takes the key of a pending one.
-/

namespace Terminay.Client
open Script Workspace Lists

variable {ν : Type}

namespace TerminayClient

def Down (s : TerminayClient ν) : Prop := s.closed = true ∨ s.readerEnded = true

def Reads (s : TerminayClient ν) : Prop := s.readerStarted = true ∧ s.readerEnded = false

def Fresh (s : TerminayClient ν) (key : ProtocolId) : Prop := Entries.get s.pending key = none

instance (s : TerminayClient ν) : Decidable s.Down := inferInstanceAs (Decidable (_ ∨ _))

instance (s : TerminayClient ν) : Decidable s.Reads := inferInstanceAs (Decidable (_ ∧ _))

instance (s : TerminayClient ν) (key : ProtocolId) : Decidable (s.Fresh key) :=
  inferInstanceAs (Decidable (_ = _))

/-- No input of an earlier time says `connected` on a connection that is down, revisions of
frames do not fall, and a request has a key of its own. -/
def Sound (s : TerminayClient ν) : ClientInput ν → Prop
  | .handshaken n versionOk => versionOk = true → s.Down → ∀ c ∈ s.connects[n]?,
      c.phase = .awaiting → c.answer.join.isSome = false
  | .resynced n answer => answer.isSome = true → s.Down → ∀ r ∈ s.requests[n]?,
      r.progress ≠ .resyncing
  | .request call => s.current.state = .connected → s.Fresh call.key
  | .resync call => s.current.state = .connected → s.Fresh call.key
  | .subscribe _ command => s.current.state = .connected → ∀ call ∈ command, s.Fresh call.key
  | .admitted n _ => ∀ r ∈ s.requests[n]?, r.progress = .queued → s.Fresh r.key
  | .frame (.event _ e) => s.Reads → isTransientTerminalEvent e = false →
      ¬ s.Down ∧ s.current.revision ≤ e.revision
  | .frame (.eventResync subscriptionId r) => s.Reads →
      (Entries.get s.subscriptions.routes subscriptionId).isSome = true →
        s.current.revision ≤ r.revision
  | _ => True

instance (s : TerminayClient ν) : (input : ClientInput ν) → Decidable (s.Sound input)
  | .handshaken n versionOk => inferInstanceAs (Decidable (versionOk = true → s.Down →
      ∀ c ∈ s.connects[n]?, c.phase = .awaiting → c.answer.join.isSome = false))
  | .resynced n answer => inferInstanceAs (Decidable (answer.isSome = true → s.Down →
      ∀ r ∈ s.requests[n]?, r.progress ≠ .resyncing))
  | .request call | .resync call =>
    inferInstanceAs (Decidable (s.current.state = .connected → s.Fresh call.key))
  | .subscribe _ command =>
    inferInstanceAs (Decidable (s.current.state = .connected → ∀ call ∈ command, s.Fresh call.key))
  | .admitted n _ => inferInstanceAs (Decidable (∀ r ∈ s.requests[n]?, r.progress = .queued →
      s.Fresh r.key))
  | .frame (.event _ e) => inferInstanceAs (Decidable (s.Reads → isTransientTerminalEvent e = false →
      ¬ s.Down ∧ s.current.revision ≤ e.revision))
  | .frame (.eventResync subscriptionId r) => inferInstanceAs (Decidable (s.Reads →
      (Entries.get s.subscriptions.routes subscriptionId).isSome = true →
        s.current.revision ≤ r.revision))
  | .connect | .opened _ _ | .helloSent _ _ | .connectAborted _ | .unsubscribe _ | .onEvent _ _
  | .onResync _ _ | .sent _ _ | .replied _ | .aborted _ | .readerEnded | .close | .transportClosed _
  | .frame (.serverHello _) | .frame .incompatibleVersion | .frame (.result _ _)
  | .frame (.error _) => .isTrue trivial

/-- Every request is settled at most once, and once its continuations have run, exactly once. -/
def SettledOnce (s : TerminayClient ν) : Prop :=
  ∀ (n : ℕ) r, s.requests[n]? = some r → r.settled ≤ 1 ∧ ∀ expired ok answer, ∃ r',
    (Runs.after step s [.admitted n expired, .sent n ok, .replied n, .resynced n answer]).requests[n]? =
      some r' ∧ r'.settled = 1

structure Ended (s : TerminayClient ν) (accepted : ℕ) : Prop where
  state : s.current.state ≠ .connected
  accepted : s.accepted = accepted
  request : ∀ purpose call, s.request purpose call = s
  subscribe : ∀ subscriptionId command, s.subscribe subscriptionId command = s
  settled : s.SettledOnce

end TerminayClient

def ClientInput.isResynced : ClientInput ν → Bool
  | .resynced _ _ => true
  | _ => false

structure TerminayClient.Stays (s t : TerminayClient ν) (inputs : List (ClientInput ν)) : Prop where
  ended : s.Down → t.Ended s.accepted
  watermark : (∀ input ∈ inputs, input.isResynced = false) → s.current.revision ≤ t.current.revision

section Admission
variable {a : RequestAdmission} {n : ℕ}

namespace RequestAdmission

def Knows (a : RequestAdmission) (n : ℕ) : Prop :=
  n ∈ a.waiting.map Prod.fst ∨ n ∈ a.granted ∨ n ∈ a.refused

theorem knows_reserve (bytes : ℕ) {m : ℕ} (h : a.Knows n) : (a.reserve m bytes).Knows n := by
  rcases h with h | h | h
  · exact .inl h
  · exact .inr (.inl (List.mem_append_left _ h))
  · exact .inr (.inr h)

theorem drainFrom_knows (budget : ℕ) (waiting : List (ℕ × ℕ)) {a : RequestAdmission}
    (h : n ∈ waiting.map Prod.fst ∨ n ∈ a.granted ∨ n ∈ a.refused) :
    (drainFrom budget waiting a).Knows n := by
  induction waiting generalizing a with
  | nil =>
    rcases h with h | h
    · cases h
    · exact .inr h
  | cons entry rest ih =>
    obtain ⟨m, bytes⟩ := entry
    rw [drainFrom]
    split_ifs
    · apply ih
      rcases h with h | h | h
      · rcases List.mem_cons.mp h with rfl | h
        · exact .inr (.inl (List.mem_append_right _ (List.mem_singleton_self _)))
        · exact .inl h
      · exact .inr (.inl (List.mem_append_left _ h))
      · exact .inr (.inr h)
    · exact h

theorem drain_knows (budget : ℕ) (h : a.Knows n) : (a.drain budget).Knows n :=
  drainFrom_knows budget a.waiting h

theorem drain_empty (budget : ℕ) (h : a.waiting = []) : (a.drain budget).waiting = [] := by
  rw [drain, h]
  rfl

theorem release_knows (budget bytes : ℕ) (h : a.Knows n) : (a.release budget bytes).Knows n :=
  drain_knows budget h

theorem release_empty (budget bytes : ℕ) (h : a.waiting = []) :
    (a.release budget bytes).waiting = [] :=
  drain_empty budget h

theorem remove_knows (budget : ℕ) {m : ℕ} (hne : n ≠ m) (h : a.Knows n) :
    (a.remove budget m).Knows n := by
  apply drain_knows
  rcases h with h | h
  · obtain ⟨entry, hentry, rfl⟩ := List.mem_map.mp h
    refine .inl (List.mem_map.mpr ⟨entry, List.mem_filter.mpr ⟨hentry, ?_⟩, rfl⟩)
    simpa using hne
  · exact .inr h

theorem remove_empty (budget m : ℕ) (h : a.waiting = []) : (a.remove budget m).waiting = [] := by
  apply drain_empty
  simp [h]

theorem clear_knows (h : a.Knows n) : a.clear.Knows n := by
  rcases h with h | h | h
  · exact .inr (.inr (List.mem_append_right _ h))
  · exact .inr (.inl h)
  · exact .inr (.inr (List.mem_append_left _ h))

theorem acquire_knows (budget bytes : ℕ) (expired : Bool) {m : ℕ} (h : a.Knows n ∨ n = m) :
    (a.acquire budget m bytes expired).Knows n := by
  have hrefuse : (a.refuse m).Knows n := by
    rcases h with (h | h | h) | rfl
    · exact .inl h
    · exact .inr (.inl h)
    · exact .inr (.inr (List.mem_append_left _ h))
    · exact .inr (.inr (List.mem_append_right _ (List.mem_singleton_self _)))
  rw [acquire]
  split_ifs
  · exact hrefuse
  · rcases h with h | rfl
    · exact knows_reserve bytes h
    · exact .inr (.inl (List.mem_append_right _ (List.mem_singleton_self _)))
  · exact hrefuse
  · rcases h with (h | h) | rfl
    · exact .inl (by rw [List.map_append]; exact List.mem_append_left _ h)
    · exact .inr h
    · exact .inl (by rw [List.map_append]; exact List.mem_append_right _ (List.mem_singleton_self _))

end RequestAdmission

end Admission

section Invariant
variable {s t : TerminayClient ν} {n : ℕ} {r : Request}

def Request.Active (r : Request) : Prop := r.progress = .sending ∨ r.progress = .awaiting

def Request.Counted (r : Request) : Prop := r.settled = if r.progress = .ended then 1 else 0

namespace TerminayClient

/-- Before the end every frame that waits for an answer can be found by its key; afterwards
every one has an answer, and nothing waits for admission. -/
structure Coherent (s : TerminayClient ν) : Prop where
  nodup : (Entries.keys s.pending).Nodup
  live : ¬ s.Down → ∀ (n : ℕ) r, s.requests[n]? = some r → r.Active →
    Entries.get s.pending r.key = some n
  queued : ∀ (n : ℕ) r, s.requests[n]? = some r → r.progress = .queued → s.admission.Knows n
  counted : ∀ (n : ℕ) r, s.requests[n]? = some r → r.Counted
  answered : s.Down → ∀ (n : ℕ) r, s.requests[n]? = some r → r.Active → r.reply ≠ none
  unconnected : s.Down → s.current.state ≠ .connected
  unrouted : s.Down → s.subscriptions.routes = []
  unqueued : s.Down → s.admission.waiting = []

theorem created_coherent (limit initialWatermark : Option ℕ) :
    Coherent (created limit initialWatermark : TerminayClient ν) where
  nodup := List.nodup_nil
  live _ n r hr := by cases hr
  queued n r hr := by cases hr
  counted n r hr := by cases hr
  answered _ n r hr := by cases hr
  unconnected := nofun
  unrouted := nofun
  unqueued := nofun

theorem Coherent.setState (h : Coherent s) {state : ConnectionState} (patch : Patch)
    (hstate : s.Down → state ≠ .connected) : Coherent (s.setState state patch) :=
  ⟨h.nodup, h.live, h.queued, h.counted, h.answered, hstate, h.unrouted, h.unqueued⟩

theorem Coherent.connection (h : Coherent s) (connects : List ConnectAttempt)
    (handshake : Option ℕ) (readerStarted : Bool) (closers : ℕ) :
    Coherent { s with
      connects := connects
      handshake := handshake
      readerStarted := readerStarted
      closers := closers } :=
  ⟨h.nodup, h.live, h.queued, h.counted, h.answered, h.unconnected, h.unrouted, h.unqueued⟩

theorem Coherent.settleHandshake (h : Coherent s) (answer : Option ServerHello) :
    Coherent (s.settleHandshake answer) := by
  rw [TerminayClient.settleHandshake]
  split
  · exact h.connection _ s.handshake s.readerStarted s.closers
  · exact h

theorem routes_step {subscriptions : Subscriptions ν} (h : subscriptions.routes = [])
    {input : SubscriptionInput ν} (hinput : ∀ subscriptionId, input ≠ .subscribe subscriptionId) :
    (subscriptions.step input).routes = [] := by
  cases input with
  | subscribe subscriptionId => exact absurd rfl (hinput subscriptionId)
  | failed n =>
    rw [Subscriptions.step, Subscriptions.failed]
    split
    · simp [h, Entries.delete]
    · exact h
  | event subscriptionId e =>
    rw [Subscriptions.step, Subscriptions.deliver]
    split
    · exact h
    · exact h
  | resync subscriptionId r =>
    rw [Subscriptions.step, Subscriptions.deliver]
    split
    · exact h
    · exact h
  | subscribed n => exact h
  | onEvent n listener => exact h
  | onResync n listener => exact h
  | disconnected => rfl

theorem Coherent.subscriptions (h : Coherent s) {subscriptions : Subscriptions ν}
    (hroutes : s.Down → subscriptions.routes = []) :
    Coherent { s with subscriptions := subscriptions } :=
  ⟨h.nodup, h.live, h.queued, h.counted, h.answered, h.unconnected, hroutes, h.unqueued⟩

theorem Coherent.subscriptionStep (h : Coherent s) {input : SubscriptionInput ν}
    (hinput : ∀ subscriptionId, input ≠ .subscribe subscriptionId) :
    Coherent { s with subscriptions := s.subscriptions.step input } :=
  h.subscriptions fun hdown => routes_step (h.unrouted hdown) hinput

theorem Coherent.set (h : Coherent s) {r' : Request} (hr : s.requests[n]? = some r)
    (hdown : t.Down ↔ s.Down) (hrequests : t.requests = s.requests.set n r')
    (hstate : t.current.state = s.current.state)
    (hroutes : s.subscriptions.routes = [] → t.subscriptions.routes = [])
    (hwaiting : s.admission.waiting = [] → t.admission.waiting = [])
    (hknows : ∀ m, m ≠ n ∨ r'.progress = .queued → s.admission.Knows m → t.admission.Knows m)
    (hnodup : (Entries.keys t.pending).Nodup)
    (hothers : ¬ s.Down → ∀ m q, m ≠ n → s.requests[m]? = some q → q.Active →
      Entries.get s.pending q.key = some m → Entries.get t.pending q.key = some m)
    (hlive : ¬ s.Down → r'.Active → Entries.get t.pending r'.key = some n)
    (hqueued : r'.progress = .queued → r.progress = .queued) (hcounted : r'.Counted)
    (hanswered : s.Down → r'.Active → r'.reply ≠ none) : Coherent t := by
  have hcases : ∀ (m : ℕ) q, t.requests[m]? = some q →
      m = n ∧ q = r' ∨ m ≠ n ∧ s.requests[m]? = some q := by
    intro m q hq
    rw [hrequests] at hq
    rcases get_set.mp hq with ⟨hm, -, hq⟩ | hother
    · exact .inl ⟨hm, hq.symm⟩
    · exact .inr hother
  refine ⟨hnodup, fun hup m q hq hactive => ?_, fun m q hq hprogress => ?_, fun m q hq => ?_,
    fun hd m q hq hactive => ?_, fun hd => ?_, fun hd => ?_, fun hd => ?_⟩
  · rw [hdown] at hup
    rcases hcases m q hq with ⟨rfl, rfl⟩ | ⟨hne, hq⟩
    · exact hlive hup hactive
    · exact hothers hup m q hne hq hactive (h.live hup m q hq hactive)
  · rcases hcases m q hq with ⟨rfl, rfl⟩ | ⟨hne, hq⟩
    · exact hknows m (.inr hprogress) (h.queued m r hr (hqueued hprogress))
    · exact hknows m (.inl hne) (h.queued m q hq hprogress)
  · rcases hcases m q hq with ⟨rfl, rfl⟩ | ⟨hne, hq⟩
    · exact hcounted
    · exact h.counted m q hq
  · rcases hcases m q hq with ⟨rfl, rfl⟩ | ⟨hne, hq⟩
    · exact hanswered (hdown.mp hd) hactive
    · exact h.answered (hdown.mp hd) m q hq hactive
  · rw [hstate]
    exact h.unconnected (hdown.mp hd)
  · exact hroutes (h.unrouted (hdown.mp hd))
  · exact hwaiting (h.unqueued (hdown.mp hd))

theorem subscribed_routes (h : s.subscriptions.routes = []) (purpose : Purpose) (ok : Bool) :
    (s.subscribed purpose ok).routes = [] := by
  cases purpose with
  | subscription m =>
    apply routes_step h
    intro subscriptionId
    cases ok
    · exact nofun
    · exact nofun
  | caller => exact h
  | resync => exact h

theorem finish_inactive (r : Request) (ok : Bool) : ¬ (r.finish ok).Active := by
  rw [Request.finish]
  split_ifs
  · exact nofun
  · exact nofun

theorem finish_unqueued (r : Request) (ok : Bool) : (r.finish ok).progress ≠ .queued := by
  rw [Request.finish]
  split_ifs
  · exact nofun
  · exact nofun

theorem finish_counted {r : Request} (h : r.Counted) (hopen : r.progress ≠ .ended) (ok : Bool) :
    (r.finish ok).Counted := by
  rw [Request.Counted, if_neg hopen] at h
  rw [Request.finish]
  split_ifs
  · simpa [Request.Counted] using h
  · simpa [Request.Counted] using h

theorem Coherent.finish (h : Coherent s) (hr : s.requests[n]? = some r)
    (hopen : r.progress ≠ .ended) (ok : Bool) : Coherent (s.finish n r ok) :=
  h.set hr Iff.rfl rfl rfl (fun hroutes => subscribed_routes hroutes _ _) id
    (fun _ _ hknows => hknows) h.nodup (fun _ _ _ _ _ _ hget => hget)
    (fun _ hactive => absurd hactive (finish_inactive r ok))
    (fun hqueued => absurd hqueued (finish_unqueued r ok))
    (finish_counted (h.counted n r hr) hopen ok)
    (fun _ hactive => absurd hactive (finish_inactive r ok))

theorem Coherent.admission (h : Coherent s) {admission : RequestAdmission}
    (hknows : ∀ m, s.admission.Knows m → admission.Knows m)
    (hwaiting : s.admission.waiting = [] → admission.waiting = []) :
    Coherent { s with admission := admission } :=
  ⟨h.nodup, h.live, fun m q hq hprogress => hknows m (h.queued m q hq hprogress), h.counted,
    h.answered, h.unconnected, h.unrouted, fun hdown => hwaiting (h.unqueued hdown)⟩

theorem Coherent.release (h : Coherent s) (r : Request) : Coherent (s.release r) := by
  rw [TerminayClient.release]
  split_ifs
  · exact h
  · exact h.admission (fun _ hm => RequestAdmission.release_knows _ _ hm)
      fun hempty => RequestAdmission.release_empty _ _ hempty

theorem release_requests (s : TerminayClient ν) (r : Request) :
    (s.release r).requests = s.requests := by
  rw [release]
  split_ifs
  · rfl
  · rfl

theorem Coherent.conclude (h : Coherent s) (hr : s.requests[n]? = some r) (hactive : r.Active)
    (ok : Bool) : Coherent (s.conclude n r ok) := by
  have hopen : r.progress ≠ .ended := by
    rcases hactive with hprogress | hprogress
    · simp [hprogress]
    · simp [hprogress]
  refine h.set hr ?_ ?_ ?_ (fun hroutes => ?_) (fun hempty => ?_) (fun m _ hknows => ?_)
    ?_ (fun hup m q hne hq hqactive hget => ?_)
    (fun _ hstill => absurd hstill (finish_inactive r ok))
    (fun hqueued => absurd hqueued (finish_unqueued r ok))
    (finish_counted (h.counted n r hr) hopen ok)
    (fun _ hstill => absurd hstill (finish_inactive r ok))
  all_goals simp only [TerminayClient.conclude, TerminayClient.finish, TerminayClient.release]
  · split_ifs
    · exact Iff.rfl
    · exact Iff.rfl
  · split_ifs
    · rfl
    · rfl
  · split_ifs
    · rfl
    · rfl
  · split_ifs
    · exact subscribed_routes hroutes _ _
    · exact subscribed_routes hroutes _ _
  · split_ifs
    · exact hempty
    · exact RequestAdmission.release_empty _ _ hempty
  · split_ifs
    · exact hknows
    · exact RequestAdmission.release_knows _ _ hknows
  · have hnodup := Entries.keys_delete_nodup h.nodup r.key
    split_ifs
    · exact hnodup
    · exact hnodup
  · have hkey : q.key ≠ r.key := by
      intro heq
      rw [heq, h.live hup n r hr hactive] at hget
      exact hne (Option.some.inj hget).symm
    have hkept := (Entries.get_delete_other h.nodup hkey).trans hget
    split_ifs
    · exact hkept
    · exact hkept

theorem Coherent.sendPreparedRequest (h : Coherent s) (hr : s.requests[n]? = some r)
    (hqueued : r.progress = .queued) (hfresh : s.Fresh r.key) (hup : ¬ s.Down) :
    Coherent (s.sendPreparedRequest n r) := by
  have hcounted := h.counted n r hr
  refine h.set hr Iff.rfl rfl rfl id id (fun _ _ hknows => hknows)
    (Entries.keys_set_nodup h.nodup r.key n) (fun _ m q hne hq hqactive hget => ?_)
    (fun _ _ => Entries.get_set_self h.nodup r.key n) nofun ?_ (fun hdown => absurd hdown hup)
  · refine (Entries.get_set_other h.nodup (fun heq => ?_) n).trans hget
    rw [heq, hfresh] at hget
    cases hget
  · simpa [Request.Counted, hqueued] using hcounted

theorem Coherent.concat (h : Coherent s) (hup : ¬ s.Down) {admission : RequestAdmission}
    {pending : List (ProtocolId × ℕ)} {accepted : ℕ} (hnodup : (Entries.keys pending).Nodup)
    (hothers : ∀ key m, Entries.get s.pending key = some m → Entries.get pending key = some m)
    (hactive : r.Active → Entries.get pending r.key = some s.requests.length)
    (hqueued : r.progress = .queued → admission.Knows s.requests.length)
    (hknows : ∀ m, s.admission.Knows m → admission.Knows m) (hcounted : r.Counted) :
    Coherent { s with
      requests := s.requests ++ [r]
      admission := admission
      pending := pending
      accepted := accepted } := by
  refine ⟨hnodup, fun _ m q hq hqactive => ?_, fun m q hq hprogress => ?_, fun m q hq => ?_,
    fun hdown => absurd hdown hup, fun hdown => absurd hdown hup, fun hdown => absurd hdown hup,
    fun hdown => absurd hdown hup⟩
  · rcases get_concat.mp hq with hold | ⟨rfl, rfl⟩
    · exact hothers _ m (h.live hup m q hold hqactive)
    · exact hactive hqactive
  · rcases get_concat.mp hq with hold | ⟨rfl, rfl⟩
    · exact hknows m (h.queued m q hold hprogress)
    · exact hqueued hprogress
  · rcases get_concat.mp hq with hold | ⟨-, rfl⟩
    · exact h.counted m q hold
    · exact hcounted

theorem Coherent.ping (h : Coherent s) (hup : ¬ s.Down) (hfresh : s.Fresh r.key)
    (hsettled : r.settled = 0) :
    Coherent (({ s with requests := s.requests ++ [r] } : TerminayClient ν).sendPreparedRequest
      s.requests.length r) := by
  have hset : (s.requests ++ [r]).set s.requests.length { r with progress := .sending } =
      s.requests ++ [{ r with progress := .sending }] := by simp
  rw [TerminayClient.sendPreparedRequest]
  simp only [hset]
  refine h.concat hup (Entries.keys_set_nodup h.nodup r.key _) (fun key m hget => ?_)
    (fun _ => Entries.get_set_self h.nodup r.key _) nofun (fun m hm => hm) ?_
  · refine (Entries.get_set_other h.nodup (fun heq => ?_) _).trans hget
    rw [heq, hfresh] at hget
    cases hget
  · simp [Request.Counted, hsettled]

theorem Coherent.admitted (h : Coherent s) (hr : s.requests[n]? = some r)
    (hqueued : r.progress = .queued) (hfresh : s.Fresh r.key) (expired : Bool) :
    Coherent (s.admitted n r expired) := by
  have hopen : r.progress ≠ .ended := by simp [hqueued]
  rw [TerminayClient.admitted]
  split_ifs with hgranted hrefuse hrefused
  · exact (h.release r).finish (by rw [release_requests]; exact hr) hopen false
  · refine h.sendPreparedRequest hr hqueued hfresh fun hdown => hrefuse (.inr (.inl ?_))
    exact h.unconnected hdown
  · exact h.finish hr hopen false
  · exact h

theorem Coherent.sendRequest (h : Coherent s) (hstate : s.current.state = .connected)
    (purpose : Purpose) {call : RequestCall} (hfresh : s.Fresh call.key) :
    Coherent (s.sendRequest purpose call) := by
  have hup : ¬ s.Down := fun hdown => h.unconnected hdown hstate
  have hlast : ∀ r : Request, (s.requests ++ [r])[s.requests.length]? = some r := fun r =>
    get_concat.mpr (.inr ⟨rfl, rfl⟩)
  have hqueued : ∀ r : Request, Coherent { s with
      requests := s.requests ++ [{ r with progress := .queued, settled := 0 }]
      admission := s.admission.acquire s.byteBudget s.requests.length call.bytes call.expired } := by
    intro r
    exact h.concat hup h.nodup (fun _ _ hget => hget) nofun
      (fun _ => RequestAdmission.acquire_knows _ _ _ (.inr rfl))
      (fun m hm => RequestAdmission.acquire_knows _ _ _ (.inl hm)) rfl
  rw [TerminayClient.sendRequest]
  dsimp only
  split_ifs with hping hgranted
  · exact h.ping hup hfresh rfl
  · refine Coherent.admitted ?_ (hlast _) rfl hfresh false
    exact hqueued ⟨call.key, call.bytes, call.ping, purpose, .queued, none, 0⟩
  · exact hqueued ⟨call.key, call.bytes, call.ping, purpose, .queued, none, 0⟩

theorem Coherent.subscribe (h : Coherent s) (subscriptionId : ProtocolId)
    {command : Option RequestCall} (hfresh : s.current.state = .connected →
      ∀ call ∈ command, s.Fresh call.key) : Coherent (s.subscribe subscriptionId command) := by
  rw [TerminayClient.subscribe]
  split_ifs with hstate
  · have hup : ¬ s.Down := fun hdown => h.unconnected hdown hstate
    rcases command with _ | call
    · exact h.subscriptions fun hdown => absurd hdown hup
    · have hreserved : Coherent { s with
          subscriptions := s.subscriptions.step (.subscribe subscriptionId) } :=
        h.subscriptions fun hdown => absurd hdown hup
      exact hreserved.sendRequest hstate _ (hfresh hstate call rfl)
  · exact h

theorem disconnect_get {q : Request} (hq : s.disconnect.requests[n]? = some q) :
    ∃ r, s.requests[n]? = some r ∧ q.key = r.key ∧ q.progress = r.progress ∧
      q.settled = r.settled ∧ (n ∈ s.pending.map Prod.snd → q.reply ≠ none) ∧
        (r.reply ≠ none → q.reply ≠ none) := by
  have hmap : (s.requests.mapIdx fun n r => if n ∈ s.pending.map Prod.snd then r.settle false else r)[n]? =
      some q := hq
  rw [List.getElem?_mapIdx] at hmap
  obtain ⟨r, hr, heq⟩ := Option.map_eq_some_iff.mp hmap
  refine ⟨r, hr, ?_⟩
  split_ifs at heq with hin
  · subst heq
    exact ⟨rfl, rfl, rfl, fun _ => nofun, fun _ => nofun⟩
  · subst heq
    exact ⟨rfl, rfl, rfl, fun hyes => absurd hyes hin, id⟩

theorem Coherent.disconnect (h : Coherent s) (hdown : t.Down)
    (hstate : t.current.state ≠ .connected) (hrequests : t.requests = s.disconnect.requests)
    (hpending : t.pending = []) (hadmission : t.admission = s.admission.clear)
    (hroutes : t.subscriptions.routes = []) : Coherent t := by
  refine ⟨?_, fun hup => absurd hdown hup, fun m q hq hprogress => ?_, fun m q hq => ?_,
    fun _ m q hq hactive => ?_, fun _ => hstate, fun _ => hroutes, fun _ => ?_⟩
  · rw [hpending]
    exact List.nodup_nil
  · rw [hrequests] at hq
    obtain ⟨r, hr, -, hsame, -⟩ := disconnect_get hq
    rw [hadmission]
    exact RequestAdmission.clear_knows (h.queued m r hr (hsame ▸ hprogress))
  · rw [hrequests] at hq
    obtain ⟨r, hr, -, hsame, hsettled, -⟩ := disconnect_get hq
    have hcounted := h.counted m r hr
    rw [Request.Counted] at hcounted ⊢
    rw [hsettled, hsame]
    exact hcounted
  · rw [hrequests] at hq
    obtain ⟨r, hr, hkey, hsame, -, hanswered, hkept⟩ := disconnect_get hq
    have hractive : r.Active := by
      rw [Request.Active, ← hsame]
      exact hactive
    by_cases hs : s.Down
    · exact hkept (h.answered hs m r hr hractive)
    · have hin := Entries.mem_of_get (h.live hs m r hr hractive)
      exact hanswered (List.mem_map.mpr ⟨(r.key, m), hin, rfl⟩)
  · rw [hadmission]
    rfl

theorem Coherent.close (h : Coherent s) : Coherent s.close := by
  refine Coherent.settleHandshake ?_ none
  exact h.disconnect (.inl rfl) nofun rfl rfl rfl rfl

theorem Coherent.readerEnds (h : Coherent s) : Coherent s.readerEnds := by
  rw [TerminayClient.readerEnds]
  split_ifs with hclosed
  · have hdown : s.Down := .inl hclosed
    exact ⟨h.nodup, fun hup => absurd (.inl hclosed) hup, h.queued, h.counted,
      fun _ => h.answered hdown, fun _ => h.unconnected hdown, fun _ => h.unrouted hdown,
      fun _ => h.unqueued hdown⟩
  · rw [failDisconnected, TerminayClient.settleHandshake]
    split
    · exact h.disconnect (.inr rfl) nofun rfl rfl rfl rfl
    · exact h.disconnect (.inr rfl) nofun rfl rfl rfl rfl

theorem Coherent.settlePending (h : Coherent s) (key : ProtocolId) (ok : Bool) :
    Coherent (s.settlePending key ok) := by
  rw [TerminayClient.settlePending]
  split
  next n _ =>
    rw [List.modify_eq_set_getElem?]
    rcases hr : s.requests[n]? with _ | r
    · exact h
    · exact h.set hr Iff.rfl rfl rfl id id (fun _ _ hknows => hknows) h.nodup
        (fun _ _ _ _ _ _ hget => hget) (fun hup hactive => h.live hup n r hr hactive) id
        (h.counted n r hr) (fun _ _ => nofun)
  next => exact h

theorem Coherent.process (h : Coherent s) {f : ServerFrame ν} (hreads : s.Reads)
    (hsound : s.Sound (.frame f)) : Coherent (s.process f) := by
  cases f with
  | serverHello server =>
    exact (h.settleHandshake _).connection _ none _ _
  | incompatibleVersion => exact (h.settleHandshake _).connection _ none _ _
  | result key ok => exact h.settlePending key ok
  | error correlationId =>
    rcases correlationId with _ | key
    · exact h
    · exact h.settlePending key false
  | event subscriptionId e =>
    rw [TerminayClient.process]
    split_ifs with htransient
    · exact h.subscriptionStep (by simp)
    · rw [Bool.not_eq_true] at htransient
      obtain ⟨hup, -⟩ := hsound hreads htransient
      exact (h.setState _ fun hdown => absurd hdown hup).subscriptionStep (by simp)
  | eventResync subscriptionId r =>
    rw [TerminayClient.process]
    split_ifs with hroute
    · have hup : ¬ s.Down := by
        intro hdown
        rw [h.unrouted hdown] at hroute
        cases hroute
      exact (h.setState _ fun hdown => absurd hdown hup).subscriptionStep (by simp)
    · exact h

theorem Coherent.connectFailed (h : Coherent s) (m : ℕ) (c : ConnectAttempt) :
    Coherent (s.connectFailed m c) :=
  (h.connection _ none _ _).setState _ fun _ => nofun

theorem Coherent.abortRequest (h : Coherent s) (n : ℕ) : Coherent (s.abortRequest n) := by
  rw [TerminayClient.abortRequest]
  split
  next r hr =>
    split
    next hqueued =>
      split_ifs
      · -- only the request itself may leave the queue unanswered
        refine h.set hr Iff.rfl rfl rfl (fun hroutes => subscribed_routes hroutes _ _)
          (fun hempty => RequestAdmission.remove_empty _ _ hempty) (fun m hm hknows => ?_) h.nodup
          (fun _ _ _ _ _ _ hget => hget) (fun _ hactive => absurd hactive (finish_inactive r false))
          (fun hstill => absurd hstill (finish_unqueued r false))
          (finish_counted (h.counted n r hr) (by simp [hqueued]) false)
          (fun _ hactive => absurd hactive (finish_inactive r false))
        exact RequestAdmission.remove_knows _ (hm.resolve_right (finish_unqueued r false)) hknows
      · exact h
    next hsending => exact h.conclude hr (.inl hsending) false
    next hawaiting => exact h.conclude hr (.inr hawaiting) false
    next => exact h
  next => exact h

theorem Coherent.resynced (h : Coherent s) (hr : s.requests[n]? = some r)
    (hprogress : r.progress = .resyncing) {answer : Option (ℤ × Str)}
    (hup : answer.isSome = true → ¬ s.Down) : Coherent (s.resynced n r answer) := by
  have hended : Coherent { s with
      requests := s.requests.set n { r with progress := .ended, settled := r.settled + 1 } } := by
    have hcounted := h.counted n r hr
    refine h.set hr Iff.rfl rfl rfl id id (fun _ _ hknows => hknows) h.nodup
      (fun _ _ _ _ _ _ hget => hget) (fun _ => nofun) nofun ?_ (fun _ => nofun)
    simpa [Request.Counted, hprogress] using hcounted
  rcases answer with _ | ⟨revision, cursor⟩
  · exact hended
  · exact hended.setState _ fun hdown => absurd hdown (hup rfl)

theorem Coherent.handshaken (h : Coherent s) (m : ℕ) {c : ConnectAttempt} {versionOk : Bool}
    (hup : versionOk = true → c.answer.join.isSome = true → ¬ s.Down) :
    Coherent (s.handshaken m c versionOk) := by
  rw [TerminayClient.handshaken]
  split
  next server hanswer =>
    split_ifs with hversion
    · exact (h.connection _ s.handshake _ _).setState _ fun hdown =>
        absurd hdown (hup hversion (by simp [hanswer]))
    · exact h.connectFailed m c
  next => exact h.connectFailed m c
  next => exact h

structure Steady (s t : TerminayClient ν) (watermark : Prop) : Prop where
  down : s.Down → t.Down
  accepted : s.Down → t.accepted = s.accepted
  revision : watermark → s.current.revision ≤ t.current.revision

def Keeps (s : TerminayClient ν) (watermark : Prop) (t : TerminayClient ν) : Prop :=
  Coherent t ∧ Steady s t watermark

theorem Steady.refl (s : TerminayClient ν) (watermark : Prop) : Steady s s watermark :=
  ⟨id, fun _ => rfl, fun _ => le_rfl⟩

theorem Steady.trans {u : TerminayClient ν} {watermark : Prop} (h : Steady s t watermark)
    (h' : Steady t u watermark) : Steady s u watermark :=
  ⟨fun hdown => h'.down (h.down hdown),
    fun hdown => (h'.accepted (h.down hdown)).trans (h.accepted hdown),
    fun hw => (h.revision hw).trans (h'.revision hw)⟩

section Steadiness
variable {watermark : Prop}

theorem release_steady (s : TerminayClient ν) (r : Request) : Steady s (s.release r) watermark := by
  rw [release]
  split_ifs
  · exact Steady.refl s watermark
  · exact ⟨id, fun _ => rfl, fun _ => le_rfl⟩

theorem finish_steady (s : TerminayClient ν) (n : ℕ) (r : Request) (ok : Bool) :
    Steady s (s.finish n r ok) watermark :=
  ⟨id, fun _ => rfl, fun _ => le_rfl⟩

theorem conclude_steady (s : TerminayClient ν) (n : ℕ) (r : Request) (ok : Bool) :
    Steady s (s.conclude n r ok) watermark := by
  have hforgotten : Steady s { s with pending := Entries.delete s.pending r.key } watermark :=
    ⟨id, fun _ => rfl, fun _ => le_rfl⟩
  exact (hforgotten.trans (release_steady _ r)).trans (finish_steady _ n r ok)

theorem admitted_revision (s : TerminayClient ν) (n : ℕ) (r : Request) (expired : Bool) :
    s.current.revision ≤ (s.admitted n r expired).current.revision := by
  rw [admitted]
  split_ifs
  · have hreleased : Steady s ((s.release r).finish n r false) True :=
      (release_steady s r).trans (finish_steady _ n r false)
    exact hreleased.revision trivial
  · exact le_rfl
  · exact le_rfl
  · exact le_rfl

theorem sendRequest_steady (hup : ¬ s.Down) (purpose : Purpose) (call : RequestCall) :
    Steady s (s.sendRequest purpose call) watermark := by
  refine ⟨fun hdown => absurd hdown hup, fun hdown => absurd hdown hup, fun _ => ?_⟩
  rw [sendRequest]
  dsimp only
  split_ifs
  · exact le_rfl
  · exact admitted_revision { s with
      requests := s.requests ++ [⟨call.key, call.bytes, call.ping, purpose, .queued, none, 0⟩]
      admission := s.admission.acquire s.byteBudget s.requests.length call.bytes call.expired }
      s.requests.length _ false
  · exact le_rfl

theorem admitted_steady (h : Coherent s) (n : ℕ) (r : Request) (expired : Bool) :
    Steady s (s.admitted n r expired) watermark := by
  rw [admitted]
  split_ifs with hgranted hrefuse
  · exact (release_steady s r).trans (finish_steady _ n r false)
  · have hup : ¬ s.Down := fun hdown => hrefuse (.inr (.inl (h.unconnected hdown)))
    exact ⟨id, fun hdown => absurd hdown hup, fun _ => le_rfl⟩
  · exact finish_steady s n r false
  · exact Steady.refl s watermark

theorem settleHandshake_steady (s : TerminayClient ν) (answer : Option ServerHello) :
    Steady s (s.settleHandshake answer) watermark := by
  rw [settleHandshake]
  split
  · exact ⟨id, fun _ => rfl, fun _ => le_rfl⟩
  · exact Steady.refl s watermark

theorem settlePending_steady (s : TerminayClient ν) (key : ProtocolId) (ok : Bool) :
    Steady s (s.settlePending key ok) watermark := by
  rw [settlePending]
  split
  · exact ⟨id, fun _ => rfl, fun _ => le_rfl⟩
  · exact Steady.refl s watermark

theorem process_steady {f : ServerFrame ν} (hreads : s.Reads) (hsound : s.Sound (.frame f)) :
    Steady s (s.process f) watermark := by
  cases f with
  | serverHello server =>
    exact (settleHandshake_steady s _).trans ⟨id, fun _ => rfl, fun _ => le_rfl⟩
  | incompatibleVersion =>
    exact (settleHandshake_steady s _).trans ⟨id, fun _ => rfl, fun _ => le_rfl⟩
  | result key ok => exact settlePending_steady s key ok
  | error correlationId =>
    rcases correlationId with _ | key
    · exact Steady.refl s watermark
    · exact settlePending_steady s key false
  | event subscriptionId e =>
    rw [process]
    split_ifs with htransient
    · exact ⟨id, fun _ => rfl, fun _ => le_rfl⟩
    · rw [Bool.not_eq_true] at htransient
      exact ⟨id, fun _ => rfl, fun _ => (hsound hreads htransient).2⟩
  | eventResync subscriptionId r =>
    rw [process]
    split_ifs with hroute
    · exact ⟨id, fun _ => rfl, fun _ => hsound hreads hroute⟩
    · exact Steady.refl s watermark

theorem onConnect_elim {P : TerminayClient ν → Prop} (hs : P s) (m : ℕ) (phase : ConnectPhase)
    {f : ConnectAttempt → TerminayClient ν}
    (hf : ∀ c, s.connects[m]? = some c → c.phase = phase → P (f c)) : P (s.onConnect m phase f) := by
  rw [onConnect]
  split
  next c hc =>
    split_ifs with hphase
    · exact hf c hc hphase
    · exact hs
  next => exact hs

theorem onRequest_elim {P : TerminayClient ν → Prop} (hs : P s) (n : ℕ) (progress : Progress)
    {f : Request → TerminayClient ν}
    (hf : ∀ r, s.requests[n]? = some r → r.progress = progress → P (f r)) :
    P (s.onRequest n progress f) := by
  rw [onRequest]
  split
  next r hr =>
    split_ifs with hprogress
    · exact hf r hr hprogress
    · exact hs
  next => exact hs

theorem handshaken_steady (s : TerminayClient ν) (m : ℕ) (c : ConnectAttempt) (versionOk : Bool) :
    Steady s (s.handshaken m c versionOk) watermark := by
  rw [handshaken]
  split
  · split_ifs
    · exact ⟨id, fun _ => rfl, fun _ => le_rfl⟩
    · exact ⟨id, fun _ => rfl, fun _ => le_rfl⟩
  · exact ⟨id, fun _ => rfl, fun _ => le_rfl⟩
  · exact Steady.refl s watermark

theorem abortRequest_steady (s : TerminayClient ν) (n : ℕ) :
    Steady s (s.abortRequest n) watermark := by
  rw [abortRequest]
  split
  · split
    · split_ifs
      · exact ⟨id, fun _ => rfl, fun _ => le_rfl⟩
      · exact Steady.refl s watermark
    · exact conclude_steady s n _ false
    · exact conclude_steady s n _ false
    · exact Steady.refl s watermark
  · exact Steady.refl s watermark

end Steadiness

theorem step_keeps (h : Coherent s) {input : ClientInput ν} (hsound : s.Sound input) :
    s.Keeps (input.isResynced = false) (s.step input) := by
  have hsame : s.Keeps (input.isResynced = false) s := ⟨h, .refl s _⟩
  have hrequest : ∀ purpose call, (s.current.state = .connected → s.Fresh call.key) →
      s.Keeps (input.isResynced = false) (s.request purpose call) := by
    intro purpose call hfresh
    rw [request]
    split_ifs with hstate
    · exact ⟨h.sendRequest hstate _ (hfresh hstate),
        sendRequest_steady (fun hdown => h.unconnected hdown hstate) purpose call⟩
    · exact hsame
  cases input with
  | connect =>
    rw [step, connect]
    split_ifs
    · exact hsame
    · exact hsame
    · exact ⟨(h.connection _ s.handshake s.readerStarted s.closers).setState _ fun _ => nofun,
        id, fun _ => rfl, fun _ => le_rfl⟩
  | opened m ok =>
    refine onConnect_elim (P := s.Keeps _) hsame m _ fun c _ _ => ?_
    rw [opened]
    split_ifs
    · exact ⟨h.connection _ _ _ s.closers, id, fun _ => rfl, fun _ => le_rfl⟩
    · exact ⟨h.connection _ s.handshake s.readerStarted s.closers, id, fun _ => rfl, fun _ => le_rfl⟩
  | helloSent m ok =>
    refine onConnect_elim (P := s.Keeps _) hsame m _ fun c _ _ => ?_
    split_ifs
    · exact ⟨h.connection _ s.handshake s.readerStarted s.closers, id, fun _ => rfl, fun _ => le_rfl⟩
    · exact ⟨h.connectFailed m c, id, fun _ => rfl, fun _ => le_rfl⟩
  | handshaken m versionOk =>
    refine onConnect_elim (P := s.Keeps _) hsame m _ fun c hc hphase =>
      ⟨h.handshaken m fun hversion hanswer hdown => ?_, handshaken_steady s m c versionOk⟩
    have hno := hsound hversion hdown c hc hphase
    rw [hanswer] at hno
    cases hno
  | connectAborted m =>
    rw [step, abortConnect]
    split
    · split
      · exact ⟨h.connection _ s.handshake s.readerStarted s.closers,
          id, fun _ => rfl, fun _ => le_rfl⟩
      · exact ⟨h.connectFailed m _, id, fun _ => rfl, fun _ => le_rfl⟩
      · exact hsame
    · exact hsame
  | request call => exact hrequest _ call hsound
  | resync call => exact hrequest _ call hsound
  | subscribe subscriptionId command =>
    refine ⟨h.subscribe subscriptionId hsound, ?_⟩
    rw [step, subscribe]
    split_ifs with hstate
    · have hup : ¬ s.Down := fun hdown => h.unconnected hdown hstate
      rcases command with _ | call
      · exact ⟨id, fun _ => rfl, fun _ => le_rfl⟩
      · have hsent : Steady { s with
            subscriptions := s.subscriptions.step (.subscribe subscriptionId) } _ True :=
          sendRequest_steady (s := { s with
              subscriptions := s.subscriptions.step (.subscribe subscriptionId) }) hup
            (.subscription s.subscriptions.all.length) call
        exact ⟨fun hdown => absurd hdown hup, fun hdown => absurd hdown hup,
          fun _ => hsent.revision trivial⟩
    · exact Steady.refl s _
  | unsubscribe m => exact ⟨h.subscriptionStep nofun, id, fun _ => rfl, fun _ => le_rfl⟩
  | onEvent m listener => exact ⟨h.subscriptionStep nofun, id, fun _ => rfl, fun _ => le_rfl⟩
  | onResync m listener => exact ⟨h.subscriptionStep nofun, id, fun _ => rfl, fun _ => le_rfl⟩
  | admitted n expired =>
    exact onRequest_elim (P := s.Keeps _) hsame n _ fun r hr hqueued =>
      ⟨h.admitted hr hqueued (hsound r hr hqueued) expired, admitted_steady h n r expired⟩
  | sent n ok =>
    refine onRequest_elim (P := s.Keeps _) hsame n _ fun r hr hsending => ?_
    split_ifs
    · have hcounted := h.counted n r hr
      refine ⟨h.set hr Iff.rfl rfl rfl id id (fun _ _ hknows => hknows) h.nodup
        (fun _ _ _ _ _ _ hget => hget) (fun hup _ => h.live hup n r hr (.inl hsending)) nofun ?_
        (fun hdown _ => h.answered hdown n r hr (.inl hsending)), id, fun _ => rfl, fun _ => le_rfl⟩
      simpa [Request.Counted, hsending] using hcounted
    · exact ⟨h.conclude hr (.inl hsending) false, conclude_steady s n r false⟩
  | replied n =>
    refine onRequest_elim (P := s.Keeps _) hsame n _ fun r hr hawaiting => ?_
    rw [replied]
    split
    · exact ⟨h.conclude hr (.inr hawaiting) _, conclude_steady s n r _⟩
    · exact hsame
  | aborted n => exact ⟨h.abortRequest n, abortRequest_steady s n⟩
  | resynced n answer =>
    refine onRequest_elim (P := s.Keeps _) hsame n _ fun r hr hresyncing =>
      ⟨h.resynced hr hresyncing fun hanswer hdown => hsound hanswer hdown r hr hresyncing, ?_⟩
    rcases answer with _ | ⟨revision, cursor⟩
    · exact ⟨id, fun _ => rfl, nofun⟩
    · exact ⟨id, fun _ => rfl, nofun⟩
  | frame f =>
    rw [step]
    split_ifs with hreads
    · exact ⟨h.process hreads hsound, process_steady hreads hsound⟩
    · exact hsame
  | readerEnded =>
    rw [step]
    split_ifs
    · refine ⟨h.readerEnds, ?_⟩
      rw [readerEnds]
      split_ifs
      · exact ⟨fun _ => .inr rfl, fun _ => rfl, fun _ => le_rfl⟩
      · have hended : Steady s ({ s with readerEnded := true } : TerminayClient ν).disconnect
            (ClientInput.readerEnded (ν := ν).isResynced = false) :=
          ⟨fun _ => .inr rfl, fun _ => rfl, fun _ => le_rfl⟩
        exact (hended.trans (settleHandshake_steady _ none)).trans
          ⟨id, fun _ => rfl, fun _ => le_rfl⟩
    · exact hsame
  | close =>
    have hclosing : Steady s (({ s with closed := true, closers := s.closers + 1 } :
        TerminayClient ν).setState .closing {}).disconnect
        (ClientInput.close (ν := ν).isResynced = false) :=
      ⟨fun _ => .inl rfl, fun _ => rfl, fun _ => le_rfl⟩
    exact ⟨h.close, hclosing.trans (settleHandshake_steady _ none)⟩
  | transportClosed ok =>
    rw [step, transportClosed]
    split_ifs
    · exact ⟨(h.connection _ s.handshake s.readerStarted _).setState _ fun _ => nofun,
        id, fun _ => rfl, fun _ => le_rfl⟩
    · exact ⟨h.connection _ s.handshake s.readerStarted _, id, fun _ => rfl, fun _ => le_rfl⟩
    · exact hsame

def Settling (r : Request) : Prop := r.Counted ∧ (r.Active → r.reply ≠ none)

theorem set_self {l : List Request} {q : Request} (hr : l[n]? = some r) : (l.set n q)[n]? = some q :=
  get_set.mpr (.inl ⟨rfl, (List.getElem?_eq_some_iff.mp hr).1, rfl⟩)

theorem conclude_requests (s : TerminayClient ν) (n : ℕ) (r : Request) (ok : Bool) :
    (s.conclude n r ok).requests = s.requests.set n (r.finish ok) := by
  simp only [conclude, finish, release_requests]

theorem finish_progress (r : Request) (ok : Bool) :
    (r.finish ok).progress = .resyncing ∨ (r.finish ok).progress = .ended := by
  rw [Request.finish]
  split_ifs
  · exact .inl rfl
  · exact .inr rfl

theorem finish_settling (h : Settling r) (hopen : r.progress ≠ .ended) (ok : Bool) :
    Settling (r.finish ok) :=
  ⟨finish_counted h.1 hopen ok, fun hactive => absurd hactive (finish_inactive r ok)⟩

theorem onRequest_some (hr : s.requests[n]? = some r) {p f} :
    s.onRequest n p f = if r.progress = p then f r else s := by
  rw [onRequest, hr]

theorem admitted_settling (h : Coherent s) (hdown : s.Down) (hr : s.requests[n]? = some r)
    (expired : Bool) : ∃ q, (s.step (.admitted n expired)).requests[n]? = some q ∧ Settling q ∧
      q.progress ≠ .queued := by
  have hsettling : Settling r := ⟨h.counted n r hr, h.answered hdown n r hr⟩
  rw [show s.step (.admitted n expired) = _ from onRequest_some hr]
  split_ifs with hqueued
  · have hopen : r.progress ≠ .ended := by simp [hqueued]
    have hfinished := finish_settling hsettling hopen false
    have hleft : (r.finish false).progress ≠ .queued := finish_unqueued r false
    have hrefused : s.closed = true ∨ s.current.state ≠ .connected ∨ expired = true :=
      .inr (.inl (h.unconnected hdown))
    rw [admitted]
    split_ifs with hgranted hno
    · refine ⟨r.finish false, ?_, hfinished, hleft⟩
      rw [finish, release_requests]
      exact set_self hr
    · exact ⟨r.finish false, set_self hr, hfinished, hleft⟩
    · rcases h.queued n r hr hqueued with hwaiting | hanswered | hanswered
      · rw [h.unqueued hdown] at hwaiting
        cases hwaiting
      · exact absurd hanswered hgranted
      · exact absurd hanswered hno
  · exact ⟨r, hr, hsettling, hqueued⟩

theorem sent_settling (hr : s.requests[n]? = some r) (h : Settling r) (hqueued : r.progress ≠ .queued)
    (ok : Bool) : ∃ q, (s.step (.sent n ok)).requests[n]? = some q ∧ Settling q ∧
      q.progress ≠ .queued ∧ q.progress ≠ .sending := by
  rw [show s.step (.sent n ok) = _ from onRequest_some hr]
  split_ifs with hsending hok
  · refine ⟨{ r with progress := .awaiting }, set_self hr, ⟨?_, fun _ => h.2 (.inl hsending)⟩, nofun,
      nofun⟩
    simpa [Request.Counted, hsending] using h.1
  · have hopen : r.progress ≠ .ended := by simp [hsending]
    refine ⟨r.finish false, ?_, finish_settling h hopen false, finish_unqueued r false, ?_⟩
    · rw [conclude_requests]
      exact set_self hr
    · rcases finish_progress r false with hleft | hleft
      · simp [hleft]
      · simp [hleft]
  · exact ⟨r, hr, h, hqueued, hsending⟩

theorem replied_settling (hr : s.requests[n]? = some r) (h : Settling r)
    (hqueued : r.progress ≠ .queued) (hsending : r.progress ≠ .sending) :
    ∃ q, (s.step (.replied n)).requests[n]? = some q ∧ q.Counted ∧
      (q.progress = .resyncing ∨ q.progress = .ended) := by
  rw [show s.step (.replied n) = _ from onRequest_some hr]
  split_ifs with hawaiting
  · have hopen : r.progress ≠ .ended := by simp [hawaiting]
    rcases hreply : r.reply with _ | ok
    · exact absurd hreply (h.2 (.inr hawaiting))
    · refine ⟨r.finish ok, ?_, (finish_settling h hopen ok).1, finish_progress r ok⟩
      simp only [replied, hreply, conclude_requests]
      exact set_self hr
  · refine ⟨r, hr, h.1, ?_⟩
    rcases hprogress : r.progress with _ | _ | _ | _ | _
    · exact absurd hprogress hqueued
    · exact absurd hprogress hsending
    · exact absurd hprogress hawaiting
    · exact .inl rfl
    · exact .inr rfl

theorem resynced_settling (hr : s.requests[n]? = some r) (h : r.Counted)
    (hleft : r.progress = .resyncing ∨ r.progress = .ended) (answer : Option (ℤ × Str)) :
    ∃ q, (s.step (.resynced n answer)).requests[n]? = some q ∧ q.settled = 1 := by
  rw [show s.step (.resynced n answer) = _ from onRequest_some hr]
  rcases hleft with hresyncing | hended
  · rw [if_pos hresyncing]
    have hsettled : r.settled + 1 = 1 := by simpa [Request.Counted, hresyncing] using h
    rcases answer with _ | ⟨revision, cursor⟩
    · exact ⟨_, set_self hr, hsettled⟩
    · exact ⟨_, set_self hr, hsettled⟩
  · rw [if_neg (by simp [hended])]
    exact ⟨r, hr, by simpa [Request.Counted, hended] using h⟩

theorem Coherent.settledOnce (h : Coherent s) (hdown : s.Down) : s.SettledOnce := by
  intro n r hr
  constructor
  · have hcounted := h.counted n r hr
    rw [Request.Counted] at hcounted
    rw [hcounted]
    split_ifs
    · exact le_rfl
    · exact Nat.zero_le 1
  · intro expired ok answer
    obtain ⟨q₁, hq₁, hsettling₁, hqueued₁⟩ := admitted_settling h hdown hr expired
    obtain ⟨q₂, hq₂, hsettling₂, hqueued₂, hsending₂⟩ := sent_settling hq₁ hsettling₁ hqueued₁ ok
    obtain ⟨q₃, hq₃, hcounted₃, hleft₃⟩ := replied_settling hq₂ hsettling₂ hqueued₂ hsending₂
    exact resynced_settling hq₃ hcounted₃ hleft₃ answer

theorem run_steady (h : Coherent s) {inputs : List (ClientInput ν)}
    (hsound : Runs.Meets step Sound s inputs) : Coherent (Runs.after step s inputs) ∧
      Steady s (Runs.after step s inputs) (∀ input ∈ inputs, input.isResynced = false) := by
  induction inputs generalizing s with
  | nil => exact ⟨h, Steady.refl s _⟩
  | cons input inputs ih =>
    obtain ⟨hnext, hfirst⟩ := step_keeps h hsound.1
    obtain ⟨hcoherent, hrest⟩ := ih hnext hsound.2
    refine ⟨hcoherent, fun hdown => hrest.down (hfirst.down hdown), fun hdown => ?_, fun hw => ?_⟩
    · exact (hrest.accepted (hfirst.down hdown)).trans (hfirst.accepted hdown)
    · have hstep := hfirst.revision (hw input List.mem_cons_self)
      exact hstep.trans (hrest.revision fun i hi => hw i (List.mem_cons_of_mem _ hi))

theorem Coherent.ended (h : Coherent s) (hdown : s.Down) : s.Ended s.accepted where
  state := h.unconnected hdown
  accepted := rfl
  request _ _ := if_neg (h.unconnected hdown)
  subscribe _ _ := if_neg (h.unconnected hdown)
  settled := h.settledOnce hdown

end TerminayClient
end Invariant

section Runs
open TerminayClient

theorem client_runs (limit initialWatermark : Option ℕ) (xs ys : List (ClientInput ν))
    (h : Runs.Meets step Sound (created limit initialWatermark) (xs ++ ys)) :
    (Runs.after step (created limit initialWatermark) xs).Stays
      (Runs.after step (created limit initialWatermark) (xs ++ ys)) ys := by
  obtain ⟨hxs, hys⟩ := Runs.meets_append.mp h
  obtain ⟨hcoherent, -⟩ := run_steady (created_coherent limit initialWatermark) hxs
  obtain ⟨hend, hsteady⟩ := run_steady hcoherent hys
  rw [Runs.after_append]
  refine ⟨fun hdown => ?_, hsteady.revision⟩
  have hended := hend.ended (hsteady.down hdown)
  rw [hsteady.accepted hdown] at hended
  exact hended

def aQuery : RequestCall := ⟨js "query-1", 64, false, false⟩

def aChange (revision : ℕ) : ServerFrame ℤ :=
  .event (js "s") ⟨revision, natText revision, js "workspace.changed", .null, []⟩

def querying : List (ClientInput ℤ) :=
  [.connect, .opened 0 true, .helloSent 0 true, .frame (.serverHello ⟨none⟩), .handshaken 0 true,
    .frame (aChange 3), .request aQuery, .sent 0 true]

theorem client_runs_closed : (Runs.after step (created none none) querying).Stays
    (Runs.after step (created none none) (querying ++ [.close, .replied 0, .transportClosed true]))
      [.close, .replied 0, .transportClosed true] := by
  exact client_runs none none querying _ (by decide +kernel)

theorem querying_closed : (Runs.after step (created none none) (querying ++ [.close])).Down := by
  decide +kernel

theorem querying_reconnected : (Runs.after step (created none none)
    ((querying ++ [.close]) ++ [.frame (aChange 4)])).current.state = .connected := by
  decide +kernel

/-- An event that the reader still has when the client is closed. -/
theorem connected_again : ¬ ∀ (limit initialWatermark : Option ℕ) (xs ys : List (ClientInput ℤ)),
    (Runs.after step (created limit initialWatermark) xs).Stays
      (Runs.after step (created limit initialWatermark) (xs ++ ys)) ys := by
  intro h
  have hstays := h none none (querying ++ [.close]) [.frame (aChange 4)]
  exact (hstays.ended querying_closed).state querying_reconnected

end Runs

end Terminay.Client
