import Terminay.Files.WatchRegistry
import Terminay.Lib.Lists

/-!
# What a run of the watch registry keeps

A subscription has been given, or has queued, every accepted event that concerns it, but for those
accepted before a read that told it to start over.
-/

namespace Terminay.Files
open Script Outcome

variable {o : FileWatchRegistryOptions}

section Served
variable {accepted : List FileWatchEvent} {s : SubscriptionState} {event : FileWatchEvent}

def FileWatchEvent.isResync (event : FileWatchEvent) : Bool := event.fact.kind == .resync

def SubscriptionState.key (s : SubscriptionState) : FileWatchKey := s.subscription.key

def SubscriptionState.heard (s : SubscriptionState) : List FileWatchEvent :=
  s.returned.map Heard.event ++ s.queue

def SubscriptionState.Restarted (s : SubscriptionState) (event : FileWatchEvent) : Prop :=
  ∃ h ∈ s.returned, h.event.isResync = true ∧ event.sequence ≤ h.accepted

structure Served (accepted : List FileWatchEvent) (s : SubscriptionState) : Prop where
  ordered : s.heard.Pairwise fun a b => a.sequence < b.sequence
  bounds : ∀ e ∈ s.heard, s.start < e.sequence ∧ e.sequence ≤ accepted.length
  genuine : ∀ e ∈ s.heard, e.isResync = true ∨ e ∈ accepted ∧ s.key.concerns e = true
  covered : ∀ e ∈ accepted, s.start < e.sequence → s.key.concerns e = true →
    e ∈ s.heard ∨ s.Restarted e ∨ s.resyncRequired = true
  latched : s.resyncRequired = true → ∃ n, s.queue = [resyncEvent s.key n]
  plain : s.resyncRequired = false → ∀ e ∈ s.queue, e.isResync = false

theorem Served.skip (h : Served accepted s) (hevent : s.key.concerns event = false) :
    Served (accepted ++ [event]) s where
  ordered := h.ordered
  bounds e he := by
    have hbounds := h.bounds e he
    rw [List.length_append]
    omega
  genuine e he := by
    rcases h.genuine e he with hresync | ⟨hmem, hconcerns⟩
    · exact .inl hresync
    · exact .inr ⟨List.mem_append_left _ hmem, hconcerns⟩
  covered e he hstart hconcerns := by
    rw [List.mem_append, List.mem_singleton] at he
    rcases he with he | rfl
    · exact h.covered e he hstart hconcerns
    · cases hevent.symm.trans hconcerns
  latched := h.latched
  plain := h.plain

theorem Served.enqueue (h : Served accepted s) (hevent : s.key.concerns event = true)
    (hkind : event.isResync = false) (hnext : event.sequence = accepted.length + 1)
    (hstart : s.start ≤ accepted.length) :
    Served (accepted ++ [event]) (enqueue o s event) := by
  have hlength : (accepted ++ [event]).length = accepted.length + 1 := List.length_append
  have hgenuine : ∀ e, e.isResync = true ∨ e ∈ accepted ∧ s.key.concerns e = true →
      e.isResync = true ∨ e ∈ accepted ++ [event] ∧ s.key.concerns e = true := by
    intro e he
    rcases he with hresync | ⟨hmem, hconcerns⟩
    · exact .inl hresync
    · exact .inr ⟨List.mem_append_left _ hmem, hconcerns⟩
  unfold Files.enqueue
  split_ifs with hlatch hfull
  · constructor
    case ordered => exact h.ordered
    case bounds =>
      intro e he
      have hbounds := h.bounds e he
      omega
    case genuine => exact fun e he => hgenuine e (h.genuine e he)
    case covered => exact fun e _ _ _ => .inr (.inr hlatch)
    case latched => exact h.latched
    case plain => exact h.plain
  · have hreturned : ∀ e ∈ s.returned.map Heard.event, e ∈ s.heard :=
      fun e he => List.mem_append_left _ he
    constructor
    case ordered =>
      refine List.pairwise_append.mpr ⟨(List.pairwise_append.mp h.ordered).1,
        List.pairwise_singleton _ _, fun e he e' he' => ?_⟩
      obtain rfl := List.mem_singleton.mp he'
      have hbounds := h.bounds e (hreturned e he)
      simp only [resyncEvent]
      omega
    case bounds =>
      intro e he
      rcases List.mem_append.mp he with he | he
      · have hbounds := h.bounds e (hreturned e he)
        exact ⟨hbounds.1, by omega⟩
      · obtain rfl := List.mem_singleton.mp he
        simp only [resyncEvent]
        omega
    case genuine =>
      intro e he
      rcases List.mem_append.mp he with he | he
      · exact hgenuine e (h.genuine e (hreturned e he))
      · obtain rfl := List.mem_singleton.mp he
        exact .inl rfl
    case covered => exact fun e _ _ _ => .inr (.inr rfl)
    case latched => exact fun _ => ⟨event.sequence, rfl⟩
    case plain => exact fun hfalse => by cases hfalse
  · have hheard : ({ s with queue := s.queue ++ [event] } : SubscriptionState).heard =
        s.heard ++ [event] := (List.append_assoc _ _ _).symm
    have hlatched : s.resyncRequired = false := by simpa using hlatch
    constructor
    case ordered =>
      rw [hheard]
      refine List.pairwise_append.mpr ⟨h.ordered, List.pairwise_singleton _ _, fun e he e' he' => ?_⟩
      obtain rfl := List.mem_singleton.mp he'
      have hbounds := h.bounds e he
      omega
    case bounds =>
      intro e he
      rw [hheard, List.mem_append, List.mem_singleton] at he
      rcases he with he | rfl
      · have hbounds := h.bounds e he
        exact ⟨hbounds.1, by omega⟩
      · simp only
        omega
    case genuine =>
      intro e he
      rw [hheard, List.mem_append, List.mem_singleton] at he
      rcases he with he | rfl
      · exact hgenuine e (h.genuine e he)
      · exact .inr ⟨List.mem_append_right _ (List.mem_singleton_self _), hevent⟩
    case covered =>
      intro e he hafter hconcerns
      rw [hheard, List.mem_append, List.mem_singleton]
      rw [List.mem_append, List.mem_singleton] at he
      rcases he with he | rfl
      · rcases h.covered e he hafter hconcerns with hheard | hrest
        · exact .inl (.inl hheard)
        · exact .inr hrest
      · exact .inl (.inr rfl)
    case latched => exact fun htrue => by cases hlatched.symm.trans htrue
    case plain =>
      intro _ e he
      rcases List.mem_append.mp he with he | he
      · exact h.plain hlatched e he
      · exact List.mem_singleton.mp he ▸ hkind

theorem Served.take (h : Served accepted s)
    (hnumbered : Journal.Numbered FileWatchEvent.sequence 0 accepted) {limit : ℕ} (hlimit : 0 < limit) :
    Served accepted (s.take limit accepted.length).1 := by
  have hheard : (s.take limit accepted.length).1.heard = s.heard := by
    simp only [SubscriptionState.heard, SubscriptionState.take, List.map_append, List.map_map,
      Function.comp_def, List.map_id', List.append_assoc, List.take_append_drop]
  have hrestarted : ∀ e, s.Restarted e → (s.take limit accepted.length).1.Restarted e := by
    rintro e ⟨heard, hmem, hresync⟩
    exact ⟨heard, List.mem_append_left _ hmem, hresync⟩
  rcases hlatch : s.resyncRequired with _ | _
  · have hflag : (s.take limit accepted.length).1.resyncRequired = false := by
      simp only [SubscriptionState.take, hlatch, Bool.false_and]
    constructor
    case ordered => exact hheard ▸ h.ordered
    case bounds => exact hheard ▸ h.bounds
    case genuine => exact hheard ▸ h.genuine
    case covered =>
      intro e he hstart hconcerns
      rcases h.covered e he hstart hconcerns with hmem | hrest | htrue
      · exact .inl (hheard ▸ hmem)
      · exact .inr (.inl (hrestarted e hrest))
      · cases hlatch.symm.trans htrue
    case latched => exact fun htrue => by cases hflag.symm.trans htrue
    case plain => exact fun _ e he => h.plain hlatch e (List.mem_of_mem_drop he)
  · -- The queue is the resync event alone, and this read returns it.
    obtain ⟨n, hqueue⟩ := h.latched hlatch
    have htaken : s.queue.take limit = [resyncEvent s.key n] := by
      rw [hqueue, List.take_of_length_le (Nat.succ_le_of_lt hlimit)]
    have hflag : (s.take limit accepted.length).1.resyncRequired = false := by
      simp [SubscriptionState.take, htaken, resyncEvent]
    constructor
    case ordered => exact hheard ▸ h.ordered
    case bounds => exact hheard ▸ h.bounds
    case genuine => exact hheard ▸ h.genuine
    case covered =>
      intro e he _ _
      refine .inr (.inl ⟨⟨resyncEvent s.key n, accepted.length⟩, ?_, rfl, ?_⟩)
      · simp [SubscriptionState.take, htaken]
      · simpa using (hnumbered.bounds he).2
    case latched => exact fun htrue => by cases hflag.symm.trans htrue
    case plain =>
      intro _ e he
      have hrest : s.queue.drop limit = [] := by
        rw [hqueue, List.drop_eq_nil_iff]
        exact Nat.succ_le_of_lt hlimit
      simp only [SubscriptionState.take, hrest] at he
      cases he

theorem Served.fresh {r : FileWatchRegistry} {subscription : FileWatchSubscription} {start : ℕ}
    (hnumbered : Journal.Numbered FileWatchEvent.sequence 0 r.accepted)
    (hcount : r.sequenceValue = r.accepted.length)
    (hhistory : r.eventHistory = Journal.keep (o.maxQueueEvents * 2) r.accepted)
    (hkinds : ∀ e ∈ r.accepted, e.isResync = false) (hstart : start ≤ r.sequenceValue) :
    Served r.accepted ⟨subscription, start, (replay o r start subscription.key).1,
      (replay o r start subscription.key).2, start, []⟩ := by
  have hqueue : 0 < o.maxQueueEvents * 2 := by
    have hpositive := o.batchPositive
    have hbound := o.batchBound
    omega
  have hstale : start ≠ r.sequenceValue → Served r.accepted ⟨subscription, start,
      [resyncEvent subscription.key r.sequenceValue], true, start, []⟩ := by
    intro hne
    constructor
    case ordered => exact List.pairwise_singleton _ _
    case bounds =>
      intro e he
      obtain rfl := List.mem_singleton.mp he
      simp only [resyncEvent]
      omega
    case genuine =>
      intro e he
      obtain rfl := List.mem_singleton.mp he
      exact .inl rfl
    case covered => exact fun e _ _ _ => .inr (.inr rfl)
    case latched => exact fun _ => ⟨_, rfl⟩
    case plain => exact fun hfalse => by cases hfalse
  unfold replay
  split_ifs with hnothing
  · constructor
    case ordered => exact .nil
    case bounds => exact fun e he => by cases he
    case genuine => exact fun e he => by cases he
    case covered =>
      intro e he hafter _
      have hbounds := hnumbered.bounds he
      rcases hnothing with hequal | hempty
      · simp only at hafter
        omega
      · rw [hhistory, Journal.keep, List.drop_eq_nil_iff] at hempty
        omega
    case latched => exact fun htrue => by cases htrue
    case plain => exact fun _ e he => by cases he
  · have hne : start ≠ r.sequenceValue := fun hequal => hnothing (.inl hequal)
    rcases hreplay : Journal.replay FileWatchEvent.sequence r.eventHistory start with _ | later
    · exact hstale hne
    · rw [hhistory] at hreplay
      obtain rfl := Journal.replay_events hqueue hnumbered hreplay
      simp only
      split_ifs with hmany
      · exact hstale hne
      · constructor
        case ordered => exact (hnumbered.increasing.filter _).filter _
        case bounds =>
          intro e he
          obtain ⟨hlater, -⟩ := List.mem_filter.mp he
          obtain ⟨hmem, hafter⟩ := List.mem_filter.mp hlater
          have hbounds := hnumbered.bounds hmem
          simp only [decide_eq_true_eq] at hafter
          exact ⟨hafter, by omega⟩
        case genuine =>
          intro e he
          obtain ⟨hlater, hconcerns⟩ := List.mem_filter.mp he
          exact .inr ⟨(List.mem_filter.mp hlater).1, hconcerns⟩
        case covered =>
          intro e he hafter hconcerns
          exact .inl (List.mem_filter.mpr ⟨List.mem_filter.mpr ⟨he, by simpa using hafter⟩, hconcerns⟩)
        case latched => exact fun htrue => by cases htrue
        case plain =>
          intro _ e he
          obtain ⟨hlater, -⟩ := List.mem_filter.mp he
          exact hkinds e (List.mem_filter.mp hlater).1

end Served

def undigit36 (u : UInt16) : ℕ := if u.toNat < 58 then u.toNat - 48 else u.toNat - 87

theorem undigit36_digit36 {n : ℕ} (hn : n < 36) : undigit36 (digit36 n) = n := by
  have hall : ∀ n < 36, undigit36 (digit36 n) = n := by decide
  exact hall n hn

theorem base36_injective {m n : ℕ} (hm : 0 < m) (hn : 0 < n) (h : base36 m = base36 n) : m = n := by
  rw [base36, if_neg (Nat.ne_of_gt hm), base36, if_neg (Nat.ne_of_gt hn), List.reverse_inj] at h
  have hread : ∀ k, ((Nat.digits 36 k).map digit36).map undigit36 = Nat.digits 36 k := by
    intro k
    rw [List.map_map]
    refine (List.map_congr_left fun d hd => ?_).trans (List.map_id _)
    exact undigit36_digit36 (Nat.digits_lt_base (by decide) hd)
  apply Nat.digits.injective 36
  rw [← hread m, ← hread n, h]

theorem watchId_injective {m n : ℕ} (hm : 0 < m) (hn : 0 < n) (h : watchId m = watchId n) :
    m = n :=
  base36_injective hm hn (List.append_cancel_left h)

section Registry
variable {r : FileWatchRegistry}

structure Tracked (o : FileWatchRegistryOptions) (r : FileWatchRegistry) : Prop where
  numbered : Journal.Numbered FileWatchEvent.sequence 0 r.accepted
  count : r.sequenceValue = r.accepted.length
  history : r.eventHistory = Journal.keep (o.maxQueueEvents * 2) r.accepted
  kinds : ∀ e ∈ r.accepted, e.isResync = false
  started : ∀ k s, r.subscriptions.get k = some s → s.start ≤ r.accepted.length
  served : ∀ k s, r.subscriptions.get k = some s → Served r.accepted s
  ended : ∀ past ∈ r.ended, past.2 ≤ r.accepted.length ∧ Served (r.accepted.take past.2) past.1
  ids : ∀ k s, r.subscriptions.get k = some s → ∃ n, 0 < n ∧ n ≤ r.subscriptionSequence ∧
    k = watchId n
  total : r.subscriptions.size + r.ended.length = r.subscriptionSequence

theorem tracked_initial (o : FileWatchRegistryOptions) : Tracked o .initial := by
  constructor
  case numbered => exact Journal.numbered_nil
  case count => rfl
  case history => exact List.drop_nil.symm
  case kinds => exact fun e he => by cases he
  case started => exact fun k s hs => by cases hs
  case served => exact fun k s hs => by cases hs
  case ended => exact fun past hpast => by cases hpast
  case ids => exact fun k s hs => by cases hs
  case total => rfl

theorem Tracked.unissued (h : Tracked o r) :
    r.subscriptions.get (watchId (r.subscriptionSequence + 1)) = none := by
  rcases hget : r.subscriptions.get (watchId (r.subscriptionSequence + 1)) with _ | s
  · rfl
  · obtain ⟨n, hpositive, hle, hid⟩ := h.ids _ s hget
    have hsame := watchId_injective (Nat.succ_pos _) hpositive hid
    omega

theorem Tracked.enter (h : Tracked o r) (key : FileWatchKey) (clientId : Str) {start : ℕ}
    (hstart : start ≤ r.sequenceValue) : Tracked o (r.enter o key clientId start).1 := by
  have hget : ∀ k s, (r.enter o key clientId start).1.subscriptions.get k = some s →
      k = watchId (r.subscriptionSequence + 1) ∧
        s = ⟨⟨watchId (r.subscriptionSequence + 1), key, clientId⟩, start,
          (replay o r start key).1, (replay o r start key).2, start, []⟩ ∨
      r.subscriptions.get k = some s := by
    intro k s hs
    simp only [FileWatchRegistry.enter, OrderedMap.get_set] at hs
    split_ifs at hs with hk
    · exact .inl ⟨hk, (Option.some.inj hs).symm⟩
    · exact .inr hs
  constructor
  case numbered => exact h.numbered
  case count => exact h.count
  case history => exact h.history
  case kinds => exact h.kinds
  case started =>
    intro k s hs
    rcases hget k s hs with ⟨-, rfl⟩ | hold
    · exact h.count ▸ hstart
    · exact h.started k s hold
  case served =>
    intro k s hs
    rcases hget k s hs with ⟨-, rfl⟩ | hold
    · exact Served.fresh h.numbered h.count h.history h.kinds hstart
    · exact h.served k s hold
  case ended => exact h.ended
  case ids =>
    intro k s hs
    rcases hget k s hs with ⟨rfl, -⟩ | hold
    · exact ⟨_, Nat.succ_pos _, Nat.le_refl _, rfl⟩
    · obtain ⟨n, hpositive, hle, hid⟩ := h.ids k s hold
      exact ⟨n, hpositive, Nat.le_succ_of_le hle, hid⟩
  case total =>
    have hsize := OrderedMap.size_set_absent h.unissued
      ⟨⟨watchId (r.subscriptionSequence + 1), key, clientId⟩, start,
        (replay o r start key).1, (replay o r start key).2, start, []⟩
    have htotal := h.total
    simp only [FileWatchRegistry.enter] at hsize ⊢
    omega

theorem Tracked.accept (h : Tracked o r) {fact : FileWatchEventInput} (hkind : fact.kind ≠ .resync) :
    Tracked o (r.accept o fact).1 := by
  have hlength : (r.accept o fact).1.accepted.length = r.accepted.length + 1 := List.length_append
  have hplain : FileWatchEvent.isResync ⟨o.serverId, fact, r.sequenceValue + 1⟩ = false := by
    simpa [FileWatchEvent.isResync] using hkind
  constructor
  case numbered =>
    apply h.numbered.concat
    have hcount := h.count
    simp only
    omega
  case count => simpa [FileWatchRegistry.accept] using h.count
  case history =>
    simp only [FileWatchRegistry.accept, h.history, Journal.record_keep]
  case kinds =>
    intro e he
    rcases List.mem_append.mp he with he | he
    · exact h.kinds e he
    · exact List.mem_singleton.mp he ▸ hplain
  case started =>
    intro k s hs
    simp only [FileWatchRegistry.accept, OrderedMap.get_map, Option.map_eq_some_iff] at hs
    obtain ⟨s, hs, rfl⟩ := hs
    have hstarted := h.started k s hs
    have hsame : ∀ event, (Files.enqueue o s event).start = s.start := by
      intro event
      unfold Files.enqueue
      split_ifs
      · rfl
      · rfl
      · rfl
    rw [hlength]
    split_ifs
    · rw [hsame]
      omega
    · omega
  case served =>
    intro k s hs
    simp only [FileWatchRegistry.accept, OrderedMap.get_map, Option.map_eq_some_iff] at hs
    obtain ⟨s, hs, rfl⟩ := hs
    simp only [FileWatchRegistry.accept]
    split_ifs with hconcerns
    · exact (h.served k s hs).enqueue hconcerns hplain (by rw [h.count]) (h.started k s hs)
    · exact (h.served k s hs).skip (Bool.eq_false_iff.mpr hconcerns)
  case ended =>
    intro past hpast
    obtain ⟨hle, hserved⟩ := h.ended past hpast
    rw [hlength, FileWatchRegistry.accept, List.take_append_of_le_length hle]
    exact ⟨Nat.le_succ_of_le hle, hserved⟩
  case ids =>
    intro k s hs
    simp only [FileWatchRegistry.accept, OrderedMap.get_map, Option.map_eq_some_iff] at hs
    obtain ⟨s, hs, rfl⟩ := hs
    exact h.ids k s hs
  case total => simpa [FileWatchRegistry.accept] using h.total

theorem Tracked.remove (h : Tracked o r) {subscriptionId : Str} {s : SubscriptionState}
    (hs : r.subscriptions.get subscriptionId = some s) {byKey : OrderedMap Str Str} :
    Tracked o { r with
      subscriptions := r.subscriptions.delete subscriptionId
      subscriptionsByKey := byKey
      ended := r.ended ++ [(s, r.sequenceValue)] } := by
  have hget : ∀ k found, (r.subscriptions.delete subscriptionId).get k = some found →
      r.subscriptions.get k = some found := by
    intro k found hfound
    rw [OrderedMap.get_delete] at hfound
    split_ifs at hfound
    exact hfound
  constructor
  case numbered => exact h.numbered
  case count => exact h.count
  case history => exact h.history
  case kinds => exact h.kinds
  case started => exact fun k found hfound => h.started k found (hget k found hfound)
  case served => exact fun k found hfound => h.served k found (hget k found hfound)
  case ended =>
    intro past hpast
    rcases List.mem_append.mp hpast with hpast | hpast
    · exact h.ended past hpast
    · obtain rfl := List.mem_singleton.mp hpast
      refine ⟨Nat.le_of_eq h.count, ?_⟩
      rw [h.count, List.take_length]
      exact h.served _ s hs
  case ids => exact fun k found hfound => h.ids k found (hget k found hfound)
  case total =>
    have hsize := OrderedMap.size_delete hs
    have htotal := h.total
    simp only [List.length_append, List.length_singleton]
    omega

theorem Tracked.take (h : Tracked o r) {subscriptionId : Str} {s : SubscriptionState}
    (hs : r.subscriptions.get subscriptionId = some s) {limit : ℕ} (hlimit : 0 < limit) :
    Tracked o { r with
      subscriptions := r.subscriptions.set subscriptionId (s.take limit r.sequenceValue).1 } := by
  have hget : ∀ k found,
      (r.subscriptions.set subscriptionId (s.take limit r.sequenceValue).1).get k = some found →
      k = subscriptionId ∧ found = (s.take limit r.sequenceValue).1 ∨
        r.subscriptions.get k = some found := by
    intro k found hfound
    rw [OrderedMap.get_set] at hfound
    split_ifs at hfound with hk
    · exact .inl ⟨hk, (Option.some.inj hfound).symm⟩
    · exact .inr hfound
  constructor
  case numbered => exact h.numbered
  case count => exact h.count
  case history => exact h.history
  case kinds => exact h.kinds
  case started =>
    intro k found hfound
    rcases hget k found hfound with ⟨-, rfl⟩ | hold
    · exact h.started _ s hs
    · exact h.started k found hold
  case served =>
    intro k found hfound
    rcases hget k found hfound with ⟨-, rfl⟩ | hold
    · rw [h.count]
      exact (h.served _ s hs).take h.numbered hlimit
    · exact h.served k found hold
  case ended => exact h.ended
  case ids =>
    intro k found hfound
    rcases hget k found hfound with ⟨rfl, -⟩ | hold
    · exact h.ids _ s hs
    · exact h.ids k found hold
  case total => exact (OrderedMap.size_set_present hs _).symm ▸ h.total

theorem Tracked.remember (h : Tracked o r) (fact : FileWatchEventInput) :
    Tracked o (rememberFingerprint r fact) := { h with }

theorem checkInput_kind {input fact : FileWatchEventInput} (h : checkInput o input = .ok fact) :
    fact.kind ≠ .resync := by
  obtain ⟨_, -, h⟩ := bind_ok.mp h
  obtain ⟨_, -, h⟩ := bind_ok.mp h
  obtain ⟨_, -, h⟩ := bind_ok.mp h
  obtain ⟨_, hkind, h⟩ := bind_ok.mp h
  obtain ⟨_, -, h⟩ := bind_ok.mp h
  obtain ⟨_, -, h⟩ := bind_ok.mp h
  obtain ⟨_, -, h⟩ := bind_ok.mp h
  cases h
  exact refuseIf_ok.mp hkind

/-- Everything that a publish can do. -/
theorem publish_cases (o : FileWatchRegistryOptions) (r : FileWatchRegistry)
    (input : FileWatchEventInput) :
    (∃ e, publish o input r = (.error e, r)) ∨
    ∃ fact, checkInput o input = .ok fact ∧
      (fact ∈ r.recentFingerprints ∧ publish o input r =
          (.ok ⟨false, true, none, []⟩,
            { r with
              answered := r.answered ++ [fact]
              turn := r.turn ++ [fact] }) ∨
        fact ∉ r.recentFingerprints ∧
          ((∃ e, publish o input r = (.error e, rememberFingerprint r fact)) ∨
            publish o input r = (.ok ((rememberFingerprint r fact).accept o fact).2,
              ((rememberFingerprint r fact).accept o fact).1))) := by
  rcases hcheck : checkInput o input with e | fact
  · refine .inl ⟨e, ?_⟩
    simp [publish, bind, Fallible.check, hcheck]
  · refine .inr ⟨fact, rfl, ?_⟩
    by_cases hrecent : fact ∈ r.recentFingerprints
    · refine .inl ⟨hrecent, ?_⟩
      simp [publish, bind, pure, Fallible.check, Fallible.get, Fallible.modify, hcheck, hrecent]
    · refine .inr ⟨hrecent, ?_⟩
      by_cases hroom : maxSafeNumber ≤ r.sequenceValue
      · refine .inl ⟨js "file watch sequence exhausted", ?_⟩
        simp [publish, bind, Fallible.check, Fallible.get, Fallible.modify, refuseIf, hcheck, hrecent, hroom]
      · right
        simp [publish, bind, pure, Fallible.check, Fallible.get, Fallible.modify, refuseIf, hcheck, hrecent,
          hroom]

theorem startingPoint_le {afterSequence : Option ℤ} {n start : ℕ}
    (h : startingPoint afterSequence n = .ok start) : start ≤ n := by
  unfold startingPoint at h
  split at h
  · cases h
    exact Nat.le_refl _
  · split_ifs at h with hvalid
    cases h
    simp only [isCountNumber, Bool.and_eq_true, decide_eq_true_eq] at hvalid
    omega

theorem subscribe_ends {I : FileWatchRegistry → Prop} (options : FileWatchSubscriptionOptions)
    (h : I r) (hkeys : ∀ byKey, I { r with subscriptionsByKey := byKey })
    (henter : ∀ byKey key clientId start, start ≤ r.sequenceValue →
      I (FileWatchRegistry.enter o { r with subscriptionsByKey := byKey } key clientId start).1) :
    Fallible.Ends (subscribe o options) r (fun _ => I) I := by
  simp only [subscribe, Fallible.ends_bind, Fallible.ends_check, Fallible.ends_get]
  refine ⟨fun clientId _ => ⟨fun projectId _ => ⟨fun folderId _ => ⟨fun resource _ =>
    ⟨fun start hstart => ⟨fun _ _ => ?_, fun _ => h⟩, fun _ => h⟩, fun _ => h⟩, fun _ => h⟩,
    fun _ => h⟩, fun _ => h⟩
  split
  · exact h
  · simp only [Fallible.ends_bind, Fallible.ends_modify, Fallible.ends_check, Fallible.ends_get,
      Fallible.ends_pure]
    refine ⟨fun _ _ => ⟨fun _ _ => ?_, fun _ => hkeys _⟩, fun _ => hkeys _⟩
    exact henter _ _ clientId start (startingPoint_le hstart)

theorem read_ends {I : FileWatchRegistry → Prop} (subscriptionId : Str) (limit : Option ℤ)
    (aborted : Bool) (h : I r)
    (htake : ∀ s n, r.subscriptions.get subscriptionId = some s → 0 < n → I { r with
      subscriptions := r.subscriptions.set subscriptionId (s.take n r.sequenceValue).1 }) :
    Fallible.Ends (read o subscriptionId limit aborted) r (fun _ => I) I := by
  simp only [read, Fallible.ends_bind, Fallible.ends_check, Fallible.ends_get, Fallible.ends_modify,
    Fallible.ends_pure]
  refine ⟨fun _ _ => ⟨fun s hs => ⟨fun _ hlimit => ?_, fun _ => h⟩, fun _ => h⟩, fun _ => h⟩
  rw [demand_ok] at hs
  rw [refuseIf_ok] at hlimit
  exact htake s _ hs (by omega)

theorem Tracked.step (h : Tracked o r) (input : WatchInput) : Tracked o (watchStep o r input) := by
  cases input with
  | subscribe options =>
    have hkeys : ∀ byKey, Tracked o { r with subscriptionsByKey := byKey } := fun _ => { h with }
    exact (subscribe_ends options h hkeys fun byKey key clientId start hstart =>
      (hkeys byKey).enter key clientId hstart).state
  | unsubscribe subscriptionId =>
    simp only [watchStep, unsubscribe, bind, Fallible.get]
    rcases hs : r.subscriptions.get subscriptionId with _ | s
    · exact h
    · exact h.remove hs
  | publish input =>
    simp only [watchStep]
    obtain ⟨e, hpublish⟩ | ⟨fact, hfact, hrest⟩ := publish_cases o r input
    · rw [hpublish]
      exact h
    · obtain ⟨-, hpublish⟩ | ⟨-, ⟨e, hpublish⟩ | hpublish⟩ := hrest
      · rw [hpublish]
        exact { h with }
      · rw [hpublish]
        exact h.remember fact
      · rw [hpublish]
        exact (h.remember fact).accept (checkInput_kind hfact)
  | read subscriptionId limit aborted =>
    exact (read_ends subscriptionId limit aborted h fun s n hs hn => h.take hs hn).state
  | endTurn =>
    simp only [watchStep, endTurn, Fallible.modify]
    split_ifs
    · exact { h with }
    · exact h

def placeOf (fact : FileWatchEventInput) : Str × Option Str × Str :=
  (fact.projectId, fact.folderId, fact.resource)

def latest (place : Str × Option Str × Str) (facts : List FileWatchEventInput) :
    Option FileWatchEventInput :=
  (facts.filter fun fact => placeOf fact == place).getLast?

theorem latest_concat (place : Str × Option Str × Str) (facts : List FileWatchEventInput)
    (fact : FileWatchEventInput) : latest place (facts ++ [fact]) =
      if placeOf fact = place then some fact else latest place facts := by
  rw [latest, List.filter_append]
  split_ifs with hplace
  · simp [hplace]
  · simp [hplace, latest]

def repeatsLast (o : FileWatchRegistryOptions) (r : FileWatchRegistry) : WatchInput → Bool
  | .publish input =>
    match checkInput o input with
    | .ok fact => !r.recentFingerprints.contains fact || latest (placeOf fact) r.turn == some fact
    | .error _ => true
  | _ => true

structure Current (r : FileWatchRegistry) : Prop where
  published : ∀ place,
    latest place r.answered = latest place (r.accepted.map FileWatchEvent.fact)
  turn : ∀ place fact, latest place r.turn = some fact →
    latest place (r.accepted.map FileWatchEvent.fact) = some fact

theorem current_initial : Current .initial where
  published _ := rfl
  turn place fact h := by cases h

theorem Current.repeated (h : Current r) {fact : FileWatchEventInput}
    (hlast : latest (placeOf fact) r.turn = some fact) :
    Current { r with
      answered := r.answered ++ [fact]
      turn := r.turn ++ [fact] } where
  published place := by
    simp only [latest_concat]
    split_ifs with hplace
    · exact hplace ▸ (h.turn _ fact hlast).symm
    · exact h.published place
  turn place found hfound := by
    simp only [latest_concat] at hfound
    split_ifs at hfound with hplace
    · cases hfound
      exact hplace ▸ h.turn _ fact hlast
    · exact h.turn place found hfound

theorem Current.accept (h : Current r) (fact : FileWatchEventInput) :
    Current (r.accept o fact).1 where
  published place := by
    simp only [FileWatchRegistry.accept, List.map_append, List.map_cons, List.map_nil, latest_concat,
      h.published place]
  turn place found hfound := by
    simp only [FileWatchRegistry.accept, List.map_append, List.map_cons, List.map_nil,
      latest_concat] at hfound ⊢
    split_ifs at hfound ⊢
    · exact hfound
    · exact h.turn place found hfound

theorem Current.step (h : Current r) (input : WatchInput) (hlast : repeatsLast o r input = true) :
    Current (watchStep o r input) := by
  cases input with
  | subscribe options =>
    exact (subscribe_ends options h (fun _ => { h with }) fun _ _ _ _ _ => { h with }).state
  | unsubscribe subscriptionId =>
    simp only [watchStep, unsubscribe, bind, Fallible.get]
    rcases hs : r.subscriptions.get subscriptionId with _ | s
    · exact h
    · exact { h with }
  | publish input =>
    simp only [watchStep]
    obtain ⟨e, hpublish⟩ | ⟨fact, hfact, hrest⟩ := publish_cases o r input
    · rw [hpublish]
      exact h
    · obtain ⟨hrecent, hpublish⟩ | ⟨-, ⟨e, hpublish⟩ | hpublish⟩ := hrest
      · rw [hpublish]
        exact h.repeated (by simpa [repeatsLast, hfact, hrecent] using hlast)
      · rw [hpublish]
        exact { h with }
      · rw [hpublish]
        have hremembered : Current (rememberFingerprint r fact) := { h with }
        exact hremembered.accept fact
  | read subscriptionId limit aborted =>
    exact (read_ends subscriptionId limit aborted h fun _ _ _ _ => { h with }).state
  | endTurn =>
    simp only [watchStep, endTurn, Fallible.modify]
    split_ifs
    · exact ⟨h.published, fun place fact hfact => by cases hfact⟩
    · exact h

end Registry

section Runs
variable (o)

abbrev afterWatch (inputs : List WatchInput) : FileWatchRegistry :=
  Runs.after (watchStep o) .initial inputs

structure WatchKept (inputs : List WatchInput) : Prop where
  /-- Accepted events are numbered from one without a gap. -/
  numbered : ∀ (i : ℕ) (e : FileWatchEvent),
    (afterWatch o inputs).accepted[i]? = some e → e.sequence = i + 1
  served : ∀ k s, (afterWatch o inputs).subscriptions.get k = some s →
    Served (afterWatch o inputs).accepted s
  ended : ∀ past ∈ (afterWatch o inputs).ended,
    Served ((afterWatch o inputs).accepted.take past.2) past.1
  /-- Every subscription that was issued is one of these. -/
  total : (afterWatch o inputs).subscriptions.size + (afterWatch o inputs).ended.length =
    (afterWatch o inputs).subscriptionSequence
  duplicates : ∀ past input later, inputs = past ++ .publish input :: later →
    (publish o input (afterWatch o past)).1 = .ok ⟨false, true, none, []⟩ →
    ∃ fact, checkInput o input = .ok fact ∧
      latest (placeOf fact) ((afterWatch o past).accepted.map FileWatchEvent.fact) = some fact
  /-- Once all is read, the last event heard of a resource is of its last published fact. -/
  lastHeard : ∀ k s, (afterWatch o inputs).subscriptions.get k = some s → s.queue = [] →
    ∀ place fact, latest place (afterWatch o inputs).answered = some fact →
    ∃ e ∈ (afterWatch o inputs).accepted, e.fact = fact ∧
      (s.start < e.sequence → s.key.concerns e = true →
        s.Restarted e ∨ e ∈ s.heard ∧ ∀ e' ∈ s.heard, e'.isResync = false →
          placeOf e'.fact = place → e'.sequence ≤ e.sequence)

variable {o}

theorem latest_accepted {accepted : List FileWatchEvent}
    (hnumbered : Journal.Numbered FileWatchEvent.sequence 0 accepted)
    {place : Str × Option Str × Str} {fact : FileWatchEventInput}
    (h : latest place (accepted.map FileWatchEvent.fact) = some fact) :
    ∃ e ∈ accepted, e.fact = fact ∧
      ∀ e' ∈ accepted, placeOf e'.fact = place → e'.sequence ≤ e.sequence := by
  simp only [latest, List.filter_map, List.getLast?_map, Option.map_eq_some_iff] at h
  obtain ⟨e, he, rfl⟩ := h
  obtain ⟨earlier, hearlier⟩ := List.getLast?_eq_some_iff.mp he
  have hincreasing := hnumbered.increasing.filter ((fun fact => placeOf fact == place) ∘ FileWatchEvent.fact)
  rw [hearlier] at hincreasing
  have hmem := List.mem_of_getLast? he
  refine ⟨e, (List.mem_filter.mp hmem).1, rfl, fun e' he' hplace => ?_⟩
  have hfound : e' ∈ earlier ++ [e] := by
    rw [← hearlier, List.mem_filter]
    exact ⟨he', by simpa using hplace⟩
  rcases List.mem_append.mp hfound with hbefore | hlast
  · exact Nat.le_of_lt ((List.pairwise_append.mp hincreasing).2.2 e' hbefore e
      (List.mem_singleton_self e))
  · exact Nat.le_of_eq (congrArg FileWatchEvent.sequence (List.mem_singleton.mp hlast))

theorem tracked_after (inputs : List WatchInput) : Tracked o (afterWatch o inputs) :=
  Runs.invariant (fun _ input h => h.step input) (tracked_initial o) inputs

theorem current_after {inputs : List WatchInput}
    (h : Runs.Meets (watchStep o) (fun r input => repeatsLast o r input = true) .initial inputs) :
    Current (afterWatch o inputs) :=
  Runs.invariant_of_meets (fun _ input hr hlast => hr.step input hlast) current_initial h

theorem watch_runs {inputs : List WatchInput}
    (h : Runs.Meets (watchStep o) (fun r input => repeatsLast o r input = true) .initial inputs) :
    WatchKept o inputs := by
  have htracked := tracked_after (o := o) inputs
  have hcurrent := current_after h
  constructor
  case numbered =>
    intro i e he
    have hnumber := htracked.numbered i e he
    omega
  case served => exact htracked.served
  case ended => exact fun past hpast => (htracked.ended past hpast).2
  case total => exact htracked.total
  case duplicates =>
    intro past input later hsplit hduplicate
    subst hsplit
    obtain ⟨hpast, hlast, -⟩ := Runs.meets_append.mp h
    obtain ⟨e, hpublish⟩ | ⟨fact, hfact, hrest⟩ := publish_cases o (afterWatch o past) input
    · rw [hpublish] at hduplicate
      cases hduplicate
    · refine ⟨fact, hfact, ?_⟩
      obtain ⟨hrecent, -⟩ | ⟨-, ⟨e, hpublish⟩ | hpublish⟩ := hrest
      · exact (current_after hpast).turn _ fact (by simpa [repeatsLast, hfact, hrecent] using hlast)
      · rw [hpublish] at hduplicate
        cases hduplicate
      · rw [hpublish] at hduplicate
        cases hduplicate
  case lastHeard =>
    intro k s hs hread place fact hfact
    rw [hcurrent.published] at hfact
    obtain ⟨e, he, hefact, hlast⟩ := latest_accepted htracked.numbered hfact
    refine ⟨e, he, hefact, fun hstart hconcerns => ?_⟩
    have hserved := htracked.served k s hs
    rcases hserved.covered e he hstart hconcerns with hheard | hrestarted | hlatched
    · refine .inr ⟨hheard, fun e' he' hplain hplace => ?_⟩
      rcases hserved.genuine e' he' with hresync | ⟨hmem, -⟩
      · cases hplain.symm.trans hresync
      · exact hlast e' hmem hplace
    · exact .inl hrestarted
    · obtain ⟨n, hqueue⟩ := hserved.latched hlatched
      cases hread.symm.trans hqueue

def watchOptions : FileWatchRegistryOptions :=
  ⟨js "server", 8, 4, 2, 64, by decide, by decide⟩

def fileFact (kind : FileWatchEventKind) : FileWatchEventInput :=
  ⟨js "project", none, js "src/main.ts", kind, none, none, none⟩

def watchFolder : FileWatchSubscriptionOptions :=
  ⟨js "client", js "project", none, js "src", false, none⟩

theorem watch_runs_read : WatchKept watchOptions
    [.subscribe watchFolder, .publish (fileFact .created), .publish (fileFact .created), .endTurn,
      .publish (fileFact .changed), .publish (fileFact .deleted), .endTurn,
      .publish (fileFact .changed), .read (js "watch-1") none false,
      .read (js "watch-1") (some 1) false] :=
  watch_runs (by decide +kernel)

/-- Created, deleted and created again in one turn: the last fact is dropped. -/
theorem watch_not_kept : ¬ WatchKept watchOptions
    [.subscribe watchFolder, .publish (fileFact .created), .publish (fileFact .deleted),
      .publish (fileFact .created)] := by
  intro h
  obtain ⟨fact, hfact, hlast⟩ := h.duplicates
    [.subscribe watchFolder, .publish (fileFact .created), .publish (fileFact .deleted)]
    (fileFact .created) [] rfl (by decide +kernel)
  have hchecked : checkInput watchOptions (fileFact .created) = .ok (fileFact .created) := by
    decide +kernel
  cases hchecked.symm.trans hfact
  revert hlast
  decide +kernel

end Runs

end Terminay.Files
