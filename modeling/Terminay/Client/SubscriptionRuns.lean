import Terminay.Client.Subscription
import Terminay.Lib.Lists
import Terminay.Script.Integers

/-!
# Every event reaches the first listener

From the last resync notice on, the first listener of a subscription is called
with every event, once and in order of arrival, as long as nothing waits behind a
notice when it is registered and what waits is sorted by revision.
-/

namespace Terminay.Client
open Script Workspace Lists

variable {ν : Type} {s : EventSubscription ν} {first : ℕ}

def EventSubscription.told (s : EventSubscription ν) (listener : ℕ) : List (Arrival ν) :=
  (s.heard.filter fun d => d.1 = listener ∧ s.sinceResync ≤ d.2.number).map Prod.snd

/-- The first listener has every event since the last notice, every resync listener the last
notice, and no listener is turned away for an overflow that did not happen. -/
structure Delivered (s : EventSubscription ν) : Prop where
  first : ∀ listener, s.listeners.head? = some listener →
    s.told listener = s.arrivals.drop s.sinceResync
  noticed : ∀ listener ∈ s.resyncListeners, ∀ r, s.resync = some r →
    ((s.noticed.filter fun d => d.1 = listener).getLast?.map Prod.snd) = some r
  open_ : s.unheard ≤ maxPreListenerEvents → s.overflow = false

/-- The first listener finds nothing behind a notice, and what waits in order of revision. -/
def Prompt (s : Subscriptions ν) : SubscriptionInput ν → Prop
  | .onEvent n _ => ∀ subscription, s.all[n]? = some subscription → subscription.listeners = [] →
    (subscription.resync.isSome = true → subscription.buffered = []) ∧
      subscription.buffered.Pairwise fun a b => a.event.revision ≤ b.event.revision
  | _ => True

structure Intact (s : EventSubscription ν) : Prop extends Delivered s where
  since : s.sinceResync ≤ s.arrivals.length
  few : s.buffered.length ≤ s.unheard
  nodup : s.listeners.Nodup
  emptied : s.listeners ≠ [] → s.buffered = []
  waiting : s.listeners = [] → s.heard = [] ∧
    (s.overflow = false → s.buffered = s.arrivals.drop s.sinceResync)
  numbers : ∀ (i : ℕ) a, s.arrivals[i]? = some a → a.number = i
  known : ∀ d ∈ s.heard, d.2.number < s.arrivals.length

theorem opened_intact (subscriptionId : ProtocolId) :
    Intact (EventSubscription.opened subscriptionId : EventSubscription ν) where
  first listener h := by cases h
  noticed listener h := by cases h
  open_ _ := rfl
  since := le_rfl
  few := le_rfl
  nodup := List.nodup_nil
  emptied h := absurd rfl h
  waiting _ := ⟨rfl, fun _ => rfl⟩
  numbers i a h := by cases h
  known d h := by cases h

theorem drop_concat {l : List (Arrival ν)} {a : Arrival ν} {k : ℕ} (h : k ≤ l.length) :
    (l ++ [a]).drop k = l.drop k ++ [a] :=
  List.drop_append_of_le_length h

theorem filter_listeners {listeners : List ℕ} (hnodup : listeners.Nodup) {listener : ℕ}
    (hin : listener ∈ listeners) (a : Arrival ν) {p : ℕ × Arrival ν → Bool}
    (hp : ∀ l, p (l, a) = decide (l = listener)) :
    (listeners.map fun l => (l, a)).filter p = [(listener, a)] := by
  induction listeners with
  | nil => cases hin
  | cons l rest ih =>
    obtain ⟨hfresh, hrest⟩ := List.nodup_cons.mp hnodup
    rw [List.map_cons]
    rcases List.mem_cons.mp hin with rfl | hin
    · rw [List.filter_cons_of_pos (by rw [hp]; exact decide_eq_true rfl)]
      have hnone : (rest.map fun l => (l, a)).filter p = [] := by
        apply List.filter_eq_nil_iff.mpr
        intro d hd
        obtain ⟨l, hl, rfl⟩ := List.mem_map.mp hd
        rw [hp, decide_eq_true_eq]
        exact fun heq => hfresh (heq ▸ hl)
      rw [hnone]
    · have hne : l ≠ listener := fun heq => hfresh (heq ▸ hin)
      rw [List.filter_cons_of_neg (by rw [hp, decide_eq_true_eq]; exact hne)]
      exact ih hrest hin

theorem Intact.event (h : Intact s) (e : ClientEvent ν) : Intact (s.event e) := by
  have hnumbers : ∀ (i : ℕ) a, (s.arrivals ++ [⟨s.arrivals.length, e⟩])[i]? = some a → a.number = i := by
    intro i a ha
    rcases get_concat.mp ha with hold | ⟨rfl, rfl⟩
    · exact h.numbers i a hold
    · rfl
  have hlength : (s.arrivals ++ [(⟨s.arrivals.length, e⟩ : Arrival ν)]).length =
      s.arrivals.length + 1 := List.length_append
  have hsince := h.since
  have hsince' : s.sinceResync ≤ (s.arrivals ++ [(⟨s.arrivals.length, e⟩ : Arrival ν)]).length := by
    rw [hlength]
    omega
  have hknown : ∀ d ∈ s.heard, d.2.number < (s.arrivals ++ [(⟨s.arrivals.length, e⟩ : Arrival ν)]).length :=
    fun d hd => by rw [hlength]; exact Nat.lt_succ_of_lt (h.known d hd)
  rw [EventSubscription.event]
  dsimp only
  by_cases hempty : s.listeners = []
  · have hfew := h.few
    obtain ⟨hheard, hwaiting⟩ := h.waiting hempty
    rw [if_pos hempty]
    split_ifs with hfull
    · refine ⟨⟨fun listener hl => ?_, h.noticed, fun hle => ?_⟩, hsince', Nat.zero_le _,
        h.nodup, fun _ => rfl, fun _ => ⟨hheard, nofun⟩, hnumbers, hknown⟩
      · rw [hempty] at hl
        cases hl
      · have hle' : s.unheard + 1 ≤ maxPreListenerEvents := hle
        omega
    · refine ⟨⟨fun listener hl => ?_, h.noticed, fun hle => h.open_ (le_trans (Nat.le_succ _) hle)⟩,
        hsince', ?_, h.nodup, fun hne => absurd hempty hne, fun _ => ⟨hheard, fun hopen => ?_⟩, hnumbers, hknown⟩
      · rw [hempty] at hl
        cases hl
      · rw [List.length_append, List.length_singleton]
        exact Nat.succ_le_succ hfew
      · dsimp only
        rw [hwaiting hopen, drop_concat hsince]
  · rw [if_neg hempty]
    refine ⟨⟨fun listener hl => ?_, h.noticed, h.open_⟩, hsince', h.few, h.nodup,
      h.emptied, fun hno => absurd hno hempty, hnumbers, fun d hd => ?_⟩
    · have hin : listener ∈ s.listeners := List.mem_of_mem_head? hl
      have hcalls := filter_listeners h.nodup hin ⟨s.arrivals.length, e⟩
        (p := fun d => decide (d.1 = listener ∧ s.sinceResync ≤ d.2.number)) fun l => by
          simp only [hsince, and_true]
      have hfirst := h.first listener hl
      rw [EventSubscription.told] at hfirst ⊢
      rw [drop_concat hsince, ← hfirst, List.filter_append, hcalls, List.map_append]
      rfl
    · rcases List.mem_append.mp hd with hold | hnew
      · exact hknown d hold
      · obtain ⟨l, -, rfl⟩ := List.mem_map.mp hnew
        rw [hlength]
        exact Nat.lt_succ_self _

theorem getLast_calls {α : Type} {calls : List (ℕ × α)} {listeners : List ℕ} {listener : ℕ}
    (hin : listener ∈ listeners) (r : α) :
    ((calls ++ listeners.map fun l => (l, r)).filter fun d => d.1 = listener).getLast?.map Prod.snd =
      some r := by
  have hmem : (listener, r) ∈ (listeners.map fun l => (l, r)).filter fun d => d.1 = listener :=
    List.mem_filter.mpr ⟨List.mem_map.mpr ⟨listener, hin, rfl⟩, decide_eq_true rfl⟩
  rw [List.filter_append, List.getLast?_append]
  rcases hlast : ((listeners.map fun l => (l, r)).filter fun d => d.1 = listener).getLast? with _ | d
  · rw [List.getLast?_eq_none_iff] at hlast
    rw [hlast] at hmem
    cases hmem
  · have hd := (List.mem_filter.mp (List.mem_of_getLast? hlast)).1
    obtain ⟨l, -, rfl⟩ := List.mem_map.mp hd
    rw [hlast]
    rfl

theorem Intact.resynced (h : Intact s) (r : ClientSubscriptionResync ν) : Intact (s.resynced r) := by
  refine ⟨⟨fun listener hl => ?_, fun listener hl r' hr => ?_, h.open_⟩, le_rfl, Nat.zero_le _, h.nodup,
    fun _ => rfl, fun hempty => ⟨(h.waiting hempty).1, fun _ => ?_⟩, h.numbers, h.known⟩
  · have hnone : s.heard.filter (fun d => d.1 = listener ∧ s.arrivals.length ≤ d.2.number) = [] := by
      apply List.filter_eq_nil_iff.mpr
      intro d hd
      have hlt := h.known d hd
      simp only [decide_eq_true_eq, not_and]
      omega
    change (s.heard.filter fun d => d.1 = listener ∧ s.arrivals.length ≤ d.2.number).map Prod.snd =
      s.arrivals.drop s.arrivals.length
    rw [hnone, List.drop_length]
    rfl
  · cases hr
    exact getLast_calls hl r
  · exact List.drop_length.symm

theorem Intact.onResync (h : Intact s) (listener : ℕ) : Intact (s.onResync listener) := by
  refine ⟨⟨h.first, fun l hl r hr => ?_, h.open_⟩, h.since, h.few, h.nodup, h.emptied, h.waiting,
    h.numbers, h.known⟩
  have hr' : s.resync = some r := hr
  have hcalls : (s.onResync listener).noticed = s.noticed ++ [listener].map fun l => (l, r) := by
    rw [EventSubscription.onResync, hr']
    rfl
  rw [hcalls]
  by_cases heq : l = listener
  · exact getLast_calls (List.mem_singleton.mpr heq) r
  · have hold : l ∈ s.resyncListeners := by
      have hl' : l ∈ EventSubscription.addListener s.resyncListeners listener := hl
      rw [EventSubscription.addListener] at hl'
      split_ifs at hl'
      · exact hl'
      · rcases List.mem_append.mp hl' with hin | hin
        · exact hin
        · exact absurd (List.mem_singleton.mp hin) heq
    have hnone : ([listener].map fun l => (l, r)).filter (fun d => d.1 = l) = [] := by
      apply List.filter_eq_nil_iff.mpr
      intro d hd
      rw [List.map_singleton, List.mem_singleton] at hd
      rw [hd, decide_eq_true_eq]
      exact fun hno => heq hno.symm
    rw [List.filter_append, hnone, List.append_nil]
    exact h.noticed l hold r hr'

theorem addListener_nodup {listeners : List ℕ} (h : listeners.Nodup) (listener : ℕ) :
    (EventSubscription.addListener listeners listener).Nodup := by
  rw [EventSubscription.addListener]
  split_ifs with hin
  · exact h
  · apply List.Nodup.append h (List.nodup_singleton _)
    intro l hl hnew
    rw [List.mem_singleton.mp hnew] at hl
    exact hin hl

theorem addListener_head (listeners : List ℕ) (listener : ℕ) :
    (EventSubscription.addListener listeners listener).head? =
      some (listeners.head?.getD listener) := by
  rw [EventSubscription.addListener]
  rcases listeners with _ | ⟨l, rest⟩
  · rfl
  · split_ifs
    · rfl
    · rfl

theorem byRevision_sorted {arrivals : List (Arrival ν)}
    (h : arrivals.Pairwise fun a b => a.event.revision ≤ b.event.revision) :
    EventSubscription.byRevision arrivals = arrivals :=
  h.insertionSort_eq

theorem Intact.drop_numbers (h : Intact s) {a : Arrival ν} (ha : a ∈ s.arrivals.drop s.sinceResync) :
    s.sinceResync ≤ a.number ∧ a.number < s.arrivals.length := by
  obtain ⟨i, hi⟩ := List.mem_iff_getElem?.mp ha
  rw [List.getElem?_drop] at hi
  have hnumber := h.numbers _ a hi
  have hlt := (List.getElem?_eq_some_iff.mp hi).1
  omega

theorem told_all {arrivals : List (Arrival ν)} {since : ℕ} (listener : ℕ)
    (h : ∀ a ∈ arrivals, since ≤ a.number) :
    ((arrivals.map fun a => (listener, a)).filter fun d =>
      d.1 = listener ∧ since ≤ d.2.number).map Prod.snd = arrivals := by
  rw [List.filter_eq_self.mpr, List.map_map]
  · exact List.map_id' arrivals
  · intro d hd
    obtain ⟨a, ha, rfl⟩ := List.mem_map.mp hd
    exact decide_eq_true ⟨rfl, h a ha⟩

theorem Intact.firstListener (h : Intact s) {listener : ℕ} (hempty : s.listeners = []) {heard : List (ℕ × Arrival ν)}
    (hheard : heard = (s.arrivals.drop s.sinceResync).map fun a => (listener, a)) :
    Intact { s with
      listeners := EventSubscription.addListener s.listeners listener
      buffered := []
      heard := heard } := by
  have hhead := addListener_head s.listeners listener
  have hsome : EventSubscription.addListener s.listeners listener ≠ [] := by
    intro hno
    rw [hno] at hhead
    cases hhead
  refine ⟨⟨fun l hl => ?_, h.noticed, h.open_⟩, h.since, Nat.zero_le _,
    addListener_nodup h.nodup listener, fun _ => rfl, fun hno => absurd hno hsome, h.numbers,
    fun d hd => ?_⟩
  · have hl' : l = listener := by
      have hfirst : (EventSubscription.addListener s.listeners listener).head? = some l := hl
      rw [hhead, hempty] at hfirst
      exact (Option.some.inj hfirst).symm
    rw [hl', EventSubscription.told]
    dsimp only
    rw [hheard]
    exact told_all listener fun a ha => (h.drop_numbers ha).1
  · have hd' : d ∈ heard := hd
    rw [hheard] at hd'
    obtain ⟨a, ha, rfl⟩ := List.mem_map.mp hd'
    exact (h.drop_numbers ha).2

theorem Intact.laterListener (h : Intact s) (hsome : s.listeners ≠ []) (listener : ℕ) :
    Intact { s with
      listeners := EventSubscription.addListener s.listeners listener
      buffered := [] } := by
  have hhead := addListener_head s.listeners listener
  have hadded : EventSubscription.addListener s.listeners listener ≠ [] := by
    intro hno
    rw [hno] at hhead
    cases hhead
  refine ⟨⟨fun l hl => ?_, h.noticed, h.open_⟩, h.since, Nat.zero_le _,
    addListener_nodup h.nodup listener, fun _ => rfl, fun hno => absurd hno hadded, h.numbers, h.known⟩
  have hl' : (EventSubscription.addListener s.listeners listener).head? = some l := hl
  refine h.first l ?_
  rw [hhead] at hl'
  rcases hlisteners : s.listeners with _ | ⟨first, rest⟩
  · exact absurd hlisteners hsome
  · rw [hlisteners] at hl'
    exact hl'

theorem Intact.onEvent (h : Intact s) {listener : ℕ}
    (hprompt : s.listeners = [] → (s.resync.isSome = true → s.buffered = []) ∧
      s.buffered.Pairwise fun a b => a.event.revision ≤ b.event.revision) :
    Intact (s.onEvent listener) := by
  rw [EventSubscription.onEvent]
  by_cases hover : s.overflow = true
  · rw [if_pos hover]
    exact h
  rw [if_neg hover]
  rw [Bool.not_eq_true] at hover
  dsimp only
  by_cases hempty : s.listeners = []
  · obtain ⟨hnothing, hsorted⟩ := hprompt hempty
    obtain ⟨hheard, hwaiting⟩ := h.waiting hempty
    have hbuffered := hwaiting hover
    split_ifs with hnone
    · refine h.firstListener hempty ?_
      rw [hheard, List.nil_append, byRevision_sorted hsorted, hbuffered]
    · rw [← Option.not_isSome, Bool.not_eq_true', Bool.not_eq_false] at hnone
      refine h.firstListener hempty ?_
      rw [hheard, ← hbuffered, hnothing hnone]
      rfl
  · have hbuffered := h.emptied hempty
    have hlater := h.laterListener hempty listener
    split_ifs with hnone
    · rw [hbuffered]
      have hsame : s.heard ++ (EventSubscription.byRevision []).map (fun a => (listener, a)) =
          s.heard := List.append_nil _
      rw [hsame]
      exact hlater
    · exact hlater

section Runs

variable {t : Subscriptions ν}

def AllIntact (t : Subscriptions ν) : Prop :=
  ∀ (n : ℕ) subscription, t.all[n]? = some subscription → Intact subscription

theorem modify_intact (h : AllIntact t) (n : ℕ) {f : EventSubscription ν → EventSubscription ν}
    (hf : ∀ subscription, t.all[n]? = some subscription → Intact subscription →
      Intact (f subscription)) : AllIntact (t.modify n f) := by
  intro m subscription hm
  rw [Subscriptions.modify, List.getElem?_modify] at hm
  obtain ⟨old, hold, hnew⟩ := Option.map_eq_some_iff.mp hm
  rw [← hnew]
  split_ifs with heq
  · rw [← heq] at hold
    exact hf old hold (h n old hold)
  · exact h m old hold

theorem step_intact {input : SubscriptionInput ν} (h : AllIntact t) (hprompt : Prompt t input) :
    AllIntact (t.step input) := by
  have hregister : ∀ n (f : EventSubscription ν → EventSubscription ν),
      (∀ subscription, t.all[n]? = some subscription → Intact subscription →
        Intact (f subscription)) → AllIntact (t.register n f) := by
    intro n f hf
    refine modify_intact h n fun subscription hn hintact => ?_
    split_ifs
    · exact hf subscription hn hintact
    · exact hintact
  have hdeliver : ∀ subscriptionId (f : EventSubscription ν → EventSubscription ν),
      (∀ subscription, Intact subscription → Intact (f subscription)) →
        AllIntact (t.deliver subscriptionId f) := by
    intro subscriptionId f hf
    rw [Subscriptions.deliver]
    split
    · exact modify_intact h _ fun subscription _ hintact => hf subscription hintact
    · exact h
  cases input with
  | subscribe subscriptionId =>
    intro n subscription hn
    rcases get_concat.mp hn with hold | ⟨-, rfl⟩
    · exact h n subscription hold
    · exact opened_intact subscriptionId
  | subscribed n =>
    exact modify_intact h n fun subscription _ hintact =>
      ⟨⟨hintact.first, hintact.noticed, hintact.open_⟩, hintact.since, hintact.few, hintact.nodup, hintact.emptied,
        hintact.waiting, hintact.numbers, hintact.known⟩
  | failed n =>
    rw [Subscriptions.step, Subscriptions.failed]
    split
    · exact h
    · exact h
  | event subscriptionId e => exact hdeliver subscriptionId _ fun _ hintact => hintact.event e
  | resync subscriptionId r => exact hdeliver subscriptionId _ fun _ hintact => hintact.resynced r
  | onEvent n listener =>
    exact hregister n _ fun subscription hn hintact => hintact.onEvent (hprompt subscription hn)
  | onResync n listener => exact hregister n _ fun _ _ hintact => hintact.onResync listener
  | disconnected => exact h

theorem client_subscription_runs (inputs : List (SubscriptionInput ν))
    (h : Runs.Meets Subscriptions.step Prompt noSubscriptions inputs) :
    ∀ (n : ℕ) subscription,
      (Runs.after Subscriptions.step noSubscriptions inputs).all[n]? = some subscription →
        Delivered subscription := by
  have hstep : ∀ (t : Subscriptions ν) (input : SubscriptionInput ν), AllIntact t → Prompt t input →
      AllIntact (t.step input) := fun _ _ ht hprompt => step_intact ht hprompt
  have hempty : AllIntact (noSubscriptions : Subscriptions ν) := fun n subscription hn => by cases hn
  have hall := Runs.invariant_of_meets hstep hempty h
  exact fun n subscription hn => (hall n subscription hn).toDelivered

def news (revision : ℕ) : ClientEvent ℤ :=
  ⟨revision, natText revision, js "workspace.changed", .null, []⟩

def resynchronized : List (SubscriptionInput ℤ) :=
  [.subscribe (js "s"), .event (js "s") (news 3), .subscribed 0, .resync (js "s") ⟨4, js "4", none⟩,
    .onResync 0 1, .onEvent 0 2, .event (js "s") (news 5)]

theorem resynchronized_found : ((Runs.after Subscriptions.step noSubscriptions
    (resynchronized.take 5)).all.map fun subscription => subscription.buffered.length) = [0] := by
  decide +kernel

theorem client_subscription_runs_resynchronized :
    ∃ subscription, (Runs.after Subscriptions.step noSubscriptions resynchronized).all[0]? =
      some subscription ∧ Delivered subscription := by
  refine ⟨_, rfl, client_subscription_runs resynchronized ?_ 0 _ rfl⟩
  refine ⟨trivial, trivial, trivial, trivial, trivial, fun subscription hn _ => ?_, trivial, trivial⟩
  have hn' : (Runs.after Subscriptions.step noSubscriptions (resynchronized.take 5)).all[0]? =
      some subscription := hn
  have hfound := congrArg (fun l => l[0]?) resynchronized_found
  simp only [List.getElem?_map, hn', Option.map_some] at hfound
  have hnone : subscription.buffered = [] :=
    List.length_eq_zero_iff.mp (Option.some.inj hfound)
  rw [hnone]
  exact ⟨fun _ => rfl, List.Pairwise.nil⟩

def overlooked : List (SubscriptionInput ℤ) :=
  [.subscribe (js "s"), .subscribed 0, .resync (js "s") ⟨8, js "8", none⟩, .event (js "s") (news 9),
    .onEvent 0 1]

theorem overlooked_event : ((Runs.after Subscriptions.step noSubscriptions overlooked).all.map
    fun subscription => (subscription.listeners, (subscription.told 1).length,
      (subscription.arrivals.drop subscription.sinceResync).length)) = [([1], 0, 1)] := by
  decide +kernel

theorem event_dropped : ¬ ∀ (inputs : List (SubscriptionInput ℤ)) (n : ℕ) subscription,
    (Runs.after Subscriptions.step noSubscriptions inputs).all[n]? = some subscription →
      subscription.unheard ≤ maxPreListenerEvents → Delivered subscription := by
  intro h
  have hdelivered := h overlooked 0
  have hfound := congrArg (fun l => l[0]?) overlooked_event
  have hunheard : ((Runs.after Subscriptions.step noSubscriptions overlooked).all.map
      fun subscription => subscription.unheard)[0]? = some 1 := by decide +kernel
  rw [List.getElem?_map] at hfound hunheard
  obtain ⟨subscription, hn, hvalues⟩ := Option.map_eq_some_iff.mp hfound
  obtain ⟨subscription', hn', hcount⟩ := Option.map_eq_some_iff.mp hunheard
  obtain rfl := Option.some.inj (hn.symm.trans hn')
  simp only [Prod.mk.injEq] at hvalues
  obtain ⟨hlisteners, htold, hmissed⟩ := hvalues
  have hfirst := (hdelivered subscription hn (by rw [hcount]; decide)).first 1 (by rw [hlisteners]; rfl)
  rw [hfirst, hmissed] at htold
  cases htold

end Runs

end Terminay.Client
