import Terminay.Script.Integers
import Terminay.Workspace.History

/-!
# The retained history of a store

Whatever state a store begins with, its history is a chain of commits that ends at the current
state, cut off at the front by two bounds.
-/

namespace Terminay.Workspace
open Script

variable {ν : Type} [Engine ν]

section Linked

structure Follows (st : WorkspaceState ν) (change : CommittedChange ν) : Prop where
  previous : change.previous = st
  revision : change.state.revision = st.revision + 1
  event : change.event.revision = st.revision + 1
  fromRevision : change.record.fromRevision = st.revision
  recorded : change.record.revision = st.revision + 1
  difference : change.record.difference = workspaceStateDifference st change.state
  bytes : change.bytes = recordBytes change.record

def Linked : WorkspaceState ν → List (CommittedChange ν) → WorkspaceState ν → Prop
  | st, [], st' => st = st'
  | st, change :: changes, st' => Follows st change ∧ Linked change.state changes st'

variable {st st' : WorkspaceState ν} {changes : List (CommittedChange ν)}

theorem Linked.snoc {change : CommittedChange ν} (h : Linked st changes st')
    (hc : Follows st' change) : Linked st (changes ++ [change]) change.state := by
  induction changes generalizing st with
  | nil =>
    have he : st = st' := h
    exact ⟨he ▸ hc, rfl⟩
  | cons first changes ih => exact ⟨h.1, ih h.2⟩

theorem Linked.suffix {kept : List (CommittedChange ν)} (h : Linked st changes st')
    (hsuffix : kept <:+ changes) : ∃ mid, Linked mid kept st' := by
  induction changes generalizing st with
  | nil => exact ⟨st, by rwa [List.suffix_nil.mp hsuffix]⟩
  | cons first changes ih =>
    rcases List.suffix_cons_iff.mp hsuffix with hall | hrest
    · exact ⟨st, by rwa [hall]⟩
    · exact ih h.2 hrest

theorem Linked.revision (h : Linked st changes st') :
    st'.revision = st.revision + changes.length := by
  induction changes generalizing st with
  | nil =>
    have he : st = st' := h
    rw [he, List.length_nil, Nat.add_zero]
  | cons first changes ih =>
    have hrest := ih h.2
    have hfirst := h.1.revision
    rw [hrest, hfirst, List.length_cons]
    omega

theorem Linked.later (h : Linked st changes st') :
    ∀ change ∈ changes, st.revision < change.event.revision := by
  induction changes generalizing st with
  | nil => exact fun change hm => by cases hm
  | cons first changes ih =>
    intro change hm
    have hfirst := h.1.event
    have hstate := h.1.revision
    rcases List.mem_cons.mp hm with rfl | hrest
    · omega
    · have hlater := ih h.2 change hrest
      omega

theorem Linked.reaches (h : Linked st changes st') {n : ℕ} (hafter : st.revision < n)
    (hle : n ≤ st'.revision) : ∃ change ∈ changes, change.event.revision = n := by
  induction changes generalizing st with
  | nil =>
    have he : st = st' := h
    rw [he] at hafter
    omega
  | cons first changes ih =>
    have hfirst := h.1.event
    have hstate := h.1.revision
    rcases Nat.lt_or_ge first.state.revision n with hlt | hge
    · obtain ⟨change, hm, hn⟩ := ih h.2 hlt
      exact ⟨change, List.mem_cons_of_mem _ hm, hn⟩
    · exact ⟨first, List.mem_cons_self, by omega⟩

theorem Linked.since (h : Linked st changes st') {r : ℕ} (hr : st.revision ≤ r)
    (hle : r ≤ st'.revision) : ∃ mid, mid.revision = r ∧
      Linked mid (changes.filter fun change => r < change.event.revision) st' := by
  induction changes generalizing st with
  | nil =>
    have he : st = st' := h
    exact ⟨st, by rw [he] at hr ⊢; omega, h⟩
  | cons first changes ih =>
    rcases Nat.eq_or_lt_of_le hr with heq | hlt
    · refine ⟨st, heq, ?_⟩
      rw [List.filter_eq_self.mpr fun change hm => decide_eq_true (heq ▸ h.later change hm)]
      exact h
    · have hfirst := h.1.event
      have hstate := h.1.revision
      rw [List.filter_cons_of_neg (by rw [decide_eq_true_eq]; omega)]
      exact ih h.2 (by omega)

end Linked

section Retained

structure Retained (s : WorkspaceStore ν) : Prop where
  linked : ∃ st, Linked st s.history s.current
  count : s.history.length ≤ s.maxHistory
  total : s.historyBytes = (s.history.map fun change => change.bytes).sum
  within : s.historyBytes ≤ s.maxHistoryBytes ∨ s.history.length ≤ 1
  distinct : (s.outcomes.map fun e => e.1).Nodup
  few : s.outcomes.length ≤ s.maxHistory * 2

def Holds (s : WorkspaceStore ν) (r : ℕ) : Prop :=
  ∀ n, r < n → n ≤ s.current.revision → ∃ change ∈ s.history, change.event.revision = n

def AnswersDelta (s : WorkspaceStore ν) : Prop :=
  ∀ r, r ≤ s.current.revision → r ≤ maxSafeInteger →
    (Holds s r → ∃ changes st, delta s r = .ok (some changes) ∧ st.revision = r ∧
      Linked st changes s.current) ∧
    (¬ Holds s r → delta s r = .ok none)

variable {s : WorkspaceStore ν}

theorem Retained.answersDelta (h : Retained s) : AnswersDelta s := by
  obtain ⟨st, hlinked⟩ := h.linked
  intro r hle hsafe
  have hvalid : ¬ (maxSafeInteger < r ∨ s.current.revision < r) := by omega
  have hrevision := hlinked.revision
  rw [delta, if_neg hvalid]
  constructor
  · intro hholds
    have hreach : st.revision ≤ r := by
      rcases Nat.lt_or_ge r s.current.revision with hlt | hge
      · obtain ⟨change, hm, hn⟩ := hholds (r + 1) (by omega) hlt
        have hlater := hlinked.later change hm
        omega
      · omega
    obtain ⟨mid, hmid, hsince⟩ := hlinked.since hreach hle
    refine ⟨_, mid, if_pos ?_, hmid, hsince⟩
    rcases Nat.lt_or_ge r s.current.revision with hlt | hge
    · right
      rcases hhistory : s.history with _ | ⟨first, rest⟩
      · rw [hhistory] at hrevision
        rw [List.length_nil] at hrevision
        omega
      · rw [hhistory] at hlinked
        have hfirst := hlinked.1.event
        exact ⟨first.event.revision, rfl, by omega⟩
    · exact .inl (by omega)
  · intro hmissing
    refine if_neg fun hreachable => hmissing fun n hn hcurrent => ?_
    rcases hreachable with heq | ⟨m, hm, hle'⟩
    · omega
    · obtain ⟨first, hfirst, rfl⟩ := Option.map_eq_some_iff.mp hm
      obtain ⟨rest, hrest⟩ := List.head?_eq_some_iff.mp hfirst
      rw [hrest] at hlinked ⊢
      have hevent := hlinked.1.event
      exact hlinked.reaches (by omega) hcurrent

section

omit [Engine ν]

theorem retain_total [DecidableEq ν] (maxHistory maxHistoryBytes : ℕ)
    (history : List (CommittedChange ν)) (outcomes : Outcomes ν) :
    (retain maxHistory maxHistoryBytes history (history.map fun change => change.bytes).sum
      outcomes).2.1 =
    ((retain maxHistory maxHistoryBytes history (history.map fun change => change.bytes).sum
      outcomes).1.map fun change => change.bytes).sum := by
  induction history generalizing outcomes with
  | nil => rfl
  | cons dropped rest ih =>
    cases rest with
    | nil => rfl
    | cons newer rest =>
      rw [retain]
      split
      · rw [List.map_cons, List.sum_cons, Nat.add_sub_cancel_left]
        exact ih _
      · rfl

theorem retain_within [DecidableEq ν] {maxHistory : ℕ} (hmax : 0 < maxHistory)
    (maxHistoryBytes : ℕ) (history : List (CommittedChange ν)) (bytes : ℕ) (outcomes : Outcomes ν) :
    let kept := retain maxHistory maxHistoryBytes history bytes outcomes
    kept.1.length ≤ maxHistory ∧ (kept.2.1 ≤ maxHistoryBytes ∨ kept.1.length ≤ 1) := by
  induction history generalizing bytes outcomes with
  | nil => exact ⟨Nat.zero_le _, .inr (Nat.zero_le _)⟩
  | cons dropped rest ih =>
    cases rest with
    | nil => exact ⟨hmax, .inr (Nat.le_refl _)⟩
    | cons newer rest =>
      rw [retain]
      split
      · exact ih _ _
      · rename_i hkeep
        have hlength : (dropped :: newer :: rest).length = rest.length + 2 := rfl
        dsimp only
        rw [hlength]
        exact ⟨by omega, .inl (by omega)⟩

theorem forget_sublist [DecidableEq ν] (outcomes : Outcomes ν) (event : WorkspaceEvent ν) :
    (outcomes.forget event).Sublist outcomes := by
  rw [Outcomes.forget]
  split
  · split
    · exact List.filter_sublist
    · exact List.Sublist.refl _
  · exact List.Sublist.refl _

theorem retain_outcomes [DecidableEq ν] (maxHistory maxHistoryBytes : ℕ)
    (history : List (CommittedChange ν)) (bytes : ℕ) (outcomes : Outcomes ν) :
    (retain maxHistory maxHistoryBytes history bytes outcomes).2.2.Sublist outcomes := by
  induction history generalizing bytes outcomes with
  | nil => exact List.Sublist.refl _
  | cons dropped rest ih =>
    cases rest with
    | nil => exact List.Sublist.refl _
    | cons newer rest =>
      rw [retain]
      split
      · exact (ih _ _).trans (forget_sublist _ _)
      · exact List.Sublist.refl _

end

theorem commitOf_follows (s : WorkspaceStore ν) (next : WorkspaceState ν) (commandId : ProtocolId)
    (type : Str) (changedIds : List (Json ν)) :
    Follows s.current (commitOf s next commandId type changedIds) :=
  ⟨rfl, rfl, rfl, rfl, rfl, rfl, rfl⟩

theorem install_retained (h : Retained s) (hmax : 0 < s.maxHistory) (next : WorkspaceState ν)
    (commandId : ProtocolId) (type : Str) (changedIds : List (Json ν)) :
    Retained (install s next commandId type changedIds) := by
  obtain ⟨st, hlinked⟩ := h.linked
  have hcommit := commitOf_follows s next commandId type changedIds
  have hbytes : s.historyBytes + (commitOf s next commandId type changedIds).bytes =
      ((s.history ++ [commitOf s next commandId type changedIds]).map fun change =>
        change.bytes).sum := by
    rw [List.map_append, List.sum_append, h.total]
    rfl
  have hwithin := retain_within hmax s.maxHistoryBytes
    (s.history ++ [commitOf s next commandId type changedIds])
    (s.historyBytes + (commitOf s next commandId type changedIds).bytes) s.outcomes
  have hforgets := retain_outcomes s.maxHistory s.maxHistoryBytes
    (s.history ++ [commitOf s next commandId type changedIds])
    (s.historyBytes + (commitOf s next commandId type changedIds).bytes) s.outcomes
  refine ⟨(hlinked.snoc hcommit).suffix (retain_suffix _ _ _ _ _), hwithin.1, ?_, hwithin.2,
    h.distinct.sublist (hforgets.map _), hforgets.length_le.trans h.few⟩
  rw [install]
  dsimp only
  rw [hbytes]
  exact retain_total _ _ _ _

omit [Engine ν] in
theorem set_new {outcomes : Outcomes ν} {commandId : ProtocolId}
    (hnew : outcomes.get commandId = none) (outcome : WorkspaceApplyOutcome ν) :
    outcomes.set commandId outcome = outcomes ++ [(commandId, outcome)] ∧
      commandId ∉ outcomes.map fun e => e.1 := by
  have hnone : ∀ e ∈ outcomes, ¬ (e.1 == commandId) = true := by
    rw [Outcomes.get, Option.map_eq_none_iff] at hnew
    exact List.find?_eq_none.mp hnew
  refine ⟨?_, fun hm => ?_⟩
  · rw [Outcomes.set, if_neg]
    intro hany
    obtain ⟨e, he, hid⟩ := List.any_eq_true.mp hany
    exact hnone e he hid
  · obtain ⟨e, he, rfl⟩ := List.mem_map.mp hm
    exact hnone e he (beq_self_eq_true _)

theorem remember_retained (h : Retained s) {commandId : ProtocolId}
    (hnew : s.outcomes.get commandId = none) (outcome : WorkspaceApplyOutcome ν) :
    Retained (remember s commandId outcome) := by
  obtain ⟨hset, hfresh⟩ := set_new hnew outcome
  refine ⟨h.linked, h.count, h.total, h.within, ?_, ?_⟩
  · rw [remember]
    dsimp only
    rw [hset]
    refine List.Nodup.sublist ((List.drop_sublist _ _).map _) ?_
    rw [List.map_append]
    refine List.Nodup.append h.distinct (List.nodup_singleton _) fun id hid hin => ?_
    rw [List.map_singleton, List.mem_singleton] at hin
    rw [hin] at hid
    exact hfresh hid
  · rw [remember]
    dsimp only
    rw [List.length_drop]
    omega

omit [Engine ν] in
theorem get_none_sublist {kept outcomes : Outcomes ν} (hsub : kept.Sublist outcomes)
    {commandId : ProtocolId} (hnew : outcomes.get commandId = none) :
    kept.get commandId = none := by
  rw [Outcomes.get, Option.map_eq_none_iff, List.find?_eq_none] at hnew ⊢
  exact fun e he => hnew e (hsub.subset he)

theorem committed_retained (h : Retained s) (hmax : 0 < s.maxHistory)
    {envelope : WorkspaceCommandEnvelope ν} (hnew : s.outcomes.get envelope.commandId = none)
    (edited : Edited ν) : Retained (committed s envelope edited).1 := by
  have hinstalled := install_retained h hmax edited.1 envelope.commandId envelope.command.type
    edited.2
  exact remember_retained hinstalled (get_none_sublist (retain_outcomes _ _ _ _ _) hnew) _

end Retained

section Steps

variable {s : WorkspaceStore ν}

def Advances (s s' : WorkspaceStore ν) : Prop :=
  (s'.current = s.current ∧ s'.history = s.history ∧ s'.historyBytes = s.historyBytes) ∨
    ∃ change, Follows s.current change ∧ s'.current = change.state ∧
      s'.history <:+ s.history ++ [change] ∧ s'.history.getLast? = some change

theorem install_advances (next : WorkspaceState ν) (commandId : ProtocolId) (type : Str)
    (changedIds : List (Json ν)) : Advances s (install s next commandId type changedIds) :=
  .inr ⟨_, commitOf_follows s next commandId type changedIds, rfl, retain_suffix _ _ _ _ _,
    (retain_getLast? _ _ _ _ _).trans List.getLast?_concat⟩

structure RetentionKept (s s' : WorkspaceStore ν) : Prop where
  advances : Advances s s'
  bounds : s'.maxHistory = s.maxHistory ∧ s'.maxHistoryBytes = s.maxHistoryBytes
  retained : Retained s → 0 < s.maxHistory → Retained s'

theorem RetentionKept.refl (s : WorkspaceStore ν) : RetentionKept s s :=
  ⟨.inl ⟨rfl, rfl, rfl⟩, ⟨rfl, rfl⟩, fun h _ => h⟩

theorem install_kept (next : WorkspaceState ν) (commandId : ProtocolId) (type : Str)
    (changedIds : List (Json ν)) : RetentionKept s (install s next commandId type changedIds) :=
  ⟨install_advances next commandId type changedIds, ⟨rfl, rfl⟩,
    fun h hmax => install_retained h hmax next commandId type changedIds⟩

theorem refuse_kept {commandId : ProtocolId} (hnew : s.outcomes.get commandId = none)
    (message : Str) : RetentionKept s (refuse s commandId message).1 :=
  ⟨.inl ⟨rfl, rfl, rfl⟩, ⟨rfl, rfl⟩, fun h _ => remember_retained h hnew _⟩

theorem apply_kept (s : WorkspaceStore ν) (envelope : WorkspaceCommandEnvelope ν) (now : ν)
    (written : Bool) : RetentionKept s (apply s envelope now written).1 := by
  have happlied := apply_cases s envelope now written
  generalize apply s envelope now written = applied at happlied ⊢
  cases happlied with
  | malformed hid => exact RetentionKept.refl s
  | replayed prior hprior => exact RetentionKept.refl s
  | stale hnew hstale => exact refuse_kept hnew _
  | rejected hnew message hdraft => exact refuse_kept hnew _
  | unwritten hnew hwritten => exact RetentionKept.refl s
  | committed hid hnew hfresh edited hdraft hwritten =>
    exact ⟨install_advances edited.1 _ _ _, ⟨rfl, rfl⟩,
      fun h hmax => committed_retained h hmax hnew edited⟩

theorem recover_kept (next : WorkspaceState ν) (changedIds : List ProtocolId)
    (commandId : String) (written : Bool) : RetentionKept s (recover s next changedIds commandId written) := by
  rw [recover]
  split_ifs with hnone hok
  · exact RetentionKept.refl s
  · exact install_kept _ _ _ _
  · exact RetentionKept.refl s

theorem ensureAutomationSpace_kept (root : Str) (written : Bool) :
    RetentionKept s (ensureAutomationSpace s root written) := by
  rw [ensureAutomationSpace]
  split
  · exact RetentionKept.refl s
  · split
    · exact RetentionKept.refl s
    · split
      · exact install_kept _ _ _ _
      · exact RetentionKept.refl s

theorem run_kept (s : WorkspaceStore ν) (call : StoreCall ν) (written : Bool) :
    RetentionKept s (call.run s written) := by
  cases call with
  | apply envelope now => exact apply_kept s envelope now written
  | ensureAutomationSpace root => exact ensureAutomationSpace_kept root written
  | markInterruptedSessions at_ => exact recover_kept _ _ _ written
  | reconcileHeldTerminalSessions live exited at_ => exact recover_kept _ _ _ written
  | discardStaleTerminalState => exact recover_kept _ _ _ written

theorem runCalls_retained (h : Retained s) (hmax : 0 < s.maxHistory)
    (calls : List (StoreCall ν × Bool)) :
    Retained (runCalls s calls) ∧ (runCalls s calls).maxHistory = s.maxHistory ∧
      (runCalls s calls).maxHistoryBytes = s.maxHistoryBytes := by
  induction calls generalizing s with
  | nil => exact ⟨h, rfl, rfl⟩
  | cons call calls ih =>
    have hkept := run_kept s call.1 call.2
    have hstep := ih (hkept.retained h hmax) (by rw [hkept.bounds.1]; exact hmax)
    rw [hkept.bounds.1, hkept.bounds.2] at hstep
    exact hstep

theorem newStore_retained (initial : WorkspaceState ν) (maxHistory maxHistoryBytes : ℕ) :
    Retained (newStore initial maxHistory maxHistoryBytes) :=
  ⟨⟨initial, rfl⟩, Nat.zero_le _, rfl, .inr (Nat.zero_le _), List.nodup_nil, Nat.zero_le _⟩

end Steps

section Refusals

variable {s : WorkspaceStore ν}

section

omit [Engine ν]

theorem get_append_other {outcomes : Outcomes ν} {commandId id : ProtocolId} (hne : id ≠ commandId)
    (outcome : WorkspaceApplyOutcome ν) :
    Outcomes.get (outcomes ++ [(commandId, outcome)]) id = outcomes.get id := by
  rw [Outcomes.get, Outcomes.get, List.find?_append]
  have hother : List.find? (fun e => e.1 == id) [(commandId, outcome)] = none := by
    refine List.find?_eq_none.mpr fun e he => ?_
    rw [List.mem_singleton.mp he, beq_iff_eq]
    exact fun h => hne h.symm
  rw [hother, Option.or_none]

theorem get_append_self {outcomes : Outcomes ν} {commandId : ProtocolId}
    (hnew : outcomes.get commandId = none) (outcome : WorkspaceApplyOutcome ν) :
    Outcomes.get (outcomes ++ [(commandId, outcome)]) commandId = some outcome := by
  rw [Outcomes.get, Option.map_eq_none_iff] at hnew
  have hself : List.find? (fun e => e.1 == commandId) [(commandId, outcome)] =
      some (commandId, outcome) := List.find?_cons_of_pos (beq_self_eq_true commandId)
  rw [Outcomes.get, List.find?_append, hnew, Option.none_or, hself]
  rfl

theorem remember_others (hfew : s.outcomes.length ≤ s.maxHistory * 2) {commandId : ProtocolId}
    (hnew : s.outcomes.get commandId = none) (outcome : WorkspaceApplyOutcome ν)
    {id : ProtocolId} (hne : id ≠ commandId) :
    (remember s commandId outcome).outcomes.get id = s.outcomes.get id ∨
      s.outcomes.length = s.maxHistory * 2 ∧ (s.outcomes.head?.map fun e => e.1) = some id := by
  obtain ⟨hset, -⟩ := set_new hnew outcome
  rw [remember]
  dsimp only
  rw [hset, List.length_append, List.length_singleton]
  rcases Nat.lt_or_ge s.outcomes.length (s.maxHistory * 2) with hlt | hge
  · have hnone : s.outcomes.length + 1 - s.maxHistory * 2 = 0 := by omega
    rw [hnone, List.drop_zero]
    exact .inl (get_append_other hne outcome)
  · have hone : s.outcomes.length + 1 - s.maxHistory * 2 = 1 := by omega
    rw [hone]
    rcases houtcomes : s.outcomes with _ | ⟨first, rest⟩
    · exact .inl rfl
    · rw [List.cons_append, List.drop_one, List.tail_cons, get_append_other hne]
      by_cases hfirst : first.1 = id
      · right
        refine ⟨?_, by rw [List.head?_cons, Option.map_some, hfirst]⟩
        rw [← houtcomes]
        omega
      · left
        rw [Outcomes.get, Outcomes.get, List.find?_cons_of_neg (by rwa [beq_iff_eq])]

theorem remember_own (hmax : 0 < s.maxHistory)
    {commandId : ProtocolId} (hnew : s.outcomes.get commandId = none)
    (outcome : WorkspaceApplyOutcome ν) :
    (remember s commandId outcome).outcomes.get commandId = some outcome := by
  obtain ⟨hset, -⟩ := set_new hnew outcome
  rw [remember]
  dsimp only
  rw [hset, List.length_append, List.length_singleton,
    List.drop_append_of_le_length (by omega)]
  exact get_append_self (get_none_sublist (List.drop_sublist _ _) hnew) outcome

end

/-- A call that fails takes nothing back: the ids of others are answered as before, but for the
oldest one when as many are remembered as may be, and a refused id is answered with its refusal. -/
structure FailsClean (s : WorkspaceStore ν) : Prop where
  unwritten : ∀ call : StoreCall ν, (call.run s false).current = s.current ∧
    (call.run s false).history = s.history
  thrown : ∀ envelope now written message, (apply s envelope now written).2 = .thrown message →
    (apply s envelope now written).1 = s
  refused : ∀ envelope now written conflict, (apply s envelope now written).2 = .refused conflict →
    (apply s envelope now written).1.current = s.current ∧
      (apply s envelope now written).1.history = s.history ∧
      (∀ id, id ≠ envelope.commandId →
        (apply s envelope now written).1.outcomes.get id = s.outcomes.get id ∨
          s.outcomes.length = s.maxHistory * 2 ∧ (s.outcomes.head?.map fun e => e.1) = some id) ∧
      (apply s envelope now written).1.outcomes.get envelope.commandId = some (.refused conflict)

theorem refuse_fails (h : Retained s) (hmax : 0 < s.maxHistory) {commandId : ProtocolId}
    (hnew : s.outcomes.get commandId = none) (message : Str) {conflict : WorkspaceConflict}
    (hrefused : (refuse s commandId message).2 = .refused conflict) :
    (∀ id, id ≠ commandId →
      (refuse s commandId message).1.outcomes.get id = s.outcomes.get id ∨
        s.outcomes.length = s.maxHistory * 2 ∧ (s.outcomes.head?.map fun e => e.1) = some id) ∧
      (refuse s commandId message).1.outcomes.get commandId = some (.refused conflict) := by
  cases hrefused
  exact ⟨fun id hne => remember_others h.few hnew _ hne,
    remember_own hmax hnew _⟩

theorem unwritten_kept (s : WorkspaceStore ν) (call : StoreCall ν) :
    (call.run s false).current = s.current ∧ (call.run s false).history = s.history := by
  have hrecover : ∀ (next : WorkspaceState ν) (changedIds : List ProtocolId) (commandId : String),
      recover s next changedIds commandId false = s := by
    intro next changedIds commandId
    rw [recover, Bool.and_false]
    split
    · rfl
    · exact if_neg Bool.false_ne_true
  cases call with
  | apply envelope now =>
    have happlied := apply_cases s envelope now false
    rw [StoreCall.run]
    generalize apply s envelope now false = applied at happlied ⊢
    cases happlied with
    | committed hid hnew hfresh edited hdraft hwritten => cases hwritten
    | _ => exact ⟨rfl, rfl⟩
  | ensureAutomationSpace root =>
    rw [StoreCall.run, ensureAutomationSpace]
    split
    · exact ⟨rfl, rfl⟩
    · split
      · exact ⟨rfl, rfl⟩
      · exact ⟨rfl, rfl⟩
  | markInterruptedSessions at_ =>
    rw [StoreCall.run, markInterruptedSessions, hrecover]
    exact ⟨rfl, rfl⟩
  | reconcileHeldTerminalSessions live exited at_ =>
    rw [StoreCall.run, reconcileHeldTerminalSessions, hrecover]
    exact ⟨rfl, rfl⟩
  | discardStaleTerminalState =>
    rw [StoreCall.run, discardStaleTerminalState, hrecover]
    exact ⟨rfl, rfl⟩

theorem Retained.failsClean (h : Retained s) (hmax : 0 < s.maxHistory) : FailsClean s := by
  refine ⟨unwritten_kept s, fun envelope now written message hthrown => ?_,
    fun envelope now written conflict hrefused => ?_⟩
  · have happlied := apply_cases s envelope now written
    generalize apply s envelope now written = applied at happlied hthrown ⊢
    cases happlied with
    | malformed hid => rfl
    | replayed prior hprior => rfl
    | stale hnew hstale => cases hthrown
    | rejected hnew other hdraft => cases hthrown
    | unwritten hnew hwritten => rfl
    | committed hid hnew hfresh edited hdraft hwritten => cases hthrown
  · have happlied := apply_cases s envelope now written
    generalize apply s envelope now written = applied at happlied hrefused ⊢
    cases happlied with
    | malformed hid => cases hrefused
    | replayed prior hprior =>
      cases prior with
      | ok revision cursor event => cases hrefused
      | refused told =>
        cases hrefused
        exact ⟨rfl, rfl, fun id hne => .inl rfl, hprior⟩
    | stale hnew hstale => exact ⟨rfl, rfl, refuse_fails h hmax hnew _ hrefused⟩
    | rejected hnew message hdraft => exact ⟨rfl, rfl, refuse_fails h hmax hnew _ hrefused⟩
    | unwritten hnew hwritten => cases hrefused
    | committed hid hnew hfresh edited hdraft hwritten => cases hrefused

def staleCall (commandId : String) : StoreCall ℤ × Bool :=
  (.apply ⟨js commandId, some 7, ⟨js "view.create", ∅⟩⟩ 0, true)

def smallStore (calls : List (StoreCall ℤ × Bool)) : WorkspaceStore ℤ :=
  runCalls (newStore (initialWorkspace (js "srv")) 1 8388608) calls

end Refusals

end Terminay.Workspace
