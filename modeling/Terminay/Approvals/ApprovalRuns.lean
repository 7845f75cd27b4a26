import Terminay.Approvals.McpApprovals

/-!
# Runs of the approval service

Every request is answered at most once, an allowance always has its ground in the policy,
a grant or the user's own decision, nothing stays pending that the policy or a grant
decides, and grants end with their terminal and with a change of their group's policy.
-/

namespace Terminay.Approvals
open Script McpApprovalService

variable {s t : McpApprovalService}

def Allows (policy : McpPermissionPolicy) (granted : Bool) (decided : Option McpApprovalDecision) :
    Prop :=
  policy ≠ .deny ∧
    (policy = .allow ∨ policy = .ask ∧ granted = true ∨ decided = some .once ∨
      decided = some .session)

def Covered (s : McpApprovalService) (entry : Pending) (decided : Option McpApprovalDecision) :
    Prop :=
  Allows (s.policySet entry.view.group)
    (s.granted entry.view.terminalSessionId entry.view.group) decided

structure Kept (s : McpApprovalService) : Prop where
  accounted : (List.range s.calls).Perm
    (s.settled.map Settlement.call ++ s.pending.map fun e => e.2.call)
  justified : ∀ x ∈ s.settled, x.answer = .ok → Allows x.policy x.granted x.decided
  keys : (Entries.keys s.pending).Nodup
  known : ∀ id ∈ Entries.keys s.pending, id ∈ s.generated
  bounded : ∀ terminal, s.queued terminal ≤ s.maxPendingPerTerminal

structure Lawful (s : McpApprovalService) : Prop extends Kept s where
  holders : (Entries.keys s.grants).Nodup
  asking : ∀ e ∈ s.pending, s.effectivePolicy e.2.view.group e.2.view.terminalSessionId = .ask

structure Less (s t : McpApprovalService) : Prop where
  policySet : t.policySet = s.policySet
  grants : t.grants = s.grants
  generated : t.generated = s.generated
  pending : t.pending ⊆ s.pending

def ApprovalInput.Fresh (s : McpApprovalService) : ApprovalInput → Prop
  | .authorize _ id _ => id ∉ s.generated
  | _ => True

instance : (input : ApprovalInput) → Decidable (input.Fresh s)
  | .authorize _ id _ => inferInstanceAs (Decidable (id ∉ s.generated))
  | .abort _ | .decide _ _ | .setPolicies _ | .revokeTerminal _ => .isTrue trivial
  | .cancelPending _ | .revokeAll => .isTrue trivial

theorem Less.refl (s : McpApprovalService) : Less s s := ⟨rfl, rfl, rfl, fun _ h => h⟩

theorem Less.trans {u : McpApprovalService} (hst : Less s t) (htu : Less t u) : Less s u :=
  ⟨htu.policySet.trans hst.policySet, htu.grants.trans hst.grants,
    htu.generated.trans hst.generated, fun _ h => hst.pending (htu.pending h)⟩

theorem Less.granted (h : Less s t) (terminal : Str) (group : McpPermissionGroup) :
    t.granted terminal group = s.granted terminal group := by
  simp only [McpApprovalService.granted, h.grants]

theorem Less.effectivePolicy (h : Less s t) (group : McpPermissionGroup) (terminal : Str) :
    t.effectivePolicy group terminal = s.effectivePolicy group terminal := by
  simp only [McpApprovalService.effectivePolicy, h.policySet, h.granted]

theorem Less.covered {entry : Pending} {decided : Option McpApprovalDecision} (h : Less s t) :
    Covered t entry decided ↔ Covered s entry decided := by
  simp only [Covered, h.policySet, h.granted]

theorem effectivePolicy_allow {group : McpPermissionGroup} {terminal : Str}
    (h : s.effectivePolicy group terminal = .allow) (decided : Option McpApprovalDecision) :
    Allows (s.policySet group) (s.granted terminal group) decided := by
  unfold McpApprovalService.effectivePolicy at h
  split_ifs at h with hpolicy hgranted
  · rw [h]
    exact ⟨by simp, .inl rfl⟩
  · have hask : s.policySet group = .ask := by simpa using hpolicy
    rw [hask]
    exact ⟨by simp, .inr (.inl ⟨rfl, hgranted⟩)⟩

theorem effectivePolicy_ask {group : McpPermissionGroup} {terminal : Str} :
    s.effectivePolicy group terminal = .ask ↔
      s.policySet group = .ask ∧ s.granted terminal group = false := by
  unfold McpApprovalService.effectivePolicy
  split_ifs with hpolicy hgranted
  · simp [hpolicy]
  · simp [hgranted]
  · simp only [not_not] at hpolicy
    simp [hpolicy, hgranted]

section Finish

variable {id : Str} {answer : McpAuthorization} {how : McpApprovalOutcome}
  {decided : Option McpApprovalDecision}

theorem finish_absent (h : Entries.get s.pending id = none) :
    s.finish id answer how decided = s := by
  simp only [finish, h]

theorem finish_pending (s : McpApprovalService) (id : Str) (answer : McpAuthorization)
    (how : McpApprovalOutcome) (decided : Option McpApprovalDecision) :
    (s.finish id answer how decided).pending = Entries.delete s.pending id := by
  rcases hentry : Entries.get s.pending id with _ | entry
  · rw [finish_absent hentry, Entries.delete_absent hentry]
  · simp only [finish, hentry, publish, settle]

theorem finish_less (s : McpApprovalService) (id : Str) (answer : McpAuthorization)
    (how : McpApprovalOutcome) (decided : Option McpApprovalDecision) :
    Less s (s.finish id answer how decided) := by
  rcases hentry : Entries.get s.pending id with _ | entry
  · rw [finish_absent hentry]
    exact Less.refl s
  · have hpending := finish_pending s id answer how decided
    refine ⟨?_, ?_, ?_, fun e he => ?_⟩
    · simp only [finish, hentry, publish, settle]
    · simp only [finish, hentry, publish, settle]
    · simp only [finish, hentry, publish, settle]
    · rw [hpending] at he
      exact (Entries.mem_delete.mp he).1

theorem calls_split {entry : Pending} (hn : (Entries.keys s.pending).Nodup)
    (hentry : Entries.get s.pending id = some entry) :
    (s.pending.map fun e => e.2.call).Perm
      (entry.call :: (Entries.delete s.pending id).map fun e => e.2.call) := by
  have hsplit := Entries.delete_perm hn hentry
  exact hsplit.map fun e => e.2.call

theorem Kept.finish (h : Kept s)
    (hground : answer = .ok → ∀ entry, Entries.get s.pending id = some entry →
      Covered s entry decided) : Kept (s.finish id answer how decided) := by
  rcases hentry : Entries.get s.pending id with _ | entry
  · rw [finish_absent hentry]
    exact h
  · have hsplit := calls_split h.keys hentry
    constructor
    · simp only [McpApprovalService.finish, hentry, publish, settle]
      refine h.accounted.trans (List.perm_iff_count.mpr fun a => ?_)
      have hcount := hsplit.count_eq a
      simp only [List.map_append, List.count_append, List.count_cons, List.map_cons, List.map_nil,
        List.count_nil] at hcount ⊢
      omega
    · intro x hx hok
      simp only [McpApprovalService.finish, hentry, publish, settle] at hx
      rcases List.mem_append.mp hx with hx | hx
      · exact h.justified x hx hok
      · rw [List.mem_singleton] at hx
        subst hx
        exact hground hok entry hentry
    · rw [finish_pending]
      exact Entries.keys_delete_nodup h.keys id
    · intro key hkey
      rw [finish_pending] at hkey
      rw [(finish_less s id answer how decided).generated]
      obtain ⟨e, he, rfl⟩ := List.mem_map.mp hkey
      exact h.known e.1 (List.mem_map_of_mem (Entries.mem_delete.mp he).1)
    · intro terminal
      have hbound := h.bounded terminal
      have hless := ((List.filter_sublist (p := fun e : Str × Pending => e.1 ≠ id)
        (l := s.pending)).filter fun e => e.2.view.terminalSessionId = terminal).length_le
      simp only [McpApprovalService.finish, hentry, publish, settle, queued,
        Entries.delete] at hbound hless ⊢
      omega

end Finish

section Loop

variable {verdict : McpApprovalService → Pending → Option (McpAuthorization × McpApprovalOutcome)}

/-- A verdict reads the policies and the grants only. -/
def Steady (verdict : McpApprovalService → Pending →
    Option (McpAuthorization × McpApprovalOutcome)) : Prop :=
  ∀ s t, Less s t → verdict t = verdict s

def Sound (s : McpApprovalService) (verdict : McpApprovalService → Pending →
    Option (McpAuthorization × McpApprovalOutcome)) : Prop :=
  ∀ entry how, verdict s entry = some (.ok, how) → Covered s entry none

theorem release_spec {e : Str × Pending} (hsteady : Steady verdict) (hsound : Sound s verdict)
    (hn : (Entries.keys s.pending).Nodup) (he : e ∈ s.pending) (hless : Less s t) (ht : Kept t) :
    Less t (release verdict t e) ∧ Kept (release verdict t e) ∧
      (e ∈ (release verdict t e).pending → verdict s e.2 = none) := by
  have hsame := hsteady s t hless
  unfold release
  rw [hsame]
  rcases hverdict : verdict s e.2 with _ | ⟨answer, how⟩
  · exact ⟨Less.refl t, ht, fun _ => rfl⟩
  · refine ⟨finish_less t e.1 answer how none, ht.finish ?_, fun hmem => ?_⟩
    · intro hok entry hentry
      -- only `e` itself can be pending under its id
      have hown := Entries.get_of_mem hn (hless.pending (Entries.mem_of_get hentry))
      have heq : e.2 = entry := Option.some.inj ((Entries.get_of_mem hn he).symm.trans hown)
      rw [hok, heq] at hverdict
      exact hless.covered.mpr (hsound entry how hverdict)
    · rw [finish_pending] at hmem
      exact absurd rfl (Entries.mem_delete.mp hmem).2

theorem loop_spec {L : List (Str × Pending)} (hsteady : Steady verdict) (hsound : Sound s verdict)
    (hn : (Entries.keys s.pending).Nodup) (hL : L ⊆ s.pending) (hless : Less s t) (ht : Kept t) :
    Less t (Runs.after (release verdict) t L) ∧ Kept (Runs.after (release verdict) t L) ∧
      ∀ e ∈ (Runs.after (release verdict) t L).pending, e ∈ L → verdict s e.2 = none := by
  induction L generalizing t with
  | nil => exact ⟨Less.refl t, ht, fun _ _ he => by cases he⟩
  | cons d L ih =>
    obtain ⟨hd, hL⟩ := List.cons_subset.mp hL
    obtain ⟨hstep, hkept, hnone⟩ := release_spec hsteady hsound hn hd hless ht
    obtain ⟨hrest, hend, hall⟩ := ih hL (hless.trans hstep) hkept
    refine ⟨hstep.trans hrest, hend, fun e he hmem => ?_⟩
    rcases List.mem_cons.mp hmem with rfl | hmem
    · exact hnone (hrest.pending he)
    · exact hall e he hmem

theorem releaseEach_spec (hsteady : Steady verdict) (hsound : Sound s verdict) (h : Kept s) :
    Less s (s.releaseEach verdict) ∧ Kept (s.releaseEach verdict) ∧
      ∀ e ∈ (s.releaseEach verdict).pending, e ∈ s.pending ∧ verdict s e.2 = none := by
  obtain ⟨hless, hkept, hnone⟩ :=
    loop_spec hsteady hsound h.keys (List.Subset.refl _) (Less.refl s) h
  exact ⟨hless, hkept, fun e he => ⟨hless.pending he, hnone e he (hless.pending he)⟩⟩

theorem withdrawn_steady (p : Pending → Bool) : Steady fun _ => withdrawn p :=
  fun _ _ _ => rfl

theorem withdrawn_sound (p : Pending → Bool) : Sound s fun _ => withdrawn p := by
  intro entry how hverdict
  simp only [withdrawn] at hverdict
  split_ifs at hverdict
  simp at hverdict

theorem Lawful.withdraw (p : Pending → Bool) (h : Lawful s) :
    Lawful (s.releaseEach fun _ => withdrawn p) := by
  obtain ⟨hless, hkept, hnone⟩ := releaseEach_spec (withdrawn_steady p) (withdrawn_sound p) h.toKept
  refine ⟨hkept, ?_, fun e he => ?_⟩
  · rw [hless.grants]
    exact h.holders
  · rw [hless.effectivePolicy]
    exact h.asking e (hnone e he).1

end Loop

theorem Kept.settle {terminal : Str} {group : McpPermissionGroup} {answer : McpAuthorization}
    (h : Kept s) (hground : answer = .ok → s.effectivePolicy group terminal = .allow) :
    Kept ({ s with calls := s.calls + 1 }.settle s.calls terminal group answer none) := by
  refine ⟨?_, ?_, h.keys, h.known, h.bounded⟩
  · simp only [McpApprovalService.settle]
    rw [List.range_succ]
    refine (h.accounted.append_right [s.calls]).trans (List.perm_iff_count.mpr fun a => ?_)
    simp only [List.map_append, List.count_append, List.map_cons, List.map_nil]
    omega
  · intro x hx hok
    rcases List.mem_append.mp hx with hx | hx
    · exact h.justified x hx hok
    · rw [List.mem_singleton] at hx
      subst hx
      exact effectivePolicy_allow (hground hok) none

theorem Lawful.authorize {request : McpApprovalRequest} {id : Str} (now : ℤ) (h : Lawful s)
    (hfresh : id ∉ s.generated) : Lawful (s.authorize request id now) := by
  unfold McpApprovalService.authorize
  simp only
  rcases hpolicy : s.effectivePolicy request.group request.terminalSessionId with _ | _ | _
  · simp only
    split_ifs with haborted hfull
    · exact ⟨h.toKept.settle (by simp), h.holders, h.asking⟩
    · exact ⟨h.toKept.settle (by simp), h.holders, h.asking⟩
    · -- the request waits under its new id
      have habsent : Entries.get s.pending id = none :=
        Entries.get_none.mpr fun hkey => hfresh (h.known id hkey)
      have hput := Entries.set_absent habsent ⟨request.view id now, request.signal, s.calls⟩
      refine ⟨⟨?_, h.justified, Entries.keys_set_nodup h.keys id _, ?_, ?_⟩, h.holders, ?_⟩
      · simp only [publish, hput, List.range_succ]
        refine (h.accounted.append_right [s.calls]).trans (List.perm_iff_count.mpr fun a => ?_)
        simp only [List.map_append, List.count_append, List.map_cons, List.map_nil]
        omega
      · intro key hkey
        simp only [publish, hput, Entries.keys, List.map_append, List.map_cons,
          List.map_nil] at hkey ⊢
        rcases List.mem_append.mp hkey with hkey | hkey
        · exact List.mem_append_left _ (h.known key hkey)
        · exact List.mem_append_right _ hkey
      · intro terminal
        have hbound := h.bounded terminal
        simp only [publish, queued, hput, List.filter_append, List.length_append] at hbound hfull ⊢
        by_cases hterminal : request.terminalSessionId = terminal
        · subst hterminal
          simp [McpApprovalRequest.view]
          omega
        · simp [McpApprovalRequest.view, hterminal]
          exact hbound
      · intro e he
        rcases Entries.mem_set.mp he with rfl | ⟨he, -⟩
        · exact hpolicy
        · exact h.asking e he
  · exact ⟨h.toKept.settle fun _ => hpolicy, h.holders, h.asking⟩
  · exact ⟨h.toKept.settle (by simp), h.holders, h.asking⟩

theorem grant_granted (terminal : Str) (group : McpPermissionGroup) (h : (Entries.keys s.grants).Nodup)
    (terminal' : Str) (group' : McpPermissionGroup) :
    (s.grant terminal group).granted terminal' group' = true ↔
      s.granted terminal' group' = true ∨ terminal' = terminal ∧ group' = group := by
  simp only [McpApprovalService.granted, McpApprovalService.grant]
  rcases eq_or_ne terminal' terminal with rfl | hne
  · rw [Entries.get_set_self h]
    rcases hget : Entries.get s.grants terminal' with _ | grants
    · simp
    · simp only [Option.getD_some, Option.any_some, decide_eq_true_eq, true_and]
      split_ifs with hmem
      · constructor
        · exact Or.inl
        · intro hor
          rcases hor with hor | rfl
          · exact hor
          · exact hmem
      · simp
  · rw [Entries.get_set_other h hne]
    simp [hne]

theorem Lawful.finish {id : Str} {answer : McpAuthorization} {how : McpApprovalOutcome}
    {decided : Option McpApprovalDecision} (h : Lawful s)
    (hground : answer = .ok → decided = some .once ∨ decided = some .session) :
    Lawful (s.finish id answer how decided) := by
  have hless := finish_less s id answer how decided
  refine ⟨h.toKept.finish ?_, ?_, fun e he => ?_⟩
  · intro hok entry hentry
    have hask := (effectivePolicy_ask.mp (h.asking (id, entry) (Entries.mem_of_get hentry))).1
    simp only at hask
    rw [Covered, hask]
    exact ⟨by simp, .inr (.inr (hground hok))⟩
  · rw [hless.grants]
    exact h.holders
  · rw [hless.effectivePolicy]
    exact h.asking e (hless.pending he)

theorem coveredByGrant_steady (terminal : Str) : Steady (coveredByGrant terminal) := by
  intro s t hless
  funext entry
  simp only [coveredByGrant, hless.effectivePolicy]

theorem coveredByGrant_sound (terminal : Str) : Sound s (coveredByGrant terminal) := by
  intro entry how hverdict
  unfold coveredByGrant at hverdict
  split_ifs at hverdict with hcovered
  obtain ⟨hterminal, hallow⟩ := hcovered
  rw [← hterminal] at hallow
  exact effectivePolicy_allow hallow none

theorem coveredByGrant_none {terminal : Str} {entry : Pending}
    (hask : s.policySet entry.view.group = .ask) (h : coveredByGrant terminal s entry = none)
    (hterminal : entry.view.terminalSessionId = terminal) :
    s.granted terminal entry.view.group = false := by
  unfold coveredByGrant at h
  split_ifs at h with hcovered
  by_contra hgranted
  simp only [Bool.not_eq_false] at hgranted
  exact hcovered ⟨hterminal, by simp [McpApprovalService.effectivePolicy, hask, hgranted]⟩

theorem releaseGranted_lawful {terminal : Str} (h : Kept s) (holders : (Entries.keys s.grants).Nodup)
    (hask : ∀ e ∈ s.pending, s.policySet e.2.view.group = .ask)
    (hother : ∀ e ∈ s.pending, e.2.view.terminalSessionId ≠ terminal →
      s.granted e.2.view.terminalSessionId e.2.view.group = false) :
    Lawful (s.releaseGranted terminal) ∧ Less s (s.releaseGranted terminal) := by
  obtain ⟨hless, hkept, hnone⟩ :=
    releaseEach_spec (coveredByGrant_steady terminal) (coveredByGrant_sound terminal) h
  refine ⟨⟨hkept, ?_, fun e he => ?_⟩, hless⟩
  · rw [McpApprovalService.releaseGranted, hless.grants]
    exact holders
  · obtain ⟨hmem, hverdict⟩ := hnone e he
    rw [McpApprovalService.releaseGranted, hless.effectivePolicy]
    refine effectivePolicy_ask.mpr ⟨hask e hmem, ?_⟩
    by_cases hterminal : e.2.view.terminalSessionId = terminal
    · rw [hterminal]
      exact coveredByGrant_none (hask e hmem) hverdict hterminal
    · exact hother e hmem hterminal

theorem grant_lawful (terminal : Str) (group : McpPermissionGroup) {id : Str}
    {decided : Option McpApprovalDecision} (h : Lawful s) (hdecided : decided = some .session) :
    let u := (s.grant terminal group).finish id .ok .allowedSession decided
    Lawful (u.releaseGranted terminal) ∧ Less u (u.releaseGranted terminal) := by
  intro u
  have hgranted := grant_granted terminal group h.holders
  have hless : Less (s.grant terminal group) u := finish_less _ id _ _ decided
  have hask : ∀ e ∈ s.pending, s.policySet e.2.view.group = .ask := fun e he =>
    (effectivePolicy_ask.mp (h.asking e he)).1
  have hkept : Kept (s.grant terminal group) :=
    ⟨h.accounted, h.justified, h.keys, h.known, h.bounded⟩
  apply releaseGranted_lawful
  · refine hkept.finish fun _ entry hentry => ?_
    have hpolicy := hask (id, entry) (Entries.mem_of_get hentry)
    have hsame : (s.grant terminal group).policySet entry.view.group = .ask := hpolicy
    rw [Covered, hsame]
    exact ⟨by simp, .inr (.inr (.inr hdecided))⟩
  · rw [hless.grants]
    exact Entries.keys_set_nodup h.holders _ _
  · intro e he
    rw [hless.policySet]
    exact hask e (hless.pending he)
  · intro e he hne
    rw [hless.granted]
    have hbefore := (effectivePolicy_ask.mp (h.asking e (hless.pending he))).2
    by_contra hnow
    simp only [Bool.not_eq_false] at hnow
    rcases (hgranted _ _).mp hnow with hheld | ⟨heq, -⟩
    · rw [hbefore] at hheld
      cases hheld
    · exact hne heq

theorem Lawful.decide (approvalId : Str) (decision : McpApprovalDecision) (h : Lawful s) :
    Lawful (s.decide approvalId decision).2 := by
  unfold McpApprovalService.decide
  rcases Entries.get s.pending approvalId with _ | entry
  · exact h
  · cases decision with
    | once => exact h.finish fun _ => .inl rfl
    | session => exact (grant_lawful _ _ h rfl).1
    | decline => exact h.finish fun hok => by cases hok

theorem mem_groups (group : McpPermissionGroup) : group ∈ MCP_PERMISSION_GROUPS := by
  cases group <;> decide

theorem mem_changedGroups {next : McpPermissionPolicies} {group : McpPermissionGroup} :
    group ∈ s.changedGroups next ↔ s.policySet group ≠ next group := by
  simp [changedGroups, mem_groups]

theorem changedGroups_nil {next : McpPermissionPolicies} (h : s.changedGroups next = []) :
    s.policySet = next := by
  funext group
  by_contra hne
  have hmem := mem_changedGroups.mpr hne
  rw [h] at hmem
  cases hmem

theorem adopt_granted (next : McpPermissionPolicies) (terminal : Str) (group : McpPermissionGroup) :
    (s.adopt next).granted terminal group = true ↔
      s.granted terminal group = true ∧ s.policySet group = next group := by
  simp only [McpApprovalService.granted, adopt, Entries.get_map]
  rcases Entries.get s.grants terminal with _ | grants
  · simp
  · simp [mem_changedGroups]

theorem adopt_released (next : McpPermissionPolicies) (h : Kept s) :
    let v := fun _ : McpApprovalService => decidedByPolicy (s.changedGroups next) next
    Less (s.adopt next) ((s.adopt next).releaseEach v) ∧ Kept ((s.adopt next).releaseEach v) ∧
      ∀ e ∈ ((s.adopt next).releaseEach v).pending, e ∈ s.pending ∧
        decidedByPolicy (s.changedGroups next) next e.2 = none := by
  intro v
  have hsteady : Steady v := fun _ _ _ => rfl
  have hsound : Sound (s.adopt next) v := by
    intro entry how hverdict
    simp only [v, decidedByPolicy] at hverdict
    split_ifs at hverdict with hsame
    have hallow : next entry.view.group = .allow := by
      rcases hnext : next entry.view.group with _ | _ | _
      · simp [hnext] at hverdict
      · rfl
      · simp [hnext] at hverdict
    have hpolicy : (s.adopt next).policySet entry.view.group = .allow := hallow
    rw [Covered, hpolicy]
    exact ⟨by simp, .inl rfl⟩
  exact releaseEach_spec hsteady hsound ⟨h.accounted, h.justified, h.keys, h.known, h.bounded⟩

theorem decidedByPolicy_none {next : McpPermissionPolicies} {entry : Pending}
    (hask : s.policySet entry.view.group = .ask)
    (h : decidedByPolicy (s.changedGroups next) next entry = none) :
    next entry.view.group = .ask := by
  rcases hnext : next entry.view.group with _ | _ | _
  · rfl
  · have hgroup : entry.view.group ∈ s.changedGroups next :=
      mem_changedGroups.mpr (by simp [hask, hnext])
    simp [decidedByPolicy, hgroup, hnext] at h
  · have hgroup : entry.view.group ∈ s.changedGroups next :=
      mem_changedGroups.mpr (by simp [hask, hnext])
    simp [decidedByPolicy, hgroup, hnext] at h

theorem Lawful.setPolicies (next : McpPermissionPolicies) (h : Lawful s) :
    Lawful (s.setPolicies next) := by
  unfold McpApprovalService.setPolicies
  split_ifs with hchanged
  · rw [← changedGroups_nil hchanged]
    exact h
  · obtain ⟨hless, hkept, hnone⟩ := adopt_released next h.toKept
    refine ⟨hkept, ?_, fun e he => ?_⟩
    · rw [hless.grants]
      have hkeys : Entries.keys (s.adopt next).grants = Entries.keys s.grants := by
        simp [adopt, Entries.keys, Function.comp_def]
      rw [hkeys]
      exact h.holders
    · obtain ⟨hmem, hverdict⟩ := hnone e he
      obtain ⟨hask, hfree⟩ := effectivePolicy_ask.mp (h.asking e hmem)
      rw [hless.effectivePolicy]
      refine effectivePolicy_ask.mpr ⟨?_, ?_⟩
      · exact decidedByPolicy_none hask hverdict
      · by_contra hgranted
        simp only [Bool.not_eq_false] at hgranted
        rw [((adopt_granted next _ _).mp hgranted).1] at hfree
        cases hfree

theorem Lawful.less_grants {grants : List (Str × List McpPermissionGroup)} (h : Lawful s)
    (holders : (Entries.keys grants).Nodup)
    (hless : ∀ terminal group, ({ s with grants := grants }).granted terminal group = true →
      s.granted terminal group = true) : Lawful { s with grants := grants } := by
  refine ⟨⟨h.accounted, h.justified, h.keys, h.known, h.bounded⟩, holders, fun e he => ?_⟩
  obtain ⟨hask, hfree⟩ := effectivePolicy_ask.mp (h.asking e he)
  refine effectivePolicy_ask.mpr ⟨hask, ?_⟩
  by_contra hgranted
  simp only [Bool.not_eq_false] at hgranted
  rw [hless _ _ hgranted] at hfree
  cases hfree

theorem Lawful.revokeTerminal (terminal : Str) (h : Lawful s) : Lawful (s.revokeTerminal terminal) := by
  refine Lawful.withdraw _ (h.less_grants (Entries.keys_delete_nodup h.holders terminal) ?_)
  intro terminal' group hgranted
  simp only [McpApprovalService.granted] at hgranted ⊢
  rcases eq_or_ne terminal' terminal with rfl | hne
  · rw [Entries.get_delete_self] at hgranted
    cases hgranted
  · rw [Entries.get_delete_other h.holders hne] at hgranted
    exact hgranted

theorem Lawful.revokeAll (h : Lawful s) : Lawful s.revokeAll := by
  refine Lawful.withdraw _ (h.less_grants List.nodup_nil ?_)
  intro terminal group hgranted
  cases hgranted

theorem Lawful.abort (signal : ℕ) (h : Lawful s) : Lawful (s.abort signal) := by
  unfold McpApprovalService.abort
  split_ifs
  · exact h
  · apply Lawful.withdraw
    exact ⟨⟨h.accounted, h.justified, h.keys, h.known, h.bounded⟩, h.holders, h.asking⟩

theorem Lawful.step {input : ApprovalInput} (h : Lawful s) (hfresh : input.Fresh s) :
    Lawful (s.step input) := by
  cases input with
  | authorize request id now => exact h.authorize now hfresh
  | abort signal => exact h.abort signal
  | decide approvalId decision => exact h.decide approvalId decision
  | setPolicies next => exact h.setPolicies next
  | revokeTerminal terminal => exact h.revokeTerminal terminal
  | cancelPending terminal => exact h.withdraw _
  | revokeAll => exact h.revokeAll

structure GrantsEnd (s : McpApprovalService) (input : ApprovalInput) (s' : McpApprovalService) :
    Prop where
  revoked : ∀ terminal, input = .revokeTerminal terminal →
    ∀ group, s'.granted terminal group = false
  changed : ∀ group, s'.policySet group ≠ s.policySet group →
    ∀ terminal, s'.granted terminal group = false
  given : ∀ terminal group, s'.granted terminal group = true →
    s.granted terminal group = true ∨ ∃ id entry, input = .decide id .session ∧
      Entries.get s.pending id = some entry ∧ entry.view.terminalSessionId = terminal ∧
        entry.view.group = group

theorem Less.grantsEnd {input : ApprovalInput} (h : Less s t)
    (hinput : ∀ terminal, input ≠ .revokeTerminal terminal) : GrantsEnd s input t := by
  refine ⟨fun terminal heq => absurd heq (hinput terminal), fun group hne => ?_, ?_⟩
  · rw [h.policySet] at hne
    exact absurd rfl hne
  · intro terminal group hgranted
    rw [h.granted] at hgranted
    exact .inl hgranted

theorem withdrawn_less (p : Pending → Bool) (h : Kept s) :
    Less s (s.releaseEach fun _ => withdrawn p) :=
  (releaseEach_spec (withdrawn_steady p) (withdrawn_sound p) h).1

theorem authorize_grants (s : McpApprovalService) (request : McpApprovalRequest) (id : Str)
    (now : ℤ) : (s.authorize request id now).policySet = s.policySet ∧
      (s.authorize request id now).grants = s.grants := by
  unfold McpApprovalService.authorize
  simp only
  split
  · exact ⟨rfl, rfl⟩
  · exact ⟨rfl, rfl⟩
  · split_ifs
    · exact ⟨rfl, rfl⟩
    · exact ⟨rfl, rfl⟩
    · exact ⟨rfl, rfl⟩

theorem decide_grants (id : Str) (decision : McpApprovalDecision) (h : Lawful s) :
    GrantsEnd s (.decide id decision) (s.decide id decision).2 := by
  unfold McpApprovalService.decide
  rcases hentry : Entries.get s.pending id with _ | entry
  · exact (Less.refl s).grantsEnd fun _ heq => by cases heq
  · cases decision with
    | once => exact (finish_less s id _ _ _).grantsEnd fun _ heq => by cases heq
    | decline => exact (finish_less s id _ _ _).grantsEnd fun _ heq => by cases heq
    | session =>
      have hfinish := finish_less (s.grant entry.view.terminalSessionId entry.view.group) id .ok
        .allowedSession (some .session)
      have hless := hfinish.trans (grant_lawful entry.view.terminalSessionId entry.view.group h rfl).2
      refine ⟨fun _ heq => (by cases heq), fun group hne => ?_, fun terminal group hgranted => ?_⟩
      · exact absurd (congrFun hless.policySet group) hne
      · rw [hless.granted] at hgranted
        rcases (grant_granted _ _ h.holders terminal group).mp hgranted with hheld | ⟨rfl, rfl⟩
        · exact .inl hheld
        · exact .inr ⟨id, entry, rfl, hentry, rfl, rfl⟩

theorem setPolicies_grants (next : McpPermissionPolicies) (h : Lawful s) :
    GrantsEnd s (.setPolicies next) (s.setPolicies next) := by
  unfold McpApprovalService.setPolicies
  split_ifs with hchanged
  · rw [← changedGroups_nil hchanged]
    exact (Less.refl s).grantsEnd fun _ heq => by cases heq
  · have hless := (adopt_released next h.toKept).1
    refine ⟨fun _ heq => (by cases heq), fun group hne terminal => ?_, fun terminal group hgranted => ?_⟩
    · have hdiffer : s.policySet group ≠ next group := by
        rw [hless.policySet] at hne
        exact fun heq => hne heq.symm
      rw [hless.granted]
      by_contra hgranted
      simp only [Bool.not_eq_false] at hgranted
      exact hdiffer ((adopt_granted next terminal group).mp hgranted).2
    · rw [hless.granted] at hgranted
      exact .inl ((adopt_granted next terminal group).mp hgranted).1

theorem revokeTerminal_grants (terminal : Str) (h : Lawful s) :
    GrantsEnd s (.revokeTerminal terminal) (s.revokeTerminal terminal) := by
  have hkept : Kept { s with grants := Entries.delete s.grants terminal } :=
    ⟨h.accounted, h.justified, h.keys, h.known, h.bounded⟩
  have hless := withdrawn_less (fun entry => entry.view.terminalSessionId = terminal) hkept
  refine ⟨fun revoked heq group => ?_, fun group hne => ?_, fun terminal' group hgranted => ?_⟩
  · cases heq
    rw [McpApprovalService.revokeTerminal, cancelPending, hless.granted]
    simp only [McpApprovalService.granted, Entries.get_delete_self, Option.any_none]
  · exact absurd (congrFun hless.policySet group) hne
  · rw [McpApprovalService.revokeTerminal, cancelPending, hless.granted] at hgranted
    simp only [McpApprovalService.granted] at hgranted ⊢
    rcases eq_or_ne terminal' terminal with rfl | hne
    · rw [Entries.get_delete_self] at hgranted
      cases hgranted
    · rw [Entries.get_delete_other h.holders hne] at hgranted
      exact .inl hgranted

theorem revokeAll_grants (h : Lawful s) : GrantsEnd s .revokeAll s.revokeAll := by
  have hkept : Kept { s with grants := [] } :=
    ⟨h.accounted, h.justified, h.keys, h.known, h.bounded⟩
  have hless := withdrawn_less (fun _ => true) hkept
  refine ⟨fun _ heq => (by cases heq), fun group hne => ?_, fun terminal group hgranted => ?_⟩
  · exact absurd (congrFun hless.policySet group) hne
  · rw [McpApprovalService.revokeAll, hless.granted] at hgranted
    cases hgranted

theorem abort_grants (signal : ℕ) (h : Lawful s) :
    GrantsEnd s (.abort signal) (s.abort signal) := by
  unfold McpApprovalService.abort
  split_ifs
  · exact (Less.refl s).grantsEnd fun _ heq => by cases heq
  · have hkept : Kept { s with aborted := signal :: s.aborted } :=
      ⟨h.accounted, h.justified, h.keys, h.known, h.bounded⟩
    have hless := withdrawn_less (fun entry => entry.signal = signal) hkept
    have hsame : Less s { s with aborted := signal :: s.aborted } :=
      ⟨rfl, rfl, rfl, fun _ he => he⟩
    exact (hsame.trans hless).grantsEnd fun _ heq => by cases heq

theorem step_grants (input : ApprovalInput) (h : Lawful s) : GrantsEnd s input (s.step input) := by
  cases input with
  | authorize request id now =>
    obtain ⟨hpolicies, hgrants⟩ := authorize_grants s request id now
    refine ⟨fun _ heq => (by cases heq), fun group hne => ?_, fun terminal group hgranted => ?_⟩
    · exact absurd (congrFun hpolicies group) hne
    · simp only [McpApprovalService.granted, McpApprovalService.step, hgrants] at hgranted
      exact .inl hgranted
  | abort signal => exact abort_grants signal h
  | decide id decision => exact decide_grants id decision h
  | setPolicies next => exact setPolicies_grants next h
  | revokeTerminal terminal => exact revokeTerminal_grants terminal h
  | cancelPending terminal =>
    exact (withdrawn_less _ h.toKept).grantsEnd fun _ heq => by cases heq
  | revokeAll => exact revokeAll_grants h

def sessionRun : List ApprovalInput :=
  let request (terminal : UInt16) (group : McpPermissionGroup) (signal : ℕ) : McpApprovalRequest :=
    ⟨[terminal], none, [], [], group, [], [], [], [], signal⟩
  [.authorize (request 1 .settingsChange 0) [10] 0, .authorize (request 1 .settingsChange 1) [11] 1,
    .authorize (request 2 .settingsChange 2) [12] 2, .authorize (request 1 .notifications 3) [13] 3,
    .decide [10] .session, .abort 2, .authorize (request 1 .settingsChange 4) [14] 4,
    .authorize (request 2 .workflowTemplates 5) [15] 5, .setPolicies fun _ => .deny,
    .revokeTerminal [1]]

end Terminay.Approvals
