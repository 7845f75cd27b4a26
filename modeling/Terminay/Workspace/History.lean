import Terminay.Workspace.StoreSettled

/-!
# The commits of a run

Every call on a store leaves its state alone or makes one commit of it.
-/

namespace Terminay.Workspace
open Script Outcome

variable {ν : Type} [Engine ν] {st st' : WorkspaceState ν} {c : Fields ν}

/-! ## The server of a workspace -/

section Server

omit [Engine ν]

theorem syncProject_serverId (st : WorkspaceState ν) (pid : ProtocolId)
    (active : Option ProtocolId) : (syncProject st pid active).serverId = st.serverId := by
  unfold syncProject
  split <;> rfl

theorem removeFromFolder_serverId {folderId panelId : ProtocolId} :
    Ensures (removeFromFolder st folderId panelId) fun st' => st'.serverId = st.serverId :=
  .bind fun _ _ => .ok rfl

theorem leaveFolder_serverId {panel : WorkspacePanel ν} {target : WorkspaceFolder ν} :
    Ensures (leaveFolder st panel target) fun st' => st'.serverId = st.serverId :=
  .ite (fun _ => removeFromFolder_serverId) fun _ => .ok rfl

theorem markSession_serverId {sessionId : ProtocolId}
    {mark : TerminalSession ν → TerminalSession ν} {r : Edited ν}
    (h : markSession st sessionId mark = some r) : r.1.serverId = st.serverId := by
  obtain ⟨sessions, hr⟩ := markSession_ok h
  rw [hr]

end Server

theorem movePanelToFolder_serverId {p : ProtocolId} {folderId index : Option (Json ν)} :
    Ensures (movePanelToFolder st p folderId index) fun st' => st'.serverId = st.serverId :=
  .bind fun _ _ => .bind fun _ _ => .bind fun _ _ => .bind fun st1 hleave => .bind fun _ _ =>
    .bind fun _ _ => .ok ((syncProject_serverId _ _ _).trans (leaveFolder_serverId st1 hleave))

theorem rehomeSession_serverId {panel : WorkspacePanel ν} {projectId : ProtocolId} :
    Ensures (rehomeSession st panel projectId) fun st' => st'.serverId = st.serverId :=
  .ite (fun _ => .bind fun _ _ => .ok rfl) fun _ => .ok rfl

theorem panelMove_serverId : Ensures (panelMove st c) fun r => r.1.serverId = st.serverId := by
  refine .bind fun _ _ => .bind fun _ _ => .bind fun _ _ => .bind fun _ _ => .bind fun _ _ =>
    .ite (fun _ => .bind fun st1 hmove => .ok (movePanelToFolder_serverId st1 hmove)) fun _ => ?_
  refine .bind fun st1 hremove => .bind fun _ _ => .bind fun st4 hrehome => .ok ?_
  rw [rehomeSession_serverId st4 hrehome, syncProject_serverId, syncProject_serverId]
  have hserver := removeFromFolder_serverId st1 hremove
  exact hserver

theorem edit_serverId (t : CommandType) (now : ν) :
    Ensures (t.edit st c now) fun r => r.1.serverId = st.serverId := by
  cases t <;> simp only [CommandType.edit]
  case folderOfferAccept =>
    exact .bind fun _ _ => .bind fun _ _ => .bind fun st1 hmove =>
      .ok (movePanelToFolder_serverId st1 hmove)
  case panelMoveToFolder =>
    exact .bind fun _ _ => .bind fun st1 hmove => .ok (movePanelToFolder_serverId st1 hmove)
  case panelMove => exact panelMove_serverId
  case panelClose =>
    refine .bind fun _ _ => .bind fun _ _ => .bind fun st2 hremove => .ok ?_
    have hserver := removeFromFolder_serverId st2 hremove
    exact (syncProject_serverId _ _ _).trans hserver
  case terminalMarkInterrupted =>
    intro r h
    exact markSession_serverId (demand_ok.mp h)
  case terminalMarkExited =>
    refine .ok ?_
    rcases hm : markSession st _ _ with _ | marked
    · rfl
    · exact markSession_serverId hm
  all_goals
    repeat first
      | exact .error
      | exact .ok rfl
      | exact .ok (syncProject_serverId _ _ _)
      | refine .ite (fun _ => ?_) fun _ => ?_
      | refine .bind fun _ _ => ?_

omit [Engine ν] in
theorem discardFrom_serverId (stale : List ProtocolId) (st : WorkspaceState ν)
    (project : WorkspaceProject ν) : (discardFrom stale st project).serverId = st.serverId := by
  unfold discardFrom
  split
  · exact syncProject_serverId _ _ _
  · rfl

omit [Engine ν] in
theorem discarded_serverId (st : WorkspaceState ν) : (discarded st).1.serverId = st.serverId := by
  have hfold : ∀ (projects : List (WorkspaceProject ν)) (draft : WorkspaceState ν),
      (projects.foldl (discardFrom (stalePanelIds st)) draft).serverId = draft.serverId := by
    intro projects
    induction projects with
    | nil => intro draft; rfl
    | cons project projects ih =>
      intro draft
      rw [List.foldl_cons, ih, discardFrom_serverId]
  exact hfold _ _

/-! ## One commit -/

structure Commits (st : WorkspaceState ν) (change : CommittedChange ν) : Prop where
  previous : change.previous = st
  serverId : change.state.serverId = st.serverId
  schema : change.state.schemaVersion = st.schemaVersion
  revision : change.state.revision = st.revision + 1
  event : change.event.revision = st.revision + 1
  fromRevision : change.record.fromRevision = st.revision
  recorded : change.record.revision = change.state.revision
  cursor : change.record.cursor = change.state.cursor
  difference : change.record.difference = workspaceStateDifference st change.state

theorem commitOf_commits {s : WorkspaceStore ν} {next : WorkspaceState ν}
    (hc : Consistent s.current) (hn : Consistent next) (hserver : next.serverId = s.current.serverId)
    (commandId : ProtocolId) (type : Str) (changedIds : List (Json ν)) :
    Commits s.current (commitOf s next commandId type changedIds) :=
  ⟨rfl, hserver, hn.schema.trans hc.schema.symm, rfl, rfl, rfl, rfl, rfl, rfl⟩

theorem retain_suffix (maxHistory maxHistoryBytes : ℕ) (history : List (CommittedChange ν))
    (bytes : ℕ) (outcomes : Outcomes ν) :
    (retain maxHistory maxHistoryBytes history bytes outcomes).1 <:+ history := by
  induction history generalizing bytes outcomes with
  | nil => exact List.suffix_refl _
  | cons dropped rest ih =>
    cases rest with
    | nil => exact List.suffix_refl _
    | cons newer rest =>
      rw [retain]
      split
      · exact (ih _ _).trans (List.suffix_cons _ _)
      · exact List.suffix_refl _

theorem retain_getLast? (maxHistory maxHistoryBytes : ℕ) (history : List (CommittedChange ν))
    (bytes : ℕ) (outcomes : Outcomes ν) :
    (retain maxHistory maxHistoryBytes history bytes outcomes).1.getLast? = history.getLast? := by
  induction history generalizing bytes outcomes with
  | nil => rfl
  | cons dropped rest ih =>
    cases rest with
    | nil => rfl
    | cons newer rest =>
      rw [retain]
      split
      · rw [ih, List.getLast?_cons_cons]
      · rfl

omit [Engine ν] in
theorem changeAt_last {s : WorkspaceStore ν} {change : CommittedChange ν} {revision : ℕ}
    (hlast : s.history.getLast? = some change) (hevent : change.event.revision = revision) :
    changeAt s revision = some change := by
  obtain ⟨front, hfront⟩ := List.getLast?_eq_some_iff.mp hlast
  simp [changeAt, hfront, hevent]

def OneCommit (s s' : WorkspaceStore ν) : Prop :=
  (s'.current = s.current ∧ s'.history = s.history) ∨
    ∃ change, Commits s.current change ∧ s'.current = change.state ∧
      s'.history <:+ s.history ++ [change] ∧ s'.history.getLast? = some change

theorem install_oneCommit {s : WorkspaceStore ν} {next : WorkspaceState ν}
    (hc : Consistent s.current) (hn : Consistent next) (hserver : next.serverId = s.current.serverId)
    (commandId : ProtocolId) (type : Str) (changedIds : List (Json ν)) :
    OneCommit s (install s next commandId type changedIds) :=
  Or.inr ⟨_, commitOf_commits hc hn hserver commandId type changedIds, rfl, retain_suffix _ _ _ _ _,
    (retain_getLast? _ _ _ _ _).trans List.getLast?_concat⟩

theorem apply_oneCommit {s : WorkspaceStore ν} (h : Sound s.current)
    (envelope : WorkspaceCommandEnvelope ν) (now : ν) (written : Bool) :
    OneCommit s (apply s envelope now written).1 := by
  have happlied := apply_cases s envelope now written
  generalize apply s envelope now written = applied at happlied ⊢
  cases happlied with
  | malformed hid => exact Or.inl ⟨rfl, rfl⟩
  | replayed prior hprior => exact Or.inl ⟨rfl, rfl⟩
  | stale hnew hstale => exact Or.inl ⟨rfl, rfl⟩
  | rejected hnew message hdraft => exact Or.inl ⟨rfl, rfl⟩
  | unwritten hnew hwritten => exact Or.inl ⟨rfl, rfl⟩
  | committed hid hnew hfresh edited hdraft hwritten =>
    obtain ⟨hreduce, hvalid⟩ := draft_ok.mp hdraft
    obtain ⟨-, t, -, hedit⟩ := reduce_ok.mp hreduce
    exact install_oneCommit h.consistent hvalid.toConsistent (edit_serverId t now edited hedit) _ _ _

theorem recover_oneCommit {s : WorkspaceStore ν} (h : Sound s.current) {next : WorkspaceState ν}
    (hserver : next.serverId = s.current.serverId) (changedIds : List ProtocolId)
    (commandId : String) (written : Bool) :
    OneCommit s (recover s next changedIds commandId written) := by
  unfold recover
  split_ifs with hnone hok
  · exact Or.inl ⟨rfl, rfl⟩
  · rw [Bool.and_eq_true, isOk_iff] at hok
    obtain ⟨⟨_, hvalid⟩, -⟩ := hok
    exact install_oneCommit h.consistent (validateWorkspace_ok.mp hvalid).toConsistent hserver _ _ _
  · exact Or.inl ⟨rfl, rfl⟩

theorem ensureAutomationSpace_oneCommit {s : WorkspaceStore ν} (h : Sound s.current) (root : Str)
    (written : Bool) : OneCommit s (ensureAutomationSpace s root written) := by
  unfold ensureAutomationSpace
  by_cases hfound : (findAutomationSpace s.current).isSome = true
  · rw [if_pos hfound]
    exact Or.inl ⟨rfl, rfl⟩
  · rw [if_neg hfound]
    rcases hw : withAutomationSpace s.current root with message | next
    · exact Or.inl ⟨rfl, rfl⟩
    · cases written
      · exact Or.inl ⟨rfl, rfl⟩
      · simp only [withAutomationSpace, bind_ok, Except.ok.injEq] at hw
        obtain ⟨_, -, viewId, -, path, -, _, hvalid, rfl⟩ := hw
        have hn := (validateWorkspace_ok.mp hvalid).toConsistent
        exact install_oneCommit h.consistent hn rfl _ _ _

theorem run_oneCommit {s : WorkspaceStore ν} (h : Sound s.current) (call : StoreCall ν)
    (written : Bool) : OneCommit s (call.run s written) := by
  cases call with
  | apply envelope now => exact apply_oneCommit h envelope now written
  | ensureAutomationSpace root => exact ensureAutomationSpace_oneCommit h root written
  | markInterruptedSessions at_ => exact recover_oneCommit h (by rfl) _ _ _
  | reconcileHeldTerminalSessions live exited at_ => exact recover_oneCommit h (by rfl) _ _ _
  | discardStaleTerminalState => exact recover_oneCommit h (discarded_serverId _) _ _ _

/-! ## Chains of commits -/

def Chain : WorkspaceState ν → List (CommittedChange ν) → WorkspaceState ν → Prop
  | st, [], st' => st = st'
  | st, change :: changes, st' => Commits st change ∧ Chain change.state changes st'

theorem Chain.snoc {changes : List (CommittedChange ν)} {change : CommittedChange ν}
    (h : Chain st changes st') (hc : Commits st' change) :
    Chain st (changes ++ [change]) change.state := by
  induction changes generalizing st with
  | nil =>
    have he : st = st' := h
    exact ⟨he ▸ hc, rfl⟩
  | cons first changes ih => exact ⟨h.1, ih h.2⟩

theorem Chain.revision {changes : List (CommittedChange ν)} (h : Chain st changes st') :
    st'.revision = st.revision + changes.length := by
  induction changes generalizing st with
  | nil =>
    have he : st = st' := h
    rw [he, List.length_nil, Nat.add_zero]
  | cons first changes ih =>
    have hrest := ih h.2
    have hfirst := h.1.revision
    rw [hrest, hfirst, List.length_cons]
    omega

theorem Chain.event {before after : List (CommittedChange ν)} {change : CommittedChange ν}
    (h : Chain st (before ++ change :: after) st') :
    change.event.revision = st.revision + before.length + 1 := by
  induction before generalizing st with
  | nil => exact h.1.event
  | cons first before ih =>
    have hrest := ih h.2
    have hfirst := h.1.revision
    rw [hrest, hfirst, List.length_cons]
    omega

theorem Chain.bounds {changes : List (CommittedChange ν)} (h : Chain st changes st')
    {change : CommittedChange ν} (hm : change ∈ changes) :
    st.revision < change.event.revision ∧ change.event.revision ≤ st'.revision := by
  obtain ⟨before, after, rfl⟩ := List.append_of_mem hm
  have hevent := h.event
  have hlast := h.revision
  rw [List.length_append, List.length_cons] at hlast
  omega

theorem runCalls_chain {s : WorkspaceStore ν} (h : Sound s.current)
    (calls : List (StoreCall ν × Bool)) :
    ∃ changes, Chain s.current changes (runCalls s calls).current ∧
      (runCalls s calls).history <:+ s.history ++ changes := by
  induction calls using List.reverseRecOn with
  | nil => exact ⟨[], rfl, by simp [runCalls]⟩
  | append_singleton calls call ih =>
    obtain ⟨changes, hchain, hsuffix⟩ := ih
    have hlast : runCalls s (calls ++ [call]) = call.1.run (runCalls s calls) call.2 := by
      simp [runCalls]
    rw [hlast]
    rcases run_oneCommit (runCalls_sound h calls) call.1 call.2 with
      ⟨hcurrent, hhistory⟩ | ⟨change, hcommit, hcurrent, hhistory, -⟩
    · rw [hcurrent, hhistory]
      exact ⟨changes, hchain, hsuffix⟩
    · refine ⟨changes ++ [change], hcurrent ▸ hchain.snoc hcommit, hhistory.trans ?_⟩
      rw [← List.append_assoc]
      exact (List.suffix_append_inj_of_length_eq rfl).mpr ⟨hsuffix, rfl⟩

theorem Chain.filter_after {old new history : List (CommittedChange ν)}
    {st₀ st₁ st₂ : WorkspaceState ν} (hold : Chain st₀ old st₁) (hnew : Chain st₁ new st₂)
    (hsuffix : history <:+ old ++ new)
    (hreach : st₁.revision = st₂.revision ∨
      ∃ change ∈ history.head?, change.event.revision ≤ st₁.revision + 1) :
    history.filter (fun change => st₁.revision < change.event.revision) = new := by
  have hlater : new.filter (fun change => st₁.revision < change.event.revision) = new :=
    List.filter_eq_self.mpr fun change hm => decide_eq_true (hnew.bounds hm).1
  rcases List.suffix_or_suffix_of_suffix hsuffix (List.suffix_append old new) with hshort | hlong
  · -- The history is a part of the new commits; reaching back, it is all of them.
    obtain ⟨missing, rfl⟩ := hshort
    have hall : missing = [] := by
      rcases hreach with hrev | ⟨change, hhead, hle⟩
      · have hlength := hnew.revision
        rw [List.length_append] at hlength
        exact List.length_eq_zero_iff.mp (by omega)
      · obtain ⟨rest, rfl⟩ := List.head?_eq_some_iff.mp hhead
        have hevent := hnew.event
        exact List.length_eq_zero_iff.mp (by omega)
    rw [hall, List.nil_append] at hlater ⊢
    exact hlater
  · obtain ⟨kept, rfl⟩ := hlong
    have hkept : kept <:+ old := by
      obtain ⟨dropped, hd⟩ := hsuffix
      rw [← List.append_assoc] at hd
      exact ⟨dropped, List.append_cancel_right hd⟩
    have hearlier : kept.filter (fun change => st₁.revision < change.event.revision) = [] :=
      List.filter_eq_nil_iff.mpr fun change hm => by
        have hle := (hold.bounds (hkept.subset hm)).2
        simp only [decide_eq_true_eq]
        omega
    rw [List.filter_append, hearlier, hlater, List.nil_append]

omit [Engine ν] in
theorem delta_ok {s : WorkspaceStore ν} {r : ℕ} {changes : List (CommittedChange ν)}
    (h : delta s r = .ok (some changes)) :
    (r = s.current.revision ∨
      ∃ change ∈ s.history.head?, change.event.revision ≤ r + 1) ∧
      changes = s.history.filter fun change => r < change.event.revision := by
  simp only [delta] at h
  split at h
  · cases h
  · split at h
    · rename_i hreach
      simp only [Except.ok.injEq, Option.some.injEq] at h
      refine ⟨hreach.imp id fun ⟨n, hn, hle⟩ => ?_, h.symm⟩
      obtain ⟨change, hchange, rfl⟩ := Option.map_eq_some_iff.mp hn
      exact ⟨change, hchange, by omega⟩
    · cases h

/-- The records that a store still returns since a revision it had are exactly
the commits made since. -/
theorem delta_since {s₀ : WorkspaceStore ν} (h : Sound s₀.current) (hnone : s₀.history = [])
    (before after : List (StoreCall ν × Bool)) {changes : List (CommittedChange ν)}
    (hd : delta (runCalls s₀ (before ++ after)) (runCalls s₀ before).current.revision =
      .ok (some changes)) :
    Chain (runCalls s₀ before).current changes (runCalls s₀ (before ++ after)).current := by
  obtain ⟨old, hold, hbefore⟩ := runCalls_chain h before
  obtain ⟨new, hnew, hafter⟩ := runCalls_chain (runCalls_sound h before) after
  have hlast : runCalls (runCalls s₀ before) after = runCalls s₀ (before ++ after) :=
    List.foldl_append.symm
  rw [hlast] at hnew hafter
  rw [hnone, List.nil_append] at hbefore
  obtain ⟨hreach, rfl⟩ := delta_ok hd
  have hsuffix : (runCalls s₀ (before ++ after)).history <:+ old ++ new :=
    hafter.trans (List.suffix_append_inj_of_length_eq rfl |>.mpr ⟨hbefore, rfl⟩)
  rw [hold.filter_after hnew hsuffix hreach]
  exact hnew

end Terminay.Workspace
