import Terminay.Workspace.PanelSettled
import Terminay.Workspace.Store

/-!
# Every committed state is settled

A commit installs a validated draft whose derived fields the command restored.
-/

namespace Terminay.Workspace
open Script Outcome

variable {ν : Type} [Engine ν] {st : WorkspaceState ν}

/-- Every command restores the derived fields of its draft. -/
theorem edit_settled (hc : Consistent st) (hs : Settled st) {command : Command ν} {now : ν}
    {r : Edited ν} (h : reduce st command now = .ok r) : Settled r.1 := by
  obtain ⟨hopen, t, ht, h⟩ := reduce_ok.mp h
  cases t with
  | viewCreate => exact viewCreate_settled hs h
  | viewRename => exact viewRename_settled hs h
  | viewClose => exact viewClose_settled hs h
  | projectCreate => exact projectCreate_settled hc hs h
  | projectSidebarUpdate => exact projectSidebarUpdate_settled hs h
  | projectRootUpdate => exact projectRootUpdate_settled hs h
  | projectStart => exact projectStart_settled hs h
  | recentForget => exact recentForget_settled hs h
  | projectShellProfileSet => exact projectShellProfileSet_settled hs h
  | projectShellProfileClear => exact projectShellProfileClear_settled hs h
  | projectShellProfileReplace => exact projectShellProfileReplace_settled hs h
  | projectActivate =>
    have hfree : reserved st (command.fields.at "projectId") = false := by
      simpa [automationSpaceRefusal, ht] using hopen
    exact projectActivate_settled hc hs hfree h
  | projectRename => exact projectRename_settled hs h
  | projectUpdate => exact projectUpdate_settled hs h
  | projectMove => exact projectMove_settled hc hs h
  | projectClose => exact projectClose_settled hc hs h
  | panelCreate => exact panelCreate_settled hc hs h
  | folderCreate => exact folderCreate_settled hc hs h
  | folderRename => exact folderRename_settled hc hs h
  | folderReorder => exact folderReorder_settled hc hs h
  | folderDelete => exact folderDelete_settled hc hs h
  | folderLinkUpdate => exact folderLinkUpdate_settled hc hs h
  | folderOfferSet => exact folderOfferSet_settled hc hs h
  | folderOfferAccept => exact folderOfferAccept_settled hc hs h
  | folderOfferDecline => exact folderOfferDecline_settled hc hs h
  | panelMoveToFolder => exact panelMoveToFolder_settled hc hs h
  | panelUpdate => exact panelUpdate_settled hs h
  | panelReorder => exact panelReorder_settled hc hs h
  | panelSplit => exact panelSplit_settled hc hs h
  | panelActivate => exact panelActivate_settled hc hs h
  | panelMove => exact panelMove_settled hc hs h
  | panelClose => exact panelClose_settled hc hs h
  | terminalCreate => exact terminalCreate_settled hs h
  | terminalCreatePanel => exact terminalCreatePanel_settled hc hs h
  | terminalMarkInterrupted => exact terminalMarkInterrupted_settled hs h
  | terminalMarkExited => exact terminalMarkExited_settled hs h

/-! ## Recoveries -/

theorem rewriteSessions_settled (hs : Settled st)
    (rewrite : ProtocolId → TerminalSession ν → Option (TerminalSession ν)) :
    Settled (rewriteSessions st rewrite).1 :=
  hs.withPanels st.panels _

omit [Engine ν] in
theorem staleFolder_keeps (stale : List ProtocolId) (f : WorkspaceFolder ν) :
    Keeps f (staleFolder stale f) :=
  ⟨fun p hp => (List.mem_filter.mp hp).1, fun w hw hm => by
    rw [staleFolder, hw]
    exact withFolderPanels_active hm⟩

structure Discarding (st st' : WorkspaceState ν) : Prop where
  frame : Frame st st'
  derived : Derived (fun _ => False) st'
  keeps : ∀ (id : ProtocolId) (f' : WorkspaceFolder ν), st'.folders[id]? = some f' →
    ∃ f, st.folders[id]? = some f ∧ Keeps f f'

theorem discardFrom_step (hc : Consistent st) (hs : Settled st) {st' : WorkspaceState ν}
    (h : Discarding st st') (stale : List ProtocolId) {project : WorkspaceProject ν}
    {k : ProtocolId} (hp : st.projects[k]? = some project)
    (hp' : st'.projects[k]? = some project) :
    Discarding st (discardFrom stale st' project) ∧
      ∀ id, id ≠ k → (discardFrom stale st' project).projects[id]? = st'.projects[id]? := by
  have hid : project.id = k := (hc.projects k project hp).identity
  unfold discardFrom
  split_ifs
  · have hnodup := (hc.projects k project hp).folders.nodup
    let next : WorkspaceState ν :=
      { st' with folders := Table.updateAll st'.folders project.folderIds (staleFolder stale) }
    have hget : ∀ (id : ProtocolId) (f' : WorkspaceFolder ν), next.folders[id]? = some f' →
        ∃ f, st'.folders[id]? = some f ∧ Keeps f f' ∧ FolderSettled f' := by
      intro id f' hf'
      have hf'' : (Table.updateAll st'.folders project.folderIds (staleFolder stale))[id]? =
        some f' := hf'
      rw [Table.get_updateAll _ hnodup] at hf''
      split_ifs at hf''
      · obtain ⟨f, hf, rfl⟩ := Option.map_eq_some_iff.mp hf''
        exact ⟨f, hf, staleFolder_keeps stale f, withFolderPanels_settled _ _ _⟩
      · exact ⟨f', hf'', keeps_of_contents rfl, h.derived.folders id f' hf''⟩
    have hsame : Table.Agree WorkspaceFolder.label st'.folders next.folders :=
      Table.Agree.updateAll (by intro f; rfl) _ _
    have hdraft : Derived (· = project.id) next := by
      refine ⟨h.derived.identity, fun id p hpp f hf => ?_, fun id f hf => ?_, fun id p hpp hn => ?_⟩
      · obtain ⟨folder, hfo, hown⟩ := h.derived.owns id p hpp f hf
        obtain ⟨folder', hfo', hla⟩ := hsame.symm.get hfo
        exact ⟨folder', hfo', (congrArg (·.1) hla).trans hown⟩
      · exact (hget id f hf).choose_spec.2.2
      · have heq : projectFolders next p = projectFolders st' p := by
          refine List.filterMap_congr fun f hf => ?_
          have hother : f ∉ project.folderIds := fun hm => by
            obtain ⟨folder, hfo, hown⟩ := h.derived.owns id p hpp f hf
            obtain ⟨folder', hfo', hown'⟩ := h.derived.owns k project hp' f hm
            rw [hfo, Option.some.injEq] at hfo'
            exact hn (hown.symm.trans ((hfo' ▸ hown').trans hid.symm))
          exact (Table.get_updateAll _ hnodup _ _).trans (if_neg hother)
        rw [heq]
        exact h.derived.projects id p hpp fun hf => hf
    have hkeeps : ∀ (id : ProtocolId) (f' : WorkspaceFolder ν), next.folders[id]? = some f' →
        ∃ f, st.folders[id]? = some f ∧ Keeps f f' := by
      intro id f' hf'
      obtain ⟨g, hg, hkg, -⟩ := hget id f' hf'
      obtain ⟨f, hf, hkf⟩ := h.keeps id g hg
      exact ⟨f, hf, hkf.trans hkg⟩
    have hsync := hdraft.syncProject project.id none fun p hpp w hw hmem => by
      have hpp' : st'.projects[project.id]? = some p := hpp
      rw [hid, hp', Option.some.injEq] at hpp'
      subst hpp'
      exact shown_of_keeps hc (hs.derived.projects k project hp fun hf => hf)
        (fun id _ f' hf' => hkeeps id f' hf') hw hmem
    refine ⟨⟨?_, hsync.mono fun id hpen => hpen.2 hpen.1, fun id f' hf' => ?_⟩, fun id hne => ?_⟩
    · have hframe : Frame st' next := ⟨rfl, rfl, Table.Agree.refl _ _, hsame⟩
      exact (h.frame.trans hframe).trans (Frame.sync _ _ _)
    · rw [syncProject_folders] at hf'
      exact hkeeps id f' hf'
    · have hnext : next.projects[project.id]? = some project := hid ▸ hp'
      rw [syncProject, hnext]
      exact Table.get_insert_of_ne _ _ fun he => hne (he.symm.trans hid)
  · exact ⟨h, fun _ _ => rfl⟩

theorem discardFrom_fold (hc : Consistent st) (hs : Settled st) (stale : List ProtocolId)
    (entries : List (ProtocolId × WorkspaceProject ν)) (hkeys : (entries.map (·.1)).Nodup)
    (hentries : ∀ e ∈ entries, st.projects[e.1]? = some e.2) {st' : WorkspaceState ν}
    (h : Discarding st st') (hsame : ∀ e ∈ entries, st'.projects[e.1]? = some e.2) :
    Discarding st ((entries.map (·.2)).foldl (discardFrom stale) st') := by
  induction entries generalizing st' with
  | nil => exact h
  | cons e entries ih =>
    obtain ⟨hfresh, hkeys⟩ := List.nodup_cons.mp hkeys
    obtain ⟨hstep, hrest⟩ := discardFrom_step hc hs h stale (hentries e List.mem_cons_self)
      (hsame e List.mem_cons_self)
    refine ih hkeys (fun e' he' => hentries e' (List.mem_cons_of_mem _ he')) hstep fun e' he' => ?_
    have hne : e'.1 ≠ e.1 := fun heq => hfresh (List.mem_map.mpr ⟨e', he', heq⟩)
    rw [hrest _ hne]
    exact hsame e' (List.mem_cons_of_mem _ he')

theorem discarded_settled (hc : Consistent st) (hs : Settled st) : Settled (discarded st).1 := by
  have hstart : ∀ panels, Discarding st { st with panels := panels } := fun panels =>
    ⟨⟨rfl, rfl, Table.Agree.refl _ _, Table.Agree.refl _ _⟩,
      hs.derived.of_agree (Table.Agree.refl _ _) (Table.Agree.refl _ _),
      fun id f hf => ⟨f, hf, keeps_of_contents rfl⟩⟩
  have hentries : ∀ e ∈ st.projects.toList, st.projects[e.1]? = some e.2 := fun e he =>
    Table.mem_entries.mp he
  have hkeys : (st.projects.toList.map (·.1)).Nodup := Table.nodup_keys st.projects
  have hdone := discardFrom_fold hc hs (stalePanelIds st) _ hkeys hentries
    (hstart (Table.eraseAll st.panels (stalePanelIds st))) hentries
  exact (hs.of_frame hdone.frame hdone.derived).withPanels _ _

theorem withAutomationSpace_settled (hc : Consistent st) (hs : Settled st) {root : Str}
    {next : WorkspaceState ν} (h : withAutomationSpace st root = .ok next) : Settled next := by
  simp only [withAutomationSpace, bind_ok, refuseIf_ok, demand_ok, Except.ok.injEq] at h
  obtain ⟨-, hfree, viewId, hview, path, -, _, -, rfl⟩ := h
  have hnone := free_of_occupied hfree
  refine ⟨⟨hs.views.listed, hs.views.views, fun id p hp hk => ?_⟩,
    hs.derived.addProject (issuedFolderId_free st) rfl rfl rfl ⟨rfl, rfl, rfl, rfl⟩,
    hs.names.addGeneral hc hnone⟩
  rw [Table.get_insert] at hp
  split_ifs at hp with he
  · cases hp
    cases hk
  · exact hs.views.home id p hp hk

/-! ## The invariant of a store -/

theorem Consistent.numbered (hc : Consistent st) (n : ℕ) : Consistent (numbered n st) where
  serverId := hc.serverId
  schema := hc.schema
  cursor := rfl
  viewOrder := hc.viewOrder
  ordered := hc.ordered
  views id view hv :=
    have h := hc.views id view hv
    ⟨h.pattern, h.identity, h.server, h.owns, h.active⟩
  projects id project hp :=
    have h := hc.projects id project hp
    ⟨h.pattern, h.identity, h.server, h.home, h.origin, h.rootless, h.waiting, h.unlisted, h.profile,
      h.sidebar, h.panels, h.active, h.layout,
      ⟨h.folders.nodup, h.folders.owns, h.folders.oneGeneral, h.folders.derived, h.folders.links⟩⟩
  oneSpace := hc.oneSpace
  folders id folder hf :=
    have h := hc.folders id folder hf
    ⟨h.pattern, h.identity, h.listed, h.name, h.link, h.linkValid, h.nodup, h.panels, h.active,
      h.layout, h.creator, h.offer⟩
  panels id panel hp :=
    have h := hc.panels id panel hp
    ⟨h.pattern, h.identity, h.project, h.folder, h.session, h.fields⟩
  sessions id session hs :=
    have h := hc.sessions id session hs
    ⟨h.pattern, h.identity, h.server, h.project, h.position, h.launch⟩
  recents := hc.recents

theorem Settled.numbered (hs : Settled st) (n : ℕ) : Settled (numbered n st) :=
  hs.of_agree rfl (Table.Agree.refl _ _) (Table.Agree.refl _ _) (Table.Agree.refl _ _)
    (Table.Agree.refl _ _) (Table.Agree.refl _ _)

structure Sound (st : WorkspaceState ν) : Prop where
  consistent : Consistent st
  settled : Settled st

theorem Sound.install {s : WorkspaceStore ν} {next : WorkspaceState ν} (hc : Consistent next)
    (hs : Settled next) (commandId : ProtocolId) (type : Str) (changedIds : List (Json ν)) :
    Sound (install s next commandId type changedIds).current :=
  ⟨hc.numbered _, hs.numbered _⟩

theorem draft_ok {command : Command ν} {now : ν} {r : Edited ν} :
    draft st command now = .ok r ↔ reduce st command now = .ok r ∧ Valid r.1 := by
  simp only [draft, bind_ok, validateWorkspace_ok, Except.ok.injEq]
  constructor
  · intro ⟨next, hreduce, _, hvalid, he⟩
    exact ⟨he ▸ hreduce, he ▸ hvalid⟩
  · intro ⟨hreduce, hvalid⟩
    exact ⟨r, hreduce, (), hvalid, rfl⟩

theorem draft_sound (h : Sound st) {command : Command ν} {now : ν} {r : Edited ν}
    (hd : draft st command now = .ok r) : Sound r.1 := by
  obtain ⟨hreduce, hvalid⟩ := draft_ok.mp hd
  exact ⟨hvalid.toConsistent, edit_settled h.consistent h.settled hreduce⟩

/-- What an apply does: nothing to the state, or one commit of a draft. -/
theorem apply_current (s : WorkspaceStore ν) (envelope : WorkspaceCommandEnvelope ν) (now : ν)
    (written : Bool) :
    (apply s envelope now written).1.current = s.current ∨
      ∃ r, draft s.current envelope.command now = .ok r ∧
        (apply s envelope now written).1.current = numbered (s.current.revision + 1) r.1 := by
  have happlied := apply_cases s envelope now written
  generalize apply s envelope now written = applied at happlied ⊢
  cases happlied with
  | malformed hid => exact Or.inl rfl
  | replayed prior hprior => exact Or.inl rfl
  | stale hnew hstale => exact Or.inl rfl
  | rejected hnew message hdraft => exact Or.inl rfl
  | unwritten hnew hwritten => exact Or.inl rfl
  | committed hid hnew hfresh edited hdraft hwritten => exact Or.inr ⟨edited, hdraft, rfl⟩

theorem recover_sound {s : WorkspaceStore ν} (h : Sound s.current) {next : WorkspaceState ν}
    (hs : Settled next) (changedIds : List ProtocolId) (commandId : String) (written : Bool) :
    Sound (recover s next changedIds commandId written).current := by
  unfold recover
  split_ifs with hnone hok
  · exact h
  · rw [Bool.and_eq_true, isOk_iff] at hok
    obtain ⟨⟨_, hvalid⟩, -⟩ := hok
    exact Sound.install (validateWorkspace_ok.mp hvalid).toConsistent hs _ _ _
  · exact h

theorem ensureAutomationSpace_sound {s : WorkspaceStore ν} (h : Sound s.current) (root : Str)
    (written : Bool) : Sound (ensureAutomationSpace s root written).current := by
  unfold ensureAutomationSpace
  by_cases hfound : (findAutomationSpace s.current).isSome = true
  · rw [if_pos hfound]
    exact h
  · rw [if_neg hfound]
    rcases hw : withAutomationSpace s.current root with message | next
    · exact h
    · cases written
      · exact h
      · have hsettled := withAutomationSpace_settled h.consistent h.settled hw
        simp only [withAutomationSpace, bind_ok, Except.ok.injEq] at hw
        obtain ⟨_, -, viewId, -, path, -, _, hvalid, rfl⟩ := hw
        exact Sound.install (validateWorkspace_ok.mp hvalid).toConsistent hsettled _ _ _

theorem run_sound {s : WorkspaceStore ν} (h : Sound s.current) (call : StoreCall ν)
    (written : Bool) : Sound (call.run s written).current := by
  cases call with
  | apply envelope now =>
    rcases apply_current s envelope now written with hsame | ⟨r, hd, hnew⟩
    · exact hsame ▸ h
    · have hr := draft_sound h hd
      rw [StoreCall.run, hnew]
      exact ⟨hr.consistent.numbered _, hr.settled.numbered _⟩
  | ensureAutomationSpace root => exact ensureAutomationSpace_sound h root written
  | markInterruptedSessions at_ =>
    exact recover_sound h (rewriteSessions_settled h.settled _) _ _ _
  | reconcileHeldTerminalSessions live exited at_ =>
    exact recover_sound h (rewriteSessions_settled h.settled _) _ _ _
  | discardStaleTerminalState =>
    exact recover_sound h (discarded_settled h.consistent h.settled) _ _ _

theorem runCalls_sound {s : WorkspaceStore ν} (h : Sound s.current)
    (calls : List (StoreCall ν × Bool)) : Sound (runCalls s calls).current := by
  induction calls generalizing s with
  | nil => exact h
  | cons call calls ih => exact ih (run_sound h call.1 call.2)

/-! ## The initial workspace -/

omit [Engine ν] in
theorem initial_views (serverId : ProtocolId) :
    (initialWorkspace serverId : WorkspaceState ν).views =
      (∅ : Table.Of ProtocolId WorkspaceView).insert ((serverId ++ viewIdSuffix).take 128)
        ⟨(serverId ++ viewIdSuffix).take 128, serverId, js "Workspace", [], none⟩ := rfl

theorem idPattern_append {s t : Str} (h : idPattern s = true) (ht : t.all isIdUnit = true) :
    idPattern ((s ++ t).take 128) = true := by
  rcases s with _ | ⟨u, rest⟩
  · cases h
  · simp only [idPattern, List.cons_append, Bool.and_eq_true, List.take_succ_cons,
      decide_eq_true_eq, List.all_eq_true] at h ht ⊢
    refine ⟨⟨h.1.1, by simp⟩, fun v hv => ?_⟩
    rcases List.mem_append.mp (List.mem_of_mem_take hv) with hv | hv
    · exact h.2 v hv
    · exact ht v hv

theorem initialWorkspace_sound {serverId : ProtocolId} (h : idPattern serverId = true) :
    Sound (initialWorkspace serverId : WorkspaceState ν) := by
  have hview : ∀ {id : ProtocolId} {view : WorkspaceView},
      (initialWorkspace serverId : WorkspaceState ν).views[id]? = some view →
        id = (serverId ++ viewIdSuffix).take 128 ∧
          view = ⟨(serverId ++ viewIdSuffix).take 128, serverId, js "Workspace", [], none⟩ := by
    intro id view hv
    rw [initial_views, Table.get_insert] at hv
    split_ifs at hv with he
    · exact ⟨he.symm, (Option.some.inj hv).symm⟩
    · simp at hv
  have hproject : ∀ (id : ProtocolId) (p : WorkspaceProject ν),
      (initialWorkspace serverId : WorkspaceState ν).projects[id]? ≠ some p := by
    intro id p hp
    simp [initialWorkspace] at hp
  have hfolder : ∀ (id : ProtocolId) (f : WorkspaceFolder ν),
      (initialWorkspace serverId : WorkspaceState ν).folders[id]? ≠ some f := by
    intro id f hf
    simp [initialWorkspace] at hf
  refine ⟨⟨h, rfl, rfl, List.nodup_singleton _, ?_, ?_, ?_, ?_, ?_, ?_, ?_, rfl⟩,
    ⟨⟨?_, ?_, ?_⟩, ⟨?_, ?_, ?_, ?_⟩, ?_⟩⟩
  · intro id hid
    rw [initialWorkspace, List.mem_singleton] at hid
    rw [initial_views, hid]
    simp
  · intro id view hv
    obtain ⟨rfl, rfl⟩ := hview hv
    exact ⟨idPattern_append h (by decide), rfl, rfl, by simp, by simp⟩
  · intro id p hp
    exact absurd hp (hproject id p)
  · intro i j p q hp
    exact absurd hp (hproject i p)
  · intro id f hf
    exact absurd hf (hfolder id f)
  · intro id p hp
    simp [initialWorkspace] at hp
  · intro id p hp
    simp [initialWorkspace] at hp
  · intro id view hv
    exact (hview hv).1 ▸ List.mem_singleton_self _
  · intro id view hv
    obtain ⟨-, rfl⟩ := hview hv
    exact ⟨List.nodup_nil, by simp⟩
  · intro id p hp
    exact absurd hp (hproject id p)
  · intro id p hp
    exact absurd hp (hproject id p)
  · intro id p hp
    exact absurd hp (hproject id p)
  · intro id f hf
    exact absurd hf (hfolder id f)
  · intro id p hp
    exact absurd hp (hproject id p)
  · intro i j f g hf
    exact absurd hf (hfolder i f)

end Terminay.Workspace
