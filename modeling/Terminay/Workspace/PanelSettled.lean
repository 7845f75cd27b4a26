import Terminay.Workspace.ProjectSettled

/-!
# Folder, panel and terminal commands keep a workspace settled

These commands leave views, project placement and folder labels alone, or add one label.
-/

namespace Terminay.Workspace
open Script Outcome

variable {ν : Type} {st : WorkspaceState ν} {c : Fields ν} {r : Edited ν}

structure Frame (st st' : WorkspaceState ν) : Prop where
  viewOrder : st'.viewOrder = st.viewOrder
  views : st'.views = st.views
  placement : Table.Agree WorkspaceProject.placement st.projects st'.projects
  labels : Table.Agree WorkspaceFolder.label st.folders st'.folders

theorem Frame.trans {st₁ st₂ st₃ : WorkspaceState ν} (h : Frame st₁ st₂) (h' : Frame st₂ st₃) :
    Frame st₁ st₃ :=
  ⟨h'.viewOrder.trans h.viewOrder, h'.views.trans h.views, h.placement.trans h'.placement,
    h.labels.trans h'.labels⟩

theorem Frame.sync (st : WorkspaceState ν) (pid : ProtocolId) (active : Option ProtocolId) :
    Frame st (syncProject st pid active) := by
  refine ⟨syncProject_views.2, syncProject_views.1, syncProject_placement, ?_⟩
  rw [syncProject_folders]
  exact Table.Agree.refl _ _

theorem Frame.insertFolder {k : ProtocolId} {old new : WorkspaceFolder ν}
    (hold : st.folders[k]? = some old) (hlabel : new.label = old.label)
    (panels : Table.Of ProtocolId (WorkspacePanel ν)) :
    Frame st { st with folders := st.folders.insert k new, panels := panels } :=
  ⟨rfl, rfl, Table.Agree.refl _ _, Table.Agree.insert hold hlabel⟩

theorem Settled.of_frame [Engine ν] {st' : WorkspaceState ν} (hs : Settled st)
    (hf : Frame st st') (hd : Derived (fun _ => False) st') : Settled st' :=
  ⟨hs.views.of_agree hf.viewOrder (hf.views ▸ Table.Agree.refl _ _) hf.placement, hd,
    hs.names.of_agree hf.labels⟩

/-! ## Keeping the active panel -/

structure Keeps (f f' : WorkspaceFolder ν) : Prop where
  panels : ∀ p ∈ f'.panelIds, p ∈ f.panelIds
  active : ∀ w, f.activePanelId = some w → w ∈ f'.panelIds → f'.activePanelId = some w

theorem keeps_of_contents {f f' : WorkspaceFolder ν} (h : f.contents = f'.contents) :
    Keeps f f' := by
  simp only [WorkspaceFolder.contents, Prod.mk.injEq] at h
  obtain ⟨-, hp, ha, -⟩ := h
  exact ⟨fun p hm => hp ▸ hm, fun w hw _ => ha ▸ hw⟩

theorem Keeps.trans {f g h : WorkspaceFolder ν} (hfg : Keeps f g) (hgh : Keeps g h) : Keeps f h :=
  ⟨fun p hp => hfg.panels p (hgh.panels p hp),
    fun w hw hm => hgh.active w (hfg.active w hw (hgh.panels w hm)) hm⟩

theorem withFolderPanels_keeps {f : WorkspaceFolder ν} {panelIds : List ProtocolId}
    (hsub : ∀ p ∈ panelIds, p ∈ f.panelIds) :
    Keeps f (withFolderPanels f panelIds f.activePanelId) :=
  ⟨hsub, fun w hw hm => by rw [hw]; exact withFolderPanels_active hm⟩

theorem folderWithout_keeps (f : WorkspaceFolder ν) (p : ProtocolId) :
    Keeps f (folderWithout f p) := by
  refine ⟨fun q hq => (List.mem_filter.mp hq).1, fun w hw hm => ?_⟩
  have hne : w ≠ p := by simpa using (List.mem_filter.mp hm).2
  have hwanted : f.activePanelId.filter (· ≠ p) = some w := by simp [hw, hne]
  rw [folderWithout, hwanted]
  exact withFolderPanels_active hm

theorem shown_of_keeps [Engine ν] (hc : Consistent st) {project project' : WorkspaceProject ν}
    {st' : WorkspaceState ν} (hset : ProjectSettled (projectFolders st project) project)
    (hkeeps : ∀ id ∈ project'.folderIds, ∀ f', st'.folders[id]? = some f' →
      ∃ f, st.folders[id]? = some f ∧ Keeps f f')
    {w : ProtocolId} (hw : project.activePanelId = some w)
    (hmem : w ∈ (projectFolders st' project').flatMap (·.panelIds)) :
    ∃ f ∈ projectFolders st' project', f.activePanelId = some w := by
  obtain ⟨f', hf', hwf'⟩ := List.mem_flatMap.mp hmem
  obtain ⟨id, hid, hget⟩ := List.mem_filterMap.mp hf'
  obtain ⟨f, hf, hk⟩ := hkeeps id hid f' hget
  obtain ⟨g, hg, hga⟩ := hset.shown w hw
  obtain ⟨jd, -, hgget⟩ := List.mem_filterMap.mp hg
  -- The panel lives in one folder, so the folder that showed it is the one that has it.
  obtain ⟨panel, hpanel, hin⟩ := (hc.folders id f hf).panels w (hk.panels w hwf')
  obtain ⟨panel', hpanel', hin'⟩ :=
    (hc.folders jd g hgget).panels w ((hc.folders jd g hgget).active w hga)
  rw [hpanel, Option.some.injEq] at hpanel'
  have hij : id = jd := hin.symm.trans (hpanel' ▸ hin')
  rw [hij, hgget, Option.some.injEq] at hf
  exact ⟨f', hf', hk.active w (hf ▸ hga) hwf'⟩

theorem mem_projectFolders {project : WorkspaceProject ν} {id : ProtocolId}
    {f : WorkspaceFolder ν} (hid : id ∈ project.folderIds) (hf : st.folders[id]? = some f) :
    f ∈ projectFolders st project :=
  List.mem_filterMap.mpr ⟨id, hid, hf⟩

/-! ## Making and removing folders -/

theorem Derived.eraseFolder {pending : ProtocolId → Prop} (h : Derived pending st) {k : ProtocolId}
    (hk : ∀ (id : ProtocolId) (p : WorkspaceProject ν), st.projects[id]? = some p →
      k ∉ p.folderIds) :
    Derived pending { st with folders := st.folders.erase k } := by
  have hget : ∀ (id : ProtocolId) (p : WorkspaceProject ν), st.projects[id]? = some p →
      ∀ f ∈ p.folderIds, (st.folders.erase k)[f]? = st.folders[f]? := fun id p hp f hf =>
    Table.get_erase_of_ne _ fun he => hk id p hp (he ▸ hf)
  refine ⟨h.identity, fun id p hp f hf => ?_, fun id f hf => ?_, fun id p hp hn => ?_⟩
  · rw [hget id p hp f hf]
    exact h.owns id p hp f hf
  · rw [Table.get_erase] at hf
    split_ifs at hf
    exact h.folders id f hf
  · have hsame : projectFolders { st with folders := st.folders.erase k } p =
        projectFolders st p := List.filterMap_congr fun f hf => hget id p hp f hf
    rw [hsame]
    exact h.projects id p hp hn

theorem ProjectSettled.of_shown {folders folders' : List (WorkspaceFolder ν)}
    {project : WorkspaceProject ν} (h : ProjectSettled folders project) (ids : List ProtocolId)
    (hsub : ∀ f ∈ folders, f.activePanelId ≠ none → f ∈ folders') :
    ProjectSettled folders' { project with folderIds := ids } := by
  refine ⟨h.active, fun p hp => ?_, h.layout⟩
  obtain ⟨f, hf, hfa⟩ := h.shown p hp
  exact ⟨f, hsub f hf (by simp [hfa]), hfa⟩

theorem NamesDistinct.putFolder [Engine ν] (h : NamesDistinct st) {k : ProtocolId}
    {new : WorkspaceFolder ν}
    (hnew : new.kind ≠ .linked → ∀ (id : ProtocolId) (f : WorkspaceFolder ν),
      st.folders[id]? = some f → id ≠ k → f.projectId = new.projectId →
      Engine.toLowerCase ν f.name ≠ Engine.toLowerCase ν new.name) :
    NamesDistinct { st with folders := st.folders.insert k new } := by
  intro i j f g hf hg hproj hfk hgk hname
  rw [Table.get_insert] at hf hg
  split_ifs at hf with hi
  · split_ifs at hg with hj
    · exact hi.symm.trans hj
    · cases hf
      exact absurd hname.symm (hnew hfk j g hg (Ne.symm hj) hproj.symm)
  · split_ifs at hg with hj
    · cases hg
      exact absurd hname (hnew hgk i f hf (Ne.symm hi) hproj)
    · exact h i j f g hf hg hproj hfk hgk hname

section Engine
variable [Engine ν]

theorem unused_ok {project : WorkspaceProject ν} {name : Str} {except : Option ProtocolId}
    {u : Unit} (h : requireUnusedFolderName st project name except = .ok u) :
    ∀ id ∈ project.folderIds, except ≠ some id → ∀ f, st.folders[id]? = some f →
      Engine.toLowerCase ν f.name ≠ Engine.toLowerCase ν name := by
  intro id hid hne f hf he
  simp only [requireUnusedFolderName, refuseIf_ok, List.any_eq_true, not_exists, not_and] at h
  exact h id hid (by simpa [hf, he] using Ne.symm hne)

theorem folderCreate_settled (hc : Consistent st) (hs : Settled st)
    (h : folderCreate st c = .ok r) : Settled r.1 := by
  simp only [folderCreate, bind_ok, requireProject_ok, refuseIf_ok, Except.ok.injEq] at h
  obtain ⟨project, ⟨k, -, -, hp⟩, -, -, link, -, creator, -, name, -, _, hname, rfl⟩ := h
  rw [← (hc.projects k project hp).identity] at hp
  have hfree := issuedFolderId_free st
  refine ⟨hs.views.of_agree rfl (Table.Agree.refl _ _) (Table.Agree.insert hp rfl), ?_, ?_⟩
  · generalize hfolder : WorkspaceFolder.mk (issuedFolderId st) project.id name _ link [] none
      (stack [] none) creator none = folder
    have hset : FolderSettled folder := by
      subst hfolder
      exact ⟨by simp, List.Perm.refl _⟩
    have hproj : folder.projectId = project.id := hfolder ▸ rfl
    have hadd := hs.derived.addFolder hfree hset
    refine (hadd.insertProject ?_ (fun f hf => ?_) fun _ => ?_).of_agree
      (Table.Agree.refl _ _) (Table.Agree.refl _ _)
    · rfl
    · rw [List.mem_append, List.mem_singleton] at hf
      rcases hf with hf | rfl
      · exact hadd.owns _ project hp f hf
      · exact ⟨folder, by simp, hproj⟩
    · refine (hadd.projects _ project hp (fun hf => hf)).of_shown _ fun f hf _ => ?_
      obtain ⟨id, hmem, hget⟩ := List.mem_filterMap.mp hf
      exact mem_projectFolders (List.mem_append_left _ hmem) hget
  · refine hs.names.putFolder fun hkind id f hf _ hproj => ?_
    have hlink : link = none := by
      by_contra hl
      simp [hl] at hkind
    rw [newFolderName, if_pos hlink] at hname
    obtain ⟨owner, howner, hlisted⟩ := (hc.folders id f hf).listed
    rw [hproj, hp, Option.some.injEq] at howner
    subst howner
    exact unused_ok hname id hlisted (by simp) f hf

theorem folderRename_settled (hc : Consistent st) (hs : Settled st)
    (h : folderRename st c = .ok r) : Settled r.1 := by
  simp only [folderRename, bind_ok, requireFolder_ok, requireProject_ok, refuseIf_ok,
    Except.ok.injEq, Option.some.injEq, Json.str.injEq] at h
  obtain ⟨folder, ⟨k, -, -, hf⟩, -, -, name, -, project, ⟨_, rfl, -, hp⟩, _, hname, rfl⟩ := h
  have hid : folder.id = k := (hc.folders k folder hf).identity
  rw [← hid] at hf
  refine ⟨hs.views.of_agree rfl (Table.Agree.refl _ _) (Table.Agree.refl _ _),
    hs.derived.of_agree (Table.Agree.insert hf rfl) (Table.Agree.refl _ _), ?_⟩
  refine hs.names.putFolder fun _ id f hfo hne hproj => ?_
  obtain ⟨owner, howner, hlisted⟩ := (hc.folders id f hfo).listed
  rw [hproj, hp, Option.some.injEq] at howner
  subst howner
  exact unused_ok hname id hlisted (by simpa using Ne.symm hne) f hfo

theorem putFolder_settled (hs : Settled st) {old new : WorkspaceFolder ν}
    (hold : st.folders[new.id]? = some old) (hco : new.contents = old.contents)
    (hla : new.label = old.label) : Settled (putFolder st new) :=
  hs.of_frame (Frame.insertFolder hold hla st.panels)
    (hs.derived.of_agree (Table.Agree.insert hold hco) (Table.Agree.refl _ _))

theorem folderLinkUpdate_settled (hc : Consistent st) (hs : Settled st)
    (h : folderLinkUpdate st c = .ok r) : Settled r.1 := by
  simp only [folderLinkUpdate, bind_ok, requireFolder_ok, Except.ok.injEq] at h
  obtain ⟨folder, ⟨k, -, -, hf⟩, _, -, link, -, rfl⟩ := h
  rw [← (hc.folders k folder hf).identity] at hf
  exact putFolder_settled hs hf rfl rfl

theorem folderOfferSet_settled (hc : Consistent st) (hs : Settled st)
    (h : folderOfferSet st c = .ok r) : Settled r.1 := by
  simp only [folderOfferSet, bind_ok, requireFolder_ok, Except.ok.injEq] at h
  obtain ⟨folder, ⟨k, -, -, hf⟩, panel, -, _, -, _, -, rfl⟩ := h
  rw [← (hc.folders k folder hf).identity] at hf
  exact putFolder_settled hs hf rfl rfl

theorem folderOfferDecline_settled (hc : Consistent st) (hs : Settled st)
    (h : folderOfferDecline st c = .ok r) : Settled r.1 := by
  simp only [folderOfferDecline, bind_ok, requireFolder_ok, Except.ok.injEq] at h
  obtain ⟨folder, ⟨k, -, -, hf⟩, _, -, rfl⟩ := h
  rw [← (hc.folders k folder hf).identity] at hf
  exact putFolder_settled hs hf rfl rfl

omit [Engine ν] in
theorem reordering_ok {value : Option (Json ν)} {held order : List ProtocolId} {message : String}
    (h : reordering value held message = .ok order) :
    order.length = held.length ∧ order.Nodup ∧ ∀ id ∈ order, id ∈ held := by
  unfold reordering at h
  split at h
  · cases h
  · split at h
    · cases h
    · simp only [bind_ok, refuseIf_ok, not_or, not_not, not_exists, not_and, Except.ok.injEq,
        exists_const] at h
      obtain ⟨⟨hlen, hnodup, hmem⟩, rfl⟩ := h
      exact ⟨hlen, hnodup, hmem⟩

theorem folderReorder_settled (hc : Consistent st) (hs : Settled st)
    (h : folderReorder st c = .ok r) : Settled r.1 := by
  simp only [folderReorder, bind_ok, requireProject_ok, Except.ok.injEq] at h
  obtain ⟨project, ⟨k, -, -, hp⟩, order, horder, rfl⟩ := h
  have hid : project.id = k := (hc.projects k project hp).identity
  obtain ⟨-, -, hmem⟩ := reordering_ok horder
  rw [← hid] at hp
  have hput : Frame st (putProject st project.id { project with folderIds := order }) :=
    ⟨rfl, rfl, Table.Agree.insert hp rfl, Table.Agree.refl _ _⟩
  refine hs.of_frame (hput.trans (Frame.sync _ _ _)) ?_
  have hdraft : Derived (· = project.id)
      (putProject st project.id { project with folderIds := order }) :=
    (hs.derived.mono fun _ hf => hf.elim).insertProject rfl
      (fun f hf => hs.derived.owns _ project hp f (hmem f hf)) fun hn => absurd rfl hn
  refine (hdraft.syncProject _ _ fun p hget w hw => ?_).mono fun _ hpen => hpen.2 hpen.1
  rw [show (putProject st project.id { project with folderIds := order }).projects[project.id]? =
    some { project with folderIds := order } from Std.ExtTreeMap.getElem?_insert_self,
    Option.some.injEq] at hget
  subst hget
  exact shown_of_keeps hc (hs.derived.projects _ project hp fun hf => hf)
    (fun _ _ f' hf' => ⟨f', hf', keeps_of_contents rfl⟩) hw

theorem folderDelete_settled (hc : Consistent st) (hs : Settled st)
    (h : folderDelete st c = .ok r) : Settled r.1 := by
  simp only [folderDelete, bind_ok, requireFolder_ok, requireProject_ok, refuseIf_ok,
    Except.ok.injEq, Option.some.injEq, Json.str.injEq] at h
  obtain ⟨folder, ⟨k, -, -, hf⟩, -, -, -, hempty, project, ⟨_, rfl, -, hp⟩, rfl⟩ := h
  have hid : folder.id = k := (hc.folders k folder hf).identity
  have hpid : project.id = folder.projectId := (hc.projects _ project hp).identity
  have hnil : folder.panelIds = [] := List.length_eq_zero_iff.mp (by omega)
  rw [← hid] at hf
  rw [← hpid] at hp
  refine ⟨hs.views.of_agree rfl (Table.Agree.refl _ _) (Table.Agree.insert hp rfl), ?_,
    fun i j f g hfi hgj => ?_⟩
  · let kept : WorkspaceProject ν :=
      { project with folderIds := project.folderIds.filter (· ≠ folder.id) }
    have hput : Derived (fun _ => False) (putProject st project.id kept) := by
      refine hs.derived.insertProject rfl
        (fun f hfm => hs.derived.owns _ project hp f (List.mem_filter.mp hfm).1) fun _ => ?_
      refine (hs.derived.projects _ project hp fun hfa => hfa).of_shown _ fun f hfm hact => ?_
      obtain ⟨id, hmem, hget⟩ := List.mem_filterMap.mp hfm
      refine mem_projectFolders (List.mem_filter.mpr ⟨hmem, ?_⟩) hget
      rw [decide_eq_true_eq]
      intro he
      rw [he, hf, Option.some.injEq] at hget
      have hiff := (hs.derived.folders _ folder hf).active
      rw [hnil, ← Option.ne_none_iff_isSome] at hiff
      exact hiff.mp (hget ▸ hact) rfl
    refine (hput.eraseFolder fun id p hget => ?_).of_agree (Table.Agree.refl _ _)
      (Table.Agree.refl _ _)
    have hget' : (st.projects.insert project.id kept)[id]? = some p := hget
    rw [Table.get_insert] at hget'
    split_ifs at hget' with he
    · cases hget'
      simp [kept]
    · intro hmem
      obtain ⟨f, hfo, hown⟩ := hs.derived.owns id p hget' _ hmem
      rw [hf, Option.some.injEq] at hfo
      exact he (hpid.trans (hfo ▸ hown))
  · rw [Table.get_erase] at hfi hgj
    split_ifs at hfi hgj
    exact hs.names i j f g hfi hgj

/-! ## Moving panels between folders -/

section

omit [Engine ν]

theorem removeFromFolder_ok {folderId panelId : ProtocolId} {st' : WorkspaceState ν} :
    removeFromFolder st folderId panelId = .ok st' ↔
      idPattern folderId = true ∧ ∃ folder, st.folders[folderId]? = some folder ∧
        st' = { st with folders := st.folders.insert folder.id (folderWithout folder panelId) } := by
  simp only [removeFromFolder, bind_ok, requireFolder_ok, Except.ok.injEq, Option.some.injEq,
    Json.str.injEq]
  constructor
  · intro ⟨folder, ⟨k, hk, hpat, hf⟩, he⟩
    subst hk
    exact ⟨hpat, folder, hf, he.symm⟩
  · intro ⟨hpat, folder, hf, he⟩
    exact ⟨folder, ⟨folderId, rfl, hpat, hf⟩, he.symm⟩

theorem Derived.withPanels {pending : ProtocolId → Prop} (h : Derived pending st)
    (panels : Table.Of ProtocolId (WorkspacePanel ν))
    (sessions : Table.Of ProtocolId (TerminalSession ν)) :
    Derived pending { st with panels := panels, terminalSessions := sessions } :=
  h.of_agree (Table.Agree.refl _ _) (Table.Agree.refl _ _)

theorem Derived.showPanel {pending : ProtocolId → Prop} (h : Derived pending st)
    {k pid : ProtocolId} {old new : WorkspaceFolder ν} {p : ProtocolId}
    (hold : st.folders[k]? = some old) (hnew : FolderSettled new)
    (hproj : new.projectId = old.projectId) (hown : old.projectId = pid)
    (hactive : new.activePanelId = some p)
    (hlisted : ∀ project, st.projects[pid]? = some project → k ∈ project.folderIds)
    (panels : Table.Of ProtocolId (WorkspacePanel ν)) :
    Derived (fun id => pending id ∧ id ≠ pid)
      (Workspace.syncProject { st with folders := st.folders.insert k new, panels := panels }
        pid (some p)) := by
  have hdraft := (h.insertFolder hold hnew hproj).withPanels panels st.terminalSessions
  subst hown
  refine (hdraft.syncProject _ _ fun project hp w hw _ => ?_).mono fun id hpen =>
    ⟨hpen.1.resolve_right hpen.2, hpen.2⟩
  cases hw
  exact ⟨new, mem_projectFolders (hlisted project hp) Std.ExtTreeMap.getElem?_insert_self, hactive⟩

end

theorem leaveFolder_settled (hc : Consistent st) (hs : Settled st) {panel : WorkspacePanel ν}
    {target : WorkspaceFolder ν} {p : ProtocolId} {st' : WorkspaceState ν}
    (hpanel : st.panels[p]? = some panel) (h : leaveFolder st panel target = .ok st') :
    Frame st st' ∧ Derived (· = panel.projectId) st' ∧ st'.panels = st.panels ∧
      st'.projects = st.projects := by
  unfold leaveFolder at h
  split_ifs at h with he
  · obtain ⟨-, folder, hf, rfl⟩ := removeFromFolder_ok.mp h
    obtain ⟨folder', hf', hproj, -⟩ := (hc.panels p panel hpanel).folder
    rw [hf, Option.some.injEq] at hf'
    subst hf'
    rw [← (hc.folders _ folder hf).identity] at hf
    refine ⟨Frame.insertFolder hf (by rfl) st.panels, ?_, rfl, rfl⟩
    exact (hs.derived.insertFolder hf (withFolderPanels_settled _ _ _) rfl).mono fun id hor =>
      hor.elim False.elim fun hid => hid.trans hproj
  · cases h
    exact ⟨⟨rfl, rfl, Table.Agree.refl _ _, Table.Agree.refl _ _⟩,
      hs.derived.mono fun _ hf => hf.elim, rfl, rfl⟩

theorem movePanelToFolder_settled (hc : Consistent st) (hs : Settled st) {p : ProtocolId}
    {folderId index : Option (Json ν)} {st' : WorkspaceState ν}
    (h : movePanelToFolder st p folderId index = .ok st') : Settled st' := by
  simp only [movePanelToFolder, bind_ok, requirePanel_ok, requireFolder_ok, refuseIf_ok, not_not,
    Except.ok.injEq, Option.some.injEq, Json.str.injEq] at h
  obtain ⟨panel, ⟨_, rfl, -, hpanel⟩, target, ⟨k, hk, -, htarget⟩, -, hproj, st1, hleave, current,
    ⟨_, hk', -, hcurrent⟩, position, hposition, rfl⟩ := h
  rw [hk, Option.some.injEq, Json.str.injEq] at hk'
  subst hk'
  rw [hk, propertyKey_str]
  obtain ⟨hframe, hdraft, hpanels, hprojects⟩ := leaveFolder_settled hc hs hpanel hleave
  have hown : current.projectId = panel.projectId := by
    obtain ⟨folder, hf, hl⟩ := hframe.labels.get hcurrent
    rw [htarget, Option.some.injEq] at hf
    subst hf
    simp only [WorkspaceFolder.label, Prod.mk.injEq] at hl
    exact hl.1.symm.trans hproj
  have hlisted : ∀ project, st1.projects[panel.projectId]? = some project →
      k ∈ project.folderIds := by
    intro project hp
    obtain ⟨owner, howner, hmem⟩ := (hc.folders k target htarget).listed
    rw [hprojects, ← hproj, howner, Option.some.injEq] at hp
    exact hp ▸ hmem
  have hperm := insertIdx_perm (indexAt_le hposition) p
  have hshown := hdraft.showPanel hcurrent
    (withFolderPanels_settled { current with captureOffer := current.captureOffer.filter (· ≠ p) }
      ((current.panelIds.filter (· ≠ p)).insertIdx position p) (some p)) rfl hown
    (withFolderPanels_active (hperm.mem_iff.mpr List.mem_cons_self)) hlisted
    (st1.panels.insert p { panel with folderId := k })
  exact hs.of_frame (hframe.trans (Frame.trans (Frame.insertFolder hcurrent (by rfl) _)
    (Frame.sync _ _ _))) (hshown.mono fun id hpen => hpen.2 hpen.1)

theorem folderOfferAccept_settled (hc : Consistent st) (hs : Settled st)
    (h : folderOfferAccept st c = .ok r) : Settled r.1 := by
  simp only [folderOfferAccept, bind_ok, Except.ok.injEq] at h
  obtain ⟨folder, -, panelId, -, st1, hmove, rfl⟩ := h
  exact movePanelToFolder_settled hc hs hmove

theorem panelMoveToFolder_settled (hc : Consistent st) (hs : Settled st)
    (h : panelMoveToFolder st c = .ok r) : Settled r.1 := by
  simp only [panelMoveToFolder, bind_ok, Except.ok.injEq] at h
  obtain ⟨panel, -, st1, hmove, rfl⟩ := h
  exact movePanelToFolder_settled hc hs hmove

/-! ## Adding, arranging and closing panels -/

omit [Engine ν] in
theorem folderForNewPanel_ok {project : WorkspaceProject ν} {value : Option (Json ν)}
    {folder : WorkspaceFolder ν} (h : folderForNewPanel st project value = .ok folder) :
    (∃ k : ProtocolId, st.folders[k]? = some folder) ∧ folder.projectId = project.id := by
  simp only [folderForNewPanel, bind_ok, requireFolder_ok, refuseIf_ok, not_not,
    Except.ok.injEq] at h
  obtain ⟨folder, ⟨k, -, -, hf⟩, _, hproj, rfl⟩ := h
  exact ⟨⟨k, hf⟩, hproj⟩

theorem Settled.withPanels (hs : Settled st) (panels : Table.Of ProtocolId (WorkspacePanel ν))
    (sessions : Table.Of ProtocolId (TerminalSession ν)) :
    Settled { st with panels := panels, terminalSessions := sessions } :=
  hs.of_agree rfl (Table.Agree.refl _ _) (Table.Agree.refl _ _) (Table.Agree.refl _ _)
    (Table.Agree.refl _ _) (Table.Agree.refl _ _)

theorem showPanel_settled (hc : Consistent st) (hs : Settled st) {project : WorkspaceProject ν}
    {folder : WorkspaceFolder ν} {value : Option (Json ν)} {panel : WorkspacePanel ν}
    (hfolder : folderForNewPanel st project value = .ok folder)
    (sessions : Table.Of ProtocolId (TerminalSession ν)) :
    Settled (showPanel { st with terminalSessions := sessions } project folder panel) := by
  obtain ⟨⟨k, hf⟩, hproj⟩ := folderForNewPanel_ok hfolder
  rw [← (hc.folders k folder hf).identity] at hf
  obtain ⟨owner, howner, hlisted⟩ := (hc.folders _ folder hf).listed
  let draft : WorkspaceState ν := { st with terminalSessions := sessions }
  have hf' : draft.folders[folder.id]? = some folder := hf
  have hshown := (hs.derived.withPanels st.panels sessions).showPanel hf'
    (withFolderPanels_settled folder (folder.panelIds ++ [panel.id]) (some panel.id)) rfl hproj
    (withFolderPanels_active (by simp))
    (fun p hp => by
      have hp' : st.projects[project.id]? = some p := hp
      rw [← hproj, howner, Option.some.injEq] at hp'
      exact hp' ▸ hlisted)
    (st.panels.insert panel.id panel)
  exact (hs.withPanels st.panels sessions).of_frame
    (Frame.trans (Frame.insertFolder hf' (by rfl) _) (Frame.sync _ _ _))
    (hshown.mono fun id hpen => hpen.1)

theorem panelCreate_settled (hc : Consistent st) (hs : Settled st)
    (h : panelCreate st c = .ok r) : Settled r.1 := by
  simp only [panelCreate, bind_ok, Except.ok.injEq] at h
  obtain ⟨input, -, panelId, -, _, -, project, -, _, -, _, -, folder, hfolder, fields, -, rfl⟩ := h
  exact showPanel_settled hc hs hfolder st.terminalSessions

theorem panelUpdate_settled (hs : Settled st) (h : panelUpdate st c = .ok r) : Settled r.1 := by
  simp only [panelUpdate, bind_ok, Except.ok.injEq] at h
  obtain ⟨panel, -, patch, -, _, -, _, -, _, -, next, -, fields, -, rfl⟩ := h
  exact hs.withPanels _ st.terminalSessions

theorem arrange_settled (hc : Consistent st) (hs : Settled st) {project : WorkspaceProject ν}
    {k j : ProtocolId} {old new : WorkspaceFolder ν} {active : Option ProtocolId}
    (hp : st.projects[k]? = some project) (hold : st.folders[j]? = some old)
    (hnew : FolderSettled new) (hproj : old.projectId = project.id) (hla : new.label = old.label)
    (hid : new.id = old.id) (hkeeps : active = none → Keeps old new)
    (hactive : ∀ p, active = some p → new.activePanelId = some p) :
    Settled (syncProject (putFolder st new) project.id active) := by
  rw [← (hc.folders j old hold).identity, ← hid] at hold
  rw [← (hc.projects k project hp).identity] at hp
  have hown : new.projectId = old.projectId := congrArg (·.1) hla
  have hdraft := hs.derived.insertFolder hold hnew hown
  refine hs.of_frame ((Frame.insertFolder hold hla st.panels).trans (Frame.sync _ _ _))
    ((hdraft.syncProject _ _ fun p hget w hw hmem => ?_).mono fun id hpen => ?_)
  · have hget' : st.projects[project.id]? = some p := hget
    rw [hp, Option.some.injEq] at hget'
    subst hget'
    obtain ⟨owner, howner, hlisted⟩ := (hc.folders _ old hold).listed
    rw [hproj, hp, Option.some.injEq] at howner
    subst howner
    rcases active with _ | a
    · refine shown_of_keeps hc (hs.derived.projects _ project hp fun hf => hf)
        (fun id _ f' hf' => ?_) hw hmem
      have hf'' : (st.folders.insert new.id new)[id]? = some f' := hf'
      rw [Table.get_insert] at hf''
      split_ifs at hf'' with he
      · cases hf''
        exact ⟨old, he ▸ hold, hkeeps rfl⟩
      · exact ⟨f', hf'', keeps_of_contents rfl⟩
    · cases hw
      exact ⟨new, mem_projectFolders hlisted Std.ExtTreeMap.getElem?_insert_self, hactive w rfl⟩
  · exact hpen.2 (hpen.1.elim False.elim fun he => he.trans hproj)

theorem panelReorder_settled (hc : Consistent st) (hs : Settled st)
    (h : panelReorder st c = .ok r) : Settled r.1 := by
  simp only [panelReorder, bind_ok, requireProject_ok, requireFolder_ok, refuseIf_ok, not_not,
    Except.ok.injEq] at h
  obtain ⟨project, ⟨k, -, -, hp⟩, folder, ⟨j, -, -, hf⟩, _, hproj, order, horder, rfl⟩ := h
  obtain ⟨-, -, hmem⟩ := reordering_ok horder
  exact arrange_settled hc hs hp hf (withFolderPanels_settled _ _ _) hproj rfl rfl
    (fun _ => withFolderPanels_keeps hmem) fun p hn => nomatch hn

omit [Engine ν] in
theorem panelInProject_ok {project : WorkspaceProject ν} {value : Option (Json ν)} {p : ProtocolId}
    (h : panelInProject project value = .ok p) : p ∈ project.panelIds := by
  unfold panelInProject at h
  split at h
  · split_ifs at h with hm
    cases h
    exact hm
  · cases h

theorem holding_folder (hc : Consistent st) {project : WorkspaceProject ν} {k p : ProtocolId}
    {panel : WorkspacePanel ν} {folder : WorkspaceFolder ν} (hp : st.projects[k]? = some project)
    (hm : p ∈ project.panelIds) (hpanel : st.panels[p]? = some panel)
    (hf : st.folders[panel.folderId]? = some folder) :
    folder.projectId = project.id ∧ p ∈ folder.panelIds := by
  obtain ⟨panel', hpanel', hproj⟩ := (hc.projects k project hp).panels p hm
  rw [hpanel, Option.some.injEq] at hpanel'
  subst hpanel'
  obtain ⟨folder', hf', hown, hin⟩ := (hc.panels p panel hpanel).folder
  rw [hf, Option.some.injEq] at hf'
  subst hf'
  exact ⟨hown.trans (hproj.trans (hc.projects k project hp).identity.symm), hin⟩

theorem panelSplit_settled (hc : Consistent st) (hs : Settled st)
    (h : panelSplit st c = .ok r) : Settled r.1 := by
  simp only [panelSplit, bind_ok, requireProject_ok, requirePanel_ok, requireFolder_ok,
    Except.ok.injEq, Option.some.injEq, Json.str.injEq] at h
  obtain ⟨project, ⟨k, -, -, hp⟩, p, hin, panel, ⟨_, rfl, -, hpanel⟩, folder, ⟨_, rfl, -, hf⟩,
    rfl⟩ := h
  obtain ⟨hproj, hmem⟩ := holding_folder hc hp (panelInProject_ok hin) hpanel hf
  have hnodup := (hc.folders _ folder hf).nodup
  refine arrange_settled hc hs hp hf ⟨(hs.derived.folders _ folder hf).active, ?_⟩ hproj rfl rfl
    (fun _ => ⟨fun q hq => hq, fun w hw _ => hw⟩) fun q hn => nomatch hn
  have hperm := (List.perm_cons_erase hmem).symm
  rw [hnodup.erase_eq_filter] at hperm
  simpa [LayoutNode.panels, bne, beq_eq_decide] using hperm

theorem panelActivate_settled (hc : Consistent st) (hs : Settled st)
    (h : panelActivate st c = .ok r) : Settled r.1 := by
  simp only [panelActivate, bind_ok, requireProject_ok, requirePanel_ok, requireFolder_ok,
    Except.ok.injEq, Option.some.injEq, Json.str.injEq] at h
  obtain ⟨project, ⟨k, -, -, hp⟩, p, hin, panel, ⟨_, rfl, -, hpanel⟩, folder, ⟨_, rfl, -, hf⟩,
    rfl⟩ := h
  obtain ⟨hproj, hmem⟩ := holding_folder hc hp (panelInProject_ok hin) hpanel hf
  refine arrange_settled hc hs hp hf ⟨by simp [List.ne_nil_of_mem hmem], ?_⟩ hproj rfl rfl
    (fun hn => nomatch hn) fun q hq => hq
  by_cases hstack : folder.layout.isStack = true
  · simp [hstack]
  · simpa [hstack] using (hs.derived.folders _ folder hf).layout

omit [Engine ν] in
theorem forgetPanelReferences_agree {β : Type} {g : WorkspaceFolder ν → β} {projectId p : ProtocolId}
    (hg : ∀ f, g (forgetPanel f p) = g f) :
    Table.Agree g st.folders (forgetPanelReferences st projectId p).folders :=
  Table.Agree.updateAll hg _ _

theorem withdraw_settled (hc : Consistent st) (hs : Settled st) {p : ProtocolId}
    {panel : WorkspacePanel ν} (hpanel : st.panels[p]? = some panel)
    (panels : Table.Of ProtocolId (WorkspacePanel ν))
    (sessions : Table.Of ProtocolId (TerminalSession ν)) {st' : WorkspaceState ν}
    (h : removeFromFolder
      (forgetPanelReferences { st with panels := panels, terminalSessions := sessions }
        panel.projectId panel.id) panel.folderId panel.id = .ok st') :
    Frame st st' ∧ Derived (· = panel.projectId) st' ∧ st'.projects = st.projects ∧
      ∀ (id : ProtocolId) (f' : WorkspaceFolder ν), st'.folders[id]? = some f' →
        ∃ f, st.folders[id]? = some f ∧ Keeps f f' := by
  have hcontents : Table.Agree WorkspaceFolder.contents st.folders
      (forgetPanelReferences { st with panels := panels, terminalSessions := sessions }
        panel.projectId panel.id).folders := forgetPanelReferences_agree fun _ => rfl
  have hlabels : Table.Agree WorkspaceFolder.label st.folders
      (forgetPanelReferences { st with panels := panels, terminalSessions := sessions }
        panel.projectId panel.id).folders := forgetPanelReferences_agree fun _ => rfl
  obtain ⟨-, folder, hf, rfl⟩ := removeFromFolder_ok.mp h
  obtain ⟨held, hheld, hproj, -⟩ := (hc.panels p panel hpanel).folder
  obtain ⟨folder', hfo, hco⟩ := hcontents.get hf
  rw [hheld, Option.some.injEq] at hfo
  subst hfo
  have hown : folder.projectId = panel.projectId := (congrArg (·.1) hco).symm.trans hproj
  have hfid : folder.id = panel.folderId := by
    have hids : Table.Agree (·.id) st.folders
        (forgetPanelReferences { st with panels := panels, terminalSessions := sessions }
          panel.projectId panel.id).folders := forgetPanelReferences_agree fun _ => rfl
    obtain ⟨f, hf', hid⟩ := hids.get hf
    exact hid.symm.trans (hc.folders _ f hf').identity
  rw [← hfid] at hf hheld
  have hdraft := (hs.derived.of_agree hcontents (Table.Agree.refl _ _)).insertFolder hf
    (withFolderPanels_settled folder (folder.panelIds.filter (· ≠ panel.id))
      (folder.activePanelId.filter (· ≠ panel.id))) rfl
  refine ⟨⟨rfl, rfl, Table.Agree.refl _ _, hlabels.trans (Table.Agree.insert hf rfl)⟩,
    hdraft.mono fun id hor => hor.elim False.elim fun he => he.trans hown, rfl, fun id f' hf' => ?_⟩
  rw [Table.get_insert] at hf'
  split_ifs at hf' with he
  · cases hf'
    exact ⟨held, he ▸ hheld, (keeps_of_contents hco).trans (folderWithout_keeps _ _)⟩
  · obtain ⟨f, hfo, hco'⟩ := hcontents.get hf'
    exact ⟨f, hfo, keeps_of_contents hco'⟩

theorem rehomeSession_ok {panel : WorkspacePanel ν} {projectId : ProtocolId}
    {st' : WorkspaceState ν} (h : rehomeSession st panel projectId = .ok st') :
    ∃ sessions, st' = { st with terminalSessions := sessions } := by
  unfold rehomeSession at h
  split_ifs at h
  · simp only [bind_ok, demand_ok, Except.ok.injEq] at h
    obtain ⟨session, -, rfl⟩ := h
    exact ⟨_, rfl⟩
  · cases h
    exact ⟨_, rfl⟩

theorem panelMove_settled (hc : Consistent st) (hs : Settled st) (h : panelMove st c = .ok r) :
    Settled r.1 := by
  simp only [panelMove, bind_ok, requirePanel_ok, requireProject_ok, Option.some.injEq,
    Json.str.injEq] at h
  obtain ⟨panel, ⟨p, -, -, hpanel⟩, source, ⟨_, rfl, -, hsource⟩, to_, ⟨t, -, -, hto⟩, _, -, target,
    htarget, h⟩ := h
  split_ifs at h with hsame
  · simp only [bind_ok, Except.ok.injEq] at h
    obtain ⟨st1, hmove, rfl⟩ := h
    exact movePanelToFolder_settled hc hs hmove
  · simp only [bind_ok, Except.ok.injEq] at h
    obtain ⟨st1, hremove, position, hposition, st4, hrehome, rfl⟩ := h
    obtain ⟨sessions, rfl⟩ := rehomeSession_ok hrehome
    have hsid : source.id = panel.projectId := (hc.projects _ source hsource).identity
    rw [hsid] at hremove hsame ⊢
    obtain ⟨hframe, hdraft, hprojects, hkeeps⟩ :=
      withdraw_settled hc hs hpanel st.panels st.terminalSessions hremove
    obtain ⟨⟨k, hk⟩, htproj⟩ := folderForNewPanel_ok htarget
    rw [← (hc.folders k target hk).identity] at hk
    obtain ⟨old, hold, hla⟩ := hframe.labels.symm.get hk
    have holdproj : old.projectId = to_.id := (congrArg (·.1) hla).trans htproj
    have hperm := insertIdx_perm (indexAt_le hposition) panel.id
    generalize hshown : withFolderPanels target (target.panelIds.insertIdx position panel.id)
      (some panel.id) = shown
    have hset : FolderSettled shown := hshown ▸ withFolderPanels_settled _ _ _
    have hactive : shown.activePanelId = some panel.id :=
      hshown ▸ withFolderPanels_active (hperm.mem_iff.mpr List.mem_cons_self)
    have hshownproj : shown.projectId = to_.id := hshown ▸ htproj
    have hshownlabel : shown.label = old.label := hshown ▸ hla.symm
    generalize hpanels : st1.panels.insert panel.id _ = panels
    have hdraft2 := (hdraft.insertFolder hold hset (hshownproj.trans holdproj.symm)).withPanels panels
      st1.terminalSessions
    have hframe2 := hframe.trans (Frame.insertFolder hold hshownlabel panels)
    -- The source first: its folders only lost the panel, and none of them is the target.
    have hdraft3 := hdraft2.syncProject panel.projectId none
      fun project hp w hw hmem => by
        have hp' : st1.projects[panel.projectId]? = some project := hp
        rw [hprojects, hsource, Option.some.injEq] at hp'
        subst hp'
        refine shown_of_keeps hc (hs.derived.projects _ source hsource fun hf => hf)
          (fun id hid f' hf' => ?_) hw hmem
        rw [Table.get_insert] at hf'
        split_ifs at hf' with he
        · obtain ⟨f, hf, hown⟩ := hs.derived.owns _ source hsource id hid
          rw [← he, hk, Option.some.injEq] at hf
          exact absurd (hown.symm.trans (hf ▸ htproj)) hsame
        · exact hkeeps id f' hf'
    have hframe3 := hframe2.trans (Frame.sync _ panel.projectId none)
    have hdraft4 := hdraft3.syncProject to_.id (some panel.id)
      fun project hp w hw _ => by
        cases hw
        obtain ⟨owner, howner, hlisted⟩ := (hc.folders _ target hk).listed
        have hmem : target.id ∈ project.folderIds := by
          unfold syncProject at hp
          split at hp
          · have hp' : st1.projects[to_.id]? = some project := hp
            rw [hprojects, ← htproj, howner, Option.some.injEq] at hp'
            exact hp' ▸ hlisted
          · rename_i synced hsynced
            rw [Table.get_insert, if_neg hsame] at hp
            have hp' : st1.projects[to_.id]? = some project := hp
            rw [hprojects, ← htproj, howner, Option.some.injEq] at hp'
            exact hp' ▸ hlisted
        refine ⟨shown, mem_projectFolders hmem ?_, hactive⟩
        rw [syncProject_folders]
        exact Std.ExtTreeMap.getElem?_insert_self
    refine (hs.of_frame (hframe3.trans (Frame.sync _ to_.id (some panel.id)))
      (hdraft4.mono fun id hpen => ?_)).withPanels _ sessions
    obtain ⟨⟨hor, hne⟩, hne'⟩ := hpen
    exact hor.elim hne fun he => hne' (he.trans holdproj)

theorem panelClose_settled (hc : Consistent st) (hs : Settled st)
    (h : panelClose st c = .ok r) : Settled r.1 := by
  simp only [panelClose, bind_ok, requirePanel_ok, requireProject_ok, Except.ok.injEq,
    Option.some.injEq, Json.str.injEq] at h
  obtain ⟨panel, ⟨p, -, -, hpanel⟩, project, ⟨_, rfl, -, hp⟩, st2, hremove, rfl⟩ := h
  have hid : project.id = panel.projectId := (hc.projects _ project hp).identity
  rw [hid] at hremove ⊢
  obtain ⟨hframe, hdraft, hprojects, hkeeps⟩ := withdraw_settled hc hs hpanel _ _ hremove
  refine hs.of_frame (hframe.trans (Frame.sync _ _ _))
    ((hdraft.syncProject _ _ fun project' hp' w hw hmem => ?_).mono fun id hpen => hpen.2 hpen.1)
  rw [hprojects, hp, Option.some.injEq] at hp'
  subst hp'
  rcases Option.or_eq_some_iff.mp hw with hfocus | ⟨-, hactive⟩
  · -- The focus is what the folder shows now.
    split_ifs at hfocus
    obtain ⟨f, hf, hfa⟩ := Option.bind_eq_some_iff.mp hfocus
    obtain ⟨f₀, hf₀, hla⟩ := hframe.labels.get hf
    obtain ⟨held, hheld, hown, -⟩ := (hc.panels p panel hpanel).folder
    rw [hf₀, Option.some.injEq] at hheld
    subst hheld
    obtain ⟨owner, howner, hlisted⟩ := (hc.folders _ f₀ hf₀).listed
    rw [hown, hp, Option.some.injEq] at howner
    subst howner
    exact ⟨f, mem_projectFolders hlisted hf, hfa⟩
  · exact shown_of_keeps hc (hs.derived.projects _ project hp fun hf => hf)
      (fun id _ f' hf' => hkeeps id f' hf') hactive hmem

theorem terminalCreate_settled {now : ν} (hs : Settled st)
    (h : terminalCreate st c now = .ok r) : Settled r.1 := by
  simp only [terminalCreate, bind_ok, Except.ok.injEq] at h
  obtain ⟨sessionId, -, _, -, project, -, _, -, launch, -, rfl⟩ := h
  exact hs.withPanels st.panels _

theorem terminalCreatePanel_settled {now : ν} (hc : Consistent st) (hs : Settled st)
    (h : terminalCreatePanel st c now = .ok r) : Settled r.1 := by
  simp only [terminalCreatePanel, bind_ok, Except.ok.injEq] at h
  obtain ⟨sessionId, -, panelId, -, _, -, _, -, project, -, _, -, folder, hfolder, launch, -, cwd, -,
    titles, -, rfl⟩ := h
  exact showPanel_settled hc hs hfolder _

omit [Engine ν] in
theorem markSession_ok {sessionId : ProtocolId} {mark : TerminalSession ν → TerminalSession ν}
    (h : markSession st sessionId mark = some r) :
    ∃ sessions, r.1 = { st with terminalSessions := sessions } := by
  unfold markSession at h
  split at h
  · cases h
    exact ⟨_, rfl⟩
  · split_ifs at h
    cases h
    exact ⟨st.terminalSessions, rfl⟩

theorem terminalMarkInterrupted_settled {now : ν} (hs : Settled st)
    (h : terminalMarkInterrupted st c now = .ok r) : Settled r.1 := by
  simp only [terminalMarkInterrupted, demand_ok] at h
  obtain ⟨sessions, hr⟩ := markSession_ok h
  rw [hr]
  exact hs.withPanels st.panels sessions

theorem terminalMarkExited_settled (hs : Settled st) (h : terminalMarkExited st c = .ok r) :
    Settled r.1 := by
  simp only [terminalMarkExited, Except.ok.injEq] at h
  rcases hm : markSession st (propertyKey (c.at "sessionId")) _ with _ | marked
  · rw [hm] at h
    cases h
    exact hs
  · rw [hm] at h
    cases h
    obtain ⟨sessions, hr⟩ := markSession_ok hm
    rw [Option.getD_some, hr]
    exact hs.withPanels st.panels sessions

end Engine

end Terminay.Workspace
