import Terminay.Workspace.Coherent
import Terminay.Workspace.Sessions

/-!
# Closing a panel

Where terminal panels name different sessions, every panel can be closed: the
draft without it passes the check of a commit.
-/

namespace Terminay.Workspace
open Script Outcome

variable {ν : Type} [Engine ν] {st : WorkspaceState ν} {p : ProtocolId} {panel : WorkspacePanel ν}

def WorkspaceFolder.tag (f : WorkspaceFolder ν) :
    ProtocolId × ProtocolId × Str × WorkspaceFolderKind × Option WorkspaceFolderWorktreeLink :=
  (f.id, f.projectId, f.name, f.kind, f.worktree)

structure Dropped (p : ProtocolId) (f f' : WorkspaceFolder ν) : Prop where
  tag : f'.tag = f.tag
  panels : f'.panelIds = f.panelIds.filter (· ≠ p)
  active : ∀ q ∈ f'.activePanelId, q ∈ f'.panelIds
  layout : f'.layout.Within f'.panelIds
  creator : ∀ q ∈ f'.createdByPanelId, q ∈ f.createdByPanelId ∧ q ≠ p
  offer : ∀ q ∈ f'.captureOffer, q ∈ f.captureOffer ∧ q ≠ p

omit [Engine ν] in
theorem withFolderPanels_mem {f : WorkspaceFolder ν} {ids : List ProtocolId}
    {active : Option ProtocolId} {q : ProtocolId}
    (h : q ∈ (withFolderPanels f ids active).activePanelId) : q ∈ ids := by
  simp only [withFolderPanels, Option.mem_def, Option.or_eq_some_iff] at h
  rcases h with h | ⟨-, h⟩
  · exact List.contains_iff_mem.mp (Option.filter_eq_some_iff.mp h).2
  · exact List.mem_of_head? h

theorem withFolderPanels_within {f : WorkspaceFolder ν} {ids : List ProtocolId}
    {active : Option ProtocolId} (h : ids.Nodup) :
    (withFolderPanels f ids active).layout.Within ids :=
  ⟨h, fun _ hm => hm, fun _ hq => withFolderPanels_mem (f := f) hq⟩

theorem mem_filter_ne {o : Option ProtocolId} {p q : ProtocolId} (h : q ∈ o.filter (· ≠ p)) :
    q ∈ o ∧ q ≠ p := by
  obtain ⟨ho, hne⟩ := Option.filter_eq_some_iff.mp h
  exact ⟨ho, by simpa using hne⟩

theorem filter_ne_self {l : List ProtocolId} {p : ProtocolId} (h : p ∉ l) :
    l.filter (· ≠ p) = l :=
  List.filter_eq_self.mpr fun q hq => by
    have hne : q ≠ p := fun he => h (he ▸ hq)
    simpa using hne

theorem folderWithout_dropped (hc : Consistent st) {k : ProtocolId} {f : WorkspaceFolder ν}
    (hf : st.folders[k]? = some f) (p : ProtocolId) :
    Dropped p f (folderWithout (forgetPanel f p) p) where
  tag := rfl
  panels := rfl
  active _ hq := withFolderPanels_mem hq
  layout := withFolderPanels_within ((hc.folders k f hf).nodup.filter _)
  creator _ hq := mem_filter_ne hq
  offer _ hq := mem_filter_ne hq

theorem forgetPanel_dropped (hc : Consistent st) {k : ProtocolId} {f : WorkspaceFolder ν}
    (hf : st.folders[k]? = some f) (hp : p ∉ f.panelIds) : Dropped p f (forgetPanel f p) where
  tag := rfl
  panels := (filter_ne_self hp).symm
  active := (hc.folders k f hf).active
  layout := (hc.folders k f hf).layout
  creator _ hq := mem_filter_ne hq
  offer _ hq := mem_filter_ne hq

theorem foreign_dropped (hc : Consistent st) {k : ProtocolId} {f : WorkspaceFolder ν}
    (hf : st.folders[k]? = some f) (hpanel : st.panels[p]? = some panel)
    (hne : f.projectId ≠ panel.projectId) : Dropped p f f := by
  have hv := hc.folders k f hf
  have hother : ∀ q, (∃ panel', st.panels[q]? = some panel' ∧ panel'.projectId = f.projectId) →
      q ≠ p := by
    rintro q ⟨panel', hq, hown⟩ rfl
    rw [hpanel, Option.some.injEq] at hq
    exact hne (hq ▸ hown).symm
  refine ⟨rfl, (filter_ne_self fun hm => ?_).symm, hv.active, hv.layout, fun q hq => ⟨hq, ?_⟩,
    fun q hq => ⟨hq, ?_⟩⟩
  · obtain ⟨panel', hq, hin⟩ := hv.panels p hm
    obtain ⟨folder, hfo, hown, -⟩ := (hc.panels p panel' hq).folder
    rw [hin, hf, Option.some.injEq] at hfo
    exact hother p ⟨panel', hq, hfo ▸ hown.symm⟩ rfl
  · exact hother q (hv.creator q hq)
  · obtain ⟨panel', hpanel', hown, -⟩ := hv.offer q hq
    exact hother q ⟨panel', hpanel', hown⟩

def closing (st : WorkspaceState ν) (panel : WorkspacePanel ν) (project : WorkspaceProject ν)
    (folder : WorkspaceFolder ν) : WorkspaceState ν :=
  { st with
    panels := st.panels.erase panel.id
    terminalSessions :=
      if panel.isTerminal then st.terminalSessions.erase panel.sessionKey else st.terminalSessions
    folders := (Table.updateAll st.folders project.folderIds (forgetPanel · panel.id)).insert folder.id
      (folderWithout (forgetPanel folder panel.id) panel.id) }

theorem closing_folders (hc : Consistent st) (hpanel : st.panels[p]? = some panel)
    {project : WorkspaceProject ν} (hproject : st.projects[panel.projectId]? = some project)
    {folder : WorkspaceFolder ν} (hfolder : st.folders[panel.folderId]? = some folder)
    {k : ProtocolId} :
    (st.folders[k]? = none ∧ (closing st panel project folder).folders[k]? = none) ∨
      ∃ f f', st.folders[k]? = some f ∧
        (closing st panel project folder).folders[k]? = some f' ∧ Dropped p f f' := by
  have hid : panel.id = p := (hc.panels p panel hpanel).identity
  have hfid : folder.id = panel.folderId := (hc.folders _ folder hfolder).identity
  have hget : (closing st panel project folder).folders[k]? =
      if folder.id = k then some (folderWithout (forgetPanel folder panel.id) panel.id)
      else if k ∈ project.folderIds then st.folders[k]?.map (forgetPanel · panel.id)
      else st.folders[k]? := by
    rw [closing, Table.get_insert,
      Table.get_updateAll _ (hc.projects _ project hproject).folders.nodup]
    split_ifs <;> rfl
  rw [hget]
  by_cases hk : folder.id = k
  · rw [if_pos hk]
    rw [← hfid, hk] at hfolder
    exact Or.inr ⟨folder, _, hfolder, rfl, hid ▸ folderWithout_dropped hc hfolder p⟩
  · rw [if_neg hk]
    rcases hf : st.folders[k]? with _ | f
    · exact Or.inl ⟨rfl, by simp⟩
    · refine Or.inr ⟨f, ?_⟩
      by_cases hlisted : k ∈ project.folderIds
      · refine ⟨forgetPanel f panel.id, rfl, by simp [hlisted], ?_⟩
        rw [hid]
        refine forgetPanel_dropped hc hf fun hm => hk ?_
        obtain ⟨panel', hpanel', hin⟩ := (hc.folders k f hf).panels p hm
        rw [hpanel, Option.some.injEq] at hpanel'
        exact hfid.trans ((congrArg _ hpanel').trans hin)
      · refine ⟨f, rfl, by simp [hlisted], foreign_dropped hc hf hpanel fun hown => hlisted ?_⟩
        obtain ⟨owner, howner, hm⟩ := (hc.folders k f hf).listed
        rw [hown, hproject, Option.some.injEq] at howner
        exact howner ▸ hm

theorem closing_projectFolders {β : Type} (g g' : WorkspaceFolder ν → β) (hc : Consistent st)
    (hpanel : st.panels[p]? = some panel) {project : WorkspaceProject ν}
    (hproject : st.projects[panel.projectId]? = some project) {folder : WorkspaceFolder ν}
    (hfolder : st.folders[panel.folderId]? = some folder) (q : WorkspaceProject ν)
    (hg : ∀ f f', Dropped p f f' → g' f' = g f) :
    (projectFolders (closing st panel project folder) q).map g' = (projectFolders st q).map g := by
  simp only [projectFolders, List.map_filterMap]
  refine List.filterMap_congr fun k hk => ?_
  rcases closing_folders hc hpanel hproject hfolder (k := k) with ⟨hf, hf'⟩ | ⟨f, f', hf, hf', hd⟩
  · rw [hf, hf']
    rfl
  · rw [hf, hf', Option.map_some, Option.map_some, hg f f' hd]

theorem closing_panelIds (hc : Consistent st) (hpanel : st.panels[p]? = some panel)
    {project : WorkspaceProject ν} (hproject : st.projects[panel.projectId]? = some project)
    {folder : WorkspaceFolder ν} (hfolder : st.folders[panel.folderId]? = some folder)
    {id : ProtocolId} {q : WorkspaceProject ν} (hq : st.projects[id]? = some q) :
    (projectFolders (closing st panel project folder) q).flatMap (·.panelIds) =
      q.panelIds.filter (· ≠ p) := by
  have hmap := closing_projectFolders (fun f => f.panelIds.filter (· ≠ p)) (·.panelIds) hc hpanel
    hproject hfolder q fun f f' hd => hd.panels
  rw [← (hc.projects id q hq).folders.derived, List.filter_flatMap, List.flatMap_def,
    List.flatMap_def, hmap]

theorem closing_folderList (hc : Consistent st) (hpanel : st.panels[p]? = some panel)
    {project : WorkspaceProject ν} (hproject : st.projects[panel.projectId]? = some project)
    {folder : WorkspaceFolder ν} (hfolder : st.folders[panel.folderId]? = some folder)
    {q q' : WorkspaceProject ν} (hq : FolderListValid st q) (hids : q'.folderIds = q.folderIds)
    (hid : q'.id = q.id)
    (hpanels : (projectFolders (closing st panel project folder) q).flatMap (·.panelIds) =
      q'.panelIds) :
    FolderListValid (closing st panel project folder) q' := by
  have hsame : projectFolders (closing st panel project folder) q' =
      projectFolders (closing st panel project folder) q := by
    rw [projectFolders, hids]
    rfl
  have htags := closing_projectFolders WorkspaceFolder.tag WorkspaceFolder.tag hc hpanel hproject
    hfolder q fun f f' hd => hd.tag
  have hmap : ∀ {β : Type} (g : _ → β), (projectFolders (closing st panel project folder) q).map
      (g ∘ WorkspaceFolder.tag) = (projectFolders st q).map (g ∘ WorkspaceFolder.tag) := by
    intro β g
    rw [← List.map_map, htags, List.map_map]
  refine ⟨hids ▸ hq.nodup, fun k hk => ?_, ?_, hsame ▸ hpanels, ?_⟩
  · obtain ⟨f, hf, hown⟩ := hq.owns k (hids ▸ hk)
    rcases closing_folders hc hpanel hproject hfolder (k := k) with ⟨hn, -⟩ | ⟨g, f', hg, hf', hd⟩
    · rw [hf] at hn
      cases hn
    · rw [hf, Option.some.injEq] at hg
      subst hg
      exact ⟨f', hf', ((congrArg (·.2.1) hd.tag).trans hown).trans hid.symm⟩
  · rw [hsame, ← List.countP_eq_length_filter]
    rw [← hq.oneGeneral, ← List.countP_eq_length_filter]
    have hkinds := hmap (·.2.2.2.1)
    have hcount := congrArg (List.countP fun kind => decide (kind = WorkspaceFolderKind.general)) hkinds
    rw [List.countP_map, List.countP_map] at hcount
    exact hcount
  · rw [hsame]
    have hlinks := congrArg (List.filterMap id) (hmap (·.2.2.2.2))
    rw [List.filterMap_map, List.filterMap_map] at hlinks
    exact hlinks ▸ hq.links

omit [Engine ν] in
theorem FolderListValid.of_folders {st' : WorkspaceState ν} {q : WorkspaceProject ν}
    (h : FolderListValid st q) (hf : st'.folders = st.folders) : FolderListValid st' q := by
  have hsame : projectFolders st' q = projectFolders st q := by rw [projectFolders, hf, projectFolders]
  exact ⟨h.nodup, hf ▸ h.owns, hsame ▸ h.oneGeneral, hsame ▸ h.derived, hsame ▸ h.links⟩

/-! ## A recomputed project -/

theorem LayoutNode.Within.mono {layout : LayoutNode ν} {small large : List ProtocolId}
    (h : layout.Within small) (hsub : ∀ q ∈ small, q ∈ large) : layout.Within large := by
  induction layout with
  | stack ids active => exact ⟨h.1, fun q hq => hsub q (h.2.1 q hq), h.2.2⟩
  | split direction weight first second ihf ihs => exact ⟨h.1, h.2.1, ihf h.2.2.1, ihs h.2.2.2⟩

omit [Engine ν] in
theorem projectActive_mem {folders : List (WorkspaceFolder ν)} {wanted : Option ProtocolId}
    {q : ProtocolId} (hactive : ∀ f ∈ folders, ∀ r ∈ f.activePanelId, r ∈ f.panelIds)
    (h : projectActive folders wanted = some q) : q ∈ folders.flatMap (·.panelIds) := by
  rcases Option.or_eq_some_iff.mp h with h | ⟨-, h⟩
  · exact List.contains_iff_mem.mp (Option.filter_eq_some_iff.mp h).2
  · obtain ⟨f, hf, hfa⟩ := List.exists_of_findSome?_eq_some h
    exact List.mem_flatMap.mpr ⟨f, hf, hactive f hf q hfa⟩

theorem projectLayout_within {folders : List (WorkspaceFolder ν)} {active : Option ProtocolId}
    (hnodup : (folders.flatMap (·.panelIds)).Nodup)
    (hactive : ∀ q ∈ active, q ∈ folders.flatMap (·.panelIds))
    (hlayout : ∀ f ∈ folders, f.layout.Within f.panelIds) :
    (projectLayout folders active).Within (folders.flatMap (·.panelIds)) := by
  unfold projectLayout
  split
  · rename_i folder hocc
    have hmem : folder ∈ folders.filter (·.panelIds ≠ []) := hocc ▸ List.mem_singleton_self _
    have hfolder := (List.mem_filter.mp hmem).1
    exact (hlayout folder hfolder).mono fun q hq => List.mem_flatMap.mpr ⟨folder, hfolder, hq⟩
  · exact ⟨hnodup, fun _ hq => hq, hactive⟩

theorem syncedProject_valid (hc : Consistent st) (hpanel : st.panels[p]? = some panel)
    {project : WorkspaceProject ν} (hproject : st.projects[panel.projectId]? = some project)
    {folder : WorkspaceFolder ν} (hfolder : st.folders[panel.folderId]? = some folder)
    (focus : Option ProtocolId) :
    let draft := closing st panel project folder
    let synced := syncedProject (projectFolders draft project) project focus
    (∀ q ∈ synced.panelIds, ∃ other, draft.panels[q]? = some other ∧
      other.projectId = panel.projectId) ∧
      (∀ q ∈ synced.activePanelId, q ∈ synced.panelIds) ∧
      synced.layout.Within synced.panelIds ∧ FolderListValid draft synced := by
  intro draft synced
  have hids : synced.panelIds = project.panelIds.filter (· ≠ p) :=
    closing_panelIds hc hpanel hproject hfolder hproject
  have hvalid := hc.projects _ project hproject
  have hdropped : ∀ f' ∈ projectFolders draft project, ∃ f, Dropped p f f' := by
    intro f' hf'
    obtain ⟨k, -, hk⟩ := List.mem_filterMap.mp hf'
    rcases closing_folders hc hpanel hproject hfolder (k := k) with ⟨-, hn⟩ | ⟨f, g, -, hg, hd⟩
    · rw [hn] at hk
      cases hk
    · rw [hg, Option.some.injEq] at hk
      exact ⟨f, hk ▸ hd⟩
  have hactive : ∀ q ∈ synced.activePanelId, q ∈ synced.panelIds := fun q hq =>
    projectActive_mem (fun f' hf' => (hdropped f' hf').choose_spec.active) hq
  refine ⟨fun q hq => ?_, hactive, ?_, ?_⟩
  · rw [hids, List.mem_filter, decide_eq_true_eq] at hq
    obtain ⟨other, hother, hown⟩ := hvalid.panels q hq.1
    refine ⟨other, ?_, hown⟩
    exact (Table.get_erase_of_ne _ fun he =>
      hq.2 (he.symm.trans (hc.panels p panel hpanel).identity)).trans hother
  · refine projectLayout_within ?_ hactive fun f' hf' => (hdropped f' hf').choose_spec.layout
    have hnodup := (nodup_projectPanels hc hproject).filter (fun q => decide (q ≠ p))
    rwa [← hids] at hnodup
  · exact closing_folderList hc hpanel hproject hfolder hvalid.folders rfl rfl rfl

def WorkspaceProject.profile (q : WorkspaceProject ν) : WorkspaceProject ν :=
  { q with panelIds := [], activePanelId := none, layout := stack [] none }

structure Closed (p : ProtocolId) (panel : WorkspacePanel ν) (st st' : WorkspaceState ν) : Prop where
  serverId : st'.serverId = st.serverId
  schemaVersion : st'.schemaVersion = st.schemaVersion
  revision : st'.revision = st.revision
  cursor : st'.cursor = st.cursor
  viewOrder : st'.viewOrder = st.viewOrder
  views : st'.views = st.views
  recents : st'.recentProjectFolders = st.recentProjectFolders
  panels : st'.panels = st.panels.erase p
  sessions : st'.terminalSessions =
    if panel.isTerminal then st.terminalSessions.erase panel.sessionKey else st.terminalSessions
  folders : ∀ k : ProtocolId, (st.folders[k]? = none ∧ st'.folders[k]? = none) ∨
    ∃ f f', st.folders[k]? = some f ∧ st'.folders[k]? = some f' ∧ Dropped p f f'
  projects : Table.Agree WorkspaceProject.profile st.projects st'.projects
  shown : ∀ (id : ProtocolId) (q : WorkspaceProject ν), st'.projects[id]? = some q →
    (∀ r ∈ q.panelIds, ∃ other, st'.panels[r]? = some other ∧ other.projectId = id) ∧
      (∀ r ∈ q.activePanelId, r ∈ q.panelIds) ∧ q.layout.Within q.panelIds ∧ FolderListValid st' q

theorem closing_closed (hc : Consistent st) (hpanel : st.panels[p]? = some panel)
    {project : WorkspaceProject ν} (hproject : st.projects[panel.projectId]? = some project)
    {folder : WorkspaceFolder ν} (hfolder : st.folders[panel.folderId]? = some folder)
    (focus : Option ProtocolId) :
    Closed p panel st (syncProject (closing st panel project folder) panel.projectId focus) := by
  have hid : panel.id = p := (hc.panels p panel hpanel).identity
  obtain ⟨hpanels, hactive, hlayout, hfolders⟩ :=
    syncedProject_valid hc hpanel hproject hfolder focus
  have hget : (closing st panel project folder).projects[panel.projectId]? = some project := hproject
  rw [syncProject, hget]
  refine ⟨rfl, rfl, rfl, rfl, rfl, rfl, rfl, hid ▸ rfl, rfl, fun k => closing_folders hc hpanel hproject hfolder,
    Table.Agree.insert hproject rfl, fun id q hq => ?_⟩
  have hq' : (st.projects.insert panel.projectId _)[id]? = some q := hq
  rw [Table.get_insert] at hq'
  split_ifs at hq' with he
  · cases hq'
    exact ⟨he ▸ hpanels, hactive, hlayout, hfolders.of_folders rfl⟩
  · have hvalid := hc.projects id q hq'
    have hother : ∀ r ∈ q.panelIds, r ≠ p := by
      rintro r hr rfl
      obtain ⟨other, hget, hown⟩ := hvalid.panels r hr
      rw [hpanel, Option.some.injEq] at hget
      exact he (hget ▸ hown)
    refine ⟨fun r hr => ?_, hvalid.active, hvalid.layout, ?_⟩
    · obtain ⟨other, hget, hown⟩ := hvalid.panels r hr
      refine ⟨other, ?_, hown⟩
      exact (Table.get_erase_of_ne _ fun hrp => hother r hr (hrp.symm.trans hid)).trans hget
    · refine (closing_folderList hc hpanel hproject hfolder hvalid.folders rfl rfl ?_).of_folders rfl
      rw [closing_panelIds hc hpanel hproject hfolder hq', filter_ne_self fun hm => hother p hm rfl]

namespace Closed

variable {st' : WorkspaceState ν}

theorem get_panel (h : Closed p panel st st') {r : ProtocolId} {other : WorkspacePanel ν} :
    st'.panels[r]? = some other ↔ r ≠ p ∧ st.panels[r]? = some other := by
  rw [h.panels, Table.get_erase]
  by_cases hr : p = r
  · simp [hr]
  · simp [hr, Ne.symm hr]

theorem get_folder (h : Closed p panel st st') {k : ProtocolId} {f : WorkspaceFolder ν}
    (hf : st.folders[k]? = some f) : ∃ f', st'.folders[k]? = some f' ∧ Dropped p f f' := by
  rcases h.folders k with ⟨hn, -⟩ | ⟨g, f', hg, hf', hd⟩
  · rw [hf] at hn
    cases hn
  · rw [hf, Option.some.injEq] at hg
    exact ⟨f', hf', hg ▸ hd⟩

theorem get_project (h : Closed p panel st st') {id : ProtocolId} {q : WorkspaceProject ν}
    (hq : st.projects[id]? = some q) :
    ∃ q', st'.projects[id]? = some q' ∧ q'.profile = q.profile :=
  h.projects.symm.get hq

theorem validProject (h : Closed p panel st st') (hc : Consistent st) (id : ProtocolId)
    (q' : WorkspaceProject ν) (hq' : st'.projects[id]? = some q') : ProjectValid st' id q' := by
  obtain ⟨q, hq, hprofile⟩ := h.projects.get hq'
  obtain ⟨hpanels, hactive, hlayout, hfolders⟩ := h.shown id q' hq'
  have hv := hc.projects id q hq
  simp only [WorkspaceProject.profile, WorkspaceProject.mk.injEq] at hprofile
  obtain ⟨hid, hkind, hserver, hview, hroot, horigin, hstart, -, -, -, hprofile, hsidebar, -⟩ :=
    hprofile
  refine ⟨hv.pattern, hid ▸ hv.identity, ?_, ?_, horigin ▸ hv.origin, ?_, ?_, ?_, hprofile ▸ hv.profile,
    hsidebar ▸ hv.sidebar, hpanels, hactive, hlayout, hfolders⟩
  · rw [← hserver, h.serverId]
    exact hv.server
  · rw [← hview, h.views]
    exact hv.home
  · rw [← horigin, ← hroot]
    exact hv.rootless
  · rw [← hstart, ← horigin, ← hkind]
    exact hv.waiting
  · rw [← hkind, h.views]
    exact hv.unlisted

theorem validFolder (h : Closed p panel st st') (hc : Consistent st) (k : ProtocolId)
    (f' : WorkspaceFolder ν) (hf' : st'.folders[k]? = some f') : FolderValid st' k f' := by
  rcases h.folders k with ⟨-, hn⟩ | ⟨f, g, hf, hg, hd⟩
  · rw [hf'] at hn
    cases hn
  rw [hf', Option.some.injEq] at hg
  subst hg
  have hv := hc.folders k f hf
  obtain ⟨hid, hproj, hname, hkind, hlink⟩ := by simpa [WorkspaceFolder.tag] using hd.tag
  have hmem : ∀ q ∈ f'.panelIds, q ∈ f.panelIds ∧ q ≠ p := fun q hq => by
    rw [hd.panels, List.mem_filter, decide_eq_true_eq] at hq
    exact hq
  refine ⟨hv.pattern, hid ▸ hv.identity, ?_, hname ▸ hv.name, hkind ▸ hlink ▸ hv.link,
    hlink ▸ hv.linkValid, hd.panels ▸ hv.nodup.filter _, fun q hq => ?_, hd.active, hd.layout,
    fun q hq => ?_, fun q hq => ?_⟩
  · obtain ⟨owner, howner, hlisted⟩ := hv.listed
    obtain ⟨owner', howner', hsame⟩ := h.get_project howner
    simp only [WorkspaceProject.profile, WorkspaceProject.mk.injEq] at hsame
    exact ⟨owner', hproj ▸ howner', hsame.2.2.2.2.2.2.2.2.2.2.2.2.1 ▸ hlisted⟩
  · obtain ⟨other, hother, hin⟩ := hv.panels q (hmem q hq).1
    exact ⟨other, h.get_panel.mpr ⟨(hmem q hq).2, hother⟩, hin⟩
  · obtain ⟨other, hother, hown⟩ := hv.creator q (hd.creator q hq).1
    exact ⟨other, h.get_panel.mpr ⟨(hd.creator q hq).2, hother⟩, hown.trans hproj.symm⟩
  · obtain ⟨other, hother, hown, hout⟩ := hv.offer q (hd.offer q hq).1
    exact ⟨other, h.get_panel.mpr ⟨(hd.offer q hq).2, hother⟩, hown.trans hproj.symm, hout⟩

theorem validPanel (h : Closed p panel st st') (hc : Consistent st) (hd : SessionsDistinct st)
    (hpanel : st.panels[p]? = some panel) (q : ProtocolId) (other : WorkspacePanel ν)
    (hq : st'.panels[q]? = some other) : PanelValid st' q other := by
  obtain ⟨hne, hq⟩ := h.get_panel.mp hq
  have hv := hc.panels q other hq
  refine ⟨hv.pattern, hv.identity, ?_, ?_, fun hterm => ?_, hv.fields⟩
  · obtain ⟨project, hproject⟩ := Option.ne_none_iff_exists'.mp hv.project
    obtain ⟨project', hproject', -⟩ := h.get_project hproject
    simp [hproject']
  · obtain ⟨f, hf, hown, hm⟩ := hv.folder
    obtain ⟨f', hf', hdrop⟩ := h.get_folder hf
    refine ⟨f', hf', (congrArg (·.2.1) hdrop.tag).trans hown, ?_⟩
    rw [hdrop.panels, List.mem_filter, decide_eq_true_eq]
    exact ⟨hm, hne⟩
  · obtain ⟨session, hsession, hown⟩ := hv.session hterm
    refine ⟨session, ?_, hown⟩
    rw [h.sessions]
    split_ifs with hpt
    · rw [Table.get_erase_of_ne _ fun he => hne (hd q p other panel hq hpanel hterm hpt he.symm)]
      exact hsession
    · exact hsession

theorem validSession (h : Closed p panel st st') (hc : Consistent st) (id : ProtocolId)
    (session : TerminalSession ν) (hs : st'.terminalSessions[id]? = some session) :
    SessionValid st' id session := by
  have hs' : st.terminalSessions[id]? = some session := by
    rw [h.sessions] at hs
    split_ifs at hs
    · rw [Table.get_erase] at hs
      split_ifs at hs
      exact hs
    · exact hs
  have hv := hc.sessions id session hs'
  obtain ⟨project, hproject, hstart⟩ := hv.project
  obtain ⟨project', hproject', hsame⟩ := h.get_project hproject
  simp only [WorkspaceProject.profile, WorkspaceProject.mk.injEq] at hsame
  exact ⟨hv.pattern, hv.identity, h.serverId ▸ hv.server,
    ⟨project', hproject', hsame.2.2.2.2.2.2.1.trans hstart⟩, hv.position, hv.launch⟩

theorem validView (h : Closed p panel st st') (hc : Consistent st) (id : ProtocolId)
    (view : WorkspaceView) (hview : st'.views[id]? = some view) : ViewValid st' id view := by
  have hv := hc.views id view (h.views ▸ hview)
  refine ⟨hv.pattern, hv.identity, h.serverId ▸ hv.server, fun q hq => ?_, hv.active⟩
  obtain ⟨project, hproject, hown⟩ := hv.owns q hq
  obtain ⟨project', hproject', hsame⟩ := h.get_project hproject
  simp only [WorkspaceProject.profile, WorkspaceProject.mk.injEq] at hsame
  exact ⟨project', hproject', hsame.2.2.2.1.trans hown⟩

theorem consistent (h : Closed p panel st st') (hc : Consistent st) (hd : SessionsDistinct st)
    (hpanel : st.panels[p]? = some panel) : Consistent st' where
  serverId := h.serverId ▸ hc.serverId
  schema := h.schemaVersion.trans hc.schema
  cursor := by rw [h.cursor, h.revision, hc.cursor]
  viewOrder := h.viewOrder ▸ hc.viewOrder
  ordered := by rw [h.viewOrder, h.views]; exact hc.ordered
  views := h.validView hc
  projects := h.validProject hc
  oneSpace i j q r hq hr hqk hrk := by
    obtain ⟨q₀, hq₀, hqs⟩ := h.projects.get hq
    obtain ⟨r₀, hr₀, hrs⟩ := h.projects.get hr
    simp only [WorkspaceProject.profile, WorkspaceProject.mk.injEq] at hqs hrs
    exact hc.oneSpace i j q₀ r₀ hq₀ hr₀ (hqs.2.1 ▸ hqk) (hrs.2.1 ▸ hrk)
  folders := h.validFolder hc
  panels := h.validPanel hc hd hpanel
  sessions := h.validSession hc
  recents := h.recents ▸ hc.recents

end Closed

theorem panelClose_eq (hc : Consistent st) (hpanel : st.panels[p]? = some panel)
    {project : WorkspaceProject ν} (hproject : st.projects[panel.projectId]? = some project)
    {folder : WorkspaceFolder ν} (hfolder : st.folders[panel.folderId]? = some folder)
    {c : Fields ν} (hc' : c.at "panelId" = some (.str p)) :
    ∃ focus changed, panelClose st c =
      .ok (syncProject (closing st panel project folder) panel.projectId focus, changed) := by
  have hid : panel.id = p := (hc.panels p panel hpanel).identity
  have hpid : project.id = panel.projectId := (hc.projects _ project hproject).identity
  have hlisted : panel.folderId ∈ project.folderIds := by
    obtain ⟨folder', hf', hown, -⟩ := (hc.panels p panel hpanel).folder
    rw [hfolder, Option.some.injEq] at hf'
    obtain ⟨owner, howner, hm⟩ := (hc.folders _ folder hfolder).listed
    rw [hf', hown, hproject, Option.some.injEq] at howner
    exact howner ▸ hm
  let st1 : WorkspaceState ν := { st with
    panels := st.panels.erase panel.id
    terminalSessions :=
      if panel.isTerminal then st.terminalSessions.erase panel.sessionKey else st.terminalSessions }
  have hremove : removeFromFolder (forgetPanelReferences st1 project.id panel.id) panel.folderId
      panel.id = .ok (closing st panel project folder) := by
    refine removeFromFolder_ok.mpr ⟨(hc.folders _ folder hfolder).pattern,
      forgetPanel folder panel.id, ?_, ?_⟩
    · rw [forgetPanelReferences, hpid, hproject, Option.map_some, Option.getD_some,
        Table.get_updateAll _ (hc.projects _ project hproject).folders.nodup, if_pos hlisted, hfolder,
        Option.map_some]
    · rw [forgetPanelReferences, hpid, hproject]
      rfl
  have hrequire : requirePanel st (c.at "panelId") = .ok panel :=
    requirePanel_ok.mpr ⟨p, hc', (hc.panels p panel hpanel).pattern, hpanel⟩
  have hrequire' : requireProject st (some (.str panel.projectId)) = .ok project :=
    requireProject_ok.mpr ⟨_, rfl, (hc.projects _ project hproject).pattern, hproject⟩
  rw [← hpid]
  exact ⟨_, _, bind_ok.mpr ⟨panel, hrequire, bind_ok.mpr ⟨project, hrequire', bind_ok.mpr
    ⟨_, hremove, rfl⟩⟩⟩⟩

theorem close_accepted (h : Sound st) (hd : SessionsDistinct st)
    (hrevision : st.revision ≤ maxSafeInteger) (hpanel : st.panels[p]? = some panel)
    {command : Command ν} (hkind : command.kind = some .panelClose)
    (hfields : command.fields.at "panelId" = some (.str p)) (now : ν) :
    ∃ r, draft st command now = .ok r ∧ Closed p panel st r.1 := by
  obtain ⟨project, hproject⟩ := Option.ne_none_iff_exists'.mp (h.consistent.panels p panel hpanel).project
  obtain ⟨folder, hfolder, -⟩ := (h.consistent.panels p panel hpanel).folder
  obtain ⟨focus, changed, hclose⟩ := panelClose_eq h.consistent hpanel hproject hfolder hfields
  have hclosed := closing_closed h.consistent hpanel hproject hfolder focus
  refine ⟨_, draft_ok.mpr ⟨reduce_ok.mpr ⟨?_, .panelClose, hkind, hclose⟩, ?_⟩, hclosed⟩
  · rw [automationSpaceRefusal, hkind]
  · exact ⟨hclosed.consistent h.consistent hd hpanel, hclosed.revision ▸ hrevision⟩

end Terminay.Workspace
