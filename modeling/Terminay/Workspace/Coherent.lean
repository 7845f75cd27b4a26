import Terminay.Script.Integers
import Terminay.Workspace.StoreSettled

/-!
# What every reachable workspace looks like

`validateWorkspace` checks subsets and ownership.
-/

namespace Terminay.Workspace
open Script Outcome

variable {ν : Type} [Engine ν] {st : WorkspaceState ν}

structure Coherent (st : WorkspaceState ν) : Prop where
  viewOrder : ∀ id : ProtocolId, st.viewOrder.count id = if st.views[id]?.isSome then 1 else 0
  listed : ∀ (id : ProtocolId) (p : WorkspaceProject ν), st.projects[id]? = some p →
    isAutomationSpace p = false → st.views[p.viewId]?.isSome ∧
      ∀ (v : ProtocolId) (view : WorkspaceView), st.views[v]? = some view →
        view.projectIds.count id = if v = p.viewId then 1 else 0
  reserved : ∀ (id : ProtocolId) (p : WorkspaceProject ν), st.projects[id]? = some p →
    isAutomationSpace p = true → ∀ (v : ProtocolId) (view : WorkspaceView),
      st.views[v]? = some view → id ∉ view.projectIds
  viewActive : ∀ (v : ProtocolId) (view : WorkspaceView), st.views[v]? = some view →
    (view.activeProjectId.isSome ↔ view.projectIds ≠ [])
  folderActive : ∀ (f : ProtocolId) (folder : WorkspaceFolder ν), st.folders[f]? = some folder →
    (folder.activePanelId.isSome ↔
      ∃ (id : ProtocolId) (panel : WorkspacePanel ν), st.panels[id]? = some panel ∧
        panel.folderId = f)
  projectActive : ∀ (id : ProtocolId) (p : WorkspaceProject ν), st.projects[id]? = some p →
    (p.activePanelId.isSome ↔
      ∃ (q : ProtocolId) (panel : WorkspacePanel ν), st.panels[q]? = some panel ∧
        panel.projectId = id)
  projectShows : ∀ (id : ProtocolId) (p : WorkspaceProject ν), st.projects[id]? = some p →
    ∀ q ∈ p.activePanelId, ∃ panel folder, st.panels[q]? = some panel ∧
      st.folders[panel.folderId]? = some folder ∧ q ∈ folder.panelIds ∧
      folder.activePanelId = some q
  folderLayout : ∀ (f : ProtocolId) (folder : WorkspaceFolder ν), st.folders[f]? = some folder →
    folder.layout.panels.Nodup ∧ ∀ q, q ∈ folder.layout.panels ↔
      ∃ panel, st.panels[q]? = some panel ∧ panel.folderId = f
  projectLayout : ∀ (id : ProtocolId) (p : WorkspaceProject ν), st.projects[id]? = some p →
    p.layout.panels.Nodup ∧ ∀ q, q ∈ p.layout.panels ↔
      ∃ panel, st.panels[q]? = some panel ∧ panel.projectId = id
  names : ∀ (i j : ProtocolId) (f g : WorkspaceFolder ν), st.folders[i]? = some f →
    st.folders[j]? = some g → f.projectId = g.projectId → f.kind ≠ .linked → g.kind ≠ .linked →
    Engine.toLowerCase ν f.name = Engine.toLowerCase ν g.name → i = j

omit [Engine ν] in
theorem automationSpace_iff {p : WorkspaceProject ν} :
    isAutomationSpace p = true ↔ p.kind ≠ none := by
  rcases hk : p.kind with _ | ⟨⟨⟩⟩ <;> simp [isAutomationSpace, hk]

theorem mem_folder (hc : Consistent st) {f q : ProtocolId} {folder : WorkspaceFolder ν}
    (hf : st.folders[f]? = some folder) :
    q ∈ folder.panelIds ↔ ∃ panel, st.panels[q]? = some panel ∧ panel.folderId = f := by
  refine ⟨(hc.folders f folder hf).panels q, fun ⟨panel, hp, hin⟩ => ?_⟩
  obtain ⟨folder', hf', -, hm⟩ := (hc.panels q panel hp).folder
  rw [hin, hf, Option.some.injEq] at hf'
  exact hf' ▸ hm

theorem mem_project (hc : Consistent st) {id q : ProtocolId} {p : WorkspaceProject ν}
    (hp : st.projects[id]? = some p) :
    q ∈ p.panelIds ↔ ∃ panel, st.panels[q]? = some panel ∧ panel.projectId = id := by
  refine ⟨(hc.projects id p hp).panels q, fun ⟨panel, hpanel, hin⟩ => ?_⟩
  obtain ⟨folder, hf, hown, hm⟩ := (hc.panels q panel hpanel).folder
  obtain ⟨p', hp', hlisted⟩ := (hc.folders _ folder hf).listed
  rw [hown, hin, hp, Option.some.injEq] at hp'
  subst hp'
  rw [← (hc.projects id p hp).folders.derived]
  exact List.mem_flatMap.mpr ⟨folder, mem_projectFolders hlisted hf, hm⟩

theorem nodup_projectPanels (hc : Consistent st) {id : ProtocolId} {p : WorkspaceProject ν}
    (hp : st.projects[id]? = some p) : p.panelIds.Nodup := by
  have hv := hc.projects id p hp
  rw [← hv.folders.derived, projectFolders, List.nodup_flatMap]
  refine ⟨fun folder hf => ?_, ?_⟩
  · obtain ⟨f, -, hget⟩ := List.mem_filterMap.mp hf
    exact (hc.folders f folder hget).nodup
  · refine List.Pairwise.filterMap _ (fun i j hij f hf g hg => ?_) hv.folders.nodup
    intro q hqf hqg
    obtain ⟨panel, hpanel, hin⟩ := (mem_folder hc hf).mp hqf
    obtain ⟨panel', hpanel', hin'⟩ := (mem_folder hc hg).mp hqg
    rw [hpanel, Option.some.injEq] at hpanel'
    exact hij (hin.symm.trans (hpanel' ▸ hin'))

theorem ne_nil_iff_mem {l : List ProtocolId} {P : ProtocolId → Prop} (h : ∀ q, q ∈ l ↔ P q) :
    l ≠ [] ↔ ∃ q, P q := by
  rw [← List.isEmpty_eq_false_iff, List.isEmpty_eq_false_iff_exists_mem]
  exact exists_congr h

theorem Sound.coherent (h : Sound st) : Coherent st where
  viewOrder id := by
    rcases hv : st.views[id]? with _ | view
    · refine List.count_eq_zero.mpr fun hm => ?_
      exact h.consistent.ordered id hm hv
    · exact List.count_eq_one_of_mem h.consistent.viewOrder (h.settled.views.listed id view hv)
  listed id p hp hauto := by
    have hkind : p.kind = none := by
      by_contra hk
      simp [automationSpace_iff.mpr hk] at hauto
    obtain ⟨home, hhome, hmem⟩ := h.settled.views.home id p hp hkind
    refine ⟨by simp [hhome], fun v view hv => ?_⟩
    split_ifs with he
    · rw [he, hhome, Option.some.injEq] at hv
      exact List.count_eq_one_of_mem (hv ▸ (h.settled.views.views _ home hhome).nodup) (hv ▸ hmem)
    · refine List.count_eq_zero.mpr fun hm => ?_
      obtain ⟨p', hp', hown⟩ := (h.consistent.views v view hv).owns id hm
      rw [hp, Option.some.injEq] at hp'
      exact he (hp' ▸ hown.symm)
  reserved id p hp hauto v view hv :=
    (h.consistent.projects id p hp).unlisted (automationSpace_iff.mp hauto) v view hv
  viewActive v view hv := (h.settled.views.views v view hv).active
  folderActive f folder hf := by
    rw [(h.settled.derived.folders f folder hf).active]
    exact ne_nil_iff_mem fun q => mem_folder h.consistent hf
  projectActive id p hp := by
    rw [(h.settled.derived.projects id p hp fun hf => hf).active]
    exact ne_nil_iff_mem fun q => mem_project h.consistent hp
  projectShows id p hp q hq := by
    obtain ⟨folder, hf, hfa⟩ := (h.settled.derived.projects id p hp fun hf => hf).shown q hq
    obtain ⟨f, -, hget⟩ := List.mem_filterMap.mp hf
    have hm := (h.consistent.folders f folder hget).active q hfa
    obtain ⟨panel, hpanel, hin⟩ := (h.consistent.folders f folder hget).panels q hm
    exact ⟨panel, folder, hpanel, hin ▸ hget, hm, hfa⟩
  folderLayout f folder hf := by
    have hperm := (h.settled.derived.folders f folder hf).layout
    refine ⟨hperm.nodup_iff.mpr (h.consistent.folders f folder hf).nodup, fun q => ?_⟩
    rw [hperm.mem_iff]
    exact mem_folder h.consistent hf
  projectLayout id p hp := by
    have hperm := (h.settled.derived.projects id p hp fun hf => hf).layout
    refine ⟨hperm.nodup_iff.mpr (nodup_projectPanels h.consistent hp), fun q => ?_⟩
    rw [hperm.mem_iff]
    exact mem_project h.consistent hp
  names := h.settled.names

omit [Engine ν] in
theorem createInitialWorkspace_ok {serverId : ProtocolId} {initial : WorkspaceState ν} :
    createInitialWorkspace serverId = .ok initial ↔
      idPattern serverId = true ∧ initialWorkspace serverId = initial := by
  simp only [createInitialWorkspace, bind_ok, assertStoredId_ok, Except.ok.injEq, exists_const]

/-- Every state a store commits, whatever calls it served, is coherent. -/
theorem reachable_coherent {serverId : ProtocolId} {initial : WorkspaceState ν}
    (h : createInitialWorkspace serverId = .ok initial) (maxHistory maxHistoryBytes : ℕ)
    (calls : List (StoreCall ν × Bool)) :
    Coherent (runCalls (newStore initial maxHistory maxHistoryBytes) calls).current := by
  obtain ⟨hid, rfl⟩ := createInitialWorkspace_ok.mp h
  have hsound : Sound (newStore (initialWorkspace serverId : WorkspaceState ν) maxHistory
      maxHistoryBytes).current := initialWorkspace_sound hid
  exact (runCalls_sound hsound calls).coherent

/-- A workspace whose second call opens a project in the view of the first. -/
theorem opened_project_coherent :
    Coherent (runCalls (newStore (initialWorkspace (js "srv") : WorkspaceState ℤ) 1024 8388608)
      [(.apply ⟨js "c1", none, ⟨js "view.create",
          Table.ofEntries [(js "viewId", .str (js "v2")), (js "name", .str (js "Two"))]⟩⟩ 0, true),
        (.apply ⟨js "c2", none, ⟨js "project.create",
          Table.ofEntries [(js "projectId", .str (js "p1")), (js "viewId", .str (js "v2")),
            (js "root", .str (js "/home"))]⟩⟩ 0, true)]).current :=
  reachable_coherent (createInitialWorkspace_ok.mpr ⟨by decide, rfl⟩) 1024 8388608 _

end Terminay.Workspace
