import Terminay.Workspace.Reduce
import Terminay.Workspace.Valid

/-!
# Derived fields

A settled folder or project has the active panel and the layout that its panels call for, and
views list the projects that live in them.
-/

namespace Terminay.Workspace
open Script

variable {ν : Type}

structure FolderSettled (folder : WorkspaceFolder ν) : Prop where
  active : folder.activePanelId.isSome ↔ folder.panelIds ≠ []
  layout : folder.layout.panels.Perm folder.panelIds

structure ProjectSettled (folders : List (WorkspaceFolder ν)) (project : WorkspaceProject ν) :
    Prop where
  active : project.activePanelId.isSome ↔ project.panelIds ≠ []
  shown : ∀ p ∈ project.activePanelId, ∃ folder ∈ folders, folder.activePanelId = some p
  layout : project.layout.panels.Perm project.panelIds

structure Derived (pending : ProtocolId → Prop) (st : WorkspaceState ν) : Prop where
  identity : ∀ (id : ProtocolId) (project : WorkspaceProject ν), st.projects[id]? = some project →
    project.id = id
  owns : ∀ (id : ProtocolId) (project : WorkspaceProject ν), st.projects[id]? = some project →
    ∀ f ∈ project.folderIds, ∃ folder, st.folders[f]? = some folder ∧ folder.projectId = id
  folders : ∀ (id : ProtocolId) (folder : WorkspaceFolder ν), st.folders[id]? = some folder →
    FolderSettled folder
  projects : ∀ (id : ProtocolId) (project : WorkspaceProject ν), st.projects[id]? = some project →
    ¬ pending id → ProjectSettled (projectFolders st project) project

structure ViewSettled (view : WorkspaceView) : Prop where
  nodup : view.projectIds.Nodup
  active : view.activeProjectId.isSome ↔ view.projectIds ≠ []

structure ViewsSettled (st : WorkspaceState ν) : Prop where
  listed : ∀ (id : ProtocolId) (view : WorkspaceView), st.views[id]? = some view → id ∈ st.viewOrder
  views : ∀ (id : ProtocolId) (view : WorkspaceView), st.views[id]? = some view → ViewSettled view
  home : ∀ (id : ProtocolId) (project : WorkspaceProject ν), st.projects[id]? = some project →
    project.kind = none → ∃ view, st.views[project.viewId]? = some view ∧ id ∈ view.projectIds

def NamesDistinct [Engine ν] (st : WorkspaceState ν) : Prop :=
  ∀ (i j : ProtocolId) (f g : WorkspaceFolder ν), st.folders[i]? = some f →
    st.folders[j]? = some g → f.projectId = g.projectId → f.kind ≠ .linked → g.kind ≠ .linked →
    Engine.toLowerCase ν f.name = Engine.toLowerCase ν g.name → i = j

structure Settled [Engine ν] (st : WorkspaceState ν) : Prop where
  views : ViewsSettled st
  derived : Derived (fun _ => False) st
  names : NamesDistinct st

/-! ## What each condition reads -/

def WorkspaceFolder.contents (f : WorkspaceFolder ν) :
    ProtocolId × List ProtocolId × Option ProtocolId × LayoutNode ν :=
  (f.projectId, f.panelIds, f.activePanelId, f.layout)

def WorkspaceFolder.label (f : WorkspaceFolder ν) : ProtocolId × WorkspaceFolderKind × Str :=
  (f.projectId, f.kind, f.name)

def WorkspaceProject.contents (p : WorkspaceProject ν) :
    ProtocolId × List ProtocolId × List ProtocolId × Option ProtocolId × LayoutNode ν :=
  (p.id, p.folderIds, p.panelIds, p.activePanelId, p.layout)

def WorkspaceProject.placement (p : WorkspaceProject ν) :
    ProtocolId × Option WorkspaceProjectKind :=
  (p.viewId, p.kind)

def WorkspaceView.listing (v : WorkspaceView) : List ProtocolId × Option ProtocolId :=
  (v.projectIds, v.activeProjectId)

theorem FolderSettled.of_contents {f g : WorkspaceFolder ν} (h : f.contents = g.contents)
    (hf : FolderSettled f) : FolderSettled g := by
  simp only [WorkspaceFolder.contents, Prod.mk.injEq] at h
  obtain ⟨-, hp, ha, hl⟩ := h
  exact ⟨by rw [← ha, ← hp]; exact hf.active, by rw [← hl, ← hp]; exact hf.layout⟩

theorem projectFolders_agree {β : Type} {g : WorkspaceFolder ν → β} {st st' : WorkspaceState ν}
    (hf : Table.Agree g st.folders st'.folders) {p p' : WorkspaceProject ν}
    (hids : p.folderIds = p'.folderIds) :
    (projectFolders st p).map g = (projectFolders st' p').map g := by
  simp only [projectFolders, List.map_filterMap, hids]
  exact List.filterMap_congr fun id _ => hf id

theorem ProjectSettled.of_active {folders folders' : List (WorkspaceFolder ν)}
    {project project' : WorkspaceProject ν}
    (hf : folders.map (·.activePanelId) = folders'.map (·.activePanelId))
    (hp : project.contents = project'.contents) (h : ProjectSettled folders project) :
    ProjectSettled folders' project' := by
  simp only [WorkspaceProject.contents, Prod.mk.injEq] at hp
  obtain ⟨-, -, hids, ha, hl⟩ := hp
  refine ⟨by rw [← ha, ← hids]; exact h.active, fun p hpa => ?_, by rw [← hl, ← hids]; exact h.layout⟩
  rw [← ha] at hpa
  obtain ⟨f, hf', hfa⟩ := h.shown p hpa
  have hm : some p ∈ folders'.map (·.activePanelId) := hf ▸ List.mem_map.mpr ⟨f, hf', hfa⟩
  exact List.mem_map.mp hm

theorem Derived.of_agree {pending : ProtocolId → Prop} {st st' : WorkspaceState ν}
    (h : Derived pending st) (hf : Table.Agree WorkspaceFolder.contents st.folders st'.folders)
    (hp : Table.Agree WorkspaceProject.contents st.projects st'.projects) :
    Derived pending st' := by
  have hactive : Table.Agree (·.activePanelId) st.folders st'.folders :=
    hf.comp fun c : ProtocolId × List ProtocolId × Option ProtocolId × LayoutNode ν => c.2.2.1
  refine ⟨fun id p' hp' => ?_, fun id p' hp' f hmem => ?_, fun id f' hf' => ?_,
    fun id p' hp' hn => ?_⟩
  · obtain ⟨p, hpo, hc⟩ := hp.get hp'
    exact (congrArg (·.1) hc).symm.trans (h.identity id p hpo)
  · obtain ⟨p, hpo, hc⟩ := hp.get hp'
    have hids : p.folderIds = p'.folderIds := congrArg (·.2.1) hc
    obtain ⟨folder, hfo, hown⟩ := h.owns id p hpo f (hids ▸ hmem)
    obtain ⟨folder', hfo', hc'⟩ := hf.symm.get hfo
    exact ⟨folder', hfo', (congrArg (·.1) hc').trans hown⟩
  · obtain ⟨f, hfo, hc⟩ := hf.get hf'
    exact (h.folders id f hfo).of_contents hc
  · obtain ⟨p, hpo, hc⟩ := hp.get hp'
    exact (h.projects id p hpo hn).of_active
      (projectFolders_agree hactive (congrArg (·.2.1) hc)) hc

theorem ViewsSettled.of_agree {st st' : WorkspaceState ν} (h : ViewsSettled st)
    (ho : st'.viewOrder = st.viewOrder)
    (hv : Table.Agree WorkspaceView.listing st.views st'.views)
    (hp : Table.Agree WorkspaceProject.placement st.projects st'.projects) :
    ViewsSettled st' := by
  refine ⟨fun id v' hv' => ?_, fun id v' hv' => ?_, fun id p' hp' hk => ?_⟩
  · obtain ⟨v, hvo, -⟩ := hv.get hv'
    exact ho ▸ h.listed id v hvo
  · obtain ⟨v, hvo, hl⟩ := hv.get hv'
    simp only [WorkspaceView.listing, Prod.mk.injEq] at hl
    have hs := h.views id v hvo
    exact ⟨hl.1 ▸ hs.nodup, by rw [← hl.1, ← hl.2]; exact hs.active⟩
  · obtain ⟨p, hpo, hpl⟩ := hp.get hp'
    simp only [WorkspaceProject.placement, Prod.mk.injEq] at hpl
    obtain ⟨v, hvo, hmem⟩ := h.home id p hpo (hpl.2.trans hk)
    obtain ⟨v', hv', hl⟩ := hv.symm.get hvo
    simp only [WorkspaceView.listing, Prod.mk.injEq] at hl
    exact ⟨v', hpl.1 ▸ hv', hl.1 ▸ hmem⟩

theorem NamesDistinct.of_agree [Engine ν] {st st' : WorkspaceState ν} (h : NamesDistinct st)
    (hf : Table.Agree WorkspaceFolder.label st.folders st'.folders) : NamesDistinct st' := by
  intro i j f' g' hf' hg' hproj hfk hgk hname
  obtain ⟨f, hfo, hfl⟩ := hf.get hf'
  obtain ⟨g, hgo, hgl⟩ := hf.get hg'
  simp only [WorkspaceFolder.label, Prod.mk.injEq] at hfl hgl
  apply h i j f g hfo hgo
  · rw [hfl.1, hgl.1, hproj]
  · rw [hfl.2.1]
    exact hfk
  · rw [hgl.2.1]
    exact hgk
  · rw [hfl.2.2, hgl.2.2, hname]

/-! ## Edits of a draft -/

theorem withFolderPanels_settled (folder : WorkspaceFolder ν) (panelIds : List ProtocolId)
    (active : Option ProtocolId) : FolderSettled (withFolderPanels folder panelIds active) := by
  refine ⟨?_, List.Perm.refl _⟩
  rcases panelIds with _ | ⟨p, rest⟩
  · cases active <;> simp [withFolderPanels]
  · rcases active with _ | a
    · simp [withFolderPanels]
    · by_cases ha : a ∈ p :: rest <;> simp [withFolderPanels, Option.filter_some, ha]

theorem withFolderPanels_active {folder : WorkspaceFolder ν} {panelIds : List ProtocolId}
    {p : ProtocolId} (hp : p ∈ panelIds) :
    (withFolderPanels folder panelIds (some p)).activePanelId = some p := by
  simp [withFolderPanels, Option.filter_some, hp]

theorem Derived.insertFolder {pending : ProtocolId → Prop} {st : WorkspaceState ν}
    (h : Derived pending st) {k : ProtocolId} {old new : WorkspaceFolder ν}
    (hold : st.folders[k]? = some old) (hnew : FolderSettled new)
    (hproj : new.projectId = old.projectId) :
    Derived (fun id => pending id ∨ id = old.projectId)
      { st with folders := st.folders.insert k new } := by
  refine ⟨h.identity, fun id p hp f hmem => ?_, fun id f hf => ?_, fun id p hp hn => ?_⟩
  · obtain ⟨folder, hfo, hown⟩ := h.owns id p hp f hmem
    rw [Table.get_insert]
    by_cases hk : k = f
    · subst hk
      rw [hold] at hfo
      exact ⟨new, by simp, hproj.trans (Option.some.inj hfo ▸ hown)⟩
    · exact ⟨folder, by simp [hk, hfo], hown⟩
  · rw [Table.get_insert] at hf
    by_cases hk : k = id
    · simp only [hk, if_true, Option.some.injEq] at hf
      exact hf ▸ hnew
    · simp only [hk, if_false] at hf
      exact h.folders id f hf
  · rw [not_or] at hn
    have hk : k ∉ p.folderIds := fun hmem => by
      obtain ⟨folder, hfo, hown⟩ := h.owns id p hp k hmem
      rw [hold] at hfo
      exact hn.2 (hown.symm.trans (congrArg _ (Option.some.inj hfo).symm))
    have heq : projectFolders { st with folders := st.folders.insert k new } p =
        projectFolders st p := by
      apply List.filterMap_congr
      intro f hmem
      exact Table.get_insert_of_ne _ _ fun hkf => hk (hkf ▸ hmem)
    rw [heq]
    exact h.projects id p hp hn.1

theorem Derived.mono {pending pending' : ProtocolId → Prop} {st : WorkspaceState ν}
    (h : Derived pending st) (hsub : ∀ id, pending id → pending' id) : Derived pending' st :=
  ⟨h.identity, h.owns, h.folders, fun id p hp hn => h.projects id p hp fun hpen => hn (hsub id hpen)⟩

theorem projectLayout_perm {folders : List (WorkspaceFolder ν)} {active : Option ProtocolId}
    (h : ∀ f ∈ folders, f.layout.panels.Perm f.panelIds) :
    (projectLayout folders active).panels.Perm (folders.flatMap (·.panelIds)) := by
  unfold projectLayout
  split
  · rename_i folder hocc
    have hflat : folders.flatMap (·.panelIds) = folder.panelIds := by
      have hsplit : ∀ l : List (WorkspaceFolder ν),
          l.flatMap (·.panelIds) = (l.filter (·.panelIds ≠ [])).flatMap (·.panelIds) := by
        intro l
        induction l with
        | nil => rfl
        | cons f l ih => by_cases hf : f.panelIds = [] <;> simp [hf, ih]
      rw [hsplit, hocc]
      simp
    rw [hflat]
    have hmem : folder ∈ folders.filter (·.panelIds ≠ []) := hocc ▸ List.mem_singleton_self _
    exact h folder (List.mem_filter.mp hmem).1
  · exact List.Perm.refl _

theorem projectActive_isSome {folders : List (WorkspaceFolder ν)} {wanted : Option ProtocolId}
    (h : ∀ f ∈ folders, f.activePanelId.isSome ↔ f.panelIds ≠ []) :
    (projectActive folders wanted).isSome ↔ folders.flatMap (·.panelIds) ≠ [] := by
  have hfirst : (folders.findSome? (·.activePanelId)).isSome ↔
      folders.flatMap (·.panelIds) ≠ [] := by
    rw [List.findSome?_isSome_iff]
    simp only [ne_eq, List.flatMap_eq_nil_iff, not_forall]
    exact ⟨fun ⟨f, hf, ha⟩ => ⟨f, hf, (h f hf).mp ha⟩, fun ⟨f, hf, hn⟩ => ⟨f, hf, (h f hf).mpr hn⟩⟩
  unfold projectActive
  rw [Option.isSome_or, Bool.or_eq_true, hfirst]
  refine ⟨fun hor => hor.elim (fun hs => ?_) id, Or.inr⟩
  obtain ⟨w, hw⟩ := Option.isSome_iff_exists.mp hs
  have hmem := (Option.filter_eq_some_iff.mp hw).2
  exact List.ne_nil_of_mem (List.contains_iff_mem.mp hmem)

theorem syncedProject_settled {folders : List (WorkspaceFolder ν)} {project : WorkspaceProject ν}
    {active : Option ProtocolId} (hf : ∀ f ∈ folders, FolderSettled f)
    (hw : ∀ w ∈ active.or project.activePanelId, w ∈ folders.flatMap (·.panelIds) →
      ∃ f ∈ folders, f.activePanelId = some w) :
    ProjectSettled folders (syncedProject folders project active) := by
  refine ⟨projectActive_isSome fun f hm => (hf f hm).active, fun p hp => ?_,
    projectLayout_perm fun f hm => (hf f hm).layout⟩
  simp only [syncedProject, projectActive, Option.mem_def, Option.or_eq_some_iff] at hp
  rcases hp with hp | ⟨-, hp⟩
  · obtain ⟨hpw, hmem⟩ := Option.filter_eq_some_iff.mp hp
    exact hw p hpw (List.contains_iff_mem.mp hmem)
  · obtain ⟨f, hm, hfa⟩ := List.exists_of_findSome?_eq_some hp
    exact ⟨f, hm, hfa⟩

theorem syncProject_folders {st : WorkspaceState ν} {pid : ProtocolId} {active : Option ProtocolId} :
    (syncProject st pid active).folders = st.folders := by
  unfold syncProject
  split <;> rfl

theorem syncProject_views {st : WorkspaceState ν} {pid : ProtocolId} {active : Option ProtocolId} :
    (syncProject st pid active).views = st.views ∧
      (syncProject st pid active).viewOrder = st.viewOrder := by
  unfold syncProject
  split <;> exact ⟨rfl, rfl⟩

theorem syncProject_placement {st : WorkspaceState ν} {pid : ProtocolId}
    {active : Option ProtocolId} :
    Table.Agree WorkspaceProject.placement st.projects (syncProject st pid active).projects := by
  unfold syncProject
  split
  · exact Table.Agree.refl _ _
  · rename_i project hp
    exact Table.Agree.insert hp rfl

theorem Derived.syncProject {pending : ProtocolId → Prop} {st : WorkspaceState ν}
    (h : Derived pending st) (pid : ProtocolId) (active : Option ProtocolId)
    (hw : ∀ project, st.projects[pid]? = some project →
      ∀ w ∈ active.or project.activePanelId,
        w ∈ (projectFolders st project).flatMap (·.panelIds) →
        ∃ f ∈ projectFolders st project, f.activePanelId = some w) :
    Derived (fun id => pending id ∧ id ≠ pid) (syncProject st pid active) := by
  unfold Workspace.syncProject
  split
  · rename_i hnone
    refine ⟨h.identity, h.owns, h.folders, fun id p hp hn => h.projects id p hp fun hpen => ?_⟩
    exact hn ⟨hpen, fun hid => by simp [hid, hnone] at hp⟩
  · rename_i project hproj
    have hfs : ∀ f ∈ projectFolders st project, FolderSettled f := by
      intro f hf
      obtain ⟨id, -, hid⟩ := List.mem_filterMap.mp hf
      exact h.folders id f hid
    refine ⟨fun id p hp => ?_, fun id p hp => ?_, h.folders, fun id p hp hn => ?_⟩
    all_goals
      rw [Table.get_insert] at hp
      by_cases hid : pid = id
      · simp only [hid, if_true, Option.some.injEq] at hp
        subst hid hp
        first
          | exact h.identity _ project hproj
          | exact h.owns _ project hproj
          | exact syncedProject_settled hfs (hw project hproj)
      · simp only [hid, if_false] at hp
        first
          | exact h.identity id p hp
          | exact h.owns id p hp
          | exact h.projects id p hp fun hpen => hn ⟨hpen, fun he => hid he.symm⟩

end Terminay.Workspace
