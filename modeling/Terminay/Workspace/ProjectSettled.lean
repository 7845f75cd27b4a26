import Terminay.Workspace.Settled

/-!
# View and project commands keep a workspace settled

A command that replaces a project's own fields leaves what views and folders say.
-/

namespace Terminay.Workspace
open Script Outcome

variable {ν : Type} [Engine ν] {st : WorkspaceState ν} {c : Fields ν} {r : Edited ν}

theorem Settled.of_agree {st' : WorkspaceState ν} (h : Settled st)
    (ho : st'.viewOrder = st.viewOrder)
    (hv : Table.Agree WorkspaceView.listing st.views st'.views)
    (hpl : Table.Agree WorkspaceProject.placement st.projects st'.projects)
    (hpc : Table.Agree WorkspaceProject.contents st.projects st'.projects)
    (hfc : Table.Agree WorkspaceFolder.contents st.folders st'.folders)
    (hfl : Table.Agree WorkspaceFolder.label st.folders st'.folders) : Settled st' :=
  ⟨h.views.of_agree ho hv hpl, h.derived.of_agree hfc hpc, h.names.of_agree hfl⟩

theorem free_of_occupied {α : Type} {t : Table.Of ProtocolId α} {id : ProtocolId}
    (h : ¬ occupied t id = true) : t[id]? = none := by
  simp only [occupied, Bool.or_eq_true, not_or, Option.not_isSome_iff_eq_none] at h
  exact h.1

theorem viewCreate_settled (hs : Settled st) (h : viewCreate st c = .ok r) : Settled r.1 := by
  simp only [viewCreate, bind_ok, refuseIf_ok, Except.ok.injEq] at h
  obtain ⟨viewId, -, -, hfree, name, -, rfl⟩ := h
  have hnone := free_of_occupied hfree
  refine ⟨⟨fun id v hv => ?_, fun id v hv => ?_, fun id p hp hk => ?_⟩,
    hs.derived.of_agree (Table.Agree.refl _ _) (Table.Agree.refl _ _), hs.names⟩
  · rw [Table.get_insert] at hv
    by_cases hid : viewId = id
    · simp [hid]
    · simp only [hid, if_false] at hv
      simp [hs.views.listed id v hv]
  · rw [Table.get_insert] at hv
    by_cases hid : viewId = id
    · simp only [hid, if_true, Option.some.injEq] at hv
      subst hv
      exact ⟨List.nodup_nil, by simp⟩
    · simp only [hid, if_false] at hv
      exact hs.views.views id v hv
  · obtain ⟨v, hv, hmem⟩ := hs.views.home id p hp hk
    have hne : viewId ≠ p.viewId := fun he => by simp [he, hv] at hnone
    exact ⟨v, by rw [Table.get_insert_of_ne _ _ hne]; exact hv, hmem⟩

theorem viewRename_settled (hs : Settled st) (h : viewRename st c = .ok r) : Settled r.1 := by
  simp only [viewRename, bind_ok, requireView_ok, Except.ok.injEq] at h
  obtain ⟨view, ⟨k, hk, -, hv⟩, name, -, rfl⟩ := h
  rw [hk, propertyKey_str]
  exact hs.of_agree rfl (Table.Agree.insert hv rfl) (Table.Agree.refl _ _)
    (Table.Agree.refl _ _) (Table.Agree.refl _ _) (Table.Agree.refl _ _)

section

omit [Engine ν]

theorem ViewsSettled.putView (h : ViewsSettled st) {k : ProtocolId} {old new : WorkspaceView}
    (hold : st.views[k]? = some old) (hnew : ViewSettled new)
    (hkeeps : ∀ (id : ProtocolId) (p : WorkspaceProject ν), st.projects[id]? = some p →
      id ∈ old.projectIds → id ∈ new.projectIds) :
    ViewsSettled { st with views := st.views.insert k new } := by
  refine ⟨fun id v hv => ?_, fun id v hv => ?_, fun id p hp hk => ?_⟩
  · rw [Table.get_insert] at hv
    split_ifs at hv with he
    · exact he ▸ h.listed k old hold
    · exact h.listed id v hv
  · rw [Table.get_insert] at hv
    split_ifs at hv with he
    · cases hv
      exact hnew
    · exact h.views id v hv
  · obtain ⟨v, hv, hmem⟩ := h.home id p hp hk
    by_cases he : k = p.viewId
    · rw [← he, hold, Option.some.injEq] at hv
      subst hv
      exact ⟨new, by rw [Table.get_insert, if_pos he], hkeeps id p hp hmem⟩
    · exact ⟨v, by rw [Table.get_insert_of_ne _ _ he]; exact hv, hmem⟩

theorem ViewsSettled.putProject (h : ViewsSettled st) {k : ProtocolId} {new : WorkspaceProject ν}
    (hnew : ∃ view, st.views[new.viewId]? = some view ∧ k ∈ view.projectIds) :
    ViewsSettled { st with projects := st.projects.insert k new } := by
  refine ⟨h.listed, h.views, fun id p hp hk => ?_⟩
  rw [Table.get_insert] at hp
  split_ifs at hp with he
  · cases hp
    exact he ▸ hnew
  · exact h.home id p hp hk

theorem ViewsSettled.eraseProject (h : ViewsSettled st) (k : ProtocolId) :
    ViewsSettled { st with projects := st.projects.erase k } := by
  refine ⟨h.listed, h.views, fun id p hp hk => ?_⟩
  rw [Table.get_erase] at hp
  split_ifs at hp
  exact h.home id p hp hk

theorem rehomed_contents (viewId : ProtocolId) (home : Option ProtocolId)
    (p : WorkspaceProject ν) : (rehomed viewId home p).contents = p.contents := by
  unfold rehomed
  split
  · split_ifs <;> rfl
  · rfl

theorem rehomed_kind (viewId : ProtocolId) (home : Option ProtocolId)
    (p : WorkspaceProject ν) : (rehomed viewId home p).kind = p.kind := by
  unfold rehomed
  split
  · split_ifs <;> rfl
  · rfl

theorem rehomed_of_ne {viewId : ProtocolId} {home : Option ProtocolId} {p : WorkspaceProject ν}
    (h : p.viewId ≠ viewId) : rehomed viewId home p = p := by
  unfold rehomed
  split
  · simp [h]
  · rfl

end

theorem viewClose_settled (hs : Settled st) (h : viewClose st c = .ok r) : Settled r.1 := by
  simp only [viewClose, bind_ok, requireView_ok, refuseIf_ok, Except.ok.injEq] at h
  obtain ⟨view, ⟨k, hk, -, hview⟩, -, hempty, -, -, rfl⟩ := h
  rw [hk, propertyKey_str]
  have hnil : view.projectIds = [] := List.length_eq_zero_iff.mp (by omega)
  refine ⟨⟨fun id v hv => ?_, fun id v hv => ?_, fun id p hp hkind => ?_⟩, ?_, hs.names⟩
  · rw [Table.get_erase] at hv
    have hid : k ≠ id := fun he => by simp [he] at hv
    simp only [hid, if_false] at hv
    exact List.mem_filter.mpr ⟨hs.views.listed id v hv, by simpa using Ne.symm hid⟩
  · rw [Table.get_erase] at hv
    have hid : k ≠ id := fun he => by simp [he] at hv
    simp only [hid, if_false] at hv
    exact hs.views.views id v hv
  · rw [Table.get_mapValues, Option.map_eq_some_iff] at hp
    obtain ⟨q, hq, rfl⟩ := hp
    rw [rehomed_kind] at hkind
    obtain ⟨v, hv, hmem⟩ := hs.views.home id q hq hkind
    -- A listed project cannot live in the closed view, which lists none.
    have hne : q.viewId ≠ k := fun he => by
      rw [he, hview, Option.some.injEq] at hv
      rw [← hv, hnil] at hmem
      exact List.not_mem_nil hmem
    rw [rehomed_of_ne hne]
    exact ⟨v, by rw [Table.get_erase_of_ne _ hne.symm]; exact hv, hmem⟩
  · exact hs.derived.of_agree (Table.Agree.refl _ _)
      (Table.Agree.mapValues (fun _ p => rehomed_contents k _ p) _)

section

omit [Engine ν]

theorem issuedFolderText_injective : Function.Injective issuedFolderText := by
  intro m n h
  exact natText_injective (List.append_cancel_left h)

theorem issuedFolderId_free (st : WorkspaceState ν) : st.folders[issuedFolderId st]? = none := by
  by_contra hne
  have htaken : isIssued st (firstFree (isIssued st) (st.folders.size + 1) (st.revision + 1)) =
      true := by
    rw [isIssued, ← Option.ne_none_iff_isSome]
    exact hne
  have hall := firstFree_taken htaken
  let keys := (List.range (st.folders.size + 1)).map fun i => issuedFolderText (st.revision + 1 + i)
  have hnodup : keys.Nodup :=
    List.nodup_range.map fun i j h => Nat.add_left_cancel (issuedFolderText_injective h)
  have hsub : keys ⊆ st.folders.keys := by
    intro key hkey
    obtain ⟨i, hi, rfl⟩ := List.mem_map.mp hkey
    have hi' := hall i (List.mem_range.mp hi)
    rw [Std.ExtTreeMap.mem_keys, ← Std.ExtTreeMap.isSome_getElem?_iff_mem]
    exact hi'
  have hlen := (List.subperm_of_subset hnodup hsub).length_le
  simp only [keys, List.length_map, List.length_range, Std.ExtTreeMap.length_keys] at hlen
  omega

theorem generalFolder_settled (id projectId : ProtocolId) :
    FolderSettled (generalFolder id projectId : WorkspaceFolder ν) :=
  ⟨by simp [generalFolder], List.Perm.refl _⟩

end

/-! ## Opening a project -/

section

omit [Engine ν]

theorem projectFolders_insert {k : ProtocolId} {new : WorkspaceFolder ν} {p : WorkspaceProject ν}
    (hk : k ∉ p.folderIds) :
    projectFolders { st with folders := st.folders.insert k new } p = projectFolders st p :=
  List.filterMap_congr fun _ hmem => Table.get_insert_of_ne _ _ fun he => hk (he ▸ hmem)

theorem Derived.addFolder {pending : ProtocolId → Prop} (h : Derived pending st) {k : ProtocolId}
    {new : WorkspaceFolder ν} (hfree : st.folders[k]? = none) (hnew : FolderSettled new) :
    Derived pending { st with folders := st.folders.insert k new } := by
  have hk : ∀ (id : ProtocolId) (p : WorkspaceProject ν), st.projects[id]? = some p →
      k ∉ p.folderIds := fun id p hp hmem => by
    obtain ⟨folder, hfo, -⟩ := h.owns id p hp k hmem
    simp [hfree] at hfo
  refine ⟨h.identity, fun id p hp f hmem => ?_, fun id f hf => ?_, fun id p hp hn => ?_⟩
  · obtain ⟨folder, hfo, hown⟩ := h.owns id p hp f hmem
    have hne : k ≠ f := fun he => hk id p hp (he ▸ hmem)
    exact ⟨folder, by rw [Table.get_insert_of_ne _ _ hne]; exact hfo, hown⟩
  · rw [Table.get_insert] at hf
    by_cases he : k = id
    · simp only [he, if_true, Option.some.injEq] at hf
      exact hf ▸ hnew
    · simp only [he, if_false] at hf
      exact h.folders id f hf
  · rw [projectFolders_insert (hk id p hp)]
    exact h.projects id p hp hn

theorem Derived.insertProject {pending : ProtocolId → Prop} (h : Derived pending st)
    {k : ProtocolId} {new : WorkspaceProject ν} (hid : new.id = k)
    (howns : ∀ f ∈ new.folderIds, ∃ folder, st.folders[f]? = some folder ∧ folder.projectId = k)
    (hnew : ¬ pending k → ProjectSettled (projectFolders st new) new) :
    Derived pending { st with projects := st.projects.insert k new } := by
  refine ⟨fun id p hp => ?_, fun id p hp => ?_, h.folders, fun id p hp => ?_⟩
  all_goals
    rw [Table.get_insert] at hp
    by_cases he : k = id
    · simp only [he, if_true, Option.some.injEq] at hp
      subst he hp
      first
        | exact hid
        | exact howns
        | exact hnew
    · simp only [he, if_false] at hp
      first
        | exact h.identity id p hp
        | exact h.owns id p hp
        | exact h.projects id p hp

end

def IsNewProject (project : WorkspaceProject ν) (folderId : ProtocolId) : Prop :=
  project.folderIds = [folderId] ∧ project.panelIds = [] ∧ project.activePanelId = none ∧
    project.layout = stack [] none

omit [Engine ν] in
theorem IsNewProject.settled {project : WorkspaceProject ν} {folderId : ProtocolId}
    (h : IsNewProject project folderId) (folders : List (WorkspaceFolder ν)) :
    ProjectSettled folders project := by
  obtain ⟨-, hids, hactive, hlayout⟩ := h
  exact ⟨by simp [hids, hactive], by simp [hactive], by simp [hids, hlayout]⟩

omit [Engine ν] in
theorem Derived.addProject {pending : ProtocolId → Prop} {st' : WorkspaceState ν}
    (h : Derived pending st) {project : WorkspaceProject ν} {k folderId : ProtocolId}
    (hfree : st.folders[folderId]? = none)
    (hprojects : st'.projects = st.projects.insert k project)
    (hfolders : st'.folders = st.folders.insert folderId (generalFolder folderId k))
    (hid : project.id = k) (hnew : IsNewProject project folderId) : Derived pending st' := by
  suffices hd : Derived pending { st with
      folders := st.folders.insert folderId (generalFolder folderId k)
      projects := st.projects.insert k project } by
    exact hd.of_agree (hfolders ▸ Table.Agree.refl _ _) (hprojects ▸ Table.Agree.refl _ _)
  refine (h.addFolder hfree (generalFolder_settled folderId k)).insertProject hid
    (fun f hf => ?_) fun _ => hnew.settled _
  rw [hnew.1, List.mem_singleton] at hf
  subst hf
  exact ⟨generalFolder f k, by simp, rfl⟩

theorem NamesDistinct.addGeneral (h : NamesDistinct st) (hc : Consistent st)
    {folderId projectId : ProtocolId} (hfree : st.projects[projectId]? = none) :
    NamesDistinct { st with
      folders := st.folders.insert folderId (generalFolder folderId projectId) } := by
  have hother : ∀ (k : ProtocolId) (f : WorkspaceFolder ν), st.folders[k]? = some f →
      f.projectId ≠ projectId := by
    intro k f hf he
    obtain ⟨project, hp, -⟩ := (hc.folders k f hf).listed
    rw [he, hfree] at hp
    cases hp
  intro i j f g hf hg hproj hfk hgk hname
  rw [Table.get_insert] at hf hg
  by_cases hi : folderId = i
  · by_cases hj : folderId = j
    · exact hi.symm.trans hj
    · simp only [hi, if_true, Option.some.injEq] at hf
      simp only [hj, if_false] at hg
      subst hf
      exact absurd hproj.symm (hother j g hg)
  · by_cases hj : folderId = j
    · simp only [hj, if_true, Option.some.injEq] at hg
      simp only [hi, if_false] at hf
      subst hg
      exact absurd hproj (hother i f hf)
    · simp only [hi, hj, if_false] at hf hg
      exact h i j f g hf hg hproj hfk hgk hname

theorem projectCreate_settled (hc : Consistent st) (hs : Settled st)
    (h : projectCreate st c = .ok r) : Settled r.1 := by
  simp only [projectCreate, bind_ok, refuseIf_ok, requireView_ok, Except.ok.injEq] at h
  obtain ⟨projectId, -, -, hfree, view, ⟨k, hk, -, hview⟩, start, -, root, -, name, -, sidebar, -,
    color, -, icon, -, rfl⟩ := h
  rw [hk, propertyKey_str]
  have hnone := free_of_occupied hfree
  have hnew : projectId ∉ view.projectIds := fun hmem => by
    obtain ⟨project, hp, -⟩ := (hc.views k view hview).owns projectId hmem
    simp [hnone] at hp
  have hview' := hs.views.views k view hview
  have hshown : ViewSettled
      (withActiveProject view (view.projectIds ++ [projectId]) (some projectId)) := by
    refine ⟨?_, by simp [withActiveProject]⟩
    exact List.nodup_append.mpr ⟨hview'.nodup, List.nodup_singleton _, fun a ha b hb => by
      rw [List.mem_singleton] at hb
      exact fun hab => hnew (hb ▸ hab ▸ ha)⟩
  refine ⟨?_, ?_, hs.names.addGeneral hc hnone⟩
  · have hput := hs.views.putView hview hshown fun id p _ hmem => List.mem_append_left _ hmem
    refine (hput.putProject ⟨_, Std.ExtTreeMap.getElem?_insert_self, ?_⟩).of_agree rfl
      (Table.Agree.refl _ _) (Table.Agree.refl _ _)
    simp [withActiveProject]
  · exact hs.derived.addProject (issuedFolderId_free st) rfl rfl rfl ⟨rfl, rfl, rfl, rfl⟩

/-! ## A project's own fields -/

theorem putProject_settled (hs : Settled st) {k : ProtocolId} {old new : WorkspaceProject ν}
    (hold : st.projects[k]? = some old) (hpl : new.placement = old.placement)
    (hco : new.contents = old.contents) : Settled (putProject st k new) :=
  hs.of_agree rfl (Table.Agree.refl _ _) (Table.Agree.insert hold hpl)
    (Table.Agree.insert hold hco) (Table.Agree.refl _ _) (Table.Agree.refl _ _)

theorem Settled.withRecents (hs : Settled st) (recents : List RecentProjectFolder) :
    Settled { st with recentProjectFolders := recents } :=
  hs.of_agree rfl (Table.Agree.refl _ _) (Table.Agree.refl _ _) (Table.Agree.refl _ _)
    (Table.Agree.refl _ _) (Table.Agree.refl _ _)

theorem projectSidebarUpdate_settled (hs : Settled st) (h : projectSidebarUpdate st c = .ok r) :
    Settled r.1 := by
  simp only [projectSidebarUpdate, bind_ok, requireProject_ok, Except.ok.injEq] at h
  obtain ⟨project, ⟨k, hk, -, hp⟩, sidebar, -, rfl⟩ := h
  rw [hk, propertyKey_str]
  apply putProject_settled hs hp <;> rfl

theorem projectRootUpdate_settled {now : ν} (hs : Settled st)
    (h : projectRootUpdate st c now = .ok r) : Settled r.1 := by
  simp only [projectRootUpdate, bind_ok, requireProject_ok, Except.ok.injEq] at h
  obtain ⟨project, ⟨k, hk, -, hp⟩, root, -, recents, -, rfl⟩ := h
  rw [hk, propertyKey_str]
  apply (putProject_settled hs hp ?_ ?_).withRecents recents <;> rfl

omit [Engine ν] in
theorem startedInFolder_ok {project started : WorkspaceProject ν} {root : Str}
    (h : startedInFolder project root = .ok started) :
    started.placement = project.placement ∧ started.contents = project.contents := by
  simp only [startedInFolder, bind_ok, Except.ok.injEq] at h
  obtain ⟨name, -, rfl⟩ := h
  exact ⟨rfl, rfl⟩

theorem projectStart_settled {now : ν} (hs : Settled st) (h : projectStart st c now = .ok r) :
    Settled r.1 := by
  simp only [projectStart, bind_ok, requireProject_ok, refuseIf_ok] at h
  obtain ⟨project, ⟨k, hk, -, hp⟩, -, -, h⟩ := h
  rw [hk, propertyKey_str] at h
  split_ifs at h
  · cases h
    apply putProject_settled hs hp <;> rfl
  · simp only [bind_ok, Except.ok.injEq] at h
    obtain ⟨root, -, started, hstarted, recents, -, rfl⟩ := h
    have hsame := startedInFolder_ok hstarted
    exact (putProject_settled hs hp hsame.1 hsame.2).withRecents recents

theorem recentForget_settled (hs : Settled st) (h : recentForget st c = .ok r) : Settled r.1 := by
  simp only [recentForget, bind_ok, Except.ok.injEq] at h
  obtain ⟨path, -, rfl⟩ := h
  exact hs.withRecents _

theorem projectShellProfileSet_settled (hs : Settled st)
    (h : projectShellProfileSet st c = .ok r) : Settled r.1 := by
  simp only [projectShellProfileSet, bind_ok, requireProject_ok, Except.ok.injEq] at h
  obtain ⟨profileId, -, project, ⟨k, hk, -, hp⟩, rfl⟩ := h
  rw [hk, propertyKey_str]
  apply putProject_settled hs hp <;> rfl

theorem projectShellProfileClear_settled (hs : Settled st)
    (h : projectShellProfileClear st c = .ok r) : Settled r.1 := by
  simp only [projectShellProfileClear, bind_ok, requireProject_ok, Except.ok.injEq] at h
  obtain ⟨project, ⟨k, hk, -, hp⟩, rfl⟩ := h
  rw [hk, propertyKey_str]
  apply putProject_settled hs hp <;> rfl

theorem projectShellProfileReplace_settled (hs : Settled st)
    (h : projectShellProfileReplace st c = .ok r) : Settled r.1 := by
  simp only [projectShellProfileReplace, bind_ok, Except.ok.injEq] at h
  obtain ⟨fromProfileId, -, toProfileId, -, rfl⟩ := h
  refine hs.of_agree rfl (Table.Agree.refl _ _) (Table.Agree.mapValues (fun _ p => ?_) _)
    (Table.Agree.mapValues (fun _ p => ?_) _) (Table.Agree.refl _ _) (Table.Agree.refl _ _)
  · split_ifs <;> rfl
  · split_ifs <;> rfl

theorem projectRename_settled (hs : Settled st) (h : projectRename st c = .ok r) :
    Settled r.1 := by
  simp only [projectRename, bind_ok, requireProject_ok, Except.ok.injEq] at h
  obtain ⟨project, ⟨k, hk, -, hp⟩, name, -, rfl⟩ := h
  rw [hk, propertyKey_str]
  apply putProject_settled hs hp <;> rfl

theorem projectUpdate_settled (hs : Settled st) (h : projectUpdate st c = .ok r) :
    Settled r.1 := by
  simp only [projectUpdate, bind_ok, requireProject_ok, Except.ok.injEq] at h
  obtain ⟨project, ⟨k, hk, -, hp⟩, name, -, root, -, color, -, icon, -, rfl⟩ := h
  rw [hk, propertyKey_str]
  apply putProject_settled hs hp <;> rfl

/-! ## Moving a project between views -/

theorem projectActivate_settled (hc : Consistent st) (hs : Settled st)
    (hopen : reserved st (c.at "projectId") = false) (h : projectActivate st c = .ok r) :
    Settled r.1 := by
  simp only [projectActivate, bind_ok, requireProject_ok, requireView_ok, Except.ok.injEq,
    Option.some.injEq, Json.str.injEq] at h
  obtain ⟨project, ⟨k, hk, -, hp⟩, view, ⟨_, rfl, -, hv⟩, rfl⟩ := h
  have hkind : project.kind = none := by
    have hopen' : isAutomationSpace project = false := by
      simpa [reserved, hk, Json.text, hp] using hopen
    rcases hpk : project.kind with _ | ⟨⟨⟩⟩
    · rfl
    · simp [isAutomationSpace, hpk] at hopen'
  obtain ⟨view', hv', hmem⟩ := hs.views.home k project hp hkind
  rw [hv, Option.some.injEq] at hv'
  subst hv'
  have hvid : view.id = project.viewId := (hc.views _ view hv).identity
  have hne : view.projectIds ≠ [] := List.ne_nil_of_mem hmem
  have hshown : ViewSettled { view with activeProjectId := some project.id } :=
    ⟨(hs.views.views _ view hv).nodup, by simp [hne]⟩
  rw [← hvid] at hv
  exact ⟨(hs.views.putView hv hshown fun _ _ _ hmem => hmem).of_agree rfl (Table.Agree.refl _ _)
      (Table.Agree.refl _ _),
    hs.derived.of_agree (Table.Agree.refl _ _) (Table.Agree.refl _ _), hs.names⟩

theorem indexAt_le {index : Option (Json ν)} {length k : ℕ} (h : indexAt index length = .ok k) :
    k ≤ length := by
  unfold indexAt at h
  split at h
  · cases h
    exact Nat.le_refl _
  · cases h
    exact Nat.le_refl _
  · cases h
    exact Nat.min_le_left _ _
  · cases h
    split_ifs <;> omega
  · split_ifs at h
    split at h <;> cases h
    · exact Nat.min_le_left _ _
    · split_ifs <;> omega
    · omega

omit [Engine ν] in
theorem insertIdx_perm {ids : List ProtocolId} {k : ℕ} (hk : k ≤ ids.length) (id : ProtocolId) :
    (ids.insertIdx k id).Perm (id :: ids) :=
  List.perm_insertIdx id ids hk

omit [Engine ν] in
theorem ViewSettled.without {view : WorkspaceView} (h : ViewSettled view)
    (ha : ∀ p ∈ view.activeProjectId, p ∈ view.projectIds) (id : ProtocolId) :
    ViewSettled (viewWithout view id) := by
  refine ⟨h.nodup.filter _, ?_⟩
  simp only [viewWithout, withActiveProject, activeWithout]
  by_cases hid : view.activeProjectId = some id
  · rw [if_pos hid]
    rcases view.projectIds.filter (· ≠ id) with _ | ⟨a, l⟩ <;> simp
  · rw [if_neg hid, h.active]
    rcases hact : view.activeProjectId with _ | a
    · have hnil : view.projectIds = [] := by
        by_contra hne
        have := h.active.mpr hne
        simp [hact] at this
      simp [hnil]
    · have hmem := ha a hact
      have hkept : a ∈ view.projectIds.filter (· ≠ id) :=
        List.mem_filter.mpr ⟨hmem, by simpa using fun he : a = id => hid (he ▸ hact)⟩
      exact ⟨fun _ => List.ne_nil_of_mem hkept, fun _ => List.ne_nil_of_mem hmem⟩

theorem projectMove_settled (hc : Consistent st) (hs : Settled st)
    (h : projectMove st c = .ok r) : Settled r.1 := by
  simp only [projectMove, bind_ok, requireProject_ok, requireView_ok, Except.ok.injEq,
    Option.some.injEq, Json.str.injEq] at h
  obtain ⟨project, ⟨k, -, -, hp⟩, source, ⟨_, rfl, -, hsource⟩, target, ⟨t, ht, -, htarget⟩,
    position, hposition, rfl⟩ := h
  rw [ht, propertyKey_str]
  have hid : project.id = k := (hc.projects k project hp).identity
  have hperm := insertIdx_perm (indexAt_le hposition) project.id
  have hlisted : ∀ q, q ∈ target.projectIds → q ∈
      (target.projectIds.filter (· ≠ project.id)).insertIdx position project.id := by
    intro q hq
    rw [hperm.mem_iff, List.mem_cons]
    by_cases hqp : q = project.id
    · exact Or.inl hqp
    · exact Or.inr (List.mem_filter.mpr ⟨hq, by simpa using hqp⟩)
  refine ⟨⟨fun id v hv => ?_, fun id v hv => ?_, fun id p hp' hk' => ?_⟩, ?_, hs.names⟩
  · simp only [Table.get_insert] at hv
    split_ifs at hv with he he'
    · exact he ▸ hs.views.listed t target htarget
    · exact he' ▸ hs.views.listed _ source hsource
    · exact hs.views.listed id v hv
  · simp only [Table.get_insert] at hv
    split_ifs at hv with he he'
    · cases hv
      have hne := List.ne_nil_of_mem (hperm.mem_iff.mpr List.mem_cons_self)
      refine ⟨?_, by simpa [withActiveProject] using hne⟩
      have hnodup := (hs.views.views t target htarget).nodup.filter (fun q => decide (q ≠ project.id))
      exact hperm.nodup_iff.mpr (List.nodup_cons.mpr ⟨by simp, hnodup⟩)
    · cases hv
      exact (hs.views.views _ source hsource).without (hc.views _ source hsource).active _
    · exact hs.views.views id v hv
  · rw [Table.get_insert] at hp'
    split_ifs at hp' with he
    · cases hp'
      refine ⟨_, by rw [Table.get_insert, if_pos rfl], ?_⟩
      simp only [withActiveProject]
      rw [hperm.mem_iff, he]
      exact List.mem_cons_self
    · obtain ⟨v, hv, hmem⟩ := hs.views.home id p hp' hk'
      by_cases htv : t = p.viewId
      · rw [← htv, htarget, Option.some.injEq] at hv
        subst hv
        exact ⟨_, by rw [Table.get_insert, if_pos htv], hlisted id hmem⟩
      · by_cases hsv : project.viewId = p.viewId
        · rw [← hsv, hsource, Option.some.injEq] at hv
          subst hv
          refine ⟨_, by rw [Table.get_insert_of_ne _ _ htv, Table.get_insert, if_pos hsv], ?_⟩
          exact List.mem_filter.mpr ⟨hmem, by simpa using fun h' => he h'.symm⟩
        · exact ⟨v, by rw [Table.get_insert_of_ne _ _ htv, Table.get_insert_of_ne _ _ hsv]; exact hv,
            hmem⟩
  · rw [← hid] at hp
    exact hs.derived.of_agree (Table.Agree.refl _ _) (Table.Agree.insert hp rfl)

omit [Engine ν] in
theorem projectFolders_eraseAll {ks : List ProtocolId} {p : WorkspaceProject ν}
    (hks : ∀ f ∈ p.folderIds, f ∉ ks) :
    (p.folderIds.filterMap fun id => (Table.eraseAll st.folders ks)[id]?) = projectFolders st p :=
  List.filterMap_congr fun f hf => by rw [Table.get_eraseAll, if_neg (hks f hf)]

theorem projectClose_settled (hc : Consistent st) (hs : Settled st)
    (h : projectClose st c = .ok r) : Settled r.1 := by
  simp only [projectClose, bind_ok, requireProject_ok, requireView_ok, Except.ok.injEq,
    Option.some.injEq, Json.str.injEq] at h
  obtain ⟨project, ⟨k, -, -, hp⟩, view, ⟨_, rfl, -, hview⟩, rfl⟩ := h
  have hid : project.id = k := (hc.projects k project hp).identity
  have hvid : view.id = project.viewId := (hc.views _ view hview).identity
  have hothers : ∀ (id : ProtocolId) (p : WorkspaceProject ν), st.projects[id]? = some p →
      project.id ≠ id → ∀ f ∈ p.folderIds, f ∉ project.folderIds := by
    intro id p hp' hne f hf hf'
    obtain ⟨folder, hfo, hown⟩ := hs.derived.owns id p hp' f hf
    obtain ⟨folder', hfo', hown'⟩ := hs.derived.owns k project hp f hf'
    rw [hfo, Option.some.injEq] at hfo'
    exact hne (hid.trans (hown'.symm.trans (hfo' ▸ hown)))
  have hsub : ∀ {id : ProtocolId} {p : WorkspaceProject ν},
      (st.projects.erase project.id)[id]? = some p → project.id ≠ id ∧ st.projects[id]? = some p := by
    intro id p hp'
    rw [Table.get_erase] at hp'
    split_ifs at hp' with he
    exact ⟨he, hp'⟩
  have hfolder : ∀ {id : ProtocolId} {f : WorkspaceFolder ν},
      (Table.eraseAll st.folders project.folderIds)[id]? = some f → st.folders[id]? = some f := by
    intro id f hf
    rw [Table.get_eraseAll] at hf
    split_ifs at hf
    exact hf
  refine ⟨?_, ⟨fun id p hp' => ?_, fun id p hp' f hf => ?_, fun id f hf => ?_,
      fun id p hp' hn => ?_⟩, fun i j f g hf hg => hs.names i j f g (hfolder hf) (hfolder hg)⟩
  · have hleft := (hs.views.views _ view hview).without (hc.views _ view hview).active project.id
    rw [← hvid] at hview
    refine ((hs.views.eraseProject project.id).putView hview hleft fun id p hp' hmem => ?_).of_agree
      rfl (Table.Agree.refl _ _) (Table.Agree.refl _ _)
    exact List.mem_filter.mpr ⟨hmem, by simpa using (hsub hp').1.symm⟩
  · exact hs.derived.identity id p (hsub hp').2
  · obtain ⟨hne, hp'⟩ := hsub hp'
    obtain ⟨folder, hfo, hown⟩ := hs.derived.owns id p hp' f hf
    exact ⟨folder, by rw [Table.get_eraseAll, if_neg (hothers id p hp' hne f hf)]; exact hfo, hown⟩
  · exact hs.derived.folders id f (hfolder hf)
  · obtain ⟨hne, hp'⟩ := hsub hp'
    have hset := hs.derived.projects id p hp' hn
    rwa [← projectFolders_eraseAll (hothers id p hp' hne)] at hset

end Terminay.Workspace
