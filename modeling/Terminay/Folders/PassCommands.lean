import Terminay.Folders.Reconciler
import Terminay.Workspace.Sessions

/-!
# What the commands of a pass do

A pass changes the workspace through its commands only, and touches nothing else that another
moment looks at.
-/

namespace Terminay.Folders
open Script Workspace Outcome Fallible

variable {ν : Type}

def PanelsOpen (st st' : WorkspaceState ν) : Prop :=
  ∀ id : ProtocolId, st.panels[id]?.isSome = true → st'.panels[id]?.isSome = true

theorem PanelsOpen.of_eq {st st' : WorkspaceState ν} (h : st'.panels = st.panels) :
    PanelsOpen st st' := by
  intro id hid
  rw [h]
  exact hid

theorem PanelsOpen.of_insert {st st' : WorkspaceState ν} {k : ProtocolId} {panel : WorkspacePanel ν}
    (h : st'.panels = st.panels.insert k panel) : PanelsOpen st st' := by
  intro id hid
  rw [h, Table.get_insert]
  split_ifs
  · rfl
  · exact hid

def isFolderCommand : CommandType → Bool
  | .folderLinkUpdate | .folderRename | .panelMoveToFolder | .folderDelete | .folderCreate => true
  | _ => false

section Engine
variable [Engine ν] {st : WorkspaceState ν}

theorem movePanelToFolder_open (p : ProtocolId) (folderId index : Option (Json ν)) :
    Ensures (movePanelToFolder st p folderId index) (PanelsOpen st) := by
  refine .bind fun panel _ => .bind fun target _ => .bind fun _ _ => .bind fun st1 hleave =>
    .bind fun current _ => .bind fun position _ => .ok ?_
  exact .of_insert (k := p) (syncProject_panels.trans (by rw [leaveFolder_panels st1 hleave]))

theorem edit_open {t : CommandType} (ht : isFolderCommand t = true) (c : Fields ν) (now : ν) :
    Ensures (t.edit st c now) fun r => PanelsOpen st r.1 := by
  by_cases hmove : t = .panelMoveToFolder
  · rw [hmove]
    exact .bind fun _ _ => .bind fun st1 hmoved => .ok (movePanelToFolder_open _ _ _ st1 hmoved)
  · intro r hr
    refine .of_eq (edit_panels ?_ now r hr)
    cases t <;> first | rfl | exact absurd ht (by decide) | exact absurd rfl hmove

theorem applied_open (store : WorkspaceStore ν) (envelope : WorkspaceCommandEnvelope ν)
    {t : CommandType} (hkind : envelope.command.kind = some t) (ht : isFolderCommand t = true)
    (now : ν) (written : Bool) :
    PanelsOpen store.current (Workspace.apply store envelope now written).1.current := by
  rcases apply_current store envelope now written with hsame | ⟨r, hdraft, hcurrent⟩
  · rw [hsame]
    exact .of_eq rfl
  · obtain ⟨-, t', hkind', hedit⟩ := reduce_ok.mp (draft_ok.mp hdraft).1
    rw [hkind, Option.some.injEq] at hkind'
    subst hkind'
    rw [hcurrent]
    exact edit_open ht _ now r hedit

def FolderCommand (command : Command ν) : Prop :=
  ∃ t, command.kind = some t ∧ isFolderCommand t = true

section

omit [Engine ν]

theorem folderLinkUpdate_isFolderCommand (folderId : ProtocolId)
    (link : WorkspaceFolderWorktreeLink) :
    FolderCommand (folderLinkUpdateCommand folderId link : Command ν) :=
  ⟨.folderLinkUpdate, (by decide : commandType? (js "folder.link.update") = some .folderLinkUpdate), rfl⟩

theorem folderRename_isFolderCommand (folderId : ProtocolId) (name : Str) :
    FolderCommand (folderRenameCommand folderId name : Command ν) :=
  ⟨.folderRename, (by decide : commandType? (js "folder.rename") = some .folderRename), rfl⟩

theorem panelMoveToFolder_isFolderCommand (panelId folderId : ProtocolId) :
    FolderCommand (panelMoveToFolderCommand panelId folderId : Command ν) :=
  ⟨.panelMoveToFolder, (by decide : commandType? (js "panel.moveToFolder") = some .panelMoveToFolder), rfl⟩

theorem folderDelete_isFolderCommand (folderId : ProtocolId) :
    FolderCommand (folderDeleteCommand folderId : Command ν) :=
  ⟨.folderDelete, (by decide : commandType? (js "folder.delete") = some .folderDelete), rfl⟩

theorem folderCreate_isFolderCommand (projectId : ProtocolId) (name : Str)
    (worktree : WorkspaceFolderWorktreeLink) (creator : Option ProtocolId) :
    FolderCommand (folderCreateCommand projectId name worktree creator : Command ν) :=
  ⟨.folderCreate, (by decide : commandType? (js "folder.create") = some .folderCreate), rfl⟩

end

/-! ## What a pass leaves alone -/

/-- What an issued command has to be: of the pass's project, in the suspensions of the moment,
and without a panel closed. -/
def Rightly (projectId : ProtocolId) (held : ℕ) (entry : Issued ν) : Prop :=
  entry.projectId = projectId ∧ entry.held = held ∧ FolderCommand entry.command ∧
    PanelsOpen entry.before entry.after

structure Works (projectId : ProtocolId) (s t : FolderReconciler ν) : Prop where
  running : t.running = s.running
  again : t.again = s.again
  suspended : t.suspended = s.suspended
  known : t.known = s.known
  loops : t.loops = s.loops
  holds : t.holds = s.holds
  owed : t.owed = s.owed
  longest : t.longest = s.longest
  issued : ∃ more, t.issued = s.issued ++ more ∧ ∀ e ∈ more, Rightly projectId (s.held projectId) e

variable {projectId : ProtocolId} {host : Host ν} {s : FolderReconciler ν}

omit [Engine ν] in
theorem Works.refl (projectId : ProtocolId) (s : FolderReconciler ν) : Works projectId s s :=
  ⟨rfl, rfl, rfl, rfl, rfl, rfl, rfl, rfl, [], (List.append_nil _).symm, nofun⟩

omit [Engine ν] in
theorem Works.trans (s t u : FolderReconciler ν) (h : Works projectId s t)
    (h' : Works projectId t u) : Works projectId s u := by
  obtain ⟨more, hmore, hright⟩ := h.issued
  obtain ⟨more', hmore', hright'⟩ := h'.issued
  have hheld : t.held projectId = s.held projectId := by rw [FolderReconciler.held, h.holds]; rfl
  refine ⟨h'.running.trans h.running, h'.again.trans h.again, h'.suspended.trans h.suspended,
    h'.known.trans h.known, h'.loops.trans h.loops, h'.holds.trans h.holds, h'.owed.trans h.owed,
    h'.longest.trans h.longest, more ++ more', ?_, ?_⟩
  · rw [hmore', hmore, List.append_assoc]
  · intro e he
    rcases List.mem_append.mp he with he | he
    · exact hright e he
    · rw [← hheld]
      exact hright' e he

abbrev Working (projectId : ProtocolId) {α : Type} (pass : Doing ν α) : Prop :=
  Along (Works projectId) pass

section

omit [Engine ν]

theorem Working.pure {α : Type} (a : α) : Working (ν := ν) projectId (pure a) :=
  Along.pure (Works.refl projectId) a

theorem Working.get : Working (ν := ν) projectId Fallible.get := Along.get (Works.refl projectId)

theorem Working.bind {α β : Type} {x : Doing ν α} {f : α → Doing ν β} (hx : Working projectId x)
    (hf : ∀ a, Working projectId (f a)) : Working projectId (x >>= f) :=
  Along.bind Works.trans hx hf

end

theorem issue_working {command : Command ν} (hc : FolderCommand command) :
    Working projectId (issue host projectId command) := by
  intro s
  obtain ⟨t, hkind, ht⟩ := hc
  have hopen := applied_open s.store
    { commandId := js "folders:" ++ natText (s.serial + 1), expectedRevision := none,
      command := command } hkind ht (host.now (s.serial + 1)) (host.written (s.serial + 1))
  simp only [Ends, issue, apply]
  generalize Workspace.apply s.store _ _ _ = applied at hopen ⊢
  obtain ⟨store, result⟩ := applied
  have hworks : Works projectId s
      { s with
        serial := s.serial + 1
        store := store
        issued := s.issued ++ [⟨projectId, command, s.held projectId, s.store.current,
          store.current⟩] } := by
    refine ⟨rfl, rfl, rfl, rfl, rfl, rfl, rfl, rfl, _, rfl, fun e he => ?_⟩
    rw [List.mem_singleton.mp he]
    exact ⟨rfl, rfl, ⟨t, hkind, ht⟩, hopen⟩
  cases result with
  | ok revision cursor event state => exact hworks
  | refused conflict => exact hworks
  | thrown message => exact hworks

theorem relink_working (repositoryId fromPath toPath : Str) :
    Working projectId
      (relink (issue host projectId) projectId repositoryId fromPath toPath) := by
  refine Working.get.bind fun s => ?_
  split
  · exact .pure false
  · exact (issue_working (folderLinkUpdate_isFolderCommand _ _)).bind fun applied => .pure _

theorem movePanels_working (general : ProtocolId) (panelIds : List ProtocolId) :
    Working projectId (movePanels host projectId general panelIds) := by
  induction panelIds with
  | nil => exact .pure true
  | cons panelId panelIds ih =>
    refine (issue_working (panelMoveToFolder_isFolderCommand _ _)).bind fun applied => ?_
    split
    · exact ih
    · exact .pure false

theorem removeFolder_working (folderId : ProtocolId) :
    Working projectId (removeFolder host projectId folderId) := by
  refine Working.get.bind fun s => ?_
  split
  · refine (movePanels_working _ _).bind fun moved => ?_
    split
    · exact (issue_working (folderDelete_isFolderCommand _)).bind fun _ => .pure ()
    · exact .pure ()
  · exact .pure ()

theorem followFolder_working (folder : WorkspaceFolder ν) (link : WorkspaceFolderWorktreeLink)
    (moved : Option ListedWorktree) :
    Working projectId (followFolder host projectId folder link moved) := by
  have hremove : Working projectId (do
      removeFolder host projectId folder.id
      pure false) := (removeFolder_working _).bind fun _ => .pure false
  cases moved with
  | none => exact hremove
  | some worktree =>
    refine (relink_working _ _ _).bind fun relinked => ?_
    split
    · split
      · exact (issue_working (folderRename_isFolderCommand _ _)).bind fun _ => .pure true
      · exact .pure true
    · exact hremove

theorem followFolders_working (lastBranches : Table.Of Str Str) (wanted : List ListedWorktree)
    (folders : List (WorkspaceFolder ν)) (linked : List Str) :
    Working projectId (followFolders host projectId lastBranches wanted folders linked) := by
  induction folders generalizing linked with
  | nil => exact .pure linked
  | cons folder folders ih =>
    rw [followFolders]
    split
    · exact ih linked
    · split
      · exact ih linked
      · exact (followFolder_working _ _ _).bind fun followed => ih _

theorem createFolder_working (worktree : ListedWorktree) (creator : Option ProtocolId) :
    Working projectId (createFolder host projectId worktree creator) := by
  cases creator with
  | none => exact issue_working (folderCreate_isFolderCommand _ _ _ _)
  | some panelId =>
    refine (issue_working (folderCreate_isFolderCommand _ _ _ _)).bind fun withCreator => ?_
    split
    · exact .pure _
    · exact issue_working (folderCreate_isFolderCommand _ _ _ _)

theorem createFolders_working (worktrees : List ListedWorktree) :
    Working projectId (createFolders host projectId worktrees) := by
  induction worktrees with
  | nil => exact .pure ()
  | cons worktree worktrees ih => exact (createFolder_working worktree none).bind fun _ => ih

/-! ## Where a pass waits next -/

def Stage.remaining (longest : ℕ) : Stage → ℕ
  | .listing _ => longest + 4
  | .root _ found => found.worktrees.length + 3
  | .creator _ rest => rest.length + 3
  | .passed => 2
  | .ended => 1

def Stage.Within (n : ℕ) (stage : Stage) : Prop :=
  stage ≠ .ended ∧ ∀ longest, stage.remaining longest ≤ n

theorem Stage.passed_within {n : ℕ} (hn : 2 ≤ n) : Stage.Within n .passed := ⟨nofun, fun _ => hn⟩

/-- A pass that works, and waits next within so many moments. -/
abbrev Proceeds (projectId : ProtocolId) (n : ℕ) (pass : Doing ν Stage) : Prop :=
  ∀ s, Ends pass s (fun stage t => Works projectId s t ∧ stage.Within n) (Works projectId s)

section

omit [Engine ν]

theorem Proceeds.after {α : Type} {n : ℕ} {x : Doing ν α} {f : α → Doing ν Stage}
    (hx : Working projectId x) (hf : ∀ a, Proceeds projectId n (f a)) :
    Proceeds projectId n (x >>= f) := by
  intro s
  refine (hx s).bind (fun t ht => ht) fun a t ht => ?_
  exact (hf a t).mono (fun stage u hu => ⟨ht.trans _ _ _ hu.1, hu.2⟩) fun u hu => ht.trans _ _ _ hu

theorem askCreators_proceeds (worktrees : List ListedWorktree) :
    Proceeds (ν := ν) projectId (worktrees.length + 2) (askCreators projectId worktrees) := by
  cases worktrees with
  | nil =>
    intro s
    refine ends_bind.mpr (ends_modify.mpr (ends_pure.mpr ⟨?_, Stage.passed_within (by simp)⟩))
    exact ⟨rfl, rfl, rfl, rfl, rfl, rfl, rfl, rfl, [], (List.append_nil _).symm, nofun⟩
  | cons worktree rest =>
    intro s
    refine ends_pure.mpr ⟨Works.refl projectId s, nofun, fun longest => ?_⟩
    simp only [Stage.remaining, List.length_cons]
    omega

theorem Proceeds.weaken {n m : ℕ} {pass : Doing ν Stage} (h : Proceeds projectId n pass)
    (hnm : n ≤ m) : Proceeds projectId m pass := by
  intro s
  refine (h s).mono (fun stage t ht => ⟨ht.1, ht.2.1, fun longest => ?_⟩) fun t ht => ht
  exact (ht.2.2 longest).trans hnm

end

theorem bringInLine_proceeds (listing : ReconcilerWorktreeListing) (wanted : List ListedWorktree) :
    Proceeds projectId (wanted.length + 2) (bringInLine host projectId listing wanted) := by
  refine .after .get fun s => ?_
  split
  · intro s
    exact ends_pure.mpr ⟨Works.refl projectId s, Stage.passed_within (by omega)⟩
  · refine .after (.modify fun s => ?_) fun _ => .after (followFolders_working _ _ _ _) fun keys => ?_
    · exact ⟨rfl, rfl, rfl, rfl, rfl, rfl, rfl, rfl, [], (List.append_nil _).symm, nofun⟩
    · split
      · refine (askCreators_proceeds _).weaken ?_
        have hmissing := List.length_filter_le (fun worktree : ListedWorktree =>
          !keys.contains worktree.key) wanted
        omega
      · refine .after (createFolders_working _) fun _ => (askCreators_proceeds []).weaken ?_
        simp

theorem answerCreator_proceeds (worktree : ListedWorktree) (rest : List ListedWorktree)
    (creator : Option ProtocolId) (reaction : List (StoreCall ν × Bool)) :
    Proceeds projectId (rest.length + 2)
      (answerCreator host projectId worktree rest creator reaction) := by
  refine .after (createFolder_working worktree creator) fun created => ?_
  refine .after ?_ fun _ => askCreators_proceeds rest
  unfold tellAppeared
  split
  · exact .pure ()
  · refine .modify fun s => ?_
    exact ⟨rfl, rfl, rfl, rfl, rfl, rfl, rfl, rfl, [], (List.append_nil _).symm, nofun⟩

omit [Engine ν] in
/-- What an advance leaves: the pass did its work and waits again, or is over. -/
theorem advance_cases {pass : Doing ν Stage} {n : ℕ} (h : Proceeds projectId n pass) (hn : 2 ≤ n)
    (s : FolderReconciler ν) (loop : ℕ) : ∃ t stage, Works projectId s t ∧ stage.Within n ∧
      advance s loop projectId pass = setStage t loop projectId stage := by
  have hends := h s
  simp only [Ends] at hends
  unfold advance
  generalize pass s = answer at hends
  obtain ⟨e | stage, t⟩ := answer
  · exact ⟨t, .passed, hends, Stage.passed_within hn, rfl⟩
  · exact ⟨t, stage, hends.1, hends.2, rfl⟩

end Engine

end Terminay.Folders
