import Terminay.Protocol.Scope

/-!
# What a connection is kept from

A connection claimed to one project is told of no other project, and one that did not negotiate the
automation space is told of nothing in it, in whatever state the workspace is.
-/

namespace Terminay.Protocol
open Script Workspace Outcome

variable {ν : Type} {projectId : ProtocolId} {st seen : WorkspaceState ν}

/-- The projects a state names, by holding them, listing them or holding what is theirs. -/
inductive Names (st : WorkspaceState ν) : ProtocolId → Prop
  | project {id : ProtocolId} {p : WorkspaceProject ν} (h : st.projects[id]? = some p) : Names st id
  | listed {id p : ProtocolId} {view : WorkspaceView} (h : st.views[id]? = some view)
      (hp : p ∈ view.projectIds) : Names st p
  | active {id p : ProtocolId} {view : WorkspaceView} (h : st.views[id]? = some view)
      (hp : p ∈ view.activeProjectId) : Names st p
  | folder {id : ProtocolId} {folder : WorkspaceFolder ν} (h : st.folders[id]? = some folder) :
      Names st folder.projectId
  | panel {id : ProtocolId} {panel : WorkspacePanel ν} (h : st.panels[id]? = some panel) :
      Names st panel.projectId
  | session {id : ProtocolId} {session : TerminalSession ν}
      (h : st.terminalSessions[id]? = some session) : Names st session.projectId

def Confined (projectId : ProtocolId) (st : WorkspaceState ν) : Prop :=
  (∀ id, Names st id → id = projectId) ∧ st.recentProjectFolders = []

def Presented (st : WorkspaceState ν) (id : ProtocolId) : Prop :=
  ∃ p, st.projects[id]? = some p ∧ isAutomationSpace p = false

def Spaceless (st : WorkspaceState ν) : Prop := ∀ id, Names st id → Presented st id

/-- A project lists its own folders and panels only. -/
def Owned (st : WorkspaceState ν) : Prop :=
  ∀ (id : ProtocolId) (p : WorkspaceProject ν), st.projects[id]? = some p → p.id = id ∧
    (∀ f ∈ p.folderIds, ∀ folder, st.folders[f]? = some folder → folder.projectId = id) ∧
    ∀ q ∈ p.panelIds, ∀ panel, st.panels[q]? = some panel → panel.projectId = id

theorem get_select_some {α : Type} {t : Table.Of ProtocolId α} {shows : ProtocolId → α → Bool}
    {id : ProtocolId} {v : α} (h : (Table.select shows t)[id]? = some v) :
    t[id]? = some v ∧ shows id v = true := by
  rw [Table.get_select] at h
  exact Option.filter_eq_some_iff.mp h

theorem select_all {α : Type} (t : Table.Of ProtocolId α) {shows : ProtocolId → α → Bool}
    (h : ∀ id v, shows id v = true) : Table.select shows t = t := by
  refine Table.ext fun id => ?_
  rw [Table.get_select]
  cases t[id]? <;> simp [h]

theorem get_single {α : Type} {k id : ProtocolId} {v w : α} :
    (Table.ofEntries [(k, v)])[id]? = some w ↔ k = id ∧ v = w := by
  rw [show (Table.ofEntries [(k, v)])[id]? = _ from Table.get_insert ∅ k id v]
  split_ifs with heq <;> simp [heq]

def spaceIds (st : WorkspaceState ν) : List ProtocolId :=
  (st.projects.toList.filter fun e => isAutomationSpace e.2).map (·.2.id)

theorem withheld_eq (st : WorkspaceState ν) : withholdAutomationSpace st =
    { st with
      projects := Table.select (fun id _ => id ∉ spaceIds st) st.projects
      folders := Table.select (fun _ folder => folder.projectId ∉ spaceIds st) st.folders
      panels := Table.select (fun _ panel => panel.projectId ∉ spaceIds st) st.panels
      terminalSessions :=
        Table.select (fun _ session => session.projectId ∉ spaceIds st) st.terminalSessions } := by
  rw [withholdAutomationSpace]
  change (if spaceIds st = [] then st else _) = _
  split_ifs with hnone
  · simp [hnone, select_all]
  · rfl

theorem Owned.withheld (h : Owned st) : Owned (withholdAutomationSpace st) := by
  rw [withheld_eq]
  intro id p hp
  obtain ⟨hid, hfolders, hpanels⟩ := h id p (get_select_some hp).1
  exact ⟨hid, fun f hf folder hget => hfolders f hf folder (get_select_some hget).1,
    fun q hq panel hget => hpanels q hq panel (get_select_some hget).1⟩

theorem get_startState {speaksStartChoice : Bool} {id : ProtocolId} {p : WorkspaceProject ν}
    (h : (startStateFor st speaksStartChoice).projects[id]? = some p) :
    ∃ project start, st.projects[id]? = some project ∧ p = { project with start } := by
  unfold startStateFor at h
  split_ifs at h
  · exact ⟨p, p.start, h, rfl⟩
  · obtain ⟨project, hproject, rfl⟩ :=
      Option.map_eq_some_iff.mp ((Table.get_mapValues _ _ _).symm.trans h)
    exact ⟨project, none, hproject, rfl⟩

theorem Owned.startState (h : Owned st) (speaksStartChoice : Bool) :
    Owned (startStateFor st speaksStartChoice) := by
  intro id p hp
  obtain ⟨project, start, hproject, rfl⟩ := get_startState hp
  cases speaksStartChoice <;> exact h id project hproject

theorem Spaceless.startState (h : Spaceless st) (speaksStartChoice : Bool) :
    Spaceless (startStateFor st speaksStartChoice) := by
  have hpresented : ∀ id, Presented st id → Presented (startStateFor st speaksStartChoice) id := by
    intro id ⟨p, hp, hspace⟩
    unfold startStateFor
    split_ifs
    · exact ⟨p, hp, hspace⟩
    · exact ⟨{ p with start := none }, by rw [Table.get_mapValues, hp]; rfl, hspace⟩
  intro id hid
  refine hpresented id (h id ?_)
  cases hid with
  | project hp =>
    obtain ⟨project, -, hproject, -⟩ := get_startState hp
    exact .project hproject
  | listed hview hp => cases speaksStartChoice <;> exact .listed hview hp
  | active hview hp => cases speaksStartChoice <;> exact .active hview hp
  | folder hget => cases speaksStartChoice <;> exact .folder hget
  | panel hget => cases speaksStartChoice <;> exact .panel hget
  | session hget => cases speaksStartChoice <;> exact .session hget

/-- A claim leaves what belongs to the claimed project, and that project as it is. -/
theorem Owned.scoped (h : Owned st) (hseen : projectScopedState st (some projectId) = .ok seen) :
    (∀ id, Names seen id → id = projectId ∧
      ∃ p, st.projects[id]? = some p ∧ seen.projects[id]? = some p) ∧
      seen.recentProjectFolders = [] := by
  unfold projectScopedState at hseen
  dsimp only at hseen
  split at hseen
  · split_ifs at hseen
    cases hseen
    exact ⟨fun id hid => by cases hid <;> simp_all, rfl⟩
  · rename_i project hproject
    obtain ⟨hid, hfolders, hpanels⟩ := h projectId project hproject
    simp only [bind_ok, Except.ok.injEq] at hseen
    obtain ⟨view, -, rfl⟩ := hseen
    refine ⟨fun id hnames => ?_, rfl⟩
    suffices he : id = projectId from
      ⟨he, project, he ▸ hproject, get_single.mpr ⟨hid.trans he.symm, rfl⟩⟩
    cases hnames with
    | project hp => exact (get_single.mp hp).1.symm.trans hid
    | listed hview hp =>
      rw [← (get_single.mp hview).2] at hp
      exact (List.mem_singleton.mp hp).trans hid
    | active hview hp =>
      rw [← (get_single.mp hview).2] at hp
      exact (Option.some.inj hp).symm.trans hid
    | folder hget =>
      rw [Table.get_pick] at hget
      split_ifs at hget with hmem
      exact hfolders _ hmem _ hget
    | panel hget =>
      rw [Table.get_pick] at hget
      split_ifs at hget with hmem
      exact hpanels _ hmem _ hget
    | session hget => exact eq_of_beq (get_select_some hget).2

section Runs

variable [Engine ν]

theorem owned_of_consistent (h : Consistent st) : Owned st := by
  intro id p hp
  have hvalid := h.projects id p hp
  refine ⟨hvalid.identity, fun f hf folder hget => ?_, fun q hq panel hget => ?_⟩
  · obtain ⟨folder', hget', hown⟩ := hvalid.folders.owns f hf
    rw [hget, Option.some.injEq] at hget'
    rw [hget', hown, hvalid.identity]
  · obtain ⟨panel', hget', hown⟩ := hvalid.panels q hq
    rw [hget, Option.some.injEq] at hget'
    rw [hget', hown]

theorem mem_spaceIds (h : Consistent st) {id : ProtocolId} {p : WorkspaceProject ν}
    (hp : st.projects[id]? = some p) : id ∈ spaceIds st ↔ isAutomationSpace p = true := by
  simp only [spaceIds, List.mem_map, List.mem_filter, Prod.exists, Table.mem_entries]
  constructor
  · intro ⟨k, space, ⟨hspace, hkind⟩, he⟩
    rw [← (h.projects k space hspace).identity, he, hp, Option.some.injEq] at hspace
    exact hspace ▸ hkind
  · exact fun hspace => ⟨id, p, ⟨hp, hspace⟩, (h.projects id p hp).identity⟩

theorem withheld_spaceless (h : Consistent st) : Spaceless (withholdAutomationSpace st) := by
  have hkept : ∀ id, st.projects[id]? ≠ none → id ∉ spaceIds st →
      Presented (withholdAutomationSpace st) id := by
    intro id hp hnot
    obtain ⟨p, hp⟩ := Option.ne_none_iff_exists'.mp hp
    refine ⟨p, ?_, Bool.eq_false_iff.mpr (mt (mem_spaceIds h hp).mpr hnot)⟩
    simp [withheld_eq, Table.get_select, hp, hnot, Option.filter_some]
  have hlisted : ∀ {v id : ProtocolId} {view : WorkspaceView}, st.views[v]? = some view →
      id ∈ view.projectIds → Presented (withholdAutomationSpace st) id := by
    intro v id view hview hmem
    obtain ⟨p, hp, -⟩ := (h.views v view hview).owns id hmem
    exact hkept id (by simp [hp]) fun hspace => (h.projects id p hp).unlisted
      (automationSpace_iff.mp ((mem_spaceIds h hp).mp hspace)) v view hview hmem
  intro id hid
  rw [withheld_eq] at hid
  cases hid with
  | project hget =>
    obtain ⟨hget, hnot⟩ := get_select_some hget
    exact hkept _ (by simp [hget]) (of_decide_eq_true hnot)
  | listed hview hp => exact hlisted hview hp
  | active hview hp => exact hlisted hview ((h.views _ _ hview).active _ hp)
  | folder hget =>
    obtain ⟨hget, hnot⟩ := get_select_some hget
    obtain ⟨p, hp, -⟩ := (h.folders _ _ hget).listed
    exact hkept _ (by simp [hp]) (of_decide_eq_true hnot)
  | panel hget =>
    obtain ⟨hget, hnot⟩ := get_select_some hget
    exact hkept _ (h.panels _ _ hget).project (of_decide_eq_true hnot)
  | session hget =>
    obtain ⟨hget, hnot⟩ := get_select_some hget
    obtain ⟨p, hp, -⟩ := (h.sessions _ _ hget).project
    exact hkept _ (by simp [hp]) (of_decide_eq_true hnot)

/-- The records a connection is sent, with the event of a commit or in a delta. -/
def Sent (s : WorkspaceStore ν) (scope : ReadScope) (record : WorkspaceChangeRecord ν) : Prop :=
  (∃ revision change, changeAt s revision = some change ∧
    changeRecordFor change scope = .ok record) ∨
    ∃ revision records, recordsDelta s revision scope = .ok (some records) ∧ record ∈ records

/-- What a connection is told of a store, by reading it or by its records, is `P`. -/
def Disclosed (scope : ReadScope) (P : WorkspaceState ν → Prop) (s : WorkspaceStore ν) : Prop :=
  (∀ seen, scope.read s.current = .ok seen → P seen) ∧
    ∀ record, Sent s scope record → record.type = none ∧ ∃ before after, P before ∧ P after ∧
      record.difference = workspaceStateDifference before after

/-- Every commit that the store retains leads from a sound state to a sound state. -/
theorem history_sound {s : WorkspaceStore ν} (h : Sound s.current) (hnone : s.history = [])
    (calls : List (StoreCall ν × Bool)) :
    ∀ change ∈ (runCalls s calls).history, Sound change.previous ∧ Sound change.state := by
  induction calls using List.reverseRecOn with
  | nil =>
    rw [runCalls, List.foldl_nil, hnone]
    simp
  | append_singleton calls call ih =>
    have hlast : runCalls s (calls ++ [call]) = call.1.run (runCalls s calls) call.2 := by
      simp [runCalls]
    have hnext := runCalls_sound h (calls ++ [call])
    rw [hlast] at hnext ⊢
    intro change hchange
    rcases run_oneCommit (runCalls_sound h calls) call.1 call.2 with
      ⟨-, hhistory⟩ | ⟨last, hcommit, hcurrent, hhistory, -⟩
    · exact ih change (hhistory ▸ hchange)
    · rcases List.mem_append.mp (hhistory.mem hchange) with hold | hnew
      · exact ih change hold
      · rw [List.mem_singleton.mp hnew]
        exact ⟨hcommit.previous ▸ runCalls_sound h calls, hcurrent ▸ hnext⟩

theorem disclosed_run {s : WorkspaceStore ν} (h : Sound s.current) (hnone : s.history = [])
    (calls : List (StoreCall ν × Bool)) {scope : ReadScope} (hscope : scope.isWhole = false)
    {P : WorkspaceState ν → Prop}
    (hread : ∀ st seen, Consistent st → scope.read st = .ok seen → P seen) :
    Disclosed scope P (runCalls s calls) := by
  refine ⟨fun seen hseen => hread _ _ (runCalls_sound h calls).consistent hseen,
    fun record hsent => ?_⟩
  obtain ⟨change, hmem, hchange⟩ : ∃ change ∈ (runCalls s calls).history,
      changeRecordFor change scope = .ok record := by
    rcases hsent with ⟨revision, change, hat, hchange⟩ | ⟨revision, records, hrecords, hrecord⟩
    · have hmem := (List.takeWhile_sublist _).subset (List.mem_of_find?_eq_some hat)
      exact ⟨change, List.mem_reverse.mp hmem, hchange⟩
    · simp only [recordsDelta, bind_ok] at hrecords
      obtain ⟨changes, hchanges, hrecords⟩ := hrecords
      rcases changes with _ | changes
      · cases hrecords
      simp only [bind_ok, Except.ok.injEq, Option.some.injEq] at hrecords
      obtain ⟨_, hmapped, rfl⟩ := hrecords
      obtain ⟨-, rfl⟩ := delta_ok hchanges
      obtain ⟨change, hmem, hchange⟩ := mem_mapM hmapped hrecord
      exact ⟨change, (List.mem_filter.mp hmem).1, hchange⟩
  obtain ⟨hprevious, hstate⟩ := history_sound h hnone calls change hmem
  rw [changeRecordFor, if_neg (by simp [hscope])] at hchange
  simp only [bind_ok, Except.ok.injEq] at hchange
  obtain ⟨before, hbefore, after, hafter, rfl⟩ := hchange
  exact ⟨rfl, before, after, hread _ _ hprevious.consistent hbefore,
    hread _ _ hstate.consistent hafter, rfl⟩

section Stores
variable {serverId : ProtocolId} {initial : WorkspaceState ν}
  (h : createInitialWorkspace serverId = .ok initial) (maxHistory maxHistoryBytes : ℕ)
  (calls : List (StoreCall ν × Bool)) {scope : ReadScope}

include h

/-- A connection claimed to a project is told of that project alone. -/
theorem claimed_scope_confined (hclaim : scope.claimedProjectId = some projectId) :
    Disclosed scope (Confined projectId)
      (runCalls (newStore initial maxHistory maxHistoryBytes) calls) := by
  obtain ⟨hid, rfl⟩ := createInitialWorkspace_ok.mp h
  refine disclosed_run (initialWorkspace_sound hid) rfl calls (by simp [ReadScope.isWhole, hclaim])
    fun st seen hst hseen => ?_
  rw [ReadScope.read, hclaim] at hseen
  have howned := owned_of_consistent hst
  have hscoped : Owned (if scope.seesAutomationSpace then st else withholdAutomationSpace st) := by
    split_ifs
    exacts [howned, howned.withheld]
  obtain ⟨hnames, hrecents⟩ := (hscoped.startState _).scoped hseen
  exact ⟨fun id hid => (hnames id hid).1, hrecents⟩

/-- A connection that did not negotiate the automation space is told of nothing in it: each project
that a state names for it is in that state, and is no automation space. -/
theorem space_withheld (hspace : scope.seesAutomationSpace = false) :
    Disclosed scope Spaceless (runCalls (newStore initial maxHistory maxHistoryBytes) calls) := by
  obtain ⟨hid, rfl⟩ := createInitialWorkspace_ok.mp h
  refine disclosed_run (initialWorkspace_sound hid) rfl calls (by simp [ReadScope.isWhole, hspace])
    fun st seen hst hseen => ?_
  rw [ReadScope.read, if_neg (by simp [hspace])] at hseen
  have hwithheld := (withheld_spaceless hst).startState scope.seesStartChoice
  rcases hclaim : scope.claimedProjectId with _ | projectId
  · rw [hclaim] at hseen
    cases hseen
    exact hwithheld
  · rw [hclaim] at hseen
    have hscoped := (((owned_of_consistent hst).withheld.startState _).scoped hseen).1
    intro id hnames
    obtain ⟨-, p, hp, hshown⟩ := hscoped id hnames
    obtain ⟨q, hq, hkind⟩ := hwithheld id (.project hp)
    rw [hp, Option.some.injEq] at hq
    exact ⟨p, hshown, hq ▸ hkind⟩

end Stores

def spaceOpened : WorkspaceStore ℤ :=
  runCalls (newStore (initialWorkspace (js "srv")) 1024 8388608)
    (projectOpened ++ [(.ensureAutomationSpace (js "/srv"), true)])

theorem claimed_scope_confined_opened :
    Disclosed ⟨false, true, some (js "p")⟩ (Confined (js "p")) spaceOpened :=
  claimed_scope_confined (createInitialWorkspace_ok.mpr ⟨by decide, rfl⟩) _ _ _ rfl

theorem space_withheld_opened :
    (findAutomationSpace spaceOpened.current).isSome = true ∧
      Disclosed ⟨false, true, none⟩ Spaceless spaceOpened :=
  ⟨by decide +kernel,
    space_withheld (createInitialWorkspace_ok.mpr ⟨by decide, rfl⟩) _ _ _ rfl⟩

end Runs

end Terminay.Protocol
