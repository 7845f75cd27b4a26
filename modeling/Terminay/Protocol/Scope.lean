import Terminay.Workspace.Coherent
import Terminay.Workspace.History

/-!
# What a connection reads

A connection reads a state through its scope: without the automation space it
did not negotiate, without the start choice it cannot present, and within the
project it is claimed to. Its change records lead from what it could read before
a commit to what it can read after it.
-/

namespace Terminay.Protocol
open Script Workspace Outcome

variable {ν : Type}

def withholdAutomationSpace (st : WorkspaceState ν) : WorkspaceState ν :=
  let hidden := (st.projects.toList.filter fun e => isAutomationSpace e.2).map (·.2.id)
  if hidden = [] then st
  else
    { st with
      projects := Table.select (fun id _ => id ∉ hidden) st.projects
      folders := Table.select (fun _ folder => folder.projectId ∉ hidden) st.folders
      panels := Table.select (fun _ panel => panel.projectId ∉ hidden) st.panels
      terminalSessions :=
        Table.select (fun _ session => session.projectId ∉ hidden) st.terminalSessions }

def startStateFor (st : WorkspaceState ν) (speaksStartChoice : Bool) : WorkspaceState ν :=
  if speaksStartChoice then st
  else { st with projects := Table.mapValues (fun _ project => { project with start := none }) st.projects }

/-- A dictionary lookup by a name that every object inherits finds a value that
is no project, on which the engine throws. -/
def projectScopedState (st : WorkspaceState ν) (projectId : Option ProtocolId) :
    Checked (WorkspaceState ν) :=
  match projectId with
  | none => .ok st
  | some projectId =>
    match st.projects[projectId]? with
    | none =>
      if inheritedNames.contains projectId then .error engineTypeError
      else
        .ok { st with
          viewOrder := [], views := ∅, projects := ∅, folders := ∅, panels := ∅,
          terminalSessions := ∅, recentProjectFolders := [] }
    | some project => do
      let view ← demand st.views[project.viewId]? (js "workspace project view is missing")
      let listed : WorkspaceView :=
        { view with projectIds := [project.id], activeProjectId := some project.id }
      .ok { st with
        viewOrder := [view.id]
        views := Table.ofEntries [(view.id, listed)]
        projects := Table.ofEntries [(project.id, project)]
        folders := Table.pick st.folders project.folderIds
        panels := Table.pick st.panels project.panelIds
        terminalSessions :=
          Table.select (fun _ session => session.projectId == projectId) st.terminalSessions
        recentProjectFolders := [] }

/-- What a connection negotiated and is claimed to. -/
structure ReadScope where
  seesAutomationSpace : Bool
  seesStartChoice : Bool
  claimedProjectId : Option ProtocolId

namespace ReadScope

def isWhole (scope : ReadScope) : Bool :=
  scope.seesAutomationSpace && scope.seesStartChoice && scope.claimedProjectId.isNone

def read (scope : ReadScope) (st : WorkspaceState ν) : Checked (WorkspaceState ν) :=
  projectScopedState
    (startStateFor (if scope.seesAutomationSpace then st else withholdAutomationSpace st)
      scope.seesStartChoice)
    scope.claimedProjectId

theorem read_whole {scope : ReadScope} (h : scope.isWhole = true) (st : WorkspaceState ν) :
    scope.read st = .ok st := by
  simp only [isWhole, Bool.and_eq_true, Option.isNone_iff_eq_none] at h
  obtain ⟨⟨hspace, hstart⟩, hclaim⟩ := h
  simp [read, hspace, hstart, hclaim, startStateFor, projectScopedState]

end ReadScope

section Records
variable [DecidableEq ν]

def changeRecordFor (change : CommittedChange ν) (scope : ReadScope) :
    Checked (WorkspaceChangeRecord ν) :=
  if scope.isWhole then .ok change.record
  else do
    let before ← scope.read change.previous
    let after ← scope.read change.state
    .ok { fromRevision := change.record.fromRevision, revision := change.record.revision,
          cursor := change.record.cursor, type := none,
          difference := workspaceStateDifference before after }

def recordsDelta [Engine ν] (s : WorkspaceStore ν) (revision : ℕ) (scope : ReadScope) :
    Checked (Option (List (WorkspaceChangeRecord ν))) := do
  match ← delta s revision with
  | none => .ok none
  | some changes => do .ok (some (← changes.mapM fun change => changeRecordFor change scope))

end Records

/-! ## Applying records -/

def applyCollection {α : Type} (held : Table.Of ProtocolId α) (change : CollectionChange α) :
    Table.Of ProtocolId α :=
  Table.merge (Table.eraseAll held change.removed) change.changed

def gapMessage (held from_ : ℕ) : Str :=
  js "workspace change starts from revision " ++ natText from_ ++ js ", not the held revision " ++
    natText held

def applyRecord (previous : WorkspaceState ν) (record : WorkspaceChangeRecord ν) :
    Checked (WorkspaceState ν) :=
  let d := record.difference
  if record.fromRevision ≠ previous.revision then
    .error (gapMessage previous.revision record.fromRevision)
  else
    .ok { previous with
      revision := record.revision
      cursor := record.cursor
      viewOrder := d.viewOrder.getD previous.viewOrder
      views := applyCollection previous.views d.views
      projects := applyCollection previous.projects d.projects
      folders := applyCollection previous.folders d.folders
      panels := applyCollection previous.panels d.panels
      terminalSessions := applyCollection previous.terminalSessions d.terminalSessions
      recentProjectFolders := d.recentProjectFolders.getD previous.recentProjectFolders }

def applyWorkspaceChangeRecords (previous : WorkspaceState ν)
    (records : List (WorkspaceChangeRecord ν)) : Checked (WorkspaceState ν) :=
  records.foldlM applyRecord previous

theorem applyCollection_difference {α : Type} [DecidableEq α] (before after : Table.Of ProtocolId α) :
    applyCollection before (collectionDifference before after) = after := by
  refine Table.ext fun id => ?_
  have hremoved : id ∈ (collectionDifference before after).removed ↔
      before[id]? ≠ none ∧ after[id]? = none := by
    simp only [collectionDifference, List.mem_filter, Table.mem_keys, decide_eq_true_eq]
  rw [applyCollection, Table.get_merge, Table.get_eraseAll]
  have hchanged : (collectionDifference before after).changed[id]? =
      after[id]?.filter fun object => before[id]? ≠ some object := Table.get_select _ _ _
  rw [hchanged]
  rcases hafter : after[id]? with _ | object
  · by_cases hbefore : before[id]? = none
    · simp [hbefore]
    · rw [if_pos (hremoved.mpr ⟨hbefore, hafter⟩)]
      rfl
  · have hkept : id ∉ (collectionDifference before after).removed := fun hm => by
      rw [hafter] at hremoved
      exact absurd (hremoved.mp hm).2 (by simp)
    rw [if_neg hkept]
    by_cases hbefore : before[id]? = some object
    · simp [hbefore, Option.filter_some]
    · simp [hbefore, Option.filter_some]

section Records
variable [DecidableEq ν]

theorem applyRecord_difference {before after : WorkspaceState ν} {record : WorkspaceChangeRecord ν}
    (hserver : after.serverId = before.serverId)
    (hschema : after.schemaVersion = before.schemaVersion)
    (hfrom : record.fromRevision = before.revision) (hrevision : record.revision = after.revision)
    (hcursor : record.cursor = after.cursor)
    (hdifference : record.difference = workspaceStateDifference before after) :
    applyRecord before record = .ok after := by
  have horder : ∀ {α : Type} [DecidableEq α] (x y : α),
      (if x = y then none else some y).getD x = y := by
    intro α _ x y
    split_ifs with h
    · exact h
    · rfl
  simp only [applyRecord, hfrom, ne_eq, not_true_eq_false, if_false, hdifference,
    workspaceStateDifference, applyCollection_difference, horder, hrevision, hcursor]
  rw [← hserver, ← hschema]

end Records

theorem projectScopedState_head {st st' : WorkspaceState ν} {projectId : Option ProtocolId}
    (h : projectScopedState st projectId = .ok st') :
    (st'.serverId = st.serverId ∧ st'.schemaVersion = st.schemaVersion) ∧
      st'.revision = st.revision ∧ st'.cursor = st.cursor := by
  unfold projectScopedState at h
  split at h
  · cases h
    exact ⟨⟨rfl, rfl⟩, rfl, rfl⟩
  · split at h
    · split at h
      · cases h
      · cases h
        exact ⟨⟨rfl, rfl⟩, rfl, rfl⟩
    · simp only [bind_ok, Except.ok.injEq] at h
      obtain ⟨view, -, rfl⟩ := h
      exact ⟨⟨rfl, rfl⟩, rfl, rfl⟩

namespace ReadScope

theorem read_head {scope : ReadScope} {st st' : WorkspaceState ν} (h : scope.read st = .ok st') :
    (st'.serverId = st.serverId ∧ st'.schemaVersion = st.schemaVersion) ∧
      st'.revision = st.revision ∧ st'.cursor = st.cursor := by
  have hhead := projectScopedState_head h
  have hstart : ∀ (s : WorkspaceState ν) (b : Bool), ((startStateFor s b).serverId = s.serverId ∧
      (startStateFor s b).schemaVersion = s.schemaVersion) ∧
      (startStateFor s b).revision = s.revision ∧ (startStateFor s b).cursor = s.cursor := by
    intro s b
    cases b <;> exact ⟨⟨rfl, rfl⟩, rfl, rfl⟩
  have hwithheld : ∀ s : WorkspaceState ν, ((withholdAutomationSpace s).serverId = s.serverId ∧
      (withholdAutomationSpace s).schemaVersion = s.schemaVersion) ∧
      (withholdAutomationSpace s).revision = s.revision ∧
      (withholdAutomationSpace s).cursor = s.cursor := by
    intro s
    simp only [withholdAutomationSpace]
    split_ifs <;> exact ⟨⟨rfl, rfl⟩, rfl, rfl⟩
  rcases hspace : scope.seesAutomationSpace
  · simpa [hspace, hstart, hwithheld] using hhead
  · simpa [hspace, hstart] using hhead

end ReadScope

variable [Engine ν]

/-! ## Scoped records are exact -/

/-- The record of one commit leads from what a connection could read before it
to what it can read after. -/
theorem record_leads {st : WorkspaceState ν} {change : CommittedChange ν} (hc : Commits st change)
    {scope : ReadScope} {before after : WorkspaceState ν} (hbefore : scope.read st = .ok before)
    (hafter : scope.read change.state = .ok after) :
    ∃ record, changeRecordFor change scope = .ok record ∧ applyRecord before record = .ok after := by
  unfold changeRecordFor
  split_ifs with hwhole
  · rw [ReadScope.read_whole hwhole] at hbefore hafter
    cases hbefore
    cases hafter
    exact ⟨_, rfl, applyRecord_difference hc.serverId hc.schema hc.fromRevision hc.recorded hc.cursor
      hc.difference⟩
  · obtain ⟨⟨hserver, hschema⟩, hrevision, hcursor⟩ := ReadScope.read_head hbefore
    obtain ⟨⟨hserver', hschema'⟩, hrevision', hcursor'⟩ := ReadScope.read_head hafter
    refine ⟨_, bind_ok.mpr ⟨before, hc.previous ▸ hbefore, bind_ok.mpr ⟨after, hafter, rfl⟩⟩,
      applyRecord_difference ?_ ?_ ?_ ?_ ?_ rfl⟩
    · rw [hserver', hc.serverId, hserver]
    · rw [hschema', hc.schema, hschema]
    · exact hc.fromRevision.trans hrevision.symm
    · exact hc.recorded.trans hrevision'.symm
    · exact hc.cursor.trans hcursor'.symm

theorem record_readable {change : CommittedChange ν} {scope : ReadScope}
    {record : WorkspaceChangeRecord ν} (h : changeRecordFor change scope = .ok record) :
    ∃ after, scope.read change.state = .ok after := by
  unfold changeRecordFor at h
  split_ifs at h with hwhole
  · exact ⟨_, ReadScope.read_whole hwhole _⟩
  · simp only [bind_ok] at h
    obtain ⟨before, -, after, hafter, -⟩ := h
    exact ⟨after, hafter⟩

/-- The records of a chain of commits, in order, lead along the whole chain. -/
theorem records_lead {st st' : WorkspaceState ν} {changes : List (CommittedChange ν)}
    (hc : Chain st changes st') {scope : ReadScope} {records : List (WorkspaceChangeRecord ν)}
    (hrecords : changes.mapM (fun change => changeRecordFor change scope) = .ok records)
    {before : WorkspaceState ν} (hbefore : scope.read st = .ok before) :
    ∃ after, scope.read st' = .ok after ∧ applyWorkspaceChangeRecords before records = .ok after := by
  induction changes generalizing st before records with
  | nil =>
    cases hrecords
    have he : st = st' := hc
    exact ⟨before, he ▸ hbefore, rfl⟩
  | cons change changes ih =>
    simp only [List.mapM_cons, bind_ok, pure_ok] at hrecords
    obtain ⟨record, hrecord, rest, hrest, rfl⟩ := hrecords
    obtain ⟨next, hnext⟩ := record_readable hrecord
    obtain ⟨record', hrecord', happly⟩ := record_leads hc.1 hbefore hnext
    rw [hrecord, Except.ok.injEq] at hrecord'
    subst hrecord'
    obtain ⟨after, hafter, hfold⟩ := ih hc.2 hrest hnext
    refine ⟨after, hafter, ?_⟩
    rw [applyWorkspaceChangeRecords, List.foldlM_cons, bind_ok]
    exact ⟨next, happly, hfold⟩

/-- A commit's record is exact, and so are the records since any revision that
the store still reaches. -/
theorem scoped_records_exact {serverId : ProtocolId} {initial : WorkspaceState ν}
    (h : createInitialWorkspace serverId = .ok initial) (maxHistory maxHistoryBytes : ℕ)
    (calls : List (StoreCall ν × Bool)) (scope : ReadScope) :
    let s := runCalls (newStore initial maxHistory maxHistoryBytes) calls
    (∀ (call : StoreCall ν) (written : Bool), (call.run s written).current = s.current ∨
      ∃ change, changeAt (call.run s written) (s.current.revision + 1) = some change ∧
        ∀ before after, scope.read s.current = .ok before →
          scope.read (call.run s written).current = .ok after →
          ∃ record, changeRecordFor change scope = .ok record ∧
            applyRecord before record = .ok after) ∧
      ∀ (later : List (StoreCall ν × Bool)) (records : List (WorkspaceChangeRecord ν))
        (before : WorkspaceState ν),
        recordsDelta (runCalls s later) s.current.revision scope = .ok (some records) →
        scope.read s.current = .ok before →
        ∃ after, scope.read (runCalls s later).current = .ok after ∧
          applyWorkspaceChangeRecords before records = .ok after := by
  intro s
  obtain ⟨hid, rfl⟩ := createInitialWorkspace_ok.mp h
  have hinitial : Sound (newStore (initialWorkspace serverId : WorkspaceState ν) maxHistory
      maxHistoryBytes).current := initialWorkspace_sound hid
  have hsound : Sound s.current := runCalls_sound hinitial calls
  refine ⟨fun call written => ?_, fun later records before hdelta hbefore => ?_⟩
  · rcases run_oneCommit hsound call written with ⟨hsame, -⟩ | ⟨change, hcommit, hcurrent, -, hlast⟩
    · exact Or.inl hsame
    · refine Or.inr ⟨change, changeAt_last hlast hcommit.event, fun before after hbefore hafter => ?_⟩
      exact record_leads hcommit hbefore (hcurrent ▸ hafter)
  · simp only [recordsDelta, bind_ok] at hdelta
    obtain ⟨changes, hchanges, hrecords⟩ := hdelta
    rcases changes with _ | changes
    · cases hrecords
    · simp only [bind_ok, Except.ok.injEq, Option.some.injEq] at hrecords
      obtain ⟨_, hrecords, rfl⟩ := hrecords
      have hsplit : runCalls s later =
          runCalls (newStore (initialWorkspace serverId) maxHistory maxHistoryBytes)
            (calls ++ later) := List.foldl_append.symm
      rw [hsplit] at hchanges ⊢
      exact records_lead (delta_since hinitial rfl calls later hchanges) hrecords hbefore

def projectOpened : List (StoreCall ℤ × Bool) :=
  [(.apply ⟨js "c1", none, ⟨js "project.create",
    Table.ofEntries [(js "projectId", .str (js "p")), (js "viewId", .str (js "srv:view:default")),
      (js "root", .str (js "/home"))]⟩⟩ 0, true)]

/-- The claimed project enters the scope with the record that opens it. -/
theorem opened_project_record :
    let s : WorkspaceStore ℤ := newStore (initialWorkspace (js "srv")) 1024 8388608
    let scope : ReadScope := ⟨false, true, some (js "p")⟩
    ∃ records before after, recordsDelta (runCalls s projectOpened) 0 scope = .ok (some records) ∧
      scope.read s.current = .ok before ∧
      scope.read (runCalls s projectOpened).current = .ok after ∧
      applyWorkspaceChangeRecords before records = .ok after := by
  intro s scope
  have hinitial : createInitialWorkspace (js "srv") =
      .ok (initialWorkspace (js "srv") : WorkspaceState ℤ) := rfl
  have hdelta : (recordsDelta (runCalls s projectOpened) 0 scope).toOption.join.isSome = true := by
    decide +kernel
  obtain ⟨records, hrecords⟩ := Option.isSome_iff_exists.mp hdelta
  have hanswer : recordsDelta (runCalls s projectOpened) 0 scope = .ok (some records) := by
    rcases hd : recordsDelta (runCalls s projectOpened) 0 scope with message | answer
    · simp [hd, Except.toOption] at hrecords
    · rw [hd] at hrecords
      exact congrArg Except.ok hrecords
  obtain ⟨before, hbefore⟩ : ∃ before, scope.read s.current = .ok before :=
    isOk_iff.mp (by decide +kernel)
  obtain ⟨after, hafter, happly⟩ :=
    (scoped_records_exact hinitial 1024 8388608 [] scope).2 projectOpened records before hanswer hbefore
  exact ⟨records, before, after, hanswer, hbefore, hafter, happly⟩

end Terminay.Protocol
