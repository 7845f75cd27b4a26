import Terminay.Workspace.StoreSettled

/-!
# Which session a terminal panel names

Two terminal panels that name one session can neither be closed.
-/

namespace Terminay.Workspace
open Script Outcome

variable {ν : Type} [Engine ν] {st : WorkspaceState ν} {c : Fields ν}

def SessionsDistinct (st : WorkspaceState ν) : Prop :=
  ∀ (i j : ProtocolId) (p q : WorkspacePanel ν), st.panels[i]? = some p → st.panels[j]? = some q →
    p.isTerminal = true → q.isTerminal = true → p.sessionKey = q.sessionKey → i = j

def WorkspacePanel.shows (p : WorkspacePanel ν) : Bool × ProtocolId := (p.isTerminal, p.sessionKey)

def PanelsKept (st st' : WorkspaceState ν) : Prop :=
  ∀ (id : ProtocolId) (q : WorkspacePanel ν), st'.panels[id]? = some q →
    ∃ p, st.panels[id]? = some p ∧ p.shows = q.shows

theorem PanelsKept.of_eq {st' : WorkspaceState ν} (h : st'.panels = st.panels) :
    PanelsKept st st' := fun _ q hq => ⟨q, h ▸ hq, rfl⟩

theorem SessionsDistinct.of_kept {st' : WorkspaceState ν} (h : SessionsDistinct st)
    (hk : PanelsKept st st') : SessionsDistinct st' := by
  intro i j p q hp hq hpt hqt hkey
  obtain ⟨p', hp', hps⟩ := hk i p hp
  obtain ⟨q', hq', hqs⟩ := hk j q hq
  simp only [WorkspacePanel.shows, Prod.mk.injEq] at hps hqs
  apply h i j p' q' hp' hq'
  · rw [hps.1, hpt]
  · rw [hqs.1, hqt]
  · rw [hps.2, hqs.2, hkey]

section

omit [Engine ν]

theorem syncProject_panels {pid : ProtocolId} {active : Option ProtocolId} :
    (syncProject st pid active).panels = st.panels := by
  unfold syncProject
  split <;> rfl

theorem syncProject_sessions {pid : ProtocolId} {active : Option ProtocolId} :
    (syncProject st pid active).terminalSessions = st.terminalSessions := by
  unfold syncProject
  split <;> rfl

theorem leaveFolder_panels {panel : WorkspacePanel ν} {target : WorkspaceFolder ν} :
    Ensures (leaveFolder st panel target) fun st' => st'.panels = st.panels := by
  refine .ite (fun _ st' h => ?_) fun _ => .ok rfl
  obtain ⟨-, folder, -, rfl⟩ := removeFromFolder_ok.mp h
  rfl

end

theorem movePanelToFolder_kept (p : ProtocolId) (folderId index : Option (Json ν)) :
    Ensures (movePanelToFolder st p folderId index) (PanelsKept st) := by
  refine .bind fun panel hpanel => .bind fun target _ => .bind fun _ _ => .bind fun st1 hleave =>
    .bind fun current _ => .bind fun position _ => .ok fun id q hq => ?_
  obtain ⟨k, hk, -, hp⟩ := requirePanel_ok.mp hpanel
  cases hk
  rw [syncProject_panels, Table.get_insert, leaveFolder_panels st1 hleave] at hq
  split_ifs at hq with he
  · cases hq
    exact ⟨panel, he ▸ hp, rfl⟩
  · exact ⟨q, hq, rfl⟩

theorem project_of_session (hc : Consistent st) {i j : ProtocolId} {p q : WorkspacePanel ν}
    (hp : st.panels[i]? = some p) (hq : st.panels[j]? = some q) (hpt : p.isTerminal = true)
    (hqt : q.isTerminal = true) (hkey : p.sessionKey = q.sessionKey) :
    p.projectId = q.projectId := by
  obtain ⟨session, hs, hown⟩ := (hc.panels i p hp).session hpt
  obtain ⟨session', hs', hown'⟩ := (hc.panels j q hq).session hqt
  rw [hkey, hs', Option.some.injEq] at hs
  exact hown.symm.trans (hs ▸ hown')

theorem SessionsDistinct.insert (h : SessionsDistinct st) {id : ProtocolId}
    {panel : WorkspacePanel ν} {st' : WorkspaceState ν} (hc : Consistent st')
    (hpanels : st'.panels = st.panels.insert id panel)
    (hnew : panel.isTerminal = true → ∀ (j : ProtocolId) (q : WorkspacePanel ν),
      st.panels[j]? = some q → j ≠ id → q.isTerminal = true → q.projectId = panel.projectId →
      q.sessionKey ≠ panel.sessionKey) : SessionsDistinct st' := by
  intro i j p q hp hq hpt hqt hkey
  have hproj := project_of_session hc hp hq hpt hqt hkey
  rw [hpanels, Table.get_insert] at hp hq
  split_ifs at hp with hi
  · split_ifs at hq with hj
    · exact hi.symm.trans hj
    · cases hp
      exact absurd hkey.symm (hnew hpt j q hq (Ne.symm hj) hqt hproj.symm)
  · split_ifs at hq with hj
    · cases hq
      exact absurd hkey (hnew hqt i p hp (Ne.symm hi) hpt hproj)
    · exact h i j p q hp hq hpt hqt hkey

structure GivenSession where
  panelId : ProtocolId
  projectId : ProtocolId
  sessionKey : ProtocolId

def givenSession (st : WorkspaceState ν) (command : Command ν) : Option GivenSession :=
  match command.kind with
  | some .panelCreate =>
    let input := ((command.fields.at "panel").bind Json.object?).getD ∅
    if input.at "type" = some (.str (js "terminal")) then
      some ⟨propertyKey (input.at "id"), propertyKey (input.at "projectId"),
        propertyKey (input.at "sessionId")⟩
    else none
  | some .panelUpdate =>
    let patch := ((command.fields.at "patch").bind Json.object?).getD ∅
    match st.panels[propertyKey (command.fields.at "panelId")]?, patch.at "sessionId" with
    | some panel, some sessionId =>
      if panel.isTerminal then some ⟨panel.id, panel.projectId, propertyKey (some sessionId)⟩
      else none
    | _, _ => none
  | _ => none

/-- No other terminal panel of its project names the session that the command
gives a panel. -/
def GivesOwnSession (st : WorkspaceState ν) (command : Command ν) : Prop :=
  ∀ given ∈ givenSession st command, ∀ e ∈ st.panels.toList, e.1 ≠ given.panelId →
    e.2.isTerminal = true → e.2.projectId = given.projectId → e.2.sessionKey ≠ given.sessionKey

instance (st : WorkspaceState ν) (command : Command ν) : Decidable (GivesOwnSession st command) :=
  inferInstanceAs (Decidable (∀ given ∈ givenSession st command, ∀ e ∈ st.panels.toList,
    e.1 ≠ given.panelId → e.2.isTerminal = true → e.2.projectId = given.projectId →
      e.2.sessionKey ≠ given.sessionKey))

def CommandType.editsPanels : CommandType → Bool
  | projectClose | panelCreate | panelUpdate | panelMoveToFolder | folderOfferAccept | panelMove
  | panelClose | terminalCreatePanel => true
  | _ => false

omit [Engine ν] in
theorem markSession_panels {sessionId : ProtocolId} {mark : TerminalSession ν → TerminalSession ν}
    {r : Edited ν} (h : markSession st sessionId mark = some r) : r.1.panels = st.panels := by
  obtain ⟨sessions, hr⟩ := markSession_ok h
  rw [hr]

theorem edit_panels {t : CommandType} (ht : t.editsPanels = false) (now : ν) :
    Ensures (t.edit st c now) fun r => r.1.panels = st.panels := by
  cases t <;> first | exact absurd ht (by decide) | simp only [CommandType.edit]
  case terminalMarkInterrupted =>
    intro r h
    exact markSession_panels (demand_ok.mp h)
  case terminalMarkExited =>
    refine .ok ?_
    rcases hm : markSession st _ _ with _ | marked
    · rfl
    · exact markSession_panels hm
  all_goals
    repeat first
      | exact .error
      | exact .ok rfl
      | exact .ok syncProject_panels
      | refine .ite (fun _ => ?_) fun _ => ?_
      | refine .bind fun _ _ => ?_

theorem PanelsKept.of_erased {st' : WorkspaceState ν}
    (h : ∀ (id : ProtocolId) (q : WorkspacePanel ν), st'.panels[id]? = some q →
      st.panels[id]? = some q) : PanelsKept st st' :=
  fun id q hq => ⟨q, h id q hq, rfl⟩

theorem projectClose_kept : Ensures (projectClose st c) fun r => PanelsKept st r.1 := by
  refine .bind fun project _ => .bind fun view _ => .ok (.of_erased fun id q hq => ?_)
  rw [Table.get_eraseAll] at hq
  split_ifs at hq
  exact hq

theorem panelMoveToFolder_kept : Ensures (panelMoveToFolder st c) fun r => PanelsKept st r.1 :=
  .bind fun _ _ => .bind fun st1 hmove => .ok (movePanelToFolder_kept _ _ _ st1 hmove)

theorem folderOfferAccept_kept : Ensures (folderOfferAccept st c) fun r => PanelsKept st r.1 :=
  .bind fun _ _ => .bind fun _ _ => .bind fun st1 hmove =>
    .ok (movePanelToFolder_kept _ _ _ st1 hmove)

omit [Engine ν] in
theorem removeFromFolder_panels {folderId panelId : ProtocolId} :
    Ensures (removeFromFolder st folderId panelId) fun st' => st'.panels = st.panels := by
  intro st' h
  obtain ⟨-, folder, -, rfl⟩ := removeFromFolder_ok.mp h
  rfl

theorem panelMove_kept (hc : Consistent st) :
    Ensures (panelMove st c) fun r => PanelsKept st r.1 := by
  refine .bind fun panel hpanel => .bind fun source _ => .bind fun target _ => .bind fun _ _ =>
    .bind fun folder _ => .ite (fun _ => ?_) fun _ => ?_
  · exact .bind fun st1 hmove => .ok (movePanelToFolder_kept _ _ _ st1 hmove)
  · refine .bind fun st1 hremove => .bind fun position _ => .bind fun st4 hrehome => .ok ?_
    obtain ⟨p, -, -, hp⟩ := requirePanel_ok.mp hpanel
    obtain ⟨sessions, rfl⟩ := rehomeSession_ok hrehome
    intro id q hq
    rw [syncProject_panels, syncProject_panels, Table.get_insert,
      removeFromFolder_panels st1 hremove] at hq
    split_ifs at hq with he
    · cases hq
      rw [← (hc.panels p panel hp).identity, he] at hp
      exact ⟨panel, hp, rfl⟩
    · exact ⟨q, hq, rfl⟩

theorem panelClose_kept : Ensures (panelClose st c) fun r => PanelsKept st r.1 := by
  refine .bind fun panel _ => .bind fun project _ => .bind fun st2 hremove =>
    .ok (.of_erased fun id q hq => ?_)
  rw [syncProject_panels, removeFromFolder_panels st2 hremove] at hq
  rw [forgetPanelReferences, Table.get_erase] at hq
  split_ifs at hq
  exact hq

/-! ## Commands that give a panel its session -/

omit [Engine ν] in
theorem showPanel_panels {project : WorkspaceProject ν} {folder : WorkspaceFolder ν}
    {panel : WorkspacePanel ν} :
    (showPanel st project folder panel).panels = st.panels.insert panel.id panel :=
  syncProject_panels

omit [Engine ν] in
theorem withField_at {fields : Fields ν} {name key : String} {value : Option (Json ν)}
    (hkey : js name ≠ js key) : (withField fields name value).at key = fields.at key := by
  cases value with
  | none => rfl
  | some j => exact Table.get_insert_of_ne _ _ hkey

theorem withTitleSources_at {fields : Fields ν} {sources : TerminalTitleSources ν} {key : String}
    (hkey : js key ∉ [js "title", js "defaultTitle", js "namedTitle", js "programTitle"]) :
    (withTitleSources fields sources).at key = fields.at key := by
  simp only [withTitleSources]
  rw [withField_at fun he => hkey (by simp [← he]), Fields.at, Table.get_insert_of_ne _ _ fun he => hkey (by simp [← he]),
    Table.get_insert_of_ne _ _ fun he => hkey (by simp [← he]), Table.get_eraseAll, if_neg hkey]
  rfl

omit [Engine ν] in
theorem isTerminal_of_type {p q : WorkspacePanel ν} (h : p.at "type" = q.at "type") :
    p.isTerminal = q.isTerminal := by
  simp only [WorkspacePanel.isTerminal, h]

omit [Engine ν] in
theorem isTerminal_iff {p : WorkspacePanel ν} :
    p.isTerminal = true ↔ p.at "type" = some (.str (js "terminal")) := by
  unfold WorkspacePanel.isTerminal
  split
  · rename_i s hs
    rw [hs, beq_iff_eq, Option.some.injEq, Json.str.injEq]
  · rename_i hne
    simp only [Bool.false_eq_true, false_iff]
    exact hne _

theorem unnamed_of_free (hc : Consistent st) {sessionId : ProtocolId}
    (hfree : occupied st.terminalSessions sessionId ≠ true) {j : ProtocolId} {q : WorkspacePanel ν}
    (hq : st.panels[j]? = some q) (hqt : q.isTerminal = true) : q.sessionKey ≠ sessionId := by
  intro he
  obtain ⟨session, hsession, -⟩ := (hc.panels j q hq).session hqt
  rw [he, free_of_occupied hfree] at hsession
  cases hsession

theorem terminalCreatePanel_distinct (hc : Consistent st) (hd : SessionsDistinct st) {now : ν} :
    Ensures (terminalCreatePanel st c now) fun r => Consistent r.1 → SessionsDistinct r.1 := by
  refine .bind fun sessionId _ => .bind fun panelId _ => .bind fun _ hfree => .bind fun _ _ =>
    .bind fun project _ => .bind fun _ _ => .bind fun folder _ => .bind fun launch _ =>
    .bind fun cwd _ => .bind fun titles _ => .ok fun hc' => ?_
  refine hd.insert hc' showPanel_panels fun _ j q hq _ hqt _ => ?_
  have hkey := unnamed_of_free hc (refuseIf_ok.mp hfree) hq hqt
  have hgiven : ∀ fields : Fields ν, fields.at "sessionId" = some (.str sessionId) →
      propertyKey ((withTitleSources (withField fields "cwd" (cwd.map .str)) titles).at
        "sessionId") = sessionId := by
    intro fields hf
    rw [withTitleSources_at (by decide), withField_at (by decide), hf, propertyKey_str]
  refine fun he => hkey (he.trans (hgiven _ ?_))
  have hother : js "createdAt" ≠ js "sessionId" := by decide
  exact (Table.get_insert_of_ne _ _ hother).trans Std.ExtTreeMap.getElem?_insert_self

theorem createdFields_at {panel : WorkspacePanel ν} {title : Option (Json ν)} {key : String}
    (hkey : js key ∉ [js "title", js "defaultTitle", js "namedTitle", js "programTitle"]) :
    Ensures (createdFields st panel title) fun fields => fields.at key = panel.fields.at key :=
  .ite (fun _ => .bind fun _ _ => .ok (withTitleSources_at hkey)) fun _ => .ok rfl

theorem panelCreate_distinct (hd : SessionsDistinct st) {command : Command ν}
    (hkind : command.kind = some .panelCreate) (hown : GivesOwnSession st command) :
    Ensures (panelCreate st command.fields) fun r => Consistent r.1 → SessionsDistinct r.1 := by
  refine .bind fun input hinput => .bind fun panelId hid => .bind fun _ _ => .bind fun project _ =>
    .bind fun _ _ => .bind fun _ _ => .bind fun folder _ => .bind fun fields hfields => .ok fun hc' => ?_
  refine hd.insert hc' showPanel_panels fun hterm j q hq hne hqt hproj => ?_
  have hread : ∀ key : String, js key ∉ [js "title", js "defaultTitle", js "namedTitle",
      js "programTitle"] → js key ∉ [js "id", js "projectId", js "folderId"] →
      fields.at key = input.at key := by
    intro key htitle hkey
    rw [createdFields_at htitle fields hfields, Fields.at, Table.get_eraseAll, if_neg hkey]
    rfl
  have hsame : input = ((command.fields.at "panel").bind Json.object?).getD ∅ := by
    unfold panelField at hinput
    split at hinput
    · cases hinput
    · cases hinput
    · rename_i j _ hj
      cases hinput
      rw [hj]
      rfl
  have htype : input.at "type" = some (.str (js "terminal")) := by
    rw [isTerminal_iff, WorkspacePanel.at, hread _ (by decide) (by decide)] at hterm
    exact hterm
  have hgiven : givenSession st command =
      some ⟨panelId, propertyKey (input.at "projectId"), propertyKey (input.at "sessionId")⟩ := by
    obtain ⟨hid, -⟩ := assertId_ok.mp hid
    simp only [givenSession, hkind, ← hsame, if_pos htype, hid, propertyKey_str]
  have hkey := hown _ hgiven (j, q) (Table.mem_entries.mpr hq) hne hqt hproj
  have hsession : fields.at "sessionId" = input.at "sessionId" :=
    hread _ (by decide) (by decide)
  exact fun he => hkey (he.trans (congrArg propertyKey hsession))

theorem patchedFields_at {panel : WorkspacePanel ν} {patch : Fields ν} {key : String}
    (hkey : js "note" ≠ js key) :
    Ensures (patchedFields panel patch) fun next =>
      next.at key = (patch.at key).or (panel.at key) := by
  have hmerged : Fields.at (Table.merge panel.fields (patch.erase (js "note"))) key =
      (patch.at key).or (panel.at key) := by
    rw [Fields.at, Table.get_merge, Table.get_erase_of_ne _ hkey]
    rfl
  unfold patchedFields
  split
  · exact .ok hmerged
  · refine .bind fun _ _ => .ite (fun _ => .ok ?_) fun _ => .bind fun _ _ => .ok ?_
    · exact (Table.get_erase_of_ne _ hkey).trans hmerged
    · exact (Table.get_insert_of_ne _ _ hkey).trans hmerged

theorem updatedFields_at {panel : WorkspacePanel ν} {patch next : Fields ν} {key : String}
    (hkey : js key ∉ [js "title", js "defaultTitle", js "namedTitle", js "programTitle"])
    (hrev : js "metadataRevision" ≠ js key) :
    Ensures (updatedFields st panel patch next) fun fields => fields.at key = next.at key := by
  refine .ite (fun _ => .bind fun sources _ => .bind fun renamed _ => .ok ?_) fun _ => .ok rfl
  split_ifs
  · exact (Table.get_insert_of_ne _ _ hrev).trans (withTitleSources_at hkey)
  · exact withTitleSources_at hkey

theorem panelUpdate_distinct (hc : Consistent st) (hd : SessionsDistinct st) {command : Command ν}
    (hkind : command.kind = some .panelUpdate) (hown : GivesOwnSession st command) :
    Ensures (panelUpdate st command.fields) fun r => Consistent r.1 → SessionsDistinct r.1 := by
  refine .bind fun panel hpanel => .bind fun patch hpatch => .bind fun _ himmutable =>
    .bind fun _ _ => .bind fun _ _ => .bind fun next hnext => .bind fun fields hfields =>
    .ok fun hc' => ?_
  obtain ⟨id, hid, -, hp⟩ := requirePanel_ok.mp hpanel
  have hidentity : panel.id = id := (hc.panels id panel hp).identity
  have htype : fields.at "type" = panel.at "type" := by
    have habsent := refuseIf_ok.mp himmutable
    simp only [immutablePanelKeys, isIn, List.any_cons, List.any_nil, Bool.or_false, Bool.or_eq_true,
      not_or, Option.not_isSome_iff_eq_none] at habsent
    rw [updatedFields_at (by decide) (by decide) fields hfields,
      patchedFields_at (by decide) next hnext, habsent.2.2.2, Option.none_or]
  have hsession : fields.at "sessionId" = (patch.at "sessionId").or (panel.at "sessionId") := by
    rw [updatedFields_at (by decide) (by decide) fields hfields,
      patchedFields_at (by decide) next hnext]
  refine hd.insert hc' rfl fun hterm j q hq hne hqt hproj => ?_
  have hpt : panel.isTerminal = true := (isTerminal_of_type (p := { panel with fields := fields }) (q := panel) htype).symm.trans hterm
  intro he
  rcases hs : patch.at "sessionId" with _ | given
  · rw [hs, Option.none_or] at hsession
    rw [hidentity] at hne
    exact hne (hd j id q panel hq hp hqt hpt (he.trans (congrArg propertyKey hsession)))
  · have hgiven : givenSession st command =
        some ⟨panel.id, panel.projectId, propertyKey (some given)⟩ := by
      simp only [givenSession, hkind, hid, propertyKey_str, hp, demand_ok.mp hpatch,
        Option.getD_some, hs, hpt, if_true]
    rw [hs, Option.some_or] at hsession
    exact hown _ hgiven (j, q) (Table.mem_entries.mpr hq) hne hqt hproj
      (he.trans (congrArg propertyKey hsession))

/-- A command that gives no panel the session of another keeps sessions apart. -/
theorem edit_distinct (hc : Consistent st) (hd : SessionsDistinct st) {command : Command ν}
    (hown : GivesOwnSession st command) {now : ν} {r : Edited ν}
    (h : reduce st command now = .ok r) (hc' : Consistent r.1) : SessionsDistinct r.1 := by
  obtain ⟨-, t, ht, h⟩ := reduce_ok.mp h
  by_cases hedits : t.editsPanels = false
  · exact hd.of_kept (.of_eq (edit_panels hedits now r h))
  · cases t with
    | projectClose => exact hd.of_kept (projectClose_kept r h)
    | panelMoveToFolder => exact hd.of_kept (panelMoveToFolder_kept r h)
    | folderOfferAccept => exact hd.of_kept (folderOfferAccept_kept r h)
    | panelMove => exact hd.of_kept (panelMove_kept hc r h)
    | panelClose => exact hd.of_kept (panelClose_kept r h)
    | panelCreate => exact panelCreate_distinct hd ht hown r h hc'
    | panelUpdate => exact panelUpdate_distinct hc hd ht hown r h hc'
    | terminalCreatePanel => exact terminalCreatePanel_distinct hc hd r h hc'
    | _ => exact absurd rfl hedits

end Terminay.Workspace
